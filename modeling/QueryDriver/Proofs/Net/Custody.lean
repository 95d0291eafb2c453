import Mathlib.Data.List.Perm.Basic
import QueryDriver.Proofs.Net.RoundTrip

/-!
# The custody of lines

Every open line should be in the keeping of somebody: of the pool, of a cursor, or of the
operation that is being carried out. `Custody smooth a placed` says that `placed` lists
the lines that are, each of them once, and that an open line which is not among them is
abandoned: nobody will ever close it.

A line is abandoned when it would not be armed, and that in two situations only: its peer
was not greeted, or a query to stop on it was not answered. So the account shows which
lines are abandoned, and as long as everything goes smoothly there are none.

The order of `placed` does not matter. The line that an operation works with is put in
front.
-/

namespace QueryDriver.Net

open Wire

namespace Account

/-- The line is open, but nobody will ever close it: its peer was never greeted, or a
query to stop on it was left without an answer. -/
def Abandoned (a : Account) (n : Nat) : Prop :=
  n ∉ a.closed ∧
    (n ∉ a.greeted ∨ ∃ x ∈ a.rounds, x.line = n ∧ x.IsOf .stop ∧ x.answer = none)

/-- The line is open and its peer was greeted, and every query to stop on it was
answered. -/
structure Ready (a : Account) (n : Nat) : Prop where
  opened : n ∈ a.opened
  open_ : n ∉ a.closed
  greeted : n ∈ a.greeted
  answered : ∀ x ∈ a.rounds, x.line = n → x.IsOf .stop → x.answer ≠ none

theorem Ready.not_abandoned {a : Account} {n : Nat} (h : a.Ready n) : ¬ a.Abandoned n := by
  rintro ⟨-, hgreeted | ⟨x, hx, hline, hstop, hanswer⟩⟩
  · exact hgreeted h.greeted
  · exact h.answered x hx hline hstop hanswer

theorem Ready.shut {a : Account} {m n : Nat} (h : a.Ready m) (hne : m ≠ n) :
    (a.shut n).Ready m where
  opened := by simpa using h.opened
  open_ := by simpa [hne] using h.open_
  greeted := by simpa using h.greeted
  answered := by simpa using h.answered

theorem Ready.openLine {a : Account} {m : Nat} (h : a.Ready m) (n : Nat) :
    (a.openLine n).Ready m where
  opened := List.mem_cons_of_mem n h.opened
  open_ := h.open_
  greeted := h.greeted
  answered := h.answered

theorem Ready.greet {a : Account} {m : Nat} (h : a.Ready m) (n : Nat) : (a.greet n).Ready m where
  opened := h.opened
  open_ := h.open_
  greeted := List.mem_cons_of_mem n h.greeted
  answered := h.answered

/-- A round keeps a line ready unless it is a query to stop on it without an answer. -/
theorem Ready.begin {a : Account} {m : Nat} (h : a.Ready m) {x : Round}
    (hx : x.line = m → x.IsOf .stop → x.answer ≠ none) : (a.begin x).Ready m where
  opened := h.opened
  open_ := h.open_
  greeted := h.greeted
  answered := List.forall_mem_cons.2 ⟨hx, h.answered⟩

theorem Abandoned.shut {a : Account} {m n : Nat} (h : a.Abandoned m) (hne : m ≠ n) :
    (a.shut n).Abandoned m := by
  obtain ⟨hopen, hwhy⟩ := h
  exact ⟨by simp [hne, hopen], by simpa using hwhy⟩

theorem Abandoned.begin {a : Account} {m : Nat} (h : a.Abandoned m) (x : Round) :
    (a.begin x).Abandoned m := by
  obtain ⟨hopen, hgreeted | ⟨y, hy, hstop⟩⟩ := h
  · exact ⟨hopen, .inl hgreeted⟩
  · exact ⟨hopen, .inr ⟨y, List.mem_cons_of_mem x hy, hstop⟩⟩

end Account

/-- The lines in `placed` are ready, each of them is there once, and an open line that is
not there is abandoned, which does not happen as long as everything goes smoothly. -/
structure Custody (smooth : Prop) (a : Account) (placed : List Nat) : Prop where
  nodup : placed.Nodup
  ready : ∀ n ∈ placed, a.Ready n
  stray : ∀ n ∈ a.opened, n ∉ a.closed → n ∉ placed → a.Abandoned n ∧ ¬ smooth
  opened_of_closed : ∀ n ∈ a.closed, n ∈ a.opened
  opened_of_greeted : ∀ n ∈ a.greeted, n ∈ a.opened
  opened_of_round : ∀ x ∈ a.rounds, x.line ∈ a.opened

namespace Custody

variable {smooth smooth' : Prop} {a : Account} {placed placed' : List Nat} {n : Nat}

theorem mono (h : Custody smooth a placed) (hs : smooth' → smooth) : Custody smooth' a placed :=
  { h with stray := fun m hm hopen hplaced => (h.stray m hm hopen hplaced).imp_right (mt hs) }

theorem perm (h : Custody smooth a placed) (hp : placed.Perm placed') :
    Custody smooth a placed' where
  nodup := hp.nodup_iff.1 h.nodup
  ready m hm := h.ready m (hp.mem_iff.2 hm)
  stray m hm hopen hplaced := h.stray m hm hopen (mt hp.mem_iff.1 hplaced)
  opened_of_closed := h.opened_of_closed
  opened_of_greeted := h.opened_of_greeted
  opened_of_round := h.opened_of_round

theorem not_mem_of_not_opened (h : Custody smooth a placed) (hn : n ∉ a.opened) :
    n ∉ placed :=
  fun hplaced => hn (h.ready n hplaced).opened

theorem shut (h : Custody smooth a (n :: placed)) : Custody smooth (a.shut n) placed := by
  obtain ⟨hn, hnodup⟩ := List.nodup_cons.1 h.nodup
  have hready := h.ready n List.mem_cons_self
  refine ⟨hnodup, fun m hm => ?_, fun m hm hopen hplaced => ?_, fun m hm => ?_, ?_, ?_⟩
  · have hne : m ≠ n := fun hmn => hn (hmn ▸ hm)
    exact (h.ready m (List.mem_cons_of_mem n hm)).shut hne
  · obtain ⟨hne, hopen⟩ : m ≠ n ∧ m ∉ a.closed := by simpa using hopen
    have hstray := h.stray m (by simpa using hm) hopen (by simp [hne, hplaced])
    exact ⟨hstray.1.shut hne, hstray.2⟩
  · rw [Account.opened_shut]
    obtain rfl | hclosed := Account.mem_closed_shut.1 hm
    · exact hready.opened
    · exact h.opened_of_closed m hclosed
  · simpa using h.opened_of_greeted
  · simpa using h.opened_of_round

theorem shutAll (ns : List Nat) (h : Custody smooth a (ns ++ placed)) :
    Custody smooth (a.shutAll ns) placed := by
  induction ns generalizing a with
  | nil => exact h
  | cons n ns ih => exact ih h.shut

theorem greet (h : Custody smooth a placed) (hn : n ∉ a.opened) :
    Custody smooth ((a.openLine n).greet n) (n :: placed) where
  nodup := List.nodup_cons.2 ⟨h.not_mem_of_not_opened hn, h.nodup⟩
  ready m hm := by
    obtain rfl | hm := List.mem_cons.1 hm
    · exact ⟨List.mem_cons_self, mt (h.opened_of_closed m) hn, List.mem_cons_self,
        fun x hx hline => absurd (hline ▸ h.opened_of_round x hx) hn⟩
    · exact ((h.ready m hm).openLine n).greet n
  stray m hm hopen hplaced := by
    obtain ⟨hne, hplaced⟩ : m ≠ n ∧ m ∉ placed := by simpa using hplaced
    obtain ⟨⟨-, hwhy⟩, hrough⟩ := h.stray m (by simpa [Account.openLine, Account.greet, hne]
      using hm) hopen hplaced
    exact ⟨⟨hopen, hwhy.imp_left fun hgreeted => by simp [Account.greet, hne, Account.openLine,
      hgreeted]⟩, hrough⟩
  opened_of_closed m hm := List.mem_cons_of_mem n (h.opened_of_closed m hm)
  opened_of_greeted := List.forall_mem_cons.2
    ⟨List.mem_cons_self, fun m hm => List.mem_cons_of_mem n (h.opened_of_greeted m hm)⟩
  opened_of_round x hx := List.mem_cons_of_mem n (h.opened_of_round x hx)

theorem openLine_shut (h : Custody smooth a placed) (hn : n ∉ a.opened) :
    Custody smooth ((a.openLine n).shut n) placed where
  nodup := h.nodup
  ready m hm := by
    have hne : m ≠ n := fun hmn => h.not_mem_of_not_opened hn (hmn ▸ hm)
    exact ((h.ready m hm).openLine n).shut hne
  stray m hm hopen hplaced := by
    obtain ⟨hne, hopen⟩ : m ≠ n ∧ m ∉ a.closed := by simpa [Account.openLine] using hopen
    obtain ⟨⟨-, hwhy⟩, hrough⟩ :=
      h.stray m (by simpa [Account.openLine, hne] using hm) hopen hplaced
    have habandoned : (a.openLine n).Abandoned m := ⟨hopen, hwhy⟩
    exact ⟨habandoned.shut hne, hrough⟩
  opened_of_closed m hm := by
    rw [Account.opened_shut]
    obtain rfl | hclosed := Account.mem_closed_shut.1 hm
    · exact List.mem_cons_self
    · exact List.mem_cons_of_mem n (h.opened_of_closed m hclosed)
  opened_of_greeted m hm := by
    rw [Account.greeted_shut] at hm
    rw [Account.opened_shut]
    exact List.mem_cons_of_mem n (h.opened_of_greeted m hm)
  opened_of_round x hx := by
    rw [Account.rounds_shut] at hx
    rw [Account.opened_shut]
    exact List.mem_cons_of_mem n (h.opened_of_round x hx)

/-- A new line would not be armed for the greeting. -/
theorem openLine (h : Custody smooth a placed) (hn : n ∉ a.opened) :
    Custody False (a.openLine n) placed where
  nodup := h.nodup
  ready m hm := (h.ready m hm).openLine n
  stray m hm hopen hplaced := by
    refine ⟨?_, not_false⟩
    obtain rfl | hm := List.mem_cons.1 hm
    · exact ⟨hopen, .inl (mt (h.opened_of_greeted m) hn)⟩
    · exact (h.stray m hm hopen hplaced).1
  opened_of_closed m hm := List.mem_cons_of_mem n (h.opened_of_closed m hm)
  opened_of_greeted m hm := List.mem_cons_of_mem n (h.opened_of_greeted m hm)
  opened_of_round x hx := List.mem_cons_of_mem n (h.opened_of_round x hx)

/-- A round on a line in keeping that is no query to stop without an answer. -/
theorem begin (h : Custody smooth a (n :: placed)) {x : Round} (hline : x.line = n)
    (hx : x.IsOf .stop → x.answer ≠ none) : Custody smooth (a.begin x) (n :: placed) where
  nodup := h.nodup
  ready m hm := (h.ready m hm).begin fun _ => hx
  stray m hm hopen hplaced := by
    obtain ⟨habandoned, hrough⟩ := h.stray m hm hopen hplaced
    exact ⟨habandoned.begin x, hrough⟩
  opened_of_closed := h.opened_of_closed
  opened_of_greeted := h.opened_of_greeted
  opened_of_round := List.forall_mem_cons.2
    ⟨hline ▸ (h.ready n List.mem_cons_self).opened, h.opened_of_round⟩

theorem begin_shut (h : Custody smooth a (n :: placed)) {x : Round} (hline : x.line = n) :
    Custody smooth ((a.begin x).shut n) placed := by
  obtain ⟨hn, hnodup⟩ := List.nodup_cons.1 h.nodup
  have hready := h.ready n List.mem_cons_self
  refine ⟨hnodup, fun m hm => ?_, fun m hm hopen hplaced => ?_, fun m hm => ?_, ?_, ?_⟩
  · have hne : m ≠ n := fun hmn => hn (hmn ▸ hm)
    have hbegin := (h.ready m (List.mem_cons_of_mem n hm)).begin
      fun hxm : x.line = m => absurd (hxm.symm.trans hline) hne
    exact hbegin.shut hne
  · obtain ⟨hne, hopen⟩ : m ≠ n ∧ m ∉ a.closed := by simpa [Account.begin] using hopen
    have hstray := h.stray m (by simpa [Account.begin] using hm) hopen (by simp [hne, hplaced])
    exact ⟨(hstray.1.begin x).shut hne, hstray.2⟩
  · rw [Account.opened_shut]
    obtain rfl | hclosed := Account.mem_closed_shut.1 hm
    · exact hready.opened
    · exact h.opened_of_closed m hclosed
  · rw [Account.greeted_shut, Account.opened_shut]
    exact h.opened_of_greeted
  · rw [Account.rounds_shut, Account.opened_shut]
    exact List.forall_mem_cons.2 ⟨hline ▸ hready.opened, h.opened_of_round⟩

/-- A line in keeping would not be armed for a query to stop. -/
theorem begin_stop (h : Custody smooth a (n :: placed)) {x : Round} (hline : x.line = n)
    (hstop : x.IsOf .stop) (hanswer : x.answer = none) : Custody False (a.begin x) placed := by
  obtain ⟨hn, hnodup⟩ := List.nodup_cons.1 h.nodup
  refine ⟨hnodup, fun m hm => ?_, fun m hm hopen hplaced => ⟨?_, not_false⟩,
    h.opened_of_closed, h.opened_of_greeted, ?_⟩
  · have hne : m ≠ n := fun hmn => hn (hmn ▸ hm)
    exact (h.ready m (List.mem_cons_of_mem n hm)).begin
      fun hxm : x.line = m => absurd (hxm.symm.trans hline) hne
  · by_cases hmn : m = n
    · exact ⟨hopen, .inr ⟨x, List.mem_cons_self, hline.trans hmn.symm, hstop, hanswer⟩⟩
    · exact (h.stray m hm hopen (by simp [hmn, hplaced])).1.begin x
  · exact List.forall_mem_cons.2
      ⟨hline ▸ (h.ready n List.mem_cons_self).opened, h.opened_of_round⟩

end Custody

end QueryDriver.Net
