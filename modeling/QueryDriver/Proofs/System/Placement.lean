import Mathlib.Data.List.Nodup
import Mathlib.Tactic.Common
import QueryDriver.Proofs.System.History

/-!
# Where the lines are

After every history of managed operations, each line that was ever opened is in exactly
one place: it is closed, or it is in the pool once, or one open cursor holds it. The
exception is a line that would not be armed for its greeting or for a query to stop. It
stays open and is in no place at all, and it shows: a refusal comes out of the operation.

The places count positions, so a line that is in the pool twice or with two cursors would
be in two places.
-/

namespace QueryDriver

open Net

variable {σ τ : Type} {t : Transport σ τ}

/-- Where the driver can have a line: among the closed ones, at a position of the pool, or
with the cursor of a number. -/
inductive System.Place where
  | closed
  | pool (position : Nat)
  | cursor (index : Nat)

/-- The line is in the place. -/
def System.IsAt (L : Ledger t) (s : System σ) (n : Nat) : System.Place → Prop
  | .closed => n ∈ (s.account L).closed
  | .pool position => s.client.session.lines[position]? = some n
  | .cursor index => ∃ c, s.cursors[index]? = some c ∧ n ∈ c.lines

/-- Every line that was opened and was not abandoned is in exactly one place. -/
structure System.InCustody (L : Ledger t) (s : System σ) : Prop where
  placed : ∀ n ∈ (s.account L).opened, ¬ (s.account L).Abandoned n →
    ∃! p, s.IsAt L n p
  abandoned : ∀ n, (s.account L).Abandoned n → ∀ p, ¬ s.IsAt L n p
  holder : ∀ c ∈ s.cursors, c.connection ≠ none → c.closed = false
  bounded : s.client.session.idle.length ≤ s.client.session.maxIdle
  empty : s.client.session.closed = true → s.client.session.idle = []

/-- Lines that are held once are held by one cursor each. -/
theorem index_eq_of_nodup_heldBy {cursors : List Cursor} (h : (heldBy cursors).Nodup)
    {i j n : Nat} {c d : Cursor} (hi : cursors[i]? = some c) (hj : cursors[j]? = some d)
    (hc : n ∈ c.lines) (hd : n ∈ d.lines) : i = j := by
  have hdisjoint := (List.nodup_flatMap.1 h).2
  obtain ⟨hi', rfl⟩ := List.getElem?_eq_some_iff.1 hi
  obtain ⟨hj', rfl⟩ := List.getElem?_eq_some_iff.1 hj
  rw [List.pairwise_iff_getElem] at hdisjoint
  obtain hlt | heq | hlt := lt_trichotomy i j
  · exact absurd hd (hdisjoint i j hi' hj' hlt hc)
  · exact heq
  · exact absurd hc (hdisjoint j i hj' hi' hlt hd)

namespace System

variable {L : Ledger t} {s : System σ} {smooth : Prop}

theorem Sound.ready (h : s.Sound L smooth) {n : Nat}
    (hn : n ∈ s.client.session.lines ++ heldBy s.cursors) : (s.account L).Ready n :=
  h.custody.ready n hn

theorem Sound.nodup (h : s.Sound L smooth) :
    (s.client.session.lines ++ heldBy s.cursors).Nodup :=
  h.custody.nodup

/-- A place other than that of the closed lines is a place in keeping. -/
theorem IsAt.mem {n : Nat} {p : Place} (h : s.IsAt L n p) (hp : p ≠ .closed) :
    n ∈ s.client.session.lines ++ heldBy s.cursors := by
  cases p with
  | closed => exact absurd rfl hp
  | pool i => exact List.mem_append_left _ (List.mem_of_getElem? h)
  | cursor i =>
      obtain ⟨c, hc, hn⟩ := h
      exact List.mem_append_right _ (List.mem_flatMap.2 ⟨c, List.mem_of_getElem? hc, hn⟩)

theorem Sound.place_unique (h : s.Sound L smooth) {n : Nat} {p q : Place}
    (hp : s.IsAt L n p) (hq : s.IsAt L n q) : p = q := by
  have hopen {p : Place} (hp : s.IsAt L n p) (hne : p ≠ .closed) : ¬ s.IsAt L n .closed :=
    (h.ready (hp.mem hne)).open_
  obtain ⟨hpool, hheld, hdisjoint⟩ := List.nodup_append'.1 h.nodup
  cases p with
  | closed =>
      cases q with
      | closed => rfl
      | pool j => exact absurd hp (hopen hq nofun)
      | cursor j => exact absurd hp (hopen hq nofun)
  | pool i =>
      have hn : n ∈ s.client.session.lines := List.mem_of_getElem? hp
      cases q with
      | closed => exact absurd hq (hopen hp nofun)
      | pool j =>
          obtain ⟨hi, -⟩ := List.getElem?_eq_some_iff.1 hp
          rw [(List.getElem?_inj hi hpool).1 (hp.trans hq.symm)]
      | cursor j =>
          obtain ⟨c, hc, hcn⟩ := hq
          exact absurd (List.mem_flatMap.2 ⟨c, List.mem_of_getElem? hc, hcn⟩) (hdisjoint hn)
  | cursor i =>
      have hclosed : ¬ s.IsAt L n .closed := hopen hp nofun
      obtain ⟨c, hc, hcn⟩ := hp
      cases q with
      | closed => exact absurd hq hclosed
      | pool j =>
          have hn : n ∈ s.client.session.lines := List.mem_of_getElem? hq
          exact absurd (List.mem_flatMap.2 ⟨c, List.mem_of_getElem? hc, hcn⟩) (hdisjoint hn)
      | cursor j =>
          obtain ⟨d, hd, hdn⟩ := hq
          rw [index_eq_of_nodup_heldBy hheld hc hd hcn hdn]

theorem Sound.inCustody (h : s.Sound L smooth) : s.InCustody L where
  placed n hn habandoned := by
    obtain ⟨p, hp⟩ : ∃ p, s.IsAt L n p := by
      by_cases hclosed : n ∈ (s.account L).closed
      · exact ⟨.closed, hclosed⟩
      by_cases hplaced : n ∈ s.client.session.lines ++ heldBy s.cursors
      · obtain hpool | hheld := List.mem_append.1 hplaced
        · obtain ⟨i, hi⟩ := List.mem_iff_getElem?.1 hpool
          exact ⟨.pool i, hi⟩
        · obtain ⟨c, hc, hn⟩ := List.mem_flatMap.1 hheld
          obtain ⟨i, hi⟩ := List.mem_iff_getElem?.1 hc
          exact ⟨.cursor i, c, hi, hn⟩
      · exact absurd (h.custody.stray n hn hclosed hplaced).1 habandoned
    exact ⟨p, hp, fun q hq => h.place_unique hq hp⟩
  abandoned n habandoned p hp := by
    by_cases hclosed : p = .closed
    · subst hclosed
      exact habandoned.1 hp
    · exact (h.ready (hp.mem hclosed)).not_abandoned habandoned
  holder c hc hconn := by
    obtain ⟨conn, hconn⟩ := Option.ne_none_iff_exists'.1 hconn
    exact (h.backed c hc).open_ conn hconn
  bounded := h.bounded
  empty := h.empty

variable [Clock τ]

/-- After every history of managed operations, lines are in custody. No line is abandoned
in a history that shows no refusal. -/
theorem custody_of_play {ops : List Operation} (hs : s.Begins L) (hops : ∀ op ∈ ops, op.Managed) :
    (s.play t ops).2.InCustody L ∧ ((∀ o ∈ (s.play t ops).1, ¬ ShowsRefusal o) →
      ∀ n ∈ ((s.play t ops).2.account L).opened,
        ¬ ((s.play t ops).2.account L).Abandoned n) := by
  have hplay := hs.sound.play hops
  refine ⟨hplay.inCustody, fun hnone n hn habandoned => ?_⟩
  have hplaced : n ∉ (s.play t ops).2.client.session.lines ++ heldBy (s.play t ops).2.cursors :=
    fun hplaced => (hplay.ready hplaced).not_abandoned habandoned
  exact (hplay.custody.stray n hn habandoned.1 hplaced).2 ⟨trivial, hnone⟩

/-- Running, reading and closing over a server that never answers. -/
theorem custody_of_run_silent :
    (System.scripted [.plain] []).Begins Script.ledger ∧
      (∀ op ∈ [.run .null, .cursor 0 .next, .session .close], Operation.Managed op) ∧
        ((System.scripted [.plain] []).play Script.transport
          [.run .null, .cursor 0 .next, .session .close]).2.InCustody Script.ledger :=
  have hops : ∀ op ∈ [.run .null, .cursor 0 .next, .session .close], Operation.Managed op := by
    simp [Operation.Managed]
  ⟨begins_scripted _ _, hops, (custody_of_play (begins_scripted _ _) hops).1⟩

end System

end QueryDriver
