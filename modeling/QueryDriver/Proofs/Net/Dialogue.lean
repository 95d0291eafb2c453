import QueryDriver.Cursor
import QueryDriver.Proofs.Net.Account

/-!
# Dialogues

The rounds of one token are a dialogue: a query that starts it, queries that continue it,
and at the end perhaps one that stops it, all on one line. `Talk smooth latest rounds`
says that all rounds together, newest first, are made of dialogues. The token of a query
that starts a dialogue is greater than all tokens before it, so a line carries the tokens
in order.

Who may continue a dialogue holds the right to do so, `Holding`. Every round of the
dialogue has left it open then: it was answered by a part of a sequence. The one
exception is a query to continue that found its line unwilling to be armed. It is not
answered and leaves the dialogue open, which does not happen as long as everything goes
smoothly.
-/

namespace QueryDriver.Net

open Wire

namespace Round

/-- The answer is a part of a sequence, of which there is more. -/
def AnsweredPartially (x : Round) : Prop :=
  ∃ r, x.answer = some r ∧ Shape.ofResponse? r = some .partialSequence

/-- The query is one to continue, and there is no answer. -/
def Unanswered (x : Round) : Prop := x.IsOf .continue ∧ x.answer = none

/-- The round leaves its dialogue open. -/
def LeavesOpen (smooth : Prop) (x : Round) : Prop :=
  (x.IsOf .start ∨ x.IsOf .continue) ∧ (x.AnsweredPartially ∨ x.Unanswered ∧ ¬ smooth)

/-- The answer carries the token of the query. -/
def Matched (x : Round) : Prop := ∀ r, x.answer = some r → r.tokenValue = x.token

theorem LeavesOpen.mono {smooth smooth' : Prop} {x : Round} (h : x.LeavesOpen smooth)
    (hs : smooth' → smooth) : x.LeavesOpen smooth' :=
  h.imp_right fun h => h.imp_right fun h => h.imp_right (mt hs)

theorem IsOf.unique {x : Round} {a b : QueryType} (ha : x.IsOf a) (hb : x.IsOf b) : a = b := by
  have hcode : a.code = b.code := Option.some.inj (ha.symm.trans hb)
  cases a <;> cases b <;> first | rfl | exact absurd hcode (by decide)

end Round

/-- What a round and a later one have to do with each other. -/
structure Follows (smooth : Prop) (x y : Round) : Prop where
  same : x.token = y.token → x.line = y.line ∧ x.LeavesOpen smooth
  start : y.IsOf .start → x.token < y.token
  line : x.line = y.line → x.token ≤ y.token

/-- The rounds are made of dialogues, and no token is greater than `latest`. -/
structure Talk (smooth : Prop) (latest : Nat) (rounds : List Round) : Prop where
  kinds : ∀ x ∈ rounds, x.IsOf .start ∨
    ((x.IsOf .continue ∨ x.IsOf .stop) ∧ ∃ y ∈ rounds, y.IsOf .start ∧ y.token = x.token)
  bounded : ∀ x ∈ rounds, x.token.toInt ≤ latest
  matched : ∀ x ∈ rounds, x.Matched
  ordered : rounds.Pairwise fun y x => Follows smooth x y

/-- The rounds of a network, oldest first. -/
def Account.chronicle (a : Account) : List Round := a.rounds.reverse

/-- The rounds of a token, oldest first. -/
def Account.dialogue (a : Account) (token : Int64) : List Round :=
  a.chronicle.filter fun x => x.token = token

/-- The rounds are a dialogue from its start, as far as it has come: one query to start,
queries to continue, and at most one to stop, on one line. What follows a round follows an
answer that was a part of a sequence; unless the dialogue is tight, it may also follow a
query to continue that was not answered. -/
structure Dialogue (tight : Prop) (rounds : List Round) : Prop where
  word : rounds = [] ∨ ∃ first middle last, rounds = first :: (middle ++ last) ∧
    first.IsOf .start ∧ (∀ x ∈ middle, x.IsOf .continue) ∧
      (last = [] ∨ ∃ x, last = [x] ∧ x.IsOf .stop)
  line : ∃ n, ∀ x ∈ rounds, x.line = n
  chain : rounds.IsChain fun x _ => x.AnsweredPartially ∨ x.Unanswered ∧ ¬ tight

/-- The right to continue the dialogue of a token on a line. -/
structure Holding (smooth : Prop) (latest : Nat) (rounds : List Round) (n : Nat)
    (token : Int64) : Prop where
  bounded : token.toInt ≤ latest
  same : ∀ x ∈ rounds, x.token = token → x.line = n ∧ x.LeavesOpen smooth
  begun : ∃ x ∈ rounds, x.IsOf .start ∧ x.token = token
  newest : ∀ x ∈ rounds, x.line = n → x.token ≤ token

variable {smooth smooth' : Prop} {latest latest' n m : Nat} {rounds : List Round}
  {token token' : Int64} {x : Round}

theorem lt_of_toInt_le (h : token.toInt ≤ latest) (h' : token'.toInt = latest + 1) :
    token < token' := by
  rw [Int64.lt_iff_toInt_lt]
  omega

namespace Talk

theorem nil : Talk smooth latest [] := ⟨by simp, by simp, by simp, .nil⟩

theorem mono (h : Talk smooth latest rounds) (hs : smooth' → smooth) (hl : latest ≤ latest') :
    Talk smooth' latest' rounds where
  kinds := h.kinds
  bounded x hx := Int.le_trans (h.bounded x hx) (Int.ofNat_le.2 hl)
  matched := h.matched
  ordered := h.ordered.imp fun hf =>
    { hf with same := fun ht => (hf.same ht).imp_right fun ho => ho.mono hs }

theorem start (h : Talk smooth latest rounds) (hstart : x.IsOf .start)
    (htoken : x.token.toInt = latest + 1) (hmatched : x.Matched) :
    Talk smooth (latest + 1) (x :: rounds) where
  kinds := by
    refine List.forall_mem_cons.2 ⟨.inl hstart, fun y hy => (h.kinds y hy).imp_right ?_⟩
    rintro ⟨hkind, z, hz, hbegun⟩
    exact ⟨hkind, z, List.mem_cons_of_mem x hz, hbegun⟩
  bounded := by
    refine List.forall_mem_cons.2 ⟨Int.le_of_eq htoken, fun y hy => ?_⟩
    exact Int.le_trans (h.bounded y hy) (Int.ofNat_le.2 (Nat.le_succ latest))
  matched := List.forall_mem_cons.2 ⟨hmatched, h.matched⟩
  ordered := by
    refine List.pairwise_cons.2 ⟨fun y hy => ?_, h.ordered⟩
    have hlt : y.token < x.token := lt_of_toInt_le (h.bounded y hy) htoken
    exact ⟨fun ht => absurd (ht ▸ hlt) Int64.lt_irrefl, fun _ => hlt,
      fun _ => Int64.le_of_lt hlt⟩

theorem followUp (h : Talk smooth latest rounds)
    (hholding : Holding smooth latest rounds x.line x.token)
    (hkind : x.IsOf .continue ∨ x.IsOf .stop) (hmatched : x.Matched) :
    Talk smooth latest (x :: rounds) where
  kinds := by
    refine List.forall_mem_cons.2 ⟨.inr ⟨hkind, ?_⟩, fun y hy => (h.kinds y hy).imp_right ?_⟩
    · obtain ⟨z, hz, hbegun⟩ := hholding.begun
      exact ⟨z, List.mem_cons_of_mem x hz, hbegun⟩
    · rintro ⟨hkind, z, hz, hbegun⟩
      exact ⟨hkind, z, List.mem_cons_of_mem x hz, hbegun⟩
  bounded := List.forall_mem_cons.2 ⟨hholding.bounded, h.bounded⟩
  matched := List.forall_mem_cons.2 ⟨hmatched, h.matched⟩
  ordered := by
    refine List.pairwise_cons.2 ⟨fun y hy => ⟨hholding.same y hy, fun hstart => ?_,
      hholding.newest y hy⟩, h.ordered⟩
    obtain hkind | hkind := hkind <;> cases hkind.unique hstart

/-- Rounds that go on with a dialogue continue it, but for one at the end that may stop it. -/
theorem split_of_pairwise {rest : List Round}
    (hkinds : ∀ x ∈ rest, x.IsOf .continue ∨ x.IsOf .stop)
    (hopen : rest.Pairwise fun x _ => x.LeavesOpen smooth) :
    ∃ middle last, rest = middle ++ last ∧ (∀ x ∈ middle, x.IsOf .continue) ∧
      (last = [] ∨ ∃ x, last = [x] ∧ x.IsOf .stop) := by
  induction rest with
  | nil => exact ⟨[], [], rfl, by simp, .inl rfl⟩
  | cons x rest ih =>
      obtain ⟨hx, hopen⟩ := List.pairwise_cons.1 hopen
      obtain ⟨hkind, hkinds⟩ := List.forall_mem_cons.1 hkinds
      cases rest with
      | nil =>
          obtain hkind | hkind := hkind
          · exact ⟨[x], [], rfl, by simpa using hkind, .inl rfl⟩
          · exact ⟨[], [x], rfl, by simp, .inr ⟨x, rfl, hkind⟩⟩
      | cons y rest =>
          obtain ⟨middle, last, hrest, hmiddle, hlast⟩ := ih hkinds hopen
          refine ⟨x :: middle, last, by rw [hrest]; rfl, ?_, hlast⟩
          have hcontinue : x.IsOf .continue := by
            obtain hkind | hstop := hkind
            · exact hkind
            · obtain hstart | hcontinue := (hx y List.mem_cons_self).1
              · cases hstart.unique hstop
              · exact hcontinue
          exact List.forall_mem_cons.2 ⟨hcontinue, hmiddle⟩

theorem dialogue {a : Account} (h : Talk smooth latest a.rounds) (token : Int64) :
    Dialogue smooth (a.dialogue token) := by
  have hmem : ∀ x ∈ a.dialogue token, x ∈ a.rounds ∧ x.token = token := by
    simp [Account.dialogue, Account.chronicle]
  have hfollows : (a.dialogue token).Pairwise (Follows smooth) :=
    (List.pairwise_reverse.2 h.ordered).filter _
  have hsame : (a.dialogue token).Pairwise fun x y =>
      x.line = y.line ∧ x.LeavesOpen smooth ∧ ¬ y.IsOf .start := by
    refine hfollows.imp_of_mem fun {x y} hx hy hf => ?_
    have htoken : x.token = y.token := (hmem x hx).2.trans (hmem y hy).2.symm
    refine ⟨(hf.same htoken).1, (hf.same htoken).2, fun hstart => ?_⟩
    exact absurd (htoken ▸ hf.start hstart) Int64.lt_irrefl
  have hchain : (a.dialogue token).IsChain
      fun x _ => x.AnsweredPartially ∨ x.Unanswered ∧ ¬ smooth :=
    (hsame.imp fun hxy => hxy.2.1.2).isChain
  cases hrounds : a.dialogue token with
  | nil => exact ⟨.inl rfl, ⟨0, by simp⟩, .nil⟩
  | cons first rest =>
      rw [hrounds] at hmem hsame hchain
      obtain ⟨hfirst, hrest⟩ := List.pairwise_cons.1 hsame
      refine ⟨.inr ?_, ⟨first.line, List.forall_mem_cons.2 ⟨rfl, fun y hy => ?_⟩⟩, hchain⟩
      · have hstart : first.IsOf .start := by
          obtain ⟨hround, htoken⟩ := hmem first List.mem_cons_self
          obtain hstart | ⟨-, y, hy, hstart, hyt⟩ := h.kinds first hround
          · exact hstart
          · have hyd : y ∈ a.dialogue token := by
              simp [Account.dialogue, Account.chronicle, hy, hyt, htoken]
            obtain rfl | hlater := List.mem_cons.1 (hrounds ▸ hyd)
            · exact hstart
            · exact absurd hstart (hfirst y hlater).2.2
        have hkinds : ∀ x ∈ rest, x.IsOf .continue ∨ x.IsOf .stop := by
          intro x hx
          obtain hstart | ⟨hkind, -⟩ := h.kinds x (hmem x (List.mem_cons_of_mem first hx)).1
          · exact absurd hstart (hfirst x hx).2.2
          · exact hkind
        obtain ⟨middle, last, rfl, hmiddle, hlast⟩ :=
          split_of_pairwise hkinds (hrest.imp fun hxy => hxy.2.1)
        exact ⟨first, middle, last, rfl, hstart, hmiddle, hlast⟩
      · exact (hfirst y hy).1.symm

end Talk

namespace Holding

theorem mono (h : Holding smooth latest rounds n token) (hs : smooth' → smooth)
    (hl : latest ≤ latest') : Holding smooth' latest' rounds n token where
  bounded := Int.le_trans h.bounded (Int.ofNat_le.2 hl)
  same x hx ht := (h.same x hx ht).imp_right fun ho => ho.mono hs
  begun := h.begun
  newest := h.newest

/-- Rights on different lines belong to different dialogues. -/
theorem token_ne (h : Holding smooth latest rounds n token)
    (h' : Holding smooth latest rounds m token') (hne : n ≠ m) : token ≠ token' := by
  rintro rfl
  obtain ⟨x, hx, -, ht⟩ := h.begun
  exact hne ((h.same x hx ht).1.symm.trans (h'.same x hx ht).1)

theorem other (h : Holding smooth latest rounds n token) (hline : x.line ≠ n)
    (htoken : x.token ≠ token) : Holding smooth latest (x :: rounds) n token where
  bounded := h.bounded
  same := List.forall_mem_cons.2 ⟨fun ht => absurd ht htoken, h.same⟩
  begun := by
    obtain ⟨y, hy, hbegun⟩ := h.begun
    exact ⟨y, List.mem_cons_of_mem x hy, hbegun⟩
  newest := List.forall_mem_cons.2 ⟨fun hl => absurd hl hline, h.newest⟩

theorem start (h : Talk smooth latest rounds) (hstart : x.IsOf .start)
    (htoken : x.token.toInt = latest + 1) (hanswer : x.AnsweredPartially) :
    Holding smooth (latest + 1) (x :: rounds) x.line x.token := by
  have hlt : ∀ y ∈ rounds, y.token < x.token :=
    fun y hy => lt_of_toInt_le (h.bounded y hy) htoken
  refine ⟨Int.le_of_eq htoken,
    List.forall_mem_cons.2 ⟨fun _ => ⟨rfl, .inl hstart, .inl hanswer⟩, ?_⟩,
    ⟨x, List.mem_cons_self, hstart, rfl⟩,
    List.forall_mem_cons.2 ⟨fun _ => Int64.le_refl _, ?_⟩⟩
  · intro y hy ht
    exact absurd (ht ▸ hlt y hy) Int64.lt_irrefl
  · intro y hy _
    exact Int64.le_of_lt (hlt y hy)

theorem «continue» (h : Holding smooth latest rounds x.line x.token)
    (hopen : x.LeavesOpen smooth) : Holding smooth latest (x :: rounds) x.line x.token where
  bounded := h.bounded
  same := List.forall_mem_cons.2 ⟨fun _ => ⟨rfl, hopen⟩, h.same⟩
  begun := by
    obtain ⟨y, hy, hbegun⟩ := h.begun
    exact ⟨y, List.mem_cons_of_mem x hy, hbegun⟩
  newest := List.forall_mem_cons.2 ⟨fun _ => Int64.le_refl _, h.newest⟩

end Holding

end QueryDriver.Net
