import QueryDriver.Proofs.System.History

/-!
# What histories send

A history of managed operations speaks to the server in dialogues, one for each token,
however the operations on the session and on its cursors are mixed. Dialogues start in the
order of their tokens, and a line carries tokens in order too, so a leftover answer on a
line has a smaller token than the query that waits there. What is accepted as an answer
has the token of its query, and the rows of a cursor have come in answers with its token.

A dialogue is tight unless a refusal comes out of an operation: only then may a query be
sent although the one before it, a query to continue, had no answer.
-/

namespace QueryDriver

open Net

variable {σ τ : Type} {t : Transport σ τ} {L : Ledger t}

/-- Tokens are in order, and answers and rows belong to their tokens. -/
structure System.Isolated (L : Ledger t) (s : System σ) : Prop where
  starts : (s.account L).chronicle.Pairwise fun x y =>
    x.IsOf .start → y.IsOf .start → x.token < y.token
  lines : (s.account L).chronicle.Pairwise fun x y => x.line = y.line →
    x.token ≤ y.token ∧ (y.IsOf .start → x.token < y.token)
  answers : ∀ x ∈ (s.account L).chronicle, ∀ r, x.answer = some r →
    r.tokenValue = x.token
  rows : ∀ c ∈ s.cursors, ∀ d, d ∈ c.buffer ∨ c.current = some d →
    ∃ x ∈ (s.account L).chronicle, ∃ r, x.answer = some r ∧ x.token = c.token ∧
      r.tokenValue = c.token ∧ d ∈ r.values

/-- A response of one row, of which there are more. -/
def partOfMore : Wire.Response :=
  { Wire.Response.empty with
    tag := some Wire.ResponseType.partialSequence.code
    values := [.ofText "row"] }

namespace System

variable {s : System σ} {smooth : Prop}

theorem Sound.isolated (h : s.Sound L smooth) : s.Isolated L where
  starts := List.pairwise_reverse.2 (h.talk.ordered.imp fun hf _ => hf.start)
  lines := List.pairwise_reverse.2 (h.talk.ordered.imp fun hf hline => ⟨hf.line hline, hf.start⟩)
  answers x hx := h.talk.matched x (List.mem_reverse.1 hx)
  rows c hc d hd := by
    obtain ⟨x, hx, r, hanswer, htoken, hrow⟩ := (h.backed c hc).rows d hd
    have hmatched := h.talk.matched x hx r hanswer
    exact ⟨x, List.mem_reverse.2 hx, r, hanswer, htoken, hmatched.trans htoken, hrow⟩

variable [Clock τ] {ops : List Operation}

/-- The queries of every token that a history sends are a dialogue. It is tight if the
history shows no refusal. -/
theorem dialogue_of_play (hs : s.Begins L) (hops : ∀ op ∈ ops, op.Managed) (token : Int64) :
    Dialogue (∀ o ∈ (s.play t ops).1, ¬ ShowsRefusal o)
      (((s.play t ops).2.account L).dialogue token) := by
  have hplay := (hs.sound.play hops).talk.dialogue token
  refine ⟨hplay.word, hplay.line, hplay.chain.imp fun x y hxy => ?_⟩
  exact hxy.imp_right fun hx => ⟨hx.1, fun hnone => hx.2 ⟨trivial, hnone⟩⟩

/-- Reading one row of more, and closing the cursor. -/
theorem dialogue_of_run_close :
    (∀ op ∈ [.run .null, .cursor 0 .next, .cursor 0 .close], Operation.Managed op) ∧
      Dialogue (∀ o ∈ (scripted [.plain] [[.response partOfMore 0]]).play Script.transport
          [.run .null, .cursor 0 .next, .cursor 0 .close] |>.1, ¬ ShowsRefusal o)
        ((((scripted [.plain] [[.response partOfMore 0]]).play Script.transport
          [.run .null, .cursor 0 .next, .cursor 0 .close]).2.account
            Script.ledger).dialogue 1) :=
  have hops : ∀ op ∈ [.run .null, .cursor 0 .next, .cursor 0 .close], Operation.Managed op := by
    simp [Operation.Managed]
  ⟨hops, dialogue_of_play (begins_scripted _ _) hops 1⟩

/-- In every history tokens are in order and answers and rows belong to their tokens; and a
round trip, whatever it is for, accepts no answer with another token than that of its query. -/
theorem isolated_of_play (hs : s.Begins L) (hops : ∀ op ∈ ops, op.Managed) :
    (s.play t ops).2.Isolated L ∧
      ∀ (c : Connection) (query : Wire.Query) (timeout : Option τ) (w w' : World σ)
        (r : Wire.Response), (c.execute t query timeout).run w = (.ok r, w') →
          r.tokenValue = query.tokenValue := by
  refine ⟨(hs.sound.play hops).isolated, fun c query timeout w w' r hrun => ?_⟩
  have hexchanged := Connection.execute_exchanged (L := L) hrun
  generalize w'.account L = a at hexchanged
  cases hexchanged with
  | answered r hopen htoken => exact htoken

/-- Two runs, on a line that answers the first one late. -/
theorem isolated_of_run_twice :
    (∀ op ∈ [.run .null, .cursor 0 .exhaust, .run .null], Operation.Managed op) ∧
      ((scripted [.plain] [[.response partOfMore 0], [.response partOfMore (-1)]]).play
        Script.transport [.run .null, .cursor 0 .exhaust, .run .null]).2.Isolated Script.ledger :=
  have hops : ∀ op ∈ [.run .null, .cursor 0 .exhaust, .run .null], Operation.Managed op := by
    simp [Operation.Managed]
  ⟨hops, (isolated_of_play (begins_scripted _ _) hops).1⟩

end System

end QueryDriver
