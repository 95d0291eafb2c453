import QueryDriver.Proofs.Net.Parsing
import QueryDriver.Proofs.Net.RoundTrip

/-!
# Reading does not depend on how bytes arrive

A `Source` is a line on which bytes wait with the end of the stream behind them. A receive
delivers some of them, at least one, and how many is left to the transport, which may have
any reason for it. An action on the network tracks a parser when it does to every source, in
whatever pieces it delivers, what the parser does to the bytes that wait.

A round trip without a deadline tracks `Parser.answer` once its query is written. So two
sources with the same bytes give the same outcome and are left with the same bytes, and where
the bytes are frames of responses the outcome is the first one that is not stale.
-/

namespace QueryDriver.Net

open Wire

variable {σ σ' τ α β : Type}

/-- Bytes wait on a line. -/
structure Source (t : Transport σ τ) (n : Nat) where
  /-- The bytes that wait, behind which the stream ends. -/
  waiting : σ → Bytes
  /-- The line is in order. -/
  Steady : σ → Prop
  arm : ∀ {s}, Steady s → ∃ s', t.arm n none s = (.ok (), s') ∧ Steady s' ∧
    waiting s' = waiting s
  /-- A receive delivers bytes from the front, and nothing only where nothing waits. -/
  receive : ∀ {s} asked, Steady s → 0 < asked → ∃ chunk s', t.receive n asked s = (.ok chunk, s') ∧
    Steady s' ∧ waiting s = chunk.val ++ waiting s' ∧ (chunk.val = [] → waiting s = [])
  close : ∀ s, waiting (t.close n s).2 = waiting s
  supply : ∀ {s}, Steady s → (waiting s).length ≤ t.supply s

variable {t : Transport σ τ} {n : Nat}

/-- The action does to what waits on the line what the parser does to bytes. It closes no
line. -/
def Tracks (S : Source t n) (limit : Nat) (a : Action σ α) (p : Parser α) : Prop :=
  ∀ ⦃w : World σ⦄, S.Steady w.net → w.frameLimit = limit → ∃ w',
    a.run w = ((p.run (S.waiting w.net)).1, w') ∧ S.Steady w'.net ∧
      S.waiting w'.net = (p.run (S.waiting w.net)).2 ∧ w'.frameLimit = limit ∧
        w'.closed = w.closed

namespace Tracks

variable {S : Source t n} {limit : Nat}

protected theorem pure (x : α) : Tracks S limit (pure x) (pure x) :=
  fun w hw hlimit => ⟨w, rfl, hw, rfl, hlimit, rfl⟩

protected theorem throw (e : Failure) : Tracks S limit (throw e : Action σ α) (throw e) :=
  fun w hw hlimit => ⟨w, rfl, hw, rfl, hlimit, rfl⟩

protected theorem bind {a : Action σ α} {p : Parser α} {f : α → Action σ β} {g : α → Parser β}
    (ha : Tracks S limit a p) (hf : ∀ x, Tracks S limit (f x) (g x)) :
    Tracks S limit (a >>= f) (p >>= g) := by
  intro w hw hlimit
  obtain ⟨w₁, hrun, hw₁, hwaiting, hlimit₁, hclosed⟩ := ha hw hlimit
  rw [run_bind a f, run_bind p g, hrun]
  rcases hp : p.run (S.waiting w.net) with ⟨e | x, rest⟩
  · rw [hp] at hwaiting
    exact ⟨w₁, rfl, hw₁, hwaiting, hlimit₁, hclosed⟩
  · rw [hp] at hwaiting
    obtain ⟨w₂, hrun₂, hw₂, hwaiting₂, hlimit₂, hclosed₂⟩ := hf x hw₁ hlimit₁
    rw [hwaiting] at hrun₂ hwaiting₂
    exact ⟨w₂, hrun₂, hw₂, hwaiting₂, hlimit₂, hclosed₂.trans hclosed⟩

/-- The journal does not matter. -/
theorem record {e : LogEntry} {a : Action σ α} {p : Parser α} (h : Tracks S limit a p) :
    Tracks S limit (do Action.record e; a) p := by
  intro w hw hlimit
  exact h (w := { w with journal := w.journal.record e }) hw hlimit

/-- The limit on frames may be looked up. -/
theorem get {f : World σ → Action σ α} {p : Parser α}
    (h : ∀ w, w.frameLimit = limit → Tracks S limit (f w) p) :
    Tracks S limit (get >>= f) p := by
  intro w hw hlimit
  rw [run_bind_of_ok (Action.run_get w)]
  exact h w hlimit hw hlimit

end Tracks

namespace Connection

variable {c : Connection} {S : Source t c.line} {limit : Nat}

/-- Arming a source without a bound changes nothing that matters. -/
theorem run_arm {w : World σ} (hw : S.Steady w.net) : ∃ s', (c.arm t none).run w =
    (.ok (), { w with net := s' }) ∧ S.Steady s' ∧ S.waiting s' = S.waiting w.net := by
  obtain ⟨s', harm, hs', hwaiting⟩ := S.arm hw
  refine ⟨s', ?_, hs', hwaiting⟩
  rw [arm, run_bind_of_ok (Action.run_onNet _ _), harm]
  rfl

theorem run_clearDeadline {w : World σ} (hw : S.Steady w.net) : ∃ w',
    (c.clearDeadline t).run w = (.ok (), w') ∧ S.Steady w'.net ∧
      S.waiting w'.net = S.waiting w.net ∧ w'.closed = w.closed := by
  obtain ⟨s', harm, hs', hwaiting⟩ := S.arm hw
  rw [clearDeadline, run_bind_of_ok (run_isClosed c w)]
  split
  · exact ⟨w, rfl, hw, rfl, rfl⟩
  · rw [run_bind_of_ok (Action.run_onNet _ _), harm]
    exact ⟨_, rfl, hs', hwaiting, rfl⟩

/-- A guarded action has its own outcome and leaves what waits as it is, even if the line is
closed behind it. It leaves the line in order if it succeeds. -/
theorem run_guarded {action : Action σ α} {w w₁ : World σ} {o : Except Failure α}
    (h : action.run w = (o, w₁)) (hw₁ : S.Steady w₁.net) : ∃ w₂,
      (c.guarded t action).run w = (o, w₂) ∧ S.waiting w₂.net = S.waiting w₁.net ∧
        ∀ x, o = .ok x → S.Steady w₂.net ∧ w₂.closed = w₁.closed := by
  rcases hguarded : (c.guarded t action).run w with ⟨o', w₃⟩
  obtain ⟨w₁', w₂, haction, hclear, hcases⟩ := guarded_parts hguarded
  rw [h] at haction
  cases haction
  refine ⟨w₃, rfl, ?_⟩
  obtain ⟨⟨e, rfl⟩, habort⟩ | ⟨-, rfl⟩ := hcases
  · obtain ⟨w₂', habort', hmem, -, hnet⟩ := abort_net (t := t) c w₁
    rw [habort] at habort'
    cases habort'
    rw [run_clearDeadline_closed hmem] at hclear
    cases hclear
    refine ⟨?_, fun x hx => by cases hx⟩
    obtain hnet | hnet := hnet
    · rw [hnet]
    · rw [hnet, S.close]
  · obtain ⟨w₂', hclear', hw₂, hwaiting, hclosed⟩ := run_clearDeadline (c := c) hw₁
    rw [hclear] at hclear'
    cases hclear'
    exact ⟨hwaiting, fun _ _ => ⟨hw₂, hclosed⟩⟩

variable [Clock τ]

theorem tracks_readWithin {frameStart : Bool} {fuel missing : Nat} (hfuel : missing ≤ fuel)
    (got : Bytes) : Tracks S limit (c.readWithin t none frameStart fuel missing got)
      (Parser.complete c.peer frameStart missing got) := by
  induction fuel generalizing missing got with
  | zero =>
      obtain rfl := Nat.le_zero.1 hfuel
      rw [Parser.complete_zero]
      exact .pure got
  | succ fuel ih =>
      cases missing with
      | zero =>
          rw [Parser.complete_zero]
          exact .pure got
      | succ missing =>
          intro w hw hlimit
          obtain ⟨s₁, harm, hs₁, hwaiting₁⟩ := run_arm (t := t) (c := c) (S := S) hw
          obtain ⟨⟨chunk, hlength⟩, s₂, hreceive, hs₂, hchunk, hnil⟩ :=
            S.receive (missing + 1) hs₁ (Nat.succ_pos missing)
          rw [readWithin, applyDeadline, run_bind_of_ok harm,
            run_bind_of_ok (Action.run_onNet _ _), hreceive, ← hwaiting₁]
          cases chunk with
          | nil =>
              have hdone := hnil rfl
              have hrest : S.waiting s₂ = [] := hchunk.symm.trans hdone
              refine ⟨{ w with net := s₂ }, ?_, hs₂, ?_, hlimit, rfl⟩
              · rw [hdone]
                cases hstart : frameStart && got.isEmpty <;>
                  simp [Parser.complete, ExceptT.run, hstart] <;> rfl
              · rw [hdone]
                simpa [Parser.complete, ExceptT.run] using hrest
          | cons b bs =>
              rw [hchunk, Parser.run_complete_chunk hlength]
              have hmissing : missing + 1 - (b :: bs).length ≤ fuel := by
                rw [List.length_cons]
                omega
              exact ih hmissing (got ++ b :: bs) (w := { w with net := s₂ }) hs₂ hlimit

theorem tracks_readPayload (size : Nat) :
    Tracks S limit (c.readPayload t none size) (Parser.payload c.peer size) := by
  refine .bind (tracks_readWithin (Nat.le_refl size) []) fun payload => ?_
  cases Response.decode payload with
  | none => exact .throw _
  | some r => exact .pure r

theorem tracks_readResponse :
    Tracks S limit (c.readResponse t none) (Parser.response limit c.peer) := by
  refine .bind (tracks_readWithin (Nat.le_refl headerSize) []) fun header => .get fun w hw => ?_
  subst hw
  dsimp only
  split
  · exact .bind (.throw _) fun _ => tracks_readPayload _
  · exact tracks_readPayload _

theorem tracks_awaitWithin (token : Int64) (fuel : Nat) :
    Tracks S limit (c.awaitWithin t none token fuel)
      (Parser.answerWithin limit c.peer token fuel) := by
  induction fuel with
  | zero => exact .throw _
  | succ fuel ih =>
      refine .bind tracks_readResponse fun r => ?_
      split
      · exact .record ih
      · split
        · exact .throw _
        · exact .pure _

/-- No more responses can come than bytes wait, so all that come are looked at. -/
theorem tracks_await (token : Int64) :
    Tracks S limit (c.await t none token) (Parser.answer limit c.peer token) := by
  intro w hw hlimit
  have hsupply : (S.waiting w.net).length < t.supply w.net + 1 := Nat.lt_succ_of_le (S.supply hw)
  rw [await, run_bind_of_ok (Action.run_get w), ← Parser.run_answerWithin hsupply]
  exact tracks_awaitWithin token _ hw hlimit

/-- The query is written in full on an open line, and then `bs` waits. -/
structure Awaits (S : Source t c.line) (query : Query) (w : World σ) (bs : Bytes) : Prop where
  opened : c.line ∉ w.closed
  written : ∃ frame w₁, encodeFrame w.frameLimit query.encode = .ok frame ∧
    (c.write t none frame).run
        { w with journal := w.journal.record (.sending c.line c.peer query) } = (.ok (), w₁) ∧
      S.Steady w₁.net ∧ S.waiting w₁.net = bs

/-- A round trip without a deadline does to the bytes that wait what `Parser.answer` does, and
a line that has given an answer is as good as before. -/
theorem run_execute {query : Query} {w : World σ} {bs rest : Bytes} {o : Except Failure Response}
    (h : Awaits S query w bs)
    (ho : (Parser.answer w.frameLimit c.peer query.tokenValue).run bs = (o, rest)) : ∃ w',
      (c.execute t query none).run w = (o, w') ∧ S.waiting w'.net = rest ∧
        ∀ r, o = .ok r → S.Steady w'.net ∧ c.line ∉ w'.closed := by
  obtain ⟨frame, w₁, hframe, hwrite, hw₁, rfl⟩ := h.written
  have hworld := (preserves_writeWithin (f := fun w => (w.closed, w.frameLimit))
    (fun _ _ => rfl) (fun _ _ _ => rfl) _ _).same hwrite
  obtain ⟨hclosed, hlimit⟩ := Prod.mk.inj hworld
  obtain ⟨w₂, hawait, hw₂, hwaiting₂, -, hclosed₂⟩ := tracks_await query.tokenValue hw₁ hlimit
  rw [ho] at hawait hwaiting₂
  obtain ⟨w₃, hguarded, hwaiting₃, hkept⟩ :=
    run_guarded ((run_exchange_written hwrite hframe).trans hawait) hw₂
  rw [run_execute_open h.opened]
  cases o with
  | error e =>
      exact ⟨w₃, run_bind_of_error hguarded, hwaiting₃.trans hwaiting₂, fun r hr => by cases hr⟩
  | ok r =>
      obtain ⟨hw₃, hclosed₃⟩ := hkept r rfl
      refine ⟨_, run_bind_of_ok hguarded, hwaiting₃.trans hwaiting₂, fun _ _ => ⟨hw₃, ?_⟩⟩
      change c.line ∉ w₃.closed
      rw [hclosed₃, hclosed₂, hclosed]
      exact h.opened

variable {t' : Transport σ' τ} {S' : Source t' c.line}

/-- A query that is written and has no deadline comes to the same on all lines where the same
bytes wait, and the same bytes are left there. Where the bytes are frames of responses, they
are taken up to the first response that is not stale. -/
theorem execute_eq_of_waiting {query : Query} {w : World σ} {w' : World σ'} {bs : Bytes}
    (h : Awaits S query w bs) (h' : Awaits S' query w' bs) (hsame : w'.frameLimit = w.frameLimit)
    (hlimit : w.frameLimit < 4294967296) :
    ∃ o w₁ w₁', (c.execute t query none).run w = (o, w₁) ∧
      (c.execute t' query none).run w' = (o, w₁') ∧ S'.waiting w₁'.net = S.waiting w₁.net ∧
        (∀ r, o = .ok r → S.Steady w₁.net ∧ c.line ∉ w₁.closed) ∧
        ∀ incoming : List (Bytes × Response),
          (∀ p ∈ incoming, Response.decode p.1 = some p.2) →
          encodeFrames w.frameLimit (incoming.map Prod.fst) = .ok bs →
            Parser.Answers w.frameLimit c.peer query.tokenValue incoming o (S.waiting w₁.net) := by
  rcases hanswer : (Parser.answer w.frameLimit c.peer query.tokenValue).run bs with ⟨o, rest⟩
  obtain ⟨w₁, hrun, hwaiting, hkept⟩ := run_execute h hanswer
  obtain ⟨w₁', hrun', hwaiting', -⟩ := run_execute h' (hsame ▸ hanswer)
  refine ⟨o, w₁, w₁', hrun, hrun', hwaiting'.trans hwaiting.symm, hkept, ?_⟩
  intro incoming hdecode hframes
  have hanswers : Parser.Answers w.frameLimit c.peer query.tokenValue incoming _ _ :=
    Parser.answers_run_answer hlimit hdecode hframes
  rw [hanswer] at hanswers
  rwa [hwaiting]

end Connection

/-- Bytes that come in pieces. -/
structure Tape where
  bytes : Bytes
  /-- How many bytes more than one every receive delivers. -/
  pieces : List Nat

namespace Tape

/-- Delivers the next piece. -/
def receive (asked : Nat) (s : Tape) :
    Except SocketFault { bs : Bytes // bs.length ≤ asked } × Tape :=
  let count := min asked (s.pieces.headD 0 + 1)
  (.ok ⟨s.bytes.take count, Nat.le_trans (List.length_take_le _ _) (Nat.min_le_left _ _)⟩,
    ⟨s.bytes.drop count, s.pieces.tail⟩)

/-- A line that takes in all that is sent. -/
def transport : Transport Tape Int where
  now _ := 0
  dial _ _ s := (.error .timedOut, s)
  arm _ _ s := (.ok (), s)
  send _ _ rest s := (.ok (Fin.last rest.length), s)
  receive _ asked s := s.receive asked
  close _ s := (.ok (), s)
  supply s := s.bytes.length

/-- Every line plays the tape. -/
def source (n : Nat) : Source transport n where
  waiting s := s.bytes
  Steady _ := True
  arm _ := ⟨_, rfl, trivial, rfl⟩
  receive {s} asked _ hasked := by
    refine ⟨_, _, rfl, trivial, (List.take_append_drop _ _).symm, fun hnil => ?_⟩
    obtain hzero | hnone := List.take_eq_nil_iff.1 hnil
    · omega
    · exact hnone
  close _ := rfl
  supply _ := Nat.le_refl _

/-- A query that is short enough is written at once. -/
theorem awaits {c : Connection} {query : Query} {w : World Tape} (hopen : c.line ∉ w.closed)
    {frame : Bytes} (hframe : encodeFrame w.frameLimit query.encode = .ok frame) :
    c.Awaits (source c.line) query w w.net.bytes := by
  refine ⟨hopen, frame, { w with journal := w.journal.record (.sending c.line c.peer query) },
    hframe, ?_, trivial, rfl⟩
  obtain ⟨b, bs, rfl⟩ := List.exists_cons_of_ne_nil (frame_ne_nil hframe)
  have hall : bs.drop (Fin.last bs.length).val = [] := List.drop_length
  change (c.writeWithin transport none bs.length (bs.drop (Fin.last bs.length).val)).run _ = _
  rw [hall, Connection.writeWithin_nil]
  rfl

end Tape

/-- A response that tells nothing but its token, behind its bytes. -/
def bareResponse (token : UInt8) : Bytes × Response :=
  ([16, token], { Response.empty with token := some (.ofNat token.toNat) })

namespace Tape

/-- The line that plays the tape. -/
def line : Connection := ⟨0, default⟩

/-- The frames of three bare responses, the first to the third. -/
def threeFrames : Bytes :=
  [2, 0, 0, 0, 16, 1] ++ [2, 0, 0, 0, 16, 2] ++ [2, 0, 0, 0, 16, 3]

/-- Nothing has happened yet, and the three frames are there in pieces. -/
def threeIn (pieces : List Nat) : World Tape := ⟨⟨threeFrames, pieces⟩, [], maxFrame, Journal.fresh⟩

end Tape

/-- Bytes one by one, and bytes in pieces that begin and end within frames: the stale response
is passed over, the answer is taken, and the response behind it is left. -/
theorem execute_eq_of_waiting_stale :
    Tape.line.Awaits (Tape.source 0) (.followUp .continue 2) (Tape.threeIn []) Tape.threeFrames ∧
      Tape.line.Awaits (Tape.source 0) (.followUp .continue 2) (Tape.threeIn [2, 1, 0, 4])
        Tape.threeFrames ∧
      maxFrame < 4294967296 ∧
      ∃ w₁ w₁',
        (Tape.line.execute Tape.transport (.followUp .continue 2) none).run (Tape.threeIn []) =
          (.ok (bareResponse 2).2, w₁) ∧
        (Tape.line.execute Tape.transport (.followUp .continue 2) none).run
          (Tape.threeIn [2, 1, 0, 4]) = (.ok (bareResponse 2).2, w₁') ∧
        w₁.net.bytes = [2, 0, 0, 0, 16, 3] ∧ w₁'.net.bytes = [2, 0, 0, 0, 16, 3] := by
  have hframe : encodeFrame maxFrame (Query.followUp .continue 2).encode = .ok _ :=
    encodeFrame_eq_ok.2 ⟨by decide +kernel, rfl⟩
  have hawaits (pieces : List Nat) : Tape.line.Awaits (Tape.source 0) (.followUp .continue 2)
      (Tape.threeIn pieces) Tape.threeFrames :=
    Tape.awaits (w := Tape.threeIn pieces) (by simp [Tape.threeIn]) hframe
  obtain ⟨o, w₁, w₁', hrun, hrun', hsame, -, hanswers⟩ := Connection.execute_eq_of_waiting
    (hawaits []) (hawaits [2, 1, 0, 4]) rfl (by decide)
  have hdecode : ∀ p ∈ [bareResponse 1, bareResponse 2, bareResponse 3],
      Response.decode p.1 = some p.2 := by
    simp only [List.forall_mem_cons, List.not_mem_nil, false_imp_iff, implies_true, and_true]
    exact ⟨rfl, rfl, rfl⟩
  have hthird : encodeFrames maxFrame [(bareResponse 3).1] = .ok [2, 0, 0, 0, 16, 3] := rfl
  obtain ⟨hlater, ⟨-, rfl⟩ | ⟨hlt, -⟩⟩ := hanswers _ hdecode rfl
  · have hbytes : w₁.net.bytes = [2, 0, 0, 0, 16, 3] := Except.ok.inj (hlater.symm.trans hthird)
    exact ⟨hawaits [], hawaits _, by decide, w₁, w₁', hrun, hrun', hbytes, hsame.trans hbytes⟩
  · exact absurd hlt (by decide)

end QueryDriver.Net
