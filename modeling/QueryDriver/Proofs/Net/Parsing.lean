import QueryDriver.Proofs.Net.Framing

/-!
# What bytes say to a query that waits

A `Parser` takes from the front of bytes behind which the stream ends. The parsers here say
what the bytes on a line come to for a query that waits for its answer, `Parser.answer`, with
no word on how the bytes arrive: a header, then as many bytes as it announces, then the next
response if the token of this one is too small.

Bytes that are made of frames are taken frame by frame, so what is left is made of frames
again.
-/

namespace QueryDriver.Net

open Wire

/-- Takes from the front of bytes, the stream being over behind them. -/
abbrev Parser := ExceptT Failure (StateM Bytes)

namespace Parser

/-- Adds `missing` bytes to those in `got`. When there are fewer, nothing is left. -/
def complete (peer : Endpoint) (frameStart : Bool) (missing : Nat) (got : Bytes) :
    Parser Bytes := fun bs =>
  if missing ≤ bs.length then (.ok (got ++ bs.take missing), bs.drop missing)
  else (.error (.ofCause (if frameStart && (got ++ bs).isEmpty then .closedByPeer peer
    else .truncated peer)), [])

/-- The response behind a header that announces `size` bytes. -/
def payload (peer : Endpoint) (size : Nat) : Parser Response := do
  let bytes ← complete peer false size []
  match Response.decode bytes with
  | some r => return r
  | none => throw (.ofCause .undecodable)

/-- The next response, whatever query it answers. -/
def response (limit : Nat) (peer : Endpoint) : Parser Response := do
  let header ← complete peer true headerSize []
  let size := ofLittleEndian header
  if limit < size then throw (.ofCause (.frameTooLong size limit))
  payload peer size

/-- What is wrong with a response to a later query. -/
def early (token : Int64) (r : Response) : Failure :=
  .driver { DriverError.ofCause (.futureToken r.tokenValue.toInt token.toInt) with
    response := some r }

/-- The response that answers `token`, with at most `fuel` others in front. -/
def answerWithin (limit : Nat) (peer : Endpoint) (token : Int64) : Nat → Parser Response
  | 0 => throw (.ofCause (.closedByPeer peer))
  | fuel + 1 => do
    let r ← response limit peer
    if r.tokenValue < token then answerWithin limit peer token fuel
    else if token < r.tokenValue then throw (early token r)
    else return r

/-- The response that answers `token`. -/
def answer (limit : Nat) (peer : Endpoint) (token : Int64) : Parser Response := fun bs =>
  (answerWithin limit peer token (bs.length + 1)).run bs

variable {limit : Nat} {peer : Endpoint} {token : Int64}

theorem complete_zero (frameStart : Bool) (got : Bytes) :
    complete peer frameStart 0 got = pure got := by
  funext bs
  simp [complete]
  rfl

/-- Bytes that are there already may as well be taken first. -/
theorem run_complete_chunk {frameStart : Bool} {missing : Nat} {chunk : Bytes}
    (h : chunk.length ≤ missing) (got rest : Bytes) :
    (complete peer frameStart missing got).run (chunk ++ rest) =
      (complete peer frameStart (missing - chunk.length) (got ++ chunk)).run rest := by
  have hle : missing ≤ (chunk ++ rest).length ↔ missing - chunk.length ≤ rest.length := by
    rw [List.length_append]
    omega
  simp only [complete, ExceptT.run, hle, List.append_assoc, List.take_append, List.drop_append,
    List.take_of_length_le h, List.drop_of_length_le h, List.nil_append]

theorem run_complete_append (peer : Endpoint) (frameStart : Bool) (bs rest : Bytes) :
    (complete peer frameStart bs.length []).run (bs ++ rest) = (.ok bs, rest) := by
  simp [complete, ExceptT.run]

/-- A parser that succeeds takes what it gives. -/
theorem length_of_complete {frameStart : Bool} {missing : Nat} {bs bs' rest : Bytes}
    (h : (complete peer frameStart missing []).run bs = (.ok bs', rest)) :
    rest.length + missing = bs.length := by
  simp only [complete, ExceptT.run] at h
  split at h
  case isTrue hle =>
    cases h
    rw [List.length_drop]
    omega
  case isFalse => cases h

theorem length_of_payload {size : Nat} {bs rest : Bytes} {r : Response}
    (h : (payload peer size).run bs = (.ok r, rest)) : rest.length ≤ bs.length := by
  obtain ⟨bytes, rest₁, hbytes, h⟩ := run_bind_ok h
  have hlength := length_of_complete hbytes
  split at h
  · cases h
    omega
  · cases h

/-- A response takes its header at least. -/
theorem length_of_response {bs rest : Bytes} {r : Response}
    (h : (response limit peer).run bs = (.ok r, rest)) : rest.length < bs.length := by
  obtain ⟨header, rest₁, hheader, h⟩ := run_bind_ok h
  have hlength := length_of_complete hheader
  dsimp only at h
  split at h
  · cases h
  · have hle := length_of_payload h
    simp only [headerSize] at hlength
    omega

/-- A frame in front is taken as a whole. -/
theorem run_response_append (hlimit : limit < 4294967296) {payload frame rest : Bytes} {r : Response}
    (hframe : encodeFrame limit payload = .ok frame) (hr : Response.decode payload = some r) :
    (response limit peer).run (frame ++ rest) = (.ok r, rest) := by
  obtain ⟨hlength, rfl⟩ := encodeFrame_eq_ok.1 hframe
  have hheader := run_complete_append peer true (littleEndian 4 payload.length)
    (payload ++ rest)
  rw [length_littleEndian] at hheader
  have hsize : ofLittleEndian (littleEndian 4 payload.length) = payload.length :=
    ofLittleEndian_littleEndian (Nat.lt_of_le_of_lt hlength hlimit)
  rw [response, List.append_assoc, headerSize, run_bind_of_ok hheader]
  dsimp only
  rw [hsize, if_neg (Nat.not_lt.2 hlength), Parser.payload,
    run_bind_of_ok (run_complete_append peer false payload rest)]
  simp only [hr]
  rfl

theorem run_answerWithin_succ (fuel : Nat) (bs : Bytes) :
    (answerWithin limit peer token (fuel + 1)).run bs =
      match (response limit peer).run bs with
      | (.ok r, rest) =>
        if r.tokenValue < token then (answerWithin limit peer token fuel).run rest
        else if token < r.tokenValue then (.error (early token r), rest)
        else (.ok r, rest)
      | (.error e, rest) => (.error e, rest) := by
  rw [answerWithin, run_bind]
  rcases (response limit peer).run bs with ⟨e | r, rest⟩
  · rfl
  · dsimp only
    split
    · rfl
    · split <;> rfl

/-- The bound on the responses that are passed over does not matter when it is greater than
the number of bytes. -/
theorem run_answerWithin {fuel : Nat} {bs : Bytes} (h : bs.length < fuel) :
    (answerWithin limit peer token fuel).run bs = (answer limit peer token).run bs := by
  have hsame {fuel fuel' : Nat} {bs : Bytes} (h : bs.length < fuel) (h' : bs.length < fuel') :
      (answerWithin limit peer token fuel).run bs =
        (answerWithin limit peer token fuel').run bs := by
    induction fuel generalizing fuel' bs with
    | zero => omega
    | succ fuel ih =>
        obtain ⟨fuel', rfl⟩ := Nat.exists_eq_add_one_of_ne_zero (n := fuel') (by omega)
        rw [run_answerWithin_succ, run_answerWithin_succ]
        rcases hr : (response limit peer).run bs with ⟨e | r, rest⟩
        · rfl
        · have hlt := length_of_response hr
          dsimp only
          have hlater : (answerWithin limit peer token fuel).run rest =
              (answerWithin limit peer token fuel').run rest := ih (by omega) (by omega)
          rw [hlater]
  exact hsame h (Nat.lt_succ_self _)

/-- What a response in front means for a query that waits. -/
theorem run_answer {bs rest : Bytes} {r : Response}
    (h : (response limit peer).run bs = (.ok r, rest)) :
    (answer limit peer token).run bs =
      if r.tokenValue < token then (answer limit peer token).run rest
      else if token < r.tokenValue then (.error (early token r), rest)
      else (.ok r, rest) := by
  have hlt := length_of_response h
  rw [← run_answerWithin (Nat.lt_succ_self bs.length), run_answerWithin_succ, h]
  dsimp only
  rw [run_answerWithin hlt]

/-- What responses come to for a query that waits, and the bytes that are left behind the one
that is the last it looks at. -/
def Answers (limit : Nat) (peer : Endpoint) (token : Int64) (incoming : List (Bytes × Response))
    (o : Except Failure Response) (rest : Bytes) : Prop :=
  match incoming.dropWhile fun p => p.2.tokenValue < token with
  | [] => o = .error (.ofCause (.closedByPeer peer)) ∧ rest = []
  | p :: later => encodeFrames limit (later.map Prod.fst) = .ok rest ∧
    (p.2.tokenValue = token ∧ o = .ok p.2 ∨
      token < p.2.tokenValue ∧ ∃ e : DriverError, o = .error (.driver e) ∧
        .driver e = early token p.2 ∧ e.category = .brokenClient)

/-- Frames of responses are looked at one after the other, as long as the responses are stale. -/
theorem answers_run_answer (hlimit : limit < 4294967296) {incoming : List (Bytes × Response)}
    (hdecode : ∀ p ∈ incoming, Response.decode p.1 = some p.2) {bs : Bytes}
    (hframes : encodeFrames limit (incoming.map Prod.fst) = .ok bs) :
    Answers limit peer token incoming ((answer limit peer token).run bs).1
      ((answer limit peer token).run bs).2 := by
  induction incoming generalizing bs with
  | nil =>
      cases hframes
      exact ⟨rfl, rfl⟩
  | cons p later ih =>
      obtain ⟨hp, hdecode⟩ := List.forall_mem_cons.1 hdecode
      obtain ⟨frame, frames, hframe, hlater, rfl⟩ := encodeFrames_cons.1 hframes
      rw [run_answer (run_response_append hlimit hframe hp)]
      by_cases hstale : p.2.tokenValue < token
      · rw [if_pos hstale, Answers, List.dropWhile_cons_of_pos (by simpa using hstale)]
        exact ih hdecode hlater
      · rw [if_neg hstale, Answers, List.dropWhile_cons_of_neg (by simpa using hstale)]
        by_cases hearly : token < p.2.tokenValue
        · rw [if_pos hearly]
          exact ⟨hlater, .inr ⟨hearly, _, rfl, rfl, rfl⟩⟩
        · rw [if_neg hearly]
          have htoken := Int64.le_antisymm (Int64.not_lt.1 hearly) (Int64.not_lt.1 hstale)
          exact ⟨hlater, .inl ⟨htoken, rfl⟩⟩

end Parser

end QueryDriver.Net
