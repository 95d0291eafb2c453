import QueryDriver.Proofs.Net.Closing
import QueryDriver.Proofs.Net.Parsing

/-!
# Streams that break

An `Inlet` is a line on which bytes wait that come to an end: the peer has ended the stream behind
them, or receiving fails there. How the bytes are cut into pieces is left to the transport.

`Breaks` lists the ways in which bytes and their end can fail to be the answer to a query, behind
the responses that are passed over: what is wrong with them, which class of errors that is, and
which bytes are left unread. A round trip that meets one of them fails in that way and closes the
line, and a closed line is never used again.
-/

namespace QueryDriver.Net

open Wire

variable {σ τ α β : Type}

/-- What comes behind the bytes that wait on a line. -/
inductive Ending where
  /-- The peer has ended the stream. -/
  | ended
  /-- Receiving fails. -/
  | lost (fault : SocketFault)

namespace Ending

/-- What a receive gives behind the last byte. -/
def answer (ending : Ending) (asked : Nat) :
    Except SocketFault { bs : Bytes // bs.length ≤ asked } :=
  match ending with
  | .ended => .ok ⟨[], Nat.zero_le _⟩
  | .lost fault => .error fault

/-- What is wrong with a frame that is cut short, or with the lack of a frame. -/
def cause (ending : Ending) (peer : Endpoint) (atStart : Bool) : Cause :=
  match ending with
  | .ended => if atStart then .closedByPeer peer else .truncated peer
  | .lost .timedOut => .readTimedOut peer
  | .lost (.failed text) => .readFailed peer text

end Ending

variable [Clock τ]

/-- Bytes wait on a line with their ending behind them, and the deadline is ahead. -/
structure Inlet (t : Transport σ τ) (n : Nat) (deadline : Option τ) (ending : Ending) where
  /-- The bytes that wait. -/
  waiting : σ → Bytes
  /-- The line is in order. -/
  Steady : σ → Prop
  ahead : ∀ {s}, Steady s → ∀ d ∈ deadline, Clock.spent (Clock.left d (t.now s)) = false
  arm : ∀ {s} span, Steady s → ∃ s', t.arm n span s = (.ok (), s') ∧ Steady s' ∧
    waiting s' = waiting s
  /-- A receive delivers at least one byte from the front as long as bytes wait, and then the
  ending. -/
  receive : ∀ {s} asked, Steady s → 0 < asked → ∃ o s', t.receive n asked s = (o, s') ∧
    ((∃ chunk, o = .ok chunk ∧ chunk.val ≠ [] ∧ waiting s = chunk.val ++ waiting s' ∧ Steady s') ∨
      waiting s = [] ∧ o = ending.answer asked ∧ waiting s' = [])
  close : ∀ s, waiting (t.close n s).2 = waiting s
  supply : ∀ {s}, Steady s → (waiting s).length ≤ t.supply s

/-! ### The ways in which a stream breaks -/

/-- The bytes are the beginning of a frame, which may be none of it, and not the whole. -/
def Incomplete (limit : Nat) (bs : Bytes) : Prop :=
  bs.length < headerSize ∨ ∃ header rest, bs = header ++ rest ∧ header.length = headerSize ∧
    ofLittleEndian header ≤ limit ∧ rest.length < ofLittleEndian header

/-- The bytes in front of an ending are not the answer that `token` waits for: what that is, of
which class it is, and which bytes are left behind. -/
inductive Breaks (limit : Nat) (peer : Endpoint) (token : Int64) :
    Ending → Bytes → Category → DriverError → Bytes → Prop
  /-- The stream is over in front of a frame. -/
  | finished : Breaks limit peer token .ended [] .network (.ofCause (.closedByPeer peer)) []
  /-- The stream is over within a frame. -/
  | truncated {bs : Bytes} (hbs : bs ≠ []) (h : Incomplete limit bs) :
    Breaks limit peer token .ended bs .brokenClient (.ofCause (.truncated peer)) []
  | timedOut {bs : Bytes} (h : Incomplete limit bs) :
    Breaks limit peer token (.lost .timedOut) bs .timeout (.ofCause (.readTimedOut peer)) []
  | failed {bs : Bytes} (text : String) (h : Incomplete limit bs) :
    Breaks limit peer token (.lost (.failed text)) bs .network (.ofCause (.readFailed peer text)) []
  /-- The header announces too much, and nothing behind it is read. -/
  | tooLong {ending : Ending} {header : Bytes} (rest : Bytes) (hheader : header.length = headerSize)
    (h : limit < ofLittleEndian header) : Breaks limit peer token ending (header ++ rest)
      .brokenClient (.ofCause (.frameTooLong (ofLittleEndian header) limit)) rest
  | undecodable {ending : Ending} {payload frame : Bytes} (rest : Bytes)
    (hframe : encodeFrame limit payload = .ok frame) (h : Response.decode payload = none) :
    Breaks limit peer token ending (frame ++ rest) .brokenClient (.ofCause .undecodable) rest
  /-- The response answers a later query. -/
  | early {ending : Ending} {payload frame : Bytes} {r : Response} (rest : Bytes)
    (hframe : encodeFrame limit payload = .ok frame) (hr : Response.decode payload = some r)
    (h : token < r.tokenValue) : Breaks limit peer token ending (frame ++ rest) .brokenClient
      { DriverError.ofCause (.futureToken r.tokenValue.toInt token.toInt) with response := some r }
      rest

theorem Breaks.category_eq {limit : Nat} {peer : Endpoint} {token : Int64} {ending : Ending}
    {bs rest : Bytes} {k : Category} {e : DriverError}
    (h : Breaks limit peer token ending bs k e rest) : e.category = k := by
  cases h <;> rfl

/-- The bytes that stand for the number of some bytes are these bytes. -/
theorem littleEndian_ofLittleEndian (bs : Bytes) :
    littleEndian bs.length (ofLittleEndian bs) = bs := by
  induction bs with
  | nil => rfl
  | cons b bs ih =>
      have hlt := b.toNat_lt
      have hbyte : (b.toNat + 256 * ofLittleEndian bs) % 256 = b.toNat := by omega
      have hlater : (b.toNat + 256 * ofLittleEndian bs) / 256 = ofLittleEndian bs := by omega
      rw [List.length_cons, ofLittleEndian, littleEndian, hbyte, hlater, ih, UInt8.ofNat_toNat]

/-- What begins no whole frame breaks, and otherwise a frame is in front or a header that announces
too much. -/
theorem incomplete_or_frame (limit : Nat) (bs : Bytes) :
    Incomplete limit bs ∨
      (∃ header rest, bs = header ++ rest ∧ header.length = headerSize ∧
        limit < ofLittleEndian header) ∨
      ∃ payload frame rest, bs = frame ++ rest ∧ encodeFrame limit payload = .ok frame := by
  by_cases hheader : bs.length < headerSize
  · exact .inl (.inl hheader)
  · obtain ⟨header, hhead⟩ : ∃ header, header = bs.take headerSize := ⟨_, rfl⟩
    obtain ⟨rest, hrest⟩ : ∃ rest, rest = bs.drop headerSize := ⟨_, rfl⟩
    have hbs : bs = header ++ rest := by rw [hhead, hrest, List.take_append_drop]
    have hlength : header.length = headerSize := by
      rw [hhead, List.length_take]
      omega
    by_cases hlimit : limit < ofLittleEndian header
    · exact .inr (.inl ⟨header, rest, hbs, hlength, hlimit⟩)
    · by_cases hshort : rest.length < ofLittleEndian header
      · exact .inl (.inr ⟨header, rest, hbs, hlength, Nat.le_of_not_lt hlimit, hshort⟩)
      · have hsize : (rest.take (ofLittleEndian header)).length = ofLittleEndian header := by
          rw [List.length_take]
          omega
        have hframe := littleEndian_ofLittleEndian header
        rw [hlength, ← hsize] at hframe
        refine .inr (.inr ⟨rest.take (ofLittleEndian header),
          header ++ rest.take (ofLittleEndian header), rest.drop (ofLittleEndian header), ?_,
          encodeFrame_eq_ok.2 ⟨?_, ?_⟩⟩)
        · rw [List.append_assoc, List.take_append_drop, hbs]
        · omega
        · exact congrArg (· ++ _) hframe.symm

/-- The bytes begin with the frames of responses that are passed over, and `P` holds of those
behind them. -/
def Behind (limit : Nat) (token : Int64) (P : Bytes → Prop) (bs : Bytes) : Prop :=
  ∃ (stale : List (Bytes × Response)) (frames tail : Bytes),
    (∀ p ∈ stale, Response.decode p.1 = some p.2) ∧ (∀ p ∈ stale, p.2.tokenValue < token) ∧
      encodeFrames limit (stale.map Prod.fst) = .ok frames ∧ bs = frames ++ tail ∧ P tail

namespace Behind

variable {limit : Nat} {token : Int64} {P : Bytes → Prop} {bs : Bytes}

theorem here (h : P bs) : Behind limit token P bs :=
  ⟨[], [], bs, List.forall_mem_nil _, List.forall_mem_nil _, rfl, rfl, h⟩

theorem skip {payload frame : Bytes} {r : Response} (hframe : encodeFrame limit payload = .ok frame)
    (hr : Response.decode payload = some r) (hlt : r.tokenValue < token)
    (h : Behind limit token P bs) : Behind limit token P (frame ++ bs) := by
  obtain ⟨stale, frames, tail, hdecode, hstale, hframes, rfl, htail⟩ := h
  exact ⟨(payload, r) :: stale, frame ++ frames, tail, List.forall_mem_cons.2 ⟨hr, hdecode⟩,
    List.forall_mem_cons.2 ⟨hlt, hstale⟩, encodeFrames_cons.2 ⟨frame, frames, hframe, hframes, rfl⟩,
    (List.append_assoc ..).symm, htail⟩

end Behind

/-- The answer that `token` waits for is in front. -/
def IsAnswered (limit : Nat) (token : Int64) (bs : Bytes) : Prop :=
  ∃ payload frame r rest, bs = frame ++ rest ∧ encodeFrame limit payload = .ok frame ∧
    Response.decode payload = some r ∧ r.tokenValue = token

/-- No stream is left out: behind the responses that are passed over there is the answer, or the
stream breaks there. -/
theorem answered_or_breaks (limit : Nat) (peer : Endpoint) (token : Int64) (ending : Ending)
    (bs : Bytes) : Behind limit token (fun tail => IsAnswered limit token tail ∨
      ∃ k e rest, Breaks limit peer token ending tail k e rest) bs := by
  induction hlength : bs.length using Nat.strong_induction_on generalizing bs with
  | _ length ih =>
      obtain h | ⟨header, rest, rfl, hheader, h⟩ | ⟨payload, frame, rest, rfl, hframe⟩ :=
        incomplete_or_frame limit bs
      · refine .here (.inr ?_)
        cases ending with
        | lost fault =>
            cases fault with
            | timedOut => exact ⟨_, _, _, .timedOut h⟩
            | failed text => exact ⟨_, _, _, .failed text h⟩
        | ended =>
            by_cases hbs : bs = []
            · subst hbs
              exact ⟨_, _, _, .finished⟩
            · exact ⟨_, _, _, .truncated hbs h⟩
      · exact .here (.inr ⟨_, _, _, .tooLong rest hheader h⟩)
      · cases hr : Response.decode payload with
        | none => exact .here (.inr ⟨_, _, _, .undecodable rest hframe hr⟩)
        | some r =>
            by_cases hlt : r.tokenValue < token
            · have hpos := List.length_pos_iff.2 (frame_ne_nil hframe)
              rw [List.length_append] at hlength
              exact .skip hframe hr hlt (ih rest.length (by omega) rest rfl)
            · by_cases hgt : token < r.tokenValue
              · exact .here (.inr ⟨_, _, _, .early rest hframe hr hgt⟩)
              · have htoken := Int64.le_antisymm (Int64.not_lt.1 hgt) (Int64.not_lt.1 hlt)
                exact .here (.inl ⟨payload, frame, r, rest, rfl, hframe, hr, htoken⟩)

/-! ### Reading along the bytes that wait -/

variable {t : Transport σ τ} {n : Nat} {deadline : Option τ} {ending : Ending} {limit : Nat}

/-- With the bytes `bs` waiting the action has the given outcome and leaves `rest`, however the
bytes come. It closes no line, and the line is in order if it succeeds. -/
def Reads (I : Inlet t n deadline ending) (limit : Nat) (a : Action σ α) (bs : Bytes)
    (o : Except Failure α) (rest : Bytes) : Prop :=
  ∀ ⦃w : World σ⦄, I.Steady w.net → I.waiting w.net = bs → w.frameLimit = limit → ∃ w',
    a.run w = (o, w') ∧ I.waiting w'.net = rest ∧ w'.frameLimit = limit ∧ w'.closed = w.closed ∧
      ∀ x, o = .ok x → I.Steady w'.net

namespace Reads

variable {I : Inlet t n deadline ending} {bs mid rest : Bytes}

protected theorem pure (x : α) : Reads I limit (pure x) bs (.ok x) bs :=
  fun w hw hbs hlimit => ⟨w, rfl, hbs, hlimit, rfl, fun _ _ => hw⟩

protected theorem throw (e : Failure) : Reads I limit (throw e : Action σ α) bs (.error e) bs :=
  fun w hw hbs hlimit => ⟨w, rfl, hbs, hlimit, rfl, fun _ _ => hw⟩

theorem bind {a : Action σ α} {f : α → Action σ β} {x : α} {o : Except Failure β}
    (ha : Reads I limit a bs (.ok x) mid) (hf : Reads I limit (f x) mid o rest) :
    Reads I limit (a >>= f) bs o rest := by
  intro w hw hbs hlimit
  obtain ⟨w₁, hrun, hmid, hlimit₁, hclosed₁, hw₁⟩ := ha hw hbs hlimit
  obtain ⟨w₂, hrun₂, hrest, hlimit₂, hclosed₂, hw₂⟩ := hf (hw₁ x rfl) hmid hlimit₁
  exact ⟨w₂, (run_bind_of_ok hrun).trans hrun₂, hrest, hlimit₂, hclosed₂.trans hclosed₁, hw₂⟩

theorem bind_error {a : Action σ α} {f : α → Action σ β} {e : Failure}
    (ha : Reads I limit a bs (.error e) rest) : Reads I limit (a >>= f) bs (.error e) rest := by
  intro w hw hbs hlimit
  obtain ⟨w₁, hrun, hrest, hlimit₁, hclosed₁, -⟩ := ha hw hbs hlimit
  exact ⟨w₁, run_bind_of_error hrun, hrest, hlimit₁, hclosed₁, fun _ hx => by cases hx⟩

/-- The limit on frames may be looked up. -/
theorem get {f : World σ → Action σ α} {o : Except Failure α}
    (h : ∀ w, w.frameLimit = limit → Reads I limit (f w) bs o rest) :
    Reads I limit (get >>= f) bs o rest := by
  intro w hw hbs hlimit
  rw [run_bind_of_ok (Action.run_get w)]
  exact h w hlimit hw hbs hlimit

theorem record {e : LogEntry} {a : Action σ α} {o : Except Failure α}
    (h : Reads I limit a bs o rest) : Reads I limit (do Action.record e; a) bs o rest := by
  intro w hw hbs hlimit
  exact h (w := { w with journal := w.journal.record e }) hw hbs hlimit

end Reads

namespace Connection

variable {c : Connection}

/-- As long as the deadline is ahead, whatever arming does to the network is done. -/
theorem run_applyDeadline {P : σ → Prop} {deadline : Option τ} {w : World σ}
    (hahead : ∀ d ∈ deadline, Clock.spent (Clock.left d (t.now w.net)) = false)
    (harm : ∀ span, ∃ s', t.arm c.line span w.net = (.ok (), s') ∧ P s') :
    ∃ s', (c.applyDeadline t deadline).run w = (.ok (), { w with net := s' }) ∧ P s' := by
  have harm (span : Option τ) :
      ∃ s', (c.arm t span).run w = (.ok (), { w with net := s' }) ∧ P s' := by
    obtain ⟨s', harm, hs'⟩ := harm span
    refine ⟨s', ?_, hs'⟩
    rw [arm, run_bind_of_ok (Action.run_onNet _ _), harm]
    rfl
  cases deadline with
  | none => exact harm none
  | some d =>
      obtain ⟨s', hrun, hs'⟩ := harm (some (Clock.left d (t.now w.net)))
      refine ⟨s', ?_, hs'⟩
      rw [applyDeadline]
      dsimp only
      rw [run_bind_of_ok (Action.run_get w), hahead d rfl]
      exact hrun

variable {I : Inlet t c.line deadline ending} {bs rest : Bytes}

/-- A line in order can be armed, the deadline being ahead. -/
theorem reads_applyDeadline : Reads I limit (c.applyDeadline t deadline) bs (.ok ()) bs := by
  intro w hw hbs hlimit
  obtain ⟨s', hrun, hs', hwaiting⟩ := run_applyDeadline (I.ahead hw) fun span => I.arm span hw
  exact ⟨_, hrun, hwaiting.trans hbs, hlimit, rfl, fun _ _ => hs'⟩

/-- One receive takes a piece from the front, if there is any byte, and fails otherwise. -/
theorem reads_readWithin_succ {frameStart : Bool} {fuel missing : Nat} {got : Bytes}
    {o : Except Failure Bytes}
    (hchunk : ∀ chunk later, bs = chunk ++ later → chunk ≠ [] → chunk.length ≤ missing + 1 →
      Reads I limit (c.readWithin t deadline frameStart fuel (missing + 1 - chunk.length)
        (got ++ chunk)) later o rest)
    (hend : bs = [] → rest = [] ∧
      o = .error (.ofCause (ending.cause c.peer (frameStart && got.isEmpty)))) :
    Reads I limit (c.readWithin t deadline frameStart (fuel + 1) (missing + 1) got) bs o rest := by
  refine reads_applyDeadline.bind fun w hw hbs hlimit => ?_
  obtain ⟨answer, s', hreceive, hanswer⟩ := I.receive (missing + 1) hw (Nat.succ_pos missing)
  rw [run_bind_of_ok (Action.run_onNet _ _), hreceive]
  obtain ⟨⟨chunk, hlength⟩, rfl, hne, hsplit, hs'⟩ | ⟨hnil, rfl, hnil'⟩ := hanswer
  · obtain ⟨b, chunk, rfl⟩ := List.exists_cons_of_ne_nil hne
    exact hchunk _ _ (hbs.symm.trans hsplit) hne hlength (w := { w with net := s' }) hs' rfl hlimit
  · obtain ⟨rfl, rfl⟩ := hend (hbs.symm.trans hnil)
    refine ⟨{ w with net := s' }, ?_, hnil', hlimit, rfl, fun _ hx => by cases hx⟩
    cases ending with
    | lost fault => cases fault <;> rfl
    | ended =>
        simp only [Ending.answer, Ending.cause]
        split <;> rfl

/-- Bytes that wait are read, whatever comes behind them. -/
theorem reads_readWithin {frameStart : Bool} {fuel missing : Nat} (hfuel : missing ≤ fuel)
    {pre : Bytes} (hpre : pre.length = missing) (got : Bytes) :
    Reads I limit (c.readWithin t deadline frameStart fuel missing got) (pre ++ rest)
      (.ok (got ++ pre)) rest := by
  induction fuel generalizing missing pre got with
  | zero =>
      obtain rfl := Nat.le_zero.1 hfuel
      obtain rfl := List.length_eq_zero_iff.1 hpre
      rw [List.append_nil]
      exact .pure got
  | succ fuel ih =>
      cases missing with
      | zero =>
          obtain rfl := List.length_eq_zero_iff.1 hpre
          rw [List.append_nil]
          exact .pure got
      | succ missing =>
          refine reads_readWithin_succ (fun chunk later hsplit hne hchunk => ?_) fun hnil => ?_
          · obtain ⟨more, rfl⟩ : chunk <+: pre :=
              List.prefix_of_prefix_length_le ⟨later, hsplit.symm⟩ ⟨rest, rfl⟩ (by omega)
            rw [List.append_assoc] at hsplit
            obtain rfl := List.append_cancel_left hsplit
            have hpos : 0 < chunk.length := List.length_pos_iff.2 hne
            rw [List.length_append] at hpre
            have hread : Reads I limit (c.readWithin t deadline frameStart fuel
                (missing + 1 - chunk.length) (got ++ chunk)) (more ++ rest)
                  (.ok (got ++ chunk ++ more)) rest :=
              ih (by omega) (by omega) (got ++ chunk)
            rwa [List.append_assoc] at hread
          · rw [(List.append_eq_nil_iff.1 hnil).1] at hpre
            cases hpre

/-- Where too few bytes wait they are read up to the last one, and then comes what ends them. -/
theorem reads_readWithin_of_lt {frameStart : Bool} {fuel missing : Nat} (hfuel : missing ≤ fuel)
    (hbs : bs.length < missing) (got : Bytes) :
    Reads I limit (c.readWithin t deadline frameStart fuel missing got) bs
      (.error (.ofCause (ending.cause c.peer (frameStart && (got ++ bs).isEmpty)))) [] := by
  induction fuel generalizing missing bs got with
  | zero => omega
  | succ fuel ih =>
      obtain ⟨missing, rfl⟩ := Nat.exists_eq_add_one_of_ne_zero (Nat.ne_zero_of_lt hbs)
      refine reads_readWithin_succ (fun chunk later hsplit hne hchunk => ?_) fun hnil => ?_
      · subst hsplit
        have hpos : 0 < chunk.length := List.length_pos_iff.2 hne
        rw [List.length_append] at hbs
        rw [← List.append_assoc]
        exact ih (by omega) (by omega) (got ++ chunk)
      · rw [hnil, List.append_nil]
        exact ⟨rfl, rfl⟩

theorem reads_readPayload {payload : Bytes} {size : Nat} (hsize : payload.length = size) :
    Reads I limit (c.readPayload t deadline size) (payload ++ rest)
      (match Response.decode payload with
        | some r => .ok r
        | none => .error (.ofCause .undecodable)) rest := by
  refine (reads_readWithin (Nat.le_refl size) hsize []).bind ?_
  rw [List.nil_append]
  cases Response.decode payload with
  | none => exact .throw _
  | some r => exact .pure r

/-- What a header announces decides what is read behind it. -/
theorem reads_readResponse {header : Bytes} {o : Except Failure Response}
    (hheader : header.length = headerSize)
    (htooLong : limit < ofLittleEndian header → rest = bs ∧
      o = .error (.ofCause (.frameTooLong (ofLittleEndian header) limit)))
    (hpayload : ofLittleEndian header ≤ limit →
      Reads I limit (c.readPayload t deadline (ofLittleEndian header)) bs o rest) :
    Reads I limit (c.readResponse t deadline) (header ++ bs) o rest := by
  refine (reads_readWithin (Nat.le_refl headerSize) hheader []).bind (.get fun w hw => ?_)
  rw [List.nil_append]
  subst hw
  dsimp only
  split
  next hlt =>
    obtain ⟨rfl, rfl⟩ := htooLong hlt
    exact (Reads.throw _).bind_error
  next hle => exact hpayload (Nat.le_of_not_lt hle)

/-- A whole frame is read as what its message decodes to. -/
theorem reads_readResponse_frame (hlimit : limit < 4294967296) {payload frame : Bytes}
    (hframe : encodeFrame limit payload = .ok frame) (later : Bytes) :
    Reads I limit (c.readResponse t deadline) (frame ++ later)
      (match Response.decode payload with
        | some r => .ok r
        | none => .error (.ofCause .undecodable)) later := by
  obtain ⟨hlength, rfl⟩ := encodeFrame_eq_ok.1 hframe
  have hsize : ofLittleEndian (littleEndian 4 payload.length) = payload.length :=
    ofLittleEndian_littleEndian (Nat.lt_of_le_of_lt hlength hlimit)
  rw [List.append_assoc]
  refine reads_readResponse (length_littleEndian 4 payload.length) (fun hlt => ?_) fun _ => ?_
  · omega
  · rw [hsize]
    exact reads_readPayload rfl

theorem reads_readResponse_incomplete (h : Incomplete limit bs) :
    Reads I limit (c.readResponse t deadline) bs
      (.error (.ofCause (ending.cause c.peer bs.isEmpty))) [] := by
  obtain hlt | ⟨header, later, rfl, hheader, hle, hlt⟩ := h
  · exact (reads_readWithin_of_lt (Nat.le_refl headerSize) hlt []).bind_error
  · have hne : (header ++ later).isEmpty = false := by
      cases header with
      | nil => cases hheader
      | cons b header => rfl
    rw [hne]
    refine reads_readResponse hheader (fun hgt => ?_) fun _ => ?_
    · omega
    · exact (reads_readWithin_of_lt (Nat.le_refl _) hlt []).bind_error

/-- Responses with a smaller token are passed over. -/
theorem reads_awaitWithin_stale (hlimit : limit < 4294967296) {token : Int64} {fuel : Nat}
    {stale : List (Bytes × Response)} (hdecode : ∀ p ∈ stale, Response.decode p.1 = some p.2)
    (hstale : ∀ p ∈ stale, p.2.tokenValue < token) {frames : Bytes}
    (hframes : encodeFrames limit (stale.map Prod.fst) = .ok frames) {o : Except Failure Response}
    (h : Reads I limit (c.awaitWithin t deadline token fuel) bs o rest) :
    Reads I limit (c.awaitWithin t deadline token (stale.length + fuel)) (frames ++ bs) o rest := by
  induction stale generalizing frames with
  | nil =>
      cases hframes
      rw [List.length_nil, Nat.zero_add]
      exact h
  | cons p stale ih =>
      obtain ⟨hp, hdecode⟩ := List.forall_mem_cons.1 hdecode
      obtain ⟨hlt, hstale⟩ := List.forall_mem_cons.1 hstale
      obtain ⟨frame, later, hframe, hlater, rfl⟩ := encodeFrames_cons.1 hframes
      have hread := reads_readResponse_frame (I := I) hlimit hframe (later ++ bs)
      rw [hp] at hread
      rw [List.append_assoc, List.length_cons, Nat.add_right_comm]
      refine hread.bind ?_
      rw [if_pos hlt]
      exact .record (ih hdecode hstale hlater)

/-- A stream that breaks is waited on until it does. -/
theorem reads_awaitWithin_breaks (hlimit : limit < 4294967296) {token : Int64} {k : Category}
    {e : DriverError} (h : Breaks limit c.peer token ending bs k e rest) (fuel : Nat) :
    Reads I limit (c.awaitWithin t deadline token (fuel + 1)) bs (.error (.driver e)) rest := by
  cases h with
  | finished => exact (reads_readResponse_incomplete (.inl (by decide))).bind_error
  | truncated hbs h =>
      have hread := reads_readResponse_incomplete (I := I) h
      rw [List.isEmpty_eq_false_iff.2 hbs] at hread
      exact hread.bind_error
  | timedOut h => exact (reads_readResponse_incomplete h).bind_error
  | failed text h => exact (reads_readResponse_incomplete h).bind_error
  | tooLong _ hheader h =>
      exact (reads_readResponse hheader (fun _ => ⟨rfl, rfl⟩) fun hle => by omega).bind_error
  | undecodable _ hframe h =>
      have hread := reads_readResponse_frame (I := I) hlimit hframe rest
      rw [h] at hread
      exact hread.bind_error
  | early _ hframe hr h =>
      have hread := reads_readResponse_frame (I := I) hlimit hframe rest
      rw [hr] at hread
      refine hread.bind ?_
      rw [if_neg (Int64.not_lt.2 (Int64.le_of_lt h)), if_pos h]
      exact .throw _

end Connection

theorem length_le_of_encodeFrames {payloads : List Bytes} {frames : Bytes}
    (h : encodeFrames limit payloads = .ok frames) : payloads.length ≤ frames.length := by
  induction payloads generalizing frames with
  | nil => exact Nat.zero_le _
  | cons payload payloads ih =>
      obtain ⟨frame, later, hframe, hlater, rfl⟩ := encodeFrames_cons.1 h
      have hpos := List.length_pos_iff.2 (frame_ne_nil hframe)
      have hle := ih hlater
      rw [List.length_cons, List.length_append]
      omega

namespace Connection

variable {c : Connection}

/-- The query is written in full on an open line, within its timeout, and then `bs` waits in front
of the ending. -/
structure Posed (I : Inlet t c.line deadline ending) (query : Query) (timeout : Option τ)
    (w : World σ) (bs : Bytes) : Prop where
  deadline_eq : deadline = timeout.map fun span => Clock.after (t.now w.net) span
  opened : c.line ∉ w.closed
  written : ∃ frame w₁, encodeFrame w.frameLimit query.encode = .ok frame ∧
    (c.write t deadline frame).run
        { w with journal := w.journal.record (.sending c.line c.peer query) } = (.ok (), w₁) ∧
      I.Steady w₁.net ∧ I.waiting w₁.net = bs

/-- The exchange of a query that is written fails where the stream breaks, behind the responses that
it passes over. -/
theorem exchange_of_breaks {I : Inlet t c.line deadline ending} {query : Query}
    {timeout : Option τ} {w : World σ} {bs rest : Bytes} {k : Category} {e : DriverError}
    (hlimit : w.frameLimit < 4294967296) (hposed : c.Posed I query timeout w bs)
    (hbreaks : Behind w.frameLimit query.tokenValue
      (fun tail => Breaks w.frameLimit c.peer query.tokenValue ending tail k e rest) bs) :
    ∃ w', (c.exchange t query deadline).run
        { w with journal := w.journal.record (.sending c.line c.peer query) } =
          (.error (.driver e), w') ∧
      I.waiting w'.net = rest ∧ w'.closed = w.closed := by
  obtain ⟨-, -, frame, w₁, hframe, hwrite, hw₁, hwaiting⟩ := hposed
  obtain ⟨stale, frames, tail, hdecode, hstale, hframes, rfl, htail⟩ := hbreaks
  have hworld := (preserves_writeWithin (f := fun w => (w.frameLimit, w.closed)) (fun _ _ => rfl)
    (fun _ _ _ => rfl) _ _).same hwrite
  obtain ⟨hlimit₁, hclosed₁⟩ := Prod.mk.inj hworld
  -- The bound on the responses is greater than the number of those that are passed over.
  have hsupply := I.supply hw₁
  have hcount := length_le_of_encodeFrames hframes
  rw [hwaiting, List.length_append] at hsupply
  rw [List.length_map] at hcount
  obtain ⟨fuel, hfuel⟩ : ∃ fuel, t.supply w₁.net + 1 = stale.length + (fuel + 1) :=
    ⟨t.supply w₁.net - stale.length, by omega⟩
  have hreads := reads_awaitWithin_stale (I := I) hlimit hdecode hstale hframes
    (reads_awaitWithin_breaks hlimit htail fuel)
  obtain ⟨w₂, hawait, hrest, -, hclosed₂, -⟩ := hreads hw₁ hwaiting hlimit₁
  refine ⟨w₂, ?_, hrest, hclosed₂.trans hclosed₁⟩
  rw [run_exchange_written hwrite hframe, await, run_bind_of_ok (Action.run_get w₁), hfuel]
  exact hawait

/-- A query that is written meets responses that it passes over, and then the stream breaks. The
round trip fails in the way in which the stream has broken, which is of a known class, and leaves
what is behind unread. The line is closed, and whatever is executed on it later fails and does
nothing. -/
theorem execute_of_breaks {I : Inlet t c.line deadline ending} {query : Query}
    {timeout : Option τ} {w : World σ} {bs rest : Bytes} {k : Category} {e : DriverError}
    (hlimit : w.frameLimit < 4294967296) (hposed : c.Posed I query timeout w bs)
    (hbreaks : Behind w.frameLimit query.tokenValue
      (fun tail => Breaks w.frameLimit c.peer query.tokenValue ending tail k e rest) bs) :
    ∃ w', (c.execute t query timeout).run w = (.error (.driver e), w') ∧ e.category = k ∧
      I.waiting w'.net = rest ∧ c.line ∈ w'.closed ∧
        ∀ later, Later t w' later → ∀ query' timeout', (c.execute t query' timeout').run later =
          (.error (.ofCause .connectionClosed), later) := by
  obtain ⟨w₁, hexchange, hrest, hclosed₁⟩ := exchange_of_breaks hlimit hposed hbreaks
  obtain ⟨rfl, hopened, -⟩ := hposed
  obtain ⟨-, -, tail, -, -, -, -, htail⟩ := hbreaks
  rcases hguarded : (c.guarded t (c.exchange t query
      (timeout.map fun span => Clock.after (t.now w.net) span))).run
    { w with journal := w.journal.record (.sending c.line c.peer query) } with ⟨o, w₂⟩
  obtain ⟨w₁', hexchange', hends⟩ := guarded_net hguarded
  cases hexchange.symm.trans hexchange'
  have hopened₁ : c.line ∉ w₁.closed := by rwa [hclosed₁]
  obtain ⟨-, hclosed, hnet⟩ | ⟨hne, -⟩ := hends hopened₁
  · refine ⟨w₂, ?_, htail.category_eq, ?_, hclosed, fun later hlater query' timeout' => ?_⟩
    · rw [run_execute_open hopened]
      exact run_bind_of_error hguarded
    · rw [hnet, I.close, hrest]
    · exact hlater.run_execute hclosed query' timeout'
  · exact absurd rfl (hne e)

end Connection

/-- Bytes that come in pieces, and what comes behind them. -/
structure Reel where
  bytes : Bytes
  ending : Ending
  /-- How many bytes more than one every receive delivers. -/
  pieces : List Nat

namespace Reel

/-- Delivers the next piece, and the ending when there is none. -/
def receive (asked : Nat) (s : Reel) :
    Except SocketFault { bs : Bytes // bs.length ≤ asked } × Reel :=
  match s.bytes with
  | [] => (s.ending.answer asked, s)
  | b :: bs =>
    let count := min asked (s.pieces.headD 0 + 1)
    (.ok ⟨(b :: bs).take count,
      Nat.le_trans (List.length_take_le _ _) (Nat.min_le_left _ _)⟩,
      { s with bytes := (b :: bs).drop count, pieces := s.pieces.tail })

/-- A line that takes in all that is sent, on a network where no time passes. -/
def transport : Transport Reel Int where
  now _ := 0
  dial _ _ s := (.error .timedOut, s)
  arm _ _ s := (.ok (), s)
  send _ _ rest s := (.ok (Fin.last rest.length), s)
  receive _ asked s := s.receive asked
  close _ s := (.ok (), s)
  supply s := s.bytes.length

/-- Every line plays the reel, and a deadline that is ahead stays ahead. -/
def inlet (n : Nat) {deadline : Option Int} (hdeadline : ∀ d ∈ deadline, 0 < d) (ending : Ending) :
    Inlet transport n deadline ending where
  waiting s := s.bytes
  Steady s := s.ending = ending
  ahead _ d hd := decide_eq_false (show ¬ d - 0 ≤ 0 from by have := hdeadline d hd; omega)
  arm _ h := ⟨_, rfl, h, rfl⟩
  receive {s} asked h hasked := by
    obtain ⟨bytes, last, pieces⟩ := s
    obtain rfl : last = ending := h
    cases bytes with
    | nil => exact ⟨_, _, rfl, .inr ⟨rfl, rfl, rfl⟩⟩
    | cons b bs =>
        refine ⟨_, _, rfl, .inl ⟨_, rfl, ?_, (List.take_append_drop _ _).symm, rfl⟩⟩
        rw [Ne, List.take_eq_nil_iff]
        rintro (hzero | hnone)
        · omega
        · cases hnone
  close _ := rfl
  supply _ := Nat.le_refl _

/-- A query that is short enough is written at once. -/
theorem posed {c : Connection} {query : Query} {span : Int} {w : World Reel}
    (hspan : ∀ d ∈ (some span).map fun span => Clock.after (0 : Int) span, 0 < d)
    (hopen : c.line ∉ w.closed) {frame : Bytes}
    (hframe : encodeFrame w.frameLimit query.encode = .ok frame) :
    c.Posed (inlet c.line hspan w.net.ending) query (some span) w w.net.bytes := by
  refine ⟨rfl, hopen, frame,
    { w with journal := w.journal.record (.sending c.line c.peer query) }, hframe, ?_, rfl, rfl⟩
  obtain ⟨b, bs, rfl⟩ := List.exists_cons_of_ne_nil (frame_ne_nil hframe)
  have hall : bs.drop (Fin.last bs.length).val = [] := List.drop_length
  have hahead := (inlet c.line hspan w.net.ending).ahead (s := w.net) rfl
  obtain ⟨s', harm, rfl⟩ := Connection.run_applyDeadline (t := transport) (c := c)
    (P := fun s' => s' = w.net)
    (w := { w with journal := w.journal.record (.sending c.line c.peer query) }) hahead
    fun _ => ⟨_, rfl, rfl⟩
  refine (run_bind_of_ok harm).trans ?_
  change (c.writeWithin transport _ bs.length (bs.drop (Fin.last bs.length).val)).run _ = _
  rw [hall, Connection.writeWithin_nil]
  rfl

/-- The line that plays the reel. -/
def line : Connection := ⟨0, default⟩

/-- A stale response, and a frame that announces one byte more than there is. -/
def cutShort : World Reel :=
  ⟨⟨[2, 0, 0, 0, 16, 1] ++ [3, 0, 0, 0, 16, 2], .ended, [2, 1, 0, 4]⟩, [], maxFrame, Journal.fresh⟩

/-- A deadline of five units is ahead. -/
theorem ahead_five : ∀ d ∈ ((some 5).map fun span => Clock.after (0 : Int) span), 0 < d := by
  decide

end Reel

/-- The stale response is passed over, the frame that is cut short is an error of a broken stream,
and another query is not sent. -/
theorem execute_of_breaks_cutShort :
    maxFrame < 4294967296 ∧
      Reel.line.Posed (Reel.inlet 0 Reel.ahead_five .ended) (.followUp .continue 2) (some 5)
        Reel.cutShort ([2, 0, 0, 0, 16, 1] ++ [3, 0, 0, 0, 16, 2]) ∧
      Behind maxFrame 2 (fun tail => Breaks maxFrame Reel.line.peer 2 .ended tail .brokenClient
        (.ofCause (.truncated Reel.line.peer)) []) ([2, 0, 0, 0, 16, 1] ++ [3, 0, 0, 0, 16, 2]) ∧
      ∃ w', (Reel.line.execute Reel.transport (.followUp .continue 2) (some 5)).run Reel.cutShort =
          (.error (.driver (.ofCause (.truncated Reel.line.peer))), w') ∧ w'.net.bytes = [] ∧
        (Reel.line.execute Reel.transport (.followUp .continue 3) none).run w' =
          (.error (.ofCause .connectionClosed), w') := by
  have hposed : Reel.line.Posed (Reel.inlet 0 Reel.ahead_five .ended) (.followUp .continue 2)
      (some 5) Reel.cutShort ([2, 0, 0, 0, 16, 1] ++ [3, 0, 0, 0, 16, 2]) :=
    Reel.posed (w := Reel.cutShort) Reel.ahead_five List.not_mem_nil
      (encodeFrame_eq_ok.2 ⟨by decide +kernel, rfl⟩)
  have hframe : encodeFrame maxFrame [16, 1] = .ok [2, 0, 0, 0, 16, 1] := rfl
  have hdecode : Response.decode [16, 1] = some { Response.empty with token := some 1 } := rfl
  have hbreaks : Behind maxFrame 2 (fun tail => Breaks maxFrame Reel.line.peer 2 .ended tail
      .brokenClient (.ofCause (.truncated Reel.line.peer)) [])
        ([2, 0, 0, 0, 16, 1] ++ [3, 0, 0, 0, 16, 2]) :=
    .skip hframe hdecode (by decide) (.here (.truncated (List.cons_ne_nil _ _)
      (.inr ⟨[3, 0, 0, 0], [16, 2], rfl, rfl, by decide, by decide⟩)))
  obtain ⟨w', hrun, -, hrest, -, hlater⟩ :=
    Connection.execute_of_breaks (by decide) hposed hbreaks
  exact ⟨by decide, hposed, hbreaks, w', hrun, hrest, hlater w' (.here w') _ _⟩

end QueryDriver.Net
