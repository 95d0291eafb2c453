import QueryDriver.Proofs.Effect
import QueryDriver.Proofs.Wire.Messages

/-!
# What frames tell

A frame begins with the length of its message, so no frame is the beginning of another one,
and bytes that are made of frames can be split into them in one way only. The message of a
frame is a query that is known by its bytes. So whoever has the bytes of queries that were
sent one after the other has the queries, field by field and in order.
-/

namespace QueryDriver.Net

open Wire

/-- The message is short enough, and the frame is the message behind its length. -/
theorem encodeFrame_eq_ok {limit : Nat} {payload frame : Bytes} :
    encodeFrame limit payload = .ok frame ↔
      payload.length ≤ limit ∧ frame = littleEndian 4 payload.length ++ payload := by
  unfold encodeFrame
  split
  case isTrue h => simp [Nat.not_le.2 h]
  case isFalse h =>
    simp only [Except.ok.injEq, Nat.not_lt.1 h, true_and]
    exact eq_comm

/-- What follows a frame does not change how long its message is. -/
theorem length_eq_of_append {limit : Nat} (hlimit : limit < 4294967296)
    {payload payload' frame frame' : Bytes} (h : encodeFrame limit payload = .ok frame)
    (h' : encodeFrame limit payload' = .ok frame') {rest rest' : Bytes}
    (hbytes : frame ++ rest = frame' ++ rest') : payload.length = payload'.length := by
  obtain ⟨hlength, rfl⟩ := encodeFrame_eq_ok.1 h
  obtain ⟨hlength', rfl⟩ := encodeFrame_eq_ok.1 h'
  rw [List.append_assoc, List.append_assoc] at hbytes
  have hheader := (List.append_inj hbytes (by rw [length_littleEndian, length_littleEndian])).1
  have hsize := congrArg ofLittleEndian hheader
  rwa [ofLittleEndian_littleEndian (Nat.lt_of_le_of_lt hlength hlimit),
    ofLittleEndian_littleEndian (Nat.lt_of_le_of_lt hlength' hlimit)] at hsize

/-- Bytes that begin with a frame begin with no other one. -/
theorem encodeFrame_append_inj {limit : Nat} (hlimit : limit < 4294967296)
    {payload payload' frame frame' : Bytes} (h : encodeFrame limit payload = .ok frame)
    (h' : encodeFrame limit payload' = .ok frame') {rest rest' : Bytes}
    (hbytes : frame ++ rest = frame' ++ rest') : payload = payload' ∧ rest = rest' := by
  have hlength := length_eq_of_append hlimit h h' hbytes
  obtain ⟨-, rfl⟩ := encodeFrame_eq_ok.1 h
  obtain ⟨-, rfl⟩ := encodeFrame_eq_ok.1 h'
  obtain ⟨hframe, hrest⟩ := List.append_inj hbytes (by simp [length_littleEndian, hlength])
  exact ⟨(List.append_inj hframe (by simp [length_littleEndian])).2, hrest⟩

/-- A frame has a header at least. -/
theorem frame_ne_nil {limit : Nat} {payload frame : Bytes}
    (h : encodeFrame limit payload = .ok frame) : frame ≠ [] := by
  obtain ⟨-, rfl⟩ := encodeFrame_eq_ok.1 h
  simp [littleEndian]

/-- The bytes of messages, each in a frame of its own. -/
def encodeFrames (limit : Nat) : List Bytes → Except Cause Bytes
  | [] => .ok []
  | payload :: payloads => do
    let frame ← encodeFrame limit payload
    let frames ← encodeFrames limit payloads
    return frame ++ frames

/-- The frames of several messages are one frame and the frames of the others. -/
theorem encodeFrames_cons {limit : Nat} {payload : Bytes} {payloads : List Bytes} {bs : Bytes} :
    encodeFrames limit (payload :: payloads) = .ok bs ↔
      ∃ frame frames, encodeFrame limit payload = .ok frame ∧
        encodeFrames limit payloads = .ok frames ∧ bs = frame ++ frames := by
  constructor
  · intro h
    rw [encodeFrames] at h
    obtain ⟨frame, hframe, h⟩ := bind_ok h
    obtain ⟨frames, hframes, h⟩ := bind_ok h
    cases h
    exact ⟨frame, frames, hframe, hframes, rfl⟩
  · rintro ⟨frame, frames, hframe, hframes, rfl⟩
    rw [encodeFrames, hframe, hframes]
    rfl

theorem exists_encodeFrames {limit : Nat} {payloads : List Bytes}
    (h : ∀ payload ∈ payloads, payload.length ≤ limit) :
    ∃ frames, encodeFrames limit payloads = .ok frames := by
  induction payloads with
  | nil => exact ⟨[], rfl⟩
  | cons payload payloads ih =>
      obtain ⟨hpayload, hpayloads⟩ := List.forall_mem_cons.1 h
      obtain ⟨frames, hframes⟩ := ih hpayloads
      exact ⟨_, encodeFrames_cons.2 ⟨_, frames, encodeFrame_eq_ok.2 ⟨hpayload, rfl⟩, hframes, rfl⟩⟩

/-- Frames one after the other tell their messages. -/
theorem encodeFrames_inj {limit : Nat} (hlimit : limit < 4294967296) {payloads payloads' : List Bytes}
    {frames : Bytes} (h : encodeFrames limit payloads = .ok frames)
    (h' : encodeFrames limit payloads' = .ok frames) : payloads = payloads' := by
  induction payloads generalizing payloads' frames with
  | nil =>
      cases payloads' with
      | nil => rfl
      | cons payload' payloads' =>
          obtain ⟨frame', frames', hframe', -, hbytes⟩ := encodeFrames_cons.1 h'
          cases h
          exact absurd (List.append_eq_nil_iff.1 hbytes.symm).1 (frame_ne_nil hframe')
  | cons payload payloads ih =>
      obtain ⟨frame, later, hframe, hlater, rfl⟩ := encodeFrames_cons.1 h
      cases payloads' with
      | nil =>
          have hnil : frame ++ later = [] := (Except.ok.inj h').symm
          exact absurd (List.append_eq_nil_iff.1 hnil).1 (frame_ne_nil hframe)
      | cons payload' payloads' =>
          obtain ⟨frame', later', hframe', hlater', hbytes⟩ := encodeFrames_cons.1 h'
          obtain ⟨rfl, rfl⟩ := encodeFrame_append_inj hlimit hframe hframe' hbytes
          rw [ih hlater hlater']

/-- Queries that are short enough to be sent are told by their bytes. -/
theorem eq_of_map_encode {qs qs' : List Query} (h : ∀ q ∈ qs, q.encode.length ≤ maxFrame)
    (hbytes : qs.map Query.encode = qs'.map Query.encode) : qs = qs' := by
  induction qs generalizing qs' with
  | nil => exact (List.map_eq_nil_iff.1 hbytes.symm).symm
  | cons q qs ih =>
      obtain ⟨hq, hqs⟩ := List.forall_mem_cons.1 h
      obtain ⟨q', later, rfl, hq', hlater⟩ := List.map_eq_cons_iff.1 hbytes.symm
      rw [Query.encode_inj (Nat.le_trans hq (by decide)) hq'.symm, ih hqs hlater.symm]

/-- The frames of two queries are equal only if the queries are, and none is the beginning of
the other; and frames one after the other are equal only if the lists of queries are. -/
theorem frames_lossless {q q' : Query} {qs qs' : List Query} (hq : q.encode.length ≤ maxFrame)
    (hq' : q'.encode.length ≤ maxFrame) (hqs : ∀ x ∈ qs, x.encode.length ≤ maxFrame)
    (hqs' : ∀ x ∈ qs', x.encode.length ≤ maxFrame) :
    (∃ frame frame', encodeFrame maxFrame q.encode = .ok frame ∧
      encodeFrame maxFrame q'.encode = .ok frame' ∧ (frame = frame' → q = q') ∧
        (frame <+: frame' → frame = frame') ∧ (frame' <+: frame → frame = frame')) ∧
    ∃ frames frames', encodeFrames maxFrame (qs.map Query.encode) = .ok frames ∧
      encodeFrames maxFrame (qs'.map Query.encode) = .ok frames' ∧
        (frames = frames' → qs = qs') := by
  have hframe := encodeFrame_eq_ok.2 ⟨hq, rfl⟩
  have hframe' := encodeFrame_eq_ok.2 ⟨hq', rfl⟩
  obtain ⟨frames, hframes⟩ := exists_encodeFrames (List.forall_mem_map.2 hqs)
  obtain ⟨frames', hframes'⟩ := exists_encodeFrames (List.forall_mem_map.2 hqs')
  refine ⟨⟨_, _, hframe, hframe', fun hsame => ?_, ?_, ?_⟩, frames, frames', hframes, hframes',
    fun hsame => ?_⟩
  · rw [hsame] at hframe
    have hbytes : _ ∧ ([] : Bytes) = [] := encodeFrame_append_inj (by decide) hframe hframe' rfl
    exact Query.encode_inj (Nat.le_trans hq (by decide)) hbytes.1
  · rintro ⟨rest, hrest⟩
    rw [← List.append_nil (_ ++ q'.encode)] at hrest
    obtain ⟨hbytes, -⟩ := encodeFrame_append_inj (by decide) hframe hframe' hrest
    rw [hbytes]
  · rintro ⟨rest, hrest⟩
    rw [← List.append_nil (_ ++ q.encode)] at hrest
    obtain ⟨hbytes, -⟩ := encodeFrame_append_inj (by decide) hframe' hframe hrest
    rw [hbytes]
  · rw [← hsame] at hframes'
    exact eq_of_map_encode hqs (encodeFrames_inj (by decide) hframes hframes')

/-- A query to stop that has the token zero. -/
def stopZero : Query := Query.followUp .stop 0

/-- A query to stop without a token. -/
def stopBare : Query := { Query.empty with tag := some QueryType.stop.code }

/-- A token that is zero is not the same as none, and two queries are not one. -/
theorem frames_lossless_stop :
    stopZero.encode.length ≤ maxFrame ∧ stopBare.encode.length ≤ maxFrame ∧
      (∀ x ∈ [stopZero, stopBare], x.encode.length ≤ maxFrame) ∧
        (∀ x ∈ [stopZero], x.encode.length ≤ maxFrame) ∧
    (∃ frame frame', encodeFrame maxFrame stopZero.encode = .ok frame ∧
      encodeFrame maxFrame stopBare.encode = .ok frame' ∧ frame ≠ frame' ∧
        ¬ frame <+: frame' ∧ ¬ frame' <+: frame) ∧
    ∃ frames frames', encodeFrames maxFrame [stopZero.encode, stopBare.encode] = .ok frames ∧
      encodeFrames maxFrame [stopZero.encode] = .ok frames' ∧ frames ≠ frames' := by
  have hzero : stopZero.encode.length ≤ maxFrame := by decide +kernel
  have hbare : stopBare.encode.length ≤ maxFrame := by decide +kernel
  have hboth : ∀ x ∈ [stopZero, stopBare], x.encode.length ≤ maxFrame := by simp [hzero, hbare]
  have hone : ∀ x ∈ [stopZero], x.encode.length ≤ maxFrame := by simp [hzero]
  have hne : stopZero ≠ stopBare := by
    intro h
    cases congrArg Query.token h
  obtain ⟨⟨frame, frame', hframe, hframe', hinj, hle, hge⟩, frames, frames', hframes, hframes',
    hlist⟩ := frames_lossless hzero hbare hboth hone
  exact ⟨hzero, hbare, hboth, hone, ⟨frame, frame', hframe, hframe', fun h => hne (hinj h),
    fun h => hne (hinj (hle h)), fun h => hne (hinj (hge h))⟩, frames, frames', hframes, hframes',
      fun h => absurd (congrArg List.length (hlist h)) (by decide)⟩

end QueryDriver.Net
