import QueryDriver.Failure
import QueryDriver.Wire.Decoding

/-! # Frames

A message travels behind its length, four bytes with the least significant first. A
connection starts with four bytes that name the version of the protocol.
-/

namespace QueryDriver.Net

open Wire

/-- How long a message may be. -/
def maxFrame : Nat := 64 * 1024 * 1024

/-- A message behind its length. -/
def encodeFrame (limit : Nat) (payload : Bytes) : Except Cause Bytes :=
  if limit < payload.length then .error (.payloadTooLong payload.length limit)
  else .ok (littleEndian 4 payload.length ++ payload)

/-- The first bytes on a connection. -/
def handshake : Bytes := littleEndian 4 versionMagic.toNat

/-- How many bytes a header is. -/
def headerSize : Nat := 4

theorem length_littleEndian (count n : Nat) : (littleEndian count n).length = count := by
  induction count generalizing n with
  | zero => rfl
  | succ count ih => simp [littleEndian, ih]

/-- The number that bytes denote is the one that they were made from, as long as it fits. -/
theorem ofLittleEndian_littleEndian {count n : Nat} (h : n < 1 <<< (8 * count)) :
    ofLittleEndian (littleEndian count n) = n := by
  induction count generalizing n with
  | zero =>
      have hn : n = 0 := by simpa using h
      rw [hn]
      rfl
  | succ count ih =>
      have hdiv : n / 256 < 1 <<< (8 * count) := by
        rw [Nat.mul_succ, Nat.shiftLeft_add, Nat.shiftLeft_eq _ 8] at h
        exact (Nat.div_lt_iff_lt_mul (by decide)).2 h
      rw [littleEndian, ofLittleEndian, ih hdiv, UInt8.toNat_ofNat']
      omega

end QueryDriver.Net
