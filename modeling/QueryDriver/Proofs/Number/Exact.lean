import Mathlib.Tactic.Common
import Mathlib.Tactic.Ring
import QueryDriver.Proofs.Number.Range

/-!
# Small natural numbers are exact doubles

A natural number below `2 ^ 53` is stored by its leading bit, which gives the exponent, and
the bits behind it. Nothing is rounded, so different numbers are different doubles.
-/

namespace QueryDriver

/-- What the divisor has in common with the dividend does not count. -/
theorem floorLog2_mul {q den : Nat} (hq : q ≠ 0) (hden : den ≠ 0) :
    floorLog2 (q * den) den = q.log2 := by
  have hle (k : Nat) : (k : Int) ≤ floorLog2 (q * den) den ↔ k ≤ q.log2 := by
    rw [le_floorLog2_iff (Nat.mul_ne_zero hq hden) hden, Nat.mul_comm,
      Nat.mul_le_mul_right_iff (Nat.pos_of_ne_zero hden), Nat.le_log2 hq]
  have hnonneg := (hle 0).2 (Nat.zero_le _)
  obtain ⟨n, hn⟩ := Int.eq_ofNat_of_zero_le hnonneg
  rw [hn] at hle ⊢
  have hge := (hle q.log2).2 le_rfl
  have hle' := (hle n).1 le_rfl
  omega

namespace Double

/-- The leading bit of a number, moved to the place of the hidden bit. -/
theorem hiddenBit_le_shift {n : Nat} (hn : n ≠ 0) (h : n < 2 ^ 53) :
    hiddenBit ≤ n * 2 ^ (52 - n.log2) ∧ n * 2 ^ (52 - n.log2) < 2 * hiddenBit := by
  have hlog : n.log2 < 53 := (Nat.log2_lt hn).2 h
  have hbit : hiddenBit = 2 ^ n.log2 * 2 ^ (52 - n.log2) := by
    rw [← Nat.pow_add, Nat.add_sub_cancel' (by omega)]
    rfl
  have hnext : 2 * hiddenBit = 2 ^ (n.log2 + 1) * 2 ^ (52 - n.log2) := by
    rw [hbit, Nat.pow_succ]
    ring
  rw [hnext, hbit]
  constructor
  · exact Nat.mul_le_mul_right _ (Nat.log2_self_le hn)
  · exact Nat.mul_lt_mul_of_pos_right Nat.lt_log2_self (Nat.pow_pos (by decide))

/-- A ratio that is a whole number, in lowest terms or not. -/
theorem ofRatio_mul (negative : Bool) {q den : Nat} (hq : q ≠ 0) (h : q < 2 ^ 53)
    (hden : den ≠ 0) : ofRatio negative (q * den) den =
      some (ofFields negative (q.log2 + 1023) (q * 2 ^ (52 - q.log2) - hiddenBit)) := by
  have hlog : q.log2 < 53 := (Nat.log2_lt hq).2 h
  obtain ⟨hle, hlt⟩ := hiddenBit_le_shift hq h
  have hplace : max (floorLog2 (q * den) den - 52) (-1074) = (q.log2 : Int) - 52 := by
    rw [floorLog2_mul hq hden]
    omega
  have hm : (if 0 ≤ (q.log2 : Int) - 52
      then roundDiv (q * den) (den <<< ((q.log2 : Int) - 52).toNat)
      else roundDiv ((q * den) <<< (-((q.log2 : Int) - 52)).toNat) den) =
        q * 2 ^ (52 - q.log2) := by
    by_cases hlog' : q.log2 = 52
    · simp [hlog', roundDiv_mul_left q den (Nat.pos_of_ne_zero hden)]
    · have hneg : ¬ 0 ≤ (q.log2 : Int) - 52 := by omega
      have hshift : (-((q.log2 : Int) - 52)).toNat = 52 - q.log2 := by omega
      have hmul : q * den * 2 ^ (52 - q.log2) = q * 2 ^ (52 - q.log2) * den := by ring
      rw [if_neg hneg, hshift, Nat.shiftLeft_eq, hmul,
        roundDiv_mul_left _ _ (Nat.pos_of_ne_zero hden)]
  have hexponent : ((q.log2 : Int) - 52 + 1075).toNat = q.log2 + 1023 := by omega
  simp only [ofRatio, Nat.mul_eq_zero, hq, hden, or_self, if_false, hplace, hm]
  rw [if_neg (by omega), ofParts, if_neg (by omega), hexponent, if_pos (by omega)]

theorem ofNat_eq {n : Nat} (hn : n ≠ 0) (h : n < 2 ^ 53) :
    ofNat n = ofFields false (n.log2 + 1023) (n * 2 ^ (52 - n.log2) - hiddenBit) := by
  have hratio := ofRatio_mul false hn h Nat.one_ne_zero
  rw [Nat.mul_one] at hratio
  rw [ofNat, hratio, Option.getD_some]

theorem toNat_bits_ofNat {n : Nat} (hn : n ≠ 0) (h : n < 2 ^ 53) :
    (ofNat n).bits.toNat = (n.log2 + 1022) * hiddenBit + n * 2 ^ (52 - n.log2) := by
  have hlog : n.log2 < 53 := (Nat.log2_lt hn).2 h
  obtain ⟨hle, hlt⟩ := hiddenBit_le_shift hn h
  have hbit : hiddenBit = 4503599627370496 := rfl
  rw [ofNat_eq hn h, ofFields]
  change (UInt64.ofNat _).toNat = _
  rw [UInt64.toNat_ofNat']
  have hsmall : (n.log2 + 1023) * hiddenBit ≤ 1075 * hiddenBit :=
    Nat.mul_le_mul_right _ (by omega)
  have hsplit : (n.log2 + 1023) * hiddenBit = (n.log2 + 1022) * hiddenBit + hiddenBit := by ring
  rw [Nat.mod_eq_of_lt (by simp only [Bool.false_eq_true, if_false]; omega)]
  simp only [Bool.false_eq_true, if_false]
  omega

theorem ofNat_ne_zero {n : Nat} (hn : n ≠ 0) (h : n < 2 ^ 53) : ofNat n ≠ ofNat 0 := by
  intro heq
  have hzero : (ofNat 0).bits.toNat = 0 := by decide
  have hbits := toNat_bits_ofNat hn h
  have hle := (hiddenBit_le_shift hn h).1
  have hbit : hiddenBit = 4503599627370496 := rfl
  rw [heq, hzero] at hbits
  omega

/-- Numbers that a double holds exactly are different doubles when they are different. -/
theorem ofNat_injOn {m n : Nat} (hm : m < 2 ^ 53) (hn : n < 2 ^ 53) (h : ofNat m = ofNat n) :
    m = n := by
  by_cases hm0 : m = 0
  · by_cases hn0 : n = 0
    · rw [hm0, hn0]
    · rw [hm0] at h
      exact absurd h.symm (ofNat_ne_zero hn0 hn)
  · by_cases hn0 : n = 0
    · rw [hn0] at h
      exact absurd h (ofNat_ne_zero hm0 hm)
    · have hbits : (m.log2 + 1022) * hiddenBit + m * 2 ^ (52 - m.log2) =
          (n.log2 + 1022) * hiddenBit + n * 2 ^ (52 - n.log2) := by
        rw [← toNat_bits_ofNat hm0 hm, ← toNat_bits_ofNat hn0 hn, h]
      have hbit : hiddenBit = 4503599627370496 := rfl
      have hxm := hiddenBit_le_shift hm0 hm
      have hxn := hiddenBit_le_shift hn0 hn
      rw [hbit] at hbits hxm hxn
      have hlog : m.log2 = n.log2 := by omega
      rw [hlog] at hbits
      have hpow : 0 < 2 ^ (52 - n.log2) := Nat.pow_pos (by decide)
      exact Nat.eq_of_mul_eq_mul_right hpow (Nat.add_left_cancel hbits)

end Double

end QueryDriver
