import Mathlib.Tactic.Common
import Mathlib.Tactic.Linarith
import Mathlib.Tactic.Ring
import QueryDriver.Number.Double

/-!
# The range of doubles

A ratio is rounded to a double unless it is too large for one. The bound lies half way between
the largest double and the power of two behind it, and the ratio at the bound is too large
already: of its two neighbours the power of two is the even one.
-/

namespace QueryDriver

/-- The integer part of a logarithm is known by the powers of two below a ratio. -/
theorem le_floorLog2_iff {num den : Nat} (hnum : num ≠ 0) (hden : den ≠ 0) (k : Nat) :
    (k : Int) ≤ floorLog2 num den ↔ den * 2 ^ k ≤ num := by
  have hnum_le := Nat.log2_self_le hnum
  have hnum_lt := Nat.lt_log2_self (n := num)
  have hden_le := Nat.log2_self_le hden
  have hden_lt := Nat.lt_log2_self (n := den)
  -- The difference of the two logarithms is the result or one more than the result.
  have hbound (h : den * 2 ^ k ≤ num) : den.log2 + k ≤ num.log2 := by
    have hpow : 2 ^ (den.log2 + k) < 2 ^ (num.log2 + 1) := by
      rw [Nat.pow_add]
      exact lt_of_le_of_lt (le_trans (Nat.mul_le_mul_right _ hden_le) h) hnum_lt
    have := (Nat.pow_lt_pow_iff_right (by decide : 1 < 2)).1 hpow
    omega
  have hreach {j : Nat} (hj : den.log2 + j + 1 ≤ num.log2) : den * 2 ^ j ≤ num := by
    refine le_trans ?_ hnum_le
    calc den * 2 ^ j ≤ 2 ^ (den.log2 + 1) * 2 ^ j := Nat.mul_le_mul_right _ hden_lt.le
      _ = 2 ^ (den.log2 + j + 1) := by
        rw [← Nat.pow_add]
        congr 1
        omega
      _ ≤ 2 ^ num.log2 := Nat.pow_le_pow_right (by decide) hj
  unfold floorLog2
  by_cases hle : den.log2 ≤ num.log2
  · obtain ⟨e, he⟩ := Nat.exists_eq_add_of_le hle
    have hdiff : (num.log2 : Int) - den.log2 = e := by omega
    simp only [hdiff, Int.natCast_nonneg, if_true, Int.toNat_natCast, Nat.shiftLeft_eq]
    by_cases hreached : den * 2 ^ e ≤ num
    · simp only [hreached, decide_true, if_true, Int.ofNat_le]
      refine ⟨fun h => ?_, fun h => ?_⟩
      · exact le_trans (Nat.mul_le_mul_left _ (Nat.pow_le_pow_right (by decide) h)) hreached
      · have := hbound h
        omega
    · simp only [hreached, decide_false, Bool.false_eq_true, if_false]
      refine ⟨fun h => hreach (by omega), fun h => ?_⟩
      have hne : k ≠ e := by
        rintro rfl
        exact hreached h
      have := hbound h
      omega
  · refine ⟨fun h => ?_, fun h => ?_⟩
    · exfalso
      dsimp only at h
      split at h <;> omega
    · have := hbound h
      omega

theorem div_le_roundDiv (num den : Nat) : num / den ≤ roundDiv num den := by
  unfold roundDiv
  dsimp only
  repeat' split
  all_goals omega

theorem roundDiv_le (num den : Nat) : roundDiv num den ≤ num / den + 1 := by
  unfold roundDiv
  dsimp only
  repeat' split
  all_goals omega

/-- A quotient is rounded up to an even number from the middle on. -/
theorem succ_le_roundDiv_iff {num den q : Nat} (hden : 0 < den) (hodd : q % 2 = 1) :
    q + 1 ≤ roundDiv num den ↔ (2 * q + 1) * den ≤ 2 * num := by
  have hnum := Nat.div_add_mod num den
  have hmod := Nat.mod_lt num hden
  obtain hlt | heq | hgt := Nat.lt_trichotomy (num / den) q
  · have hbelow : (num / den + 1) * den ≤ q * den := Nat.mul_le_mul_right _ hlt
    have hround := roundDiv_le num den
    refine ⟨fun h => by omega, fun h => ?_⟩
    exfalso
    linarith
  · unfold roundDiv
    dsimp only
    rw [heq]
    rw [heq] at hnum
    have hexpand : (2 * q + 1) * den = 2 * (den * q) + den := by ring
    rw [hexpand]
    repeat' split
    all_goals omega
  · have habove : (q + 1) * den ≤ num / den * den := Nat.mul_le_mul_right _ hgt
    have hround := div_le_roundDiv num den
    have hdiv := Nat.div_mul_le_self num den
    refine ⟨fun _ => ?_, fun _ => by omega⟩
    linarith

namespace Double

/-- The least natural number that is too large for a double. -/
def bound : Nat := 2 ^ 1024 - 2 ^ 970

theorem two_pow_lt_bound : 2 ^ 1023 < bound ∧ bound ≤ 2 ^ 1024 := by decide +kernel

theorem two_mul_bound : 2 * bound = (2 * (2 * hiddenBit - 1) + 1) * 2 ^ 971 := by decide +kernel

theorem ofParts_eq_none_iff {negative : Bool} {m : Nat} {q : Int} :
    ofParts negative m q = none ↔ hiddenBit ≤ m ∧ 972 ≤ q := by
  unfold ofParts
  dsimp only
  repeat' split
  all_goals simp
  all_goals omega

/-- The significand of a ratio that is rounded to a multiple of `2 ^ q`. -/
def roundedAt (num den : Nat) (q : Int) : Nat :=
  if 0 ≤ q then roundDiv num (den <<< q.toNat) else roundDiv (num <<< (-q).toNat) den

theorem roundedAt_natCast (num den q : Nat) : roundedAt num den q = roundDiv num (den * 2 ^ q) := by
  simp [roundedAt, Nat.shiftLeft_eq]

theorem roundedAt_of_den_zero (num : Nat) (q : Int) : roundedAt num 0 q ≤ 1 := by
  unfold roundedAt
  split
  · simpa using roundDiv_le num (0 <<< q.toNat)
  · simpa using roundDiv_le (num <<< (-q).toNat) 0

theorem hiddenBit_le_roundedAt {num den q : Nat} (hden : den ≠ 0) (h : den * 2 ^ (q + 52) ≤ num) :
    hiddenBit ≤ roundedAt num den q := by
  have hunit : 0 < den * 2 ^ q := Nat.mul_pos (Nat.pos_of_ne_zero hden) (Nat.two_pow_pos q)
  rw [roundedAt_natCast]
  refine le_trans ?_ (div_le_roundDiv num _)
  rw [Nat.le_div_iff_mul_le hunit, show hiddenBit = 2 ^ 52 from rfl]
  calc 2 ^ 52 * (den * 2 ^ q) = den * 2 ^ (q + 52) := by
        rw [Nat.pow_add]
        ring
    _ ≤ num := h

/-- A ratio is too large when its last place is, or becomes so by rounding. -/
theorem ofRatio_eq_none_iff_roundedAt {negative : Bool} {num den : Nat} (hnum : num ≠ 0) {q : Int}
    (hq : q = max (floorLog2 num den - 52) (-1074)) :
    ofRatio negative num den = none ↔
      hiddenBit ≤ roundedAt num den q ∧
        (972 ≤ q ∨ q = 971 ∧ roundedAt num den q = 2 * hiddenBit) := by
  have hbit : hiddenBit = 4503599627370496 := rfl
  have hofRatio : ofRatio negative num den = if roundedAt num den q = 2 * hiddenBit then
      ofParts negative hiddenBit (q + 1) else ofParts negative (roundedAt num den q) q := by
    rw [ofRatio, if_neg hnum, hq]
    rfl
  rw [hofRatio]
  split <;> rw [ofParts_eq_none_iff] <;> omega

/-- In a binade a ratio is rounded up to its end from the middle of the last two places on. -/
theorem roundedAt_eq_iff {num den q e : Nat} (hden : den ≠ 0) (he : e = q + 53)
    (hlast : num < den * 2 ^ e) :
    roundedAt num den q = 2 * hiddenBit ↔
      (2 * (2 * hiddenBit - 1) + 1) * (den * 2 ^ q) ≤ 2 * num := by
  have hunit : 0 < den * 2 ^ q := Nat.mul_pos (Nat.pos_of_ne_zero hden) (Nat.two_pow_pos q)
  have hend : 2 * hiddenBit = 2 * hiddenBit - 1 + 1 := rfl
  have hquotient : num / (den * 2 ^ q) < 2 * hiddenBit := by
    rw [Nat.div_lt_iff_lt_mul hunit, show 2 * hiddenBit = 2 ^ 53 from rfl]
    calc num < den * 2 ^ e := hlast
      _ = 2 ^ 53 * (den * 2 ^ q) := by
        rw [he, Nat.pow_add]
        ring
  have hle : roundedAt num den q ≤ 2 * hiddenBit := by
    rw [roundedAt_natCast]
    exact (roundDiv_le _ _).trans hquotient
  rw [← succ_le_roundDiv_iff hunit (by decide), ← roundedAt_natCast, ← hend]
  exact ⟨fun h => h.ge, fun h => le_antisymm hle h⟩

/-- Half way between the largest double and the power of two behind it. -/
theorem roundedAt_last_iff {num den : Nat} (hden : den ≠ 0) (hlast : num < den * 2 ^ 1024) :
    roundedAt num den (971 : Nat) = 2 * hiddenBit ↔ bound * den ≤ num := by
  have hdouble : 2 * (bound * den) = (2 * (2 * hiddenBit - 1) + 1) * (den * 2 ^ 971) := by
    rw [← Nat.mul_assoc, two_mul_bound, Nat.mul_assoc, Nat.mul_comm den]
  rw [roundedAt_eq_iff hden (by decide) hlast, ← hdouble]
  exact Nat.mul_le_mul_left_iff (by decide)

/-- A ratio is too large for a double from the bound on. -/
theorem ofRatio_eq_none_iff (negative : Bool) (num den : Nat) :
    ofRatio negative num den = none ↔ den ≠ 0 ∧ bound * den ≤ num := by
  obtain ⟨hbound_gt, hbound_le⟩ := two_pow_lt_bound
  by_cases hnum : num = 0
  · subst hnum
    refine ⟨nofun, fun ⟨hden, h⟩ => ?_⟩
    have : 0 < bound * den := Nat.mul_pos (by omega) (Nat.pos_of_ne_zero hden)
    omega
  rw [ofRatio_eq_none_iff_roundedAt hnum rfl]
  by_cases hden : den = 0
  · subst hden
    refine iff_of_false (fun h => ?_) fun h => h.1 rfl
    exact absurd (h.1.trans (roundedAt_of_den_zero num _)) (by decide)
  rw [and_iff_right hden]
  have hlog := le_floorLog2_iff hnum hden
  by_cases habove : den * 2 ^ 1024 ≤ num
  · have hle : (1024 : Nat) ≤ floorLog2 num den := (hlog 1024).2 habove
    obtain ⟨k, hk⟩ := Int.eq_ofNat_of_zero_le (a := floorLog2 num den - 52) (by omega)
    have hq : max (floorLog2 num den - 52) (-1074) = k := by omega
    rw [hq]
    refine iff_of_true ⟨hiddenBit_le_roundedAt hden ((hlog (k + 52)).1 (by omega)),
      .inl (by omega)⟩ ?_
    calc bound * den ≤ 2 ^ 1024 * den := Nat.mul_le_mul_right _ hbound_le
      _ = den * 2 ^ 1024 := Nat.mul_comm ..
      _ ≤ num := habove
  have hlt : ¬((1024 : Nat) : Int) ≤ floorLog2 num den := mt (hlog 1024).1 habove
  by_cases hlast : den * 2 ^ 1023 ≤ num
  · have hle : (1023 : Nat) ≤ floorLog2 num den := (hlog 1023).2 hlast
    have hq : max (floorLog2 num den - 52) (-1074) = (971 : Nat) := by omega
    have hbit : hiddenBit ≤ 2 * hiddenBit := by decide
    rw [hq, ← roundedAt_last_iff hden (Nat.lt_of_not_le habove)]
    constructor
    · rintro ⟨-, h | ⟨-, h⟩⟩
      · omega
      · exact h
    · exact fun h => ⟨h ▸ hbit, .inr ⟨rfl, h⟩⟩
  · have hbelow : ¬((1023 : Nat) : Int) ≤ floorLog2 num den := mt (hlog 1023).1 hlast
    refine iff_of_false (by omega) (Nat.not_le_of_lt ?_)
    calc num < den * 2 ^ 1023 := Nat.lt_of_not_le hlast
      _ = 2 ^ 1023 * den := Nat.mul_comm ..
      _ ≤ bound * den := Nat.mul_le_mul_right _ hbound_gt.le

end Double

end QueryDriver
