import QueryDriver.Proofs.Number.Exact
import QueryDriver.Time.Duration

/-!
# Whole numbers as doubles

A whole number of either sign whose magnitude is below `2 ^ 53` is a double exactly, also when it
comes as a ratio that is not in lowest terms. So a number of microseconds that makes whole seconds
comes back from the double of its seconds.
-/

namespace QueryDriver

namespace Double

/-! ### The fields of a double -/

section Fields

variable (negative : Bool) {exponent fraction : Nat}

theorem toNat_bits_ofFields (he : exponent < 2048) (hf : fraction < hiddenBit) :
    (ofFields negative exponent fraction).bits.toNat =
      negative.toNat * 2 ^ 63 + exponent * 2 ^ 52 + fraction := by
  have hbit : hiddenBit = 2 ^ 52 := rfl
  rw [hbit] at hf
  rw [ofFields, hbit]
  change (UInt64.ofNat _).toNat = _
  cases negative with
  | false =>
      simp only [Bool.false_eq_true, if_false, Bool.toNat_false]
      rw [UInt64.toNat_ofNat', Nat.mod_eq_of_lt (by omega)]
      omega
  | true =>
      simp only [if_true, Bool.toNat_true]
      rw [UInt64.toNat_ofNat', Nat.mod_eq_of_lt (by omega)]
      omega

theorem negative_ofFields (he : exponent < 2048) (hf : fraction < hiddenBit) :
    (ofFields negative exponent fraction).negative = negative := by
  have hbit : hiddenBit = 2 ^ 52 := rfl
  have htop : ((ofFields negative exponent fraction).bits >>> 63).toNat = negative.toNat := by
    rw [UInt64.toNat_shiftRight, toNat_bits_ofFields negative he hf, Nat.shiftRight_eq_div_pow]
    change _ / 2 ^ 63 = _
    omega
  rw [Double.negative, Bool.eq_iff_iff, beq_iff_eq, ← UInt64.toNat_inj, htop]
  cases negative <;> decide

theorem exponentField_ofFields (he : exponent < 2048) (hf : fraction < hiddenBit) :
    (ofFields negative exponent fraction).exponentField = exponent := by
  have hbit : hiddenBit = 2 ^ 52 := rfl
  have hmask : (0x7ff : UInt64).toNat = 2 ^ 11 - 1 := rfl
  rw [exponentField, UInt64.toNat_and, UInt64.toNat_shiftRight, toNat_bits_ofFields negative he hf,
    Nat.shiftRight_eq_div_pow, hmask, Nat.and_two_pow_sub_one_eq_mod]
  change _ / 2 ^ 52 % _ = _
  omega

theorem fractionField_ofFields (he : exponent < 2048) (hf : fraction < hiddenBit) :
    (ofFields negative exponent fraction).fractionField = fraction := by
  have hbit : hiddenBit = 2 ^ 52 := rfl
  have hmask : (0xfffffffffffff : UInt64).toNat = 2 ^ 52 - 1 := rfl
  rw [fractionField, UInt64.toNat_and, toNat_bits_ofFields negative he hf, hmask,
    Nat.and_two_pow_sub_one_eq_mod]
  omega

end Fields

/-! ### Whole numbers -/

/-- The double has the sign and the magnitude of a whole number. -/
structure IsWhole (x : Double) (negative : Bool) (q : Nat) : Prop where
  negative_eq : x.negative = negative
  ratio_eq : ∃ s, x.ratio = (q * 2 ^ s, 2 ^ s)
  finite : x.isFinite = true

/-- A ratio that is a small whole number is rounded to that number. -/
theorem isWhole_ofRatio (negative : Bool) {q den : Nat} (h : q < 2 ^ 53) (hden : den ≠ 0) :
    ∃ x, ofRatio negative (q * den) den = some x ∧ x.IsWhole negative q := by
  by_cases hq : q = 0
  · refine ⟨ofFields negative 0 0, by simp [ofRatio, hq], ?_⟩
    subst hq
    refine ⟨negative_ofFields negative (by decide) (by decide), ⟨1074, ?_⟩, ?_⟩
    · cases negative <;> decide +kernel
    · cases negative <;> decide
  · have hlog : q.log2 < 53 := (Nat.log2_lt hq).2 h
    obtain ⟨hle, hlt⟩ := hiddenBit_le_shift hq h
    have he : q.log2 + 1023 < 2048 := by omega
    have hf : q * 2 ^ (52 - q.log2) - hiddenBit < hiddenBit := by omega
    refine ⟨_, ofRatio_mul negative hq h hden, negative_ofFields negative he hf,
      ⟨52 - q.log2, ?_⟩, ?_⟩
    · have hsignificand : (ofFields negative (q.log2 + 1023)
          (q * 2 ^ (52 - q.log2) - hiddenBit)).significand = q * 2 ^ (52 - q.log2) := by
        rw [significand, exponentField_ofFields negative he hf,
          fractionField_ofFields negative he hf, if_neg (by omega)]
        omega
      have hscale : (ofFields negative (q.log2 + 1023)
          (q * 2 ^ (52 - q.log2) - hiddenBit)).scale = (q.log2 : Int) - 52 := by
        rw [scale, exponentField_ofFields negative he hf, if_neg (by omega)]
        omega
      rw [ratio, hsignificand, hscale]
      by_cases hlog' : q.log2 = 52
      · simp [hlog']
      · have hshift : (-((q.log2 : Int) - 52)).toNat = 52 - q.log2 := by omega
        rw [if_neg (by omega), hshift, Nat.one_shiftLeft]
    · rw [isFinite, exponentField_ofFields negative he hf, bne_iff_ne]
      omega

namespace IsWhole

variable {x : Double} {negative : Bool} {q : Nat}

theorem truncate_eq (h : x.IsWhole negative q) :
    x.truncate = if negative then -(q : Int) else q := by
  obtain ⟨s, hs⟩ := h.ratio_eq
  rw [truncate, h.negative_eq, hs]
  simp only [Nat.mul_div_cancel q (Nat.two_pow_pos s)]

theorem exact_eq (h : x.IsWhole negative q) : ∃ s,
    x.exact = ((if negative then -(q : Int) else q) * (2 ^ s : Nat), 2 ^ s) := by
  obtain ⟨s, hs⟩ := h.ratio_eq
  refine ⟨s, ?_⟩
  rw [exact, h.negative_eq, hs]
  cases negative <;> simp

end IsWhole

end Double

namespace Duration

/-- A whole number of seconds is taken as it is. -/
theorem ofDouble_of_isWhole {x : Double} {negative : Bool} {q : Nat} (h : x.IsWhole negative q) :
    ofDouble x = ofSeconds (if negative then -(q : Int) else q) := by
  obtain ⟨s, hs⟩ := h.exact_eq
  have hrest : (Double.ofRatio false 0 (2 ^ s)).getD Double.zero = Double.ofFields false 0 0 := by
    simp [Double.ofRatio]
  have hnone : roundRatio (Double.ofFields false 0 0).exact.1 (Double.ofFields false 0 0).exact.2 =
      0 := by
    decide +kernel
  simp only [ofDouble, hs, h.truncate_eq, sub_self, lt_irrefl, decide_false, Int.natAbs_zero,
    Nat.zero_mul, hrest, hnone, add_zero, ofSeconds]

end Duration

end QueryDriver
