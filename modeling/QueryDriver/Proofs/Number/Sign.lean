import QueryDriver.Proofs.Number.Whole

/-!
# Rounded ratios are finite

A ratio that is rounded to a double has at most fifty-three bits in front of the last place, or is
the power of two behind them. So what it is rounded to is a finite double, never an infinity and
never something that is no number. The sign of a double is then decided by its exact value.
-/

namespace QueryDriver

/-- The integer part of a logarithm below zero. -/
theorem neg_le_floorLog2 {num den k : Nat} (h : den ≤ num * 2 ^ k) :
    -(k : Int) ≤ floorLog2 num den := by
  have hlog : den.log2 ≤ num.log2 + k := by
    by_cases hden : den = 0
    · simp [hden]
    refine Nat.lt_succ_iff.1 ((Nat.log2_lt hden).2 ?_)
    calc den ≤ num * 2 ^ k := h
      _ < 2 ^ (num.log2 + 1) * 2 ^ k :=
        Nat.mul_lt_mul_of_pos_right Nat.lt_log2_self (Nat.two_pow_pos k)
      _ = 2 ^ (num.log2 + k + 1) := by
        rw [← Nat.pow_add]
        congr 1
        omega
  by_cases hstrict : den.log2 < num.log2 + k
  · unfold floorLog2
    dsimp only
    generalize (if 0 ≤ (num.log2 : Int) - den.log2 then _ else _ : Bool) = reached
    split <;> omega
  · -- The logarithms are as far apart as the power allows, so the ratio reaches their difference.
    have hdiff : (num.log2 : Int) - den.log2 = -(k : Int) := by omega
    unfold floorLog2
    rw [hdiff]
    by_cases hk : k = 0
    · subst hk
      have hle : den ≤ num := by simpa using h
      simp [hle]
    · have hneg : ¬ (0 : Int) ≤ -(k : Int) := by omega
      simp only [hneg, if_false, Int.neg_neg, Int.toNat_natCast, Nat.shiftLeft_eq, h, decide_true,
        if_true, le_refl]

namespace Double

/-- A ratio has at most fifty-three bits in front of the place to which it is rounded. -/
theorem roundedAt_le {num den : Nat} (hnum : num ≠ 0) (hden : den ≠ 0) {q : Int}
    (hq : q = max (floorLog2 num den - 52) (-1074)) : roundedAt num den q ≤ 2 * hiddenBit := by
  have hbit : 2 * hiddenBit = 2 ^ 53 := rfl
  have hround {n d : Nat} (hd : 0 < d) (h : n < 2 ^ 53 * d) : roundDiv n d ≤ 2 * hiddenBit := by
    have hquotient : n / d < 2 ^ 53 := (Nat.div_lt_iff_lt_mul hd).2 h
    rw [hbit]
    exact (roundDiv_le n d).trans hquotient
  unfold roundedAt
  split
  · rename_i hnonneg
    obtain ⟨p, hp⟩ := Int.eq_ofNat_of_zero_le hnonneg
    rw [hp, Int.toNat_natCast, Nat.shiftLeft_eq]
    refine hround (Nat.mul_pos (Nat.pos_of_ne_zero hden) (Nat.two_pow_pos p)) ?_
    have hlog := mt (le_floorLog2_iff hnum hden (p + 53)).2 (by omega)
    calc num < den * 2 ^ (p + 53) := Nat.lt_of_not_le hlog
      _ = 2 ^ 53 * (den * 2 ^ p) := by
        rw [Nat.pow_add]
        ring
  · rename_i hneg
    obtain ⟨p, hp⟩ := Int.eq_ofNat_of_zero_le (a := -q) (by omega)
    rw [hp, Int.toNat_natCast, Nat.shiftLeft_eq]
    refine hround (Nat.pos_of_ne_zero hden) (Nat.lt_of_not_le fun hle => ?_)
    obtain hsmall | hlarge := Nat.le_total p 53
    · have hratio : den * 2 ^ (53 - p) ≤ num := by
        refine Nat.le_of_mul_le_mul_right ?_ (Nat.two_pow_pos p)
        calc den * 2 ^ (53 - p) * 2 ^ p = 2 ^ 53 * den := by
              rw [Nat.mul_assoc, ← Nat.pow_add, Nat.sub_add_cancel hsmall, Nat.mul_comm]
          _ ≤ num * 2 ^ p := hle
      have hlog := (le_floorLog2_iff hnum hden (53 - p)).2 hratio
      omega
    · have hratio : den ≤ num * 2 ^ (p - 53) := by
        refine Nat.le_of_mul_le_mul_right ?_ (Nat.two_pow_pos 53)
        rw [Nat.mul_comm den]
        calc 2 ^ 53 * den ≤ num * 2 ^ p := hle
          _ = num * 2 ^ (p - 53) * 2 ^ 53 := by
            rw [Nat.mul_assoc, ← Nat.pow_add, Nat.sub_add_cancel hlarge]
      have hlog := neg_le_floorLog2 hratio
      omega

theorem isFinite_ofFields (negative : Bool) {exponent fraction : Nat} (he : exponent < 2047)
    (hf : fraction < hiddenBit) : (ofFields negative exponent fraction).isFinite = true := by
  rw [isFinite, exponentField_ofFields negative (by omega) hf, bne_iff_ne]
  omega

theorem isFinite_of_ofParts {negative : Bool} {m : Nat} {q : Int} {x : Double}
    (hm : m < 2 * hiddenBit) (h : ofParts negative m q = some x) : x.isFinite = true := by
  unfold ofParts at h
  split at h
  · rename_i hsmall
    obtain rfl := Option.some.inj h
    exact isFinite_ofFields negative (by decide) hsmall
  · dsimp only at h
    split at h
    · rename_i hexponent
      obtain rfl := Option.some.inj h
      exact isFinite_ofFields negative hexponent (by omega)
    · cases h

/-- What a ratio is rounded to is finite. -/
theorem isFinite_of_ofRatio {negative : Bool} {num den : Nat} (hden : den ≠ 0) {x : Double}
    (h : ofRatio negative num den = some x) : x.isFinite = true := by
  by_cases hnum : num = 0
  · rw [ofRatio, if_pos hnum] at h
    cases h
    exact isFinite_ofFields negative (by decide) (by decide)
  have hle := roundedAt_le hnum hden rfl
  have hbit : hiddenBit < 2 * hiddenBit := by decide
  rw [ofRatio, if_neg hnum] at h
  change (if roundedAt num den _ = 2 * hiddenBit then _ else _) = _ at h
  split at h
  · exact isFinite_of_ofParts hbit h
  · rename_i hne
    exact isFinite_of_ofParts (Nat.lt_of_le_of_ne hle hne) h

/-- The double is a number above zero, which may be infinite. -/
inductive Positive (x : Double) : Prop where
  | infinite (hinfinite : x.isInfinite = true) (hsign : x.negative = false)
  | finite (hfinite : x.isFinite = true) (hpos : 0 < x.exact.1)

theorem ratio_pos_iff (x : Double) : 0 < x.ratio.1 ↔ x.isZero = false := by
  have hratio : 0 < x.ratio.1 ↔ 0 < x.significand := by
    unfold ratio
    split
    · rw [Nat.shiftLeft_eq]
      exact Nat.mul_pos_iff_of_pos_right (Nat.two_pow_pos _)
    · exact Iff.rfl
  have hbit : 0 < hiddenBit := by decide
  rw [hratio, significand, isZero]
  split
  · rename_i hzero
    simp [hzero, Nat.pos_iff_ne_zero]
  · rename_i hnonzero
    simp [hnonzero, hbit]

/-- A double is above zero when it is a number and not at most zero. -/
theorem positive_iff (x : Double) : x.Positive ↔ x.isNaN = false ∧ x.nonpositive = false := by
  have hpos : 0 < x.exact.1 ↔ x.negative = false ∧ x.isZero = false := by
    rw [← ratio_pos_iff, exact]
    cases x.negative with
    | false => simp
    | true => simp
  have hfinite : x.isFinite = true ↔ x.exponentField ≠ 2047 := bne_iff_ne
  have hnan : x.isNaN = false ↔ (x.exponentField = 2047 → x.fractionField = 0) := by
    simp [isNaN]
  have hinfinite : x.isInfinite = true ↔ x.exponentField = 2047 ∧ x.fractionField = 0 := by
    simp [isInfinite]
  have hzero : x.isZero = true → x.exponentField = 0 := by
    simp +contextual [isZero]
  constructor
  · rintro (⟨h, hsign⟩ | ⟨h, hexact⟩)
    · obtain ⟨he, hf⟩ := hinfinite.1 h
      have hnonzero : x.isZero = false := Bool.eq_false_iff.2 fun h0 => by
        rw [hzero h0] at he
        cases he
      exact ⟨hnan.2 fun _ => hf, by simp [nonpositive, hsign, hnonzero]⟩
    · obtain ⟨hsign, hnonzero⟩ := hpos.1 hexact
      exact ⟨hnan.2 fun he => absurd he (hfinite.1 h), by simp [nonpositive, hsign, hnonzero]⟩
  · rintro ⟨h, hnonpositive⟩
    obtain ⟨hsign, hnonzero⟩ : x.negative = false ∧ x.isZero = false := by
      simpa [nonpositive, h] using hnonpositive
    by_cases he : x.exponentField = 2047
    · exact .infinite (hinfinite.2 ⟨he, hnan.1 h he⟩) hsign
    · exact .finite (hfinite.2 he) (hpos.2 ⟨hsign, hnonzero⟩)

/-- A finite double is a number. -/
theorem isNaN_of_isFinite {x : Double} (h : x.isFinite = true) : x.isNaN = false := by
  simp only [isFinite, isNaN, bne_iff_ne] at h ⊢
  simp [h]

end Double

end QueryDriver
