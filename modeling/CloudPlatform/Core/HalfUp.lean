import CloudPlatform.Core.RelativeErrors

/-!
# Rounding half up on both sides of zero

Rounding to the nearest whole number, with halves away from zero, as `ROUND_HALF_UP` does it. Neither
this rounding nor that of a context looks at the sign, so what is known of positive numbers holds of
negative ones too (`fix_withSign`, `quantize_withSign`). `toInt_quantize_halfUp` is the integer that
rounding to units comes to.
-/

namespace CloudPlatform.Decimals

/-- The nearest whole number; halves go away from zero. -/
def halfUp (x : ℚ) : ℤ :=
  if 0 ≤ x then ⌊x + 1 / 2⌋ else -⌊-x + 1 / 2⌋

theorem halfUp_of_nonneg {x : ℚ} (h : 0 ≤ x) : halfUp x = ⌊x + 1 / 2⌋ :=
  if_pos h

theorem halfUp_neg (x : ℚ) : halfUp (-x) = -halfUp x := by
  unfold halfUp
  rcases lt_trichotomy x 0 with hneg | rfl | hpos
  · rw [if_pos (by linarith), if_neg (by linarith), neg_neg]
  · norm_num
  · rw [if_neg (by linarith), if_pos hpos.le, neg_neg]

/-- What is rounded is less than half a unit away. -/
theorem abs_halfUp_sub_le (x : ℚ) : |(halfUp x : ℚ) - x| ≤ 1 / 2 := by
  have hnonneg : ∀ y : ℚ, 0 ≤ y → |(halfUp y : ℚ) - y| ≤ 1 / 2 := by
    intro y hy
    have hfloor := Int.floor_le (y + 1 / 2)
    have hnext := Int.lt_floor_add_one (y + 1 / 2)
    rw [halfUp_of_nonneg hy, abs_le]
    constructor <;> linarith
  by_cases hx : 0 ≤ x
  · exact hnonneg x hx
  · have hflip := hnonneg (-x) (by linarith)
    rw [halfUp_neg, Int.cast_neg, ← abs_neg] at hflip
    rwa [show -(-(halfUp x : ℚ) - -x) = (halfUp x : ℚ) - x by ring] at hflip

/-- Exactly what is less than a half is rounded to nothing. -/
theorem halfUp_eq_zero_iff {x : ℚ} : halfUp x = 0 ↔ |x| < 1 / 2 := by
  have hnonneg : ∀ y : ℚ, 0 ≤ y → (halfUp y = 0 ↔ |y| < 1 / 2) := by
    intro y hy
    rw [halfUp_of_nonneg hy, Int.floor_eq_zero_iff, Set.mem_Ico, abs_of_nonneg hy]
    constructor
    · rintro ⟨-, h⟩
      linarith
    · intro h
      constructor <;> linarith
  by_cases hx : 0 ≤ x
  · exact hnonneg x hx
  · have hflip := hnonneg (-x) (by linarith)
    rwa [halfUp_neg, neg_eq_zero, abs_neg] at hflip

/-! ### Signs -/

/-- The number with another sign. -/
def Decimal.withSign (value : Decimal) (negative : Bool) : Decimal :=
  { value with negative := negative }

theorem Decimal.toRat_withSign (value : Decimal) :
    value.toRat = if value.negative then -(value.withSign false).toRat
      else (value.withSign false).toRat := by
  unfold Decimal.toRat Decimal.signed Decimal.withSign
  cases value.negative <;> simp

theorem Decimal.toInt_withSign (value : Decimal) (h : value.negative = false) (negative : Bool) :
    (value.withSign negative).toInt = if negative then -value.toInt else value.toInt := by
  unfold Decimal.toInt Decimal.withSign
  rw [h]
  cases negative <;> simp

variable {context : Context}

/-- A context rounds a number and its negation alike. -/
theorem fix_withSign (value : Decimal) (negative : Bool) :
    context.fix (value.withSign negative) = (context.fix value).map (·.withSign negative) := by
  have hround : ∀ n d : ℕ, Rounding.halfEven.divide negative n d =
      Rounding.halfEven.divide value.negative n d := fun _ _ ↦ rfl
  unfold Context.fix
  rw [apply_ite (Except.map _)]
  change (if value.coefficient = 0 then _ else _) = _
  congr 1
  dsimp only [Decimal.withSign]
  rw [hround, apply_ite (Except.map _)]
  congr 1
  rw [apply_ite (Except.map _), apply_ite (Except.map _)]
  rfl

theorem quantize_withSign (value : Decimal) (exponent : ℤ) (negative : Bool) :
    context.quantize (value.withSign negative) exponent .halfUp =
      (context.quantize value exponent .halfUp).map (·.withSign negative) := by
  have hrescale : Context.rescale (value.withSign negative) exponent .halfUp =
      (Context.rescale value exponent .halfUp).withSign negative := rfl
  unfold Context.quantize
  rw [hrescale, apply_ite (Except.map _), apply_ite (Except.map _)]
  congr 1
  change (if value.coefficient = 0 then _ else _) = _
  congr 1
  dsimp only
  rw [fix_withSign, apply_ite (Except.map _), apply_ite (Except.map _)]
  rfl

/-! ### Rounding to units -/

/-- A number rounded to units, as an integer. -/
theorem toInt_quantize_halfUp {value quantized : Decimal}
    (h : context.quantize value 0 .halfUp = .ok quantized) (hprecision : 0 < context.precision) :
    quantized.toInt = halfUp value.toRat := by
  have hround : ∀ n d : ℕ, 0 < d → (Rounding.halfUp.divide false n d : ℤ) =
      (fun x : ℚ ↦ ⌊x + 1 / 2⌋) ((n : ℚ) / d) := fun n _ hd ↦ Rounding.divide_halfUp n hd
  have hsplit : context.quantize value 0 .halfUp =
      (context.quantize (value.withSign false) 0 .halfUp).map (·.withSign value.negative) :=
    quantize_withSign (value.withSign false) 0 value.negative
  rw [h] at hsplit
  rcases hmagnitude : context.quantize (value.withSign false) 0 .halfUp with signal | magnitude
  · rw [hmagnitude] at hsplit
    cases hsplit
  · rw [hmagnitude] at hsplit
    obtain rfl : quantized = magnitude.withSign value.negative := Except.ok.inj hsplit
    obtain ⟨⟨hunit, -⟩, hsign, -, hrounded⟩ :=
      @quantize_round _ _ _ _ (fun x ↦ ⌊x + 1 / 2⌋) hround _ hmagnitude hprecision rfl
    have hnonneg : 0 ≤ (value.withSign false).toRat := Decimal.toRat_nonneg rfl
    have hint : magnitude.toInt = halfUp (value.withSign false).toRat := by
      apply toInt_of_toRat
      rw [Decimal.toRat, Decimal.signed, if_neg (by simp [hsign]), hunit, zpow_zero, mul_one,
        hrounded, zpow_zero, div_one, halfUp_of_nonneg hnonneg]
    rw [Decimal.toInt_withSign _ hsign, hint, value.toRat_withSign]
    cases value.negative
    · rfl
    · simp only [if_true, halfUp_neg]

/-! ### A hundred times as much -/

/-- The exponent of what a context makes of a number of at least a half. -/
theorem le_exponent_of_fix {value fixed : Decimal} (h : context.fix value = .ok fixed)
    (hlarge : 1 / 2 ≤ |value.toRat|) : -(context.precision : ℤ) ≤ fixed.exponent := by
  have hzero : value.coefficient ≠ 0 := by
    intro hzero
    rw [toRat_of_zero hzero, abs_zero] at hlarge
    norm_num at hlarge
  have habs : |value.toRat| = value.coefficient * 10 ^ value.exponent := by
    have hpower : (0 : ℚ) < 10 ^ value.exponent := zpow_pos (by norm_num) _
    rw [Decimal.toRat, Decimal.signed, abs_mul, abs_of_pos hpower]
    cases value.negative <;> simp
  have hdigits : 0 ≤ (numDigits value.coefficient : ℤ) + value.exponent := by
    by_contra hneg
    have hbound : (value.coefficient : ℚ) < 10 ^ (numDigits value.coefficient : ℤ) := by
      exact_mod_cast lt_pow_numDigits value.coefficient
    have hsmall : |value.toRat| < 10 ^ (-1 : ℤ) := by
      calc |value.toRat| = value.coefficient * 10 ^ value.exponent := habs
        _ < 10 ^ (numDigits value.coefficient : ℤ) * 10 ^ value.exponent :=
            mul_lt_mul_of_pos_right hbound (zpow_pos (by norm_num) _)
        _ = 10 ^ ((numDigits value.coefficient : ℤ) + value.exponent) :=
            (zpow_add₀ (by norm_num) _ _).symm
        _ ≤ 10 ^ (-1 : ℤ) := zpow_le_zpow_right₀ (by norm_num) (by omega)
    norm_num at hsmall
    linarith
  obtain ⟨rfl, -, hfits⟩ | ⟨cut, rounded, hcut, -, -, ⟨-, -, hexponent⟩ | ⟨-, -, hexponent⟩⟩ :=
    fix_cases h hzero <;> omega

/-- What rounds to the same number of units after a multiplication by a hundred, rounds to none. -/
theorem halfUp_hundredfold_iff {value scaled : Decimal}
    (h : context.multiply value (.ofNat 100) = .ok scaled) (hprecision : 2 < context.precision)
    (hrange : context.etiny + 1 < -(context.precision : ℤ)) :
    halfUp scaled.toRat = halfUp value.toRat ↔ halfUp scaled.toRat = 0 := by
  have hproduct : (value.mulExact (.ofNat 100)).toRat = value.toRat * 100 := by
    rw [Decimal.toRat_mulExact, Decimal.toRat_ofNat]
    norm_num
  -- What is at least a half is not lost by the multiplication.
  have hgrows : 1 / 2 ≤ |value.toRat| → 2 * |value.toRat| ≤ |scaled.toRat| ∧
      |value.toRat| * 4 + 1 < |scaled.toRat| := by
    intro hhalf
    have hlarge : 1 / 2 ≤ |(value.mulExact (.ofNat 100)).toRat| := by
      rw [hproduct, abs_mul, show |(100 : ℚ)| = 100 by norm_num]
      linarith
    have hnormal := hrange.trans_le (le_exponent_of_fix h hlarge)
    obtain ⟨error, herror, hscaled⟩ := within_fix h (by omega) hnormal
    have hunit : context.unit ≤ 1 := by
      rw [Context.unit]
      exact zpow_le_one_of_nonpos₀ (by norm_num) (by omega)
    obtain ⟨hlow, -⟩ := abs_le.mp herror
    have hfactor : (1 : ℚ) / 2 ≤ |1 + error| := by
      rw [abs_of_nonneg (by linarith)]
      linarith
    have hbig : 50 * |value.toRat| ≤ |scaled.toRat| := by
      rw [hscaled, hproduct, abs_mul, abs_mul, show |(100 : ℚ)| = 100 by norm_num]
      nlinarith [abs_nonneg value.toRat]
    constructor <;> linarith
  constructor
  · intro hsame
    by_contra hne
    have hhalf : 1 / 2 ≤ |value.toRat| := by
      rw [hsame, halfUp_eq_zero_iff, not_lt] at hne
      exact hne
    have hvalue := abs_halfUp_sub_le value.toRat
    have hscaled := abs_halfUp_sub_le scaled.toRat
    rw [hsame] at hscaled
    have hdistance : |scaled.toRat| ≤ |value.toRat| + 1 := by
      calc |scaled.toRat|
          = |value.toRat + ((halfUp value.toRat : ℚ) - value.toRat) -
              ((halfUp value.toRat : ℚ) - scaled.toRat)| := by congr 1; ring
        _ ≤ |value.toRat| + |(halfUp value.toRat : ℚ) - value.toRat| +
              |(halfUp value.toRat : ℚ) - scaled.toRat| :=
            (abs_sub _ _).trans (by gcongr; exact abs_add_le _ _)
        _ ≤ |value.toRat| + 1 := by linarith
    linarith [(hgrows hhalf).2]
  · intro hnone
    rw [hnone, eq_comm, halfUp_eq_zero_iff]
    by_contra hhalf
    rw [not_lt] at hhalf
    have hsmall := halfUp_eq_zero_iff.mp hnone
    linarith [(hgrows hhalf).1]

end CloudPlatform.Decimals
