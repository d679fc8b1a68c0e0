import CloudPlatform.Core.RelativeErrors

/-!
# Sums that lose nothing

A context keeps a number whole if its significant digits fit the precision and its exponent the range,
however its coefficient and its exponent are chosen: `fix_of_fits`. So `add` is exact where the exact sum
fits. The last section bounds the digits of a number by its size, for the operations that must not fail.
-/

namespace CloudPlatform.Decimals

/-- The significant digits and the exponent of a number fit the context. -/
def Fits (context : Context) (x : ℚ) : Prop :=
  ∃ (n : ℕ) (exponent : ℤ), x = n * 10 ^ exponent ∧ numDigits n ≤ context.precision ∧
    context.etiny ≤ exponent ∧ numDigits n + exponent ≤ context.emax

section

variable {context : Context} {value : Decimal}

theorem toRat_of_nonneg (h : value.negative = false) :
    value.toRat = value.coefficient * 10 ^ value.exponent := by
  rw [Decimal.toRat, Decimal.signed, if_neg (by simp [h]), Int.cast_natCast]

/-- One number with two exponents: the coefficient at the lower one has the zeros. -/
theorem eq_mul_pow_of_eq {m n : ℕ} {low high : ℤ} (hle : low ≤ high)
    (h : (m : ℚ) * 10 ^ low = n * 10 ^ high) : m = n * 10 ^ (high - low).toNat := by
  have hten : (10 : ℚ) ≠ 0 := by norm_num
  have hpow : (10 : ℚ) ^ high = 10 ^ (high - low).toNat * 10 ^ low := by
    rw [← zpow_natCast, ← zpow_add₀ hten, Int.toNat_of_nonneg (by omega), Int.sub_add_cancel]
  rw [hpow, ← mul_assoc] at h
  have hcast := mul_right_cancel₀ (zpow_ne_zero low hten) h
  exact_mod_cast hcast

/-- A number that fits, as a coefficient with its zeros. -/
theorem coefficient_of_fits (hneg : value.negative = false) (hzero : value.coefficient ≠ 0)
    (h : Fits context value.toRat) :
    ∃ n k : ℕ, value.coefficient = n * 10 ^ k ∧ numDigits n ≤ context.precision ∧
      n ≤ value.coefficient ∧ context.etiny ≤ value.exponent + k ∧
        numDigits value.coefficient + value.exponent ≤ context.emax := by
  obtain ⟨n, exponent, hvalue, hdigits, htiny, hmax⟩ := h
  rw [toRat_of_nonneg hneg] at hvalue
  rcases le_total exponent value.exponent with hle | hle
  · have hn := eq_mul_pow_of_eq hle hvalue.symm
    have hlength := numDigits_mul_pow hzero (value.exponent - exponent).toNat
    rw [← hn] at hlength
    exact ⟨value.coefficient, 0, by rw [pow_zero, mul_one], by omega, le_rfl, by omega, by omega⟩
  · have hcoefficient := eq_mul_pow_of_eq hle hvalue
    have hn : n ≠ 0 := by
      rintro rfl
      exact hzero (by rw [hcoefficient, zero_mul])
    have hlength := numDigits_mul_pow hn (exponent - value.exponent).toNat
    rw [← hcoefficient] at hlength
    refine ⟨n, _, hcoefficient, hdigits, ?_, by omega, by omega⟩
    rw [hcoefficient]
    exact Nat.le_mul_of_pos_right n (by positivity)

theorem toRat_of_coefficient_eq_zero (h : value.coefficient = 0) : value.toRat = 0 := by
  simp [Decimal.toRat, Decimal.signed, h]

/-- A context keeps a number that fits. -/
theorem fix_of_fits (hrange : context.emin < context.emax) (hneg : value.negative = false)
    (h : Fits context value.toRat) :
    ∃ fixed, context.fix value = .ok fixed ∧ fixed.toRat = value.toRat ∧
      fixed.negative = false := by
  by_cases hzero : value.coefficient = 0
  · have hfix : context.fix value = .ok
        { value with exponent := min (max value.exponent context.etiny) context.emax } := if_pos hzero
    refine ⟨_, hfix, ?_, hneg⟩
    rw [toRat_of_coefficient_eq_zero hzero]
    exact toRat_of_coefficient_eq_zero hzero
  · obtain ⟨n, k, hcoefficient, hdigits, -, htiny, hmax⟩ := coefficient_of_fits hneg hzero h
    obtain ⟨fixed, hfixed⟩ := fix_isOk hrange hmax
    obtain ⟨hrat, hsign⟩ := toRat_of_fix hfixed hcoefficient hdigits htiny
    exact ⟨fixed, hfixed, hrat, hsign.trans hneg⟩

theorem toRat_nonneg_of_negativeValue (h : value.negativeValue = false) : 0 ≤ value.toRat := by
  by_cases hzero : value.coefficient = 0
  · exact (toRat_of_coefficient_eq_zero hzero).ge
  · refine Decimal.toRat_nonneg ?_
    simpa [Decimal.negativeValue, hzero] using h

/-- A sum that fits is exact. -/
theorem add_of_fits {other : Decimal} (hrange : context.emin < context.emax)
    (hneg : value.negative = false) (hother : other.negativeValue = false)
    (h : Fits context (value.toRat + other.toRat)) :
    ∃ sum, context.add value other = .ok sum ∧ sum.toRat = value.toRat + other.toRat ∧
      sum.negative = false := by
  have hsum : (value.addExact other).negative = false := by
    have hnonneg : 0 ≤ (value.addExact other).toRat := by
      rw [Decimal.toRat_addExact]
      exact add_nonneg (Decimal.toRat_nonneg hneg) (toRat_nonneg_of_negativeValue hother)
    by_contra hnegative
    rw [Bool.not_eq_false] at hnegative
    rw [Decimal.toRat, Decimal.signed, if_pos hnegative] at hnonneg
    have hzero : (value.addExact other).coefficient = 0 := by
      by_contra hpositive
      have hpow : (0 : ℚ) < 10 ^ (value.addExact other).exponent := by positivity
      have hcoefficient : (0 : ℚ) < (value.addExact other).coefficient := by
        exact_mod_cast Nat.pos_of_ne_zero hpositive
      push_cast at hnonneg
      nlinarith
    have hscaled := Int.natAbs_eq_zero.mp hzero
    simp only [Decimal.addExact] at hnegative
    rw [if_pos hscaled, hneg] at hnegative
    cases hnegative
  rw [← Decimal.toRat_addExact] at h ⊢
  exact fix_of_fits hrange hsum h

/-- The digits of a power of ten more are only zeros. -/
theorem multiply_pow_of_fits {product : Decimal} {k : ℕ} (hneg : value.negativeValue = false)
    (h : context.multiply value (.ofNat (10 ^ k)) = .ok product)
    (hfits : Fits context value.toRat) : product.toRat = value.toRat * 10 ^ k := by
  have hexact : (value.mulExact (.ofNat (10 ^ k))).coefficient = value.coefficient * 10 ^ k := rfl
  have hexponent : (value.mulExact (.ofNat (10 ^ k))).exponent = value.exponent := add_zero _
  have hrat : (value.mulExact (.ofNat (10 ^ k))).toRat = value.toRat * 10 ^ k := by
    rw [Decimal.toRat_mulExact, Decimal.toRat_ofNat]
    push_cast
    rfl
  rw [← hrat]
  by_cases hzero : value.coefficient = 0
  · refine (toRat_of_fix h (n := 0) (k := (context.etiny - value.exponent).toNat) ?_ ?_ ?_).1
    · rw [hexact, hzero]
      simp
    · obtain ⟨n, exponent, -, hdigits, -⟩ := hfits
      exact (numDigits_mono (Nat.zero_le n)).trans hdigits
    · rw [hexponent]
      omega
  · have hsign : value.negative = false := by
      simpa [Decimal.negativeValue, hzero] using hneg
    obtain ⟨n, zeros, hcoefficient, hdigits, -, htiny, -⟩ := coefficient_of_fits hsign hzero hfits
    refine (toRat_of_fix h (n := n) (k := zeros + k) ?_ hdigits ?_).1
    · rw [hexact, hcoefficient, mul_assoc, ← pow_add]
    · rw [hexponent]
      omega

end

/-! ### Sizes -/

section

variable {context : Context} {value : Decimal}

/-- A number below a power of ten has its digits below that place. -/
theorem numDigits_add_exponent_le {k : ℤ} (hneg : value.negative = false)
    (hzero : value.coefficient ≠ 0) (h : value.toRat < 10 ^ k) :
    numDigits value.coefficient + value.exponent ≤ k := by
  have hten : (1 : ℚ) < 10 := by norm_num
  have hpos := numDigits_pos value.coefficient
  have hlow : (10 : ℚ) ^ (numDigits value.coefficient - 1 : ℤ) ≤ value.coefficient := by
    have hpow := pow_le_of_numDigits hzero (k := numDigits value.coefficient - 1) (by omega)
    have hcast : (10 : ℚ) ^ (numDigits value.coefficient - 1) ≤ value.coefficient := by
      exact_mod_cast hpow
    rwa [← zpow_natCast, Nat.cast_sub hpos, Nat.cast_one] at hcast
  rw [toRat_of_nonneg hneg] at h
  have hbelow : (10 : ℚ) ^ ((numDigits value.coefficient - 1 : ℤ) + value.exponent) < 10 ^ k := by
    rw [zpow_add₀ (by norm_num)]
    exact (mul_le_mul_of_nonneg_right hlow (by positivity)).trans_lt h
  have hlt := (zpow_lt_zpow_iff_right₀ hten).mp hbelow
  omega

/-- A number that is small enough is rounded up to a unit. -/
theorem quantize_ceiling_isOk {exponent : ℤ} {digits : ℕ} (hneg : value.negative = false)
    (hrange : context.emin < context.emax) (hlow : context.etiny ≤ exponent)
    (hhigh : exponent + digits + 1 ≤ context.emax) (hdigits : digits < context.precision)
    (h : value.toRat < 10 ^ (exponent + digits)) :
    ∃ quantized, context.quantize value exponent .ceiling = .ok quantized := by
  unfold Context.quantize
  rw [if_neg (by omega)]
  by_cases hzero : value.coefficient = 0
  · rw [if_pos hzero]
    refine fix_isOk hrange ?_
    change (numDigits 0 : ℤ) + exponent ≤ context.emax
    have hone : numDigits 0 = 1 := rfl
    omega
  · have hsize := numDigits_add_exponent_le hneg hzero h
    rw [if_neg hzero]
    dsimp only
    rw [if_neg (by omega)]
    have hrounded : ((Context.rescale value exponent .ceiling).coefficient : ℤ) =
        ⌈value.toRat / 10 ^ exponent⌉ :=
      @rescale_round value .ceiling (fun x ↦ ⌈x⌉) (fun n d hd ↦ Rounding.divide_ceiling n hd) hneg
        exponent
    have hcoefficient : (Context.rescale value exponent .ceiling).coefficient ≤ 10 ^ digits := by
      have hle : ⌈value.toRat / 10 ^ exponent⌉ ≤ ((10 ^ digits : ℕ) : ℤ) := by
        rw [Int.ceil_le, div_le_iff₀ (by positivity)]
        push_cast
        rw [← zpow_natCast, ← zpow_add₀ (by norm_num), add_comm]
        exact h.le
      rw [← hrounded] at hle
      exact_mod_cast hle
    have hfew : numDigits (Context.rescale value exponent .ceiling).coefficient ≤ digits + 1 :=
      numDigits_le (Nat.succ_pos _)
        (hcoefficient.trans_lt (Nat.pow_lt_pow_right (by decide) (Nat.lt_succ_self _)))
    rw [if_neg (by omega)]
    refine fix_isOk hrange ?_
    change (numDigits (Context.rescale value exponent .ceiling).coefficient : ℤ) + exponent ≤ _
    omega

end

end CloudPlatform.Decimals
