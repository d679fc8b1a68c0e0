import CloudPlatform.Core.Decimals
import Mathlib.Data.Nat.Cast.Field

/-!
# Relative errors

`Within u x y` says that `y` is `x` up to a relative error of `u`. Every operation of a decimal
context is within one unit of its precision of the exact result, as long as the result is not
subnormal; errors of operations that follow each other multiply. The last section says when an operation
has a result: a context rounds every number with room below its greatest exponent, and `quantize` has one
way to fail, a result that does not fit the precision.
-/

namespace CloudPlatform.Decimals

/-! ### Numbers up to a relative error -/

/-- The second number is the first one, up to a relative error. -/
def Within (u x y : ℚ) : Prop :=
  ∃ error, |error| ≤ u ∧ y = x * (1 + error)

namespace Within

variable {u v x y z : ℚ}

theorem refl (hu : 0 ≤ u) (x : ℚ) : Within u x x :=
  ⟨0, by rwa [abs_zero], by rw [add_zero, mul_one]⟩

end Within

/-! ### Results of a context -/

/-- The unit in the last place of a number between one and ten. -/
def Context.unit (context : Context) : ℚ :=
  10 ^ (1 - (context.precision : ℤ))

theorem Context.unit_pos (context : Context) : 0 < context.unit :=
  zpow_pos (by norm_num) _

/-- A sign as a factor. -/
def Decimal.sign (value : Decimal) : ℚ :=
  if value.negative then -1 else 1

theorem Decimal.toRat_eq (value : Decimal) :
    value.toRat = value.sign * value.coefficient * 10 ^ value.exponent := by
  unfold Decimal.toRat Decimal.signed Decimal.sign
  cases value.negative <;> simp

theorem pow_le_of_numDigits {n k : ℕ} (hn : n ≠ 0) (h : k < numDigits n) : 10 ^ k ≤ n :=
  (Nat.pow_le_pow_right (by decide) (Nat.lt_succ_iff.mp h)).trans (Nat.pow_log_le_self 10 hn)

/-- Half even is never off by more than half. -/
theorem Rounding.divide_halfEven_near (negative : Bool) (n : ℕ) {d : ℕ} (hd : 0 < d) :
    |(Rounding.halfEven.divide negative n d : ℚ) * d - n| ≤ d / 2 := by
  have hlt : n % d < d := Nat.mod_lt n hd
  have hsplit : (n : ℚ) = d * (n / d : ℕ) + (n % d : ℕ) := by
    exact_mod_cast (Nat.div_add_mod n d).symm
  have hnear : ∀ up : Bool, (up = true → d ≤ 2 * (n % d)) → (up = false → 2 * (n % d) ≤ d) →
      |((n / d + up.toNat : ℕ) : ℚ) * d - n| ≤ d / 2 := by
    intro up hup hdown
    have hlt' : ((n % d : ℕ) : ℚ) < d := by exact_mod_cast hlt
    have hnonneg : (0 : ℚ) ≤ (n % d : ℕ) := Nat.cast_nonneg _
    rw [hsplit, abs_le]
    generalize n / d = quotient
    cases up with
    | true =>
      have hhalf : (d : ℚ) ≤ 2 * (n % d : ℕ) := by exact_mod_cast hup rfl
      rw [Bool.toNat_true]
      push_cast
      constructor <;> linarith
    | false =>
      have hhalf : 2 * ((n % d : ℕ) : ℚ) ≤ d := by exact_mod_cast hdown rfl
      rw [Bool.toNat_false]
      push_cast
      constructor <;> linarith
  refine hnear _ (fun hup ↦ ?_) fun hdown ↦ ?_
  · simp only [Bool.or_eq_true, decide_eq_true_eq, Bool.and_eq_true] at hup
    omega
  · simp only [Bool.or_eq_false_iff, decide_eq_false_iff_not] at hdown
    omega

theorem Rounding.divide_le (rounding : Rounding) (negative : Bool) {n d bound : ℕ}
    (h : n < bound * d) : rounding.divide negative n d ≤ bound :=
  (Nat.add_le_add_left (Bool.toNat_le _) _).trans
    (Nat.div_lt_of_lt_mul (by rwa [mul_comm] at h))

section Fix

variable {context : Context} {value fixed : Decimal}

/-- What a context makes of a number: the digits that it cuts are rounded off, and a carry moves
the point. -/
theorem fix_cases (h : context.fix value = .ok fixed) (hzero : value.coefficient ≠ 0) :
    (fixed = value ∧ context.etiny ≤ value.exponent ∧
      numDigits value.coefficient ≤ context.precision) ∨ ∃ cut rounded : ℕ, value.exponent + cut =
        max (numDigits value.coefficient + value.exponent - context.precision) context.etiny ∧
      rounded = Rounding.halfEven.divide value.negative value.coefficient (10 ^ cut) ∧
      fixed.negative = value.negative ∧
      (numDigits rounded ≤ context.precision ∧ fixed.coefficient = rounded ∧
          fixed.exponent = value.exponent + cut ∨
        context.precision < numDigits rounded ∧ fixed.coefficient = rounded / 10 ∧
          fixed.exponent = value.exponent + cut + 1) := by
  unfold Context.fix at h
  rw [if_neg hzero] at h
  by_cases hlarge : context.etop < numDigits value.coefficient + value.exponent - context.precision
  · rw [if_pos hlarge] at h
    cases h
  · rw [if_neg hlarge] at h
    by_cases hcut : value.exponent < max
        (numDigits value.coefficient + value.exponent - context.precision) context.etiny
    · obtain ⟨cut, hcutEq⟩ : ∃ cut : ℕ, value.exponent + cut = max
          (numDigits value.coefficient + value.exponent - context.precision) context.etiny :=
        ⟨(max (numDigits value.coefficient + value.exponent - context.precision) context.etiny -
          value.exponent).toNat, by omega⟩
      rw [if_pos hcut, ← hcutEq, add_sub_cancel_left, Int.toNat_natCast] at h
      refine .inr ⟨cut, _, hcutEq, rfl, ?_⟩
      by_cases hcarry : context.precision < numDigits
          (Rounding.halfEven.divide value.negative value.coefficient (10 ^ cut))
      · simp only [if_pos hcarry] at h
        split_ifs at h
        rw [← Except.ok.inj h]
        exact ⟨rfl, .inr ⟨hcarry, rfl, rfl⟩⟩
      · simp only [if_neg hcarry] at h
        split_ifs at h
        rw [← Except.ok.inj h]
        exact ⟨rfl, .inl ⟨not_lt.mp hcarry, rfl, rfl⟩⟩
    · rw [if_neg hcut] at h
      exact .inl ⟨(Except.ok.inj h).symm, by omega, by omega⟩

/-- A context keeps a number up to half a unit, unless the result is subnormal. -/
theorem within_fix (h : context.fix value = .ok fixed) (hprecision : 0 < context.precision)
    (hnormal : context.etiny + 1 < fixed.exponent) :
    Within (context.unit / 2) value.toRat fixed.toRat := by
  have hhalf : 0 ≤ context.unit / 2 := by
    have := context.unit_pos
    positivity
  have hten : (10 : ℚ) ≠ 0 := by norm_num
  by_cases hzero : value.coefficient = 0
  · unfold Context.fix at h
    rw [if_pos hzero] at h
    rw [← Except.ok.inj h]
    simpa [Decimal.toRat, Decimal.signed, hzero] using Within.refl hhalf 0
  · obtain ⟨rfl, -⟩ | ⟨cut, rounded, hcut, hrounded, hsign, hcarry⟩ := fix_cases h hzero
    · exact Within.refl hhalf _
    · have hdigits : numDigits value.coefficient = cut + context.precision := by omega
      have hhigh : value.coefficient < 10 ^ context.precision * 10 ^ cut := by
        rw [← pow_add, add_comm, ← hdigits]
        exact lt_pow_numDigits _
      have hlow : (10 : ℚ) ^ (cut + (context.precision - 1)) ≤ value.coefficient := by
        exact_mod_cast pow_le_of_numDigits hzero (by omega)
      have hnear := Rounding.divide_halfEven_near value.negative value.coefficient
        (d := 10 ^ cut) (by positivity)
      have hbound : rounded ≤ 10 ^ context.precision := by
        rw [hrounded]
        exact Rounding.divide_le _ _ hhigh
      rw [← hrounded] at hnear
      have hrat : fixed.toRat = value.sign * rounded * 10 ^ (value.exponent + cut) := by
        have hsigned : fixed.sign = value.sign := by
          unfold Decimal.sign
          rw [hsign]
        rw [Decimal.toRat_eq, hsigned]
        obtain ⟨-, hcoefficient, hexponent⟩ | ⟨hcarry, hcoefficient, hexponent⟩ := hcarry
        · rw [hcoefficient, hexponent]
        · -- A carry leaves a power of ten, which loses only a zero.
          have hpower : rounded = 10 ^ (context.precision - 1) * 10 := by
            rw [← pow_succ, Nat.sub_add_cancel hprecision]
            refine le_antisymm hbound (pow_le_of_numDigits ?_ hcarry)
            rintro rfl
            rw [show numDigits 0 = 1 from rfl] at hcarry
            omega
          rw [hcoefficient, hexponent, zpow_add_one₀ hten, hpower,
            Nat.mul_div_cancel _ (by decide)]
          push_cast
          ring
      have hcoefficient : (0 : ℚ) < value.coefficient := by
        exact_mod_cast Nat.pos_of_ne_zero hzero
      have hunit : context.unit = ((10 : ℚ) ^ (context.precision - 1))⁻¹ := by
        rw [Context.unit, ← zpow_natCast, ← zpow_neg, Nat.cast_sub hprecision]
        congr 1
        push_cast
        ring
      refine ⟨(rounded * 10 ^ cut - value.coefficient) / value.coefficient, ?_, ?_⟩
      · rw [abs_div, abs_of_pos hcoefficient, div_le_iff₀ hcoefficient]
        calc |(rounded : ℚ) * 10 ^ cut - value.coefficient| ≤ 10 ^ cut / 2 := by
              exact_mod_cast hnear
          _ = context.unit / 2 * 10 ^ (cut + (context.precision - 1)) := by
              rw [hunit, pow_add]
              field_simp
          _ ≤ context.unit / 2 * value.coefficient := by gcongr
      · rw [hrat, Decimal.toRat_eq, zpow_add₀ hten, zpow_natCast]
        field_simp
        ring

theorem exponent_le_of_fix (h : context.fix value = .ok fixed) (hzero : value.coefficient ≠ 0) :
    value.exponent ≤ fixed.exponent := by
  obtain ⟨rfl, -⟩ | ⟨cut, rounded, -, -, -, ⟨-, -, hexponent⟩ | ⟨-, -, hexponent⟩⟩ :=
    fix_cases h hzero <;> omega

theorem toRat_of_zero (hzero : value.coefficient = 0) : value.toRat = 0 := by
  simp [Decimal.toRat, Decimal.signed, hzero]

/-- A number whose own exponent is not that small is kept up to half a unit. -/
theorem within_fix_of_exponent (h : context.fix value = .ok fixed)
    (hprecision : 0 < context.precision) (hnormal : context.etiny + 1 < value.exponent) :
    Within (context.unit / 2) value.toRat fixed.toRat := by
  by_cases hzero : value.coefficient = 0
  · have hfixed : fixed.toRat = value.toRat := by
      unfold Context.fix at h
      rw [if_pos hzero] at h
      rw [← Except.ok.inj h, toRat_of_zero hzero]
      exact toRat_of_zero hzero
    rw [hfixed]
    exact .refl (by have := context.unit_pos; positivity) _
  · exact within_fix h hprecision (hnormal.trans_le (exponent_le_of_fix h hzero))

end Fix

/-! ### Results that exist -/

variable {context : Context} {value : Decimal}

/-- A number with room below the greatest exponent is rounded. -/
theorem fix_isOk (hrange : context.emin < context.emax)
    (h : numDigits value.coefficient + value.exponent ≤ context.emax) :
    ∃ fixed, context.fix value = .ok fixed := by
  have htop : context.etiny + 1 ≤ context.etop := by
    simp only [Context.etiny, Context.etop]
    omega
  have hleast : numDigits value.coefficient + value.exponent - context.precision + 1 ≤
      context.etop := by
    simp only [Context.etop]
    omega
  unfold Context.fix
  by_cases hzero : value.coefficient = 0
  · rw [if_pos hzero]
    exact ⟨_, rfl⟩
  · rw [if_neg hzero]
    dsimp only
    rw [if_neg (by omega)]
    have hexponent : ∀ carry : Prop, [Decidable carry] → ¬ context.etop < if carry then
        max (numDigits value.coefficient + value.exponent - context.precision) context.etiny + 1
        else max (numDigits value.coefficient + value.exponent - context.precision)
          context.etiny := by
      intro carry _
      split_ifs <;> omega
    by_cases hcut : value.exponent <
        max (numDigits value.coefficient + value.exponent - context.precision) context.etiny
    · rw [if_pos hcut, if_neg (hexponent _)]
      exact ⟨_, rfl⟩
    · rw [if_neg hcut]
      exact ⟨_, rfl⟩

theorem multiply_isOk {other : Decimal} (hrange : context.emin < context.emax)
    (h : numDigits value.coefficient + numDigits other.coefficient +
      (value.exponent + other.exponent) ≤ context.emax) :
    ∃ product, context.multiply value other = .ok product := by
  refine fix_isOk hrange ?_
  have hdigits := numDigits_mul_le value.coefficient other.coefficient
  change (numDigits (value.coefficient * other.coefficient) : ℤ) +
    (value.exponent + other.exponent) ≤ context.emax
  omega

/-- What cannot be quantized is an invalid operation. -/
theorem quantize_error {exponent : ℤ} {rounding : Rounding} {signal : Signal}
    (h : context.quantize value exponent rounding = .error signal) : signal = .invalidOperation := by
  unfold Context.quantize at h
  by_cases hexponent : exponent < context.etiny ∨ context.emax < exponent
  · rw [if_pos hexponent] at h
    exact (Except.error.inj h).symm
  · rw [if_neg hexponent] at h
    by_cases hzero : value.coefficient = 0
    · rw [if_pos hzero] at h
      unfold Context.fix at h
      rw [if_pos rfl] at h
      cases h
    · rw [if_neg hzero] at h
      dsimp only at h
      split at h
      · exact (Except.error.inj h).symm
      · split at h
        · exact (Except.error.inj h).symm
        · -- What is left fits, so that nothing is cut and nothing overflows.
          rename_i hfits
          push Not at hexponent hfits
          have hunit : (Context.rescale value exponent rounding).exponent = exponent := rfl
          have htiny := hexponent.1
          simp only [Context.etiny] at htiny
          unfold Context.fix at h
          split at h
          · cases h
          · dsimp only at h
            rw [hunit, if_neg (by simp only [Context.etop]; omega),
              if_neg (by simp only [Context.etiny]; omega)] at h
            cases h

/-- Rounding keeps the sign. -/
theorem negative_of_fix {fixed : Decimal} (h : context.fix value = .ok fixed) :
    fixed.negative = value.negative := by
  by_cases hzero : value.coefficient = 0
  · unfold Context.fix at h
    rw [if_pos hzero] at h
    rw [← Except.ok.inj h]
  · obtain ⟨rfl, -⟩ | ⟨cut, rounded, -, -, hsign, -⟩ := fix_cases h hzero
    · rfl
    · exact hsign

/-- A result has hardly more digits than the precision. -/
theorem numDigits_of_fix_le {fixed : Decimal} (h : context.fix value = .ok fixed) :
    numDigits fixed.coefficient ≤ context.precision + 1 := by
  by_cases hzero : value.coefficient = 0
  · unfold Context.fix at h
    rw [if_pos hzero] at h
    rw [← Except.ok.inj h]
    change numDigits value.coefficient ≤ _
    rw [hzero]
    exact Nat.le_add_left 1 _
  · obtain ⟨rfl, -, hdigits⟩ | ⟨cut, rounded, hcut, hrounded, -, hfixed⟩ := fix_cases h hzero
    · exact hdigits.trans (Nat.le_succ _)
    · have hhigh : value.coefficient < 10 ^ (context.precision) * 10 ^ cut := by
        refine (lt_pow_numDigits _).trans_le ?_
        rw [← pow_add]
        exact Nat.pow_le_pow_right (by decide) (by omega)
      have hbound : rounded ≤ 10 ^ context.precision := by
        rw [hrounded]
        exact Rounding.divide_le _ _ hhigh
      have hcoefficient : fixed.coefficient ≤ rounded := by
        obtain ⟨-, hcoefficient, -⟩ | ⟨-, hcoefficient, -⟩ := hfixed
        · exact hcoefficient.le
        · exact hcoefficient.trans_le (Nat.div_le_self _ _)
      refine numDigits_le (Nat.succ_pos _) ((hcoefficient.trans hbound).trans_lt ?_)
      exact Nat.pow_lt_pow_right (by decide) (Nat.lt_succ_self _)

end CloudPlatform.Decimals
