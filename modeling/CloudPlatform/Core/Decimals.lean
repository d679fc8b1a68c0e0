import Mathlib.Algebra.Order.Field.Power
import Mathlib.Algebra.Order.Floor.Ring
import Mathlib.Data.Nat.Log
import Mathlib.Data.Rat.Floor
import Mathlib.Tactic.FieldSimp
import Mathlib.Tactic.Linarith
import Mathlib.Tactic.Positivity
import Mathlib.Tactic.Ring

/-!
# Decimal arithmetic

The finite numbers of the General Decimal Arithmetic, as Python's `decimal` computes with them: a
sign, a coefficient and an exponent of ten. A context rounds every result half to even to its
precision, keeps small results at its least exponent and signals large ones. `toRat` is the number
that a decimal stands for. `eq_of_fix` and `toRat_of_fix` say when a context does not round,
`divide_pow` what a quotient by a power of ten is, and `quantize_round` what rounding to a unit
comes to.
-/

namespace CloudPlatform.Decimals

/-! ### Digits -/

/-- How many digits a number has; zero has one. -/
def numDigits (n : ℕ) : ℕ :=
  Nat.log 10 n + 1

theorem numDigits_pos (n : ℕ) : 0 < numDigits n :=
  Nat.succ_pos _

theorem lt_pow_numDigits (n : ℕ) : n < 10 ^ numDigits n :=
  Nat.lt_pow_succ_log_self (by decide) n

theorem numDigits_le {n k : ℕ} (hk : 0 < k) (h : n < 10 ^ k) : numDigits n ≤ k := by
  by_cases hn : n = 0
  · subst hn
    exact hk
  · exact (Nat.log_lt_iff_lt_pow (by decide) hn).mpr h

theorem numDigits_mono {m n : ℕ} (h : m ≤ n) : numDigits m ≤ numDigits n :=
  Nat.succ_le_succ (Nat.log_mono_right h)

theorem numDigits_mul_le (m n : ℕ) : numDigits (m * n) ≤ numDigits m + numDigits n := by
  refine numDigits_le (Nat.add_pos_left (numDigits_pos m) _) ?_
  rw [pow_add]
  exact Nat.mul_lt_mul'' (lt_pow_numDigits m) (lt_pow_numDigits n)

theorem numDigits_mul_pow {n : ℕ} (hn : n ≠ 0) (k : ℕ) :
    numDigits (n * 10 ^ k) = numDigits n + k := by
  induction k with
  | zero => simp
  | succ k ih =>
    rw [pow_succ, ← mul_assoc, numDigits, Nat.log_mul_base (by decide) (by positivity)]
    rw [numDigits] at ih
    omega

/-! ### Numbers -/

/-- A finite decimal number. -/
structure Decimal where
  negative : Bool := false
  coefficient : ℕ
  exponent : ℤ := 0
  deriving DecidableEq

namespace Decimal

/-- The signed coefficient. -/
def signed (value : Decimal) : ℤ :=
  if value.negative then -value.coefficient else value.coefficient

/-- The number that a decimal stands for. -/
def toRat (value : Decimal) : ℚ :=
  value.signed * 10 ^ value.exponent

/-- `Decimal(n)` of a natural number. -/
def ofNat (n : ℕ) : Decimal where
  coefficient := n

/-- `value > 0`. -/
def positive (value : Decimal) : Bool :=
  !value.negative && value.coefficient ≠ 0

/-- `value < 0`. -/
def negativeValue (value : Decimal) : Bool :=
  value.negative && value.coefficient ≠ 0

/-- The signed coefficient at an exponent not above its own. -/
def scaled (value : Decimal) (exponent : ℤ) : ℤ :=
  value.signed * 10 ^ (value.exponent - exponent).toNat

/-- `first == second`. -/
def eqv (first second : Decimal) : Bool :=
  let exponent := min first.exponent second.exponent
  first.scaled exponent = second.scaled exponent

@[simp] theorem toRat_ofNat (n : ℕ) : (ofNat n).toRat = n := by
  simp [toRat, ofNat, signed]

theorem scaled_eq {value : Decimal} {exponent : ℤ} (h : exponent ≤ value.exponent) :
    (value.scaled exponent : ℚ) * 10 ^ exponent = value.toRat := by
  have hten : (10 : ℚ) ≠ 0 := by norm_num
  have hpow : ((10 : ℚ) ^ (value.exponent - exponent).toNat) =
      10 ^ (value.exponent - exponent) := by
    rw [← zpow_natCast, Int.toNat_of_nonneg (by omega)]
  rw [scaled, toRat, Int.cast_mul, Int.cast_pow, Int.cast_ofNat, hpow, mul_assoc, ← zpow_add₀ hten,
    Int.sub_add_cancel]

theorem toRat_nonneg {value : Decimal} (h : value.negative = false) : 0 ≤ value.toRat := by
  rw [toRat, signed, if_neg (by simp [h])]
  positivity

/-! ### Exact operations -/

/-- The product, not rounded. -/
def mulExact (first second : Decimal) : Decimal where
  negative := first.negative != second.negative
  coefficient := first.coefficient * second.coefficient
  exponent := first.exponent + second.exponent

/-- The sum, not rounded. -/
def addExact (first second : Decimal) : Decimal :=
  let exponent := min first.exponent second.exponent
  let sum := first.scaled exponent + second.scaled exponent
  { negative := if sum = 0 then first.negative && second.negative else sum < 0
    coefficient := sum.natAbs
    exponent := exponent }

theorem toRat_mulExact (first second : Decimal) :
    (first.mulExact second).toRat = first.toRat * second.toRat := by
  have hsigned : (first.mulExact second).signed = first.signed * second.signed := by
    unfold mulExact signed
    cases first.negative <;> cases second.negative <;> simp
  rw [toRat, hsigned, toRat, toRat, mulExact, zpow_add₀ (by norm_num)]
  push_cast
  ring

/-- A sum, from its magnitude and its sign. -/
theorem signed_natAbs (sum : ℤ) (zeroSign : Bool) :
    (if (if sum = 0 then zeroSign else decide (sum < 0)) = true then -(sum.natAbs : ℤ)
      else sum.natAbs) = sum := by
  by_cases hzero : sum = 0
  · simp [hzero]
  · rw [if_neg hzero]
    by_cases hneg : sum < 0
    · rw [if_pos (decide_eq_true hneg)]
      omega
    · rw [if_neg (by simpa using hneg)]
      omega

theorem toRat_addExact (first second : Decimal) :
    (first.addExact second).toRat = first.toRat + second.toRat := by
  have hsigned : (first.addExact second).signed =
      first.scaled (min first.exponent second.exponent) +
        second.scaled (min first.exponent second.exponent) := by
    exact signed_natAbs _ _
  rw [← scaled_eq (min_le_left first.exponent second.exponent),
    ← scaled_eq (min_le_right first.exponent second.exponent), ← add_mul, toRat, hsigned,
    Int.cast_add]
  rfl

end Decimal

/-! ### Rounding -/

/-- The rounding modes in use. -/
inductive Rounding
  | halfEven
  | halfUp
  | ceiling
  | floor

/-- The magnitude `n / d`, rounded to a whole number. -/
def Rounding.divide (rounding : Rounding) (negative : Bool) (n d : ℕ) : ℕ :=
  let up : Bool := match rounding with
    | .halfEven => d < 2 * (n % d) || (2 * (n % d) = d && n / d % 2 = 1)
    | .halfUp => d ≤ 2 * (n % d)
    | .ceiling => !negative && n % d ≠ 0
    | .floor => negative && n % d ≠ 0
  n / d + up.toNat

/-- A quotient without a remainder is not rounded. -/
theorem Rounding.divide_mul (rounding : Rounding) (negative : Bool) (n : ℕ) {d : ℕ} (hd : 0 < d) :
    rounding.divide negative (n * d) d = n := by
  have hmod : n * d % d = 0 := Nat.mul_mod_left n d
  unfold Rounding.divide
  rw [hmod, Nat.mul_div_cancel n hd]
  cases rounding <;> simp <;> omega

/-- Rounding up a positive quotient. -/
theorem Rounding.divide_ceiling (n : ℕ) {d : ℕ} (hd : 0 < d) :
    (Rounding.ceiling.divide false n d : ℤ) = ⌈(n : ℚ) / d⌉ := by
  have hd' : (0 : ℚ) < d := by exact_mod_cast hd
  have hlt : ((n % d : ℕ) : ℚ) < d := by exact_mod_cast Nat.mod_lt n hd
  have hsplit : (d * (n / d : ℕ) + (n % d : ℕ) : ℚ) = n := by exact_mod_cast Nat.div_add_mod n d
  unfold Rounding.divide
  generalize n / d = quotient at hsplit
  by_cases hmod : n % d = 0
  · rw [hmod, Nat.cast_zero, add_zero] at hsplit
    rw [← hsplit, mul_div_cancel_left₀ _ hd'.ne', Int.ceil_natCast]
    simp [hmod]
  · have hpos : (0 : ℚ) < (n % d : ℕ) := by exact_mod_cast Nat.pos_of_ne_zero hmod
    symm
    rw [Int.ceil_eq_iff, lt_div_iff₀ hd', div_le_iff₀ hd', ← hsplit]
    simp only [hmod, ne_eq, not_false_eq_true, decide_true, Bool.not_false, Bool.and_self,
      Bool.toNat_true]
    push_cast
    constructor <;> linarith

/-- Rounding down a positive quotient. -/
theorem Rounding.divide_floor (n d : ℕ) :
    (Rounding.floor.divide false n d : ℤ) = ⌊(n : ℚ) / d⌋ := by
  rw [Rat.floor_natCast_div_natCast]
  simp [Rounding.divide]

/-- Rounding a positive quotient to the nearest number, and up from half-way. -/
theorem Rounding.divide_halfUp (n : ℕ) {d : ℕ} (hd : 0 < d) :
    (Rounding.halfUp.divide false n d : ℤ) = ⌊(n : ℚ) / d + 1 / 2⌋ := by
  have hd' : (0 : ℚ) < d := by exact_mod_cast hd
  have hlt : ((n % d : ℕ) : ℚ) < d := by exact_mod_cast Nat.mod_lt n hd
  have hsplit : (n : ℚ) / d = (n / d : ℕ) + (n % d : ℕ) / d := by
    rw [div_eq_iff hd'.ne', add_mul, div_mul_cancel₀ _ hd'.ne', mul_comm]
    exact_mod_cast (Nat.div_add_mod n d).symm
  have hnonneg : (0 : ℚ) ≤ (n % d : ℕ) := Nat.cast_nonneg _
  symm
  unfold Rounding.divide
  rw [Int.floor_eq_iff, hsplit]
  generalize n / d = quotient
  by_cases hup : d ≤ 2 * (n % d)
  · have hup' : (d : ℚ) ≤ 2 * (n % d : ℕ) := by exact_mod_cast hup
    have hhalf : (1 : ℚ) / 2 ≤ (n % d : ℕ) / d := by
      rw [le_div_iff₀ hd']
      linarith
    have hone : ((n % d : ℕ) : ℚ) / d < 1 := (div_lt_one hd').mpr hlt
    simp only [hup, decide_true, Bool.toNat_true]
    push_cast
    constructor <;> linarith
  · have hup' : 2 * ((n % d : ℕ) : ℚ) < d := by exact_mod_cast not_le.mp hup
    have hhalf : ((n % d : ℕ) : ℚ) / d < 1 / 2 := by
      rw [div_lt_iff₀ hd']
      linarith
    have hzero : (0 : ℚ) ≤ (n % d : ℕ) / d := by positivity
    simp only [hup, decide_false, Bool.toNat_false]
    push_cast
    constructor <;> linarith

/-! ### Contexts -/

/-- The signals that a context traps. -/
inductive Signal
  | invalidOperation
  | divisionByZero
  | overflow

/-- A context that rounds half to even. -/
structure Context where
  precision : ℕ
  emax : ℤ := 999999
  emin : ℤ := -999999

namespace Context

variable (context : Context)

/-- `Etiny`. -/
def etiny : ℤ :=
  context.emin - context.precision + 1

/-- `Etop`. -/
def etop : ℤ :=
  context.emax - context.precision + 1

/-- `_fix`: the number that a context makes of an exact result. -/
def fix (value : Decimal) : Except Signal Decimal :=
  if value.coefficient = 0 then
    .ok { value with exponent := min (max value.exponent context.etiny) context.emax }
  else
    let least := numDigits value.coefficient + value.exponent - context.precision
    if context.etop < least then .error .overflow
    else
      let exponent := max least context.etiny
      if value.exponent < exponent then
        let rounded := Rounding.halfEven.divide value.negative value.coefficient
          (10 ^ (exponent - value.exponent).toNat)
        let carry := context.precision < numDigits rounded
        let fixed : Decimal := {
          negative := value.negative
          coefficient := if carry then rounded / 10 else rounded
          exponent := if carry then exponent + 1 else exponent }
        if context.etop < fixed.exponent then .error .overflow else .ok fixed
      else .ok value

/-- `first * second`. -/
def multiply (first second : Decimal) : Except Signal Decimal :=
  context.fix (first.mulExact second)

/-- `first + second`. -/
def add (first second : Decimal) : Except Signal Decimal :=
  context.fix (first.addExact second)

/-- Cuts trailing zeros off while the exponent is below the ideal one, at most `cuts` times. -/
def toward (ideal : ℤ) : ℕ → ℕ → ℤ → ℕ × ℤ
  | 0, coefficient, exponent => (coefficient, exponent)
  | cuts + 1, coefficient, exponent =>
    if exponent < ideal ∧ coefficient % 10 = 0 then
      toward ideal cuts (coefficient / 10) (exponent + 1)
    else (coefficient, exponent)

/-- `first / second`. -/
def divide (first second : Decimal) : Except Signal Decimal :=
  if second.coefficient = 0 then
    .error (if first.coefficient = 0 then .invalidOperation else .divisionByZero)
  else
    let negative := first.negative != second.negative
    let ideal := first.exponent - second.exponent
    if first.coefficient = 0 then context.fix ⟨negative, 0, ideal⟩
    else
      let shift : ℤ := numDigits second.coefficient - numDigits first.coefficient +
        context.precision + 1
      let numerator := first.coefficient * 10 ^ shift.toNat
      let denominator := second.coefficient * 10 ^ (-shift).toNat
      let quotient := numerator / denominator
      if numerator % denominator ≠ 0 then
        -- a quotient that stands half-way, but is not exact, is moved off it
        context.fix ⟨negative, if quotient % 5 = 0 then quotient + 1 else quotient, ideal - shift⟩
      else
        let cut := toward ideal shift.toNat quotient (ideal - shift)
        context.fix ⟨negative, cut.1, cut.2⟩

/-- The number at another exponent. -/
def rescale (value : Decimal) (exponent : ℤ) (rounding : Rounding) : Decimal where
  negative := value.negative
  coefficient :=
    if exponent ≤ value.exponent then value.coefficient * 10 ^ (value.exponent - exponent).toNat
    else rounding.divide value.negative value.coefficient (10 ^ (exponent - value.exponent).toNat)
  exponent := exponent

/-- `value.quantize(Decimal("1e" + exponent), rounding)`. -/
def quantize (value : Decimal) (exponent : ℤ) (rounding : Rounding) : Except Signal Decimal :=
  if exponent < context.etiny ∨ context.emax < exponent then .error .invalidOperation
  else if value.coefficient = 0 then context.fix ⟨value.negative, 0, exponent⟩
  else
    let adjusted := numDigits value.coefficient + value.exponent - 1
    if context.emax < adjusted ∨ context.precision < adjusted - exponent + 1 then
      .error .invalidOperation
    else
      let quantized := rescale value exponent rounding
      if context.emax < numDigits quantized.coefficient + exponent - 1 ∨
          context.precision < numDigits quantized.coefficient then .error .invalidOperation
      else context.fix quantized

end Context

/-- `int(value)`. -/
def Decimal.toInt (value : Decimal) : ℤ :=
  let magnitude : ℕ := value.coefficient * 10 ^ value.exponent.toNat / 10 ^ (-value.exponent).toNat
  if value.negative then -magnitude else magnitude

/-! ### Results that are not rounded -/

section Exact

variable {context : Context} {value fixed : Decimal}

/-- A number within the context is its own result. -/
theorem eq_of_fix (h : context.fix value = .ok fixed)
    (hdigits : numDigits value.coefficient ≤ context.precision)
    (htiny : context.etiny ≤ value.exponent) (hzero : value.coefficient = 0 →
      value.exponent ≤ context.emax) : fixed = value := by
  unfold Context.fix at h
  by_cases hcoefficient : value.coefficient = 0
  · rw [if_pos hcoefficient, max_eq_left htiny, min_eq_left (hzero hcoefficient)] at h
    exact (Except.ok.inj h).symm
  · rw [if_neg hcoefficient] at h
    dsimp only at h
    split at h
    · cases h
    · rw [if_neg (by omega)] at h
      exact (Except.ok.inj h).symm

/-- A number whose last digits are zeros loses nothing when the context cuts them. -/
theorem toRat_of_fix (h : context.fix value = .ok fixed) {n k : ℕ}
    (hvalue : value.coefficient = n * 10 ^ k) (hdigits : numDigits n ≤ context.precision)
    (htiny : context.etiny ≤ value.exponent + k) :
    fixed.toRat = value.toRat ∧ fixed.negative = value.negative := by
  unfold Context.fix at h
  by_cases hcoefficient : value.coefficient = 0
  · rw [if_pos hcoefficient] at h
    rw [← Except.ok.inj h]
    simp [Decimal.toRat, Decimal.signed, hcoefficient]
  · rw [if_neg hcoefficient] at h
    have hn : n ≠ 0 := by
      rintro rfl
      exact hcoefficient (by rw [hvalue, zero_mul])
    have hlength : numDigits value.coefficient = numDigits n + k := by
      rw [hvalue, numDigits_mul_pow hn]
    dsimp only at h
    split at h
    · cases h
    · by_cases hcut : value.exponent < max
          (numDigits value.coefficient + value.exponent - context.precision) context.etiny
      · -- The cut digits are among the zeros.
        obtain ⟨cut, hcutEq⟩ : ∃ cut : ℕ,
            max (numDigits value.coefficient + value.exponent - context.precision) context.etiny =
              value.exponent + cut := ⟨(max (numDigits value.coefficient + value.exponent -
                context.precision) context.etiny - value.exponent).toNat, by omega⟩
        have hle : cut ≤ k := by omega
        have hrounded : Rounding.halfEven.divide value.negative value.coefficient (10 ^ cut) =
            n * 10 ^ (k - cut) := by
          rw [hvalue, ← Nat.sub_add_cancel hle, pow_add, ← mul_assoc, Nat.sub_add_cancel hle,
            Rounding.divide_mul _ _ _ (by positivity)]
        have hfits : ¬ context.precision < numDigits (n * 10 ^ (k - cut)) := by
          rw [numDigits_mul_pow hn]
          omega
        rw [if_pos hcut, hcutEq, add_sub_cancel_left, Int.toNat_natCast, hrounded,
          if_neg hfits, if_neg hfits] at h
        split at h
        · cases h
        · rw [← Except.ok.inj h]
          refine ⟨?_, rfl⟩
          have hcoefficients : (value.coefficient : ℤ) = (n * 10 ^ (k - cut) : ℕ) * 10 ^ cut := by
            rw [hvalue]
            push_cast
            rw [mul_assoc, ← pow_add, Nat.sub_add_cancel hle]
          simp only [Decimal.toRat, Decimal.signed, hcoefficients]
          rw [zpow_add₀ (by norm_num), zpow_natCast]
          cases value.negative
          · simp only [Bool.false_eq_true, if_false]
            push_cast
            ring
          · simp only [if_true]
            push_cast
            ring
      · rw [if_neg hcut] at h
        rw [← Except.ok.inj h]
        exact ⟨rfl, rfl⟩

/-- A number that stands for an integer is converted to it. -/
theorem toInt_of_toRat {n : ℤ} (h : value.toRat = n) : value.toInt = n := by
  have hten : (10 : ℚ) ≠ 0 := by norm_num
  have hmagnitude : ((value.coefficient * 10 ^ value.exponent.toNat /
      10 ^ (-value.exponent).toNat : ℕ) : ℤ) = if value.negative then -n else n := by
    have hsigned : ((value.coefficient : ℚ) * 10 ^ value.exponent) =
        ((if value.negative then -n else n : ℤ) : ℚ) := by
      rw [Decimal.toRat, Decimal.signed] at h
      cases hnegative : value.negative
      · simpa [hnegative] using h
      · rw [hnegative] at h
        simp only [if_true, Int.cast_neg, Int.cast_natCast] at h ⊢
        rw [← h]
        ring
    generalize (if value.negative then -n else n : ℤ) = magnitude at hsigned
    by_cases hexponent : 0 ≤ value.exponent
    · rw [← Int.toNat_of_nonneg hexponent, zpow_natCast] at hsigned
      have hnone : (-value.exponent).toNat = 0 := by omega
      rw [hnone, pow_zero, Nat.div_one]
      exact_mod_cast hsigned
    · have hnone : value.exponent.toNat = 0 := by omega
      have hpos : (10 : ℚ) ^ (-value.exponent).toNat ≠ 0 := pow_ne_zero _ hten
      have hexp : value.exponent = -((-value.exponent).toNat : ℤ) := by omega
      rw [hexp, zpow_neg, zpow_natCast, ← div_eq_mul_inv, div_eq_iff hpos] at hsigned
      rw [hnone, pow_zero, mul_one]
      have hint : (value.coefficient : ℤ) = magnitude * 10 ^ (-value.exponent).toNat := by
        exact_mod_cast hsigned
      push_cast
      rw [hint, Int.mul_ediv_cancel _ (by positivity)]
  unfold Decimal.toInt
  dsimp only
  rw [hmagnitude]
  cases value.negative <;> simp

end Exact

/-! ### Quotients by powers of ten -/

namespace Context

/-- Cutting zeros keeps the number. -/
theorem toward_spec (ideal : ℤ) (cuts coefficient : ℕ) (exponent : ℤ) :
    ∃ cut ≤ cuts, coefficient = (toward ideal cuts coefficient exponent).1 * 10 ^ cut ∧
      (toward ideal cuts coefficient exponent).2 = exponent + cut := by
  induction cuts generalizing coefficient exponent with
  | zero => exact ⟨0, le_rfl, by simp [toward], by simp [toward]⟩
  | succ cuts ih =>
    rw [toward]
    by_cases hcut : exponent < ideal ∧ coefficient % 10 = 0
    · obtain ⟨cut, hle, hcoefficient, hexponent⟩ := ih (coefficient / 10) (exponent + 1)
      rw [if_pos hcut]
      refine ⟨cut + 1, by omega, ?_, by rw [hexponent]; push_cast; ring⟩
      rw [pow_succ, ← mul_assoc, ← hcoefficient]
      omega
    · rw [if_neg hcut]
      exact ⟨0, by omega, by simp, by simp⟩

/-- Zeros that were appended are cut first. -/
theorem toward_mul_pow (ideal : ℤ) (cuts coefficient zeros : ℕ) {exponent : ℤ}
    (h : exponent + zeros ≤ ideal) :
    toward ideal (zeros + cuts) (coefficient * 10 ^ zeros) exponent =
      toward ideal cuts coefficient (exponent + zeros) := by
  induction zeros generalizing exponent with
  | zero => simp
  | succ zeros ih =>
    have hcut : exponent < ideal ∧ coefficient * 10 ^ (zeros + 1) % 10 = 0 := by
      refine ⟨by omega, ?_⟩
      rw [pow_succ, ← mul_assoc]
      exact Nat.mul_mod_left _ _
    have hquotient : coefficient * 10 ^ (zeros + 1) / 10 = coefficient * 10 ^ zeros := by
      rw [pow_succ, ← mul_assoc]
      exact Nat.mul_div_cancel _ (by decide)
    rw [show zeros + 1 + cuts = zeros + cuts + 1 by omega, toward, if_pos hcut, hquotient,
      ih (by omega)]
    congr 1
    push_cast
    ring

end Context

/-- The quotient by a power of ten, not rounded: the point moves, and zeros are cut. -/
def Decimal.overPow (value : Decimal) (k : ℕ) : Decimal :=
  if value.coefficient = 0 then value
  else
    let cut := Context.toward value.exponent k value.coefficient (value.exponent - k)
    ⟨value.negative, cut.1, cut.2⟩

/-- A quotient by a power of ten that the precision can hold. -/
theorem divide_pow (context : Context) (value : Decimal) (k : ℕ)
    (h : numDigits value.coefficient ≤ context.precision) :
    context.divide value (.ofNat (10 ^ k)) = context.fix (value.overPow k) := by
  have hdenominator : (Decimal.ofNat (10 ^ k)).coefficient = 10 ^ k := rfl
  have hpos : (10 : ℕ) ^ k ≠ 0 := by positivity
  have hsign : (value.negative != (Decimal.ofNat (10 ^ k)).negative) = value.negative := by
    cases value.negative <;> rfl
  have hideal : value.exponent - (Decimal.ofNat (10 ^ k)).exponent = value.exponent := sub_zero _
  unfold Context.divide Decimal.overPow
  dsimp only
  rw [hdenominator, if_neg hpos, hsign, hideal]
  by_cases hzero : value.coefficient = 0
  · rw [if_pos hzero, if_pos hzero, ← hzero]
  · have hdigits : numDigits (10 ^ k) = k + 1 := by
      have hone := numDigits_mul_pow one_ne_zero k
      rw [one_mul] at hone
      rw [hone]
      simp [numDigits, Nat.add_comm]
    obtain ⟨zeros, hshift⟩ : ∃ zeros : ℕ, ((numDigits (10 ^ k) : ℤ) -
        numDigits value.coefficient + context.precision + 1) = zeros + k :=
      ⟨context.precision + 2 - numDigits value.coefficient, by rw [hdigits]; push_cast; omega⟩
    have hup : ((zeros : ℤ) + k).toNat = zeros + k := by omega
    have hdown : (-((zeros : ℤ) + k)).toNat = 0 := by omega
    have hproduct : value.coefficient * 10 ^ (zeros + k) =
        value.coefficient * 10 ^ zeros * (10 ^ k * 10 ^ 0) := by
      rw [pow_zero, mul_one, pow_add, ← mul_assoc]
    have hcut : value.exponent - ((zeros : ℤ) + k) + zeros = value.exponent - k := by ring
    rw [if_neg hzero, if_neg hzero, hshift, hup, hdown, hproduct,
      Nat.mul_div_cancel _ (by positivity), Nat.mul_mod_left, if_neg (by simp),
      Context.toward_mul_pow _ _ _ _ (by omega), hcut]

section OverPow

variable (value : Decimal) (k : ℕ)

theorem toRat_overPow : (value.overPow k).toRat = value.toRat / 10 ^ k := by
  have hten : (10 : ℚ) ≠ 0 := by norm_num
  unfold Decimal.overPow
  by_cases hzero : value.coefficient = 0
  · rw [if_pos hzero]
    simp [Decimal.toRat, Decimal.signed, hzero]
  · rw [if_neg hzero]
    obtain ⟨cut, -, hcoefficient, hexponent⟩ :=
      Context.toward_spec value.exponent k value.coefficient (value.exponent - k)
    dsimp only
    generalize Context.toward value.exponent k value.coefficient (value.exponent - k) = cutValue
      at hcoefficient hexponent
    have hsigned : (value.signed : ℚ) =
        (⟨value.negative, cutValue.1, cutValue.2⟩ : Decimal).signed * 10 ^ cut := by
      unfold Decimal.signed
      rw [hcoefficient]
      cases value.negative <;> simp
    have hpow : (10 : ℚ) ^ cutValue.2 = 10 ^ value.exponent / 10 ^ k * 10 ^ cut := by
      rw [hexponent, zpow_add₀ hten, zpow_sub₀ hten, zpow_natCast, zpow_natCast]
    rw [Decimal.toRat, Decimal.toRat, hsigned]
    dsimp only
    rw [hpow]
    ring

theorem negative_overPow : (value.overPow k).negative = value.negative := by
  unfold Decimal.overPow
  split_ifs <;> rfl

theorem coefficient_overPow_le : (value.overPow k).coefficient ≤ value.coefficient := by
  unfold Decimal.overPow
  by_cases hzero : value.coefficient = 0
  · rw [if_pos hzero]
  · obtain ⟨cut, -, hcoefficient, -⟩ :=
      Context.toward_spec value.exponent k value.coefficient (value.exponent - k)
    rw [if_neg hzero]
    dsimp only
    conv_rhs => rw [hcoefficient]
    exact Nat.le_mul_of_pos_right _ (by positivity)

theorem le_exponent_overPow : value.exponent - k ≤ (value.overPow k).exponent := by
  unfold Decimal.overPow
  by_cases hzero : value.coefficient = 0
  · rw [if_pos hzero]
    omega
  · obtain ⟨cut, -, -, hexponent⟩ :=
      Context.toward_spec value.exponent k value.coefficient (value.exponent - k)
    rw [if_neg hzero]
    dsimp only
    omega

theorem exponent_overPow_le : (value.overPow k).exponent ≤ value.exponent := by
  unfold Decimal.overPow
  by_cases hzero : value.coefficient = 0
  · rw [if_pos hzero]
  · obtain ⟨cut, hle, -, hexponent⟩ :=
      Context.toward_spec value.exponent k value.coefficient (value.exponent - k)
    rw [if_neg hzero]
    dsimp only
    omega

end OverPow

/-! ### Rounding to a unit -/

section Quantize

variable {context : Context} {value quantized : Decimal} {rounding : Rounding} {round : ℚ → ℤ}
  (hround : ∀ n d : ℕ, 0 < d → (rounding.divide false n d : ℤ) = round ((n : ℚ) / d))

include hround

theorem rescale_round (hvalue : value.negative = false) (exponent : ℤ) :
    ((Context.rescale value exponent rounding).coefficient : ℤ) =
      round (value.toRat / 10 ^ exponent) := by
  have hten : (10 : ℚ) ≠ 0 := by norm_num
  have hrat : value.toRat = value.coefficient * 10 ^ value.exponent := by
    rw [Decimal.toRat, Decimal.signed, if_neg (by simp [hvalue]), Int.cast_natCast]
  unfold Context.rescale
  by_cases hle : exponent ≤ value.exponent
  · obtain ⟨shift, hshift⟩ : ∃ shift : ℕ, value.exponent - exponent = shift :=
      ⟨(value.exponent - exponent).toNat, by omega⟩
    rw [if_pos hle, hrat, mul_div_assoc, ← zpow_sub₀ hten, hshift, Int.toNat_natCast, zpow_natCast]
    have hwhole := hround (value.coefficient * 10 ^ shift) 1 one_pos
    have hexact := Rounding.divide_mul rounding false (value.coefficient * 10 ^ shift) one_pos
    rw [mul_one] at hexact
    rw [hexact, Nat.cast_one, div_one] at hwhole
    rw [hwhole]
    push_cast
    rfl
  · rw [if_neg hle, hvalue, hround _ _ (by positivity), hrat, mul_div_assoc, ← zpow_sub₀ hten]
    have hexponent : value.exponent - exponent = -((exponent - value.exponent).toNat : ℤ) := by
      omega
    rw [hexponent, zpow_neg, zpow_natCast, ← div_eq_mul_inv]
    push_cast
    rfl

/-- A number rounded to a unit. -/
theorem quantize_round {exponent : ℤ} (h : context.quantize value exponent rounding = .ok quantized)
    (hprecision : 0 < context.precision) (hvalue : value.negative = false) :
    (quantized.exponent = exponent ∧ context.etiny ≤ exponent) ∧ quantized.negative = false ∧
      numDigits quantized.coefficient ≤ context.precision ∧
        (quantized.coefficient : ℤ) = round (value.toRat / 10 ^ exponent) := by
  unfold Context.quantize at h
  split at h
  · cases h
  · rename_i hrange
    push Not at hrange
    by_cases hzero : value.coefficient = 0
    · have hrat : value.toRat = 0 := by simp [Decimal.toRat, Decimal.signed, hzero]
      have hdigits : numDigits 0 ≤ context.precision := hprecision
      have hnone : round 0 = 0 := by
        have hexact := Rounding.divide_mul rounding false 0 one_pos
        rw [zero_mul] at hexact
        have hnone := hround 0 1 one_pos
        rw [hexact] at hnone
        simpa using hnone.symm
      rw [if_pos hzero] at h
      rw [eq_of_fix h hdigits hrange.1 fun _ ↦ hrange.2, hrat, zero_div, hnone]
      exact ⟨⟨rfl, hrange.1⟩, hvalue, hdigits, rfl⟩
    · rw [if_neg hzero] at h
      dsimp only at h
      split at h
      · cases h
      · split at h
        · cases h
        · rename_i hfits
          push Not at hfits
          rw [eq_of_fix h hfits.2 hrange.1 fun _ ↦ hrange.2]
          exact ⟨⟨rfl, hrange.1⟩, hvalue, hfits.2, rescale_round hround hvalue exponent⟩

end Quantize

end CloudPlatform.Decimals
