import CloudPlatform.Billing.Domain
import CloudPlatform.Core.Json
import CloudPlatform.Core.Timestamps

/-!
# Currencies and reference rates

Minor and major units of the audited currencies, with the rounding of each purpose, and the
reference quotes that catalog prices are computed from. `majorToMinor_round` says that an
amount is rounded once, over the rationals.
-/

namespace CloudPlatform.Fx

open Billing (currencyExponent currencyExponents maxInt64)
open Calendar (InRange dayOf)
open Decimals

/-- Why money is converted. -/
inductive FxPurpose
  | display
  | charge
  | liquidation
  deriving DecidableEq

/-- `SUPPORTED_CURRENCIES`. -/
def supportedCurrencies : List String :=
  currencyExponents.map (·.1)

/-- `GLOBAL_FIAT_CURRENCIES`. -/
def globalFiatCurrencies : List String :=
  ["EUR", "GBP", "JPY", "SGD", "AUD", "CAD", "USD", "KRW"]

/-- `DOMESTIC_PROVIDER_COST_CURRENCIES`. -/
def domesticProviderCostCurrencies : List String :=
  ["IRT", "IRR"]

/-- `normalize_currency`. -/
def normalizeCurrency (currency : String) : Result String :=
  let code := upper (strip currency)
  if 2 ≤ code.length ∧ code.length ≤ 5 ∧ code.toList.all Char.isAlpha then .ok code
  else raise .fxUnsupportedCurrency s!"unsupported currency '{currency}'"

/-- The exception that a signal of the decimal arithmetic raises. -/
def arithmetic {α : Type} : Except Signal α → Result α
  | .ok value => .ok value
  | .error .invalidOperation => raise .decimalInvalidOperation "InvalidOperation"
  | .error .divisionByZero => raise .decimalDivisionByZero "DivisionByZero"
  | .error .overflow => raise .decimalOverflow "Overflow"

theorem arithmetic_eq_ok {α : Type} {x : Except Signal α} {value : α} :
    arithmetic x = .ok value ↔ x = .ok value := by
  rcases x with signal | other
  · cases signal <;> simp [arithmetic, raise]
  · simp [arithmetic]

/-- `Decimal(value)` of an integer. -/
def decimalOfInt (value : ℤ) : Decimal where
  negative := value < 0
  coefficient := value.natAbs

/-- `minor_to_major`. -/
def minorToMajor (amountMinor : ℤ) (currency : String) : Result Decimal := do
  rejectIf (amountMinor < -2 ^ 63 || maxInt64 < amountMinor) .valueError
    "amount_minor must be a signed 64-bit integer"
  let exponent ← currencyExponent currency
  let context : Context := ⟨max 50 (numDigits amountMinor.natAbs + exponent + 20), 999999, -999999⟩
  arithmetic (context.divide (decimalOfInt amountMinor) (.ofNat (10 ^ exponent)))

/-- Nothing is lost between minor and major units. -/
theorem minorToMajor_eq_ok {amountMinor : ℤ} {currency : String} {major : Decimal}
    (h : minorToMajor amountMinor currency = .ok major) (hamount : 0 ≤ amountMinor) :
    ∃ exponent, currencyExponent currency = .ok exponent ∧
      major.toRat = amountMinor / 10 ^ exponent ∧ major.negative = false ∧
        major.coefficient ≤ amountMinor.natAbs ∧ -(exponent : ℤ) ≤ major.exponent := by
  obtain ⟨-, h⟩ := rejectIf_bind_eq_ok.mp h
  obtain ⟨exponent, hexponent, h⟩ := bind_eq_ok.mp h
  have hsign : (decimalOfInt amountMinor).negative = false := decide_eq_false (not_lt.mpr hamount)
  have hrat : (decimalOfInt amountMinor).toRat = amountMinor := by
    rw [Decimal.toRat, Decimal.signed, hsign]
    simp [decimalOfInt, abs_of_nonneg hamount]
  have hcoefficient := coefficient_overPow_le (decimalOfInt amountMinor) exponent
  have hexp : -(exponent : ℤ) ≤ ((decimalOfInt amountMinor).overPow exponent).exponent := by
    have hle := le_exponent_overPow (decimalOfInt amountMinor) exponent
    rwa [show (decimalOfInt amountMinor).exponent = 0 from rfl, zero_sub] at hle
  have hdigits : numDigits (decimalOfInt amountMinor).coefficient ≤
      max 50 (numDigits amountMinor.natAbs + exponent + 20) := by
    change numDigits amountMinor.natAbs ≤ _
    omega
  rw [arithmetic_eq_ok, divide_pow _ _ _ hdigits] at h
  rw [eq_of_fix h ((numDigits_mono hcoefficient).trans hdigits)
    (by simp only [Context.etiny]; omega)
    fun _ ↦ (exponent_overPow_le _ _).trans (show (0 : ℤ) ≤ 999999 by decide)]
  exact ⟨exponent, hexponent, by rw [toRat_overPow, hrat], by rw [negative_overPow, hsign],
    hcoefficient, hexp⟩

/-- `_rounding_for`. -/
def roundingFor : FxPurpose → Rounding
  | .charge => .ceiling
  | .liquidation => .floor
  | .display => .halfUp

/-- `major_to_minor`. -/
def majorToMinor (amountMajor : Decimal) (currency : String) (purpose : FxPurpose) : Result ℤ := do
  let exponent ← currencyExponent currency
  let context : Context :=
    ⟨max 50 (numDigits amountMajor.coefficient + exponent + 20), 999999, -999999⟩
  let quantized ← arithmetic (context.quantize amountMajor (-exponent) (roundingFor purpose))
  let scaled ← arithmetic (context.multiply quantized (.ofNat (10 ^ exponent)))
  rejectIf (scaled.toInt < -2 ^ 63 || maxInt64 < scaled.toInt) .valueError
    "converted amount is outside signed 64-bit bounds"
  return scaled.toInt

/-- A number of minor units that is not negative, rounded once for its purpose. -/
def FxPurpose.round : FxPurpose → ℚ → ℤ
  | .charge, minor => ⌈minor⌉
  | .liquidation, minor => ⌊minor⌋
  | .display, minor => ⌊minor + 1 / 2⌋

theorem divide_roundingFor (purpose : FxPurpose) (n d : ℕ) (hd : 0 < d) :
    ((roundingFor purpose).divide false n d : ℤ) = purpose.round ((n : ℚ) / d) := by
  cases purpose with
  | charge => exact Rounding.divide_ceiling n hd
  | liquidation => exact Rounding.divide_floor n d
  | display => exact Rounding.divide_halfUp n hd

/-- The amount in minor units that the two operations of `major_to_minor` give. -/
theorem toInt_scaled {amount quantized scaled : Decimal} {context : Context} {exponent : ℕ}
    {purpose : FxPurpose}
    (hquantized : context.quantize amount (-exponent) (roundingFor purpose) = .ok quantized)
    (hscaled : context.multiply quantized (.ofNat (10 ^ exponent)) = .ok scaled)
    (hprecision : 0 < context.precision) (hamount : amount.negative = false) :
    scaled.toInt = purpose.round (amount.toRat * 10 ^ exponent) := by
  obtain ⟨⟨hunit, htiny⟩, hsign, hdigits, hrounded⟩ :=
    quantize_round (divide_roundingFor purpose) hquantized hprecision hamount
  have hten : (10 : ℚ) ≠ 0 := by norm_num
  have hcoefficient : (quantized.mulExact (.ofNat (10 ^ exponent))).coefficient =
      quantized.coefficient * 10 ^ exponent := rfl
  have hexact : (quantized.mulExact (.ofNat (10 ^ exponent))).exponent = -(exponent : ℤ) := by
    change quantized.exponent + 0 = _
    rw [hunit, add_zero]
  have hrat : scaled.toRat = (quantized.coefficient : ℤ) := by
    rw [(toRat_of_fix hscaled hcoefficient hdigits (by rw [hexact]; omega)).1,
      Decimal.toRat_mulExact, Decimal.toRat_ofNat, Decimal.toRat,
      Decimal.signed, if_neg (by simp [hsign]), hunit, zpow_neg, zpow_natCast]
    push_cast
    field_simp
  rw [toInt_of_toRat hrat, hrounded, zpow_neg, zpow_natCast, div_inv_eq_mul]

/-- The amount in minor units is rounded once. -/
theorem majorToMinor_round {amount : Decimal} {currency : String} {purpose : FxPurpose} {minor : ℤ}
    (h : majorToMinor amount currency purpose = .ok minor) (hamount : amount.negative = false) :
    ∃ exponent, currencyExponent currency = .ok exponent ∧
      minor = purpose.round (amount.toRat * 10 ^ exponent) := by
  obtain ⟨exponent, hexponent, h⟩ := bind_eq_ok.mp h
  obtain ⟨quantized, hquantized, h⟩ := bind_eq_ok.mp h
  obtain ⟨scaled, hscaled, h⟩ := bind_eq_ok.mp h
  obtain ⟨-, h⟩ := rejectIf_bind_eq_ok.mp h
  obtain rfl := pure_eq_ok.mp h
  exact ⟨exponent, hexponent, toInt_scaled (arithmetic_eq_ok.mp hquantized)
    (arithmetic_eq_ok.mp hscaled) (by simp) hamount⟩

/-! ### Reference rates -/

/-- One official reference rate, constructed at some instant. -/
structure FxReferenceQuote where
  baseCurrency : String
  quoteCurrency : String
  rate : Decimal
  source : String
  sourceMarket : String
  /-- The first instant of the business date. -/
  providerDate : ℤ
  observedAt : ℤ
  expiresAt : ℤ
  constructedAt : ℤ
  base_normal : normalizeCurrency baseCurrency = .ok baseCurrency
  quote_normal : normalizeCurrency quoteCurrency = .ok quoteCurrency
  rate_pos : rate.positive = true
  source_ne : strip source ≠ ""
  market_ne : strip sourceMarket ≠ ""
  published : dayOf providerDate ≤ dayOf constructedAt
  observed : observedAt ≤ constructedAt
  lives : observedAt < expiresAt
  providerDate_range : InRange providerDate
  observedAt_range : InRange observedAt
  expiresAt_range : InRange expiresAt

/-- One exact reference rate with its provenance. -/
structure ReferenceRateResolution where
  quote : FxReferenceQuote
  stale : Bool := false

end CloudPlatform.Fx
