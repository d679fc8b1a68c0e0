import CloudPlatform.Fx.Domain
import CloudPlatform.Offers.Catalog
import CloudPlatform.Offers.Domain

/-!
# The gate of audited prices

A row of the catalog with the audit of its price, and the gate that every sale passes: the row is
switched on, it is priced in the currency that its provider cost asks for, and its audit proves the
price. The audit is text; the gate reads it, computes the price again in decimal arithmetic, and
compares.
-/

namespace CloudPlatform.Offers

open Calendar (Moment dayOf fromIsoformat)
open Decimals
open Fx

/-- `SellableOffer` with the columns that the pricing gate reads. -/
structure AuditedOffer extends OfferRow where
  technicalMetadata : JsonObject := []
  pricingMetadata : JsonObject := []
  autoPriced : Bool := true
  legacyInvalid : Bool := false
  deriving DecidableEq

namespace AuditedOffer

variable (offer : AuditedOffer)

/-- The parameter that states the exact provider rate. -/
def rateKey : String :=
  if offer.billingModel = billingModelHourly then "provider_hourly_rate"
  else "provider_monthly_rate"

/-- `SellableOffer.sellable`. -/
def sellable : Bool :=
  !offer.legacyInvalid && offer.providerAvailable && offer.enabled && !offer.operatorDisabled &&
    !offer.technicalMetadata.truthOf "deprecated" &&
    !offer.pricingMetadata.truthOf "fx_repricing_pending" && 0 < offer.sellingPriceMinor

/-- `_to_domain`: a row with corrupt money is quarantined, one without an identity raises. -/
def toDomain : Result AuditedOffer := do
  let row ← offer.toOfferRow.toDomain
  return { offer with toOfferRow := row, legacyInvalid := !offer.toOfferRow.moneyValid }

/-- The provider cost currency, in upper case. -/
def native : String :=
  upper (strip offer.providerCostCurrency)

/-- `required_selling_currency`. -/
def requiredSellingCurrency (target : String) : String :=
  if offer.native ∈ domesticProviderCostCurrencies then offer.native else upper (strip target)

/-- `requires_currency_normalization`. -/
def requiresCurrencyNormalization (target : String) : Bool :=
  upper (strip offer.sellingCurrency) ≠ offer.requiredSellingCurrency target

/-- The exact provider rate that the billing parameters state, if it is a positive number. -/
def exactRate : Option Decimal :=
  match JsonObject.get offer.billingParameters offer.rateKey with
  | none => none
  | some value =>
    if value = .null ∨ value.isFlagOrFloat then none
    else match parseDecimal (strip value.str) with
      | some (.number rate) => if rate.positive then some rate else none
      | _ => none

/-- The provider cost is the exact rate rounded half up to minor units. -/
def costMatches (rate : Decimal) (source : String) : Bool :=
  majorToMinor rate source .display = .ok offer.providerCostMinor

end AuditedOffer

/-! ### What an audit records -/

/-- The finite number that a text writes. -/
def finiteOf (text : String) : Option Decimal :=
  match parseDecimal text with
  | some (.number value) => some value
  | _ => none

/-- The amounts of an audit. -/
structure RecordedAmounts where
  rate : Decimal
  sourceAmount : Decimal
  converted : Decimal
  markup : Decimal

/-- The amounts that the metadata spell; an absent markup is zero. -/
def recordedAmounts (metadata : JsonObject) : Option RecordedAmounts := do
  let rate ← finiteOf (metadata.strOf "fx_rate" "None")
  let sourceAmount ← finiteOf (metadata.strOf "source_amount" "None")
  let converted ← finiteOf (metadata.strOf "converted_cost_target_exact" "None")
  let markup ← finiteOf (metadata.strOf "markup_percent" "0")
  return ⟨rate, sourceAmount, converted, markup⟩

namespace RecordedAmounts

variable (amounts : RecordedAmounts)

/-- Positive amounts, and a markup that is not negative. -/
def signed : Bool :=
  amounts.rate.positive && amounts.sourceAmount.positive && amounts.converted.positive &&
    !amounts.markup.negativeValue

/-- The context in which the price is computed again. -/
def context : Context where
  precision := max 64 (numDigits amounts.sourceAmount.coefficient +
    numDigits amounts.rate.coefficient + numDigits amounts.markup.coefficient + 24)

/-- The converted cost and the price, computed again. -/
def expected (target : String) : Result (Decimal × ℤ) := do
  let converted ← arithmetic (amounts.context.multiply amounts.sourceAmount amounts.rate)
  let share ← arithmetic (amounts.context.divide amounts.markup (.ofNat 100))
  let factor ← arithmetic (amounts.context.add (.ofNat 1) share)
  let selling ← arithmetic (amounts.context.multiply converted factor)
  let price ← majorToMinor selling target .charge
  return (converted, price)

end RecordedAmounts

/-- The timestamps of an audit. -/
structure AuditTimes where
  providerDate : Moment
  observedAt : Moment
  expiresAt : Moment
  validUntil : Moment

/-- The moment that the metadata spell under a key. -/
def momentOf (metadata : JsonObject) (key : String) : Option Moment :=
  (metadata.get key).bind fun value ↦ fromIsoformat value.str

def auditTimes (metadata : JsonObject) : Option AuditTimes := do
  let providerDate ← momentOf metadata "fx_provider_date"
  let observedAt ← momentOf metadata "fx_observed_at"
  let expiresAt ← momentOf metadata "fx_expires_at"
  let validUntil ← momentOf metadata "catalog_valid_until"
  return ⟨providerDate, observedAt, expiresAt, validUntil⟩

namespace AuditTimes

variable (times : AuditTimes)

/-- Aware moments, of which the first two are not in the future and the last is. -/
def current (now : ℤ) : Bool :=
  !times.observedAt.naive && !times.expiresAt.naive && !times.validUntil.naive &&
    dayOf times.providerDate.wall ≤ dayOf now && times.observedAt.instant ≤ now &&
    times.observedAt.instant < times.expiresAt.instant && now < times.validUntil.instant

/-- The price does not outlive its observation by more than a limit. -/
def within (limit : ℤ) : Bool :=
  0 < limit && (times.observedAt.plusSeconds limit).any fun last ↦
    times.validUntil.instant ≤ last.instant

/-- A fresh rate is valid until it expires, a stale one within the recorded limit and the catalog's,
which binds both. -/
def bounded (metadata : JsonObject) (limit : Option ℤ) : Bool :=
  limit.all times.within &&
    if metadata.truthOf "fx_stale" then
      ((metadata.get "fx_stale_limit_seconds").bind fun value ↦ parseInt value.str).any
        fun recorded ↦ 0 < recorded && times.within ((limit.map (min recorded)).getD recorded)
    else times.validUntil.instant ≤ times.expiresAt.instant

end AuditTimes

/-! ### The gate -/

namespace AuditedOffer

variable (offer : AuditedOffer)

/-- The currency that the audit converted from. -/
def pricingSource : String :=
  upper (strip (offer.pricingMetadata.strOf "source_currency" ""))

/-- The audit is of the currencies that the offer is sold by. -/
def auditsCurrencies (source target : String) : Bool :=
  source ∈ supportedCurrencies && target ∈ supportedCurrencies &&
    offer.pricingMetadata.strOf "pricing_schema_version" "None" = "1" &&
    upper (offer.pricingMetadata.strOf "target_currency" "") = target &&
    upper (offer.pricingMetadata.strOf "provider_cost_currency" "") = source &&
    offer.pricingSource ∈ supportedCurrencies &&
    (!offer.autoPriced || offer.pricingSource = source) &&
    (source ∈ domesticProviderCostCurrencies || offer.pricingSource ∈ globalFiatCurrencies)

/-- The audit is of the cost and the price that the offer has. -/
def auditsMinors : Bool :=
  parseInt (offer.pricingMetadata.strOf "provider_cost_minor" "None") =
      some offer.providerCostMinor &&
    parseInt (offer.pricingMetadata.strOf "final_selling_price_minor" "None") =
      some offer.sellingPriceMinor

/-- How the price was made, and by whom the rate was given. -/
def auditsProvenance : Bool :=
  let metadata := offer.pricingMetadata
  metadata.strOf "pricing_mode" "" ∈ ["auto", "manual"] &&
    metadata.strOf "rounding" "ROUND_CEILING" = "ROUND_CEILING" &&
    metadata.strOf "fx_purpose" "charge" = "charge" &&
    (metadata.get "fx_stale").any JsonValue.isFlag &&
    strip (metadata.strOf "fx_provider" "") ≠ "" &&
    strip (metadata.strOf "fx_source_market" "") ≠ ""

/-- The pair that a market quotes. -/
def marketOf (source target : String) : String :=
  source ++ "/" ++ target

/-- The family of the rate: identity within a currency, the reference source between currencies. -/
def auditsFamily (target : String) (rate : Decimal) : Bool :=
  let metadata := offer.pricingMetadata
  let market : Bool :=
    upper (metadata.strOf "fx_source_market" "None") = marketOf offer.pricingSource target
  if offer.pricingSource = target then
    metadata.strOf "fx_provider" "None" = "identity" && market && rate.eqv (.ofNat 1)
  else offer.pricingSource ∈ domesticProviderCostCurrencies ||
    metadata.strOf "fx_provider" "None" = "frankfurter" && market

/-- The manual price that the audit normalized. -/
def auditsManualAmount (sourceAmount : Decimal) : Bool :=
  let metadata := offer.pricingMetadata
  metadata.strOf "source_amount_basis" "None" = "manual_selling_minor_to_major" &&
    upper (metadata.strOf "original_selling_currency" "") = offer.pricingSource &&
    (parseInt (metadata.strOf "original_selling_price_minor" "None")).any fun minor ↦
      (minorToMajor minor offer.pricingSource).toOption.any sourceAmount.eqv

/-- The mode that the price comes from. -/
def priceSource : String :=
  ((offer.pricingMetadata.get "price_source").map JsonValue.str).getD
    (offer.pricingMetadata.strOf "pricing_mode" "None")

/-- The audit is of the exact provider rate that the offer has now, or of a manual price. -/
def auditsExactly (source : String) (sourceAmount : Decimal) : Bool :=
  offer.exactRate.any fun rate ↦ offer.costMatches rate source &&
    (if offer.autoPriced then rate.eqv sourceAmount &&
      offer.pricingMetadata.strOf "source_amount_basis" "None" = "exact_provider_rate_major"
    else offer.auditsManualAmount sourceAmount) &&
    (offer.priceSource ∈ ["auto", "markup"] || !offer.autoPriced && offer.priceSource = "manual")

/-- `_valid_pricing_metadata`, as it is called with `require_exact`. -/
def validPricingMetadata (now : ℤ) (source target : String) (limit : Option ℤ) : Bool :=
  offer.auditsCurrencies source target && offer.auditsMinors && offer.auditsProvenance &&
    (recordedAmounts offer.pricingMetadata).any fun amounts ↦ amounts.signed &&
      offer.auditsFamily target amounts.rate && offer.auditsExactly source amounts.sourceAmount &&
      ((auditTimes offer.pricingMetadata).any fun times ↦
        times.current now && times.bounded offer.pricingMetadata limit) &&
      (amounts.expected target).toOption.any fun expected ↦
        amounts.converted.eqv expected.1 && expected.2 = offer.sellingPriceMinor

/-- `has_valid_pricing_provenance`. -/
def hasValidPricingProvenance (now : ℤ) (targetCurrency : String) (limit : Option ℤ) : Bool :=
  let source := offer.native
  let target := upper (strip targetCurrency)
  let selling := upper (strip offer.sellingCurrency)
  if source = "" ∨ target = "" ∨ selling = "" then false
  else if source = selling then
    if offer.autoPriced then offer.validPricingMetadata now source source limit
    else offer.exactRate.any fun rate ↦
      offer.costMatches rate source && 0 < offer.sellingPriceMinor
  else if source ∈ domesticProviderCostCurrencies then false
  else if selling ≠ target then false
  else offer.validPricingMetadata now source target limit

/-- `is_sellable_in_currency`. -/
def isSellableInCurrency (now : ℤ) (targetCurrency : String) (limit : Option ℤ) : Bool :=
  offer.sellable && !offer.requiresCurrencyNormalization targetCurrency &&
    offer.hasValidPricingProvenance now targetCurrency limit

end AuditedOffer

end CloudPlatform.Offers
