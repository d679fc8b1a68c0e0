import CloudPlatform.Core.Python

/-!
# Sellable offers

One sellable offer with its two money snapshots, and the single gate of its sale.
-/

namespace CloudPlatform.Offers

structure SellableOffer where
  id : Uuid
  providerKey : String
  productId : String
  locationId : String
  name : String
  providerCostMinor : ℤ
  providerCostCurrency : String
  sellingPriceMinor : ℤ
  sellingCurrency : String
  providerAvailable : Bool := true
  enabled : Bool := true
  billingModel : String := "prepaid_monthly_fixed"
  operatorDisabled : Bool := false
  deprecated : Bool := false
  fxRepricingPending : Bool := false
  legacyInvalid : Bool := false

namespace SellableOffer

/-- `SellableOffer.sellable`. -/
def sellable (offer : SellableOffer) : Bool :=
  !offer.legacyInvalid && offer.providerAvailable && offer.enabled && !offer.operatorDisabled &&
    !offer.deprecated && !offer.fxRepricingPending && 0 < offer.sellingPriceMinor

/-- `SellableOffer.ref`. -/
def ref (offer : SellableOffer) : String :=
  s!"{offer.providerKey}/{offer.productId}/{offer.locationId}"

end SellableOffer

end CloudPlatform.Offers
