import CloudPlatform.Core.Python

/-!
# Renewal records

One record per prepaid monthly server: the provider contract reference, the sale price, the next
renewal instant and the commercial state of the service. A record cannot be built with a price that
is not positive or a currency that is not a three-letter code.
-/

namespace CloudPlatform.Renewals

inductive RenewalStatus
  | active
  | paymentDue
  | gracePeriod
  | suspended
  | expired
  | insufficientFunds
  | manualCancellationRequired
  | cancelled
  deriving DecidableEq

/-- The renewal facts of one prepaid monthly server; instants are microseconds since the epoch. -/
structure RenewalRecord where
  serverId : Uuid
  purchasedAt : ℤ
  customerPriceMinor : ℤ
  currency : String
  providerContractId : Option String := none
  providerOrderRef : Option String := none
  providerRenewalAt : Option ℤ := none
  renewalDateEstimated : Bool := false
  status : RenewalStatus := .active
  autoChargeEnabled : Bool := true
  graceUntil : Option ℤ := none
  lastCheckedAt : Option ℤ := none
  price_pos : 0 < customerPriceMinor
  currency_length : currency.length = 3

theorem length_eur : "EUR".length = 3 := by decide

theorem fiveHundred_pos : (0 : ℤ) < 500 := by decide

/-- `RenewalRecord.__post_init__`, as the guard of the price and the currency. -/
def checkRenewalTerms (customerPriceMinor : ℤ) (currency : String) :
    Result (PLift (0 < customerPriceMinor ∧ currency.length = 3)) :=
  if hprice : 0 < customerPriceMinor then
    if hcurrency : currency.length = 3 then .ok ⟨hprice, hcurrency⟩
    else raise .valueError "currency must be a 3-letter ISO code"
  else raise .valueError "customer_price_minor must be positive"

/-- `SqlAlchemyRenewalRepository.upsert`: an insert leaves the grace and check columns to their
defaults, an update writes every column. -/
def upsert (row : Option RenewalRecord) (record : RenewalRecord) : RenewalRecord :=
  match row with
  | none => { record with graceUntil := none, lastCheckedAt := none }
  | some row => { record with serverId := row.serverId }

end CloudPlatform.Renewals
