import CloudPlatform.Core.Json
import CloudPlatform.Core.Tables

/-!
# The offer catalog

The rows of `sellable_offers`, unique for each provider, product, location and billing model, and
the repository methods that catalog syncs use. A row records the credential account that supplied
its observation. `upsertFromProvider` refreshes or re-pins the row of its reference and stores the
account casefolded; `markUnavailable` retires the rows whose exact account triple was not observed.
-/

namespace CloudPlatform.Offers

open Rows (Table)

def billingModelMonthly : String := "prepaid_monthly_fixed"

def billingModelHourly : String := "hourly"

def validBillingModels : List String := [billingModelMonthly, billingModelHourly]

/-- `DOMESTIC_PROVIDER_COST_CURRENCIES | GLOBAL_FIAT_CURRENCIES`. -/
def auditedCurrencies : List String :=
  ["IRT", "IRR", "EUR", "GBP", "JPY", "SGD", "AUD", "CAD", "USD", "KRW"]

/-- The bounds of the integer and the bigint columns. -/
def maxInteger : ℤ := 2147483647

def maxBigint : ℤ := 9223372036854775807

/-! ### Observations -/

/-- A value of the billing parameters. -/
abbrev BillingParameter := JsonValue

/-- A provider-reported refresh of an offer. -/
structure OfferSpecUpdate where
  name : String
  vcpu : ℤ
  ramGb : ℤ
  diskGb : ℤ
  traffic : Option String
  providerCostMinor : ℤ
  providerCostCurrency : String
  billingParameters : List (String × BillingParameter) := []
  billingModel : Option String := none
  providerAvailable : Bool := true
  providerAccountId : Option String := none
  providerObservationInconclusive : Bool := false

/-- A column that must be a non-negative integer of the database. -/
def checkInteger (name : String) (value upper : ℤ) : Result Unit :=
  rejectIf (value < 0 || upper < value) .valueError
    s!"{name} must be a non-negative PostgreSQL integer"

/-- `OfferSpecUpdate.__post_init__`: the observation as it is constructed, or `ValueError`. -/
def OfferSpecUpdate.construct (raw : OfferSpecUpdate) : Result OfferSpecUpdate := do
  checkInteger "vcpu" raw.vcpu maxInteger
  checkInteger "ram_gb" raw.ramGb maxInteger
  checkInteger "disk_gb" raw.diskGb maxInteger
  rejectIf (raw.providerCostMinor < 0 || maxBigint < raw.providerCostMinor) .valueError
    "provider_cost_minor must be a non-negative signed int64 integer"
  rejectIf (raw.billingModel.any (· ∉ validBillingModels)) .valueError
    "billing_model is not supported"
  rejectIf (raw.providerAccountId.any fun account ↦ strip account = "") .valueError
    "provider_account_id must be non-empty when supplied"
  rejectIf (upper (strip raw.providerCostCurrency) ∉ auditedCurrencies) .valueError
    "provider_cost_currency is not an audited currency"
  return { raw with
    providerAccountId := raw.providerAccountId.map strip
    providerCostCurrency := upper (strip raw.providerCostCurrency) }

/-! ### Rows -/

/-- One row of the catalog. -/
structure OfferRow where
  providerKey : String
  productId : String
  locationId : String
  billingModel : String
  name : String
  vcpu : ℤ
  ramGb : ℤ
  diskGb : ℤ
  traffic : Option String
  providerCostMinor : ℤ
  providerCostCurrency : String
  sellingPriceMinor : ℤ := 0
  sellingCurrency : String
  billingParameters : List (String × BillingParameter) := []
  providerAvailable : Bool
  enabled : Bool := false
  operatorDisabled : Bool := false
  providerAccountId : Option String := none
  deriving DecidableEq

/-- The columns of the unique constraint. -/
structure OfferKey where
  providerKey : String
  productId : String
  locationId : String
  billingModel : String
  deriving DecidableEq

namespace OfferRow

def key (row : OfferRow) : OfferKey :=
  ⟨row.providerKey, row.productId, row.locationId, row.billingModel⟩

/-- `str(row.provider_account_id or "")`. -/
def account (row : OfferRow) : String :=
  textOf row.providerAccountId

/-- The checks of `SellableOffer` that quarantine does not waive. -/
def checkIdentity (row : OfferRow) : Result Unit := do
  rejectIf (row.billingModel ∉ validBillingModels) .valueError "billing_model is not supported"
  rejectIf (row.providerAccountId.any fun account ↦ strip account = "") .valueError
    "provider_account_id must be non-empty when supplied"
  rejectIf (strip row.providerKey = "") .valueError "provider_key must not be empty"
  rejectIf (strip row.productId = "") .valueError "product_id must not be empty"
  rejectIf (strip row.locationId = "") .valueError "location_id must not be empty"
  rejectIf (strip row.name = "") .valueError "name must not be empty"

/-- Currencies that are audited and amounts that fit: otherwise the row is quarantined. -/
def moneyValid (row : OfferRow) : Bool :=
  upper (strip row.providerCostCurrency) ∈ auditedCurrencies &&
    upper (strip row.sellingCurrency) ∈ auditedCurrencies &&
    0 ≤ row.providerCostMinor && row.providerCostMinor ≤ maxBigint &&
    0 ≤ row.sellingPriceMinor && row.sellingPriceMinor ≤ maxBigint

/-- `_to_domain`: a row with corrupt money is unsellable, one without an identity raises. -/
def toDomain (row : OfferRow) : Result OfferRow := do
  row.checkIdentity
  if row.moneyValid then
    return { row with
      providerAccountId := row.providerAccountId.map strip
      providerCostCurrency := upper (strip row.providerCostCurrency)
      sellingCurrency := upper (strip row.sellingCurrency) }
  else
    return { row with
      providerAccountId := row.providerAccountId.map strip
      providerCostCurrency := upper (strip row.providerCostCurrency)
      sellingCurrency := upper (strip row.sellingCurrency)
      providerAvailable := false
      enabled := false }

end OfferRow

abbrev OfferTable := Table OfferRow.key

/-! ### The upsert -/

/-- The account that an observation is stored under. -/
def storedAccount (account : String) : String :=
  casefold (strip account)

/-- The account arguments of an upsert, checked: the parameter and the one of the observation. -/
def suppliedAccount (parameter observed : Option String) : Result (Option String) := do
  let supplied := parameter.toList ++ observed.toList
  rejectIf (supplied.any fun account ↦ strip account = "") .valueError
    "provider_account_id must be non-empty when supplied"
  rejectIf (2 ≤ (supplied.map storedAccount).dedup.length) .valueError
    "provider account arguments disagree"
  return (supplied.head?).map storedAccount

/-- The row that an observation without an account refreshes. -/
def unscopedTarget (candidates : List OfferRow) : Result (Option OfferRow) := do
  rejectIf (2 ≤ candidates.length) .valueError
    "provider observation is ambiguous; credential account is required"
  rejectIf (candidates.head?.any fun row ↦ truthy row.providerAccountId) .valueError
    "provider observation already belongs to a credential account"
  return candidates.head?

/-- The account's own row, or else the only row, which is re-pinned. -/
def accountTarget : List OfferRow → List OfferRow → Result (Option OfferRow)
  | row :: _, _ => .ok (some row)
  | [], [row] => .ok (some row)
  | [], [] => .ok none
  | [], _ => raise .valueError ("provider observation is ambiguous; a credential account " ++
      "cannot be reassigned across duplicate rows")

/-- The row that an observation of an account refreshes, among those of its reference; `None` when
there is none yet. -/
def scopedTarget (candidates : List OfferRow) (account : String) : Result (Option OfferRow) := do
  let matching := candidates.filter fun row ↦ storedAccount row.account = account
  rejectIf (candidates.any (·.providerAccountId.isNone)) .valueError
    "legacy unscoped offer conflicts with an account-scoped observation"
  rejectIf (2 ≤ matching.length) .valueError
    "duplicate account-scoped provider observations exist"
  accountTarget matching candidates

def targetRow (candidates : List OfferRow) : Option String → Result (Option OfferRow)
  | none => unscopedTarget candidates
  | some account => scopedTarget candidates account

/-- The row of a first observation. -/
def OfferSpecUpdate.newRow (update : OfferSpecUpdate) (key : OfferKey)
    (accountId : Option String) : OfferRow where
  providerKey := key.providerKey
  productId := key.productId
  locationId := key.locationId
  billingModel := key.billingModel
  name := update.name
  vcpu := update.vcpu
  ramGb := update.ramGb
  diskGb := update.diskGb
  traffic := update.traffic
  providerCostMinor := update.providerCostMinor
  providerCostCurrency := upper (strip update.providerCostCurrency)
  sellingCurrency := upper (strip update.providerCostCurrency)
  billingParameters := update.billingParameters
  providerAvailable := !update.providerObservationInconclusive && update.providerAvailable
  providerAccountId := accountId

/-- The row after an observation: the operator's fields stay, and so does the billing model, which
the row was found by. -/
def OfferRow.refresh (row : OfferRow) (update : OfferSpecUpdate) (accountId : Option String) :
    OfferRow :=
  { row with
    name := update.name
    vcpu := update.vcpu
    ramGb := update.ramGb
    diskGb := update.diskGb
    traffic := update.traffic
    providerCostMinor := update.providerCostMinor
    providerCostCurrency := upper (strip update.providerCostCurrency)
    billingParameters := update.billingParameters
    providerAvailable := if update.providerObservationInconclusive then row.providerAvailable
      else update.providerAvailable
    providerAccountId := if truthy accountId then accountId else row.providerAccountId }

/-- The refusal of an observation without a currency. -/
def missingCurrency (key : OfferKey) : String :=
  s!"refusing to store {key.providerKey}/{key.productId}/{key.locationId} without a " ++
    "provider currency: a database default would silently reprice it"

/-- The row that an observation makes of a target. -/
def OfferSpecUpdate.observe (update : OfferSpecUpdate) (key : OfferKey)
    (accountId : Option String) : Option OfferRow → OfferRow
  | none => update.newRow key accountId
  | some row => row.refresh update accountId

/-- The row that an upsert writes, given the rows of its reference. -/
def observedRow (candidates : List OfferRow) (key : OfferKey) (update : OfferSpecUpdate)
    (providerAccountId : Option String) : Result OfferRow := do
  rejectIf (upper (strip update.providerCostCurrency) = "") .valueError (missingCurrency key)
  let accountId ← suppliedAccount providerAccountId update.providerAccountId
  let target ← targetRow candidates accountId
  return update.observe key accountId target

/-- The reference of an observation. -/
def OfferSpecUpdate.key (update : OfferSpecUpdate) (providerKey productId locationId : String) :
    OfferKey :=
  ⟨providerKey, productId, locationId,
    if truthy update.billingModel then textOf update.billingModel else billingModelMonthly⟩

/-- `upsert_from_provider`, without the adoption of legacy rows: the stored offer, and the rows,
which are committed before the offer is read back. -/
def upsertFromProvider (offers : OfferTable) (providerKey productId locationId : String)
    (update : OfferSpecUpdate) (providerAccountId : Option String) :
    Result OfferRow × OfferTable :=
  let key := update.key providerKey productId locationId
  match observedRow (offers.rows.filter (·.key = key)) key update providerAccountId with
  | .error raised => (.error raised, offers)
  | .ok row => (row.toDomain, offers.put row)

/-! ### Reads and retirement -/

/-- `get_by_ref`. -/
def getByRef (offers : OfferTable) (providerKey productId locationId : String)
    (providerAccountId : Option String) (billingModel : String) : Result (Option OfferRow) := do
  let rows := offers.rows.filter fun row ↦
    row.key = ⟨providerKey, productId, locationId, billingModel⟩ ∧
      row.providerAccountId = providerAccountId
  rejectIf (2 ≤ rows.length) .valueError
    "provider/product/location is ambiguous; credential account is required"
  match rows.head? with
  | none => return none
  | some row => return some (← row.toDomain)

/-- `list_all`. -/
def listAll (offers : OfferTable) : Result (List OfferRow) :=
  offers.rows.mapM OfferRow.toDomain

/-- `hourly_account_owners`: the accounts that publish the hourly pairs. -/
def hourlyAccountOwners (offers : OfferTable) (providerKey productId locationId : String) :
    Option String :=
  ((offers.get ⟨providerKey, productId, locationId, billingModelHourly⟩).map
    fun row ↦ strip row.account).filter (· ≠ "")

/-- An observed offer: the account, the product and the location. -/
structure AccountOffer where
  accountId : String
  productId : String
  locationId : String
  deriving DecidableEq

/-- The triple of a row, by the stored account. -/
def OfferRow.triple (row : OfferRow) : AccountOffer :=
  ⟨row.account, row.productId, row.locationId⟩

/-- Whether a retirement pass looks at a row. -/
def OfferRow.inScope (row : OfferRow) (providerKey : String)
    (billingModel providerAccountId : Option String) : Bool :=
  row.providerKey = providerKey && billingModel.all (· = row.billingModel) &&
    providerAccountId.all (some · = row.providerAccountId)

/-- The row after a retirement pass over account-qualified observations. -/
def OfferRow.retire (row : OfferRow) (providerKey : String) (available : List AccountOffer)
    (billingModel providerAccountId : Option String) : OfferRow :=
  if row.inScope providerKey billingModel providerAccountId && row.triple ∉ available then
    { row with providerAvailable := false }
  else row

theorem OfferRow.key_retire (row : OfferRow) (providerKey : String) (available : List AccountOffer)
    (billingModel providerAccountId : Option String) :
    (row.retire providerKey available billingModel providerAccountId).key = row.key := by
  unfold OfferRow.retire
  split_ifs <;> rfl

/-- `mark_unavailable` for account-qualified observations. -/
def markUnavailable (offers : OfferTable) (providerKey : String) (available : List AccountOffer)
    (billingModel providerAccountId : Option String) : OfferTable :=
  offers.update (·.retire providerKey available billingModel providerAccountId)
    fun row ↦ row.key_retire providerKey available billingModel providerAccountId

/-- How many rows a retirement pass changes. -/
def markedUnavailable (offers : OfferTable) (providerKey : String) (available : List AccountOffer)
    (billingModel providerAccountId : Option String) : ℕ :=
  (offers.rows.filter fun row ↦ row.inScope providerKey billingModel providerAccountId &&
    row.triple ∉ available && row.providerAvailable).length

end CloudPlatform.Offers
