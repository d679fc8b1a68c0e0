import CloudPlatform.Core.Casing
import CloudPlatform.Core.Grouping
import CloudPlatform.Core.Lists
import CloudPlatform.Navigation.Callbacks
import CloudPlatform.Offers.Domain

/-!
# The city screens of the storefront

The first location step of a product family lists its sellable offers by city; a city with several
locations opens the screen of its halls, under a country and a slug that travel in the callback of
its button. The screens are pure functions of what the repositories answer (`Storefront`). The case
mapping of the Unicode standard is a parameter (`CaseMapping`).
-/

namespace CloudPlatform.Checkout

open Navigation (encodeTelegramCallback)
open Offers (SellableOffer)

/-! ### Text -/

/-- `re.sub("[^A-Za-z0-9]+", "-", value)`; `inRun` says that the last character was replaced. -/
def cleanup (inRun : Bool) : List Char → List Char
  | [] => []
  | c :: rest =>
    if c.isAlphanum then c :: cleanup false rest
    else if inRun then cleanup true rest
    else '-' :: cleanup true rest

/-- `value.strip("-")`. -/
def stripHyphens (value : List Char) : List Char :=
  ((value.dropWhile (· = '-')).reverse.dropWhile (· = '-')).reverse

/-- `city_slug`. -/
def citySlug (city : String) : String :=
  let slug := (stripHyphens (cleanup false (strip city).toList)).map Char.toUpper
  if slug = [] then "-" else String.ofList slug

/-! ### What the screens read -/

/-- One commercial product line of a provider. -/
structure ProviderProductFamily where
  providerKey : String
  familyKey : String
  billingModel : String
  displayName : String
  deriving DecidableEq

/-- One provider location as synced from the provider's own API. -/
structure LocationRecord where
  locationId : String
  name : String
  countryCode : Option String := none
  city : Option String := none

/-- What the repositories and the configuration answer for one provider; no locations when their
repository is unset or fails. -/
structure Storefront where
  providerKey : String
  displayName : String
  families : List ProviderProductFamily := []
  market : Option String := none
  offers : List SellableOffer
  locations : List LocationRecord := []

/-- `BILLING_MODEL_MONTHLY`. -/
def billingModelMonthly : String := "prepaid_monthly_fixed"

/-- `BILLING_MODEL_HOURLY`. -/
def billingModelHourly : String := "hourly"

/-- `FAMILY_ORDER`. -/
def familyOrder : List String := [billingModelMonthly, billingModelHourly]

/-- `_IMPLICIT_FAMILY_KEYS`. -/
def implicitFamilyKey (billing : String) : String :=
  if billing = billingModelMonthly then "monthly"
  else if billing = billingModelHourly then "hourly"
  else billing

namespace Storefront

/-- `list_sellable`. -/
def sellable (shop : Storefront) : List SellableOffer :=
  shop.offers.filter (·.sellable)

/-- The family of a billing model: the configured one, else the implicit one of a known model. -/
def familyOfBilling (shop : Storefront) (billing : String) : Option ProviderProductFamily :=
  match shop.families.reverse.find? (·.billingModel = billing) with
  | some family => some family
  | none =>
    if billing ∉ familyOrder then none
    else some {
      providerKey := shop.providerKey
      familyKey := implicitFamilyKey billing
      billingModel := billing
      displayName := shop.displayName }

/-- `_sellable_families`. -/
def sellableFamilies (shop : Storefront) : List ProviderProductFamily :=
  let present := (shop.sellable.map (·.billingModel)).eraseDups.insertionSort (· ≤ ·)
  (present.filterMap shop.familyOfBilling).insertionSort fun first second ↦
    familyOrder.idxOf first.billingModel ≤ familyOrder.idxOf second.billingModel

/-- `resolve_family`. -/
def resolveFamily (shop : Storefront) (familyKey : String) : Result ProviderProductFamily :=
  match (shop.families ++ shop.sellableFamilies).find? (·.familyKey = familyKey) with
  | some family => .ok family
  | none => raise .offerUnavailable
      s!"no sellable '{familyKey}' offers for provider '{shop.providerKey}'"

/-- `_family_sellable_offers`. -/
def familySellableOffers (shop : Storefront) (family : ProviderProductFamily) :
    List SellableOffer :=
  shop.sellable.filter (·.billingModel = family.billingModel)

/-- `_location_metadata`: the name, the country code and the city of a location. -/
def facts (shop : Storefront) (locationId : String) : String × Option String × Option String :=
  match shop.locations.reverse.find? (·.locationId = locationId) with
  | some record =>
    (if record.name ≠ "" then record.name else record.locationId, record.countryCode, record.city)
  | none => (locationId, none, none)

end Storefront

/-! ### Groups -/

section Screens

variable (mapping : CaseMapping)

/-- The normalised country of a location. -/
def normalCountry (countryCode : Option String) : String :=
  mapping.upper (strip (textOf countryCode))

/-- The label under which a location is grouped: its city, else its name, else its id. -/
def cityLabel (city : Option String) (name locationId : String) : String :=
  strip (if truthy city then textOf city else if name ≠ "" then name else locationId)

/-- The grouping key of an offer. -/
def cityKey (shop : Storefront) (offer : SellableOffer) : String × String :=
  let (name, country, city) := shop.facts offer.locationId
  (normalCountry mapping country, cityLabel city name offer.locationId)

/-- The order of pairs of texts. -/
def pairLe (first second : String × String) : Prop :=
  first.1 < second.1 ∨ first.1 = second.1 ∧ first.2 ≤ second.2

instance (first second : String × String) : Decidable (pairLe first second) :=
  inferInstanceAs (Decidable (_ ∨ _ ∧ _))

/-- `_group_offers_by_city`. -/
def groupOffersByCity (shop : Storefront) (offers : List SellableOffer) :
    List ((String × String) × List SellableOffer) :=
  (groupBy (cityKey mapping shop) offers).insertionSort fun first second ↦
    pairLe first.1 second.1

/-- `best[currency]` lowered to a price. -/
def noteMinimum (currency : String) (price : ℤ) : List (String × ℤ) → List (String × ℤ)
  | [] => [(currency, price)]
  | entry :: best =>
    if entry.1 = currency then (if price < entry.2 then (currency, price) else entry) :: best
    else entry :: noteMinimum currency price best

/-- `_single_currency_minimum`. -/
def singleCurrencyMinimum (offers : List SellableOffer) : Option ℤ × Option String :=
  let best := offers.foldl (fun best offer ↦
    let currency := mapping.upper (strip offer.sellingCurrency)
    if currency = "" then best else noteMinimum currency offer.sellingPriceMinor best) []
  match best with
  | [(currency, minimum)] => (some minimum, some currency)
  | _ => (none, none)

/-! ### Callbacks -/

/-- `_country_arg`. -/
def countryArg (countryCode : Option String) : String :=
  let code := normalCountry mapping countryCode
  if code = "" then "-" else code

/-- `_country_from_arg`. -/
def countryFromArg (arg : String) : String :=
  if arg = "-" then "" else mapping.upper (strip arg)

/-- The text as an optional: `value or None`. -/
def orNone (value : String) : Option String :=
  if value = "" then none else some value

variable (hmac : String → String → String) (signingKey : String)

/-- `_store_nav_callback`. -/
def storeNavCallback (screen : String) (args : List String) : Result String :=
  encodeTelegramCallback hmac signingKey { flow := "store", screen := screen, args := args }

variable (shop : Storefront) (family : ProviderProductFamily)

/-- `_family_location_callback`. -/
def familyLocationCallback (locationId : String) : Result String :=
  if family.billingModel = billingModelHourly then
    storeNavCallback hmac signingKey "cloud_families"
      [shop.providerKey, family.familyKey, locationId]
  else
    storeNavCallback hmac signingKey "vps_plans"
      [shop.providerKey, family.familyKey, locationId, "1"]

/-- `_family_cities_callback`. -/
def familyCitiesCallback (page : ℕ) : Result String :=
  storeNavCallback hmac signingKey "loc_cities" [shop.providerKey, family.familyKey, toString page]

/-- `_family_halls_callback`. -/
def familyHallsCallback (countryCode : Option String) (city : String) (page : ℕ) :
    Result String :=
  storeNavCallback hmac signingKey "loc_halls" [shop.providerKey, family.familyKey,
    countryArg mapping countryCode, citySlug city, toString page]

/-! ### The cities -/

/-- One customer-facing city. -/
structure CityLocationGroup where
  countryCode : Option String
  city : String
  locationIds : List String
  planCount : ℕ
  minPriceMinor : Option ℤ
  currency : Option String
  selectCallback : String
  deriving DecidableEq

/-- One page of a family's city groups with pager navigation. -/
structure CityPageView where
  providerKey : String
  familyKey : String
  billingModel : String
  items : List CityLocationGroup
  page : ℕ
  totalPages : ℕ
  totalCount : ℕ
  backCallback : String
  cancelCallback : String
  prevCallback : Option String
  nextCallback : Option String
  deriving DecidableEq

/-- The button of a city: its plans, or its halls when there are several. -/
def citySelectCallback (countryCode : Option String) (label : String) :
    List String → Result String
  | [locationId] => familyLocationCallback hmac signingKey shop family locationId
  | _ => familyHallsCallback mapping hmac signingKey shop family countryCode label 1

/-- `_city_group_view`. -/
def cityGroupView (group : (String × String) × List SellableOffer) :
    Result CityLocationGroup := do
  let ((country, label), bucket) := group
  let locations := (bucket.map (·.locationId)).eraseDups
  let (minimum, currency) := singleCurrencyMinimum mapping bucket
  let select ← citySelectCallback mapping hmac signingKey shop family (orNone country) label
    locations
  return {
    countryCode := orNone country
    city := label
    locationIds := locations
    planCount := bucket.length
    minPriceMinor := minimum
    currency := currency
    selectCallback := select }

/-- A pager button: none where there is no page to turn to. -/
def pagerCallback (condition : Bool) (callback : Result String) : Result (Option String) :=
  if condition then callback.map some else .ok none

/-- The page that is shown for the one asked for. -/
def shownPage (page : ℤ) (totalPages : ℕ) : ℕ :=
  min (max 1 page).toNat totalPages

/-- Whether Back opens the family selector: a single family would lead straight back. -/
def showSelector : Bool :=
  if shop.families ≠ [] then 1 < shop.families.length else 1 < shop.sellableFamilies.length

/-- The way back from the cities. -/
def citiesBackCallback (providersBack : String) : Result String :=
  if showSelector shop then storeNavCallback hmac signingKey "families" [shop.providerKey]
  else .ok providersBack

/-- `cities_screen`. -/
def citiesScreen (familyKey : String) (page pageSize : ℤ) : Result CityPageView := do
  let family ← shop.resolveFamily familyKey
  let offers := shop.familySellableOffers family
  rejectIf (offers = []) .offerUnavailable
    s!"no sellable '{familyKey}' offers for provider '{shop.providerKey}'"
  let groups := groupOffersByCity mapping shop offers
  let size := (max 1 pageSize).toNat
  let totalPages := pageCount size groups.length
  let current := shownPage page totalPages
  let items ← (pageOf size current groups).mapM
    (cityGroupView mapping hmac signingKey shop family)
  let providersBack ← storeNavCallback hmac signingKey "providers" [textOf shop.market]
  let back ← citiesBackCallback hmac signingKey shop providersBack
  let cancel ← storeNavCallback hmac signingKey "market" []
  let prev ← pagerCallback (1 < current)
    (familyCitiesCallback hmac signingKey shop family (current - 1))
  let next ← pagerCallback (current < totalPages)
    (familyCitiesCallback hmac signingKey shop family (current + 1))
  return {
    providerKey := shop.providerKey
    familyKey := family.familyKey
    billingModel := family.billingModel
    items := items
    page := current
    totalPages := totalPages
    totalCount := groups.length
    backCallback := back
    cancelCallback := cancel
    prevCallback := prev
    nextCallback := next }

/-! ### The halls of a city -/

/-- One exact provider datacenter or hall inside a city. -/
structure DatacenterLocationView where
  locationId : String
  name : String
  countryCode : Option String
  city : Option String
  planCount : ℕ
  minPriceMinor : Option ℤ
  currency : Option String
  selectCallback : String

/-- The exact halls of one city with pager navigation. -/
structure DatacenterPageView where
  providerKey : String
  familyKey : String
  billingModel : String
  countryCode : Option String
  city : String
  items : List DatacenterLocationView
  page : ℕ
  totalPages : ℕ
  totalCount : ℕ
  backCallback : String
  cancelCallback : String
  prevCallback : Option String
  nextCallback : Option String

/-- `_datacenter_view`. -/
def datacenterView (locationId : String) (bucket : List SellableOffer) :
    Result DatacenterLocationView := do
  let (name, country, city) := shop.facts locationId
  let (minimum, currency) := singleCurrencyMinimum mapping bucket
  let select ← familyLocationCallback hmac signingKey shop family locationId
  return {
    locationId := locationId
    name := name
    countryCode := orNone (normalCountry mapping country)
    city := orNone (strip (textOf city))
    planCount := bucket.length
    minPriceMinor := minimum
    currency := currency
    selectCallback := select }

/-- The groups that a country and a slug name. -/
def matchingGroups (offers : List SellableOffer) (wantedCountry slug : String) :
    List ((String × String) × List SellableOffer) :=
  (groupOffersByCity mapping shop offers).filter fun group ↦
    group.1.1 = wantedCountry && citySlug group.1.2 = slug

/-- The key of the one group that matches. -/
def theGroup (matching : List ((String × String) × List SellableOffer)) (message : String) :
    Result (String × String) :=
  match matching with
  | [group] => .ok group.1
  | _ => raise .offerUnavailable message

/-- The halls of a bucket, in the order of the screen. -/
def sortedHalls (bucket : List SellableOffer) : List (String × List SellableOffer) :=
  (groupBy (·.locationId) bucket).insertionSort fun first second ↦ first.1 ≤ second.1

/-- One page of the halls of a city, whose offers are in the bucket. -/
def hallsPage (country label : String) (bucket : List SellableOffer) (page pageSize : ℤ) :
    Result DatacenterPageView := do
  let ordered := sortedHalls bucket
  let size := (max 1 pageSize).toNat
  let totalPages := pageCount size ordered.length
  let current := shownPage page totalPages
  let items ← (pageOf size current ordered).mapM fun hall ↦
    datacenterView mapping hmac signingKey shop family hall.1 hall.2
  let back ← familyCitiesCallback hmac signingKey shop family 1
  let cancel ← storeNavCallback hmac signingKey "market" []
  let prev ← pagerCallback (1 < current) (familyHallsCallback mapping hmac signingKey shop family
    (orNone country) label (current - 1))
  let next ← pagerCallback (current < totalPages) (familyHallsCallback mapping hmac signingKey
    shop family (orNone country) label (current + 1))
  return {
    providerKey := shop.providerKey
    familyKey := family.familyKey
    billingModel := family.billingModel
    countryCode := orNone country
    city := label
    items := items
    page := current
    totalPages := totalPages
    totalCount := ordered.length
    backCallback := back
    cancelCallback := cancel
    prevCallback := prev
    nextCallback := next }

/-- `city_locations_screen`: an unknown or ambiguous slug fails closed. -/
def cityLocationsScreen (familyKey country slug : String) (page pageSize : ℤ) :
    Result DatacenterPageView := do
  let family ← shop.resolveFamily familyKey
  let offers := shop.familySellableOffers family
  rejectIf (offers = []) .offerUnavailable
    s!"no sellable '{familyKey}' offers for provider '{shop.providerKey}'"
  let wantedCountry := countryFromArg mapping country
  let key ← theGroup (matchingGroups mapping shop offers wantedCountry slug)
    s!"unknown city '{country}'/'{slug}' for provider '{shop.providerKey}'"
  let bucket := offers.filter (cityKey mapping shop · = (wantedCountry, key.2))
  hallsPage mapping hmac signingKey shop family key.1 key.2 bucket page pageSize

end Screens

end CloudPlatform.Checkout
