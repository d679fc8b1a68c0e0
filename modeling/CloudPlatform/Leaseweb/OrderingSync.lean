import CloudPlatform.Leaseweb.CloudSync
import CloudPlatform.Leaseweb.OrderingDiscovery
import CloudPlatform.ProviderRoutes.Repository

/-!
# The ordering catalog sync

`LeaseWebOrderingCatalogSyncer.sync_products`: every credential account is discovered on its own;
the verdicts of all accounts, fresh ones or those that the stored routes remember, are merged per
location; the first serving account supplies each product of a location; the probes are persisted as
routes; and a run whose writes all succeeded retires what it did not observe at the locations that
it resolved. The location metadata that the run describes is left out.
-/

namespace CloudPlatform.Leaseweb

open Offers ProviderRoutes
open Providers (CredentialAccountState)

/-- The key of the account order. -/
def accountRank (priorities : String → Option ℕ) (accountId : String) : ℕ ×ₗ String :=
  toLex ((priorities accountId).getD 100, accountId)

/-- The configuration of the syncer, with the answers of its accounts. The caller hands them over in
`(priority, id)` order, with the ids that the settings accept: stripped and not empty. -/
structure LeaseWebOrderingCatalogSyncer where
  accounts : List OrderingAccount
  priorities : String → Option ℕ := fun _ ↦ none
  states : String → Option CredentialAccountState := fun _ ↦ none
  ordered : accounts.Pairwise fun first second ↦
    accountRank priorities first.accountId < accountRank priorities second.accountId
  spelled : ∀ account ∈ accounts,
    strip account.accountId = account.accountId ∧ account.accountId ≠ ""

/-- What the stores answer in one run; a write that raises has written nothing. -/
structure OrderingStores where
  locations : List String := []
  locationsReadable : Bool := true
  locationStored : String → Bool := fun _ ↦ true
  offersFault : Option Raised := none
  routesFault : Option Raised := none
  upsertFault : Pair → Option Raised := fun _ ↦ none
  routeFault : RouteObservation → Option Raised := fun _ ↦ none
  markFault : Option Raised := none

/-- Outcome of one `sync_products` run. -/
structure SyncResult where
  totalFetched : ℕ
  totalUpserted : ℕ
  totalSkipped : ℕ
  accountLocations : List (String × List (String × ℕ))
  persistenceFailures : List String := []
  routesPersisted : ℕ := 0
  availabilityReconciled : Bool := false
  markedUnavailable : ℕ := 0
  verified : List Pair := []
  verifiedAccounts : List AccountOffer := []

/-! ### Verdicts -/

/-- `_ROUTE_STATE`. -/
def routeStateOf : LocationEligibility → RouteState
  | .eligibleAvailable => .eligibleAvailable
  | .eligibleEmpty => .eligibleEmpty
  | .ineligibleAccount => .ineligible
  | .transientThrottled => .transientUnknown
  | .transientUnknown => .transientUnknown
  | .fatalAuthentication => .authFailed

/-- The first verdict of a route state. -/
def rememberedVerdict : RouteState → Option LocationEligibility
  | .eligibleAvailable => some .eligibleAvailable
  | .eligibleEmpty => some .eligibleEmpty
  | .ineligible => some .ineligibleAccount
  | .transientUnknown => some .transientThrottled
  | .authFailed => some .fatalAuthentication
  | .disabled => none

/-- `prior_states[location][account]`. -/
def priorVerdict (prior : List ProviderRoute) (location accountId : String) :
    Option LocationEligibility :=
  (prior.find? fun route ↦ route.locationId = location ∧
    route.credentialAccountId = accountId).bind (rememberedVerdict ·.state)

/-- The locations of `prior_states`, in order. -/
def priorLocations (prior : List ProviderRoute) : List String :=
  ((prior.filter fun route ↦ (rememberedVerdict route.state).isSome).map (·.locationId)).eraseDups

/-- An account with its discovery. -/
structure Discovered where
  account : OrderingAccount
  discovery : AccountDiscovery

/-- The probe of a location in a discovery. -/
def AccountDiscovery.probeAt (discovery : AccountDiscovery) (location : String) :
    Option LocationProbe :=
  (discovery.probes.find? (·.1 = location)).map (·.2)

/-- `probe_state`, or what the routes remember. -/
def Discovered.verdict (discovered : Discovered) (prior : List ProviderRoute) (location : String) :
    Option LocationEligibility :=
  ((discovered.discovery.probeAt location).map (·.eligibility)).or
    (priorVerdict prior location discovered.account.accountId)

/-- `product_counts`. -/
def AccountDiscovery.productCounts (discovery : AccountDiscovery) : List (String × ℕ) :=
  ((discovery.probes.filter (·.2.eligibility = .eligibleAvailable)).map fun probe ↦
    (probe.1, probe.2.products.length)).insertionSort fun first second ↦ first.1 ≤ second.1

/-- The locations whose metadata a discovery stores, by their normalized code. -/
def AccountDiscovery.described (discovery : AccountDiscovery) : List String :=
  (discovery.probes.filter (·.2.eligibility ≠ .fatalAuthentication)).map fun probe ↦
    upper (strip probe.1)

/-- The discoveries of the accounts; each stores the locations that it probed. -/
def discoverAll (stores : OrderingStores) (prior : List ProviderRoute) :
    List String → List OrderingAccount → List Discovered
  | _, [] => []
  | rows, account :: rest =>
    let discovery := account.discover (if stores.locationsReadable then rows else [])
      (priorLocations prior)
    ⟨account, discovery⟩ :: discoverAll stores prior
      (rows ++ discovery.described.filter fun code ↦ code ∉ rows && stores.locationStored code) rest

/-- The locations that some account probed, in order. -/
def candidateLocations (discoveries : List Discovered) : List String :=
  (discoveries.flatMap fun discovered ↦ discovered.discovery.probes.map (·.1)).eraseDups

/-- `_discovered_extras`. -/
def discoveredExtras (discoveries : List Discovered) (location : String) : List String :=
  (discoveries.flatMap fun discovered ↦
    ((discovered.discovery.probeAt location).map (·.discoveredLocations)).getD []).eraseDups

namespace LeaseWebOrderingCatalogSyncer

variable (syncer : LeaseWebOrderingCatalogSyncer)

/-- `_priority_of`. -/
def priorityOf (accountId : String) : ℕ :=
  (syncer.priorities accountId).getD 100

/-- `_state_of`. -/
def stateOf (accountId : String) : CredentialAccountState :=
  (syncer.states accountId).getD .active

/-- The accounts that serve a location; a disabled one does not. -/
def serving (prior : List ProviderRoute) (discoveries : List Discovered) (location : String) :
    List Discovered :=
  discoveries.filter fun discovered ↦
    discovered.verdict prior location = some .eligibleAvailable ∧
      syncer.stateOf discovered.account.accountId ≠ .disabled

/-- A location with a definitive outcome: some account serves it, or all that know it, and no other
account might, say that they do not. -/
def resolves (prior : List ProviderRoute) (discoveries : List Discovered) (location : String) :
    Bool :=
  let verdicts := discoveries.map (·.verdict prior location)
  !(syncer.serving prior discoveries location).isEmpty ||
    verdicts.any (·.isSome) && verdicts.all fun verdict ↦
      verdict.any (· ∈ definitiveNegativeVerdicts)

end LeaseWebOrderingCatalogSyncer

/-! ### Supplies -/

/-- A product that a serving account lists at a location. -/
structure Supply where
  account : OrderingAccount
  location : String
  product : LeasewebProduct

namespace Supply

variable (supply : Supply)

def pair : Pair :=
  (supply.product.id, supply.location)

def triple : AccountOffer :=
  ⟨supply.account.accountId, supply.product.id, supply.location⟩

def detail : Option LeasewebProductDetail :=
  supply.account.optionalDetail supply.location supply.product.id

/-- The detail says that the product is no longer sold here. -/
def gone : Bool :=
  supply.detail.any fun detail ↦
    !detail.availableLocations.isEmpty && supply.location ∉ detail.availableLocations

/-- The row that the offer is written from. -/
def offerProduct : LeasewebProduct :=
  (supply.detail.map (·.product)).getD supply.product

/-- The observation of a product that the detail says is gone. -/
def goneUpdate : Result OfferSpecUpdate :=
  OfferSpecUpdate.construct {
    name := supply.product.name
    vcpu := supply.product.vcpu
    ramGb := supply.product.ramGb
    diskGb := supply.product.diskGb
    traffic := some supply.product.traffic
    providerCostMinor := supply.product.monthlyPriceMinor
    providerCostCurrency := supply.product.currency
    providerAccountId := some supply.account.accountId
    billingParameters := [("contract_term", .text supply.account.contractTerm),
      ("billing_cycle", .text supply.account.billingCycle),
      ("monthly_price_source", .text "contractTerms"),
      ("provider_monthly_rate", .text supply.product.monthlyPriceExact)]
    providerAvailable := false }

/-- The observation of a product that is sold. -/
def soldUpdate : Result OfferSpecUpdate :=
  OfferSpecUpdate.construct {
    name := supply.offerProduct.name
    vcpu := supply.offerProduct.vcpu
    ramGb := supply.offerProduct.ramGb
    diskGb := supply.offerProduct.diskGb
    traffic := some supply.offerProduct.traffic
    providerCostMinor := supply.offerProduct.monthlyPriceMinor
    providerCostCurrency := supply.offerProduct.currency
    providerAccountId := some supply.account.accountId
    billingParameters := [("contract_term", .text supply.account.contractTerm),
      ("billing_cycle", .text supply.account.billingCycle),
      ("monthly_price_minor", .number supply.offerProduct.monthlyPriceMinor),
      ("monthly_price_source", .text (if supply.detail.isSome then "contractTerms" else "list")),
      ("available_locations", .texts
        (((supply.detail.map (·.availableLocations)).getD []).insertionSort (· ≤ ·))),
      ("provider_monthly_rate", .text supply.offerProduct.monthlyPriceExact)]
    providerAvailable := true }

def update : Result OfferSpecUpdate :=
  if supply.gone then supply.goneUpdate else supply.soldUpdate

end Supply

/-- The supplies of a location, in the order of the serving accounts. -/
def LeaseWebOrderingCatalogSyncer.suppliesAt (syncer : LeaseWebOrderingCatalogSyncer)
    (prior : List ProviderRoute) (discoveries : List Discovered) (location : String) :
    List Supply :=
  (syncer.serving prior discoveries location).flatMap fun discovered ↦
    (((discovered.discovery.probeAt location).map (·.products)).getD []).map fun product ↦
      ⟨discovered.account, location, product⟩

/-! ### Writes -/

/-- One call of `upsert_from_provider`. -/
structure OrderingWrite where
  supply : Supply
  update : OfferSpecUpdate

/-- The accumulators of the aggregation, with the calls that it made. -/
structure OrderingRun where
  offers : OfferTable
  writes : List OrderingWrite := []
  available : List Pair := []
  verified : List Pair := []
  verifiedAccounts : List AccountOffer := []
  upserted : ℕ := 0
  persistenceFailures : List String := []

/-- The upsert of one observation, or the fault of the store. -/
def OrderingWrite.upsert (write : OrderingWrite) (fault : Option Raised) (offers : OfferTable) :
    Result OfferRow × OfferTable :=
  match fault with
  | some raised => (.error raised, offers)
  | none => upsertFromProvider offers providerKey write.supply.product.id write.supply.location
      write.update (some write.supply.account.accountId)

/-- `_write_offer`, and what the caller notes of it: an observation without a currency is skipped, a
failed upsert recorded, an available one verified. -/
def OrderingRun.writeOffer (stores : OrderingStores) (run : OrderingRun) (write : OrderingWrite) :
    OrderingRun :=
  if strip write.update.providerCostCurrency = "" then run
  else
    let upserted := write.upsert (stores.upsertFault write.supply.pair) run.offers
    let called := { run with offers := upserted.2, writes := run.writes ++ [write] }
    match upserted.1 with
    | .error raised =>
      { called with persistenceFailures := run.persistenceFailures ++
          [s!"upsert {write.supply.product.id}/{write.supply.location}: {raised.message}"] }
    | .ok _ =>
      if write.supply.gone then called
      else { called with
        upserted := run.upserted + 1
        verified := run.verified ++ [write.supply.pair]
        verifiedAccounts := run.verifiedAccounts ++ [write.supply.triple] }

/-- One supply: a pair that an earlier account supplied is passed over. -/
def OrderingRun.supply (stores : OrderingStores) (run : OrderingRun) (supply : Supply) :
    OrderingRun × Option Raised :=
  if supply.pair ∈ run.available then (run, none)
  else
    let noted := { run with available := run.available ++ [supply.pair] }
    match supply.update with
    | .error raised => (noted, some raised)
    | .ok update => (noted.writeOffer stores ⟨supply, update⟩, none)

/-- `_upsert_location_products`: the run, and the exception that ended it. -/
def OrderingRun.supplyAll (stores : OrderingStores) :
    OrderingRun → List Supply → OrderingRun × Option Raised
  | run, [] => (run, none)
  | run, supply :: rest =>
    match run.supply stores supply with
    | (after, some raised) => (after, some raised)
    | (after, none) => supplyAll stores after rest

/-- What a location that was announced but never probed does to the loop over the probed ones. -/
def dictionaryChanged : Raised :=
  ⟨.runtimeError, "dictionary changed size during iteration"⟩

/-- The loop over the probed locations. -/
def LeaseWebOrderingCatalogSyncer.aggregate (syncer : LeaseWebOrderingCatalogSyncer)
    (stores : OrderingStores) (prior : List ProviderRoute) (discoveries : List Discovered) :
    OrderingRun → List String → OrderingRun × Option Raised
  | run, [] => (run, none)
  | run, location :: rest =>
    match run.supplyAll stores (syncer.suppliesAt prior discoveries location) with
    | (after, some raised) => (after, some raised)
    | (after, none) =>
      if (discoveredExtras discoveries location).all (· ∈ candidateLocations discoveries) then
        aggregate syncer stores prior discoveries after rest
      else (after, some dictionaryChanged)

/-! ### Routes -/

/-- The route observation of a probe. -/
def LocationProbe.observation (probe : LocationProbe) (accountId location : String) :
    RouteObservation where
  credentialAccountId := accountId
  locationId := location
  state := routeStateOf probe.eligibility
  productIds := if probe.eligibility = .eligibleAvailable then probe.products.map (·.id) else []

/-- The route observations of an account: its probes, and its rejection. -/
def Discovered.observations (discovered : Discovered) : List RouteObservation :=
  (discovered.discovery.probes.map fun probe ↦
    probe.2.observation discovered.account.accountId probe.1) ++
    if discovered.discovery.authFailed then
      [{ credentialAccountId := discovered.account.accountId
         locationId := "*"
         state := .authFailed }]
    else []

/-- `_route_observations`. -/
def routeObservations (discoveries : List Discovered) : List RouteObservation :=
  discoveries.flatMap Discovered.observations

/-! ### The run -/

/-- What a run leaves: its result or exception, the catalog, the routes, and the upserts that it
called. -/
structure OrderingOutcome where
  result : Result SyncResult
  offers : OfferTable
  routes : RouteTable
  writes : List OrderingWrite

/-- The rows of `list_all`, when they can be read. -/
def OrderingStores.currentRows (stores : OrderingStores) (offers : OfferTable) :
    Option (List OfferRow) :=
  if stores.offersFault.isSome then none else (listAll offers).toOption

/-- The stored routes, when they can be read. -/
def OrderingStores.priorRoutes (stores : OrderingStores) (routes : RouteTable) :
    List ProviderRoute :=
  if stores.routesFault.isSome then [] else listForProvider routes providerKey

/-- The rows that were available. -/
def availableRows (rows : List OfferRow) : List OfferRow :=
  rows.filter fun row ↦ row.providerKey = providerKey && row.providerAvailable

/-- The triples of the available rows at locations that are not resolved. -/
def preservedTriples (rows : List OfferRow) (resolved : List String) : List AccountOffer :=
  ((availableRows rows).filter (·.locationId ∉ resolved)).map OfferRow.triple

/-- `mark_unavailable` at the end of a run: the count, the failure and the catalog. -/
def retireMonthly (stores : OrderingStores) (offers : OfferTable) (observed : List AccountOffer) :
    ℕ × List String × OfferTable :=
  match stores.markFault with
  | some raised => (0, [s!"mark_unavailable: {raised.message}"], offers)
  | none =>
    let model := some billingModelMonthly
    (markedUnavailable offers providerKey observed model none, [],
      markUnavailable offers providerKey observed model none)

namespace LeaseWebOrderingCatalogSyncer

variable (syncer : LeaseWebOrderingCatalogSyncer)

/-- The discoveries of a run. -/
def discoveries (stores : OrderingStores) (routes : RouteTable) : List Discovered :=
  discoverAll stores (stores.priorRoutes routes) stores.locations syncer.accounts

/-- The locations with a definitive outcome. -/
def resolved (prior : List ProviderRoute) (discoveries : List Discovered) : List String :=
  (candidateLocations discoveries).filter (syncer.resolves prior discoveries)

/-- The end of a run: routes, retirement and result. -/
def finish (stores : OrderingStores) (current : Option (List OfferRow))
    (prior : List ProviderRoute) (discoveries : List Discovered) (run : OrderingRun)
    (routes : RouteTable) : OrderingOutcome :=
  let resolved := syncer.resolved prior discoveries
  let observations := routeObservations discoveries
  let persisted := upsertObservations providerKey syncer.priorityOf syncer.stateOf
    stores.routeFault routes observations
  let failures := run.persistenceFailures ++
    (persisted.2.map fun raised ↦ s!"provider routes write failed: {raised.message}").toList
  let result : SyncResult := {
    totalFetched := (discoveries.map fun discovered ↦
      (discovered.discovery.productCounts.map (·.2)).sum).sum
    totalUpserted := run.upserted
    totalSkipped := (((availableRows (current.getD [])).map (·.locationId)).eraseDups.filter
      (· ∉ resolved)).length
    accountLocations := discoveries.map fun discovered ↦
      (discovered.account.accountId, discovered.discovery.productCounts)
    persistenceFailures := failures
    routesPersisted := if persisted.2.isSome then 0 else observations.length
    verified := run.verified
    verifiedAccounts := run.verifiedAccounts }
  if discoveries.all (·.discovery.probes.isEmpty) then
    ⟨.ok result, run.offers, persisted.1, run.writes⟩
  else match current with
    | none => ⟨.ok result, run.offers, persisted.1, run.writes⟩
    | some rows =>
      if failures.isEmpty then
        let retired := retireMonthly stores run.offers
          (run.verifiedAccounts ++ preservedTriples rows resolved)
        let marked := { result with
          availabilityReconciled := true
          markedUnavailable := retired.1
          persistenceFailures := retired.2.1 }
        ⟨.ok marked, retired.2.2, persisted.1, run.writes⟩
      else ⟨.ok result, run.offers, persisted.1, run.writes⟩

/-- `sync_products`. -/
def syncProducts (stores : OrderingStores) (offers : OfferTable) (routes : RouteTable) :
    OrderingOutcome :=
  let prior := stores.priorRoutes routes
  let discoveries := syncer.discoveries stores routes
  let aggregated := syncer.aggregate stores prior discoveries { offers := offers }
    (candidateLocations discoveries)
  match aggregated.2 with
  | some raised => ⟨.error raised, aggregated.1.offers, routes, aggregated.1.writes⟩
  | none =>
    syncer.finish stores (stores.currentRows offers) prior discoveries aggregated.1 routes

end LeaseWebOrderingCatalogSyncer

end CloudPlatform.Leaseweb
