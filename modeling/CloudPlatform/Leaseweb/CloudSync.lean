import CloudPlatform.Leaseweb.HourlySelection
import CloudPlatform.Offers.Catalog
import CloudPlatform.Providers.Ports
import Mathlib.Data.List.Sort
import Mathlib.Data.Prod.Lex

/-!
# The hourly catalog sync

`LeasewebHourlyCloudSyncer.sync_all` over the answers of one run: every enabled account is read in
the order of `(priority, account id)`, its regions, their instance types and the usable images of
each region; then each observed (type, region) pair is written to the catalog under the account that
`select_hourly_owner` chooses; then a clean run retires the offers that it did not observe. An
instance-types read that is not a `ProviderError`, and an observation that its columns cannot hold,
raise out of the run.
-/

namespace CloudPlatform.Leaseweb

open Offers Providers
open Rows (Table)

def providerKey : String := "leaseweb"

/-! ### One run's answers -/

/-- One region of an account's list, with the answers of its two reads. -/
structure RegionRead where
  regionId : String
  types : Result (List CloudInstanceType)
  images : Result (List String)

/-- One configured account, with the answer of its region list. -/
structure AccountRead where
  accountId : String
  regions : Result (List RegionRead)

/-- The configuration of the syncer, and what its accounts answer in one run. -/
structure LeasewebHourlyCloudSyncer where
  accounts : List AccountRead
  accountPriorities : String → Option ℤ := fun _ ↦ none
  accountStates : String → Option CredentialAccountState := fun _ ↦ none

/-- A (type, region) pair. -/
abbrev Pair := String × String

/-- What the stores answer in one run; a write that raises has written nothing. -/
structure SyncStores where
  ownersFault : Option Raised := none
  limitReached : Result (List String) := .ok []
  upsertFault : Pair → Option Raised := fun _ ↦ none
  markFault : Option Raised := none

/-- How many hourly plans one region contributed, or why it did not. -/
structure RegionTypeReport where
  regionId : String
  products : ℕ
  error : Option String := none

/-- Outcome of one hourly-cloud sync run. -/
structure CloudSyncResult where
  regions : List RegionTypeReport
  offersWritten : ℕ
  markedUnavailable : ℕ
  verified : List Pair
  verifiedAccounts : List AccountOffer
  persistenceFailures : List String
  errors : List String

/-- One account listed one type at one region. -/
structure Observation where
  accountId : String
  regionId : String
  imagesState : ImagesState
  item : CloudInstanceType

def Observation.pair (observation : Observation) : Pair :=
  (observation.item.id, observation.regionId)

def Observation.entry (observation : Observation) : RankedEntry :=
  ⟨observation.accountId, observation.imagesState, observation.item⟩

/-! ### The reads -/

/-- The image capability of an account for a region. -/
def imagesStateOf : Result (List String) → ImagesState
  | .ok images => if images.isEmpty then .empty else .ok
  | .error raised =>
    if raised.kind ∈ [ErrorKind.providerUnavailable, .providerRateLimited] then .unknown
    else if isProviderError raised.kind then .rejected
    else .unknown

/-- What the reads have collected: the candidates of every pair in account order, and the reports
of the regions that failed. -/
structure Collected where
  observations : List Observation := []
  reports : Table RegionTypeReport.regionId := ⟨[], List.nodup_nil⟩
  errors : List String := []
  accountFailed : Bool := false

/-- One region of an account: without types its images are not read. -/
def Collected.readRegion (accountId : String) (collected : Collected) (region : RegionRead) :
    Result Collected :=
  match region.types with
  | .error raised =>
    if isProviderError raised.kind then
      .ok { collected with
        reports := collected.reports.put ⟨region.regionId, 0, some (typeName raised.kind)⟩
        accountFailed := true }
    else .error raised
  | .ok types =>
    .ok { collected with
      observations := collected.observations ++ types.map fun item ↦
        ⟨accountId, region.regionId, imagesStateOf region.images, item⟩ }

def Collected.readAccount (collected : Collected) (account : AccountRead) : Result Collected :=
  match account.regions with
  | .error raised =>
    .ok { collected with
      errors := collected.errors ++ [s!"regions[{account.accountId}]: {typeName raised.kind}"]
      accountFailed := true }
  | .ok regions => regions.foldlM (Collected.readRegion account.accountId) collected

namespace LeasewebHourlyCloudSyncer

variable (syncer : LeasewebHourlyCloudSyncer)

def rank (account : AccountRead) : ℤ ×ₗ String :=
  toLex ((syncer.accountPriorities account.accountId).getD 100, account.accountId)

/-- `_ordered_accounts`. -/
def orderedAccounts : List AccountRead :=
  syncer.accounts.insertionSort fun first second ↦ syncer.rank first ≤ syncer.rank second

/-- `_state_of`. -/
def stateOf (accountId : String) : CredentialAccountState :=
  (syncer.accountStates accountId).getD .active

/-- The accounts that a run reads. -/
def readAccounts : List AccountRead :=
  syncer.orderedAccounts.filter fun account ↦ syncer.stateOf account.accountId ≠ .disabled

def collect : Result Collected :=
  syncer.readAccounts.foldlM Collected.readAccount {}

end LeasewebHourlyCloudSyncer

/-! ### The writes -/

/-- `offer_spec_from_item`. -/
def offerSpecFromItem (item : CloudInstanceType) (regionId : String) (publishable : Bool)
    (accountId : String) : Result OfferSpecUpdate :=
  OfferSpecUpdate.construct {
    name := item.name
    vcpu := item.vcpu
    ramGb := item.ramGb
    diskGb := item.diskGb
    traffic := item.traffic
    providerCostMinor := item.hourlyCostMinor
    providerCostCurrency := item.currency
    billingParameters := [("contract_type", .text "HOURLY"),
      ("monthly_estimate_source", .text "hourly_rate"), ("instance_type_id", .text item.id),
      ("region", .text regionId), ("provider_hourly_rate", .text item.hourlyRateExact)] ++
        (item.monthlyCostMinor.map fun cost ↦
          ("provider_monthly_cost_minor", JsonValue.number cost)).toList
    billingModel := some billingModelHourly
    providerAvailable := publishable
    providerAccountId := some accountId }

/-- One call of `upsert_from_provider`: the pair, the choice that it publishes and its update. -/
structure HourlyWrite where
  pair : Pair
  choice : OwnerChoice
  update : OfferSpecUpdate

def HourlyWrite.triple (write : HourlyWrite) : AccountOffer :=
  ⟨write.choice.accountId, write.choice.item.id, write.pair.2⟩

/-- The accumulators of the second phase, with the calls that it made. -/
structure HourlyRun where
  offers : OfferTable
  writes : List HourlyWrite := []
  reports : Table RegionTypeReport.regionId
  verified : List Pair := []
  verifiedAccounts : List AccountOffer := []
  available : List AccountOffer := []
  accountFailed : Bool
  offersWritten : ℕ := 0
  persistenceFailures : List String := []

/-- The report of a region after one of its pairs: a failed one says so, and the error of an
earlier read stays. -/
def regionReport (reports : Table RegionTypeReport.regionId) (regionId : String) (failed : Bool) :
    RegionTypeReport :=
  let previous := reports.get regionId
  { regionId := regionId
    products := (previous.map (·.products)).getD 0 + if failed then 0 else 1
    error := if failed then some "persistence failure" else previous.bind (·.error) }

/-- The upsert of one observation, or the fault of the store. -/
def HourlyWrite.upsert (write : HourlyWrite) (fault : Option Raised) (offers : OfferTable) :
    Result OfferRow × OfferTable :=
  match fault with
  | some raised => (.error raised, offers)
  | none => upsertFromProvider offers providerKey write.choice.item.id write.pair.2 write.update
      (some write.choice.accountId)

def HourlyRun.record (stores : SyncStores) (run : HourlyRun) (write : HourlyWrite) : HourlyRun :=
  let upserted := write.upsert (stores.upsertFault write.pair) run.offers
  match upserted.1 with
  | .error raised =>
    { run with
      offers := upserted.2
      writes := run.writes ++ [write]
      reports := run.reports.put (regionReport run.reports write.pair.2 true)
      accountFailed := true
      persistenceFailures := run.persistenceFailures ++
        [s!"upsert {write.choice.item.id}/{write.pair.2}: {raised.message}"] }
  | .ok _ =>
    let provedNow :=
      write.choice.imagesState ∉ unpublishableImageStates && write.choice.published
    { run with
      offers := upserted.2
      writes := run.writes ++ [write]
      reports := run.reports.put (regionReport run.reports write.pair.2 false)
      available := run.available ++ [write.triple]
      verified := if provedNow then run.verified ++ [write.pair] else run.verified
      verifiedAccounts := if provedNow then run.verifiedAccounts ++ [write.triple]
        else run.verifiedAccounts
      offersWritten := run.offersWritten + 1 }

/-- The candidates of a pair, in account order. -/
def rankedOf (observations : List Observation) (pair : Pair) : List RankedEntry :=
  (observations.filter (·.pair = pair)).map Observation.entry

/-- The observed pairs, in order. -/
def observedPairs (observations : List Observation) : List Pair :=
  (observations.map Observation.pair).dedup.insertionSort fun first second ↦
    toLex first ≤ toLex second

/-- The second phase: the run after the pairs, and the exception that ended it. -/
def publishPairs (stores : SyncStores) (observations : List Observation)
    (owners : Pair → Option String) (limitReached : List String) :
    HourlyRun → List Pair → HourlyRun × Option Raised
  | run, [] => (run, none)
  | run, pair :: rest =>
    match selectHourlyOwner (rankedOf observations pair) (owners pair) limitReached with
    | none => publishPairs stores observations owners limitReached run rest
    | some choice =>
      match offerSpecFromItem choice.item pair.2 choice.published choice.accountId with
      | .error raised => (run, some raised)
      | .ok update =>
        publishPairs stores observations owners limitReached
          (run.record stores ⟨pair, choice, update⟩) rest

/-! ### The run -/

/-- What a run leaves: its result or exception, the catalog, and the upserts that it called. -/
structure HourlyOutcome where
  result : Result CloudSyncResult
  offers : OfferTable
  writes : List HourlyWrite

/-- `_current_owners`: an unreadable map degrades to no known owner. -/
def SyncStores.currentOwners (stores : SyncStores) (offers : OfferTable) (pair : Pair) :
    Option String :=
  if stores.ownersFault.isSome then none else hourlyAccountOwners offers providerKey pair.1 pair.2

/-- `_limit_reached_accounts`: an unreadable store limits no account. -/
def SyncStores.limitReachedAccounts (stores : SyncStores) : List String :=
  match stores.limitReached with
  | .ok accounts => accounts
  | .error _ => []

/-- Nothing failed, so that the run may retire what it did not observe. -/
def HourlyRun.mayRetire (run : HourlyRun) : Bool :=
  !run.accountFailed && run.persistenceFailures.isEmpty && !run.reports.rows.isEmpty

/-- The end of `sync_all`: the retirement of a clean run, and the result. -/
def HourlyRun.finish (stores : SyncStores) (run : HourlyRun) (errors : List String) :
    HourlyOutcome :=
  let result : CloudSyncResult := {
    regions := run.reports.rows.insertionSort fun first second ↦ first.regionId ≤ second.regionId
    offersWritten := run.offersWritten
    markedUnavailable := 0
    verified := run.verified
    verifiedAccounts := run.verifiedAccounts
    persistenceFailures := run.persistenceFailures
    errors := if run.reports.rows.isEmpty && errors.isEmpty then
        ["provider returned no readable regions"]
      else errors }
  if run.mayRetire then
    match stores.markFault with
    | some raised =>
      let failures := run.persistenceFailures ++ [s!"mark_unavailable: {raised.message}"]
      { result := .ok { result with persistenceFailures := failures }
        offers := run.offers
        writes := run.writes }
    | none =>
      let model := some billingModelHourly
      let marked := markedUnavailable run.offers providerKey run.available model none
      { result := .ok { result with markedUnavailable := marked }
        offers := markUnavailable run.offers providerKey run.available model none
        writes := run.writes }
  else { result := .ok result, offers := run.offers, writes := run.writes }

/-- `LeasewebHourlyCloudSyncer.sync_all`. -/
def LeasewebHourlyCloudSyncer.syncAll (syncer : LeasewebHourlyCloudSyncer) (stores : SyncStores)
    (offers : OfferTable) : HourlyOutcome :=
  match syncer.collect with
  | .error raised => { result := .error raised, offers := offers, writes := [] }
  | .ok collected =>
    let published := publishPairs stores collected.observations (stores.currentOwners offers)
      stores.limitReachedAccounts
      { offers := offers, reports := collected.reports, accountFailed := collected.accountFailed }
      (observedPairs collected.observations)
    match published.2 with
    | some raised =>
      { result := .error raised, offers := published.1.offers, writes := published.1.writes }
    | none => published.1.finish stores collected.errors

end CloudPlatform.Leaseweb
