import CloudPlatform.Leaseweb.CatalogRuns

/-!
# The republication after a capacity refusal

`LeasewebCapacityRepublisher.after_capacity_refusal`: for every pair that the refused account
publishes, the other enabled accounts are read, a list of regions once for each account and types
and images for each pair; a pair that `select_hourly_owner` publishes through one of them is
re-pinned, and what is left of the refused account's offers is unpublished.
-/

namespace CloudPlatform.Leaseweb

open Offers Providers

/-- One account of the router, with what its reads answer while each pair is proved. -/
structure RouterAccount where
  accountId : String
  enabled : Bool := true
  hasClient : Bool := true
  regions : Pair → Result (List String)
  types : Pair → Result (List CloudInstanceType)
  images : Pair → Result (List String)

/-- The republisher's collaborators in one call. -/
structure LeasewebCapacityRepublisher where
  accounts : List RouterAccount
  capacity : Option (Result (List String)) := none
  ownersFault : Option Raised := none
  upsertFault : Pair → Option Raised := fun _ ↦ none
  markFault : Option Raised := none

/-- A pair that moved, with its new account, or one that did not, with the reason. -/
structure PairNote where
  productId : String
  locationId : String
  note : String

/-- What one post-refusal publication refresh did. -/
structure CapacityRepublishReport where
  providerKey : String
  credentialAccountId : String
  pairsConsidered : ℕ := 0
  rerouted : List PairNote := []
  unpublished : ℕ := 0
  unproven : List PairNote := []
  errors : List String := []

/-! ### The proof of a pair -/

/-- The region lists read so far, by account. -/
abbrev KnownRegions := String → Option (List String)

/-- The image capability as the republisher reads it: an inconclusive read proves nothing, every
other failure refuses. -/
def probedImagesState : Result (List String) → ImagesState
  | .ok images => if images.isEmpty then .empty else .ok
  | .error raised =>
    if raised.kind ∈ [ErrorKind.providerUnavailable, .providerRateLimited] then .unknown
    else .rejected

/-- What the reads of a pair have found: the accounts that listed it, the region lists that are
known now, and the errors. -/
structure PairReads where
  ranked : List RankedEntry := []
  known : KnownRegions
  errors : List String := []

/-- `_prove_pair` once the regions of the account are known. -/
def RouterAccount.proveAt (account : RouterAccount) (pair : Pair) (known : KnownRegions)
    (regions : List String) : PairReads :=
  if pair.2 ∉ regions then { known := known }
  else match account.types pair with
    | .error raised =>
      { known := known
        errors := [s!"types[{account.accountId}/{pair.2}]: {typeName raised.kind}"] }
    | .ok types =>
      { known := known
        ranked := ((types.find? (·.id = pair.1)).map fun item ↦
          ⟨account.accountId, probedImagesState (account.images pair), item⟩).toList }

/-- `_prove_pair`. -/
def RouterAccount.provePair (account : RouterAccount) (pair : Pair) (known : KnownRegions) :
    PairReads :=
  if !account.hasClient then { known := known }
  else match known account.accountId with
    | some regions => account.proveAt pair known regions
    | none => match account.regions pair with
      | .error raised =>
        { known := known, errors := [s!"regions[{account.accountId}]: {typeName raised.kind}"] }
      | .ok regions =>
        account.proveAt pair (Function.update known account.accountId (some regions)) regions

/-- The accounts that listed the pair, in account order. -/
def rankPair (pair : Pair) : List RouterAccount → KnownRegions → PairReads
  | [], known => { known := known }
  | account :: rest, known =>
    let proved := account.provePair pair known
    let others := rankPair pair rest proved.known
    { ranked := proved.ranked ++ others.ranked
      known := others.known
      errors := proved.errors ++ others.errors }

/-! ### The pairs -/

/-- The accumulators of the loop over the pairs. -/
structure RepublishRun where
  offers : OfferTable
  known : KnownRegions := fun _ ↦ none
  errors : List String := []
  rerouted : List PairNote := []
  unproven : List PairNote := []

def RepublishRun.leave (run : RepublishRun) (pair : Pair) (reason : String) : RepublishRun :=
  { run with unproven := run.unproven ++ [⟨pair.1, pair.2, reason⟩] }

/-- The upsert of a re-pinned pair, or the exception of its update or of the store. -/
def reassign (fault : Option Raised) (offers : OfferTable) (pair : Pair) (choice : OwnerChoice) :
    Result OfferRow × OfferTable :=
  match offerSpecFromItem choice.item pair.2 true choice.accountId with
  | .error raised => (.error raised, offers)
  | .ok update => match fault with
    | some raised => (.error raised, offers)
    | none =>
      upsertFromProvider offers providerKey pair.1 pair.2 update (some choice.accountId)

/-- One pair of the refused account, with the accounts that listed it. -/
def RepublishRun.settle (fault : Option Raised) (account : String) (limitReached : List String)
    (run : RepublishRun) (pair : Pair) (ranked : List RankedEntry) : RepublishRun :=
  match selectHourlyOwner ranked (some account) (account :: limitReached) with
  | none => run.leave pair "no-other-account"
  | some choice =>
    if choice.accountId = account ∨ choice.published = false then
      run.leave pair (if truthy choice.reason then textOf choice.reason else "unproven")
    else
      let reassigned := reassign fault run.offers pair choice
      match reassigned.1 with
      | .error raised =>
        { run with
          offers := reassigned.2
          errors := run.errors ++
            [s!"reassign {pair.1}/{pair.2}: {typeName raised.kind}"] }.leave
          pair "persistence-failed"
      | .ok _ =>
        { run with
          offers := reassigned.2
          rerouted := run.rerouted ++ [⟨pair.1, pair.2, choice.accountId⟩] }

namespace LeasewebCapacityRepublisher

variable (republisher : LeasewebCapacityRepublisher)

/-- `_limited_accounts`. -/
def limitedAccounts (refused : String) : List String :=
  match republisher.capacity with
  | some (.ok accounts) => accounts
  | _ => [refused]

/-- The accounts that are asked for a proof. -/
def candidates (account : String) : List RouterAccount :=
  republisher.accounts.filter fun candidate ↦
    candidate.enabled && candidate.accountId ≠ account &&
      candidate.accountId ∉ republisher.limitedAccounts account

def settlePair (account : String) (run : RepublishRun) (pair : Pair) : RepublishRun :=
  let reads := rankPair pair (republisher.candidates account) run.known
  { run with known := reads.known, errors := run.errors ++ reads.errors }.settle
    (republisher.upsertFault pair) account (republisher.limitedAccounts account) pair reads.ranked

/-- The pairs that the account publishes, in order. -/
def pairsOf (offers : OfferTable) (account : String) : List Pair :=
  ((offers.rows.filter fun row ↦ row.providerKey = providerKey ∧
    row.billingModel = billingModelHourly ∧ strip row.account ≠ "" ∧
      strip row.account = account).map fun row ↦ (row.productId, row.locationId)).insertionSort
    fun first second ↦ toLex first ≤ toLex second

/-- `after_capacity_refusal`: the report and the catalog. -/
def afterCapacityRefusal (offers : OfferTable) (provider : String)
    (credentialAccountId : Option String) : CapacityRepublishReport × OfferTable :=
  let account := strip (textOf credentialAccountId)
  let report : CapacityRepublishReport :=
    { providerKey := provider, credentialAccountId := account }
  if provider ≠ providerKey ∨ account = "" then (report, offers)
  else if republisher.ownersFault.isSome then (report, offers)
  else
    let pairs := pairsOf offers account
    if pairs.isEmpty then (report, offers)
    else
      let run := pairs.foldl (republisher.settlePair account) { offers := offers }
      let marked := { report with
        pairsConsidered := pairs.length
        rerouted := run.rerouted
        unproven := run.unproven
        errors := run.errors }
      match republisher.markFault with
      | some raised => ({ marked with
          errors := run.errors ++ [s!"mark_unavailable: {typeName raised.kind}"] }, run.offers)
      | none =>
        let model := some billingModelHourly
        ({ marked with
            unpublished := markedUnavailable run.offers providerKey [] model (some account) },
          markUnavailable run.offers providerKey [] model (some account))

end LeasewebCapacityRepublisher

end CloudPlatform.Leaseweb
