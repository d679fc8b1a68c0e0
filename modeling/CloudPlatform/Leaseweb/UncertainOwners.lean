import CloudPlatform.Leaseweb.OrderingRuns

/-!
# Offers whose owner gave no answer

A monthly offer whose account gave no conclusive answer for its location in a run should stay on
sale unless the run wrote its product anew. Retirement goes by location, and the verdicts of all
accounts on a location are merged, so that the offer stays exactly if the location is still
unsettled or the run never comes to its retirement.
-/

namespace CloudPlatform.Leaseweb

open Offers ProviderRoutes
open LeaseWebOrderingCatalogSyncer (exists_chosen_iff mem_candidateLocations)
open Rows (Table)

/-- The verdicts of a probe that say nothing about a location. -/
def inconclusiveVerdicts : List LocationEligibility :=
  [.transientThrottled, .transientUnknown, .fatalAuthentication]

/-- An offer that was on sale, of an account that gave no conclusive answer for its location in this
run. -/
structure UncertainRow (syncer : LeaseWebOrderingCatalogSyncer) (stores : OrderingStores)
    (offers : OfferTable) (routes : RouteTable) (row : OfferRow) : Prop where
  stored : row ∈ offers.rows
  provider : row.providerKey = providerKey
  monthly : row.billingModel = billingModelMonthly
  available : row.providerAvailable = true
  owned : strip row.account ≠ ""
  uncertain : ∀ discovered ∈ syncer.discoveries stores routes,
    storedAccount discovered.account.accountId = storedAccount row.account →
      ∀ probe, discovered.discovery.probeAt row.locationId = some probe →
        probe.eligibility ∈ inconclusiveVerdicts

/-- The row of the write is stored, whether or not its store then answers. -/
def OrderingWrite.commits (write : OrderingWrite) (stores : OrderingStores) (offers : OfferTable) :
    Bool :=
  (stores.upsertFault write.supply.pair).isNone &&
    (observedRow (offers.get (monthlyKey write.supply.pair)).toList (monthlyKey write.supply.pair)
      write.update (some write.supply.account.accountId)).isOk

/-- A run wrote a new observation of a pair. -/
def WroteAnew (syncer : LeaseWebOrderingCatalogSyncer) (stores : OrderingStores)
    (offers : OfferTable) (routes : RouteTable) (pair : Pair) : Prop :=
  ∃ write ∈ (syncer.syncProducts stores offers routes).writes,
    write.supply.pair = pair ∧ write.commits stores offers = true

/-- A run retires no offer of an account that gave no conclusive answer. -/
def KeepsUncertainRows (syncer : LeaseWebOrderingCatalogSyncer) (stores : OrderingStores)
    (offers : OfferTable) (routes : RouteTable) : Prop :=
  ∀ row, UncertainRow syncer stores offers routes row →
    ¬ WroteAnew syncer stores offers routes (row.productId, row.locationId) →
    ∃ after, (syncer.syncProducts stores offers routes).offers.get row.key = some after ∧
      after.providerAvailable = true

/-! ### When they stay -/

/-- The run comes to its retirement. -/
structure ComesToRetire (syncer : LeaseWebOrderingCatalogSyncer) (stores : OrderingStores)
    (offers : OfferTable) (routes : RouteTable) : Prop where
  aggregates : syncer.Aggregates (stores.priorRoutes routes) (syncer.discoveries stores routes)
  probed : ∃ discovered ∈ syncer.discoveries stores routes, discovered.discovery.probes ≠ []
  readable : (stores.currentRows offers).isSome = true
  stored : ∀ supply ∈ syncer.chosen (stores.priorRoutes routes) (syncer.discoveries stores routes),
    supply.storedIn stores offers = true
  routed : ∀ observation ∈ routeObservations (syncer.discoveries stores routes),
    strip observation.locationId ≠ "" ∧ stores.routeFault observation = none
  marked : stores.markFault = none

/-- No answer settles a location: no account probed it, or none that may serve it does and the
verdict of one, fresh or remembered, is missing or not definitive. -/
def Unsettled (syncer : LeaseWebOrderingCatalogSyncer) (prior : List ProviderRoute)
    (discoveries : List Discovered) (location : String) : Prop :=
  (∀ discovered ∈ discoveries, discovered.discovery.probeAt location = none) ∨
    (∀ discovered ∈ discoveries, discovered.verdict prior location = some .eligibleAvailable →
      syncer.stateOf discovered.account.accountId = .disabled) ∧
    ∃ discovered ∈ discoveries, ∀ verdict, discovered.verdict prior location = some verdict →
      verdict ∉ definitiveNegativeVerdicts

/-- The catalog reads an offer as available under the account of the row. -/
def Readable (offers : OfferTable) (row : OfferRow) : Prop :=
  ∃ other ∈ offers.rows, other.providerKey = providerKey ∧ other.providerAvailable = true ∧
    other.moneyValid = true ∧ other.productId = row.productId ∧
    other.locationId = row.locationId ∧ strip other.account = row.account

/-- The offers that no account supplies anew stand at unsettled locations. -/
def UncertainUnsettled (syncer : LeaseWebOrderingCatalogSyncer) (stores : OrderingStores)
    (offers : OfferTable) (routes : RouteTable) : Prop :=
  ComesToRetire syncer stores offers routes →
    ∀ row, UncertainRow syncer stores offers routes row →
      (∀ supply ∈ syncer.suppliesAt (stores.priorRoutes routes) (syncer.discoveries stores routes)
        row.locationId, supply.product.id ≠ row.productId) →
      Unsettled syncer (stores.priorRoutes routes) (syncer.discoveries stores routes)
        row.locationId ∧ Readable offers row

/-! ### Locations -/

section Locations

variable {syncer : LeaseWebOrderingCatalogSyncer} {prior : List ProviderRoute}
  {discoveries : List Discovered} {location : String}

theorem serving_eq_nil : syncer.serving prior discoveries location = [] ↔
    ∀ discovered ∈ discoveries, discovered.verdict prior location = some .eligibleAvailable →
      syncer.stateOf discovered.account.accountId = .disabled := by
  rw [LeaseWebOrderingCatalogSyncer.serving, List.filter_eq_nil_iff]
  simp

/-- A location is resolved exactly if it is settled. -/
theorem mem_resolved : location ∈ syncer.resolved prior discoveries ↔
    ¬ Unsettled syncer prior discoveries location := by
  rw [LeaseWebOrderingCatalogSyncer.resolved, List.mem_filter, mem_candidateLocations, Unsettled,
    not_or, ← serving_eq_nil]
  have hcandidate : (∃ discovered ∈ discoveries, discovered.discovery.probeAt location ≠ none) ↔
      ¬ ∀ discovered ∈ discoveries, discovered.discovery.probeAt location = none := by
    push Not
    rfl
  rw [hcandidate]
  refine and_congr_right fun hprobed ↦ ?_
  obtain ⟨prober, hprober, hprobe⟩ := hcandidate.mpr hprobed
  have hknown : (discoveries.map (·.verdict prior location)).any (·.isSome) = true := by
    obtain ⟨probe, hprobe⟩ := Option.ne_none_iff_exists'.mp hprobe
    refine List.any_eq_true.mpr ⟨_, List.mem_map_of_mem hprober, ?_⟩
    rw [Discovered.verdict, hprobe]
    rfl
  have hdecided : (discoveries.map (·.verdict prior location)).all
      (fun verdict ↦ verdict.any (· ∈ definitiveNegativeVerdicts)) = true ↔
      ¬ ∃ discovered ∈ discoveries, ∀ verdict, discovered.verdict prior location = some verdict →
        verdict ∉ definitiveNegativeVerdicts := by
    rw [List.all_eq_true, List.forall_mem_map]
    push Not
    refine forall₂_congr fun discovered _ ↦ ?_
    cases discovered.verdict prior location with
    | none => simp
    | some verdict => simp
  rw [LeaseWebOrderingCatalogSyncer.resolves, hknown, Bool.true_and, Bool.or_eq_true, hdecided,
    not_and_or, Bool.not_eq_true', List.isEmpty_eq_false_iff]

end Locations

/-! ### The retirement pass -/

section Retirement

variable {syncer : LeaseWebOrderingCatalogSyncer} {stores : OrderingStores} {offers : OfferTable}
  {routes : RouteTable} {row : OfferRow}

/-- What `list_all` makes of a row. -/
theorem toDomain_eq_ok {read : OfferRow} (h : row.toDomain = .ok read) :
    read.providerKey = row.providerKey ∧ read.triple = ⟨strip row.account, row.productId,
      row.locationId⟩ ∧ read.providerAvailable = (row.moneyValid && row.providerAvailable) := by
  unfold OfferRow.toDomain at h
  obtain ⟨-, -, hread⟩ := bind_eq_ok.mp h
  have haccount : textOf (row.providerAccountId.map strip) = strip row.account := by
    rw [OfferRow.account]
    cases row.providerAccountId with
    | none => rfl
    | some account => rfl
  split at hread
  · rename_i hvalid
    obtain rfl := pure_eq_ok.mp hread
    rw [hvalid]
    exact ⟨rfl, by rw [← haccount]; rfl, rfl⟩
  · rename_i hvalid
    obtain rfl := pure_eq_ok.mp hread
    rw [Bool.eq_false_iff.mpr hvalid]
    exact ⟨rfl, by rw [← haccount]; rfl, rfl⟩

/-- Which triples the retirement preserves. -/
theorem mem_preservedTriples {rows : List OfferRow} (hrows : stores.currentRows offers = some rows)
    {resolved : List String} {triple : AccountOffer} :
    triple ∈ preservedTriples rows resolved ↔ triple.locationId ∉ resolved ∧
      ∃ other ∈ offers.rows, other.providerKey = providerKey ∧ other.providerAvailable = true ∧
        other.moneyValid = true ∧
        triple = ⟨strip other.account, other.productId, other.locationId⟩ := by
  have hlisted : offers.rows.mapM OfferRow.toDomain = .ok rows := by
    change listAll offers = .ok rows
    unfold OrderingStores.currentRows at hrows
    split at hrows
    · cases hrows
    · cases hlist : listAll offers with
      | error raised =>
        rw [hlist] at hrows
        cases hrows
      | ok listed =>
        rw [hlist] at hrows
        rw [Option.some.inj hrows]
  simp only [preservedTriples, availableRows, List.mem_map, List.mem_filter, Bool.and_eq_true,
    decide_eq_true_eq]
  constructor
  · rintro ⟨read, ⟨⟨hmem, hprovider, havailable⟩, hlocation⟩, rfl⟩
    obtain ⟨other, hother, hdomain⟩ := (mem_of_mapM_eq_ok hlisted).mp hmem
    obtain ⟨hkey, htriple, hvalid⟩ := toDomain_eq_ok hdomain
    rw [hvalid, Bool.and_eq_true] at havailable
    exact ⟨hlocation, other, hother, hkey ▸ hprovider, havailable.2, havailable.1, htriple⟩
  · rintro ⟨hlocation, other, hother, hprovider, havailable, hvalid, rfl⟩
    obtain ⟨read, hdomain⟩ := exists_of_mapM_eq_ok hlisted hother
    obtain ⟨hkey, htriple, hread⟩ := toDomain_eq_ok hdomain
    refine ⟨read, ⟨⟨(mem_of_mapM_eq_ok hlisted).mpr ⟨other, hother, hdomain⟩, ?_, ?_⟩, ?_⟩, htriple⟩
    · rw [hkey, hprovider]
    · rw [hread, hvalid, havailable]
      rfl
    · rw [← congrArg AccountOffer.locationId htriple] at hlocation
      exact hlocation

/-- A monthly row that was on sale stays so through a retirement exactly if it is observed. -/
theorem providerAvailable_retire (hprovider : row.providerKey = providerKey)
    (hmonthly : row.billingModel = billingModelMonthly) (havailable : row.providerAvailable = true)
    (observed : List AccountOffer) :
    (row.retire providerKey observed (some billingModelMonthly) none).providerAvailable = true ↔
      row.triple ∈ observed := by
  have hscope : row.inScope providerKey (some billingModelMonthly) none = true := by
    simp [OfferRow.inScope, hprovider, hmonthly]
  unfold OfferRow.retire
  rw [hscope, Bool.true_and]
  by_cases hobserved : row.triple ∈ observed
  · simp [hobserved, havailable]
  · simp [hobserved]

theorem commits_of_storedIn {write : OrderingWrite}
    (hupdate : write.supply.update = .ok write.update)
    (hstored : write.supply.storedIn stores offers = true) :
    write.commits stores offers = true := by
  rw [Supply.storedIn, accepted_eq hupdate, Bool.and_eq_true] at hstored
  rw [OrderingWrite.commits, hstored.1, Bool.true_and]
  revert hstored
  cases observedRow (offers.get (monthlyKey write.supply.pair)).toList
    (monthlyKey write.supply.pair) write.update (some write.supply.account.accountId) with
  | error raised => simp [bind, Except.bind, Except.isOk, Except.toBool]
  | ok row => exact fun _ ↦ rfl

/-- A write that does not commit leaves the row. -/
theorem lands_of_not_commits {write : OrderingWrite} (h : write.commits stores offers = false) :
    write.lands (stores.upsertFault write.supply.pair) (offers.get (monthlyKey write.supply.pair)) =
        offers.get (monthlyKey write.supply.pair) := by
  rw [OrderingWrite.commits] at h
  unfold OrderingWrite.lands
  cases hfault : stores.upsertFault write.supply.pair with
  | some raised => rfl
  | none =>
    rw [hfault, Option.isNone_none, Bool.true_and] at h
    rw [if_neg (by simp), landed]
    cases hrow : observedRow (offers.get (monthlyKey write.supply.pair)).toList
      (monthlyKey write.supply.pair) write.update (some write.supply.account.accountId) with
    | error raised => rfl
    | ok row =>
      rw [hrow] at h
      cases h

/-- A pair that a ledger did not write anew reads as before. -/
theorem Ledger.get_of_not_commits {run : OrderingRun} (h : Ledger stores offers run) {pair : Pair}
    (hwrites : ∀ write ∈ run.writes, write.supply.pair = pair →
      write.commits stores offers = false) :
    run.offers.get (monthlyKey pair) = offers.get (monthlyKey pair) := by
  rw [h.offers_eq, get_replay h.updates]
  have hleft : ∀ writes : List OrderingWrite, (∀ write ∈ writes, write.supply.pair = pair ∧
      write.commits stores offers = false) →
        writes.foldl (fun row write ↦ write.lands (stores.upsertFault write.supply.pair) row)
          (offers.get (monthlyKey pair)) = offers.get (monthlyKey pair) := by
    intro writes hall
    induction writes with
    | nil => rfl
    | cons write rest ih =>
      obtain ⟨⟨hpair, hcommits⟩, hrest⟩ := List.forall_mem_cons.mp hall
      rw [List.foldl_cons, ← hpair, lands_of_not_commits hcommits, hpair]
      exact ih hrest
  refine hleft _ fun write hwrite ↦ ?_
  obtain ⟨hmem, hpair⟩ := List.mem_filter.mp hwrite
  rw [decide_eq_true_iff] at hpair
  exact ⟨hpair, hwrites write hmem hpair⟩

/-- A run that comes to its end retires exactly under these conditions. -/
theorem mayRetire_iff
    (hends : syncer.Aggregates (stores.priorRoutes routes) (syncer.discoveries stores routes))
    (hrecorded : RecordedAll stores { offers := offers }
      (syncer.chosen (stores.priorRoutes routes) (syncer.discoveries stores routes))
      (syncer.aggregated stores offers routes).1) :
    syncer.MayRetire stores (stores.currentRows offers) (syncer.discoveries stores routes)
        (syncer.aggregated stores offers routes).1 routes ∧ stores.markFault = none ↔
      ComesToRetire syncer stores offers routes := by
  have hprovider : strip providerKey ≠ "" := by decide +kernel
  constructor
  · rintro ⟨hmay, hmarked⟩
    exact ⟨hends, hmay.probed, hmay.readable, (hrecorded.failures.mp hmay.stored).2,
      (upsertObservations_eq hprovider).1.mp hmay.routed, hmarked⟩
  · intro h
    exact ⟨⟨h.probed, h.readable, hrecorded.failures.mpr ⟨rfl, h.stored⟩,
      (upsertObservations_eq hprovider).1.mpr h.routed⟩, h.marked⟩

theorem UncertainRow.key_eq (h : UncertainRow syncer stores offers routes row) :
    row.key = monthlyKey (row.productId, row.locationId) := by
  rw [OfferRow.key, h.provider, h.monthly]
  rfl

/-- An offer that the writes of a run left reads as before. -/
theorem UncertainRow.get_aggregated (h : UncertainRow syncer stores offers routes row)
    (hwrote : ¬ ∃ write ∈ (syncer.aggregated stores offers routes).1.writes,
      write.supply.pair = (row.productId, row.locationId) ∧ write.commits stores offers = true) :
    (syncer.aggregated stores offers routes).1.offers.get row.key = some row := by
  rw [h.key_eq, (syncer.ledger_aggregated stores offers routes).get_of_not_commits, ← h.key_eq]
  · exact Table.mem_iff_get.mp h.stored
  · intro write hwrite hpair
    rw [← Bool.not_eq_true]
    exact fun hcommits ↦ hwrote ⟨write, hwrite, hpair, hcommits⟩

/-- A run that stores all its supplies writes those pairs anew that some account supplies. -/
theorem exists_commits_iff (hrecorded : RecordedAll stores { offers := offers }
      (syncer.chosen (stores.priorRoutes routes) (syncer.discoveries stores routes))
      (syncer.aggregated stores offers routes).1)
    (hretires : ComesToRetire syncer stores offers routes) (pair : Pair) :
    (∃ write ∈ (syncer.aggregated stores offers routes).1.writes,
        write.supply.pair = pair ∧ write.commits stores offers = true) ↔
      ∃ supply ∈ syncer.suppliesAt (stores.priorRoutes routes) (syncer.discoveries stores routes)
        pair.2, supply.product.id = pair.1 := by
  rw [← exists_chosen_iff]
  constructor
  · rintro ⟨write, hwrite, hpair, -⟩
    rcases (hrecorded.writes write).mp hwrite with hnone | ⟨hchosen, -⟩
    · cases hnone
    · exact ⟨write.supply, hchosen, hpair⟩
  · rintro ⟨supply, hchosen, hpair⟩
    obtain ⟨update, hupdate⟩ := exists_update (hretires.aggregates.fits supply hchosen)
    refine ⟨⟨supply, update⟩, (hrecorded.writes _).mpr (Or.inr ⟨hchosen, hupdate⟩), hpair, ?_⟩
    exact commits_of_storedIn hupdate (hretires.stored supply hchosen)

/-- The retirement observes an offer that no account supplies anew exactly if its location is
unsettled and the offer reads as available. -/
theorem mem_observed_iff (hrecorded : RecordedAll stores { offers := offers }
      (syncer.chosen (stores.priorRoutes routes) (syncer.discoveries stores routes))
      (syncer.aggregated stores offers routes).1)
    (hreadable : (stores.currentRows offers).isSome = true)
    (hsupplies : ∀ supply ∈ syncer.suppliesAt (stores.priorRoutes routes)
      (syncer.discoveries stores routes) row.locationId, supply.product.id ≠ row.productId) :
    row.triple ∈ (syncer.aggregated stores offers routes).1.verifiedAccounts ++
        preservedTriples ((stores.currentRows offers).getD [])
          (syncer.resolved (stores.priorRoutes routes) (syncer.discoveries stores routes)) ↔
      Unsettled syncer (stores.priorRoutes routes) (syncer.discoveries stores routes)
        row.locationId ∧ Readable offers row := by
  obtain ⟨rows, hrows⟩ := Option.isSome_iff_exists.mp hreadable
  have hnot : row.triple ∉ (syncer.aggregated stores offers routes).1.verifiedAccounts := by
    rw [hrecorded.verified, List.nil_append]
    intro hmem
    obtain ⟨supply, hsupply, htriple⟩ := List.mem_map.mp hmem
    have hpair : supply.pair = (row.productId, row.locationId) :=
      Prod.ext (congrArg AccountOffer.productId htriple) (congrArg AccountOffer.locationId htriple)
    obtain ⟨other, hother, hproduct⟩ :=
      exists_chosen_iff.mp ⟨supply, List.mem_of_mem_filter hsupply, hpair⟩
    exact hsupplies other hother hproduct
  rw [List.mem_append, or_iff_right hnot, hrows, Option.getD_some, mem_preservedTriples hrows,
    mem_resolved, not_not]
  refine and_congr_right fun _ ↦ exists_congr fun other ↦ and_congr_right fun _ ↦
    and_congr_right fun _ ↦ and_congr_right fun _ ↦ and_congr_right fun _ ↦ ?_
  rw [OfferRow.triple, AccountOffer.mk.injEq]
  constructor
  · rintro ⟨haccount, hproduct, hlocation⟩
    exact ⟨hproduct.symm, hlocation.symm, haccount.symm⟩
  · rintro ⟨hproduct, hlocation, haccount⟩
    exact ⟨haccount.symm, hproduct.symm, hlocation.symm⟩

end Retirement

/-- The offers without an answer stay exactly if those that nobody supplies anew stand at unsettled
locations. -/
theorem keepsUncertainRows_iff (syncer : LeaseWebOrderingCatalogSyncer) (stores : OrderingStores)
    (offers : OfferTable) (routes : RouteTable) :
    KeepsUncertainRows syncer stores offers routes ↔
      UncertainUnsettled syncer stores offers routes := by
  have hsynced := syncer.syncProducts_cases stores offers routes
  unfold KeepsUncertainRows WroteAnew
  generalize syncer.syncProducts stores offers routes = outcome at hsynced
  cases hsynced with
  | interrupted raised hends =>
    constructor
    · intro _ hretires
      exact absurd hretires.aggregates hends
    · intro _ row hrow hwrote
      exact ⟨row, hrow.get_aggregated hwrote, hrow.available⟩
  | finished hends hrecorded =>
    have hend := syncer.endsAs_finish stores (stores.currentRows offers)
      (stores.priorRoutes routes) (syncer.discoveries stores routes)
      (syncer.aggregated stores offers routes).1 routes
    generalize syncer.finish stores (stores.currentRows offers) (stores.priorRoutes routes)
      (syncer.discoveries stores routes) (syncer.aggregated stores offers routes).1 routes
        = outcome at hend
    have hiff := mayRetire_iff hends hrecorded
    rw [hend.writes]
    by_cases hretires : ComesToRetire syncer stores offers routes
    · -- The row is retired exactly if its triple is not observed.
      obtain ⟨hmay, hmarked⟩ := hiff.mpr hretires
      have hretired (row : OfferRow) (hrow : UncertainRow syncer stores offers routes row)
          (hwrote : ¬ ∃ write ∈ (syncer.aggregated stores offers routes).1.writes,
            write.supply.pair = (row.productId, row.locationId) ∧
              write.commits stores offers = true) :
          (∃ after, outcome.offers.get row.key = some after ∧ after.providerAvailable = true) ↔
            Unsettled syncer (stores.priorRoutes routes) (syncer.discoveries stores routes)
              row.locationId ∧ Readable offers row := by
        have hsupplies := mt (exists_commits_iff hrecorded hretires _).mpr hwrote
        push Not at hsupplies
        rw [← mem_observed_iff hrecorded hretires.readable hsupplies,
          ← providerAvailable_retire hrow.provider hrow.monthly hrow.available,
          hend.retired hmay hmarked, hrow.get_aggregated hwrote, Option.map_some]
        simp
      constructor
      · intro h _ row hrow hsupplies
        have hwrote := mt (exists_commits_iff hrecorded hretires
          (row.productId, row.locationId)).mp (by push Not; exact hsupplies)
        exact (hretired row hrow hwrote).mp (h row hrow hwrote)
      · intro h row hrow hwrote
        refine (hretired row hrow hwrote).mpr (h hretires row hrow ?_)
        have hsupplies := mt (exists_commits_iff hrecorded hretires _).mpr hwrote
        push Not at hsupplies
        exact hsupplies
    · rw [hend.kept fun hmay ↦ hretires (hiff.mp hmay)]
      constructor
      · intro _ hcomes
        exact absurd hcomes hretires
      · intro _ row hrow hwrote
        exact ⟨row, hrow.get_aggregated hwrote, hrow.available⟩

/-! ### A location that another account settles -/

def smallProduct : LeasewebProduct where
  id := "vps-small"
  name := "VPS Small"
  location := "FRA-01"
  vcpu := 1
  ramGb := 2
  diskGb := 20
  currency := "EUR"
  monthlyPriceMinor := 499

def noDetail : OrderingRead LeasewebProductDetail :=
  .error .other

/-- The account `north` sells one product at FRA-01 and none elsewhere. -/
def northAccount : OrderingAccount where
  accountId := "north"
  probeLocation := fun location ↦
    .ok { eligibility := if location = "FRA-01" then .eligibleAvailable else .ineligibleAccount
          products := if location = "FRA-01" then [smallProduct] else [] }
  getProduct := fun _ _ ↦ noDetail
  reach := []
  announces := fun location probe h ↦ by
    obtain rfl := Except.ok.inj h
    exact fun _ hextra ↦ nomatch hextra
  sells := fun _ _ _ h ↦ nomatch h

/-- The probes of the account `south` time out. -/
def southAccount : OrderingAccount where
  accountId := "south"
  probeLocation := fun _ ↦ .error .other
  getProduct := fun _ _ ↦ noDetail
  reach := []
  announces := fun _ _ h ↦ nomatch h
  sells := fun _ _ _ h ↦ nomatch h

def northAndSouth : LeaseWebOrderingCatalogSyncer where
  accounts := [northAccount, southAccount]
  ordered := by decide +kernel
  spelled := by decide +kernel

/-- The monthly offer of `south` at FRA-01. -/
def southRow : OfferRow where
  providerKey := "leaseweb"
  productId := "vps-large"
  locationId := "FRA-01"
  billingModel := "prepaid_monthly_fixed"
  name := "VPS Large"
  vcpu := 4
  ramGb := 8
  diskGb := 80
  traffic := none
  providerCostMinor := 1999
  providerCostCurrency := "EUR"
  sellingCurrency := "EUR"
  providerAvailable := true
  providerAccountId := some "south"

def southOnly : OfferTable := ⟨[southRow], List.nodup_singleton _⟩

/-- The run retires the offer of `south`, whose probe timed out, because `north` serves the
location. -/
theorem northAndSouth_retires_south :
    ¬ KeepsUncertainRows northAndSouth {} southOnly ⟨[], List.nodup_nil⟩ := by
  intro h
  have hrow : UncertainRow northAndSouth {} southOnly ⟨[], List.nodup_nil⟩ southRow := by
    refine ⟨List.mem_singleton_self _, rfl, rfl, rfl, by decide +kernel, ?_⟩
    decide +kernel
  have hwrites : ∀ write ∈ (northAndSouth.syncProducts {} southOnly ⟨[], List.nodup_nil⟩).writes,
      write.supply.pair ≠ (southRow.productId, southRow.locationId) := by
    decide +kernel
  obtain ⟨after, hafter, havailable⟩ := h southRow hrow fun ⟨write, hmem, hpair, _⟩ ↦
    hwrites write hmem hpair
  have hretired : ∀ after ∈ (northAndSouth.syncProducts {} southOnly
      ⟨[], List.nodup_nil⟩).offers.get southRow.key, after.providerAvailable = false := by
    decide +kernel
  rw [hretired after hafter] at havailable
  cases havailable

end CloudPlatform.Leaseweb
