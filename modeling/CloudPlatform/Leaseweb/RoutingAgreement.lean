import CloudPlatform.Leaseweb.AccountSpelling

/-!
# The catalog and the routes of a run

A run of `sync_products` writes an offer under the first account that serves its location and lists
its product, and persists what every account answered as routes. Checkout later chooses an account
from the routes, by priority, lifecycle state and product list. The two agree on what a run sold,
and no account whose key was rejected is chosen, exactly if the sellers are active and the claims
that come before them, of stored routes and of accounts without a product list, do not reach the
location and product.
-/

namespace CloudPlatform.Leaseweb

open Offers ProviderRoutes
open Providers (normalizeAccountId)
open LeaseWebOrderingCatalogSyncer (account_mem_of_mem_discoveries map_account_discoverAll
  mem_suppliesAt)
open Rows (Table)

/-- The run returned, and every durable write succeeded. -/
def StoresAll (syncer : LeaseWebOrderingCatalogSyncer) (stores : OrderingStores)
    (offers : OfferTable) (routes : RouteTable) : Prop :=
  ∃ result, (syncer.syncProducts stores offers routes).result = .ok result ∧
    result.persistenceFailures = []

/-- What `select_route_account` answers over the routes that a run leaves. -/
def routedAfter (syncer : LeaseWebOrderingCatalogSyncer) (stores : OrderingStores)
    (offers : OfferTable) (routes : RouteTable) (location : String) (productId : Option String) :
    Option String :=
  selectRouteAccount
    (listForProvider (syncer.syncProducts stores offers routes).routes providerKey) location
    productId

/-- Catalog and routes agree on what a run put on sale, and no rejected account is chosen. -/
structure RoutesAgree (syncer : LeaseWebOrderingCatalogSyncer) (stores : OrderingStores)
    (offers : OfferTable) (routes : RouteTable) : Prop where
  sellers : ∀ write ∈ (syncer.syncProducts stores offers routes).writes,
    write.update.providerAvailable = true →
      routedAfter syncer stores offers routes write.supply.location
        (some write.supply.product.id) = some write.supply.account.accountId
  rejected : ∀ discovered ∈ syncer.discoveries stores routes,
    discovered.discovery.authFailed = true → ∀ location productId,
      routedAfter syncer stores offers routes location productId ≠
        some discovered.account.accountId

/-! ### Claims -/

/-- The key of an account was rejected, and the rejection is recorded at this location. -/
abbrev Discovered.rejectedAt (discovered : Discovered) (location : String) : Prop :=
  location = "*" ∧ discovered.discovery.authFailed = true

/-- An account claims a location and product by a probe of this run. -/
structure FreshClaim (syncer : LeaseWebOrderingCatalogSyncer) (discoveries : List Discovered)
    (location : String) (productId : Option String) (discovered : Discovered)
    (probe : LocationProbe) : Prop where
  mem : discovered ∈ discoveries
  probed : discovered.discovery.probeAt location = some probe
  eligible : probe.eligibility = .eligibleAvailable
  active : syncer.stateOf discovered.account.accountId = .active
  unrejected : ¬ discovered.rejectedAt location
  lists : ∀ product ∈ productId, probe.products ≠ [] → product ∈ probe.products.map (·.id)

/-- An account claims a location and product by a stored route that no observation of this run
replaces. -/
structure StaleClaim (routes : RouteTable) (discoveries : List Discovered) (location : String)
    (productId : Option String) (route : ProviderRoute) : Prop where
  stored : route ∈ routes.rows
  provider : route.providerKey = providerKey
  serves : route.servesAt location productId = true
  unrefreshed : ∀ discovered ∈ discoveries,
    discovered.account.accountId = route.credentialAccountId →
      discovered.discovery.probeAt location = none ∧ ¬ discovered.rejectedAt location

/-- The ranks of the claims on a location and product. -/
def Claims (syncer : LeaseWebOrderingCatalogSyncer) (routes : RouteTable)
    (discoveries : List Discovered) (location : String) (productId : Option String)
    (rank : ℕ ×ₗ String) : Prop :=
  (∃ discovered probe, FreshClaim syncer discoveries location productId discovered probe ∧
      accountRank syncer.priorities discovered.account.accountId = rank) ∨
    ∃ route, StaleClaim routes discoveries location productId route ∧ route.rank = rank

/-- The sellers of a run are active and claim what they sell before every other account, and
every claim of a rejected account comes after another. -/
structure ClaimsFit (syncer : LeaseWebOrderingCatalogSyncer) (stores : OrderingStores)
    (routes : RouteTable) : Prop where
  active : ∀ supply ∈ syncer.chosen (stores.priorRoutes routes) (syncer.discoveries stores routes),
    supply.gone = false → syncer.stateOf supply.account.accountId = .active
  unrejected : ∀ supply ∈ syncer.chosen (stores.priorRoutes routes)
      (syncer.discoveries stores routes), supply.gone = false →
    ∀ discovered ∈ syncer.discoveries stores routes,
      discovered.account.accountId = supply.account.accountId →
        ¬ discovered.rejectedAt supply.location
  stale : ∀ supply ∈ syncer.chosen (stores.priorRoutes routes) (syncer.discoveries stores routes),
    supply.gone = false → ∀ route,
      StaleClaim routes (syncer.discoveries stores routes) supply.location (some supply.product.id)
        route → accountRank syncer.priorities supply.account.accountId ≤ route.rank
  unlisted : ∀ supply ∈ syncer.chosen (stores.priorRoutes routes)
      (syncer.discoveries stores routes), supply.gone = false → ∀ discovered probe,
    FreshClaim syncer (syncer.discoveries stores routes) supply.location (some supply.product.id)
      discovered probe → probe.products = [] →
        accountRank syncer.priorities supply.account.accountId ≤
          accountRank syncer.priorities discovered.account.accountId
  rejected : ∀ discovered ∈ syncer.discoveries stores routes,
    discovered.discovery.authFailed = true → ∀ location productId rank,
      Claims syncer routes (syncer.discoveries stores routes) location productId rank →
        (ofLex rank).2 = discovered.account.accountId →
          ∃ earlier < rank,
            Claims syncer routes (syncer.discoveries stores routes) location productId earlier

/-! ### The routes that a run leaves -/

section Routes

variable {syncer : LeaseWebOrderingCatalogSyncer} {stores : OrderingStores} {routes : RouteTable}
  {discoveries : List Discovered} {discovered : Discovered} {location accountId : String}

/-- The discoveries of a run: of configured accounts, in the order of their ranks, with each
location probed once. -/
structure Ordered (syncer : LeaseWebOrderingCatalogSyncer) (discoveries : List Discovered) :
    Prop where
  pairwise : discoveries.Pairwise fun first second ↦
    accountRank syncer.priorities first.account.accountId <
      accountRank syncer.priorities second.account.accountId
  spelled : ∀ discovered ∈ discoveries,
    normalizeAccountId (some discovered.account.accountId) = discovered.account.accountId
  once : ∀ discovered ∈ discoveries, (discovered.discovery.probes.map (·.1)).Nodup

theorem ordered_discoveries (syncer : LeaseWebOrderingCatalogSyncer) (stores : OrderingStores)
    (routes : RouteTable) : Ordered syncer (syncer.discoveries stores routes) := by
  refine ⟨?_, fun discovered hmem ↦ ?_, ?_⟩
  · have hordered := syncer.ordered
    rw [← map_account_discoverAll stores (stores.priorRoutes routes) stores.locations
      syncer.accounts, List.pairwise_map] at hordered
    exact hordered
  · obtain ⟨hstrip, hne⟩ := syncer.spelled _ (account_mem_of_mem_discoveries hmem)
    rw [normalizeAccountId, Option.getD_some, hstrip, if_neg hne]
  · have honce : ∀ (accounts : List OrderingAccount) (rows : List String),
        ∀ discovered ∈ discoverAll stores (stores.priorRoutes routes) rows accounts,
          (discovered.discovery.probes.map (·.1)).Nodup := by
      intro accounts
      induction accounts with
      | nil => exact fun _ _ hmem ↦ absurd hmem List.not_mem_nil
      | cons account rest ih =>
        intro rows
        rw [discoverAll]
        exact List.forall_mem_cons.mpr ⟨nodup_probes account _ _, ih _⟩
    exact honce syncer.accounts stores.locations

theorem Ordered.nodup (h : Ordered syncer discoveries) :
    (discoveries.map (·.account.accountId)).Nodup := by
  rw [List.Nodup, List.pairwise_map]
  refine h.pairwise.imp fun hlt heq ↦ ?_
  rw [heq] at hlt
  exact lt_irrefl _ hlt

theorem Ordered.eq_of_accountId (h : Ordered syncer discoveries) {first second : Discovered}
    (hfirst : first ∈ discoveries) (hsecond : second ∈ discoveries)
    (hid : first.account.accountId = second.account.accountId) : first = second :=
  List.inj_on_of_nodup_map h.nodup hfirst hsecond hid

/-- The observation of a rejected key. -/
def Discovered.rejection (discovered : Discovered) : RouteObservation where
  credentialAccountId := discovered.account.accountId
  locationId := "*"
  state := .authFailed

/-- The observations of an account at a location: its probe, and then its rejection. -/
theorem filter_observations (honce : (discovered.discovery.probes.map (·.1)).Nodup) :
    discovered.observations.filter (·.locationId = location) =
      ((discovered.discovery.probeAt location).map
        (·.observation discovered.account.accountId location)).toList ++
        if location = "*" ∧ discovered.discovery.authFailed = true then [discovered.rejection]
        else [] := by
  rw [Discovered.observations, List.filter_append]
  congr 1
  · rw [List.filter_map]
    have hfilter : discovered.discovery.probes.filter
        ((fun observation : RouteObservation ↦ decide (observation.locationId = location)) ∘
          fun probe ↦ probe.2.observation discovered.account.accountId probe.1) =
        discovered.discovery.probes.filter (·.1 = location) := rfl
    rw [hfilter, Table.filter_eq_toList honce, AccountDiscovery.probeAt]
    cases hfind : discovered.discovery.probes.find? (·.1 = location) with
    | none => rfl
    | some probe =>
      have hlocation : probe.1 = location := by simpa using List.find?_some hfind
      rw [← hlocation]
      rfl
  · by_cases hfailed : discovered.discovery.authFailed = true
    · rw [if_pos hfailed]
      by_cases hlocation : location = "*"
      · rw [if_pos ⟨hlocation, hfailed⟩, hlocation]
        rfl
      · rw [if_neg fun h ↦ hlocation h.1, List.filter_cons_of_neg]
        · rfl
        · simpa using Ne.symm hlocation
    · rw [if_neg hfailed, if_neg fun h ↦ hfailed h.2]
      rfl

theorem credentialAccountId_of_mem_observations {observation : RouteObservation}
    (h : observation ∈ discovered.observations) :
    observation.credentialAccountId = discovered.account.accountId := by
  rcases List.mem_append.mp h with hprobe | hrejection
  · obtain ⟨probe, -, rfl⟩ := List.mem_map.mp hprobe
    rfl
  · split at hrejection
    · rw [List.mem_singleton.mp hrejection]
    · cases hrejection

/-- The observations of an account at a location, in those of a run. -/
theorem filter_routeObservations (h : Ordered syncer discoveries)
    (hmem : discovered ∈ discoveries) : (routeObservations discoveries).filter (fun observation ↦
        observation.credentialAccountId = discovered.account.accountId ∧
          observation.locationId = location) =
      discovered.observations.filter (·.locationId = location) := by
  rw [routeObservations, List.filter_flatMap]
  rw [flatMap_eq_of_mem h.nodup hmem fun other _ hne ↦ ?_]
  · refine List.filter_congr fun observation hobservation ↦ ?_
    simp [credentialAccountId_of_mem_observations hobservation]
  · refine List.filter_eq_nil_iff.mpr fun observation hobservation ↦ ?_
    simp [credentialAccountId_of_mem_observations hobservation, hne]

/-- A route that a probe and a rejection leave at a location. -/
def Discovered.routeAt (discovered : Discovered) (syncer : LeaseWebOrderingCatalogSyncer)
    (location : String) (before : Option ProviderRoute) : Option ProviderRoute :=
  (discovered.observations.filter (·.locationId = location)).foldl
    (fun row observation ↦ some ((observation.routed providerKey syncer.priorityOf
      syncer.stateOf).over (observation.state = .eligibleAvailable) row)) before

/-- The key of a route at a location. -/
def routeKeyOf (accountId location : String) : RouteKey :=
  ⟨providerKey, accountId, location⟩

/-- What the routes of a run read for an account at a location. -/
theorem get_persisted (h : Ordered syncer discoveries)
    (hrouted : (syncer.persisted stores discoveries routes).2 = none) (id location : String) :
    (syncer.persisted stores discoveries routes).1.get (routeKeyOf id location) =
      ((routeObservations discoveries).filter fun observation ↦
          observation.credentialAccountId = id ∧ observation.locationId = location).foldl
        (fun row observation ↦ some ((observation.routed providerKey syncer.priorityOf
          syncer.stateOf).over (observation.state = .eligibleAvailable) row))
        (routes.get (routeKeyOf id location)) := by
  have hprovider : strip providerKey ≠ "" := by decide +kernel
  have hfold := (upsertObservations_eq hprovider).2 hrouted
  change (syncer.persisted stores discoveries routes).1 = _ at hfold
  rw [hfold, get_foldl_upsertRoute]
  refine congrArg (List.foldl _ _) (List.filter_congr fun observation hobservation ↦ ?_)
  obtain ⟨other, hother, hof⟩ := List.mem_flatMap.mp hobservation
  have hspelled : normalizeAccountId (some observation.credentialAccountId) =
      observation.credentialAccountId := by
    rw [credentialAccountId_of_mem_observations hof]
    exact h.spelled other hother
  simp [ProviderRoute.key, RouteObservation.routed, routeKeyOf, hspelled]

theorem get_persisted_of_mem (h : Ordered syncer discoveries)
    (hrouted : (syncer.persisted stores discoveries routes).2 = none)
    (hmem : discovered ∈ discoveries) (location : String) :
    (syncer.persisted stores discoveries routes).1.get
        (routeKeyOf discovered.account.accountId location) = discovered.routeAt syncer location
        (routes.get (routeKeyOf discovered.account.accountId location)) := by
  rw [get_persisted h hrouted, filter_routeObservations h hmem]
  rfl

/-- A run leaves the routes of the accounts that it does not know. -/
theorem get_persisted_of_unknown (h : Ordered syncer discoveries)
    (hrouted : (syncer.persisted stores discoveries routes).2 = none)
    (hunknown : ∀ discovered ∈ discoveries, discovered.account.accountId ≠ accountId)
    (location : String) :
    (syncer.persisted stores discoveries routes).1.get (routeKeyOf accountId location) =
      routes.get (routeKeyOf accountId location) := by
  rw [get_persisted h hrouted, List.filter_eq_nil_iff.mpr]
  · rfl
  · intro observation hobservation
    obtain ⟨other, hother, hof⟩ := List.mem_flatMap.mp hobservation
    simp [credentialAccountId_of_mem_observations hof, hunknown other hother]

variable {productId : Option String}

/-- A route of an account serves after the run exactly if an eligible probe of an active account
left it, or if it was stored and nothing replaced it. -/
theorem serves_routeAt {rank : ℕ ×ₗ String}
    (hspelled : normalizeAccountId (some discovered.account.accountId) =
      discovered.account.accountId) (honce : (discovered.discovery.probes.map (·.1)).Nodup)
    (before : Option ProviderRoute) :
    (∃ route, discovered.routeAt syncer location before = some route ∧
        route.servesAt location productId = true ∧ route.rank = rank) ↔
      ¬ discovered.rejectedAt location ∧
        ((∃ probe, discovered.discovery.probeAt location = some probe ∧
            probe.eligibility = .eligibleAvailable ∧
            syncer.stateOf discovered.account.accountId = .active ∧
            (∀ product ∈ productId, probe.products ≠ [] → product ∈ probe.products.map (·.id)) ∧
            toLex (syncer.priorityOf discovered.account.accountId,
              discovered.account.accountId) = rank) ∨ discovered.discovery.probeAt location = none ∧
            ∃ route, before = some route ∧ route.servesAt location productId = true ∧
              route.rank = rank) := by
  rw [Discovered.routeAt, filter_observations honce, List.foldl_append]
  by_cases hrejected : location = "*" ∧ discovered.discovery.authFailed = true
  · -- The rejection comes last, and its route does not serve.
    rw [if_pos hrejected, List.foldl_cons, List.foldl_nil]
    refine iff_of_false ?_ fun h ↦ h.1 hrejected
    rintro ⟨route, hroute, hserves, -⟩
    have hstate : (discovered.rejection.routed providerKey syncer.priorityOf
        syncer.stateOf).state ≠ .eligibleAvailable := by
      change RouteState.authFailed ≠ .eligibleAvailable
      decide
    rw [← Option.some.inj hroute, ProviderRoute.servesAt_over_of_ne hstate] at hserves
    cases hserves
  · rw [if_neg hrejected, List.foldl_nil, and_iff_right hrejected]
    cases hprobe : discovered.discovery.probeAt location with
    | none => simp
    | some probe =>
      rw [Option.map_some, Option.toList_some, List.foldl_cons, List.foldl_nil]
      by_cases heligible : probe.eligibility = .eligibleAvailable
      · let route := (probe.observation discovered.account.accountId location).routed providerKey
          syncer.priorityOf syncer.stateOf
        have hstate : (probe.observation discovered.account.accountId location).state =
            .eligibleAvailable := by
          rw [LocationProbe.observation, heligible]
          rfl
        have hproducts : route.productIds = probe.products.map (·.id) := by
          change (if probe.eligibility = .eligibleAvailable then _ else _) = _
          rw [if_pos heligible]
        have hserves : route.servesAt location productId = true ↔
            syncer.stateOf discovered.account.accountId = .active ∧
              ∀ product ∈ productId, probe.products ≠ [] →
                product ∈ probe.products.map (·.id) := by
          have hserving : route.isServing = decide (syncer.stateOf
              discovered.account.accountId = .active) := by
            change (decide ((probe.observation discovered.account.accountId location).state =
              .eligibleAvailable) && _) = _
            rw [decide_eq_true hstate, Bool.true_and]
            rfl
          have hlists : productId.all route.servesProduct = true ↔ ∀ product ∈ productId,
              probe.products ≠ [] → product ∈ probe.products.map (·.id) := by
            cases productId with
            | none => simp
            | some product =>
              simp [ProviderRoute.servesProduct, hproducts, ← or_iff_not_imp_left]
          rw [ProviderRoute.servesAt, hserving, Bool.and_eq_true, Bool.and_eq_true, hlists,
            decide_eq_true_iff, decide_eq_true_iff]
          exact and_congr_left fun _ ↦ and_iff_right rfl
        have hrank : route.rank = toLex (syncer.priorityOf discovered.account.accountId,
            discovered.account.accountId) := by
          change toLex (syncer.priorityOf discovered.account.accountId,
            normalizeAccountId (some discovered.account.accountId)) = _
          rw [hspelled]
        rw [decide_eq_true hstate, ProviderRoute.over_fresh]
        constructor
        · rintro ⟨other, hother, hotherServes, rfl⟩
          rw [← Option.some.inj hother] at hotherServes ⊢
          obtain ⟨hactive, hlists⟩ := hserves.mp hotherServes
          exact Or.inl ⟨probe, rfl, heligible, hactive, hlists, hrank.symm⟩
        · rintro (⟨other, hother, -, hactive, hlists, rfl⟩ | ⟨hnone, -⟩)
          · rw [← Option.some.inj hother] at hlists
            exact ⟨route, rfl, hserves.mpr ⟨hactive, hlists⟩, hrank⟩
          · cases hnone
      · have hstate : routeStateOf probe.eligibility ≠ .eligibleAvailable := by
          revert heligible
          cases probe.eligibility <;> simp [routeStateOf]
        refine iff_of_false ?_ ?_
        · rintro ⟨route, hroute, hserves, -⟩
          rw [← Option.some.inj hroute, ProviderRoute.servesAt_over_of_ne hstate] at hserves
          cases hserves
        · rintro (⟨other, hother, hsame, -⟩ | ⟨hnone, -⟩)
          · rw [Option.some.inj hother] at heligible
            exact heligible hsame
          · cases hnone

/-- The routes that serve after a run are the claims. -/
theorem claims_iff (h : Ordered syncer discoveries)
    (hrouted : (syncer.persisted stores discoveries routes).2 = none) {rank : ℕ ×ₗ String} :
    (∃ route ∈ listForProvider (syncer.persisted stores discoveries routes).1 providerKey,
        route.servesAt location productId = true ∧ route.rank = rank) ↔
      Claims syncer routes discoveries location productId rank := by
  have hlocation {route : ProviderRoute} (hserves : route.servesAt location productId = true) :
      route.locationId = location := by
    rw [ProviderRoute.servesAt, Bool.and_eq_true, Bool.and_eq_true, decide_eq_true_iff] at hserves
    exact hserves.1.1
  have hkey {route : ProviderRoute} (hprovider : route.providerKey = providerKey)
      (hserves : route.servesAt location productId = true) :
      route.key = routeKeyOf route.credentialAccountId location := by
    rw [ProviderRoute.key, hprovider, hlocation hserves, routeKeyOf]
  constructor
  · rintro ⟨route, hroute, hserves, hrank⟩
    obtain ⟨hmem, hprovider⟩ := mem_listForProvider.mp hroute
    have hget := Table.mem_iff_get.mp hmem
    rw [hkey hprovider hserves] at hget
    by_cases hknown : ∃ discovered ∈ discoveries,
        discovered.account.accountId = route.credentialAccountId
    · obtain ⟨discovered, hdiscovered, hid⟩ := hknown
      rw [← hid, get_persisted_of_mem h hrouted hdiscovered] at hget
      obtain ⟨hunrejected, hcases⟩ := (serves_routeAt (h.spelled discovered hdiscovered)
        (h.once discovered hdiscovered) _).mp ⟨route, hget, hserves, hrank⟩
      rcases hcases with ⟨probe, hprobe, heligible, hactive, hlists, rfl⟩ |
        ⟨hnone, before, hbefore, hbeforeServes, rfl⟩
      · exact Or.inl ⟨discovered, probe,
          ⟨hdiscovered, hprobe, heligible, hactive, hunrejected, hlists⟩, rfl⟩
      · have hbeforeKey := Table.key_of_get hbefore
        rw [ProviderRoute.key, routeKeyOf, RouteKey.mk.injEq] at hbeforeKey
        refine Or.inr ⟨before, ⟨Table.mem_of_get hbefore, hbeforeKey.1, hbeforeServes,
          fun other hother hsame ↦ ?_⟩, rfl⟩
        rw [h.eq_of_accountId hother hdiscovered (hsame.trans hbeforeKey.2.1)]
        exact ⟨hnone, hunrejected⟩
    · push Not at hknown
      rw [get_persisted_of_unknown h hrouted hknown] at hget
      exact Or.inr ⟨route, ⟨Table.mem_of_get hget, hprovider, hserves,
        fun other hother hsame ↦ absurd hsame (hknown other hother)⟩, hrank⟩
  · intro hclaims
    have hfound {id : String} {route : ProviderRoute}
        (hget : (syncer.persisted stores discoveries routes).1.get (routeKeyOf id location) =
          some route) :
        route ∈ listForProvider (syncer.persisted stores discoveries routes).1 providerKey := by
      have hrouteKey := Table.key_of_get hget
      rw [ProviderRoute.key, routeKeyOf, RouteKey.mk.injEq] at hrouteKey
      exact mem_listForProvider.mpr ⟨Table.mem_of_get hget, hrouteKey.1⟩
    rcases hclaims with ⟨discovered, probe, hfresh, rfl⟩ | ⟨route, hstale, rfl⟩
    · obtain ⟨route, hget, hserves, hrank⟩ := (serves_routeAt (h.spelled discovered hfresh.mem)
        (h.once discovered hfresh.mem)
        (routes.get (routeKeyOf discovered.account.accountId location))).mpr
        ⟨hfresh.unrejected, Or.inl ⟨probe, hfresh.probed, hfresh.eligible, hfresh.active,
          hfresh.lists, rfl⟩⟩
      rw [← get_persisted_of_mem h hrouted hfresh.mem] at hget
      exact ⟨route, hfound hget, hserves, hrank⟩
    · have hserves := hstale.serves
      have hget := Table.mem_iff_get.mp hstale.stored
      rw [hkey hstale.provider hserves] at hget
      by_cases hknown : ∃ discovered ∈ discoveries,
          discovered.account.accountId = route.credentialAccountId
      · obtain ⟨discovered, hdiscovered, hid⟩ := hknown
        obtain ⟨hnone, hunrejected⟩ := hstale.unrefreshed discovered hdiscovered hid
        obtain ⟨after, hafter, hafterServes, hrank⟩ :=
          (serves_routeAt (h.spelled discovered hdiscovered) (h.once discovered hdiscovered)
            (routes.get (routeKeyOf discovered.account.accountId location))).mpr
            ⟨hunrejected, Or.inr ⟨hnone, route, by rw [hid]; exact hget, hserves, rfl⟩⟩
        rw [← get_persisted_of_mem h hrouted hdiscovered] at hafter
        exact ⟨after, hfound hafter, hafterServes, hrank⟩
      · push Not at hknown
        rw [← get_persisted_of_unknown h hrouted hknown] at hget
        exact ⟨route, hfound hget, hserves, rfl⟩

/-- Which account the routes choose. -/
theorem selectRouteAccount_persisted (h : Ordered syncer discoveries)
    (hrouted : (syncer.persisted stores discoveries routes).2 = none) :
    selectRouteAccount (listForProvider (syncer.persisted stores discoveries routes).1 providerKey)
        location productId = some accountId ↔
      ∃ rank, Claims syncer routes discoveries location productId rank ∧
        (ofLex rank).2 = accountId ∧
        ∀ other, Claims syncer routes discoveries location productId other → rank ≤ other := by
  rw [selectRouteAccount_eq_some_iff]
  constructor
  · rintro ⟨route, hroute, hserves, haccount, hfirst⟩
    refine ⟨route.rank, (claims_iff h hrouted).mp ⟨route, hroute, hserves, rfl⟩, haccount, ?_⟩
    intro other hother
    obtain ⟨competitor, hmem, hcompetes, rfl⟩ := (claims_iff h hrouted).mpr hother
    exact hfirst competitor hmem hcompetes
  · rintro ⟨rank, hclaims, haccount, hfirst⟩
    obtain ⟨route, hmem, hserves, rfl⟩ := (claims_iff h hrouted).mpr hclaims
    refine ⟨route, hmem, hserves, haccount, fun other hother hotherServes ↦ ?_⟩
    exact hfirst _ ((claims_iff h hrouted).mp ⟨other, hother, hotherServes, rfl⟩)

/-! ### Sellers -/

/-- The supplies of a location come in the order of their accounts. -/
theorem Ordered.pairwise_suppliesAt (h : Ordered syncer discoveries) (prior : List ProviderRoute)
    (location : String) : (syncer.suppliesAt prior discoveries location).Pairwise fun first second ↦
      accountRank syncer.priorities first.account.accountId ≤
        accountRank syncer.priorities second.account.accountId := by
  rw [LeaseWebOrderingCatalogSyncer.suppliesAt, List.pairwise_flatMap]
  refine ⟨fun discovered _ ↦ ?_, ?_⟩
  · rw [List.pairwise_map]
    exact List.pairwise_of_forall fun _ _ ↦ le_rfl
  · refine (h.pairwise.filter _).imp fun hlt first hfirst second hsecond ↦ ?_
    obtain ⟨product, -, rfl⟩ := List.mem_map.mp hfirst
    obtain ⟨other, -, rfl⟩ := List.mem_map.mp hsecond
    exact hlt.le

/-- The discovery that a supply comes from. -/
theorem exists_discovered {prior : List ProviderRoute} {supply : Supply}
    (hchosen : supply ∈ syncer.chosen prior discoveries) :
    ∃ discovered probe, discovered ∈ discoveries ∧ discovered.account = supply.account ∧
      discovered.discovery.probeAt supply.location = some probe ∧
      probe.eligibility = .eligibleAvailable ∧ supply.product ∈ probe.products := by
  obtain ⟨discovered, hserving, probe, hprobe, product, hproduct, heq⟩ := mem_suppliesAt.mp
    (mem_of_mem_firstBy (LeaseWebOrderingCatalogSyncer.mem_chosenAt_of_mem_chosen hchosen))
  obtain ⟨hmem, hserves⟩ := List.mem_filter.mp hserving
  rw [decide_eq_true_iff, Discovered.verdict, hprobe] at hserves
  refine ⟨discovered, probe, hmem, ?_, hprobe, Option.some.inj hserves.1, ?_⟩
  · rw [heq]
  · rw [heq]
    exact hproduct

/-- No eligible account that lists a product comes before the one that a run sells it through. -/
theorem Ordered.le_of_listed (h : Ordered syncer discoveries) {prior : List ProviderRoute}
    {supply : Supply} (hchosen : supply ∈ syncer.chosen prior discoveries) {probe : LocationProbe}
    (hfresh : FreshClaim syncer discoveries supply.location (some supply.product.id) discovered
      probe) (hlisted : probe.products ≠ []) :
    accountRank syncer.priorities supply.account.accountId ≤
      accountRank syncer.priorities discovered.account.accountId := by
  obtain ⟨product, hproduct, hid⟩ := List.mem_map.mp (hfresh.lists _ rfl hlisted)
  let other : Supply := ⟨discovered.account, supply.location, product⟩
  have hother : other ∈ syncer.suppliesAt prior discoveries supply.location := by
    refine mem_suppliesAt.mpr ⟨discovered, List.mem_filter.mpr ⟨hfresh.mem, ?_⟩, probe,
      hfresh.probed, product, hproduct, rfl⟩
    rw [decide_eq_true_iff, Discovered.verdict, hfresh.probed, hfresh.active]
    exact ⟨congrArg some hfresh.eligible, nofun⟩
  have hfirst := mem_firstBy.mp
    (LeaseWebOrderingCatalogSyncer.mem_chosenAt_of_mem_chosen hchosen)
  have hpair : decide (other.pair = supply.pair) = true :=
    decide_eq_true (Prod.ext hid rfl)
  rcases eq_or_rel_of_find?_eq_some (h.pairwise_suppliesAt prior supply.location) hfirst hother
    hpair with heq | hle
  · rw [heq]
  · exact hle

end Routes

/-! ### When they agree -/

/-- The routes choose the seller of a supply exactly if it is active, unrejected at the location and
the first to claim the product there. -/
theorem selects_seller_iff {syncer : LeaseWebOrderingCatalogSyncer} {stores : OrderingStores}
    {routes : RouteTable} {discoveries : List Discovered} {prior : List ProviderRoute}
    {supply : Supply} (h : Ordered syncer discoveries)
    (hrouted : (syncer.persisted stores discoveries routes).2 = none)
    (hchosen : supply ∈ syncer.chosen prior discoveries) :
    selectRouteAccount (listForProvider (syncer.persisted stores discoveries routes).1 providerKey)
        supply.location (some supply.product.id) = some supply.account.accountId ↔
      syncer.stateOf supply.account.accountId = .active ∧ (∀ discovered ∈ discoveries,
          discovered.account.accountId = supply.account.accountId →
            ¬ discovered.rejectedAt supply.location) ∧
        (∀ route, StaleClaim routes discoveries supply.location (some supply.product.id) route →
          accountRank syncer.priorities supply.account.accountId ≤ route.rank) ∧
        ∀ discovered probe, FreshClaim syncer discoveries supply.location
          (some supply.product.id) discovered probe → probe.products = [] →
            accountRank syncer.priorities supply.account.accountId ≤
              accountRank syncer.priorities discovered.account.accountId := by
  obtain ⟨seller, probe, hseller, haccount, hprobe, heligible, hproduct⟩ :=
    exists_discovered hchosen
  have hid : seller.account.accountId = supply.account.accountId := by rw [haccount]
  rw [selectRouteAccount_persisted h hrouted]
  constructor
  · rintro ⟨rank, hclaims, hrank, hfirst⟩
    rcases hclaims with ⟨discovered, other, hfresh, rfl⟩ | ⟨route, hstale, rfl⟩
    · change discovered.account.accountId = _ at hrank
      rw [hrank] at hfirst
      refine ⟨?_, fun same hsame hsameId ↦ ?_, fun route hstale ↦ ?_,
        fun rival answer hrival _ ↦ ?_⟩
      · rw [← hrank]
        exact hfresh.active
      · rw [h.eq_of_accountId hsame hfresh.mem (hsameId.trans hrank.symm)]
        exact hfresh.unrejected
      · exact hfirst _ (Or.inr ⟨route, hstale, rfl⟩)
      · exact hfirst _ (Or.inl ⟨rival, answer, hrival, rfl⟩)
    · -- The seller probed the location, so that its stored route was replaced.
      have hnone := (hstale.unrefreshed seller hseller (hid.trans hrank.symm)).1
      rw [hprobe] at hnone
      cases hnone
  · rintro ⟨hactive, hunrejected, hstale, hunlisted⟩
    have hlisted : supply.product.id ∈ probe.products.map (·.id) := List.mem_map_of_mem hproduct
    refine ⟨accountRank syncer.priorities supply.account.accountId,
      Or.inl ⟨seller, probe, ⟨hseller, hprobe, heligible, ?_, hunrejected seller hseller hid, ?_⟩,
        by rw [hid]⟩, rfl, ?_⟩
    · rw [hid]
      exact hactive
    · intro product hsame _
      rw [← Option.some.inj hsame]
      exact hlisted
    · rintro rank (⟨discovered, answer, hfresh, rfl⟩ | ⟨route, hroute, rfl⟩)
      · by_cases hempty : answer.products = []
        · exact hunlisted discovered answer hfresh hempty
        · exact h.le_of_listed hchosen hfresh hempty
      · exact hstale route hroute

/-- A rejected account is never chosen exactly if another claim comes before each of its own. -/
theorem selects_no_rejected_iff {syncer : LeaseWebOrderingCatalogSyncer} {stores : OrderingStores}
    {routes : RouteTable} {discoveries : List Discovered} (h : Ordered syncer discoveries)
    (hrouted : (syncer.persisted stores discoveries routes).2 = none) {accountId location : String}
    {productId : Option String} :
    selectRouteAccount (listForProvider (syncer.persisted stores discoveries routes).1 providerKey)
        location productId ≠ some accountId ↔
      ∀ rank, Claims syncer routes discoveries location productId rank →
        (ofLex rank).2 = accountId →
          ∃ earlier < rank, Claims syncer routes discoveries location productId earlier := by
  rw [ne_eq, selectRouteAccount_persisted h hrouted]
  push Not
  exact forall_congr' fun rank ↦ imp_congr_right fun _ ↦ imp_congr_right fun _ ↦
    exists_congr fun other ↦ and_comm

/-- In a run that stored everything, catalog and routes agree exactly under these conditions. -/
theorem routesAgree_iff {syncer : LeaseWebOrderingCatalogSyncer} {stores : OrderingStores}
    {offers : OfferTable} {routes : RouteTable} (h : StoresAll syncer stores offers routes) :
    RoutesAgree syncer stores offers routes ↔ ClaimsFit syncer stores routes := by
  obtain ⟨result, hresult, hstored⟩ := h
  have hreturned := LeaseWebOrderingCatalogSyncer.returned_of_result hresult
  have hordered := ordered_discoveries syncer stores routes
  have hrouted := hreturned.routed hstored
  have hselects (location : String) (productId : Option String) :
      routedAfter syncer stores offers routes location productId = selectRouteAccount
        (listForProvider (syncer.persisted stores (syncer.discoveries stores routes) routes).1
          providerKey) location productId := by
    rw [routedAfter, hreturned.persists]
  constructor
  · intro hagree
    have hsellers (supply : Supply) (hchosen : supply ∈ syncer.chosen (stores.priorRoutes routes)
        (syncer.discoveries stores routes)) (hsold : supply.gone = false) :
        selectRouteAccount (listForProvider
          (syncer.persisted stores (syncer.discoveries stores routes) routes).1 providerKey)
          supply.location (some supply.product.id) = some supply.account.accountId := by
      obtain ⟨update, hupdate⟩ := exists_update (hreturned.aggregates.fits supply hchosen)
      have havailable : update.providerAvailable = true := by
        rw [(Supply.specOf_of_update hupdate).available, hsold]
        rfl
      have hselected := hagree.sellers ⟨supply, update⟩
        ((hreturned.writes _).mpr ⟨hchosen, hupdate⟩) havailable
      rw [← hselects]
      exact hselected
    have hconditions (supply : Supply)
        (hchosen : supply ∈ syncer.chosen (stores.priorRoutes routes)
          (syncer.discoveries stores routes)) (hsold : supply.gone = false) :=
      (selects_seller_iff hordered hrouted hchosen).mp (hsellers supply hchosen hsold)
    exact ⟨fun supply hchosen hsold ↦ (hconditions supply hchosen hsold).1,
      fun supply hchosen hsold ↦ (hconditions supply hchosen hsold).2.1,
      fun supply hchosen hsold ↦ (hconditions supply hchosen hsold).2.2.1,
      fun supply hchosen hsold ↦ (hconditions supply hchosen hsold).2.2.2,
      fun discovered hmem hfailed location productId ↦
        (selects_no_rejected_iff hordered hrouted).mp fun hselected ↦
          hagree.rejected discovered hmem hfailed location productId
            ((hselects location productId).trans hselected)⟩
  · intro hfit
    refine ⟨fun write hwrite havailable ↦ ?_, fun discovered hmem hfailed location productId ↦ ?_⟩
    · obtain ⟨hchosen, hupdate⟩ := (hreturned.writes write).mp hwrite
      have hsold : write.supply.gone = false := by
        rw [(Supply.specOf_of_update hupdate).available] at havailable
        simpa using havailable
      rw [hselects]
      exact (selects_seller_iff hordered hrouted hchosen).mpr
        ⟨hfit.active _ hchosen hsold, hfit.unrejected _ hchosen hsold,
          hfit.stale _ hchosen hsold, hfit.unlisted _ hchosen hsold⟩
    · rw [hselects]
      exact (selects_no_rejected_iff hordered hrouted).mpr
        (hfit.rejected discovered hmem hfailed location productId)

/-! ### One account -/

theorem storesAll_north : StoresAll northMonthly {} noOffers noRoutes :=
  exists_of_toOption_map (by decide +kernel)

theorem routesAgree_north :
    RoutesAgree northMonthly {} noOffers noRoutes ↔ ClaimsFit northMonthly {} noRoutes :=
  routesAgree_iff storesAll_north

/-- The one account drains. -/
def drainingMonthly : LeaseWebOrderingCatalogSyncer :=
  { northMonthly with states := fun _ ↦ some .draining }

/-- A run sells through a draining account, to which no purchase is routed. -/
theorem draining_unrouted : StoresAll drainingMonthly {} noOffers noRoutes ∧
    ¬ RoutesAgree drainingMonthly {} noOffers noRoutes := by
  refine ⟨exists_of_toOption_map (by decide +kernel), fun h ↦ ?_⟩
  have hsold : ∃ write ∈ (drainingMonthly.syncProducts {} noOffers noRoutes).writes,
      write.update.providerAvailable = true ∧
        routedAfter drainingMonthly {} noOffers noRoutes write.supply.location
          (some write.supply.product.id) = none := by
    decide +kernel
  obtain ⟨write, hmem, havailable, hnone⟩ := hsold
  rw [h.sellers write hmem havailable] at hnone
  cases hnone

end CloudPlatform.Leaseweb
