import CloudPlatform.ProviderRoutes.Domain

/-!
# The fulfillment-account selector

`ProviderRouteSelector.account_for` chooses the account of a new order: with a usage reader only an
account whose route is proven, that reports the product and whose inventory reads as not full. It
raises `ProviderCapacityError` when every such account is full or excluded, `ProviderNotFound` when
there is none, and `ProviderUnavailable` as soon as a further account is merely unknown.
-/

namespace CloudPlatform.ProviderRoutes

/-- Complete credential-scoped inventory and an operator-supplied ceiling. -/
structure AccountServerUsage where
  credentialAccountId : String
  serverCount : ℕ
  serverLimit : Option ℕ := none

/-- `AccountServerUsage.full`: without a ceiling no inventory is full. -/
def AccountServerUsage.full (usage : AccountServerUsage) : Bool :=
  usage.serverLimit.any (· ≤ usage.serverCount)

/-- `AccountServerUsageReader`: the configured accounts, and one answer of each inventory. -/
structure UsageReader where
  acceptsNewOrders : String → Bool
  serverUsage : String → Result AccountServerUsage

namespace UsageReader

variable (reader : UsageReader)

/-- The usage of an account, when it could be read and is the account's own. -/
def readable (account : String) : Option AccountServerUsage :=
  match reader.serverUsage account with
  | .error _ => none
  | .ok usage => if usage.credentialAccountId = account then some usage else none

/-- The proven routes of the product, in selection order. -/
def candidates (routes : List ProviderRoute) (locationId : String) (productId : Option String) :
    List ProviderRoute :=
  (servingAccounts routes locationId productId).filter fun route ↦
    reader.acceptsNewOrders route.credentialAccountId && productId.all (· ∈ route.productIds)

/-- A route about which nothing is proved, of an account that may serve the product. -/
def isUnknown (exclude : List String) (productId : Option String) (route : ProviderRoute) : Bool :=
  (route.state = .transientUnknown || route.state = .authFailed) &&
    route.credentialAccountId ∉ exclude && reader.acceptsNewOrders route.credentialAccountId &&
    (route.productIds.isEmpty || productId.all (· ∈ route.productIds))

/-- The loop of `account_for` over the candidates. -/
def firstWithHeadroom (exclude : List String) : Bool → List ProviderRoute → Result (Option String)
  | true, [] => raise .providerUnavailable "current Project capacity could not be proved"
  | false, [] => raise .providerCapacity "all proven eligible provider accounts are full or refused"
  | unreadable, route :: rest =>
    if route.credentialAccountId ∈ exclude then firstWithHeadroom exclude unreadable rest
    else match reader.readable route.credentialAccountId with
      | none => firstWithHeadroom exclude true rest
      | some usage =>
        if usage.full then firstWithHeadroom exclude unreadable rest
        else .ok (some route.credentialAccountId)

end UsageReader

/-- `ProviderRouteSelector.account_for` over the routes it has read. -/
def accountFor (reader : Option UsageReader) (routes : List ProviderRoute) (locationId : String)
    (productId : Option String) (exclude : List String) : Result (Option String) :=
  match reader with
  | none =>
    .ok (selectRouteAccount (routes.filter (·.credentialAccountId ∉ exclude)) locationId productId)
  | some reader =>
    let candidates := reader.candidates routes locationId productId
    let unreadable := routes.any (reader.isUnknown exclude productId)
    if candidates.isEmpty then
      if unreadable then
        raise .providerUnavailable "current serving eligibility could not be proved"
      else raise .providerNotFound "no proven serving product/location route"
    else reader.firstWithHeadroom exclude unreadable candidates

/-! ### What a selection says -/

section Selection

variable {reader : UsageReader} {routes : List ProviderRoute} {locationId productId : String}
  {exclude : List String}

/-- A proven route of the product: its account serves the location, takes new orders and reports the
product. -/
structure Proven (reader : UsageReader) (routes : List ProviderRoute)
    (locationId productId : String) (route : ProviderRoute) : Prop where
  listed : route ∈ routes
  location : route.locationId = locationId
  state : route.state = .eligibleAvailable
  active : route.accountState = .active
  accepts : reader.acceptsNewOrders route.credentialAccountId = true
  reports : productId ∈ route.productIds

/-- The account's inventory reads, and is not full. -/
def HasHeadroom (reader : UsageReader) (account : String) : Prop :=
  ∃ usage, reader.readable account = some usage ∧ usage.full = false

theorem mem_candidates {route : ProviderRoute} :
    route ∈ reader.candidates routes locationId (some productId) ↔
      Proven reader routes locationId productId route := by
  simp only [UsageReader.candidates, List.mem_filter, mem_servingAccounts,
    ProviderRoute.servesAt, ProviderRoute.isServing, ProviderRoute.acceptsNewOrders,
    ProviderRoute.servesProduct, Option.all_some, Bool.and_eq_true, Bool.or_eq_true,
    decide_eq_true_eq]
  constructor
  · rintro ⟨⟨hlisted, ⟨hlocation, hstate, hactive⟩, -⟩, haccepts, hreports⟩
    exact ⟨hlisted, hlocation, hstate, hactive, haccepts, hreports⟩
  · intro h
    exact ⟨⟨h.listed, ⟨h.location, h.state, h.active⟩, Or.inr h.reports⟩, h.accepts, h.reports⟩

theorem pairwise_candidates (reader : UsageReader) (routes : List ProviderRoute)
    (locationId : String) (productId : Option String) :
    (reader.candidates routes locationId productId).Pairwise
      fun first second ↦ first.rank ≤ second.rank :=
  (pairwise_servingAccounts routes locationId productId).filter _

/-- What the loop over sorted candidates returns: the first that is not excluded and has
headroom. -/
theorem firstWithHeadroom_eq_ok {account : Option String} :
    ∀ (unreadable : Bool) (candidates : List ProviderRoute),
      candidates.Pairwise (fun first second ↦ first.rank ≤ second.rank) →
      reader.firstWithHeadroom exclude unreadable candidates = .ok account →
      ∃ route ∈ candidates, account = some route.credentialAccountId ∧
        route.credentialAccountId ∉ exclude ∧ HasHeadroom reader route.credentialAccountId ∧
        ∀ other ∈ candidates, other.credentialAccountId ∉ exclude →
          HasHeadroom reader other.credentialAccountId → route.rank ≤ other.rank := by
  intro unreadable candidates
  induction candidates generalizing unreadable with
  | nil =>
    intro _ h
    cases unreadable <;> exact absurd h raise_ne_ok
  | cons route rest ih =>
    intro hsorted h
    have hrest := (List.pairwise_cons.mp hsorted).2
    -- A candidate that is passed over is excluded or has no headroom.
    have hpassed (hnot : route.credentialAccountId ∉ exclude →
        ¬ HasHeadroom reader route.credentialAccountId) (flag : Bool)
        (hloop : reader.firstWithHeadroom exclude flag rest = .ok account) :
        ∃ found ∈ route :: rest, account = some found.credentialAccountId ∧
          found.credentialAccountId ∉ exclude ∧ HasHeadroom reader found.credentialAccountId ∧
          ∀ other ∈ route :: rest, other.credentialAccountId ∉ exclude →
            HasHeadroom reader other.credentialAccountId → found.rank ≤ other.rank := by
      obtain ⟨found, hfound, haccount, hfree, hroom, hfirst⟩ := ih flag hrest hloop
      refine ⟨found, List.mem_cons_of_mem _ hfound, haccount, hfree, hroom, ?_⟩
      intro other hother hotherFree hotherRoom
      cases List.mem_cons.mp hother with
      | inl heq =>
        rw [heq] at hotherFree hotherRoom
        exact absurd hotherRoom (hnot hotherFree)
      | inr htail => exact hfirst other htail hotherFree hotherRoom
    rw [UsageReader.firstWithHeadroom] at h
    by_cases hexcluded : route.credentialAccountId ∈ exclude
    · rw [if_pos hexcluded] at h
      exact hpassed (fun hfree ↦ absurd hexcluded hfree) unreadable h
    · rw [if_neg hexcluded] at h
      cases hread : reader.readable route.credentialAccountId with
      | none =>
        simp only [hread] at h
        have hnone : ¬ HasHeadroom reader route.credentialAccountId := by
          rintro ⟨usage, hsome, -⟩
          rw [hread] at hsome
          cases hsome
        exact hpassed (fun _ ↦ hnone) true h
      | some usage =>
        simp only [hread] at h
        by_cases hfull : usage.full = true
        · rw [if_pos hfull] at h
          have hnone : ¬ HasHeadroom reader route.credentialAccountId := by
            rintro ⟨other, hsome, hopen⟩
            rw [hread] at hsome
            obtain rfl := Option.some.inj hsome
            rw [hfull] at hopen
            cases hopen
          exact hpassed (fun _ ↦ hnone) unreadable h
        · rw [if_neg hfull] at h
          have hroom : HasHeadroom reader route.credentialAccountId :=
            ⟨usage, hread, by simpa using hfull⟩
          refine ⟨route, List.mem_cons_self, (Except.ok.inj h).symm, hexcluded, hroom, ?_⟩
          intro other hother _ _
          cases List.mem_cons.mp hother with
          | inl heq => rw [heq]
          | inr htail => exact (List.pairwise_cons.mp hsorted).1 other htail

variable {raised : Raised}

/-- What a capacity error of the loop says: nothing was unknown, and every candidate is excluded or
was read and is full. -/
theorem firstWithHeadroom_capacity (hkind : raised.kind = .providerCapacity) :
    ∀ (unreadable : Bool) (candidates : List ProviderRoute),
      reader.firstWithHeadroom exclude unreadable candidates = .error raised →
      unreadable = false ∧ ∀ route ∈ candidates, route.credentialAccountId ∈ exclude ∨
        ∃ usage, reader.readable route.credentialAccountId = some usage ∧ usage.full = true := by
  intro unreadable candidates
  induction candidates generalizing unreadable with
  | nil =>
    intro h
    cases unreadable with
    | true =>
      obtain rfl := Except.error.inj h
      cases hkind
    | false => simp
  | cons route rest ih =>
    intro h
    rw [UsageReader.firstWithHeadroom] at h
    by_cases hexcluded : route.credentialAccountId ∈ exclude
    · rw [if_pos hexcluded] at h
      exact ⟨(ih unreadable h).1, List.forall_mem_cons.mpr ⟨Or.inl hexcluded, (ih unreadable h).2⟩⟩
    · rw [if_neg hexcluded] at h
      cases hread : reader.readable route.credentialAccountId with
      | none =>
        simp only [hread] at h
        exact absurd (ih true h).1 (by decide)
      | some usage =>
        simp only [hread] at h
        by_cases hfull : usage.full = true
        · rw [if_pos hfull] at h
          exact ⟨(ih unreadable h).1,
            List.forall_mem_cons.mpr ⟨Or.inr ⟨usage, hread, hfull⟩, (ih unreadable h).2⟩⟩
        · rw [if_neg hfull] at h
          cases h

/-- The loop raises a capacity error or an unavailability. -/
theorem firstWithHeadroom_error : ∀ (unreadable : Bool) (candidates : List ProviderRoute),
      reader.firstWithHeadroom exclude unreadable candidates = .error raised →
      raised.kind = .providerCapacity ∨ raised.kind = .providerUnavailable := by
  intro unreadable candidates
  induction candidates generalizing unreadable with
  | nil =>
    intro h
    cases unreadable with
    | true =>
      obtain rfl := Except.error.inj h
      exact Or.inr rfl
    | false =>
      obtain rfl := Except.error.inj h
      exact Or.inl rfl
  | cons route rest ih =>
    intro h
    rw [UsageReader.firstWithHeadroom] at h
    by_cases hexcluded : route.credentialAccountId ∈ exclude
    · rw [if_pos hexcluded] at h
      exact ih unreadable h
    · rw [if_neg hexcluded] at h
      cases hread : reader.readable route.credentialAccountId with
      | none =>
        simp only [hread] at h
        exact ih true h
      | some usage =>
        simp only [hread] at h
        by_cases hfull : usage.full = true
        · rw [if_pos hfull] at h
          exact ih unreadable h
        · rw [if_neg hfull] at h
          cases h

/-- A selected account: a proven route of the product, not excluded, with readable headroom, and the
first of these in the order of `(priority, account id)`. -/
structure Selected (reader : UsageReader) (routes : List ProviderRoute)
    (locationId productId : String) (exclude : List String) (account : String) : Prop where
  not_excluded : account ∉ exclude
  headroom : HasHeadroom reader account
  first : ∃ route, Proven reader routes locationId productId route ∧
    route.credentialAccountId = account ∧
    ∀ other, Proven reader routes locationId productId other →
      other.credentialAccountId ∉ exclude → HasHeadroom reader other.credentialAccountId →
      route.rank ≤ other.rank

theorem accountFor_eq_ok {account : Option String}
    (h : accountFor (some reader) routes locationId (some productId) exclude = .ok account) :
    ∃ chosen, account = some chosen ∧
      Selected reader routes locationId productId exclude chosen := by
  rw [accountFor] at h
  split_ifs at h
  · exact absurd h raise_ne_ok
  · exact absurd h raise_ne_ok
  · obtain ⟨route, hroute, haccount, hfree, hroom, hfirst⟩ := firstWithHeadroom_eq_ok _ _
      (pairwise_candidates reader routes locationId (some productId)) h
    refine ⟨route.credentialAccountId, haccount, hfree, hroom, route, mem_candidates.mp hroute,
      rfl, fun other hother ↦ hfirst other (mem_candidates.mpr hother)⟩

/-- Nothing that the selection looked at is unknown: no route is, and the inventory of every proven
account that is not excluded was read and is full. -/
structure Exhausted (reader : UsageReader) (routes : List ProviderRoute)
    (locationId productId : String) (exclude : List String) : Prop where
  none_unknown : ∀ route ∈ routes, reader.isUnknown exclude (some productId) route = false
  full_or_excluded : ∀ route, Proven reader routes locationId productId route →
    route.credentialAccountId ∈ exclude ∨
      ∃ usage, reader.readable route.credentialAccountId = some usage ∧ usage.full = true

/-- What `ProviderCapacityError` and `ProviderNotFound` say. -/
theorem accountFor_exhausted
    (h : accountFor (some reader) routes locationId (some productId) exclude = .error raised)
    (hkind : raised.kind = .providerCapacity ∨ raised.kind = .providerNotFound) :
    Exhausted reader routes locationId productId exclude := by
  rw [accountFor] at h
  split_ifs at h with hempty hunknown
  · obtain rfl := Except.error.inj h
    cases hkind with
    | inl hcapacity => cases hcapacity
    | inr hnotFound => cases hnotFound
  · refine ⟨by simpa using hunknown, fun route hroute ↦ ?_⟩
    have hmem := mem_candidates.mpr hroute
    rw [List.isEmpty_iff.mp hempty] at hmem
    cases hmem
  · have hcapacity : raised.kind = .providerCapacity := by
      cases hkind with
      | inl hcapacity => exact hcapacity
      | inr hnotFound =>
        cases firstWithHeadroom_error _ _ h with
        | inl hcapacity => exact hcapacity
        | inr hunavailable => rw [hnotFound] at hunavailable; cases hunavailable
    obtain ⟨hunknown, hfull⟩ := firstWithHeadroom_capacity hcapacity _ _ h
    exact ⟨by simpa using hunknown, fun route hroute ↦ hfull route (mem_candidates.mpr hroute)⟩

end Selection

end CloudPlatform.ProviderRoutes
