import CloudPlatform.Providers.Ports
import Mathlib.Data.List.Sort
import Mathlib.Data.Prod.Lex

/-!
# Provider routes

Which credential account can serve which location: one observed route for each provider, account and
location, and the deterministic choice among the routes that serve. The choice goes by
`(priority, account id)` alone.
-/

namespace CloudPlatform.ProviderRoutes

open Providers (CredentialAccountState)

/-- Observed eligibility of one (provider, account, location) triple. -/
inductive RouteState
  | eligibleAvailable
  | eligibleEmpty
  | ineligible
  | transientUnknown
  | authFailed
  | disabled
  deriving DecidableEq

/-- One observed route. No product ids means no product-level evidence. -/
structure ProviderRoute where
  providerKey : String
  credentialAccountId : String
  locationId : String
  state : RouteState := .transientUnknown
  priority : ℕ := 100
  productIds : List String := []
  accountState : CredentialAccountState := .active

namespace ProviderRoute

/-- `accepts_new_orders`. -/
def acceptsNewOrders (route : ProviderRoute) : Bool :=
  route.accountState = .active

/-- `is_serving`. -/
def isServing (route : ProviderRoute) : Bool :=
  route.state = .eligibleAvailable && route.acceptsNewOrders

/-- `serves_product`: a route without product-level evidence is unconstrained. -/
def servesProduct (route : ProviderRoute) (productId : String) : Bool :=
  route.productIds.isEmpty || productId ∈ route.productIds

/-- The key of the selection order. -/
def rank (route : ProviderRoute) : ℕ ×ₗ String :=
  toLex (route.priority, route.credentialAccountId)

/-- The condition of `serving_accounts`. -/
def servesAt (route : ProviderRoute) (locationId : String) (productId : Option String) : Bool :=
  route.locationId = locationId && route.isServing && productId.all route.servesProduct

end ProviderRoute

/-- `serving_accounts`: the routes that serve, in selection order. -/
def servingAccounts (routes : List ProviderRoute) (locationId : String)
    (productId : Option String) : List ProviderRoute :=
  (routes.filter (·.servesAt locationId productId)).insertionSort
    fun first second ↦ first.rank ≤ second.rank

/-- `select_route_account`. -/
def selectRouteAccount (routes : List ProviderRoute) (locationId : String)
    (productId : Option String) : Option String :=
  (servingAccounts routes locationId productId).head?.map (·.credentialAccountId)

section Selection

variable {routes : List ProviderRoute} {locationId : String} {productId : Option String}
  {route : ProviderRoute}

@[simp] theorem mem_servingAccounts : route ∈ servingAccounts routes locationId productId ↔
      route ∈ routes ∧ route.servesAt locationId productId = true := by
  rw [servingAccounts, List.mem_insertionSort, List.mem_filter]

/-- The serving routes come in the order of their ranks. -/
theorem pairwise_servingAccounts (routes : List ProviderRoute) (locationId : String)
    (productId : Option String) : (servingAccounts routes locationId productId).Pairwise
      fun first second ↦ first.rank ≤ second.rank := by
  have : Std.Total fun first second : ProviderRoute ↦ first.rank ≤ second.rank :=
    ⟨fun first second ↦ le_total first.rank second.rank⟩
  have : IsTrans ProviderRoute fun first second ↦ first.rank ≤ second.rank :=
    ⟨fun _ _ _ ↦ le_trans⟩
  exact List.pairwise_insertionSort _ _

/-- The chosen account has a route that serves, and no serving route comes before it. -/
theorem selectRouteAccount_eq_some {account : String}
    (h : selectRouteAccount routes locationId productId = some account) :
    ∃ route ∈ routes, route.servesAt locationId productId = true ∧
      route.credentialAccountId = account ∧
      ∀ other ∈ routes, other.servesAt locationId productId = true → route.rank ≤ other.rank := by
  obtain ⟨route, hhead, haccount⟩ := Option.map_eq_some_iff.mp h
  obtain ⟨tail, hcons⟩ : ∃ tail, servingAccounts routes locationId productId = route :: tail :=
    ⟨_, (List.cons_head?_tail hhead).symm⟩
  have hmem : route ∈ servingAccounts routes locationId productId := by simp [hcons]
  obtain ⟨hroute, hserves⟩ := mem_servingAccounts.mp hmem
  refine ⟨route, hroute, hserves, haccount, fun other hother hotherServes ↦ ?_⟩
  have hmemOther := mem_servingAccounts.mpr ⟨hother, hotherServes⟩
  have hsorted := pairwise_servingAccounts routes locationId productId
  rw [hcons] at hmemOther hsorted
  cases List.mem_cons.mp hmemOther with
  | inl heq => rw [heq]
  | inr htail => exact (List.pairwise_cons.mp hsorted).1 other htail

/-- No account is chosen only where no route serves. -/
theorem selectRouteAccount_eq_none : selectRouteAccount routes locationId productId = none ↔
      ∀ route ∈ routes, route.servesAt locationId productId = false := by
  rw [selectRouteAccount, Option.map_eq_none_iff, List.head?_eq_none_iff,
    List.eq_nil_iff_forall_not_mem]
  simp only [mem_servingAccounts, not_and, Bool.not_eq_true]

/-- An account is chosen exactly if it has the first route that serves. -/
theorem selectRouteAccount_eq_some_iff {account : String} :
    selectRouteAccount routes locationId productId = some account ↔
      ∃ route ∈ routes, route.servesAt locationId productId = true ∧
        route.credentialAccountId = account ∧
        ∀ other ∈ routes, other.servesAt locationId productId = true → route.rank ≤ other.rank := by
  refine ⟨selectRouteAccount_eq_some, ?_⟩
  rintro ⟨route, hroute, hserves, haccount, hfirst⟩
  cases hselected : selectRouteAccount routes locationId productId with
  | none =>
    rw [selectRouteAccount_eq_none.mp hselected route hroute] at hserves
    cases hserves
  | some other =>
    obtain ⟨chosen, hchosen, hchosenServes, hchosenAccount, hchosenFirst⟩ :=
      selectRouteAccount_eq_some hselected
    have hrank : chosen.rank = route.rank :=
      le_antisymm (hchosenFirst route hroute hserves) (hfirst chosen hchosen hchosenServes)
    have hsame : chosen.credentialAccountId = route.credentialAccountId :=
      congrArg (fun rank ↦ (ofLex rank).2) hrank
    rw [← hchosenAccount, hsame, haccount]

end Selection

end CloudPlatform.ProviderRoutes
