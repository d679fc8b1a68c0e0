import CloudPlatform.Core.Tables
import CloudPlatform.ProviderRoutes.Domain

/-!
# Durable routing knowledge

The rows of `provider_routes`, one for each provider, credential account and location. A sync run
persists its observations one after the other; a location-level observation keeps the products that
an earlier probe recorded.
-/

namespace CloudPlatform.ProviderRoutes

open Providers (CredentialAccountState normalizeAccountId)
open Rows (Table)

/-- The identity of one route row. -/
structure RouteKey where
  providerKey : String
  credentialAccountId : String
  locationId : String
  deriving DecidableEq

def ProviderRoute.key (route : ProviderRoute) : RouteKey :=
  ⟨route.providerKey, route.credentialAccountId, route.locationId⟩

abbrev RouteTable := Table ProviderRoute.key

/-- One account's fresh observation of one location. -/
structure RouteObservation where
  credentialAccountId : String
  locationId : String
  state : RouteState
  productIds : List String := []

/-- The route of an observation, as `ProviderRoute` checks it. -/
def RouteObservation.toRoute (observation : RouteObservation) (providerKey : String)
    (priorityOf : String → ℕ) (accountStateOf : String → CredentialAccountState) :
    Result ProviderRoute := do
  rejectIf (strip providerKey = "") .valueError "provider_key must not be empty"
  rejectIf (strip observation.locationId = "") .valueError "location_id must not be empty"
  return {
    providerKey := providerKey
    credentialAccountId := normalizeAccountId (some observation.credentialAccountId)
    locationId := observation.locationId
    state := observation.state
    priority := priorityOf observation.credentialAccountId
    productIds := observation.productIds
    accountState := accountStateOf observation.credentialAccountId }

/-- The row that an observation leaves: products are replaced by fresh ones only. -/
def ProviderRoute.over (route : ProviderRoute) (productsFresh : Bool) :
    Option ProviderRoute → ProviderRoute
  | none => route
  | some row => if productsFresh then route else { route with productIds := row.productIds }

@[simp] theorem ProviderRoute.key_over (route : ProviderRoute) (productsFresh : Bool)
    (row : Option ProviderRoute) : (route.over productsFresh row).key = route.key := by
  cases row with
  | none => rfl
  | some row => cases productsFresh <;> rfl

@[simp] theorem ProviderRoute.over_fresh (route : ProviderRoute) (row : Option ProviderRoute) :
    route.over true row = route := by
  cases row <;> rfl

/-- A route that is not eligible serves nothing. -/
theorem ProviderRoute.servesAt_over_of_ne {route : ProviderRoute}
    (h : route.state ≠ .eligibleAvailable) (productsFresh : Bool) (row : Option ProviderRoute)
    (locationId : String) (productId : Option String) :
    (route.over productsFresh row).servesAt locationId productId = false := by
  have hstate : (route.over productsFresh row).state = route.state := by
    cases row with
    | none => rfl
    | some row => cases productsFresh <;> rfl
  rw [servesAt, isServing, hstate, decide_eq_false h]
  simp

/-- `upsert`. -/
def upsertRoute (routes : RouteTable) (route : ProviderRoute) (productsFresh : Bool) : RouteTable :=
  routes.put (route.over productsFresh (routes.get route.key))

theorem get_upsertRoute (routes : RouteTable) (route : ProviderRoute) (productsFresh : Bool)
    (key : RouteKey) : (upsertRoute routes route productsFresh).get key =
      if route.key = key then some (route.over productsFresh (routes.get key))
      else routes.get key := by
  rw [upsertRoute, Table.get_put, ProviderRoute.key_over]
  by_cases hkey : route.key = key
  · rw [if_pos hkey, if_pos hkey, hkey]
  · rw [if_neg hkey, if_neg hkey]

/-- `upsert_observations`: the rows, and the exception that stopped it. -/
def upsertObservations (providerKey : String) (priorityOf : String → ℕ)
    (accountStateOf : String → CredentialAccountState)
    (fault : RouteObservation → Option Raised) :
    RouteTable → List RouteObservation → RouteTable × Option Raised
  | routes, [] => (routes, none)
  | routes, observation :: rest =>
    match observation.toRoute providerKey priorityOf accountStateOf with
    | .error raised => (routes, some raised)
    | .ok route => match fault observation with
      | some raised => (routes, some raised)
      | none =>
        upsertObservations providerKey priorityOf accountStateOf fault
          (upsertRoute routes route (observation.state = .eligibleAvailable)) rest

/-! ### What a run persists -/

section Persisting

variable {providerKey : String} {priorityOf : String → ℕ}
  {accountStateOf : String → CredentialAccountState} {fault : RouteObservation → Option Raised}
  {observations : List RouteObservation} {routes : RouteTable}

/-- The route of an observation that is not rejected. -/
def RouteObservation.routed (observation : RouteObservation) (providerKey : String)
    (priorityOf : String → ℕ) (accountStateOf : String → CredentialAccountState) :
    ProviderRoute where
  providerKey := providerKey
  credentialAccountId := normalizeAccountId (some observation.credentialAccountId)
  locationId := observation.locationId
  state := observation.state
  priority := priorityOf observation.credentialAccountId
  productIds := observation.productIds
  accountState := accountStateOf observation.credentialAccountId

theorem toRoute_eq (hprovider : strip providerKey ≠ "") (observation : RouteObservation) :
    observation.toRoute providerKey priorityOf accountStateOf =
      if strip observation.locationId = "" then raise .valueError "location_id must not be empty"
      else .ok (observation.routed providerKey priorityOf accountStateOf) := by
  rw [RouteObservation.toRoute, rejectIf_bind (decide_eq_false hprovider)]
  by_cases hlocation : strip observation.locationId = ""
  · simp [rejectIf, hlocation, raise, bind, Except.bind]
  · rw [rejectIf_bind (decide_eq_false hlocation), if_neg hlocation]
    rfl

/-- Which observations a run persists without an exception, and what it makes of the routes
then. -/
theorem upsertObservations_eq (hprovider : strip providerKey ≠ "") :
    ((upsertObservations providerKey priorityOf accountStateOf fault routes observations).2 = none ↔
        ∀ observation ∈ observations, strip observation.locationId ≠ "" ∧
          fault observation = none) ∧
      ((upsertObservations providerKey priorityOf accountStateOf fault routes observations).2 =
          none →
        (upsertObservations providerKey priorityOf accountStateOf fault routes observations).1 =
          observations.foldl (fun table observation ↦ upsertRoute table
            (observation.routed providerKey priorityOf accountStateOf)
            (observation.state = .eligibleAvailable)) routes) := by
  induction observations generalizing routes with
  | nil => exact ⟨by simp [upsertObservations], fun _ ↦ rfl⟩
  | cons observation rest ih =>
    rw [upsertObservations, List.forall_mem_cons, toRoute_eq hprovider]
    by_cases hlocation : strip observation.locationId = ""
    · rw [if_pos hlocation]
      exact ⟨⟨nofun, fun h ↦ absurd hlocation h.1.1⟩, nofun⟩
    · rw [if_neg hlocation]
      cases hfault : fault observation with
      | some raised => exact ⟨⟨nofun, fun h ↦ nomatch h.1.2⟩, nofun⟩
      | none =>
        rw [List.foldl_cons]
        exact ⟨ih.1.trans ⟨fun h ↦ ⟨⟨hlocation, rfl⟩, h⟩, fun h ↦ h.2⟩, ih.2⟩

/-- What a key reads of the routes after a run: what the observations of the key make of it. -/
theorem get_foldl_upsertRoute (key : RouteKey) :
    (observations.foldl (fun table observation ↦ upsertRoute table
      (observation.routed providerKey priorityOf accountStateOf)
      (observation.state = .eligibleAvailable)) routes).get key =
      (observations.filter fun observation ↦
          (observation.routed providerKey priorityOf accountStateOf).key = key).foldl
        (fun row observation ↦ some ((observation.routed providerKey priorityOf
          accountStateOf).over (observation.state = .eligibleAvailable) row)) (routes.get key) :=
  Table.get_foldl_filter
    (fun observation _ table key ↦ get_upsertRoute table
      (observation.routed providerKey priorityOf accountStateOf)
      (observation.state = .eligibleAvailable) key) key routes

end Persisting

/-- `list_for_provider`, in the order of location, priority and account. -/
def listForProvider (routes : RouteTable) (providerKey : String) : List ProviderRoute :=
  (routes.rows.filter (·.providerKey = providerKey)).insertionSort fun first second ↦
    toLex (first.locationId, toLex (first.priority, first.credentialAccountId)) ≤
      toLex (second.locationId, toLex (second.priority, second.credentialAccountId))

theorem mem_listForProvider {routes : RouteTable} {providerKey : String} {route : ProviderRoute} :
    route ∈ listForProvider routes providerKey ↔
      route ∈ routes.rows ∧ route.providerKey = providerKey := by
  rw [listForProvider, List.mem_insertionSort, List.mem_filter, decide_eq_true_iff]

end CloudPlatform.ProviderRoutes
