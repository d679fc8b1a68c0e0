import Mathlib.Algebra.Order.BigOperators.Group.List
import CloudPlatform.Billing.Domain
import CloudPlatform.Transition.Run

/-!
# Daily cost circuit breakers

`CostCircuitBreakerService.check` adds up the provider cost of the periods that start on the current
UTC day, over the servers that are not DELETED, and compares the sums with the limit of the account
and with the global limit. New periods and new servers only raise the sums, but a server that is
moved to DELETED takes its cost out of them: `staysTripped_iff_sparesTrip` says how much it may take.
-/

namespace CloudPlatform.Compute

open Billing (AccrualPeriod)
open Transition

/-! ### Limits -/

/-- A daily provider-cost cap for one scope; the checks of its constructor are fields. -/
structure CostLimit where
  scope : CostLimitScopeKind
  limitMinor : ℤ
  providerAccountId : Option Uuid := none
  enabled : Bool := true
  scope_account : scope = .providerAccount ↔ providerAccountId.isSome
  limit_nonneg : 0 ≤ limitMinor

/-- `CostLimit.active`. -/
def CostLimit.active (limit : CostLimit) : Bool :=
  limit.enabled && decide (0 < limit.limitMinor)

/-- `get_global`. -/
def getGlobal (limits : List CostLimit) : Option CostLimit :=
  limits.find? fun limit ↦ limit.scope = .global

/-- `get_for_account`. -/
def getForAccount (limits : List CostLimit) (providerAccountId : Uuid) : Option CostLimit :=
  limits.find? fun limit ↦
    limit.scope = .providerAccount ∧ limit.providerAccountId = some providerAccountId

/-! ### Servers and their cost -/

/-- A server row with the provider account it is billed through. -/
structure AccountServer where
  row : CloudServer
  providerAccountId : Uuid

/-- The server rows and the settled periods; no period has a negative cost. -/
structure CostRows where
  servers : List AccountServer
  periods : List AccrualPeriod
  cost_nonneg : ∀ period ∈ periods, 0 ≤ period.costMinor

namespace CostRows

/-- `list_non_deleted_ids`. -/
def listNonDeletedIds (rows : CostRows) : List Uuid :=
  (rows.servers.filter (·.row.state ≠ .deleted)).map (·.row.id)

/-- `list_account_server_ids`. -/
def listAccountServerIds (rows : CostRows) (providerAccountId : Uuid) : List Uuid :=
  (rows.servers.filter fun server ↦
    server.providerAccountId = providerAccountId ∧ server.row.state ≠ .deleted).map (·.row.id)

/-- `daily_cost_total`, as its callers use it: without a currency. -/
def dailyCostTotal (rows : CostRows) (dayStart dayEnd : ℤ) (serverIds : List Uuid) : ℤ :=
  if serverIds = [] then 0
  else ((rows.periods.filter fun period ↦ dayStart ≤ period.periodStart ∧
    period.periodStart < dayEnd ∧ period.serverId ∈ serverIds).map (·.costMinor)).sum

/-- `_spent_today`, over the window of `_day_window`. -/
def spentToday (rows : CostRows) (serverIds : List Uuid) (now : ℤ) : ℤ :=
  let dayStart := Calendar.midnight (Calendar.dayOf now)
  rows.dailyCostTotal dayStart (dayStart + Calendar.day) serverIds

/-- `CostCircuitBreakerService.check`: the limit of the account wins over the global one. -/
def check (rows : CostRows) (limits : List CostLimit) (providerAccountId : Uuid) (now : ℤ) :
    Option CostLimitTrigger :=
  let globalSpent := rows.spentToday rows.listNonDeletedIds now
  let spent := rows.spentToday (rows.listAccountServerIds providerAccountId) now
  let accountTrigger := (getForAccount limits providerAccountId).bind fun limit ↦
    if limit.active ∧ limit.limitMinor ≤ spent then
      some ⟨.providerAccount, some providerAccountId, limit.limitMinor, spent⟩
    else none
  let globalTrigger := (getGlobal limits).bind fun limit ↦
    if limit.active ∧ limit.limitMinor ≤ globalSpent then
      some ⟨.global, none, limit.limitMinor, globalSpent⟩
    else none
  accountTrigger.orElse fun _ ↦ globalTrigger

/-! ### The events of a day -/

/-- A period is settled, a server is created, or a server moves along its lifecycle. -/
inductive Event
  | accrue (period : AccrualPeriod)
  | create (server : AccountServer)
  | move (serverId : Uuid) (target : ServerLifecycleState)

/-- The server row with the id, as the move of another state loads it. -/
def movable (rows : CostRows) (serverId : Uuid) (target : ServerLifecycleState) : Bool :=
  (rows.servers.find? (·.row.id = serverId)).any (target ∈ ·.row.state.allowed)

/-- One event. A period that fails its checks is not inserted, nor is a server whose id is taken;
a move that the lifecycle table forbids is refused. -/
def step (rows : CostRows) : Event → CostRows
  | .accrue period =>
    if hcost : 0 ≤ period.costMinor then
      { rows with
        periods := period :: rows.periods
        cost_nonneg := List.forall_mem_cons.mpr ⟨hcost, rows.cost_nonneg⟩ }
    else rows
  | .create server =>
    if rows.servers.any (·.row.id = server.row.id) then rows
    else { rows with servers := server :: rows.servers }
  | .move serverId target =>
    if rows.movable serverId target then
      { rows with
        servers := rows.servers.map fun server ↦
          if server.row.id = serverId then { server with row := { server.row with state := target } }
          else server }
    else rows

/-! ### The spend of a scope -/

section Spend

variable {rows : CostRows} {ids more : List Uuid} {now later : ℤ} {serverId : Uuid}

/-- The cost of a server on the day of an instant. -/
def dayCost (rows : CostRows) (serverId : Uuid) (now : ℤ) : ℤ :=
  rows.spentToday [serverId] now

/-- The periods of the day of an instant. -/
def dayPeriods (rows : CostRows) (now : ℤ) : List AccrualPeriod :=
  rows.periods.filter fun period ↦ Calendar.midnight (Calendar.dayOf now) ≤ period.periodStart ∧
    period.periodStart < Calendar.midnight (Calendar.dayOf now) + Calendar.day

theorem spentToday_eq : rows.spentToday ids now =
    (((rows.dayPeriods now).filter (·.serverId ∈ ids)).map (·.costMinor)).sum := by
  rw [spentToday, dailyCostTotal, dayPeriods, List.filter_filter]
  by_cases hids : ids = []
  · simp [hids]
  · rw [if_neg hids]
    congr 2
    refine List.filter_congr fun period _ ↦ ?_
    rw [← Bool.decide_and, decide_eq_decide]
    tauto

theorem spentToday_of_dayOf (h : Calendar.dayOf now = Calendar.dayOf later) :
    rows.spentToday ids now = rows.spentToday ids later := by
  rw [spentToday, spentToday, h]

theorem check_of_dayOf {limits : List CostLimit} {account : Uuid}
    (h : Calendar.dayOf now = Calendar.dayOf later) :
    (rows.check limits account now).isSome = (rows.check limits account later).isSome := by
  rw [check, check, spentToday_of_dayOf h, spentToday_of_dayOf h]

/-- Costs of some of the periods. -/
theorem sum_sublist {some all : List AccrualPeriod} (hsub : some.Sublist all)
    (hcost : ∀ period ∈ all, 0 ≤ period.costMinor) :
    (some.map (·.costMinor)).sum ≤ (all.map (·.costMinor)).sum := by
  refine (hsub.map _).sum_le_sum fun cost hmem ↦ ?_
  obtain ⟨period, hperiod, rfl⟩ := List.mem_map.mp hmem
  exact hcost period hperiod

/-- More servers cost no less. -/
theorem spentToday_mono (hids : ids ⊆ more) : rows.spentToday ids now ≤ rows.spentToday more now := by
  rw [spentToday_eq, spentToday_eq]
  refine sum_sublist (List.monotone_filter_right _ fun period hmem ↦ ?_) fun period hmem ↦ ?_
  · simp only [decide_eq_true_eq] at hmem ⊢
    exact hids hmem
  · exact rows.cost_nonneg period (List.mem_of_mem_filter (List.mem_of_mem_filter hmem))

/-- Costs by what is chosen and what is not. -/
theorem sum_filter_split (chosen other : AccrualPeriod → Bool) (periods : List AccrualPeriod) :
    ((periods.filter chosen).map (·.costMinor)).sum =
      ((periods.filter fun period ↦ chosen period && !other period).map (·.costMinor)).sum +
        ((periods.filter fun period ↦ chosen period && other period).map (·.costMinor)).sum := by
  induction periods with
  | nil => rfl
  | cons period rest ih =>
    simp only [List.filter_cons]
    cases chosen period <;> cases other period <;> simp [ih] <;> omega

/-- A server takes its cost of the day out of a scope that it leaves. -/
theorem spentToday_filter_ne : rows.spentToday (ids.filter (· ≠ serverId)) now =
    rows.spentToday ids now - if serverId ∈ ids then rows.dayCost serverId now else 0 := by
  have hsplit := sum_filter_split (fun period ↦ decide (period.serverId ∈ ids))
    (fun period ↦ decide (period.serverId = serverId)) (rows.dayPeriods now)
  have hstay : rows.spentToday (ids.filter (· ≠ serverId)) now =
      (((rows.dayPeriods now).filter fun period ↦ decide (period.serverId ∈ ids) &&
        !decide (period.serverId = serverId)).map (·.costMinor)).sum := by
    rw [spentToday_eq]
    congr 2
    exact List.filter_congr fun period _ ↦ by simp
  have hleave : (((rows.dayPeriods now).filter fun period ↦ decide (period.serverId ∈ ids) &&
      decide (period.serverId = serverId)).map (·.costMinor)).sum =
      if serverId ∈ ids then rows.dayCost serverId now else 0 := by
    split
    · rename_i hmem
      rw [dayCost, spentToday_eq]
      congr 2
      refine List.filter_congr fun period _ ↦ ?_
      by_cases hserver : period.serverId = serverId
      · simp [hserver, hmem]
      · simp [hserver]
    · rename_i hmem
      rw [List.filter_eq_nil_iff.mpr]
      · rfl
      · intro period _ hboth
        simp only [Bool.and_eq_true, decide_eq_true_eq] at hboth
        exact hmem (hboth.2 ▸ hboth.1)
  rw [hstay, spentToday_eq, hsplit, hleave, add_sub_cancel_right]

/-! ### Events and the spend -/

/-- A new period raises no spend but up. -/
theorem spentToday_le_accrue (period : AccrualPeriod) :
    rows.spentToday ids now ≤ (rows.step (.accrue period)).spentToday ids now := by
  rw [step]
  split
  · rename_i hcost
    rw [spentToday_eq, spentToday_eq]
    refine sum_sublist ?_ fun other hmem ↦ ?_
    · exact ((List.sublist_cons_self period rows.periods).filter _).filter _
    · rcases List.mem_cons.mp (List.mem_of_mem_filter (List.mem_of_mem_filter hmem)) with rfl | hmem
      · exact hcost
      · exact rows.cost_nonneg other hmem
  · exact le_refl _

/-- The servers of a scope that are not deleted. -/
def scopeIds (rows : CostRows) (covers : AccountServer → Bool) : List Uuid :=
  (rows.servers.filter fun server ↦ covers server ∧ server.row.state ≠ .deleted).map (·.row.id)

theorem listNonDeletedIds_eq : rows.listNonDeletedIds = rows.scopeIds fun _ ↦ true := by
  simp [listNonDeletedIds, scopeIds]

theorem listAccountServerIds_eq (account : Uuid) : rows.listAccountServerIds account =
    rows.scopeIds fun server ↦ server.providerAccountId = account := by
  simp [listAccountServerIds, scopeIds]

variable {covers : AccountServer → Bool}

/-- A server is taken out of its scopes by its move to DELETED. -/
theorem scopeIds_delete (h : rows.movable serverId .deleted) :
    (rows.step (.move serverId .deleted)).scopeIds covers =
      (rows.scopeIds covers).filter (· ≠ serverId) := by
  rw [step, if_pos h, scopeIds, scopeIds]
  induction rows.servers with
  | nil => rfl
  | cons server rest ih =>
    by_cases hserver : server.row.id = serverId <;>
      by_cases hkept : covers server ∧ server.row.state ≠ .deleted <;> simp_all

/-- No other event takes a server out of a scope that looks at nothing but the account. -/
theorem scopeIds_subset_step
    (hcovers : ∀ server row, covers { server with row := row } = covers server) {event : Event}
    (hevent : ∀ serverId, event ≠ .move serverId .deleted) :
    rows.scopeIds covers ⊆ (rows.step event).scopeIds covers := by
  cases event with
  | accrue period =>
    rw [step]
    split
    · exact List.Subset.refl _
    · exact List.Subset.refl _
  | create server =>
    rw [step]
    split
    · exact List.Subset.refl _
    · exact ((List.sublist_cons_self server rows.servers).filter _).map _ |>.subset
  | move serverId target =>
    have htarget : target ≠ .deleted := fun h ↦ hevent serverId (h ▸ rfl)
    rw [step]
    split
    · intro id hid
      obtain ⟨server, hserver, rfl⟩ := List.mem_map.mp hid
      obtain ⟨hmem, hkept⟩ := List.mem_filter.mp hserver
      refine List.mem_map.mpr ⟨if server.row.id = serverId then
        { server with row := { server.row with state := target } } else server, ?_, ?_⟩
      · refine List.mem_filter.mpr ⟨List.mem_map.mpr ⟨server, hmem, rfl⟩, ?_⟩
        split
        · simpa [hcovers, htarget] using (of_decide_eq_true hkept).1
        · exact hkept
      · split <;> rfl
    · exact List.Subset.refl _

/-- The spend of a scope after the move of a server to DELETED. -/
theorem spentToday_delete (h : rows.movable serverId .deleted) :
    (rows.step (.move serverId .deleted)).spentToday
        ((rows.step (.move serverId .deleted)).scopeIds covers) now =
      rows.spentToday (rows.scopeIds covers) now -
        if serverId ∈ rows.scopeIds covers then rows.dayCost serverId now else 0 := by
  rw [scopeIds_delete h, ← spentToday_filter_ne, step, if_pos h]
  rfl

/-- The spend of a scope is no less after any other event. -/
theorem spentToday_le_step
    (hcovers : ∀ server row, covers { server with row := row } = covers server) {event : Event}
    (hevent : ∀ serverId, event ≠ .move serverId .deleted) :
    rows.spentToday (rows.scopeIds covers) now ≤
      (rows.step event).spentToday ((rows.step event).scopeIds covers) now := by
  refine le_trans ?_ (spentToday_mono (scopeIds_subset_step hcovers hevent))
  cases event with
  | accrue period => exact spentToday_le_accrue period
  | create server =>
    rw [step]
    split <;> exact le_refl _
  | move serverId target =>
    rw [step]
    split <;> exact le_refl _

/-! ### Tripped breakers -/

/-- An active limit that a spend has reached. -/
def Reached (limit : Option CostLimit) (spent : ℤ) : Prop :=
  ∃ cap ∈ limit, cap.active ∧ cap.limitMinor ≤ spent

theorem Reached.mono {limit : Option CostLimit} {spent more : ℤ} (h : Reached limit spent)
    (hle : spent ≤ more) : Reached limit more := by
  obtain ⟨cap, hcap, hactive, hspent⟩ := h
  exact ⟨cap, hcap, hactive, hspent.trans hle⟩

theorem isSome_check (rows : CostRows) (limits : List CostLimit) (account : Uuid) (now : ℤ) :
    (rows.check limits account now).isSome ↔ Reached (getForAccount limits account)
        (rows.spentToday (rows.listAccountServerIds account) now) ∨
      Reached (getGlobal limits) (rows.spentToday rows.listNonDeletedIds now) := by
  have htrigger : ∀ (limit : Option CostLimit) scope owner spent,
      (limit.bind fun cap ↦ if cap.active ∧ cap.limitMinor ≤ spent then
        some (⟨scope, owner, cap.limitMinor, spent⟩ : CostLimitTrigger) else none).isSome ↔
        Reached limit spent := by
    intro limit scope owner spent
    cases limit with
    | none => simp [Reached]
    | some cap => simp [Reached, Option.isSome_iff_ne_none]
  rw [check, Option.orElse_eq_or, Option.isSome_or, Bool.or_eq_true, htrigger, htrigger]

/-- The breaker of an account, once tripped on a day, stays tripped on it. -/
def StaysTripped (limits : List CostLimit) (account : Uuid) (today : ℤ) (rows : CostRows)
    (events : List Event) : Prop :=
  ∀ earlier later now now', earlier ≤ later → Calendar.dayOf now = Calendar.dayOf today →
    Calendar.dayOf now' = Calendar.dayOf today →
    ((run step rows (events.take earlier)).check limits account now).isSome →
    ((run step rows (events.take later)).check limits account now').isSome

/-- A server that is moved to DELETED while the breaker is tripped has cost no more today than the
surplus of the spend over a limit that is reached; the account's spend covers only its own servers. -/
def SparesTrip (limits : List CostLimit) (account : Uuid) (today : ℤ) (rows : CostRows) :
    Event → Prop
  | .move serverId .deleted => rows.movable serverId .deleted →
    (rows.check limits account today).isSome →
    Reached (getForAccount limits account)
      (rows.spentToday (rows.listAccountServerIds account) today -
        if serverId ∈ rows.listAccountServerIds account then rows.dayCost serverId today else 0) ∨
    Reached (getGlobal limits)
      (rows.spentToday rows.listNonDeletedIds today - rows.dayCost serverId today)
  | _ => True

/-- A server that moves to DELETED is among those that are not. -/
theorem mem_listNonDeletedIds (h : rows.movable serverId .deleted) :
    serverId ∈ rows.listNonDeletedIds := by
  rw [movable, Option.any_eq_true] at h
  obtain ⟨server, hserver, hallowed⟩ := h
  have hid : server.row.id = serverId := by simpa using List.find?_some hserver
  refine List.mem_map.mpr ⟨server, List.mem_filter.mpr ⟨List.mem_of_find?_eq_some hserver, ?_⟩, hid⟩
  rw [decide_eq_true_eq]
  intro hdeleted
  simp [hdeleted, ServerLifecycleState.allowed] at hallowed

/-- One event keeps a tripped breaker tripped exactly if it spares the trip. -/
theorem check_step {limits : List CostLimit} {account : Uuid} {today : ℤ} (event : Event) :
    ((rows.check limits account today).isSome →
      ((rows.step event).check limits account today).isSome) ↔
    SparesTrip limits account today rows event := by
  by_cases hdelete : ∃ serverId, event = .move serverId .deleted
  · obtain ⟨serverId, rfl⟩ := hdelete
    by_cases hmovable : rows.movable serverId .deleted
    · have hmem := mem_listNonDeletedIds hmovable
      rw [listNonDeletedIds_eq] at hmem
      have hafter := isSome_check (rows.step (.move serverId .deleted)) limits account today
      rw [listAccountServerIds_eq, listNonDeletedIds_eq, spentToday_delete hmovable,
        spentToday_delete hmovable, if_pos hmem] at hafter
      rw [hafter, SparesTrip, listAccountServerIds_eq, listNonDeletedIds_eq]
      exact ⟨fun h _ ↦ h, fun h ↦ h hmovable⟩
    · have hsame : rows.step (.move serverId .deleted) = rows := by
        rw [step, if_neg hmovable]
      rw [hsame]
      exact ⟨fun _ h ↦ absurd h hmovable, fun _ h ↦ h⟩
  · have hevent : ∀ serverId, event ≠ .move serverId .deleted :=
      fun serverId h ↦ hdelete ⟨serverId, h⟩
    have hspares : SparesTrip limits account today rows event := by
      unfold SparesTrip
      split
      · exact absurd rfl (hevent _)
      · trivial
    refine ⟨fun _ ↦ hspares, fun _ htripped ↦ ?_⟩
    rw [isSome_check] at htripped ⊢
    rw [listAccountServerIds_eq, listNonDeletedIds_eq] at htripped ⊢
    exact htripped.imp (·.mono (spentToday_le_step (fun _ _ ↦ rfl) hevent))
      (·.mono (spentToday_le_step (fun _ _ ↦ rfl) hevent))

/-- A tripped breaker stays tripped for the day exactly if every move to DELETED spares it. -/
theorem staysTripped_iff_sparesTrip (limits : List CostLimit) (account : Uuid) (today : ℤ)
    (rows : CostRows) (events : List Event) :
    StaysTripped limits account today rows events ↔
      Along step (SparesTrip limits account today) rows events := by
  have hpersists := persists_iff_along step
    (fun rows ↦ (rows.check limits account today).isSome = true) events rows
  have hstep : ∀ (rows : CostRows) event, True →
      (((rows.check limits account today).isSome →
        ((rows.step event).check limits account today).isSome) ↔
      SparesTrip limits account today rows event) := fun rows event _ ↦ check_step event
  rw [← along_congr hstep (fun _ _ _ _ ↦ trivial) events rows trivial, ← hpersists]
  constructor
  · intro h earlier later hle
    exact h earlier later today today hle rfl rfl
  · intro h earlier later now now' hle hnow hnow' htripped
    rw [check_of_dayOf hnow] at htripped
    rw [check_of_dayOf hnow']
    exact h earlier later hle htripped

end Spend

/-! ### A breaker that resets -/

namespace BreakerRuns

def serverId : Uuid := ⟨"9d2c7f10-0000-4000-8000-000000000001", .refl true⟩

def account : Uuid := ⟨"9d2c7f10-0000-4000-8000-000000000002", .refl true⟩

/-- A global cap of 100 minor units a day. -/
def cap : CostLimit where
  scope := .global
  limitMinor := 100
  scope_account := by decide
  limit_nonneg := by decide

def server : CloudServer where
  id := serverId
  userId := account
  providerKey := "hetzner"
  state := .deleteRequested

def period : AccrualPeriod where
  serverId := serverId
  walletId := account
  periodStart := 0
  periodEnd := Calendar.hour
  sellingMinor := 120
  idempotencyKey := "accrual"
  costMinor := 100
  currency := "EUR"
  costCurrency := "EUR"
  sellingCurrency := "EUR"

/-- One server, whose deletion is requested after an hour that cost all of the cap. -/
def spent : CostRows where
  servers := [⟨server, account⟩]
  periods := [period]
  cost_nonneg := by decide

end BreakerRuns

/-- The deletion of the server that spent the day's money lifts the breaker. -/
theorem not_staysTripped_of_delete :
    ¬ ∀ (limits : List CostLimit) (account : Uuid) (today : ℤ) (rows : CostRows)
      (events : List Event), StaysTripped limits account today rows events := by
  intro h
  have hlifted := h [BreakerRuns.cap] BreakerRuns.account 0 BreakerRuns.spent
    [.move BreakerRuns.serverId .deleted] 0 1 0 0 (by decide) rfl rfl (by decide +kernel)
  exact absurd hlifted (by decide +kernel)

end CostRows

end CloudPlatform.Compute
