import CloudPlatform.ProviderCapacity.Repository
import CloudPlatform.Transition.Run

/-!
# Only proof reopens an account

The operations on the row of one account, in any order and at any clock values. `RowStep` says once
what an operation that proves nothing can do to a row that is not healthy: the state stays, or it is
one that refuses new orders, or the recovery window opens. From it follows what a whole run can do:
`onlyWindow_reopens`.
-/

namespace CloudPlatform.ProviderCapacity

open Transition

/-- An operation of the repository on the account. -/
inductive CapacityCall
  | recordLimitReached (observation : CapacityObservation) (ttlSeconds : ℤ)
  | recordHistoricalEvidence (evidence : HistoricalCapacityEvidence) (ttlSeconds : ℤ)
  | recordInventoryCensus (instanceCount : ℤ) (idsHash : String)
  | bringForwardRecovery
  | scheduleRecovery (delaySeconds : ℤ)
  | openRecoveryWindow
  | beginCanaryAttempt (ref : String) (leaseSeconds : ℤ)
  | releaseCanaryLease (ref : Option String)
  | recordCanaryRefusal (ref : String) (observation : CapacityObservation)
      (delaySeconds ttlSeconds : ℤ)
  | recordRecoveryProven (ref : String)
  | markOutageNotified
  | markReminderSent
  | recordHealthy
  | settleExpired
  deriving DecidableEq

/-- An operation and the clock values it meets. -/
structure CapacityEventAt where
  call : CapacityCall
  clock : Clock
  deriving DecidableEq

namespace AccountRows

/-- The rows after an operation; one that raises leaves them. -/
def step (rows : AccountRows) (event : CapacityEventAt) : AccountRows :=
  let clock := event.clock
  match event.call with
  | .recordLimitReached observation ttl =>
    (transaction rows (rows.recordLimitReached observation ttl clock)).2
  | .recordHistoricalEvidence evidence ttl =>
    (transaction rows (rows.recordHistoricalEvidence evidence ttl clock)).2
  | .recordInventoryCensus count hash =>
    (transaction rows (rows.recordInventoryCensus count hash clock)).2
  | .bringForwardRecovery => (transaction rows (rows.bringForwardRecovery clock)).2
  | .scheduleRecovery delay => (transaction rows (rows.scheduleRecovery delay clock)).2
  | .openRecoveryWindow => (transaction rows (rows.openRecoveryWindow clock)).2
  | .beginCanaryAttempt ref lease => (transaction rows (rows.beginCanaryAttempt ref lease clock)).2
  | .releaseCanaryLease ref => (transaction rows (rows.releaseCanaryLease ref clock)).2
  | .recordCanaryRefusal ref observation delay ttl =>
    (transaction rows (rows.recordCanaryRefusal ref observation delay ttl clock)).2
  | .recordRecoveryProven ref => (transaction rows (rows.recordRecoveryProven ref clock)).2
  | .markOutageNotified => (transaction rows (rows.markOutageNotified clock)).2
  | .markReminderSent => (transaction rows (rows.markReminderSent clock)).2
  | .recordHealthy => (transaction rows (rows.recordHealthy clock)).2
  | .settleExpired => (transaction rows (rows.settleExpired clock)).2

/-- The account must be kept out of new orders, as a reader at `wall` that asks at `now` sees it. -/
def isLimitReached (rows : AccountRows) (clock : Clock) : Bool :=
  rows.row.any fun row ↦ (row.capacity clock.wall).isLimitReached clock.now

/-- The operation is positive proof: the operator's override, or the acceptance of the canary whose
reference is the lease stored now. -/
def Proves (rows : AccountRows) (event : CapacityEventAt) : Prop :=
  event.call = .recordHealthy ∨
    ∃ row ∈ rows.row, ∃ ref, row.canaryLeaseRef = some ref ∧ event.call = .recordRecoveryProven ref

instance (rows : AccountRows) (event : CapacityEventAt) : Decidable (rows.Proves event) :=
  decidable_of_iff (event.call = .recordHealthy ∨ ∃ row ∈ rows.row, ∃ ref ∈ row.canaryLeaseRef,
    event.call = .recordRecoveryProven ref) Iff.rfl

/-- The operation opens the recovery window: not before the stored schedule, and with no unexpired
canary lease. -/
def OpensWindow (rows : AccountRows) (event : CapacityEventAt) : Prop :=
  event.call = .openRecoveryWindow ∧ ∃ row ∈ rows.row,
    (∃ due ∈ row.nextRecoveryAttemptAt, due ≤ event.clock.now) ∧
    ∀ wall, (row.capacity wall).canaryLeaseHeld event.clock.now = false

end AccountRows

/-! ### What a row refuses -/

/-- The row refuses new orders. -/
def CapacityRow.Blocked (row : CapacityRow) : Prop :=
  stateOf row.state = .limitReached ∨ stateOf row.state = .unknownAfterLimit

instance (row : CapacityRow) : Decidable row.Blocked :=
  inferInstanceAs (Decidable (_ ∨ _))

section Rows

variable {row : CapacityRow}

theorem isLimitReached_capacity (wall now : ℤ) :
    (row.capacity wall).isLimitReached now = true ↔ row.Blocked := by
  rw [CapacityRow.capacity, AccountCapacity.isLimitReached_settled,
    AccountCapacity.isLimitReached_iff, CapacityRow.Blocked]

/-- A text that is neither healthy nor a candidate refuses new orders. -/
theorem CapacityRow.blocked_iff : row.Blocked ↔ row.state ≠ AccountCapacityState.healthy.value ∧
      row.state ≠ AccountCapacityState.recoveryCandidate.value := by
  rw [CapacityRow.Blocked, stateOf]
  simp only [AccountCapacityState.value]
  split
  · simp_all
  · split
    · simp_all
    · split <;> simp_all

theorem CapacityRow.storedBlocked_blocked (h : row.storedBlocked = true) : row.Blocked := by
  rw [CapacityRow.storedBlocked, decide_eq_true_eq, List.mem_pair] at h
  rcases h with h | h <;> rw [CapacityRow.Blocked, h, stateOf_value] <;> simp

/-- What an operation that proves nothing can do to the state of a row. -/
inductive RowStep (rows : AccountRows) (event : CapacityEventAt) (row : CapacityRow) :
    CapacityRow → Prop
  | same {after : CapacityRow} (h : after.state = row.state) : RowStep rows event row after
  | blocked {after : CapacityRow} (h : after.Blocked) : RowStep rows event row after
  | opened {after : CapacityRow} (h : rows.OpensWindow event)
      (hafter : after.state = AccountCapacityState.recoveryCandidate.value) :
      RowStep rows event row after

/-- What the operations are to do to the rows of an account. -/
def KeepsRow (rows : AccountRows) (event : CapacityEventAt) (row : CapacityRow)
    (after : AccountRows) : Prop :=
  ∃ changed, after.row = some changed ∧ RowStep rows event row changed

variable {rows : AccountRows} {event : CapacityEventAt}

theorem keepsRow_self (hrow : rows.row = some row) : KeepsRow rows event row rows :=
  ⟨row, hrow, .same rfl⟩

/-- An operation that raises leaves the rows. -/
theorem keepsRow_transaction {α : Type} {outcome : Result (AccountRows × α)}
    (hrow : rows.row = some row)
    (hok : ∀ after reply, outcome = .ok (after, reply) → KeepsRow rows event row after) :
    KeepsRow rows event row (transaction rows outcome).2 := by
  cases outcome with
  | ok pair => exact hok pair.1 pair.2 rfl
  | error raised => exact keepsRow_self hrow

/-- A conditional update, by what it does to a row that meets its condition. -/
theorem keepsRow_updateWhere {condition : CapacityRow → Bool} {change : CapacityRow → CapacityRow}
    (hrow : rows.row = some row)
    (hchange : condition row = true → RowStep rows event row (change row)) :
    KeepsRow rows event row (rows.updateWhere condition change).1 := by
  rw [AccountRows.updateWhere, hrow]
  by_cases hcondition : condition row = true
  · rw [Option.filter_some_pos hcondition]
    exact ⟨change row, rfl, hchange hcondition⟩
  · rw [Option.filter_some_neg (by simpa using hcondition)]
    exact keepsRow_self hrow

/-- The state of the refusals, and of the evidence that is reconciled with a record. -/
theorem blocked_of_value (state : AccountCapacityState) (h : row.state = state.value)
    (hstate : state = .limitReached ∨ state = .unknownAfterLimit) : row.Blocked := by
  rw [CapacityRow.Blocked, h, stateOf_value]
  exact hstate

/-- A historical refusal leaves the settled state, or makes it a refusal. -/
theorem state_withLimitReached {record updated : AccountCapacity} {observation : CapacityObservation}
    {ttlSeconds observedAt now : ℤ}
    (h : record.withLimitReached observation ttlSeconds observedAt now = .ok updated) :
    updated.state = (record.settled now).state ∨ updated.state = .limitReached := by
  rw [AccountCapacity.withLimitReached] at h
  obtain ⟨ttl, -, h⟩ := bind_eq_ok.mp h
  simp only at h
  split at h
  · rw [← pure_eq_ok.mp h]
    exact .inl rfl
  · obtain ⟨expiresAt, -, h⟩ := bind_eq_ok.mp h
    rw [← pure_eq_ok.mp h]
    exact .inr rfl

/-- The state of a row that is reconciled with historical evidence. -/
theorem rowStep_reconciled {observation : CapacityObservation} {ttlSeconds observedAt wall : ℤ}
    {updated : AccountCapacity} (h : (row.capacity wall).withLimitReached observation ttlSeconds
      observedAt wall = .ok updated) (hrow : row.state ≠ AccountCapacityState.healthy.value) :
    RowStep rows event row (AccountRows.reconciled row updated) := by
  have hupdated : updated.state = .limitReached ∨ updated.state = .unknownAfterLimit →
      RowStep rows event row (AccountRows.reconciled row updated) :=
    fun hrefuses ↦ .blocked (blocked_of_value _ rfl hrefuses)
  rcases state_withLimitReached h with hsettled | hlimit
  · by_cases hcandidate : row.state = AccountCapacityState.recoveryCandidate.value
    · have hcapacity : (row.capacity wall).state = .recoveryCandidate := by
        rw [CapacityRow.capacity, hcandidate, stateOf_value]
        simp [AccountCapacity.settled]
      refine .same ?_
      change updated.state.value = row.state
      rw [hsettled, hcandidate, AccountCapacity.settled, if_neg (by simp [hcapacity]), hcapacity]
    · have hblocked : row.Blocked := CapacityRow.blocked_iff.mpr ⟨hrow, hcandidate⟩
      refine hupdated ?_
      rw [hsettled, ← AccountCapacity.isLimitReached_iff _ wall,
        AccountCapacity.isLimitReached_settled, isLimitReached_capacity]
      exact hblocked
  · exact hupdated (.inl hlimit)

variable {clock : Clock} {after : AccountRows} {reply : Option AccountCapacity}

/-- An update that returns the row it has changed, and appends an event. -/
theorem keepsRow_match {condition : CapacityRow → Bool} {change : CapacityRow → CapacityRow}
    {changedEvent : CapacityEvent} (hrow : rows.row = some row)
    (hok : (match rows.updateWhere condition change with
      | (rows, none) => (pure (rows, none) : Result (AccountRows × Option AccountCapacity))
      | (rows, some changed) =>
        pure (rows.withEvent changedEvent, some (changed.capacity clock.wall))) = .ok (after, reply))
    (hchange : condition row = true → RowStep rows event row (change row)) :
    KeepsRow rows event row after := by
  have hkeeps := keepsRow_updateWhere hrow hchange
  cases hupdate : rows.updateWhere condition change with
  | mk updated changed =>
    rw [hupdate] at hok hkeeps
    cases changed with
    | none =>
      obtain ⟨rfl, -⟩ := Prod.mk.inj (pure_eq_ok.mp hok)
      exact hkeeps
    | some changed =>
      obtain ⟨rfl, -⟩ := Prod.mk.inj (pure_eq_ok.mp hok)
      exact hkeeps

theorem keepsRow_recordHistoricalEvidence {evidence : HistoricalCapacityEvidence} {ttl : ℤ}
    (hrow : rows.row = some row) (hstate : row.state ≠ AccountCapacityState.healthy.value)
    (hok : rows.recordHistoricalEvidence evidence ttl clock = .ok (after, reply)) :
    KeepsRow rows event row after := by
  rw [AccountRows.recordHistoricalEvidence] at hok
  obtain ⟨ttl, -, hok⟩ := bind_eq_ok.mp hok
  obtain ⟨expiresAt, -, hok⟩ := bind_eq_ok.mp hok
  obtain ⟨observation, -, hok⟩ := bind_eq_ok.mp hok
  simp only [hrow] at hok
  split at hok
  · obtain ⟨rfl, -⟩ := Prod.mk.inj (pure_eq_ok.mp hok)
    exact keepsRow_self hrow
  · split at hok
    · obtain ⟨rfl, -⟩ := Prod.mk.inj (pure_eq_ok.mp hok)
      exact ⟨row, rfl, .same rfl⟩
    · obtain ⟨updated, hupdated, hok⟩ := bind_eq_ok.mp hok
      obtain ⟨rfl, -⟩ := Prod.mk.inj (pure_eq_ok.mp hok)
      exact ⟨_, rfl, rowStep_reconciled hupdated hstate⟩

theorem keepsRow_recordInventoryCensus {count : ℤ} {hash : String} (hrow : rows.row = some row)
    (hok : rows.recordInventoryCensus count hash clock = .ok (after, reply)) :
    KeepsRow rows event row after := by
  rw [AccountRows.recordInventoryCensus] at hok
  obtain ⟨-, hok⟩ := rejectIf_bind_eq_ok.mp hok
  obtain ⟨-, hok⟩ := rejectIf_bind_eq_ok.mp hok
  rw [hrow] at hok
  simp only at hok
  split at hok
  · obtain ⟨rfl, -⟩ := Prod.mk.inj (pure_eq_ok.mp hok)
    exact keepsRow_self hrow
  · obtain ⟨rfl, -⟩ := Prod.mk.inj (pure_eq_ok.mp hok)
    exact ⟨_, rfl, .same rfl⟩

theorem keepsRow_scheduleRecovery {delay : ℤ} (hrow : rows.row = some row)
    (hok : rows.scheduleRecovery delay clock = .ok (after, reply)) :
    KeepsRow rows event row after := by
  rw [AccountRows.scheduleRecovery] at hok
  obtain ⟨-, hok⟩ := rejectIf_bind_eq_ok.mp hok
  rw [hrow] at hok
  simp only at hok
  split at hok
  · obtain ⟨rfl, -⟩ := Prod.mk.inj (pure_eq_ok.mp hok)
    exact keepsRow_self hrow
  · obtain ⟨scheduled, -, hok⟩ := bind_eq_ok.mp hok
    obtain ⟨rfl, -⟩ := Prod.mk.inj (pure_eq_ok.mp hok)
    exact ⟨_, rfl, .same rfl⟩

/-- The update that opens the window meets its conditions. -/
theorem opensWindow_of_condition (hcall : event.call = .openRecoveryWindow)
    (hrow : rows.row = some row)
    (hcondition : (row.storedBlocked && row.nextRecoveryAttemptAt.any (· ≤ event.clock.now) &&
      row.canaryLeaseExpiresAt.all (· ≤ event.clock.now)) = true) : rows.OpensWindow event := by
  simp only [Bool.and_eq_true, Option.any_eq_true, Option.all_eq_true, decide_eq_true_eq]
    at hcondition
  obtain ⟨⟨-, due, hdue, hle⟩, hlease⟩ := hcondition
  refine ⟨hcall, row, hrow, ⟨due, hdue, hle⟩, fun wall ↦ ?_⟩
  rw [CapacityRow.capacity, AccountCapacity.canaryLeaseHeld, AccountCapacity.settled_facts]
  cases hexpires : row.canaryLeaseExpiresAt with
  | none => rfl
  | some expires => simpa using hlease expires hexpires

/-- One operation that proves nothing, on a row that is not healthy. -/
theorem keepsRow_step (hrow : rows.row = some row)
    (hstate : row.state ≠ AccountCapacityState.healthy.value) (hproof : ¬ rows.Proves event) :
    KeepsRow rows event row (rows.step event) := by
  rw [AccountRows.step]
  cases hcall : event.call with
  | recordLimitReached observation ttl =>
    refine keepsRow_transaction hrow fun after reply hok ↦ ?_
    rw [AccountRows.recordLimitReached] at hok
    obtain ⟨ttl, -, hok⟩ := bind_eq_ok.mp hok
    obtain ⟨expiresAt, -, hok⟩ := bind_eq_ok.mp hok
    rw [hrow, pure_eq_ok] at hok
    obtain ⟨rfl, -⟩ := Prod.mk.inj hok
    exact ⟨_, rfl, .blocked (blocked_of_value .limitReached rfl (.inl rfl))⟩
  | recordHistoricalEvidence evidence ttl =>
    exact keepsRow_transaction hrow fun after reply hok ↦
      keepsRow_recordHistoricalEvidence hrow hstate hok
  | recordInventoryCensus count hash =>
    exact keepsRow_transaction hrow fun after reply hok ↦ keepsRow_recordInventoryCensus hrow hok
  | bringForwardRecovery => exact keepsRow_updateWhere hrow fun _ ↦ .same rfl
  | scheduleRecovery delay =>
    exact keepsRow_transaction hrow fun after reply hok ↦ keepsRow_scheduleRecovery hrow hok
  | openRecoveryWindow =>
    exact keepsRow_updateWhere hrow fun hcondition ↦
      .opened (opensWindow_of_condition hcall hrow hcondition) rfl
  | beginCanaryAttempt ref lease =>
    refine keepsRow_transaction hrow fun after reply hok ↦ ?_
    rw [AccountRows.beginCanaryAttempt] at hok
    obtain ⟨-, hok⟩ := rejectIf_bind_eq_ok.mp hok
    obtain ⟨-, hok⟩ := rejectIf_bind_eq_ok.mp hok
    obtain ⟨expiresAt, -, hok⟩ := bind_eq_ok.mp hok
    exact keepsRow_match hrow hok fun _ ↦ .same rfl
  | releaseCanaryLease ref => exact keepsRow_updateWhere hrow fun _ ↦ .same rfl
  | recordCanaryRefusal ref observation delay ttl =>
    refine keepsRow_transaction hrow fun after reply hok ↦ ?_
    rw [AccountRows.recordCanaryRefusal] at hok
    obtain ⟨-, hok⟩ := rejectIf_bind_eq_ok.mp hok
    obtain ⟨ttl, -, hok⟩ := bind_eq_ok.mp hok
    obtain ⟨-, hok⟩ := rejectIf_bind_eq_ok.mp hok
    obtain ⟨expiresAt, -, hok⟩ := bind_eq_ok.mp hok
    obtain ⟨due, -, hok⟩ := bind_eq_ok.mp hok
    exact keepsRow_match hrow hok fun _ ↦
      .blocked (blocked_of_value .limitReached rfl (.inl rfl))
  | recordRecoveryProven ref =>
    refine keepsRow_transaction hrow fun after reply hok ↦ ?_
    rw [AccountRows.recordRecoveryProven] at hok
    obtain ⟨-, hok⟩ := rejectIf_bind_eq_ok.mp hok
    have hlease : row.canaryLeaseRef ≠ some ref :=
      fun h ↦ hproof (.inr ⟨row, hrow, ref, h, hcall⟩)
    have hnone : rows.row.filter (fun row ↦ row.canaryLeaseRef = some ref) = none := by
      rw [hrow, Option.filter_some_neg (by simpa using hlease)]
    rw [AccountRows.updateWhere, hnone] at hok
    obtain ⟨rfl, -⟩ := Prod.mk.inj (pure_eq_ok.mp hok)
    exact keepsRow_self hrow
  | markOutageNotified => exact keepsRow_updateWhere hrow fun _ ↦ .same rfl
  | markReminderSent => exact keepsRow_updateWhere hrow fun _ ↦ .same rfl
  | recordHealthy => exact absurd (.inl hcall) hproof
  | settleExpired =>
    exact keepsRow_updateWhere hrow fun _ ↦
      .blocked (blocked_of_value .unknownAfterLimit rfl (.inr rfl))

end Rows

/-! ### Whole runs -/

/-- There is a row, and it is not healthy. -/
def AccountRows.Unproven (rows : AccountRows) : Prop :=
  ∃ row ∈ rows.row, row.state ≠ AccountCapacityState.healthy.value

theorem RowStep.state_ne_healthy {rows : AccountRows} {event : CapacityEventAt}
    {row after : CapacityRow} (h : RowStep rows event row after)
    (hstate : row.state ≠ AccountCapacityState.healthy.value) :
    after.state ≠ AccountCapacityState.healthy.value := by
  cases h with
  | same h => rw [h]; exact hstate
  | blocked h => exact (CapacityRow.blocked_iff.mp h).1
  | opened _ hafter => rw [hafter]; decide

variable (rows : AccountRows)

/-- Without proof, an account that is not healthy stays so. -/
theorem unproven_step (event : CapacityEventAt) (h : rows.Unproven) (hproof : ¬ rows.Proves event) :
    (rows.step event).Unproven := by
  obtain ⟨row, hrow, hstate⟩ := h
  obtain ⟨after, hafter, hstep⟩ := keepsRow_step hrow hstate hproof
  exact ⟨after, hafter, hstep.state_ne_healthy hstate⟩

/-- Whether the account is kept out of new orders does not depend on the clock. -/
theorem isLimitReached_clock (first second : Clock) :
    rows.isLimitReached first = rows.isLimitReached second := by
  rw [AccountRows.isLimitReached, AccountRows.isLimitReached]
  cases rows.row with
  | none => rfl
  | some row =>
    rw [Bool.eq_iff_iff, Option.any_some, Option.any_some, isLimitReached_capacity,
      isLimitReached_capacity]

theorem isLimitReached_iff {rows : AccountRows} {row : CapacityRow} (hrow : rows.row = some row)
    (clock : Clock) : rows.isLimitReached clock = true ↔ row.Blocked := by
  rw [AccountRows.isLimitReached, hrow, Option.any_some, isLimitReached_capacity]

/-- An operation that lets the account take orders again opened the window. -/
def ReopensByWindow (rows : AccountRows) (event : CapacityEventAt) : Prop :=
  ∀ before after : Clock, rows.isLimitReached before = true →
    (rows.step event).isLimitReached after = false → rows.OpensWindow event

theorem reopensByWindow_step (event : CapacityEventAt) (h : rows.Unproven)
    (hproof : ¬ rows.Proves event) : ReopensByWindow rows event := by
  intro before after hbefore hafter
  obtain ⟨row, hrow, hstate⟩ := h
  obtain ⟨changed, hchanged, hstep⟩ := keepsRow_step hrow hstate hproof
  have hblocked := (isLimitReached_iff hrow before).mp hbefore
  have hfree : ¬ changed.Blocked := by
    rw [← isLimitReached_iff hchanged after, hafter]
    simp
  cases hstep with
  | same hsame =>
    refine absurd ?_ hfree
    rw [CapacityRow.Blocked, hsame]
    exact hblocked
  | blocked hrefuses => exact absurd hrefuses hfree
  | opened hopens _ => exact hopens

/-- From a blocked row, whatever the operations and the clock values, as long as none of them is
positive proof: the state is never healthy, whether orders are refused does not depend on the clock,
and only an opening of the recovery window, not before its schedule and with no unexpired lease, lets
the account take an order again. -/
theorem onlyWindow_reopens (rows : AccountRows) (row : CapacityRow) (hrow : rows.row = some row)
    (hblocked : row.Blocked) (events : List CapacityEventAt)
    (hproofless : Along AccountRows.step (fun rows event ↦ ¬ rows.Proves event) rows events) :
    Throughout AccountRows.step (fun rows ↦ (∃ row ∈ rows.row, row.state ≠ "healthy") ∧
        ∀ first second, rows.isLimitReached first = rows.isLimitReached second) rows events ∧
      Along AccountRows.step ReopensByWindow rows events := by
  have hstart : rows.Unproven := ⟨row, hrow, (CapacityRow.blocked_iff.mp hblocked).1⟩
  refine ⟨?_, ?_⟩
  · exact (throughout_of_along unproven_step events rows hstart hproofless).mono
      fun rows hrows ↦ ⟨hrows, isLimitReached_clock rows⟩
  · exact along_of_along unproven_step reopensByWindow_step events rows hstart hproofless

/-- A refusal, its schedule, and the opening of the window when that is due. -/
def reopening : List CapacityEventAt :=
  [⟨.recordLimitReached {} 3600, ⟨0, 0⟩⟩, ⟨.scheduleRecovery 900, ⟨0, 0⟩⟩,
    ⟨.openRecoveryWindow, ⟨899999999, 899999999⟩⟩, ⟨.openRecoveryWindow, ⟨900000000, 900000000⟩⟩]

theorem onlyWindow_reopens_reopening :
    (run AccountRows.step ⟨some { state := "limit_reached" }, []⟩ (reopening.take 3)).isLimitReached
      ⟨0, 0⟩ = true ∧
    (run AccountRows.step ⟨some { state := "limit_reached" }, []⟩ reopening).isLimitReached
      ⟨0, 0⟩ = false ∧
    Along AccountRows.step ReopensByWindow ⟨some { state := "limit_reached" }, []⟩ reopening :=
  ⟨by decide +kernel, by decide +kernel,
    (onlyWindow_reopens ⟨some { state := "limit_reached" }, []⟩ { state := "limit_reached" } rfl
      (by decide +kernel) reopening (by decide +kernel)).2⟩

end CloudPlatform.ProviderCapacity
