import CloudPlatform.ProviderCapacity.Domain

/-!
# The capacity repository

The capacity row of one account and its evidence log, and the operations of
`SqlAlchemyAccountCapacityRepository` on them. Each operation is one transaction: some read the
settled record under a row lock, the others are single conditional updates, whose conditions compare
the stored state texts. `now` is the instant that the caller gives, `wall` the clock that a read
settles the record by and the database stamps the evidence with.
-/

namespace CloudPlatform.ProviderCapacity

open Billing (addSeconds)

/-- The row of an account, with the stored state text. -/
structure CapacityRow extends CapacityFacts where
  state : String := "healthy"
  observations := 0

/-- The row of one account, if there is one, and its evidence log, newest first. -/
structure AccountRows where
  row : Option CapacityRow := none
  events : List CapacityEvent := []

/-- The instant that an operation is given, and the clock of the machines. -/
structure Clock where
  now : ℤ
  wall : ℤ
  deriving DecidableEq

/-- `_state`: a text of a newer release never reads as healthy. -/
def stateOf (raw : String) : AccountCapacityState :=
  if raw = "healthy" then .healthy
  else if raw = "limit_reached" then .limitReached
  else if raw = "recovery_candidate" then .recoveryCandidate
  else .unknownAfterLimit

theorem stateOf_value (state : AccountCapacityState) : stateOf state.value = state := by
  cases state <;> decide

/-- `_capacity_from_row`. -/
def CapacityRow.capacity (row : CapacityRow) (wall : ℤ) : AccountCapacity :=
  ({ toCapacityFacts := row.toCapacityFacts, state := stateOf row.state } : AccountCapacity).settled
    wall

/-- The row is in one of the two states that refuse new orders, as an update compares it. -/
def CapacityRow.storedBlocked (row : CapacityRow) : Bool :=
  row.state ∈ [AccountCapacityState.limitReached.value, AccountCapacityState.unknownAfterLimit.value]

namespace AccountRows

/-- `ON CONFLICT DO NOTHING` on the kind and the source of an evidence row. -/
def appendOnce (events : List CapacityEvent) (event : CapacityEvent) : Option (List CapacityEvent) :=
  if event.sourceRef.isSome ∧
      events.any (fun other ↦ other.kind = event.kind ∧ other.sourceRef = event.sourceRef) then none
  else some (event :: events)

/-- The row after a refusal: a refusal of a healthy account starts a new outage. -/
def refused (row : CapacityRow) (observation : CapacityObservation) (observedAt expiresAt : ℤ) :
    CapacityRow :=
  let fresh := row.state = AccountCapacityState.healthy.value
  { state := AccountCapacityState.limitReached.value
    errorCode := observation.errorCode.or row.errorCode
    correlationId := observation.correlationId.or row.correlationId
    locationId := observation.locationId.or row.locationId
    productId := observation.productId.or row.productId
    observations := row.observations + 1
    observedAt := some observedAt
    expiresAt := some expiresAt
    baselineInstanceCount := if fresh then none else row.baselineInstanceCount
    baselineInstanceIdsHash := if fresh then none else row.baselineInstanceIdsHash
    baselineObservedAt := if fresh then none else row.baselineObservedAt
    recoveryAttempts := if fresh then 0 else row.recoveryAttempts
    lastRecoveryAttemptAt := row.lastRecoveryAttemptAt
    nextRecoveryAttemptAt := if fresh then none else row.nextRecoveryAttemptAt
    canaryLeaseExpiresAt := if fresh then none else row.canaryLeaseExpiresAt
    canaryLeaseRef := if fresh then none else row.canaryLeaseRef
    outageNotifiedAt := if fresh then none else row.outageNotifiedAt
    lastReminderAt := if fresh then none else row.lastReminderAt }

/-- The row that an insert of a refusal makes. -/
def firstRefusal (state : AccountCapacityState) (observation : CapacityObservation)
    (observedAt expiresAt : ℤ) : CapacityRow where
  state := state.value
  errorCode := observation.errorCode
  correlationId := observation.correlationId
  locationId := observation.locationId
  productId := observation.productId
  observations := 1
  observedAt := some observedAt
  expiresAt := some expiresAt

/-- `record_limit_reached`. -/
def recordLimitReached (rows : AccountRows) (observation : CapacityObservation) (ttlSeconds : ℤ)
    (clock : Clock) : Result (AccountRows × AccountCapacity) := do
  let ttl ← validateLimitTtl ttlSeconds
  let expiresAt ← addSeconds clock.now ttl
  let row := match rows.row with
    | none => firstRefusal .limitReached observation clock.now expiresAt
    | some row => refused row observation clock.now expiresAt
  let event : CapacityEvent :=
    { kind := .refusal, state := .limitReached, observation := observation,
      observedAt := some clock.now, expiresAt := some expiresAt, createdAt := clock.wall }
  return ({ row := some row, events := event :: rows.events }, row.capacity clock.wall)

/-- The instant of the last proof of recovery. -/
def clearedAt (rows : AccountRows) : Option ℤ :=
  ((rows.events.filter (·.kind ∈ [.cleared, .recovered])).map (·.createdAt)).max?

/-- The row after historical evidence: the columns of the evidence are written. -/
def reconciled (row : CapacityRow) (updated : AccountCapacity) : CapacityRow :=
  { row with
    state := updated.state.value
    errorCode := updated.errorCode
    correlationId := updated.correlationId
    locationId := updated.locationId
    productId := updated.productId
    observations := updated.observations
    observedAt := updated.observedAt
    expiresAt := updated.expiresAt }

/-- `record_historical_evidence`: a failure that was reconciled before changes nothing, and a later
proof of recovery wins over it. -/
def recordHistoricalEvidence (rows : AccountRows) (evidence : HistoricalCapacityEvidence)
    (ttlSeconds : ℤ) (clock : Clock) : Result (AccountRows × Option AccountCapacity) := do
  let ttl ← validateLimitTtl ttlSeconds
  let observedAt := evidence.observedAt.getD clock.now
  let expiresAt ← addSeconds observedAt ttl
  let current := rows.row.map (·.capacity clock.wall)
  let clearedWins := rows.clearedAt.any (observedAt ≤ ·) && current.any (·.state = .healthy)
  let resultingState : AccountCapacityState :=
    if clearedWins then .healthy
    else if clock.now < expiresAt then .limitReached
    else .unknownAfterLimit
  let observation ← evidence.asObservation
  let event : CapacityEvent :=
    { kind := .backfill, state := resultingState, observation := observation,
      sourceRef := some evidence.sourceRef, observedAt := some observedAt,
      expiresAt := some expiresAt, createdAt := clock.wall }
  match appendOnce rows.events event with
  | none => return (rows, none)
  | some events =>
    if clearedWins then
      return ({ rows with events := events }, current)
    else
      match rows.row with
      | none =>
        let row := firstRefusal resultingState observation observedAt expiresAt
        return ({ row := some row, events := events }, some (row.capacity clock.wall))
      | some row =>
        let updated ← (row.capacity clock.wall).withLimitReached observation ttl observedAt clock.wall
        let row := reconciled row updated
        return ({ row := some row, events := events }, some (row.capacity clock.wall))

/-- `record_inventory_census`: the first census of a blocked account is its baseline, a lower one
brings the next window forward. -/
def recordInventoryCensus (rows : AccountRows) (instanceCount : ℤ) (idsHash : String)
    (clock : Clock) : Result (AccountRows × Option AccountCapacity) := do
  rejectIf (instanceCount < 0) .valueError "instance_count must be >= 0"
  rejectIf (strip idsHash = "") .valueError "ids_hash must not be empty"
  match rows.row with
  | none => return (rows, none)
  | some row =>
    let record := row.capacity clock.wall
    if !record.isLimitReached clock.now then
      return (rows, some record)
    else
      let updated := match record.baselineInstanceCount with
        | none => record.withBaseline instanceCount.toNat idsHash clock.now
        | some baseline =>
          if instanceCount < baseline then { record with nextRecoveryAttemptAt := some clock.now }
          else record
      let row := { row with
        baselineInstanceCount := updated.baselineInstanceCount
        baselineInstanceIdsHash := updated.baselineInstanceIdsHash
        baselineObservedAt := updated.baselineObservedAt
        nextRecoveryAttemptAt := updated.nextRecoveryAttemptAt }
      return ({ rows with row := some row }, some (updated.settled clock.now))

/-- A conditional update of the row, and the row it returns. -/
def updateWhere (rows : AccountRows) (condition : CapacityRow → Bool)
    (change : CapacityRow → CapacityRow) : AccountRows × Option CapacityRow :=
  match rows.row.filter condition with
  | none => (rows, none)
  | some row => ({ rows with row := some (change row) }, some (change row))

/-- `bring_forward_recovery`. -/
def bringForwardRecovery (rows : AccountRows) (clock : Clock) : Result (AccountRows × Bool) :=
  let (rows, changed) := rows.updateWhere
    (fun row ↦ row.storedBlocked && row.nextRecoveryAttemptAt.all (clock.now < ·))
    fun row ↦ { row with nextRecoveryAttemptAt := some clock.now }
  .ok (rows, changed.isSome)

/-- `schedule_recovery`: the earliest schedule wins. -/
def scheduleRecovery (rows : AccountRows) (delaySeconds : ℤ) (clock : Clock) :
    Result (AccountRows × Option AccountCapacity) := do
  rejectIf (delaySeconds < minRecoveryDelaySeconds) .valueError
    s!"delay_seconds must be >= {minRecoveryDelaySeconds}"
  match rows.row with
  | none => return (rows, none)
  | some row =>
    let record := row.capacity clock.wall
    if !record.isLimitReached clock.now || record.nextRecoveryAttemptAt.isSome ||
        record.canaryLeaseHeld clock.now then
      return (rows, some record)
    else
      let scheduled ← record.withRecoveryScheduled delaySeconds clock.now
      let row := { row with nextRecoveryAttemptAt := scheduled.nextRecoveryAttemptAt }
      return ({ rows with row := some row }, some (scheduled.settled clock.now))

/-- `open_recovery_window`: the schedule is due and no lease is held. -/
def openRecoveryWindow (rows : AccountRows) (clock : Clock) :
    Result (AccountRows × Option AccountCapacity) :=
  let (rows, opened) := rows.updateWhere
    (fun row ↦ row.storedBlocked && row.nextRecoveryAttemptAt.any (· ≤ clock.now) &&
      row.canaryLeaseExpiresAt.all (· ≤ clock.now))
    fun row ↦ { row with
      state := AccountCapacityState.recoveryCandidate.value
      nextRecoveryAttemptAt := none
      canaryLeaseRef := none
      canaryLeaseExpiresAt := none }
  .ok (rows, opened.map (·.capacity clock.wall))

/-- The evidence log after an event that a replay does not repeat. -/
def withEvent (rows : AccountRows) (event : CapacityEvent) : AccountRows :=
  { rows with events := (appendOnce rows.events event).getD rows.events }

/-- `begin_canary_attempt`: one conditional update serializes the attempts. -/
def beginCanaryAttempt (rows : AccountRows) (ref : String) (leaseSeconds : ℤ) (clock : Clock) :
    Result (AccountRows × Option AccountCapacity) := do
  rejectIf (strip ref = "") .valueError "ref must not be empty"
  rejectIf (leaseSeconds < minRecoveryDelaySeconds) .valueError
    s!"lease_seconds must be >= {minRecoveryDelaySeconds}"
  let expiresAt ← addSeconds clock.now leaseSeconds
  let event : CapacityEvent :=
    { kind := .recoveryAttempt, state := .recoveryCandidate, observation := {},
      sourceRef := some ("canary:" ++ ref), observedAt := some clock.now, createdAt := clock.wall }
  match rows.updateWhere
    (fun row ↦ row.state = AccountCapacityState.recoveryCandidate.value &&
      row.canaryLeaseExpiresAt.all (· ≤ clock.now))
    fun row ↦ { row with
      canaryLeaseRef := some ref
      canaryLeaseExpiresAt := some expiresAt
      lastRecoveryAttemptAt := some clock.now } with
  | (rows, none) => return (rows, none)
  | (rows, some row) =>
    return (rows.withEvent event, some (row.capacity clock.wall))

/-- `release_canary_lease`. -/
def releaseCanaryLease (rows : AccountRows) (ref : Option String) (clock : Clock) :
    Result (AccountRows × Bool) :=
  let (rows, released) := rows.updateWhere
    (fun row ↦ row.canaryLeaseRef.isSome && row.canaryLeaseExpiresAt.any (clock.now < ·) &&
      ref.all (row.canaryLeaseRef = some ·))
    fun row ↦ { row with canaryLeaseRef := none, canaryLeaseExpiresAt := none }
  .ok (rows, released.isSome)

/-- The row after the canary of a lease was refused. -/
def canaryRefused (row : CapacityRow) (observation : CapacityObservation) (now expiresAt due : ℤ) :
    CapacityRow :=
  { row with
    state := AccountCapacityState.limitReached.value
    errorCode := observation.errorCode.or row.errorCode
    correlationId := observation.correlationId.or row.correlationId
    locationId := observation.locationId.or row.locationId
    productId := observation.productId.or row.productId
    observations := row.observations + 1
    observedAt := some now
    expiresAt := some expiresAt
    recoveryAttempts := row.recoveryAttempts + 1
    lastRecoveryAttemptAt := some now
    nextRecoveryAttemptAt := some due
    canaryLeaseRef := none
    canaryLeaseExpiresAt := none }

/-- `record_canary_refusal`: guarded by the lease reference. -/
def recordCanaryRefusal (rows : AccountRows) (ref : String) (observation : CapacityObservation)
    (delaySeconds ttlSeconds : ℤ) (clock : Clock) :
    Result (AccountRows × Option AccountCapacity) := do
  rejectIf (strip ref = "") .valueError "ref must not be empty"
  let ttl ← validateLimitTtl ttlSeconds
  rejectIf (delaySeconds < minRecoveryDelaySeconds) .valueError
    s!"delay_seconds must be >= {minRecoveryDelaySeconds}"
  let expiresAt ← addSeconds clock.now ttl
  let due ← addSeconds clock.now delaySeconds
  let event : CapacityEvent :=
    { kind := .refusal, state := .limitReached, observation := observation,
      sourceRef := some ("canary:" ++ ref), observedAt := some clock.now,
      expiresAt := some expiresAt, createdAt := clock.wall }
  match rows.updateWhere
    (fun row ↦ row.state = AccountCapacityState.recoveryCandidate.value &&
      row.canaryLeaseRef = some ref)
    (canaryRefused · observation clock.now expiresAt due) with
  | (rows, none) => return (rows, none)
  | (rows, some row) =>
    return (rows.withEvent event, some (row.capacity clock.wall))

/-- The row after eligibility is proven: the refusal evidence is kept. -/
def proven (row : CapacityRow) (now : ℤ) : CapacityRow :=
  { row with
    state := AccountCapacityState.healthy.value
    expiresAt := none
    observedAt := some now
    recoveryAttempts := 0
    nextRecoveryAttemptAt := none
    canaryLeaseRef := none
    canaryLeaseExpiresAt := none
    outageNotifiedAt := none
    lastReminderAt := none }

/-- `record_recovery_proven`: the canary that holds the lease was accepted. -/
def recordRecoveryProven (rows : AccountRows) (ref : String) (clock : Clock) :
    Result (AccountRows × Option AccountCapacity) := do
  rejectIf (strip ref = "") .valueError "ref must not be empty"
  let event : CapacityEvent :=
    { kind := .recovered, state := .healthy, observation := {},
      sourceRef := some ("canary:" ++ ref), observedAt := some clock.now, createdAt := clock.wall }
  match rows.updateWhere (fun row ↦ row.canaryLeaseRef = some ref) (proven · clock.now) with
  | (rows, none) => return (rows, rows.row.map (·.capacity clock.wall))
  | (rows, some row) =>
    return (rows.withEvent event, some (row.capacity clock.wall))

/-- `mark_outage_notified`. -/
def markOutageNotified (rows : AccountRows) (clock : Clock) : Result (AccountRows × Bool) :=
  let (rows, marked) := rows.updateWhere (fun row ↦ row.outageNotifiedAt.isNone)
    fun row ↦ { row with outageNotifiedAt := some clock.now }
  .ok (rows, marked.isSome)

/-- `mark_reminder_sent`. -/
def markReminderSent (rows : AccountRows) (clock : Clock) : Result (AccountRows × Bool) :=
  let (rows, marked) := rows.updateWhere (fun _ ↦ true)
    fun row ↦ { row with lastReminderAt := some clock.now }
  .ok (rows, marked.isSome)

/-- `record_healthy`: the operator's override. -/
def recordHealthy (rows : AccountRows) (clock : Clock) : Result (AccountRows × AccountCapacity) :=
  let row := match rows.row with
    | none => { observedAt := some clock.now }
    | some row => proven row clock.now
  let event : CapacityEvent :=
    { kind := .cleared, state := .healthy, observation := {}, observedAt := some clock.now,
      createdAt := clock.wall }
  .ok ({ row := some row, events := event :: rows.events }, row.capacity clock.wall)

/-- `settle_expired`: whether the row of the account was settled. -/
def settleExpired (rows : AccountRows) (clock : Clock) : Result (AccountRows × Bool) :=
  let (rows, settled) := rows.updateWhere
    (fun row ↦ row.state = AccountCapacityState.limitReached.value &&
      row.expiresAt.any (· ≤ clock.now))
    fun row ↦ { row with state := AccountCapacityState.unknownAfterLimit.value }
  .ok (rows, settled.isSome)

end AccountRows

end CloudPlatform.ProviderCapacity
