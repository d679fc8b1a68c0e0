import CloudPlatform.Billing.Domain

/-!
# Provider account capacity

What the platform has learned about the capacity of one credential account: its state, the evidence
of the last refusal, the inventory baseline, the recovery schedule and the lease of the canary order.
A refusal grows stale but never turns into eligibility by itself. Instants are microseconds since the
epoch; a method that reads the clock takes the instant.
-/

namespace CloudPlatform.ProviderCapacity

open Billing (addSeconds)

/-- Whether an account may receive new billable orders. -/
inductive AccountCapacityState
  | healthy
  | limitReached
  | unknownAfterLimit
  | recoveryCandidate
  deriving DecidableEq

/-- The state text of the row. -/
def AccountCapacityState.value : AccountCapacityState → String
  | .healthy => "healthy"
  | .limitReached => "limit_reached"
  | .unknownAfterLimit => "unknown_after_limit"
  | .recoveryCandidate => "recovery_candidate"

/-- Why a row of the evidence log exists. -/
inductive CapacityEventKind
  | refusal
  | backfill
  | cleared
  | recoveryAttempt
  | recovered
  deriving DecidableEq

/-- A text that may be left out, but is not blank. -/
def notBlank (text : Option String) : Bool :=
  text.all fun value ↦ strip value ≠ ""

/-- The evidence attached to one capacity signal. -/
structure CapacityObservation where
  errorCode : Option String := none
  correlationId : Option String := none
  locationId : Option String := none
  productId : Option String := none
  errorCode_notBlank : notBlank errorCode = true := by exact .refl true
  correlationId_notBlank : notBlank correlationId = true := by exact .refl true
  locationId_notBlank : notBlank locationId = true := by exact .refl true
  productId_notBlank : notBlank productId = true := by exact .refl true
  deriving DecidableEq

/-- `CapacityObservation.__post_init__`, for an observation of an error code and a correlation id. -/
def CapacityObservation.ofTexts (errorCode correlationId : Option String) :
    Result CapacityObservation :=
  if herror : notBlank errorCode = true then
    if hcorrelation : notBlank correlationId = true then
      .ok { errorCode, correlationId, errorCode_notBlank := herror,
            correlationId_notBlank := hcorrelation }
    else raise .valueError "correlation_id must be a non-empty string when supplied"
  else raise .valueError "error_code must be a non-empty string when supplied"

/-- A refusal that a past provider operation proves. -/
structure HistoricalCapacityEvidence where
  sourceRef : String
  errorCode : Option String := none
  correlationId : Option String := none
  observedAt : Option ℤ := none
  sourceRef_nonblank : ¬ strip sourceRef = ""
  deriving DecidableEq

/-- `as_observation`. -/
def HistoricalCapacityEvidence.asObservation (evidence : HistoricalCapacityEvidence) :
    Result CapacityObservation :=
  CapacityObservation.ofTexts evidence.errorCode evidence.correlationId

/-- One row of the append-only evidence log. -/
structure CapacityEvent where
  kind : CapacityEventKind
  state : AccountCapacityState
  observation : CapacityObservation
  sourceRef : Option String := none
  observedAt : Option ℤ := none
  expiresAt : Option ℤ := none
  createdAt : ℤ

/-- What the row and the record share: everything but the state. -/
structure CapacityFacts where
  errorCode : Option String := none
  correlationId : Option String := none
  locationId : Option String := none
  productId : Option String := none
  observations : ℕ := 1
  observedAt : Option ℤ := none
  expiresAt : Option ℤ := none
  baselineInstanceCount : Option ℕ := none
  baselineInstanceIdsHash : Option String := none
  baselineObservedAt : Option ℤ := none
  recoveryAttempts : ℕ := 0
  lastRecoveryAttemptAt : Option ℤ := none
  nextRecoveryAttemptAt : Option ℤ := none
  canaryLeaseExpiresAt : Option ℤ := none
  canaryLeaseRef : Option String := none
  outageNotifiedAt : Option ℤ := none
  lastReminderAt : Option ℤ := none

/-- One account's eligibility for new orders, with its evidence. -/
structure AccountCapacity extends CapacityFacts where
  state : AccountCapacityState := .healthy

/-- `MIN_LIMIT_TTL_SECONDS`. -/
def minLimitTtlSeconds : ℤ := 60

/-- `MIN_RECOVERY_DELAY_SECONDS`. -/
def minRecoveryDelaySeconds : ℤ := 60

/-- `validate_limit_ttl`. -/
def validateLimitTtl (ttlSeconds : ℤ) : Result ℤ := do
  rejectIf (ttlSeconds < minLimitTtlSeconds) .valueError
    s!"ttl_seconds must be >= {minLimitTtlSeconds}"
  return ttlSeconds

theorem validateLimitTtl_of_le {ttlSeconds : ℤ} (h : minLimitTtlSeconds ≤ ttlSeconds) :
    validateLimitTtl ttlSeconds = .ok ttlSeconds :=
  rejectIf_bind (decide_eq_false (not_lt.mpr h)) _

namespace AccountCapacity

/-- `expired`: the evidence is no longer fresh. -/
def expired (record : AccountCapacity) (now : ℤ) : Bool :=
  record.expiresAt.any (· ≤ now)

/-- `settled`: a stale refusal is unknown, never healthy. -/
def settled (record : AccountCapacity) (now : ℤ) : AccountCapacity :=
  if record.state = .limitReached ∧ record.expired now then
    { record with state := .unknownAfterLimit }
  else record

/-- `is_limit_reached`. -/
def isLimitReached (record : AccountCapacity) (now : ℤ) : Bool :=
  (record.settled now).state ∈ [.limitReached, .unknownAfterLimit]

/-- `canary_lease_held`: another attempt is in flight. -/
def canaryLeaseHeld (record : AccountCapacity) (now : ℤ) : Bool :=
  record.canaryLeaseExpiresAt.any (now < ·)

/-- `recovery_window_due`. -/
def recoveryWindowDue (record : AccountCapacity) (now : ℤ) : Bool :=
  record.isLimitReached now && record.nextRecoveryAttemptAt.any (· ≤ now)

/-- `with_baseline`. -/
def withBaseline (record : AccountCapacity) (instanceCount : ℕ) (idsHash : String) (now : ℤ) :
    AccountCapacity :=
  { record with
    baselineInstanceCount := some instanceCount
    baselineInstanceIdsHash := some idsHash
    baselineObservedAt := some now }

/-- `with_recovery_scheduled`. -/
def withRecoveryScheduled (record : AccountCapacity) (delaySeconds now : ℤ) :
    Result AccountCapacity := do
  rejectIf (delaySeconds < minRecoveryDelaySeconds) .valueError
    s!"delay_seconds must be >= {minRecoveryDelaySeconds}"
  let due ← addSeconds now delaySeconds
  return { record with nextRecoveryAttemptAt := some due }

/-- `with_limit_reached`, as a historical refusal uses it: an older observation does not move the
window backwards. -/
def withLimitReached (record : AccountCapacity) (observation : CapacityObservation)
    (ttlSeconds observedAt now : ℤ) : Result AccountCapacity := do
  let ttl ← validateLimitTtl ttlSeconds
  let current := record.settled now
  if current.observedAt.any (observedAt < ·) ∧ current.state ≠ .healthy then
    return { current with observations := current.observations + 1 }
  else
    let expiresAt ← addSeconds observedAt ttl
    return { record with
      state := .limitReached
      errorCode := observation.errorCode.or record.errorCode
      correlationId := observation.correlationId.or record.correlationId
      locationId := observation.locationId.or record.locationId
      productId := observation.productId.or record.productId
      observations := record.observations + 1
      observedAt := some observedAt
      expiresAt := some expiresAt }

/-! ### Time alone decides nothing -/

variable (record : AccountCapacity) (now later : ℤ)

theorem settled_state : (record.settled now).state = record.state ∨
    record.state = .limitReached ∧ (record.settled now).state = .unknownAfterLimit := by
  rw [settled]
  split
  · rename_i hstale
    exact .inr ⟨hstale.1, rfl⟩
  · exact .inl rfl

/-- Settling at any instant changes the state only. -/
theorem settled_facts : (record.settled now).toCapacityFacts = record.toCapacityFacts := by
  rw [settled]
  split <;> rfl

/-- Whether new orders are refused does not depend on the instant. -/
theorem isLimitReached_iff : record.isLimitReached now = true ↔
    record.state = .limitReached ∨ record.state = .unknownAfterLimit := by
  rw [isLimitReached, decide_eq_true_eq]
  rcases record.settled_state now with hsame | ⟨hlimit, hunknown⟩
  · rw [hsame]
    simp
  · simp [hlimit, hunknown]

/-- Settling at one instant does not change whether new orders are refused at another. -/
theorem isLimitReached_settled :
    (record.settled now).isLimitReached later = record.isLimitReached later := by
  rw [Bool.eq_iff_iff, isLimitReached_iff, isLimitReached_iff]
  rcases record.settled_state now with hsame | ⟨hlimit, hunknown⟩
  · rw [hsame]
  · simp [hlimit, hunknown]

end AccountCapacity

end CloudPlatform.ProviderCapacity
