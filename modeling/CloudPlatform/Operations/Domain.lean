import CloudPlatform.Core.Python

/-!
# The operation ledger domain

An operation is the durable intent of one provider-mutating action. Its status moves along
`OperationStatus.allowed`; the transitions of an in-memory `Operation` check that table and raise
otherwise. `providerResponse` is the JSON correlation of the row: the create routing receipt under
its own key, and the flat facts beside it.
-/

namespace CloudPlatform.Operations

/-! ### The routing receipt -/

/-- The phase of one account attempt. -/
inductive Phase
  | sent
  | capacityRefused
  | refused
  | outcomeUnknown
  | accepted
  deriving DecidableEq

/-- One attempt of a create on one credential account. -/
structure CreateRoutingAttempt where
  sequence : ℤ
  accountId : String
  phase : Phase
  errorCode : Option String := none
  quotaNames : List String := []
  providerServerId : Option String := none
  deriving DecidableEq

/-- The durable routing proof of one create intent. -/
structure CreateRoutingReceipt where
  version : ℤ
  policy : String
  catalogAccountId : Option String := none
  attempts : List CreateRoutingAttempt
  acceptedAccountId : Option String := none
  deriving DecidableEq

/-! ### The JSON correlation -/

/-- A JSON scalar of an operation's correlation. -/
inductive FactValue
  | null
  | flag (value : Bool)
  | number (value : ℤ)
  | text (value : String)
  deriving DecidableEq

/-- `bool(value)` of a JSON scalar. -/
def FactValue.truthy : FactValue → Bool
  | .null => false
  | .flag value => value
  | .number value => decide (value ≠ 0)
  | .text value => decide (value ≠ "")

/-- The JSON value of an optional string column. -/
def FactValue.ofOption : Option String → FactValue
  | none => .null
  | some value => .text value

/-- A flat JSON object; the first entry of a key is its value, so `later ++ earlier` is the merge
`{**earlier, **later}`. -/
abbrev Facts := List (String × FactValue)

/-- `facts.get(key)`. -/
def Facts.get (facts : Facts) (key : String) : FactValue :=
  (facts.lookup key).getD .null

/-- `key in facts`. -/
def Facts.has (facts : Facts) (key : String) : Bool :=
  (facts.lookup key).isSome

@[simp] theorem Facts.get_nil (key : String) : Facts.get [] key = .null :=
  rfl

theorem Facts.get_cons (key other : String) (value : FactValue) (rest : Facts) :
    Facts.get ((key, value) :: rest) other = if other = key then value else rest.get other := by
  by_cases h : other = key
  · simp [Facts.get, h]
  · have hne : (other == key) = false := by simpa using h
    simp [Facts.get, List.lookup_cons, hne, h]

theorem Facts.get_append (later earlier : Facts) (key : String) : Facts.get (later ++ earlier) key =
      if later.has key then later.get key else earlier.get key := by
  cases h : List.lookup key later with
  | none => simp [Facts.get, Facts.has, List.lookup_append, h]
  | some value => simp [Facts.get, Facts.has, List.lookup_append, h]

@[simp] theorem FactValue.truthy_null : FactValue.null.truthy = false :=
  rfl

@[simp] theorem FactValue.truthy_ofOption (value : Option String) :
    (FactValue.ofOption value).truthy = CloudPlatform.truthy value := by
  cases value <;> rfl

/-- The `provider_response` document: the receipt under `create_routing`, and the other keys. -/
structure ProviderResponse where
  createRouting : Option CreateRoutingReceipt := none
  facts : Facts := []
  deriving DecidableEq

/-! ### Operations -/

inductive OperationType
  | serverCreate
  | orderCreate
  | powerOn
  | powerOff
  | reboot
  | serverDelete
  | serverRebuild
  | rescueEnable
  | rescueDisable
  deriving DecidableEq

inductive OperationStatus
  | pending
  | inFlight
  | completed
  | failed
  | outcomeUnknown
  deriving DecidableEq

/-- The status text, as the row and the error messages have it. -/
def OperationStatus.value : OperationStatus → String
  | .pending => "pending"
  | .inFlight => "in_flight"
  | .completed => "completed"
  | .failed => "failed"
  | .outcomeUnknown => "outcome_unknown"

/-- The table `_ALLOWED` of legal status transitions. -/
def OperationStatus.allowed : OperationStatus → List OperationStatus
  | .pending => [.inFlight]
  | .inFlight => [.pending, .completed, .failed, .outcomeUnknown]
  | .completed => []
  | .failed => []
  | .outcomeUnknown => [.completed]

/-- One provider-mutating intent. Instants are microseconds since the epoch. -/
structure Operation where
  id : Uuid
  operationKey : String
  operationType : OperationType
  resourceType : String
  resourceId : Uuid
  providerKey : String
  status : OperationStatus := .pending
  providerResponse : Option ProviderResponse := none
  error : Option String := none
  attempts : ℕ := 0
  createdAt : Option ℤ := none
  updatedAt : Option ℤ := none
  deriving DecidableEq

/-- `provider_response or {}`. -/
def Operation.response (operation : Operation) : ProviderResponse :=
  operation.providerResponse.getD {}

namespace Operation

/-- `Operation.is_terminal`. -/
def isTerminal (operation : Operation) : Bool :=
  operation.status ∈ [OperationStatus.completed, .failed, .outcomeUnknown]

/-- `Operation._transition_to`. -/
def transitionTo (operation : Operation) (target : OperationStatus) : Result Operation := do
  rejectIf (target ∉ operation.status.allowed) .invalidOperationTransition
    s!"operation {operation.operationKey}: {operation.status.value} -> {target.value}"
  return { operation with status := target }

/-- `Operation.requeue`: a retryable failure, back to PENDING. -/
def requeue (operation : Operation) (error : String) : Result Operation := do
  let moved ← operation.transitionTo .pending
  return { moved with error := some error }

/-- `Operation.complete`: record the provider correlation, keeping the routing proof. -/
def complete (operation : Operation) (correlation : ProviderResponse) : Result Operation := do
  let existing := operation.response
  rejectIf (existing.createRouting.isSome && correlation.createRouting.isSome &&
      correlation.createRouting ≠ existing.createRouting) .valueError
    "completion cannot replace durable create routing proof"
  let moved ← operation.transitionTo .completed
  let routing := if existing.createRouting.isSome then existing.createRouting
    else correlation.createRouting
  return { moved with
    providerResponse := some { createRouting := routing, facts := correlation.facts }
    error := none }

/-- `Operation.fail`: a permanent failure. -/
def fail (operation : Operation) (error : String) : Result Operation := do
  let moved ← operation.transitionTo .failed
  return { moved with error := some error }

/-- `Operation.mark_outcome_unknown`: a billable mutation was sent and its result is unknown. -/
def markOutcomeUnknown (operation : Operation) (error : String) : Result Operation := do
  let moved ← operation.transitionTo .outcomeUnknown
  return { moved with error := some error }

/-- `Operation.reopen_for_retry`: the manual FAILED -> PENDING, outside the table. -/
def reopenForRetry (operation : Operation) : Result Operation := do
  rejectIf (operation.status ≠ .failed) .invalidOperationTransition
    (s!"operation {operation.operationKey}: {operation.status.value} -> retry " ++
      "(only FAILED operations may be reopened)")
  return { operation with status := .pending }

/-- `Operation.mark_verified_absent`: the manual OUTCOME_UNKNOWN -> PENDING, outside the table. -/
def markVerifiedAbsent (operation : Operation) : Result Operation := do
  rejectIf (operation.status ≠ .outcomeUnknown) .invalidOperationTransition
    (s!"operation {operation.operationKey}: {operation.status.value} -> pending " ++
      "(only OUTCOME_UNKNOWN operations may be reset after verified absence)")
  return { operation with status := .pending }

/-! ### What a transition changes -/

variable {operation moved : Operation} {error : String}

theorem transitionTo_eq_ok {target : OperationStatus} : operation.transitionTo target = .ok moved ↔
      target ∈ operation.status.allowed ∧ moved = { operation with status := target } := by
  unfold transitionTo
  rw [rejectIf_bind_eq_ok, pure_eq_ok, decide_eq_false_iff_not, not_not]
  exact and_congr_right fun _ ↦ eq_comm

/-- A transition changes the status along the table and keeps the generation. -/
structure Moves (operation moved : Operation) (target : OperationStatus) : Prop where
  target_mem : target ∈ operation.status.allowed
  status_eq : moved.status = target
  attempts_eq : moved.attempts = operation.attempts

theorem requeue_moves (h : operation.requeue error = .ok moved) :
    Moves operation moved .pending := by
  obtain ⟨middle, hmove, hdone⟩ := bind_eq_ok.mp h
  obtain ⟨htarget, rfl⟩ := transitionTo_eq_ok.mp hmove
  obtain rfl := pure_eq_ok.mp hdone
  exact ⟨htarget, rfl, rfl⟩

theorem complete_moves {correlation : ProviderResponse}
    (h : operation.complete correlation = .ok moved) : Moves operation moved .completed := by
  obtain ⟨-, hrest⟩ := rejectIf_bind_eq_ok.mp h
  obtain ⟨middle, hmove, hdone⟩ := bind_eq_ok.mp hrest
  obtain ⟨htarget, rfl⟩ := transitionTo_eq_ok.mp hmove
  obtain rfl := pure_eq_ok.mp hdone
  exact ⟨htarget, rfl, rfl⟩

theorem fail_moves (h : operation.fail error = .ok moved) : Moves operation moved .failed := by
  obtain ⟨middle, hmove, hdone⟩ := bind_eq_ok.mp h
  obtain ⟨htarget, rfl⟩ := transitionTo_eq_ok.mp hmove
  obtain rfl := pure_eq_ok.mp hdone
  exact ⟨htarget, rfl, rfl⟩

theorem markOutcomeUnknown_moves (h : operation.markOutcomeUnknown error = .ok moved) :
    Moves operation moved .outcomeUnknown := by
  obtain ⟨middle, hmove, hdone⟩ := bind_eq_ok.mp h
  obtain ⟨htarget, rfl⟩ := transitionTo_eq_ok.mp hmove
  obtain rfl := pure_eq_ok.mp hdone
  exact ⟨htarget, rfl, rfl⟩

end Operation

end CloudPlatform.Operations
