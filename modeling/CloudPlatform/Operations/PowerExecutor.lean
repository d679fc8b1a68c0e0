import CloudPlatform.Operations.ServerJobs

/-!
# The power executor

`PowerOperationExecutor` carries out one claimed power operation: it checks the state of the server,
buys the hour before a power-on or a reboot, sends the mutation under the operation's key and records
what came of it.
-/

namespace CloudPlatform.Operations

open Compute (ServerAggregate ServerLifecycleState)
open Providers (classifyProviderError isKeyError isProviderError)

namespace PowerAction

/-- The method of the adapter, and the text of the messages. -/
def value : PowerAction → String
  | .powerOn => "power_on"
  | .powerOff => "power_off"
  | .reboot => "reboot"

/-- The table `_POWER_PRECONDITION`. -/
def precondition : PowerAction → ServerLifecycleState
  | .powerOn => .stopped
  | .powerOff => .running
  | .reboot => .running

/-- The table `_POWER_TARGET`. -/
def target : PowerAction → Option ServerLifecycleState
  | .powerOn => some .running
  | .powerOff => some .stopped
  | .reboot => none

/-- The actions that deliver service: a power-on and a reboot. -/
def delivers (action : PowerAction) : Bool :=
  action ≠ .powerOff

/-- The targets: only an action that delivers service leads to RUNNING. -/
theorem target_spec {action : PowerAction} {target : ServerLifecycleState}
    (h : action.target = some target) :
    target ≠ .manualReview ∧ (target = .running → action.delivers = true) := by
  cases action <;> cases h <;> decide

end PowerAction

/-- The table `_OP_TYPE_TO_ACTION`. -/
def OperationType.powerAction : OperationType → Option PowerAction
  | .powerOn => some .powerOn
  | .powerOff => some .powerOff
  | .reboot => some .reboot
  | _ => none

/-- `POWER_OPERATION_TYPES`. -/
def powerOperationTypes : List OperationType :=
  [.powerOn, .powerOff, .reboot]

inductive PowerExecutionResult
  | executed
  | requeued
  deriving DecidableEq

namespace PowerExecutor

open ServerJob (perform requireHourlyPrepayment)

/-- `_fail`. -/
def fail {α : Type} (operation : Operation) (reason : String) (ambiguous : Bool := false) :
    JobProgram α := do
  let failed ← operation.fail reason
  let recorded := if ambiguous then
    { failed with providerResponse := some { facts := [("outcome", .text "unknown")] } } else failed
  let _ ← perform (.saveOperation recorded)
  throw ⟨if ambiguous then .powerOutcomeUnknown else .powerOperationFailed, reason⟩

/-- The operation goes back to PENDING. -/
def requeue (operation : Operation) (reason : String) : JobProgram PowerExecutionResult := do
  let requeued ← operation.requeue reason
  let _ ← perform (.saveOperation requeued)
  return .requeued

/-- The target state of an action on the copy; a rejected transition is logged. -/
def applyTarget (server : ServerAggregate) (action : PowerAction) : JobProgram Unit := do
  match action.target with
  | none => return ()
  | some target =>
    if server.state = action.precondition then
      match server.moveTo target with
      | .error _ => return ()
      | .ok moved =>
        let _ ← (perform (.saveServer moved)).attempt
    else
      return ()

/-- `_finish_power` and `_complete_probe_applied`, which records the probe. -/
def finishPower (operation : Operation) (server : ServerAggregate) (action : PowerAction)
    (probed : Bool := false) : JobProgram PowerExecutionResult := do
  let completed ← operation.complete { facts := [("action", .text action.value),
    ("idempotency_key", .text operation.operationKey)] ++
      if probed then [("probe", .text "already-applied")] else [] }
  let _ ← perform (.saveOperation completed)
  applyTarget server action
  return .executed

/-- `_invoke_power`, and the completion of what it has sent. -/
def invokePower (operation : Operation) (server : ServerAggregate) (action : PowerAction) :
    JobProgram PowerExecutionResult := do
  match ← (perform (.power action (textOf server.providerServerId)
      operation.operationKey)).attempt with
  | .ok _ => finishPower operation server action
  | .error raised =>
    if isProviderError raised.kind then
      if classifyProviderError raised = .retryable then requeue operation raised.message
      else fail operation raised.message (raised.kind = .providerOutcomeUnknown)
    else
      throw raised

/-- `_probe_power_effect`. -/
def probePowerEffect (server : ServerAggregate) (action : PowerAction) : JobProgram (Option Bool) := do
  match server.providerServerId with
  | none => return none
  | some providerServerId =>
    tryCatch (perform (.probePower providerServerId action)) fun raised ↦
      if isProviderError raised.kind then return none else throw raised

/-- The mutation, after the guard of a re-send. -/
def sendPower (provider : JobProvider) (operation : Operation) (server : ServerAggregate)
    (action : PowerAction) : JobProgram PowerExecutionResult := do
  if 2 ≤ operation.attempts && provider.powerProbe then
    match ← probePowerEffect server action with
    | some true => finishPower operation server action true
    | some false => invokePower operation server action
    | none =>
      if action = .reboot then
        requeue operation (action.value ++ " effect inconclusive after a timed-out attempt; " ++
          "not re-sending to avoid a second physical action")
      else
        invokePower operation server action
  else
    invokePower operation server action

/-- The prepayment of an action that delivers service, and the action. -/
def prepayAndSend (provider : JobProvider) (operation : Operation) (server : ServerAggregate)
    (action : PowerAction) : JobProgram PowerExecutionResult := do
  if action.delivers then
    match ← (requireHourlyPrepayment server).attempt with
    | .ok prepaid => sendPower provider operation prepaid action
    | .error raised =>
      if raised.kind = .insufficientBalance then
        fail operation "insufficient balance for next hour"
      else
        let requeued ← operation.requeue "hourly prepayment unavailable; provider action not sent"
        let _ ← perform (.saveOperation requeued)
        throw raised
  else
    sendPower provider operation server action

/-- The checks of a loaded server. -/
def executeOn (settings : JobSettings) (operation : Operation) (server : ServerAggregate)
    (action : PowerAction) : JobProgram PowerExecutionResult := do
  if !truthy server.providerServerId then
    fail operation "server has no provider resource id"
  else if server.state ≠ action.precondition then
    fail operation (s!"server left the expected state ({server.state.value}) before " ++
      s!"{action.value} was executed")
  else
    match settings.registry server.providerKey server.credentialAccountId with
    | .error raised =>
      if isKeyError raised.kind then fail operation s!"unknown provider '{server.providerKey}'"
      else throw raised
    | .ok provider =>
      if provider.power then prepayAndSend provider operation server action
      else fail operation "provider lacks POWER capability"

/-- `_execute_in_span`. -/
def execute (settings : JobSettings) (operation : Operation) : JobProgram PowerExecutionResult := do
  match operation.operationType.powerAction with
  | none => throw ⟨.powerCommand, s!"operation {operation.id.text} is not a power operation"⟩
  | some action =>
    match ← perform (.server operation.resourceId) with
    | none => fail operation "server row missing"
    | some server => executeOn settings operation server action

/-- The listed operations, one after another; a failed one does not stop the others. -/
def executeListed (settings : JobSettings) : List Operation → JobProgram Unit
  | [] => return ()
  | operation :: rest => do
    match ← perform (.claim operation.id) with
    | none => executeListed settings rest
    | some claimed =>
      match ← (execute settings claimed).attempt with
      | .ok _ => executeListed settings rest
      | .error raised =>
        if raised.kind ∈ [ErrorKind.powerOperationFailed, .powerOutcomeUnknown] then
          executeListed settings rest
        else
          throw raised

/-- `process_pending_power`. -/
def processPendingPower (settings : JobSettings) (limit : ℕ) : JobProgram Unit := do
  let pending ← perform (.listOperations powerOperationTypes .pending)
  executeListed settings (pending.take limit)

end PowerExecutor

end CloudPlatform.Operations
