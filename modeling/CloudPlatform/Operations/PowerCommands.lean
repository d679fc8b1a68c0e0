import CloudPlatform.Operations.PowerExecutor

/-!
# Power commands

The way of a customer's power request: `powerAction` is the service under the management screens,
which checks the owner, the policy and the confirmation and makes a command key;
`PowerCommand.execute` looks the key up in the ledger, answers from a row that is settled, and
otherwise claims the operation and has it executed.
-/

namespace CloudPlatform.Operations

open Compute (ServerAggregate)

namespace PowerAction

/-- The table `_POWER_OP_TYPE`. -/
def operationType : PowerAction → OperationType
  | powerOn => .powerOn
  | powerOff => .powerOff
  | reboot => .reboot

@[simp] theorem powerAction_operationType (action : PowerAction) :
    action.operationType.powerAction = some action := by
  cases action <;> rfl

/-- The customer's operation behind an action. -/
def serverOperation : PowerAction → String
  | powerOn => "start"
  | powerOff => "stop"
  | reboot => "reboot"

end PowerAction

/-- `power_operation_key`. -/
def powerOperationKey (action : PowerAction) (serverId : Uuid) (idempotencyKey : String) : String :=
  s!"{action.value}:{serverId.text}:{idempotencyKey}"

structure PowerCommandResult where
  server : ServerAggregate
  replayed : Bool
  requeued : Bool := false

namespace PowerCommand

open ServerJob (perform)

/-- The row as it is after the command. -/
def reloaded (server : ServerAggregate) : JobProgram ServerAggregate := do
  let row ← perform (.server server.id)
  return row.getD server

/-- The claimed operation is executed. -/
def executeClaimed (settings : JobSettings) (server : ServerAggregate) (claimed : Operation) :
    JobProgram PowerCommandResult := do
  let result ← PowerExecutor.execute settings claimed
  let server ← reloaded server
  return { server := server, replayed := false, requeued := result = .requeued }

/-- The operation is claimed and executed. -/
def claimAndExecute (settings : JobSettings) (server : ServerAggregate) (operationId : Uuid) :
    JobProgram PowerCommandResult := do
  match ← perform (.claim operationId) with
  | none => throw ⟨.powerOperationInProgress, "power operation is in progress"⟩
  | some claimed => executeClaimed settings server claimed

/-- The state gate. -/
def notAllowed (action : PowerAction) (server : ServerAggregate) : Raised :=
  ⟨.powerActionNotAllowed, s!"{action.value} not allowed in state {server.state.value}"⟩

/-- What a recorded failure raises again. -/
def recordedFailure (operation : Operation) : Raised :=
  if operation.response.facts.get "outcome" = .text "unknown" then
    ⟨.powerOutcomeUnknown, if truthy operation.error then textOf operation.error
      else "power outcome is unknown; not re-sent"⟩
  else
    ⟨.powerOperationFailed, if truthy operation.error then textOf operation.error
      else "power operation failed"⟩

/-- An intent that the ledger has already. -/
def executeExisting (settings : JobSettings) (action : PowerAction) (server : ServerAggregate)
    (operation : Operation) : JobProgram PowerCommandResult :=
  match operation.status with
  | .completed => do
    let server ← reloaded server
    return { server := server, replayed := true }
  | .failed => throw (recordedFailure operation)
  | .inFlight => throw ⟨.powerOperationInProgress, "power operation is in progress"⟩
  | .pending | .outcomeUnknown =>
    if server.state ≠ action.precondition ∧ operation.attempts = 0 then
      throw (notAllowed action server)
    else
      claimAndExecute settings server operation.id

/-- A new intent. -/
def executeNew (settings : JobSettings) (action : PowerAction) (server : ServerAggregate)
    (key : String) : JobProgram PowerCommandResult :=
  if server.state ≠ action.precondition then throw (notAllowed action server)
  else do
    let operation ← perform (.getOrCreate {
      operationKey := key
      operationType := action.operationType
      resourceId := server.id
      providerKey := server.providerKey })
    claimAndExecute settings server operation.id

/-- The command for a server of the user. -/
def executeOwned (settings : JobSettings) (action : PowerAction) (server : ServerAggregate)
    (key : String) : JobProgram PowerCommandResult := do
  match ← perform (.operationByKey key) with
  | some operation => executeExisting settings action server operation
  | none => executeNew settings action server key

/-- `PowerCommandService._execute`. -/
def execute (settings : JobSettings) (action : PowerAction) (userId serverId : Uuid)
    (idempotencyKey : String) : JobProgram PowerCommandResult := do
  rejectIf (strip idempotencyKey = "") .powerCommand "idempotency_key is required"
  let key := powerOperationKey action serverId (strip idempotencyKey)
  rejectIf (128 < key.length) .powerCommand "idempotency_key too long"
  match ← perform (.server serverId) with
  | none => throw ⟨.powerNotOwner, "server not found"⟩
  | some server =>
    if server.userId ≠ userId then throw ⟨.powerNotOwner, "server not found"⟩
    else executeOwned settings action server key

end PowerCommand

/-! ### The requests of customers -/

/-- What the confirmation of a request comes to. -/
inductive Confirmation
  | notRequired
  | confirmed
  | alreadyConfirmed
  | refused (raised : Raised)

/-- A customer's power request. `permitted` is the answer of the feature policy and of the
provider's context. -/
structure PowerRequest where
  action : PowerAction
  customerId : Uuid
  serverId : Uuid
  idempotencyKey : Option String := none
  permitted : Result Unit := .ok ()
  confirmation : Confirmation := .notRequired

/-- The outcome of an accepted request; the token of one that is already confirmed is not acted on
again. -/
inductive PowerOutcome
  | accepted (replayed : Bool)
  | alreadyConfirmed
  deriving DecidableEq

namespace PowerRequest

/-- The command key of a request. -/
def commandKey (request : PowerRequest) : String :=
  if truthy request.idempotencyKey then textOf request.idempotencyKey
  else s!"bot-power:{request.serverId.text}:{request.action.value}"

/-- The key of the request in the ledger. -/
def ledgerKey (request : PowerRequest) : String :=
  powerOperationKey request.action request.serverId (strip request.commandKey)

/-- `ServerManagementUi._run_power`, and the stop of `_execute`: the key of a request that comes
from the screens. -/
def fromScreen (action : PowerAction) (customerId serverId : Uuid) : PowerRequest where
  action := action
  customerId := customerId
  serverId := serverId
  idempotencyKey := some s!"bot-power:{serverId.text}:{action.serverOperation}"
  confirmation := if action = .powerOff then .confirmed else .notRequired

open ServerJob (perform) in
/-- `_owned`. -/
def owned (request : PowerRequest) : JobProgram ServerAggregate := do
  match ← perform (.server request.serverId) with
  | none => throw ⟨.lookupError, "server not found"⟩
  | some server =>
    if server.userId ≠ request.customerId then throw ⟨.lookupError, "server not found"⟩
    else return server

end PowerRequest

/-- `_power_action`. -/
def powerAction (settings : JobSettings) (request : PowerRequest) : JobProgram PowerOutcome := do
  let server ← request.owned
  request.permitted
  match request.confirmation with
  | .refused raised => throw raised
  | .alreadyConfirmed => return .alreadyConfirmed
  | .notRequired | .confirmed =>
    let result ← PowerCommand.execute settings request.action request.customerId server.id
      request.commandKey
    return .accepted result.replayed

end CloudPlatform.Operations
