import CloudPlatform.Operations.ServerJobs
import CloudPlatform.Transition.Evaluation

/-!
# Rebuilds

`RebuildCommandService.request` makes one operation for a server and a command key and executes it
with the image of the request; `RebuildWorker.process_pending` executes what is pending with the
image that `image_lookup` answers. The row of an operation has no image. Requests and passes come
one after another.
-/

namespace CloudPlatform.Operations

open Compute (CloudServer ServerLifecycleState)
open Providers (classifyProviderError isKeyError isProviderError)
open Rows (Table)
open Transition (Program)

/-! ### The shared rows -/

/-- A rebuild that was sent to the provider for an operation. -/
structure RebuildSent where
  operationKey : String
  providerServerId : String
  image : String
  deriving DecidableEq

/-- The audit record of a confirmed request: its operation and its image. -/
structure RebuildRequested where
  operationKey : String
  image : String

/-- The ledger, the audit records of the requests and what was sent, the latest last. -/
structure RebuildRows where
  operations : Table Operation.id
  requested : List RebuildRequested := []
  sent : List RebuildSent := []

/-- The calls of the rebuild flow. `lookupImage` also says which operation asks. -/
inductive RebuildCall where
  | server (id : Uuid)
  | operationByKey (key : String)
  | getOrCreate (intent : OperationIntent)
  | recordRequested (record : RebuildRequested)
  | claim (operationId : Uuid)
  | saveOperation (copy : Operation)
  | listPending
  | rebuildSupport (providerKey : String) (accountId : Option String)
  | lookupImage (serverId operationId : Uuid)
  | rebuild (sending : RebuildSent)

/-- What is outside the rows at one call; `image` is what `image_lookup` answers to an operation. -/
structure RebuildChance where
  now : ℤ
  newId : Uuid
  server : Option CloudServer := none
  support : Result Bool := .ok true
  image : Uuid → Result (Option String) := fun _ ↦ .ok none
  sent : Result String := .ok ""

namespace RebuildCall

abbrev Out : RebuildCall → Type
  | server _ => Option CloudServer
  | operationByKey _ => Option Operation
  | getOrCreate _ => Operation
  | recordRequested _ => Unit
  | claim _ => Option Operation
  | saveOperation _ => Operation
  | listPending => List Operation
  | rebuildSupport .. => Bool
  | lookupImage .. => Option String
  | rebuild _ => String

/-- One call as one step. -/
def handle :
    (request : RebuildCall) → RebuildChance → RebuildRows → Result request.Out × RebuildRows
  | server id, chance, rows => (.ok (chance.server.filter (·.id = id)), rows)
  | operationByKey key, _, rows =>
    (.ok (rows.operations.rows.find? (·.operationKey = key)), rows)
  | getOrCreate intent, chance, rows =>
    match rows.operations.rows.find? (·.operationKey = intent.operationKey) with
    | some operation => (.ok operation, rows)
    | none =>
      if rows.operations.get chance.newId = none then
        let created : Operation :=
          { id := chance.newId
            operationKey := intent.operationKey
            operationType := intent.operationType
            resourceType := "server"
            resourceId := intent.resourceId
            providerKey := intent.providerKey
            createdAt := some chance.now
            updatedAt := some chance.now }
        (.ok created, { rows with operations := rows.operations.put created })
      else (raise .integrityError "operations_pkey", rows)
  | recordRequested record, _, rows =>
    (.ok (), { rows with requested := rows.requested ++ [record] })
  | claim operationId, chance, rows =>
    match rows.operations.get operationId with
    | none => (.ok none, rows)
    | some row =>
      let (after, claimed) := Operations.claim row chance.now
      (.ok claimed, { rows with operations := rows.operations.put after })
  | saveOperation copy, chance, rows =>
    match Operations.save (rows.operations.get copy.id) copy chance.now with
    | .ok saved => (.ok saved, { rows with operations := rows.operations.put saved })
    | .error raised => (.error raised, rows)
  | listPending, _, rows =>
    (.ok (rows.operations.rows.filter fun operation ↦
      operation.operationType = .serverRebuild ∧ operation.status = .pending), rows)
  | rebuildSupport _ _, chance, rows => (chance.support, rows)
  | lookupImage _ operationId, chance, rows => (chance.image operationId, rows)
  | rebuild sending, chance, rows => (chance.sent, { rows with sent := rows.sent ++ [sending] })

end RebuildCall

abbrev RebuildProgram := Program Raised RebuildCall RebuildCall.Out

/-- `REBUILD_PRECONDITION_STATES`. -/
def rebuildPreconditionStates : List ServerLifecycleState :=
  [.running, .stopped]

/-- `rebuild_operation_key`. -/
def rebuildOperationKey (serverId : Uuid) (idempotencyKey : String) : String :=
  s!"server-rebuild:{serverId.text}:{idempotencyKey}"

inductive RebuildExecutionResult where
  | executed
  | requeued
  deriving DecidableEq

structure RebuildCommandResult where
  server : CloudServer
  replayed : Bool
  requeued : Bool := false

/-! ### The executor -/

namespace RebuildExecutor

def perform (request : RebuildCall) : RebuildProgram request.Out :=
  Program.perform request

/-- `_fail`. -/
def fail {α : Type} (operation : Operation) (reason : String) : RebuildProgram α := do
  let failed ← operation.fail reason
  let _ ← perform (.saveOperation failed)
  throw ⟨.rebuildOperationFailed, reason⟩

/-- The provider's call with the resolved image, and its outcome on the operation. -/
def send (operation : Operation) (providerServerId image : String) :
    RebuildProgram RebuildExecutionResult := do
  match ← (perform (.rebuild ⟨operation.operationKey, providerServerId, image⟩)).attempt with
  | .ok status =>
    let completed ← operation.complete { facts := [("action", .text "rebuild"),
      ("image", .text image), ("provider_status", .text status)] }
    let _ ← perform (.saveOperation completed)
    return .executed
  | .error raised =>
    if isProviderError raised.kind then
      if classifyProviderError raised = .retryable then
        let requeued ← operation.requeue raised.message
        let _ ← perform (.saveOperation requeued)
        return .requeued
      else
        fail operation raised.message
    else
      throw raised

/-- The target image: the one given, or what `image_lookup` answers where there is one. -/
def targetImage (lookup : Bool) (image : Option String) (serverId operationId : Uuid) :
    RebuildProgram (Option String) :=
  if image = none ∧ lookup then perform (.lookupImage serverId operationId) else pure image

/-- The checks of a loaded server. -/
def executeOn (lookup : Bool) (operation : Operation) (server : CloudServer)
    (image : Option String) : RebuildProgram RebuildExecutionResult := do
  if !truthy server.providerServerId then
    fail operation "server has no provider resource id"
  else if server.state ∉ rebuildPreconditionStates then
    fail operation (s!"server left the expected state ({server.state.value}) before " ++
      "the rebuild was executed")
  else
    match ← (perform (.rebuildSupport server.providerKey server.credentialAccountId)).attempt with
    | .error raised =>
      if isKeyError raised.kind then fail operation s!"unknown provider '{server.providerKey}'"
      else throw raised
    | .ok false => fail operation "provider lacks rebuild support"
    | .ok true =>
      match ← targetImage lookup image server.id operation.id with
      | none => fail operation "no target image for rebuild"
      | some target =>
        if strip target = "" then fail operation "no target image for rebuild"
        else send operation (textOf server.providerServerId) target

/-- `_execute_in_span`. -/
def execute (lookup : Bool) (operation : Operation) (image : Option String) :
    RebuildProgram RebuildExecutionResult := do
  if operation.operationType ≠ .serverRebuild then
    fail operation "not a rebuild operation"
  else
    match ← perform (.server operation.resourceId) with
    | none => fail operation "server row missing"
    | some server => executeOn lookup operation server image

end RebuildExecutor

/-! ### The command and the worker -/

/-- One call of `RebuildCommandService.request`. -/
structure RebuildRequest where
  userId : Uuid
  serverId : Uuid
  imageId : String
  idempotencyKey : String
  confirmed : Bool

/-- The ledger key of the request. -/
def RebuildRequest.operationKey (request : RebuildRequest) : String :=
  rebuildOperationKey request.serverId (strip request.idempotencyKey)

namespace RebuildCommand

open RebuildExecutor (perform)

/-- The state gate. -/
def notAllowed (server : CloudServer) : Raised :=
  ⟨.rebuildActionNotAllowed, s!"rebuild not allowed in state {server.state.value}"⟩

/-- The claim of an operation that is pending, and its execution with the image of the request. -/
def claimAndExecute (server : CloudServer) (image : String) (operationId : Uuid) :
    RebuildProgram RebuildCommandResult := do
  match ← perform (.claim operationId) with
  | none => throw ⟨.rebuildOperationInProgress, "rebuild operation is in progress"⟩
  | some claimed =>
    let result ← RebuildExecutor.execute false claimed (some image)
    let row ← perform (.server server.id)
    return {
      server := row.getD server
      replayed := false
      requeued := result = .requeued }

/-- An intent that the ledger has already. -/
def executeExisting (server : CloudServer) (image : String) (operation : Operation) :
    RebuildProgram RebuildCommandResult :=
  match operation.status with
  | .completed => do
    let row ← perform (.server server.id)
    return { server := row.getD server, replayed := true }
  | .failed => throw ⟨.rebuildOperationFailed, if truthy operation.error then
      textOf operation.error else "rebuild operation failed"⟩
  | .inFlight => throw ⟨.rebuildOperationInProgress, "rebuild operation is in progress"⟩
  | .pending | .outcomeUnknown =>
    if server.state ∉ rebuildPreconditionStates ∧ operation.attempts = 0 then
      throw (notAllowed server)
    else
      claimAndExecute server image operation.id

/-- A new intent. -/
def executeNew (server : CloudServer) (image key : String) :
    RebuildProgram RebuildCommandResult :=
  if server.state ∉ rebuildPreconditionStates then throw (notAllowed server)
  else do
    let operation ← perform (.getOrCreate {
      operationKey := key
      operationType := .serverRebuild
      resourceId := server.id
      providerKey := server.providerKey })
    perform (.recordRequested ⟨key, image⟩)
    claimAndExecute server image operation.id

/-- `RebuildCommandService.request`. -/
def request (asked : RebuildRequest) : RebuildProgram RebuildCommandResult := do
  rejectIf (!asked.confirmed) .rebuildConfirmationRequired
    "rebuild wipes the server; pass confirmed=True (final UI step)"
  let key := strip asked.idempotencyKey
  rejectIf (key = "") .rebuildCommand "idempotency_key is required"
  rejectIf (128 < key.length) .rebuildCommand "idempotency_key too long"
  let image := strip asked.imageId
  rejectIf (image = "" || 128 < image.length) .rebuildCommand
    "a non-empty image reference (max 128 chars) is required"
  match ← perform (.server asked.serverId) with
  | none => throw ⟨.rebuildNotOwner, "server not found"⟩
  | some server =>
    rejectIf (server.userId ≠ asked.userId) .rebuildNotOwner "server not found"
    match ← perform (.operationByKey asked.operationKey) with
    | some operation => executeExisting server image operation
    | none => executeNew server image asked.operationKey

end RebuildCommand

namespace RebuildWorker

open RebuildExecutor (perform)

/-- The listed operations, one after another; an exception ends the pass. -/
def executeListed : List Operation → RebuildProgram Unit
  | [] => return ()
  | operation :: rest => do
    match ← perform (.claim operation.id) with
    | none => executeListed rest
    | some claimed =>
      let _ ← RebuildExecutor.execute true claimed none
      executeListed rest

/-- `process_pending`. -/
def processPending : RebuildProgram Unit := do
  let pending ← perform .listPending
  executeListed pending

end RebuildWorker

/-! ### Runs -/

/-- A request, or a pass of the worker, with what it meets at its calls. -/
inductive RebuildEvent where
  | request (asked : RebuildRequest) (chances : ℕ → RebuildChance)
  | pass (chances : ℕ → RebuildChance)

/-- The rows after a request or a pass. -/
def RebuildRows.step (rows : RebuildRows) : RebuildEvent → RebuildRows
  | .request asked chances =>
    ((RebuildCommand.request asked).eval RebuildCall.handle chances rows).2
  | .pass chances => (RebuildWorker.processPending.eval RebuildCall.handle chances rows).2

end CloudPlatform.Operations
