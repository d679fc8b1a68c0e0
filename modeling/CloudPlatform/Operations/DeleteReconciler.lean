import CloudPlatform.Operations.ServerJobs

/-!
# The delete reconciler

`DeleteTimeoutReconciler` first settles the IN_FLIGHT delete operations, then makes an operation for
each server in DELETE_REQUESTED that it finds none of. What it finds are all pending and in-flight
deletions, but of the failed ones only the fifty that were updated last.
-/

namespace CloudPlatform.Operations

open Compute (CloudServer)
open Rows (Table)

/-- The ledger and the servers; `created` are the intents inserted by the reconciler, whose row ids
and times are the database's. -/
structure DeleteRows where
  operations : Table Operation.id
  servers : Table CloudServer.id
  created : List OperationIntent := []

/-- What a reconciliation meets: its clock, the clock of the writes, and the order in which the
database lists failures, the latest first. -/
structure ReconcileFacts where
  inFlightTimeout : ℤ
  now : Uuid → ℤ
  savedAt : Uuid → ℤ
  newestFirst : List Operation → List Operation
  newestFirst_perm : ∀ operations, (newestFirst operations).Perm operations
  newestFirst_sorted : ∀ operations, (newestFirst operations).Pairwise fun first second ↦
    ∀ earlier ∈ second.updatedAt, ∀ later ∈ first.updatedAt, earlier ≤ later

/-- `reconciled_delete_key`. -/
def reconciledDeleteKey (serverId : Uuid) : String :=
  s!"server-delete:{serverId.text}:reconciled"

namespace DeleteRows

variable (facts : ReconcileFacts) (rows : DeleteRows)

/-- The delete operations in a status. -/
def deletions (status : OperationStatus) : List Operation :=
  rows.operations.rows.filter fun operation ↦
    operation.operationType = .serverDelete ∧ operation.status = status

/-- `list_failed`: at most fifty rows. -/
def listFailed : List Operation :=
  (facts.newestFirst (rows.deletions .failed)).take 50

/-- `save`. -/
def save (operation : Operation) : Result DeleteRows := do
  let saved ← Operations.save (rows.operations.get operation.id) operation
    (facts.savedAt operation.id)
  return { rows with operations := rows.operations.put saved }

/-- The operation is in flight for less than the timeout. -/
def recent (operation : Operation) : Bool :=
  operation.updatedAt.any fun updatedAt ↦ facts.now operation.id - updatedAt < facts.inFlightTimeout

/-- One in-flight operation: it fails when its server is gone, and is queued again when it is past
the timeout. -/
def settleInFlight (operation : Operation) : Result DeleteRows := do
  match rows.servers.get operation.resourceId with
  | none =>
    let failed ← operation.fail "server row missing during delete-timeout reconciliation"
    rows.save facts failed
  | some _ =>
    if recent facts operation then return rows
    else
      let requeued ← operation.requeue ("in-flight timeout: re-entering the deletion saga with the " ++
        "same operation key (404 on delete is success)")
      rows.save facts requeued

/-- The in-flight operations, one after another; an exception ends the reconciliation. -/
def settleAll : List Operation → DeleteRows → Result Unit × DeleteRows
  | [], rows => (.ok (), rows)
  | operation :: rest, rows =>
    match rows.settleInFlight facts operation with
    | .error raised => (.error raised, rows)
    | .ok after => settleAll rest after

/-- `get_or_create`. -/
def getOrCreate (intent : OperationIntent) : DeleteRows :=
  if rows.operations.rows.any (·.operationKey = intent.operationKey) ||
      rows.created.any (·.operationKey = intent.operationKey) then rows
  else { rows with created := rows.created ++ [intent] }

/-- One server whose deletion is in progress. -/
def recreate (deleteOps : List Operation) (server : CloudServer) : DeleteRows :=
  if server.state ≠ .deleteRequested then rows
  else if deleteOps.any (·.resourceId = server.id) then rows
  else rows.getOrCreate {
    operationKey := reconciledDeleteKey server.id
    operationType := .serverDelete
    resourceId := server.id
    providerKey := server.providerKey }

/-- `list_deletion_in_progress`. -/
def deletionInProgress : List CloudServer :=
  rows.servers.rows.filter fun server ↦ server.state ∈ [.deleteRequested, .deleting]

/-- The second part of `reconcile`. -/
def recreateLost : DeleteRows :=
  let deleteOps := rows.deletions .pending ++ rows.deletions .inFlight ++ rows.listFailed facts
  rows.deletionInProgress.foldl (fun rows server ↦ rows.recreate deleteOps server) rows

/-- `DeleteTimeoutReconciler.reconcile`. -/
def reconcile : Result Unit × DeleteRows :=
  match settleAll facts (rows.deletions .inFlight) rows with
  | (.error raised, after) => (.error raised, after)
  | (.ok (), after) => (.ok (), after.recreateLost facts)

end DeleteRows

end CloudPlatform.Operations
