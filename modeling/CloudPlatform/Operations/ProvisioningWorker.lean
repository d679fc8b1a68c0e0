import CloudPlatform.Operations.CreateAttempts
import CloudPlatform.Operations.ServerJobs

/-!
# The provisioning worker

One create intent is sent to the provider under the key of its operation. A legacy create that was
accepted is watched until the provider runs it; only then, and only prepaid, does the server become
RUNNING. Creates with a routing receipt take another way; of it, the prepayment that follows their
acceptance is modelled.
-/

namespace CloudPlatform.Operations

open Compute (ServerAggregate ServerLifecycleState)
open Providers (ProviderServer classifyProviderError isKeyError isProviderError)

inductive ProvisioningOutcome
  | provisioned
  | alreadyProvisioned
  | skippedInFlight
  | skippedState
  | requeued
  | failed

/-- The outcome of a bounded wait. -/
inductive WaitOutcome
  | completed
  | failed
  | timeout

namespace ProvisioningWorker

open ServerJob (buildCreateRequest isLegacyCreate markError perform releaseHold
  requireHourlyPrepayment serverOperationKey)

/-- The copy with its provider resource, out of REQUESTED. -/
def attach (server : ServerAggregate) (providerServerId : String) : Result ServerAggregate :=
  let attached := { server with providerServerId := some providerServerId }
  if server.state = .requested then attached.moveTo .provisioning else .ok attached

/-- `_recover_from_correlation`. -/
def recoverFromCorrelation (server : ServerAggregate) (operation : Operation) :
    JobProgram ProvisioningOutcome := do
  match operation.response.facts.get "provider_server_id" with
  | .text providerServerId =>
    if providerServerId ≠ "" ∧ server.providerServerId ≠ some providerServerId then
      let attached ← attach server providerServerId
      let _ ← perform (.saveServer attached)
      return .alreadyProvisioned
    else
      return .alreadyProvisioned
  | _ => return .alreadyProvisioned

/-- `_fail_permanent`. -/
def failPermanent (server : ServerAggregate) (claimed : Operation) (reason : String) :
    JobProgram ProvisioningOutcome := do
  let failed ← claimed.fail reason
  let _ ← perform (.saveOperation failed)
  releaseHold server
  if server.state ∈ [ServerLifecycleState.requested, .provisioning] then
    markError server
    return .failed
  else
    return .failed

/-- The operation goes back to PENDING for another attempt. -/
def requeue (claimed : Operation) (reason : String) : JobProgram ProvisioningOutcome := do
  let requeued ← claimed.requeue reason
  let _ ← perform (.saveOperation requeued)
  return .requeued

/-- One probe of a create; `None` while the provider is still working on it. -/
def probeCreation (createdId : String) : JobProgram (Option WaitOutcome) := do
  match ← perform (.getServer createdId) with
  | none => return some .failed
  | some remote =>
    match normalizeProviderStatus (some remote.status) with
    | .running => return some .completed
    | .notFound => return some .failed
    | .deleting => return some .failed
    | _ => return none

/-- `ActionWaiter.wait_for` on a create, with the polls that are left after this one. -/
def waitForCreation (createdId : String) : ℕ → JobProgram WaitOutcome
  | 0 => do
    return (← probeCreation createdId).getD .timeout
  | polls + 1 => do
    match ← probeCreation createdId with
    | some outcome => return outcome
    | none => waitForCreation createdId polls

/-- A completed wait: the prepaid server becomes RUNNING, and its owner is told. -/
def creationCompleted (server : ServerAggregate) : JobProgram Unit := do
  if server.state = .provisioning then
    let prepaid ← requireHourlyPrepayment server
    let running ← prepaid.moveTo .running
    let _ ← perform (.saveServer running)
    perform .notifySucceeded
  else
    perform .notifySucceeded

/-- The wait of `_watch_creation`. -/
def awaitCreation (settings : JobSettings) (server : ServerAggregate) (created : ProviderServer) :
    JobProgram Unit := do
  if !settings.waiter || created.id = "" then
    return ()
  else
    match ← (waitForCreation created.id settings.polls).attempt with
    | .error raised => if isProviderError raised.kind then return () else throw raised
    | .ok .completed => creationCompleted server
    | .ok _ => return ()

/-- `_watch_creation`. -/
def watchCreation (settings : JobSettings) (server : ServerAggregate) (created : ProviderServer) :
    JobProgram Unit := do
  if normalizeProviderStatus (some created.status) = .running then
    let prepaid ← requireHourlyPrepayment server
    awaitCreation settings prepaid created
  else
    awaitCreation settings server created

/-- The facts of an accepted create. -/
def correlation (created : ProviderServer) (operationKey : String) : ProviderResponse where
  facts := [("provider_server_id", .text created.id), ("provider_status", .text created.status),
    ("idempotency_key", .text operationKey)]

/-- The create was accepted. -/
def accepted (settings : JobSettings) (server : ServerAggregate) (claimed : Operation)
    (created : ProviderServer) : JobProgram ProvisioningOutcome := do
  let completed ← claimed.complete (correlation created claimed.operationKey)
  let _ ← perform (.saveOperation completed)
  let attached ← attach server created.id
  let saved ← perform (.saveServer attached)
  watchCreation settings saved created
  return .provisioned

/-- A claimed legacy create is sent. -/
def sendCreate (settings : JobSettings) (server : ServerAggregate) (claimed : Operation) :
    JobProgram ProvisioningOutcome := do
  match ← perform (.provisioningSpec server.id) with
  | none => failPermanent server claimed "catalog offer missing for server"
  | some spec =>
    match settings.registry server.providerKey server.credentialAccountId with
    | .error raised =>
      if isKeyError raised.kind then
        failPermanent server claimed s!"unknown provider '{server.providerKey}'"
      else
        throw raised
    | .ok _ =>
      match ← perform .selectImage with
      | none =>
        failPermanent server claimed s!"no image available from provider '{server.providerKey}'"
      | some image =>
        match ← (perform (.createServer (buildCreateRequest server.id spec image)
            claimed.operationKey)).attempt with
        | .ok created => accepted settings server claimed created
        | .error raised =>
          if raised.kind = .providerOutcomeUnknown then
            requeue claimed raised.message
          else if isProviderError raised.kind then
            if classifyProviderError raised = .retryable then requeue claimed raised.message
            else failPermanent server claimed raised.message
          else
            throw raised

/-- `_read_legacy_create_identity`, for an operation without receipt. -/
def readLegacyCreateIdentity (provider : JobProvider) (server : ServerAggregate)
    (operation : Operation) : JobProgram (Option String) := do
  if truthy server.providerServerId then
    let remote ← perform (.getServer (textOf server.providerServerId))
    return remote.bind fun remote ↦
      if server.providerServerId = some remote.id then some remote.id else none
  else if provider.serverRecovery then
    return (← perform (.readIdentity operation.operationKey)).filter (strip · ≠ "")
  else
    return none

/-- `_recover_historical_pending`. -/
def recoverHistoricalPending (settings : JobSettings) (server : ServerAggregate)
    (operation : Operation) : JobProgram ProvisioningOutcome := do
  match settings.registry server.providerKey server.credentialAccountId with
  | .error raised => if isKeyError raised.kind then return .skippedInFlight else throw raised
  | .ok provider =>
    match ← perform (.claim operation.id) with
    | none => return .skippedInFlight
    | some claimed =>
      let identity ← tryCatch (readLegacyCreateIdentity provider server claimed) fun raised ↦
        if isProviderError raised.kind then return none else throw raised
      match identity with
      | none =>
        let unknown ← claimed.markOutcomeUnknown "historical create requires read-only recovery"
        let _ ← perform (.saveOperation unknown)
        return .skippedInFlight
      | some identity =>
        let completed ← claimed.complete { facts := [("provider_server_id", .text identity),
          ("idempotency_key", .text claimed.operationKey), ("recovered", .flag true)] }
        let _ ← perform (.saveOperation completed)
        let _ ← recoverFromCorrelation server completed
        return .provisioned

/-- The end of `_process_pooled`, once an account has accepted the create. -/
def deliverPooled (server : ServerAggregate) (created : Option ProviderServer) :
    JobProgram ProvisioningOutcome := do
  match created with
  | none => return .skippedInFlight
  | some created =>
    match ← perform (.server server.id) with
    | none => return .provisioned
    | some fresh =>
      if normalizeProviderStatus (some created.status) = .running then
        let _ ← requireHourlyPrepayment fresh
        return .provisioned
      else
        return .provisioned

/-- `_needs_read_only_create_recovery`. -/
def needsReadOnlyCreateRecovery (settings : JobSettings) (server : ServerAggregate) : Result Bool :=
  match settings.registry server.providerKey server.credentialAccountId with
  | .ok provider => .ok provider.serverRecovery
  | .error raised => if isKeyError raised.kind then .ok true else .error raised

/-- The operation of a create without receipt, on a provider whose creates are not pooled. -/
def processLegacy (settings : JobSettings) (server : ServerAggregate) (operation : Operation) :
    JobProgram ProvisioningOutcome := do
  if operation.isTerminal then
    if operation.status = .completed then recoverFromCorrelation server operation
    else return .failed
  else if operation.status = .inFlight then
    return .skippedInFlight
  else
    match ← perform (.claim operation.id) with
    | none => return .skippedInFlight
    | some claimed => sendCreate settings server claimed

/-- The choice of the way of a create. -/
def processOperation (settings : JobSettings) (server : ServerAggregate) (operation : Operation)
    (pooledOutcome : Option ProviderServer) : JobProgram ProvisioningOutcome := do
  match createRouting operation with
  | .error raised =>
    if raised.kind = .createAttemptConflict then return .skippedInFlight else throw raised
  | .ok receipt =>
    let recovers ← needsReadOnlyCreateRecovery settings server
    if receipt.isNone && recovers && operation.status = .pending && 0 < operation.attempts then
      recoverHistoricalPending settings server operation
    else if settings.failover server.providerKey && receipt.isNone &&
        operation.status = .completed then
      match settings.registry server.providerKey server.credentialAccountId with
      | .error raised => if isKeyError raised.kind then return .skippedInFlight else throw raised
      | .ok _ => recoverFromCorrelation server operation
    else if receipt.isSome || settings.failover server.providerKey then
      deliverPooled server pooledOutcome
    else
      processLegacy settings server operation

/-- `process_server`; in the pooled way, with the resource that an account has accepted, if any. -/
def processServer (settings : JobSettings) (serverId : Uuid) (pooledOutcome : Option ProviderServer) :
    JobProgram ProvisioningOutcome := do
  match ← perform (.server serverId) with
  | none => return .skippedState
  | some server =>
    if !isLegacyCreate server then
      return .skippedState
    else if server.state ∉ [ServerLifecycleState.requested, .provisioning] then
      return .skippedState
    else
      let operation ← perform (.getOrCreate
        { operationKey := serverOperationKey serverId
          operationType := .serverCreate
          resourceId := serverId
          providerKey := server.providerKey })
      processOperation settings server operation pooledOutcome

end ProvisioningWorker

end CloudPlatform.Operations
