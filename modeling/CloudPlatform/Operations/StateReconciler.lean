import CloudPlatform.Operations.ServerJobs

/-!
# The state reconciler

`ServerStateReconciler` compares the copies that it has listed with the provider. It repairs a drift
that the planner explains, buys the hour before it delivers, and contains everything else. The servers
of the prepaid hourly product, which it treats on their own, are left out.
-/

namespace CloudPlatform.Operations

open Compute (ServerAggregate ServerLifecycleState)
open Providers (ProviderServer isKeyError isProviderError)

inductive StateReconciliationOutcome
  | consistent
  | inProgress
  | repaired
  | contained
  | inconclusive
  | skipped

namespace StateReconciler

open ServerJob (perform requireHourlyPrepayment)

/-- One field of `_sync_remote_ips`. -/
def syncedAddress (settings : JobSettings) (version : ℕ) (remote here : Option String) :
    Option String :=
  match remote with
  | none => here
  | some value => if value = "" then here else (settings.address version value).or here

/-- `_sync_remote_ips`: the copy with the valid addresses that the provider confirms. -/
def syncRemoteIps (settings : JobSettings) (server : ServerAggregate) (remote : ProviderServer) :
    ServerAggregate :=
  { server with
    ipv4 := syncedAddress settings 4 remote.ipv4 server.ipv4
    ipv6 := syncedAddress settings 6 remote.ipv6 server.ipv6 }

/-- `_notify_hourly_customer`; a failure is logged. -/
def notifyHourlyCustomer (server : ServerAggregate) : JobProgram Unit := do
  if server.billingModel = "hourly" then
    let _ ← (perform .notifySucceeded).attempt
  else
    return ()

/-- `_contain`; a failure is logged. -/
def containServer (server : ServerAggregate) : JobProgram StateReconciliationOutcome := do
  match server.contain with
  | .error _ => return .contained
  | .ok contained =>
    let _ ← (perform (.saveServer contained)).attempt
    return .contained

/-- The addresses of a server that runs on both sides, and the notification of its owner. -/
def confirmRunning (settings : JobSettings) (server : ServerAggregate) (remote : ProviderServer) :
    JobProgram StateReconciliationOutcome := do
  let synced := syncRemoteIps settings server remote
  if synced ≠ server then
    let _ ← perform (.saveServer synced)
    notifyHourlyCustomer synced
    return .consistent
  else
    notifyHourlyCustomer synced
    return .consistent

/-- A server that already matches the provider. -/
def reconcileMatching (settings : JobSettings) (server : ServerAggregate)
    (remote : Option ProviderServer) : JobProgram StateReconciliationOutcome := do
  match remote with
  | none => return .consistent
  | some remote =>
    if server.state = .running then
      match ← (requireHourlyPrepayment server).attempt with
      | .error _ => return .inconclusive
      | .ok prepaid => confirmRunning settings prepaid remote
    else
      return .consistent

/-- The copy that a repair saves. -/
def repairedCopy (settings : JobSettings) (moved : ServerAggregate) (target : ServerLifecycleState)
    (remote : Option ProviderServer) : ServerAggregate :=
  match remote with
  | some remote => if target = .running then syncRemoteIps settings moved remote else moved
  | none => moved

/-- The transition of a repair; a rejected one is contained. -/
def applyRepair (settings : JobSettings) (server : ServerAggregate) (target : ServerLifecycleState)
    (remote : Option ProviderServer) : JobProgram StateReconciliationOutcome := do
  match server.moveTo target with
  | .error _ => containServer server
  | .ok moved =>
    let repaired := repairedCopy settings moved target remote
    match ← (perform (.saveServer repaired)).attempt with
    | .error _ => containServer repaired
    | .ok _ =>
      if target = .running then
        notifyHourlyCustomer repaired
        return .repaired
      else
        return .repaired

/-- A repair; before RUNNING the hour is bought. -/
def repair (settings : JobSettings) (server : ServerAggregate) (target : ServerLifecycleState)
    (remote : Option ProviderServer) : JobProgram StateReconciliationOutcome := do
  if target = .running then
    match ← (requireHourlyPrepayment server).attempt with
    | .error _ => return .inconclusive
    | .ok prepaid => applyRepair settings prepaid target remote
  else
    applyRepair settings server target remote

/-- The plan for a listed copy, carried out. -/
def carryOut (settings : JobSettings) (server : ServerAggregate) (remote : Option ProviderServer)
    (plan : StatePlan) : JobProgram StateReconciliationOutcome := do
  match plan.action, plan.target with
  | .none, _ => reconcileMatching settings server remote
  | .inProgress, _ => return .inProgress
  | .repair, some target => repair settings server target remote
  | .repair, none => containServer server
  | .contain, _ => containServer server

/-- The remote state as the reconciler sees it. -/
def remoteState (remote : Option ProviderServer) : ProviderServerState :=
  match remote with
  | none => .notFound
  | some remote => normalizeProviderStatus (some remote.status)

/-- `_reconcile_server`. -/
def reconcileServer (settings : JobSettings) (server : ServerAggregate) :
    JobProgram StateReconciliationOutcome := do
  perform (.consider server.state)
  if !truthy server.providerServerId then
    return .skipped
  else
    match settings.registry server.providerKey server.credentialAccountId with
    | .error raised => if isKeyError raised.kind then return .skipped else throw raised
    | .ok _ =>
      match ← (perform (.getServer (textOf server.providerServerId))).attempt with
      | .error raised => if isProviderError raised.kind then return .inconclusive else throw raised
      | .ok remote =>
        carryOut settings server remote (planStateRepair server.state (remoteState remote))

/-- The turns of the listed copies, one after another. -/
def reconcileListed (settings : JobSettings) : List ServerAggregate → JobProgram Unit
  | [] => return ()
  | server :: rest => do
    let _ ← reconcileServer settings server
    reconcileListed settings rest

/-- `reconcile`. -/
def reconcile (settings : JobSettings) : JobProgram Unit := do
  let provisioning ← perform (.listServers .provisioning)
  let running ← perform (.listServers .running)
  let stopped ← perform (.listServers .stopped)
  reconcileListed settings (provisioning ++ running ++ stopped)

end StateReconciler

end CloudPlatform.Operations
