import CloudPlatform.Billing.AccrualJob
import CloudPlatform.Compute.ServerSaves
import CloudPlatform.Operations.Ledger
import CloudPlatform.Operations.StatePlan
import CloudPlatform.Providers.Ports

/-!
# The jobs of one server

The background jobs and commands of one customer server share its row, its operations, the books of
its wallet and the provider. Each call is one step on what they share. A job loads the row, changes its
own copy and saves it whole; nothing but the billing lock keeps two jobs apart, and the lock is not held
between a prepayment and what it pays for. `log` records what the jobs did that no row keeps.
-/

namespace CloudPlatform.Operations

open Billing (AccrualPeriod AccrualProgram BillingCall BillingRows ServerPriceSnapshot)
open Compute (ServerAggregate ServerLifecycleState)
open Providers (CreateServerRequest ProviderServer)
open Transition (Program)
open Wallets (Books)

/-! ### The shared state -/

/-- What a job did: it turned to a copy, read the row, saved it over a state, debited the wallet, ended a
prepayment, sent what delivers service, or read that the provider has no such server. -/
inductive JobEvent
  | considered (job : ℕ) (state : ServerLifecycleState)
  | loaded (job : ℕ) (row : ServerAggregate)
  | saved (job : ℕ) (before : ServerLifecycleState) (row : ServerAggregate)
  | spent (job : ℕ)
  | prepaid (job : ℕ) (now : ℤ) (row : ServerAggregate)
  | unfunded (job : ℕ) (now : ℤ) (row : ServerAggregate)
  | delivered (job : ℕ)
  | absent (job : ℕ) (providerServerId : String)

/-- The rows of one server and its wallet, the creates that the provider has accepted under each
idempotency key, and the log of the jobs, the latest event first. -/
structure JobRows where
  server : ServerAggregate
  books : Books
  snapshots : List ServerPriceSnapshot := []
  accruals : List AccrualPeriod := []
  clock : ℤ
  operations : List Operation := []
  accepted : List (String × ProviderServer) := []
  log : List JobEvent := []

namespace JobRows

/-- The row under an id. -/
def get (rows : JobRows) (id : Uuid) : Option ServerAggregate :=
  some rows.server |>.filter (·.id = id)

/-- The row if it is in one of the states that a query selects. -/
def inStates (rows : JobRows) (states : List ServerLifecycleState) : List ServerAggregate :=
  [rows.server].filter (·.state ∈ states)

def note (rows : JobRows) (event : JobEvent) : JobRows :=
  { rows with log := event :: rows.log }

/-- The rows as the accrual job sees them. -/
def billing (rows : JobRows) : BillingRows where
  books := rows.books
  servers := [rows.server.toCloudServer]
  snapshots := rows.snapshots
  accruals := rows.accruals
  clock := rows.clock

/-- The rows after a billing call other than a save of the server. -/
def withBilling (rows : JobRows) (after : BillingRows) : JobRows :=
  { rows with books := after.books, accruals := after.accruals, clock := after.clock }

def operation (rows : JobRows) (id : Uuid) : Option Operation :=
  rows.operations.find? (·.id = id)

def operationByKey (rows : JobRows) (key : String) : Option Operation :=
  rows.operations.find? (·.operationKey = key)

/-- The rows with one operation row replaced. -/
def setOperation (rows : JobRows) (operation : Operation) : JobRows :=
  { rows with operations := Rows.replace Operation.id operation rows.operations }

/-- The resource that the provider keeps under an idempotency key. -/
def acceptedUnder (rows : JobRows) (key : String) : Option ProviderServer :=
  rows.accepted.lookup key

/-- The provider accepts a create: the first one under its key creates the resource. -/
def accept (rows : JobRows) (key : String) (created : ProviderServer) : ProviderServer × JobRows :=
  match rows.acceptedUnder key with
  | some resource => (resource, rows)
  | none => (created, { rows with accepted := (key, created) :: rows.accepted })

end JobRows

/-! ### The calls -/

/-- The intent of a new operation row. -/
structure OperationIntent where
  operationKey : String
  operationType : OperationType
  resourceId : Uuid
  providerKey : String
  deriving DecidableEq

/-- `ProvisioningSpec`: what of the catalog offer a create sends. -/
structure ProvisioningSpec where
  planId : String
  locationId : String

inductive PowerAction
  | powerOn
  | powerOff
  | reboot
  deriving DecidableEq

/-- The calls of the jobs. `consider` notes the copy that a job turns to, `prepaid` and `unfunded` how a
prepayment ended. -/
inductive JobCall
  | consider (state : ServerLifecycleState)
  | server (id : Uuid)
  | listServers (state : ServerLifecycleState)
  | listDeletionInProgress
  | saveServer (copy : ServerAggregate)
  | provisioningSpec (serverId : Uuid)
  | billing (request : BillingCall)
  | acquireLock
  | prepaid (now : ℤ)
  | unfunded (now : ℤ)
  | getOrCreate (intent : OperationIntent)
  | operationByKey (key : String)
  | listOperations (types : List OperationType) (status : OperationStatus)
  | claim (operationId : Uuid)
  | saveOperation (copy : Operation)
  | selectImage
  | createServer (request : CreateServerRequest) (key : String)
  | readIdentity (operationKey : String)
  | getServer (providerServerId : String)
  | probePower (providerServerId : String) (action : PowerAction)
  | power (action : PowerAction) (providerServerId : String) (key : String)
  | deleteServer (providerServerId : String) (key : String)
  | notifySucceeded

/-- How the provider treats one create: it accepts and answers, it accepts and the answer is lost, or it
does not accept. -/
inductive CreateFate
  | answered (created : ProviderServer)
  | lost (created : ProviderServer) (raised : Raised)
  | refused (raised : Raised)

/-- What is outside the rows at one call. -/
structure JobChance where
  tick : ℕ := 0
  newId : Uuid
  acquired : Bool := true
  spec : Option ProvisioningSpec := none
  image : Result (Option String) := .ok none
  create : CreateFate := .refused ⟨.providerError, ""⟩
  identity : Result (Option String) := .ok none
  remote : Result (Option ProviderServer) := .ok none
  probe : Result (Option Bool) := .ok none
  sent : Result Unit := .ok ()
  shown : Uuid → Bool := fun _ ↦ true

namespace JobCall

abbrev Out : JobCall → Type
  | consider _ => Unit
  | server _ => Option ServerAggregate
  | listServers _ => List ServerAggregate
  | listDeletionInProgress => List ServerAggregate
  | saveServer _ => ServerAggregate
  | provisioningSpec _ => Option ProvisioningSpec
  | billing request => request.Out
  | acquireLock => Bool
  | prepaid _ => Unit
  | unfunded _ => Unit
  | getOrCreate _ => Operation
  | operationByKey _ => Option Operation
  | listOperations .. => List Operation
  | claim _ => Option Operation
  | saveOperation _ => Operation
  | selectImage => Option String
  | createServer .. => ProviderServer
  | readIdentity _ => Option String
  | getServer _ => Option ProviderServer
  | probePower .. => Option Bool
  | power .. => Unit
  | deleteServer .. => Unit
  | notifySucceeded => Unit

end JobCall

namespace JobRows

/-- `SqlAlchemyServerRepository.save`. -/
def saveServer (rows : JobRows) (job : ℕ) (copy : ServerAggregate) :
    Result (JobRows × ServerAggregate) := do
  rejectIf (rows.server.id ≠ copy.id) .lookupError s!"server {copy.id.text} not found"
  let row := rows.server.saved copy rows.clock
  return ({ rows with server := row }.note (.saved job rows.server.state row), row)

/-- `SqlAlchemyOperationRepository.get_or_create`. -/
def getOrCreate (rows : JobRows) (intent : OperationIntent) (newId : Uuid) : Operation × JobRows :=
  match rows.operationByKey intent.operationKey with
  | some operation => (operation, rows)
  | none =>
    let created : Operation :=
      { id := newId
        operationKey := intent.operationKey
        operationType := intent.operationType
        resourceType := "server"
        resourceId := intent.resourceId
        providerKey := intent.providerKey
        createdAt := some rows.clock
        updatedAt := some rows.clock }
    (created, { rows with operations := rows.operations ++ [created] })

/-- `SqlAlchemyOperationRepository.claim`. -/
def claim (rows : JobRows) (operationId : Uuid) : Option Operation × JobRows :=
  match rows.operation operationId with
  | none => (none, rows)
  | some row =>
    let (after, claimed) := Operations.claim row rows.clock
    (claimed, rows.setOperation after)

/-- `SqlAlchemyOperationRepository.save`. -/
def saveOperation (rows : JobRows) (copy : Operation) : Result (JobRows × Operation) := do
  let saved ← Operations.save (rows.operation copy.id) copy rows.clock
  return (rows.setOperation saved, saved)

/-- `list_in_flight`, `list_pending` and `list_failed`. -/
def listOperations (rows : JobRows) (types : List OperationType) (status : OperationStatus) :
    List Operation :=
  rows.operations.filter fun operation ↦ operation.operationType ∈ types ∧ operation.status = status

/-- A billing call of a job; that it changed the wallet is noted. -/
def bill (rows : JobRows) (job : ℕ) (after : BillingRows) : JobRows :=
  if after.books.wallet = rows.books.wallet then rows.withBilling after
  else (rows.withBilling after).note (.spent job)

end JobRows

namespace JobCall

/-- One call of a job as one step. Of the failed operations a query shows the latest of all servers
only. -/
def handle (job : ℕ) : (request : JobCall) → JobChance → JobRows → Result request.Out × JobRows
  | consider state, _, rows => (.ok (), rows.note (.considered job state))
  | server id, _, rows =>
    match rows.get id with
    | none => (.ok none, rows)
    | some row => (.ok (some row), rows.note (.loaded job row))
  | listServers state, _, rows =>
    if rows.server.state = state then (.ok [rows.server], rows.note (.loaded job rows.server))
    else (.ok [], rows)
  | listDeletionInProgress, _, rows => (.ok (rows.inStates [.deleteRequested, .deleting]), rows)
  | saveServer copy, _, rows => transaction rows (rows.saveServer job copy)
  | provisioningSpec _, chance, rows => (.ok chance.spec, rows)
  | billing request, chance, rows =>
    let (reply, after) := request.handle ⟨chance.tick, chance.newId⟩ rows.billing
    (reply, rows.bill job after)
  | acquireLock, chance, rows => (.ok chance.acquired, rows)
  | prepaid now, _, rows => (.ok (), rows.note (.prepaid job now rows.server))
  | unfunded now, _, rows => (.ok (), rows.note (.unfunded job now rows.server))
  | getOrCreate intent, chance, rows =>
    let (operation, after) := rows.getOrCreate intent chance.newId
    (.ok operation, after)
  | operationByKey key, _, rows => (.ok (rows.operationByKey key), rows)
  | listOperations types status, chance, rows =>
    (.ok ((rows.listOperations types status).filter fun operation ↦
      status ≠ .failed ∨ chance.shown operation.id), rows)
  | claim operationId, _, rows =>
    let (claimed, after) := rows.claim operationId
    (.ok claimed, after)
  | saveOperation copy, _, rows => transaction rows (rows.saveOperation copy)
  | selectImage, chance, rows => (chance.image, rows)
  | createServer _ key, chance, rows =>
    match chance.create with
    | .answered created =>
      let (resource, after) := rows.accept key created
      (.ok resource, after)
    | .lost created raised => (.error raised, (rows.accept key created).2)
    | .refused raised => (.error raised, rows)
  | readIdentity _, chance, rows => (chance.identity, rows)
  | getServer providerServerId, chance, rows =>
    match chance.remote with
    | .ok none => (.ok none, rows.note (.absent job providerServerId))
    | reply => (reply, rows)
  | probePower .., chance, rows => (chance.probe, rows)
  | power action _ _, chance, rows =>
    (chance.sent, if action = .powerOff then rows else rows.note (.delivered job))
  | deleteServer .., chance, rows => (chance.sent, rows)
  | notifySucceeded, chance, rows => (chance.sent, rows.note (.delivered job))

end JobCall

abbrev JobProgram := Program Raised JobCall JobCall.Out

/-! ### What the jobs share -/

/-- A resolved provider adapter: what the jobs ask of it. -/
structure JobProvider where
  power : Bool := true
  powerProbe : Bool := false
  serverRecovery : Bool := false

/-- The collaborators of the jobs: the provider registry, the providers whose creates are pooled, the waiter and the
number of polls until its deadline, the timeouts, and `ipaddress.ip_address` as the canonical
text of a valid address of a version. -/
structure JobSettings where
  registry : String → Option String → Result JobProvider
  failover : String → Bool := fun _ ↦ false
  waiter : Bool := true
  polls : ℕ := 1
  inFlightTimeout : ℤ
  provisioningTimeout : ℤ
  address : ℕ → String → Option String := fun _ _ ↦ none

namespace ServerJob

/-- One call. -/
abbrev perform (request : JobCall) : JobProgram request.Out :=
  Program.perform request

/-- The billing clock. -/
def now : JobProgram ℤ :=
  perform (.billing .now)

/-- A billing call of a job that holds a copy: a save writes the whole copy. -/
def embed (held : ServerAggregate) : BillingCall → JobCall
  | .server id => .server id
  | .saveServer copy => .saveServer { held with toCloudServer := copy }
  | request => .billing request

/-- The reply to a billing call. -/
def reply (held : ServerAggregate) : (request : BillingCall) → (embed held request).Out → request.Out
  | .server _, row => row.map (·.toCloudServer)
  | .saveServer _, row => row.toCloudServer
  | .now, value => value
  | .wallet _, value => value
  | .snapshot _, value => value
  | .hold _, value => value
  | .ledgerEntry .., value => value
  | .accrual _, value => value
  | .addAccrual _, value => value
  | .monthTotal .., value => value
  | .adjust _, value => value

/-- A method of the accrual job on a copy that this job holds. -/
def bills {α : Type} (held : ServerAggregate) (program : AccrualProgram α) : JobProgram α :=
  program.lift (embed held) (reply held)

/-- `AccrualJob.prepay_server`; the copy after it. -/
def prepayServer (server : ServerAggregate) (renewAheadSeconds : ℤ) : JobProgram ServerAggregate := do
  if server.isPrepaidMonthly || server.isPrepaidHourlyIrt then
    return server
  else
    let moment ← now
    rejectIf (¬ (0 ≤ renewAheadSeconds ∧ renewAheadSeconds ≤ 5)) .valueError
      "renewal lead time must be between zero and five seconds"
    let coverageAt ← Billing.addSeconds moment renewAheadSeconds
    if ← perform .acquireLock then
      match ← (bills server
        (Billing.AccrualJob.prepayLocked server.toCloudServer moment coverageAt)).attempt with
      | .ok copy =>
        perform (.prepaid moment)
        return { server with toCloudServer := copy }
      | .error raised =>
        if raised.kind = .insufficientBalance then
          perform (.unfunded moment)
          throw raised
        else
          throw raised
    else
      throw ⟨.billingLockBusy, "billing lock is busy; retry prepayment"⟩

/-- `_require_hourly_prepayment`; the copy after it. -/
def requireHourlyPrepayment (server : ServerAggregate) : JobProgram ServerAggregate := do
  if server.isPrepaidMonthly then
    return server
  else if server.isPrepaidHourlyIrt then
    let moment ← now
    rejectIf (server.prepaidPaidUntil.all (· ≤ moment)) .insufficientBalance
      "prepaid IRT coverage is not funded"
    return server
  else
    prepayServer server 0

/-- The turns of the listed copies in `_run_servers`; a failure is counted. -/
def accrueListed (moment : ℤ) : List ServerAggregate → JobProgram Unit
  | [] => return ()
  | server :: rest => do
    if Billing.AccrualJob.billed server.toCloudServer then
      let _ ← (bills server (Billing.AccrualJob.accrueServer
        (Billing.AccrualJob.settleOrRequestDeletion moment) server.toCloudServer moment)).attempt
      accrueListed moment rest
    else
      accrueListed moment rest

/-- `AccrualJob.run`. -/
def runAccrual : JobProgram Unit := do
  let moment ← now
  if ← perform .acquireLock then
    let running ← perform (.listServers .running)
    let stopped ← perform (.listServers .stopped)
    let provisioning ← perform (.listServers .provisioning)
    accrueListed moment (running ++ stopped ++ provisioning)
  else
    return ()

/-- `_release_hold`: best-effort release of the creation hold. -/
def releaseHold (server : ServerAggregate) : JobProgram Unit := do
  match server.idempotencyKey with
  | none => return ()
  | some key =>
    match ← perform (.billing (.wallet server.userId)) with
    | none => return ()
    | some wallet =>
      match ← perform (.billing (.hold (.getByIdempotency wallet.id (Billing.createHoldKey key)))) with
      | none => return ()
      | some hold =>
        if hold.status = .created then
          let _ ← (perform (.billing (.hold (.release hold.id)))).attempt
        else
          return ()

/-- The copy moved to ERROR and saved; a failure is logged. -/
def markError (server : ServerAggregate) : JobProgram Unit := do
  match server.moveTo .error with
  | .error _ => return ()
  | .ok moved =>
    let _ ← (perform (.saveServer moved)).attempt

/-- `_is_legacy_create`. -/
def isLegacyCreate (server : ServerAggregate) : Bool :=
  !server.isPrepaidMonthly && !server.fingerprint.facts.has "fingerprint_version"

/-- `server_operation_key`. -/
def serverOperationKey (serverId : Uuid) : String :=
  "server-create:" ++ serverId.text

/-- `build_create_request`. -/
def buildCreateRequest (serverId : Uuid) (spec : ProvisioningSpec) (imageId : String) :
    CreateServerRequest where
  name := "srv-" ++ String.ofList (serverId.text.toList.take 8)
  planId := spec.planId
  imageId := imageId
  locationId := spec.locationId
  labels := [("platform_server_id", serverId.text)]

end ServerJob

end CloudPlatform.Operations
