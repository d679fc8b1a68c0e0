import CloudPlatform.Compute.ServerSaves
import CloudPlatform.Core.Calendar
import CloudPlatform.Operations.StatePlan
import CloudPlatform.Providers.Ports
import CloudPlatform.Wallets.Domain

/-!
# The prepaid balance policy

A prepaid hourly server whose owner has nothing left is stopped, and deleted after a day. One pass
writes the watermarks of the warning and of the zero balance into the rows of the servers; another
reads the watermark, the wallet and the provider again, and requests the stop or the deletion.
-/

namespace CloudPlatform.Billing

open Calendar (day isoformat)
open Compute (ServerAggregate ServerLifecycleState)
open Operations (ProviderServerState normalizeProviderStatus)
open Providers (isKeyError isProviderError)
open Rows
open Wallets (Wallet)

/-- The server row with the start of the current zero-balance episode. -/
structure PrepaidServer extends ServerAggregate where
  prepaidZeroSince : Option ℤ := none
  deriving DecidableEq

/-- `SqlAlchemyServerRepository.save`: the zero watermark is not written. -/
def PrepaidServer.savedAs (row : PrepaidServer) (copy : ServerAggregate) (now : ℤ) :
    PrepaidServer :=
  { row with toServerAggregate := row.toServerAggregate.saved copy now }

abbrev PrepaidServers := Table fun server : PrepaidServer ↦ server.id

/-- The wallets, one for each customer. -/
abbrev WalletRows := Table fun wallet : Wallet ↦ wallet.userId

/-! ### The decision -/

inductive PrepaidBalanceDecision
  | none
  | warn
  | stop
  | delete
  | recovered

structure PrepaidBalanceOutcome where
  decision : PrepaidBalanceDecision
  warningSince : Option ℤ
  zeroSince : Option ℤ

/-- `decide_prepaid_balance`. -/
def decidePrepaidBalance (balance : ℤ) (warningSince zeroSince : Option ℤ) (now : ℤ) :
    Result PrepaidBalanceOutcome :=
  if balance < 0 then raise .valueError "IRT balance must be a non-negative integer"
  else if balance = 0 then
    let since := zeroSince.getD now
    if now < since then raise .valueError "zero watermark cannot be in the future"
    else
      .ok {
        decision := if day ≤ now - since then .delete else .stop
        warningSince := some (warningSince.getD now)
        zeroSince := some since }
  else if balance < 200000 then
    .ok {
      decision := if warningSince.isNone then .warn else .none
      warningSince := some (warningSince.getD now)
      zeroSince := none }
  else
    .ok {
      decision := if warningSince.isSome || zeroSince.isSome then .recovered else .none
      warningSince := none
      zeroSince := none }

/-- The row with the watermarks of a decision. -/
def PrepaidServer.mark (row : PrepaidServer) (outcome : PrepaidBalanceOutcome) : PrepaidServer :=
  { row with
    lowBalanceSince := outcome.warningSince
    prepaidZeroSince := outcome.zeroSince }

/-! ### The pass over the balances -/

/-- `save_prepaid_balance_markers`: the watermarks are written if the row still has those that the
decision was made from. -/
def savePrepaidBalanceMarkers (servers : PrepaidServers) (server : PrepaidServer)
    (outcome : PrepaidBalanceOutcome) : Result PrepaidServers := do
  match servers.get server.id with
  | none => raise .valueError "prepaid server missing or contract changed"
  | some row =>
    rejectIf (!row.isPrepaidHourlyIrt) .valueError "prepaid server missing or contract changed"
    rejectIf (row.state ∉ [ServerLifecycleState.running, .stopped]) .valueError
      "prepaid server no longer qualifies for balance policy"
    rejectIf (row.lowBalanceSince ≠ server.lowBalanceSince ||
      row.prepaidZeroSince ≠ server.prepaidZeroSince) .valueError
      "prepaid warning or zero watermark changed concurrently"
    return servers.put (row.mark outcome)

structure PrepaidBalancePolicyReport where
  decisions : List (Uuid × PrepaidBalanceDecision) := []
  errors : List (Uuid × String) := []

/-- The decision about a listed server. -/
def judgeBalance (wallets : WalletRows) (now : ℤ) (server : PrepaidServer) :
    Result PrepaidBalanceOutcome :=
  match wallets.get server.userId with
  | none => raise .valueError "prepaid policy requires the owner's IRT wallet"
  | some wallet =>
    if wallet.currency ≠ "IRT" then
      raise .valueError "prepaid policy requires the owner's IRT wallet"
    else decidePrepaidBalance wallet.balance server.lowBalanceSince server.prepaidZeroSince now

/-- The watermarks are written where the decision moves them. -/
def recordOutcome (servers : PrepaidServers) (server : PrepaidServer)
    (outcome : PrepaidBalanceOutcome) : Result PrepaidServers :=
  if outcome.warningSince ≠ server.lowBalanceSince ∨
      outcome.zeroSince ≠ server.prepaidZeroSince then
    savePrepaidBalanceMarkers servers server outcome
  else .ok servers

/-- The turn of one listed server; a failure ends in the report. -/
def evaluateServer (wallets : WalletRows) (now : ℤ)
    (pass : PrepaidServers × PrepaidBalancePolicyReport) (server : PrepaidServer) :
    PrepaidServers × PrepaidBalancePolicyReport :=
  if server.isPrepaidHourlyIrt then
    match judgeBalance wallets now server with
    | .error raised =>
      (pass.1, { pass.2 with errors := pass.2.errors ++ [(server.id, raised.message)] })
    | .ok outcome =>
      match recordOutcome pass.1 server outcome with
      | .error raised =>
        (pass.1, { pass.2 with errors := pass.2.errors ++ [(server.id, raised.message)] })
      | .ok servers =>
        (servers, { pass.2 with decisions := pass.2.decisions ++ [(server.id, outcome.decision)] })
  else pass

/-- `list_running` and `list_stopped`. -/
def listedServers (servers : PrepaidServers) : List PrepaidServer :=
  servers.rows.filter (·.state = .running) ++ servers.rows.filter (·.state = .stopped)

/-- `PrepaidBalancePolicyService.evaluate`. -/
def evaluate (servers : PrepaidServers) (wallets : WalletRows) (now : ℤ) :
    PrepaidServers × PrepaidBalancePolicyReport :=
  (listedServers servers).foldl (evaluateServer wallets now) (servers, {})

/-! ### The pass over the provider -/

inductive PrepaidProviderLifecycleOutcome
  | skipped
  | inconclusive
  | stopRequested
  | stopped
  | deleteRequested

/-- What the registry and the provider say of a server: the adapter's lookup or read raises, or the
provider answers with a resource of some status or with none. -/
inductive ProviderAnswer
  | failed (raised : Raised)
  | answered (status : Option String) (power : Bool)

/-- The remote state behind an answer. -/
def remoteStateOf (status : Option String) : ProviderServerState :=
  match status with
  | none => .notFound
  | some text => normalizeProviderStatus (some text)

/-- A request to the power or the delete command of the owner. -/
inductive PrepaidCommand
  | powerOff (userId serverId : Uuid) (key : String)
  | delete (userId serverId : Uuid) (key : String)

/-- What a command does: the copies of servers that it saves, and whether it raises. -/
structure CommandEffect where
  saves : List ServerAggregate := []
  raised : Option Raised := none

/-- A save of a copy; there may be no such row. -/
def saveCopy (now : ℤ) (servers : PrepaidServers) (copy : ServerAggregate) : PrepaidServers :=
  match servers.get copy.id with
  | none => servers
  | some row => servers.put (row.savedAs copy now)

/-- The rows, the outcome and the request of a pass. -/
structure EnforcePass where
  servers : PrepaidServers
  outcome : Result PrepaidProviderLifecycleOutcome
  command : Option PrepaidCommand := none

/-- The pass ends with a command. -/
def EnforcePass.send (servers : PrepaidServers) (now : ℤ) (command : PrepaidCommand)
    (effect : CommandEffect) (outcome : PrepaidProviderLifecycleOutcome) : EnforcePass where
  servers := effect.saves.foldl (saveCopy now) servers
  outcome := effect.raised.elim (.ok outcome) .error
  command := some command

/-- The clock, the servers and the wallets. -/
structure PrepaidWorld where
  now : ℤ
  servers : PrepaidServers
  wallets : WalletRows

namespace PrepaidWorld

/-- The customer's wallet is in IRT and empty. -/
def atZero (world : PrepaidWorld) (userId : Uuid) : Bool :=
  (world.wallets.get userId).any fun wallet ↦ wallet.currency = "IRT" && wallet.balance = 0

/-- `str` of an aware UTC datetime. -/
def spacedIsoformat (instant : ℤ) : String :=
  (isoformat instant).map fun c ↦ if c = 'T' then ' ' else c

/-- The key of a stop. -/
def stopKey (server : PrepaidServer) (unpaid : Bool) : String :=
  match server.prepaidZeroSince with
  | some since =>
    if unpaid then "prepaid-unpaid:" ++ server.prepaidPaidUntil.elim "uncovered" spacedIsoformat
    else "prepaid-zero:" ++ isoformat since
  | none => "prepaid-unpaid:" ++ server.prepaidPaidUntil.elim "uncovered" spacedIsoformat

/-- The last look at the row and the wallet before the deletion is requested. -/
def deleteAfterRecheck (world : PrepaidWorld) (servers : PrepaidServers) (server : PrepaidServer)
    (since : ℤ) (effect : CommandEffect) : EnforcePass :=
  match servers.get server.id with
  | none => ⟨servers, .ok .skipped, none⟩
  | some current =>
    if current.userId ≠ server.userId ∨ current.isPrepaidHourlyIrt = false ∨
        current.prepaidZeroSince ≠ server.prepaidZeroSince ∨ current.state ≠ .stopped ∨
        world.atZero server.userId = false then
      ⟨servers, .ok .skipped, none⟩
    else
      .send servers world.now
        (.delete server.userId server.id ("prepaid-zero:" ++ isoformat since)) effect
        .deleteRequested

/-- The row of a server that its provider has stopped. -/
def confirmStopped (world : PrepaidWorld) (server : PrepaidServer) : PrepaidServers :=
  -- RUNNING may become STOPPED; a stopped row is left.
  if server.state = .running then
    world.servers.put
      (server.savedAs { server.toServerAggregate with state := .stopped } world.now)
  else world.servers

/-- The pass once the provider has answered. -/
def enforceRemote (world : PrepaidWorld) (server : PrepaidServer) (unpaid : Bool)
    (status : Option String) (power : Bool) (effect : CommandEffect) : EnforcePass :=
  match remoteStateOf status with
  | .running =>
    if power = false then ⟨world.servers, .ok .inconclusive, none⟩
    else if server.state = .stopped then ⟨world.servers, .ok .inconclusive, none⟩
    else
      .send world.servers world.now (.powerOff server.userId server.id (stopKey server unpaid))
        effect .stopRequested
  | .stopped =>
    match server.prepaidZeroSince with
    | none => ⟨world.confirmStopped server, .ok .stopped, none⟩
    | some since =>
      if unpaid ∨ world.now - since < day then ⟨world.confirmStopped server, .ok .stopped, none⟩
      else world.deleteAfterRecheck (world.confirmStopped server) server since effect
  | _ => ⟨world.servers, .ok .inconclusive, none⟩

/-- `PrepaidProviderLifecycleService._enforce`: `enforce`, or `enforce_unpaid`. -/
def enforce (world : PrepaidWorld) (serverId : Uuid) (unpaid : Bool) (answer : ProviderAnswer)
    (effect : CommandEffect) : EnforcePass :=
  match world.servers.get serverId with
  | none => ⟨world.servers, .ok .skipped, none⟩
  | some server =>
    if server.isPrepaidHourlyIrt = false then ⟨world.servers, .ok .skipped, none⟩
    else if server.prepaidZeroSince = none ∧ unpaid = false then
      ⟨world.servers, .ok .skipped, none⟩
    else if server.prepaidZeroSince.any (world.now < ·) then
      ⟨world.servers, raise .valueError "zero watermark cannot be in the future", none⟩
    else if unpaid = false ∧ world.atZero server.userId = false then
      ⟨world.servers, .ok .skipped, none⟩
    else if truthy server.providerServerId = false ∨
        server.state ∉ [ServerLifecycleState.running, .stopped] then
      ⟨world.servers, .ok .inconclusive, none⟩
    else
      match answer with
      | .failed raised =>
        if isKeyError raised.kind || isProviderError raised.kind then
          ⟨world.servers, .ok .inconclusive, none⟩
        else ⟨world.servers, .error raised, none⟩
      | .answered status power => world.enforceRemote server unpaid status power effect

end PrepaidWorld

/-! ### Runs -/

/-- Time passes, a wallet row or a copy of a server is saved, or one of the passes runs. -/
inductive PrepaidEvent
  | elapse (microseconds : ℕ)
  | saveWallet (wallet : Wallet)
  | saveServer (copy : ServerAggregate)
  | evaluate
  | enforce (serverId : Uuid) (unpaid : Bool) (answer : ProviderAnswer) (effect : CommandEffect)

namespace PrepaidWorld

/-- What an event requests of the commands. -/
def command (world : PrepaidWorld) : PrepaidEvent → Option PrepaidCommand
  | .enforce serverId unpaid answer effect => (world.enforce serverId unpaid answer effect).command
  | _ => none

/-- One event. -/
def step (world : PrepaidWorld) : PrepaidEvent → PrepaidWorld
  | .elapse microseconds => { world with now := world.now + microseconds }
  | .saveWallet wallet => { world with wallets := world.wallets.put wallet }
  | .saveServer copy => { world with servers := saveCopy world.now world.servers copy }
  | .evaluate =>
    { world with servers := (Billing.evaluate world.servers world.wallets world.now).1 }
  | .enforce serverId unpaid answer effect =>
    { world with servers := (world.enforce serverId unpaid answer effect).servers }

/-- The world in which the servers have just been created: no zero watermark is set. -/
def start (now : ℤ) (servers : Table fun server : ServerAggregate ↦ server.id)
    (wallets : WalletRows) : PrepaidWorld where
  now := now
  servers := {
    rows := servers.rows.map fun server ↦ { server with prepaidZeroSince := none }
    unique := by
      rw [List.map_map]
      exact servers.unique }
  wallets := wallets

end PrepaidWorld

end CloudPlatform.Billing
