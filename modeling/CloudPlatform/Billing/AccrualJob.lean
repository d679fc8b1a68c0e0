import CloudPlatform.Billing.Domain
import CloudPlatform.Wallets.HoldService

/-!
# The hourly accrual job

`AccrualJob` buys every due period of an hourly server. One period takes several transactions: the
charge (the capture of the creation hold for the first period, a wallet adjustment for the others),
the accrual record, and the paid-through watermark of the server row. A run that stops between them
is completed by the replay branch of the next run. Before a server is activated, powered on or rebooted,
the hour that starts now is bought in the same way.
-/

namespace CloudPlatform.Billing

open Calendar (second monthStart nextMonth)
open Compute (CloudServer ServerLifecycleState)
open Transition (Program)
open Wallets

/-! ### The rows -/

/-- The rows that the job reads and writes, for the servers of one wallet, and the clock. -/
structure BillingRows where
  books : Books
  servers : List CloudServer
  snapshots : List ServerPriceSnapshot
  accruals : List AccrualPeriod := []
  clock : ℤ

namespace BillingRows

def server (rows : BillingRows) (id : Uuid) : Option CloudServer :=
  rows.servers.find? (·.id = id)

def snapshot (rows : BillingRows) (serverId : Uuid) : Option ServerPriceSnapshot :=
  rows.snapshots.find? (·.serverId = serverId)

def accrual (rows : BillingRows) (key : String) : Option AccrualPeriod :=
  rows.accruals.find? (·.idempotencyKey = key)

/-- The rows with one server row replaced. -/
def setServer (rows : BillingRows) (server : CloudServer) : BillingRows :=
  { rows with
    servers := rows.servers.map fun other ↦ if other.id = server.id then server else other }

end BillingRows

/-- `get_entry_by_idempotency`; a domain entry must not have amount zero. -/
def ledgerEntry (books : Books) (walletId : Uuid) (key : String) : Result (Option LedgerEntry) :=
  if walletId = books.wallet.id then do
    rejectIf ((books.entry key).any (·.amount = 0)) .valueError "ledger entry amount cannot be zero"
    return books.entry key
  else .ok none

/-- `SqlAlchemyAccrualPeriodRepository.add`. -/
def addAccrual (rows : BillingRows) (period : AccrualPeriod) :
    Result (BillingRows × AccrualPeriod) := do
  rejectIf (rows.accrual period.idempotencyKey).isSome .accrualPeriodExists
    s!"accrual period {period.idempotencyKey} already exists"
  return ({ rows with accruals := rows.accruals ++ [period] }, period)

/-- The accrual records that `month_total` adds up. -/
def monthPeriods (accruals : List AccrualPeriod) (walletId : Uuid) (start : ℤ)
    (currency rule : String) : List AccrualPeriod :=
  accruals.filter fun period ↦ period.walletId = walletId ∧ start ≤ period.periodStart ∧
    period.periodStart < nextMonth start ∧ period.ruleKey.all (· = rule) ∧
    period.sellingCurrency = currency

/-- `SqlAlchemyAccrualPeriodRepository.month_total`. -/
def monthTotal (rows : BillingRows) (walletId : Uuid) (start : ℤ) (currency rule : String) :
    Result ℤ := do
  rejectIf (strip rule = "") .valueError "cap rule identity must be explicit"
  rejectIf (upper (strip currency) = "") .valueError "cap currency must be explicit"
  return ((monthPeriods rows.accruals walletId start (upper (strip currency)) (strip rule)).map
    (·.sellingMinor)).sum

/-- `SqlAlchemyServerRepository.save`. -/
def saveServer (rows : BillingRows) (copy : CloudServer) : Result (BillingRows × CloudServer) :=
  match rows.server copy.id with
  | none => raise .lookupError s!"server {copy.id.text} not found"
  | some row => .ok (rows.setServer (row.saved copy rows.clock), row.saved copy rows.clock)

/-- The ledger key of the capture of a server's creation hold. -/
def captureKey (server : CloudServer) : String :=
  HoldService.captureKey (createHoldKey (server.idempotencyKey.getD ""))

theorem captureKey_ne_accrualChargeKey (key : String) (serverId : Uuid) (t : ℤ) :
    HoldService.captureKey key ≠ accrualChargeKey serverId t := by
  intro h
  have hchars := congrArg String.toList h
  simp [HoldService.captureKey, accrualChargeKey] at hchars

/-! ### The calls -/

/-- The calls of the job on its repositories and on the clock. -/
inductive BillingCall
  | now
  | server (id : Uuid)
  | wallet (userId : Uuid)
  | snapshot (serverId : Uuid)
  | hold (request : HoldCall)
  | ledgerEntry (walletId : Uuid) (key : String)
  | accrual (key : String)
  | addAccrual (period : AccrualPeriod)
  | monthTotal (walletId : Uuid) (monthStart : ℤ) (currency rule : String)
  | adjust (call : AdjustCall)
  | saveServer (copy : CloudServer)

namespace BillingCall

abbrev Out : BillingCall → Type
  | now => ℤ
  | server _ => Option CloudServer
  | wallet _ => Option Wallet
  | snapshot _ => Option ServerPriceSnapshot
  | hold request => request.Out
  | ledgerEntry .. => Option LedgerEntry
  | accrual _ => Option AccrualPeriod
  | addAccrual _ => AccrualPeriod
  | monthTotal .. => ℤ
  | adjust _ => Wallet × Bool
  | saveServer _ => CloudServer

/-- How far the clock moves, and the id that the database gives a new row. -/
structure Chance where
  tick : ℕ
  newId : Uuid

/-- One call as one transaction. -/
def handle : (request : BillingCall) → Chance → BillingRows → Result request.Out × BillingRows
  | now, chance, rows =>
    (.ok (rows.clock + chance.tick), { rows with clock := rows.clock + chance.tick })
  | server id, _, rows => (.ok (rows.server id), rows)
  | wallet userId, _, rows => (.ok (some rows.books.wallet |>.filter (·.userId = userId)), rows)
  | snapshot serverId, _, rows => (.ok (rows.snapshot serverId), rows)
  | hold request, chance, rows =>
    let (reply, books) := request.handle ⟨rows.clock, chance.newId⟩ rows.books
    (reply, { rows with books := books })
  | ledgerEntry walletId key, _, rows => (Billing.ledgerEntry rows.books walletId key, rows)
  | accrual key, _, rows => (.ok (rows.accrual key), rows)
  | addAccrual period, _, rows => transaction rows (Billing.addAccrual rows period)
  | monthTotal walletId start currency rule, _, rows =>
    (Billing.monthTotal rows walletId start currency rule, rows)
  | adjust call, _, rows =>
    transaction rows ((Wallets.adjust rows.books call).map fun (books, reply) ↦
      ({ rows with books := books }, reply))
  | saveServer copy, _, rows => transaction rows (Billing.saveServer rows copy)

end BillingCall

abbrev AccrualProgram := Program Raised BillingCall BillingCall.Out

namespace AccrualJob

/-- One repository call. -/
abbrev perform (request : BillingCall) : AccrualProgram request.Out :=
  Program.perform request

/-- A method of the hold service. -/
def holds {α : Type} (program : HoldProgram α) : AccrualProgram α :=
  program.lift .hold fun _ reply ↦ reply

/-! ### One period -/

/-- What `_settle_period` knows of a period before it looks for its money. -/
structure Settlement where
  server : CloudServer
  wallet : Wallet
  snapshot : ServerPriceSnapshot
  exactCost : ℚ
  periodStart : ℤ
  periodEnd : ℤ
  hold : Option Hold

namespace Settlement

/-- The first period starts at the activation of the server. -/
def isFirstPeriod (facts : Settlement) : Bool :=
  facts.server.billingStartedAt = some facts.periodStart

/-- The key of the creation hold. -/
def holdKey (facts : Settlement) : String :=
  createHoldKey (facts.server.idempotencyKey.getD "")

/-- The ledger keys under which the period may already be paid. -/
def candidateKeys (facts : Settlement) : List String :=
  (if facts.isFirstPeriod && truthy facts.server.idempotencyKey then
      [HoldService.captureKey facts.holdKey] else []) ++
    [accrualChargeKey facts.server.id facts.periodStart]

/-- A ledger entry found under a candidate key agrees with the period. -/
def settledBy (facts : Settlement) (key : String) (entry : LedgerEntry) : Bool :=
  entry.amount = facts.snapshot.sellingMinor ∧
    upper entry.currency = upper facts.snapshot.sellingCurrency ∧ entry.entryType = .charge ∧
    if "capture-".toList.isPrefixOf key.toList then
      facts.hold.any fun hold ↦ hold.status = .captured ∧ entry.referenceType = some "hold" ∧
        entry.referenceId = some hold.id ∧
        entry.description = "hold captured for " ++ facts.holdKey
    else
      entry.referenceType = some "server" ∧ entry.referenceId = some facts.server.id ∧
        entry.description = usageDescription facts.periodStart facts.periodEnd

/-- The accrual record of the period. -/
def record (facts : Settlement) (key : String) : AccrualPeriod where
  serverId := facts.server.id
  walletId := facts.wallet.id
  periodStart := facts.periodStart
  periodEnd := facts.periodEnd
  sellingMinor := facts.snapshot.sellingMinor
  costMinor := facts.snapshot.offer.costMinor
  currency := facts.snapshot.sellingCurrency
  costCurrency := facts.snapshot.offer.currency
  sellingCurrency := facts.snapshot.sellingCurrency
  costAmount := some facts.exactCost
  ruleKey := some (Billing.ruleKey facts.snapshot.rule)
  idempotencyKey := key

/-- The wallet adjustment that pays a period. -/
def charge (facts : Settlement) : AdjustCall where
  userId := facts.server.userId
  delta := -facts.snapshot.sellingMinor
  idempotencyKey := accrualChargeKey facts.server.id facts.periodStart
  entryType := .charge
  referenceType := "server"
  referenceId := facts.server.id.text
  description := usageDescription facts.periodStart facts.periodEnd

end Settlement

/-- The wallet, the price and the creation hold of a period. -/
def loadPeriod (server : CloudServer) (periodStart periodEnd : ℤ) : AccrualProgram Settlement := do
  match ← perform (.wallet server.userId) with
  | none => throw ⟨.valueError, s!"server {server.id.text}: no persisted wallet"⟩
  | some wallet =>
    match ← perform (.snapshot server.id) with
    | none => throw ⟨.missingSnapshot, s!"server {server.id.text} has no price snapshot"⟩
    | some snapshot =>
      rejectIf (wallet.currency ≠ snapshot.sellingCurrency) .valueError
        (s!"wallet currency {wallet.currency} does not match " ++
          s!"selling currency {snapshot.sellingCurrency}")
      let exactCost ← exactCostAmount snapshot
      let facts : Settlement := ⟨server, wallet, snapshot, exactCost, periodStart, periodEnd, none⟩
      if facts.isFirstPeriod && truthy server.idempotencyKey then
        let hold ← perform (.hold (.getByIdempotency wallet.id facts.holdKey))
        return { facts with hold := hold }
      else
        return facts

/-- The candidate keys under which the ledger has the period's charge. -/
def replayMatches (facts : Settlement) : List String → AccrualProgram (List String)
  | [] => return []
  | key :: rest => do
    match ← perform (.ledgerEntry facts.wallet.id key) with
    | none => replayMatches facts rest
    | some entry =>
      rejectIf (!facts.settledBy key entry) .valueError
        s!"ledger idempotency key '{key}' has different settlement facts"
      return key :: (← replayMatches facts rest)

/-- `_persist_accrual_record`. -/
def persistAccrualRecord (period : AccrualPeriod) : AccrualProgram AccrualPeriod := do
  match ← perform (.accrual period.idempotencyKey) with
  | some existing =>
    rejectIf (!accrualMatches existing period) .valueError
      (s!"accrual idempotency key '{period.idempotencyKey}' was reused " ++
        "with different immutable facts")
    return existing
  | none =>
    tryCatch (perform (.addAccrual period)) fun raised ↦ do
      if raised.kind = .accrualPeriodExists then
        match ← perform (.accrual period.idempotencyKey) with
        | some existing =>
          rejectIf (!accrualMatches existing period) .valueError
            s!"accrual idempotency key '{period.idempotencyKey}' has conflicting facts"
          return existing
        | none =>
          throw ⟨.valueError,
            s!"accrual idempotency key '{period.idempotencyKey}' has conflicting facts"⟩
      else
        throw raised

/-- The copy of a server with its paid-through watermark moved, never back. -/
def moved (server : CloudServer) (periodEnd : ℤ) : CloudServer :=
  { server with
    lastAccruedAt := some ((server.lastAccruedAt.map (max · periodEnd)).getD periodEnd) }

/-- `_advance`; the copy with its new version. -/
def advance (server : CloudServer) (periodEnd : ℤ) : AccrualProgram CloudServer := do
  let refreshed ← perform (.saveServer (moved server periodEnd))
  return { moved server periodEnd with updatedAt := refreshed.updatedAt }

/-- The accrual record and the watermark of a period that is paid under a key. -/
def finish (facts : Settlement) (key : String) : AccrualProgram CloudServer := do
  let period ← (facts.record key).validated
  let _ ← persistAccrualRecord period
  advance facts.server facts.periodEnd

/-- `_assert_capture_ledger`. -/
def assertCaptureLedger (facts : Settlement) (hold : Hold) : AccrualProgram Unit := do
  let captureKey := HoldService.captureKey facts.holdKey
  match ← perform (.ledgerEntry facts.wallet.id captureKey) with
  | none => throw ⟨.valueError, s!"hold capture '{captureKey}' has no CHARGE ledger fact"⟩
  | some entry =>
    rejectIf (entry.amount ≠ facts.snapshot.sellingMinor ||
        upper entry.currency ≠ upper facts.snapshot.sellingCurrency ||
        entry.entryType ≠ .charge || entry.referenceType ≠ some "hold" ||
        entry.referenceId ≠ some hold.id ||
        entry.description ≠ "hold captured for " ++ facts.holdKey) .valueError
      s!"hold capture '{captureKey}' has different CHARGE facts"

/-- The capture of the creation hold, or the repair of its ledger entry. -/
def settleByCapture (facts : Settlement) (hold : Hold) (unconfirmed : String) :
    AccrualProgram CloudServer := do
  let captured ← holds (HoldService.captureHold facts.wallet.id hold.id facts.holdKey)
  rejectIf (captured.status ≠ .captured) .valueError unconfirmed
  assertCaptureLedger facts captured
  finish facts (HoldService.captureKey facts.holdKey)

/-- A period beyond the cap: a captured hold is recorded, a created one released. -/
def settleCapped (facts : Settlement) : AccrualProgram CloudServer := do
  match facts.hold with
  | some hold =>
    if hold.status = .captured then
      settleByCapture facts hold "captured hold could not be repaired"
    else if hold.status = .created then
      let released ← holds (HoldService.releaseHold facts.wallet.id hold.id facts.holdKey)
      rejectIf (released.status ≠ .released) .valueError
        "capped creation hold release was not durably confirmed"
      advance facts.server facts.periodEnd
    else
      advance facts.server facts.periodEnd
  | none => advance facts.server facts.periodEnd

/-- A period to be paid now. -/
def settleFresh (facts : Settlement) : AccrualProgram CloudServer := do
  match facts.hold with
  | some hold =>
    rejectIf (hold.status = .released) .valueError
      "first-hour reservation was released; refusing activation charge"
    rejectIf (hold.currency ≠ facts.snapshot.sellingCurrency ||
        hold.amount ≠ facts.snapshot.sellingMinor) .valueError
      "creation hold amount/currency does not match the first-period charge"
    settleByCapture facts hold "hold capture returned no persisted CAPTURED hold"
  | none =>
    let _ ← perform (.adjust facts.charge)
    finish facts (accrualChargeKey facts.server.id facts.periodStart)

/-- `_settle_period`; the copy of the server with its new watermark. -/
def settlePeriod (server : CloudServer) (periodStart periodEnd : ℤ) :
    AccrualProgram CloudServer := do
  let facts ← loadPeriod server periodStart periodEnd
  let keys ← replayMatches facts facts.candidateKeys
  rejectIf (1 < keys.length) .valueError
    ("first billing period has both capture and usage settlement keys; " ++
      "financial reconciliation requires operator review")
  match keys with
  | key :: _ => finish facts key
  | [] =>
    match facts.snapshot.rule.monthlyCapMinor with
    | none => settleFresh facts
    | some cap =>
      let billed ← perform (.monthTotal facts.wallet.id (monthStart periodStart)
        facts.snapshot.sellingCurrency (ruleKey facts.snapshot.rule))
      if billed + facts.snapshot.sellingMinor > cap then settleCapped facts
      else settleFresh facts

/-! ### One server -/

/-- A way to settle one period of a server. -/
abbrev Settle := CloudServer → ℤ → ℤ → AccrualProgram CloudServer

/-- The periods `k`, `k + 1`, … of the loop of `_accrue_server`, as many as remain. -/
def settlePeriods (settle : Settle) (last quantum : ℤ) : ℕ → ℕ → CloudServer →
    AccrualProgram CloudServer
  | _, 0, server => return server
  | k, remaining + 1, server => do
    let periodStart ← addSeconds last (quantum * k)
    let periodEnd ← addSeconds periodStart quantum
    let advanced ← settle server periodStart periodEnd
    settlePeriods settle last quantum (k + 1) remaining advanced

/-- `_accrue_server`: every due period, the one that starts exactly now included. -/
def accrueServer (settle : Settle) (server : CloudServer) (now : ℤ) :
    AccrualProgram CloudServer := do
  if server.isPrepaidMonthly || server.isPrepaidHourlyIrt then
    return server
  else
    match server.billingStartedAt with
    | none => throw ⟨.valueError, "hourly server has no provider-running billing anchor"⟩
    | some start =>
      let last := server.lastAccruedAt.getD start
      rejectIf (last < start) .valueError "paid-through watermark precedes billing activation"
      if now < last then
        return server
      else
        rejectIf (server.quantumSeconds = 0) .divisionByZero "division by zero"
        let due := (now - last) / (server.quantumSeconds * second) + 1
        settlePeriods settle last server.quantumSeconds 0 due.toNat server

/-- A run of `_accrue_server` over the row of a server. -/
def accrue (serverId : Uuid) : AccrualProgram Unit := do
  let now ← perform .now
  match ← perform (.server serverId) with
  | none => throw ⟨.lookupError, s!"server {serverId.text} not found"⟩
  | some server =>
    let _ ← accrueServer settlePeriod server now

/-- `_request_unpaid_deletion`. -/
def requestUnpaidDeletion (server : CloudServer) (now : ℤ) : AccrualProgram Unit := do
  if server.lastAccruedAt.any (now < ·) then
    return ()
  else
    let requested ← { server with lowBalanceSince := some (server.lowBalanceSince.getD now) }
      |>.transitionTo .deleteRequested
    let _ ← perform (.saveServer requested)

/-- A period of the periodic run: for want of funds, the deletion of the server is requested, from
the copy that the loop has moved so far. -/
def settleOrRequestDeletion (now : ℤ) : Settle := fun server periodStart periodEnd ↦
  tryCatch (settlePeriod server periodStart periodEnd) fun raised ↦ do
    if raised.kind = .insufficientBalance then
      requestUnpaidDeletion server now
      throw raised
    else
      throw raised

/-- The servers that `_run_servers` bills. -/
def billed (server : CloudServer) : Bool :=
  server.state ∈ [ServerLifecycleState.running, .stopped, .provisioning] ∧
    !server.isPrepaidMonthly ∧ !server.isPrepaidHourlyIrt ∧ truthy server.providerServerId ∧
    (server.state ≠ .provisioning ∨ server.billingStartedAt.isSome)

/-- The turn of one server in `_run_servers`. -/
def runServer (serverId : Uuid) : AccrualProgram Unit := do
  let now ← perform .now
  match ← perform (.server serverId) with
  | none => return ()
  | some server =>
    if billed server then
      let _ ← accrueServer (settleOrRequestDeletion now) server now
    else
      return ()

end AccrualJob

/-! ### The prepayment of an hourly server -/

open Compute (CloudServer ServerLifecycleState)

namespace AccrualJob

/-- The caller's copy with the durable billing facts and the state of the row. -/
def refreshed (server current : CloudServer) : CloudServer :=
  { server with
    billingStartedAt := current.billingStartedAt
    lastAccruedAt := current.lastAccruedAt
    state := current.state
    lowBalanceSince := current.lowBalanceSince
    updatedAt := current.updatedAt }

/-- The copy with its billing anchor, which is persisted when it is new. -/
def anchored (server : CloudServer) (now : ℤ) : AccrualProgram CloudServer := do
  match server.billingStartedAt with
  | some _ => return server
  | none =>
    let started := { server with billingStartedAt := some now }
    let row ← perform (.saveServer started)
    return { started with updatedAt := row.updatedAt }

/-- `_prepay_locked`; the copy with its new watermark. -/
def prepayLocked (server : CloudServer) (now coverageAt : ℤ) : AccrualProgram CloudServer := do
  match ← perform (.server server.id) with
  | none =>
    throw ⟨.valueError, "hourly prepayment requires the persisted provider resource"⟩
  | some current =>
    rejectIf (current.providerServerId ≠ server.providerServerId) .valueError
      "hourly prepayment requires the persisted provider resource"
    let known := refreshed server current
    rejectIf (known.state ∉ [ServerLifecycleState.provisioning, .running, .stopped]) .valueError
      "hourly prepayment requires a provider-backed active server"
    rejectIf (!truthy known.providerServerId) .valueError
      "hourly prepayment requires a provider resource"
    let started ← anchored known now
    accrueServer (settleOrRequestDeletion now) started coverageAt

end AccrualJob

end CloudPlatform.Billing
