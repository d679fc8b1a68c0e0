import CloudPlatform.Core.Calendar
import CloudPlatform.Renewals.Domain
import CloudPlatform.Wallets.HoldService

/-!
# The renewal checker

One service with its renewal record and its owner's wallet: the automatic pass of `RenewalChecker`,
the settlement that a customer asks for, and the renewal preference. A pass works on the record that
it has listed, which the others may have rewritten since; every write stores the whole record. Customer
and operator notifications change none of the rows and are left out.
-/

namespace CloudPlatform.Renewals

open Compute (CloudServer)
open Transition (Program)
open Wallets (Books Hold HoldCall Wallet)

/-- `MONTH_PERIOD`. -/
def monthPeriod : ℤ := 30 * Calendar.day

/-- `PAYABLE_STATUSES`. -/
def payableStatuses : List RenewalStatus :=
  [.paymentDue, .gracePeriod, .insufficientFunds, .suspended]

/-- `_period_of`: the day of a renewal instant. -/
def periodOf (renewalAt : ℤ) : ℤ :=
  Calendar.midnight (Calendar.dayOf renewalAt)

/-- `renewal_charge_key`. -/
def renewalChargeKey (serverId : Uuid) (period : ℤ) : String :=
  "renewal-charge:" ++ serverId.text ++ ":" ++ Calendar.dateText period

/-- The configured collection and grace policy. -/
structure CommerceRenewalPolicy where
  enabled : Bool := true
  chargeBeforeExpiryHours : ℕ := 72
  gracePeriodHours : ℕ := 48

/-- `charge_window_open`, over the time that remains. -/
def CommerceRenewalPolicy.chargeWindowOpen (policy : CommerceRenewalPolicy) (remaining : ℤ) : Bool :=
  remaining ≤ policy.chargeBeforeExpiryHours * Calendar.hour

/-- The end of the grace of a period. -/
def CommerceRenewalPolicy.graceEnd (policy : CommerceRenewalPolicy) (renewalAt : ℤ) : ℤ :=
  renewalAt + policy.gracePeriodHours * Calendar.hour

/-! ### Calls -/

/-- The repository calls of the checker, and its clock. -/
inductive RenewalCall
  | now
  | listActive
  | lockForUpdate (serverId : Uuid)
  | upsert (record : RenewalRecord)
  | setAutoRenew (serverId : Uuid) (enabled : Bool)
  | server (serverId : Uuid)
  | wallet (userId : Uuid)
  | hold (request : HoldCall)

/-- The rows of one service: its record, its server, and the wallet of its owner. -/
structure RenewalRows where
  books : Books
  record : Option RenewalRecord
  server : Option CloudServer

namespace RenewalCall

/-- What a call returns. -/
abbrev Out : RenewalCall → Type
  | now => ℤ
  | listActive => Option RenewalRecord
  | lockForUpdate _ => Option RenewalRecord
  | upsert _ => RenewalRecord
  | setAutoRenew .. => RenewalRecord
  | server _ => Option CloudServer
  | wallet _ => Option Wallet
  | hold request => request.Out

/-- One call as one transaction. -/
def handle : (request : RenewalCall) → HoldCall.Chance → RenewalRows →
    Result request.Out × RenewalRows
  | now, chance, rows => (.ok chance.now, rows)
  | listActive, _, rows => (.ok (rows.record.filter (·.status ≠ .cancelled)), rows)
  | lockForUpdate serverId, _, rows => (.ok (rows.record.filter (·.serverId = serverId)), rows)
  | upsert record, _, rows =>
    (.ok (Renewals.upsert rows.record record),
      { rows with record := some (Renewals.upsert rows.record record) })
  | setAutoRenew serverId enabled, _, rows =>
    match rows.record.filter (·.serverId = serverId) with
    | none => (raise .lookupError s!"no renewal record for server {serverId.text}", rows)
    | some row =>
      (.ok { row with autoChargeEnabled := enabled },
        { rows with record := some { row with autoChargeEnabled := enabled } })
  | server serverId, _, rows => (.ok (rows.server.filter (·.id = serverId)), rows)
  | wallet userId, _, rows =>
    (.ok (if rows.books.wallet.userId = userId then some rows.books.wallet else none), rows)
  | hold request, chance, rows =>
    ((request.handle chance rows.books).1, { rows with books := (request.handle chance rows.books).2 })

end RenewalCall

abbrev RenewalProgram := Program Raised RenewalCall RenewalCall.Out

/-- One call. -/
abbrev perform (request : RenewalCall) : RenewalProgram request.Out :=
  Program.perform request

/-- A program of the hold service, as the checker calls it. -/
abbrev onHolds {α : Type} (program : Wallets.HoldProgram α) : RenewalProgram α :=
  program.lift RenewalCall.hold fun _ ↦ id

/-! ### Money -/

/-- The hold of the period: the CREATED one, or a new one; `None` when the balance does not cover it. -/
def holdOfPeriod (record : RenewalRecord) (walletId : Uuid) (key : String) (existing : Option Hold) :
    RenewalProgram (Option Hold) :=
  match existing.filter (·.status = .created) with
  | some hold => return some hold
  | none =>
    tryCatch (do
      let hold ← perform (.hold (.create walletId record.customerPriceMinor record.currency key))
      return some hold) fun raised ↦
      if raised.kind = .insufficientHoldBalance then return none
      else if raised.kind = .integrityError then
        perform (.hold (.getByIdempotency walletId key))
      else throw raised

/-- `_charge`: the debit of a period; true when the renewal is paid for. -/
def charge (record : RenewalRecord) (server : CloudServer) (period : ℤ) : RenewalProgram Bool := do
  match ← perform (.wallet server.userId) with
  | none => return false
  | some wallet =>
    let key := renewalChargeKey server.id period
    let existing ← perform (.hold (.getByIdempotency wallet.id key))
    if existing.any (·.status = .captured) then
      return true
    else
      match ← holdOfPeriod record wallet.id key existing with
      | none => return false
      | some hold =>
        tryCatch (do
          let _ ← onHolds (Wallets.HoldService.captureHold wallet.id hold.id key)
          return true) fun _ ↦ return false

/-! ### Transitions -/

/-- The outcome of one service in a pass. -/
structure RenewalCheckOutcome where
  serverId : Uuid
  action : String
  balanceMinor : Option ℤ := none

/-- `_mark_due`: ACTIVE becomes PAYMENT_DUE once, with its grace deadline; the record it leaves. -/
def markDue (policy : CommerceRenewalPolicy) (record : RenewalRecord) (renewalAt : ℤ) :
    RenewalProgram RenewalRecord :=
  if record.status = .paymentDue ∨ record.status = .gracePeriod then
    if record.graceUntil = none then do
      let now ← perform .now
      let marked : RenewalRecord :=
        { record with graceUntil := some (policy.graceEnd renewalAt), lastCheckedAt := some now }
      let _ ← perform (.upsert marked)
      return marked
    else return record
  else if record.status = .active then do
    let now ← perform .now
    let marked : RenewalRecord :=
      { record with
        status := .paymentDue
        graceUntil := some (policy.graceEnd renewalAt)
        lastCheckedAt := some now }
    let _ ← perform (.upsert marked)
    return marked
  else return record

/-- `_suspend`. -/
def suspend (record : RenewalRecord) (balance : ℤ) : RenewalProgram RenewalCheckOutcome :=
  if record.status = .suspended then return ⟨record.serverId, "suspended", some balance⟩
  else do
    let now ← perform .now
    let _ ← perform (.upsert { record with status := .suspended, lastCheckedAt := some now })
    return ⟨record.serverId, "suspended", some balance⟩

/-- The record once its period is paid for. -/
def advanced (record : RenewalRecord) (renewalAt now : ℤ) : RenewalRecord :=
  { record with
    providerRenewalAt := some (renewalAt + monthPeriod)
    status := .active
    graceUntil := none
    lastCheckedAt := some now }

/-- `_settle`: charge the period and advance the service. -/
def settle (record : RenewalRecord) (server : CloudServer) (balance renewalAt : ℤ) :
    RenewalProgram RenewalCheckOutcome := do
  if ← charge record server (periodOf renewalAt) then
    let now ← perform .now
    let _ ← perform (.upsert (advanced record renewalAt now))
    return ⟨record.serverId, "charged", some balance⟩
  else
    return ⟨record.serverId, "grace_retry", some balance⟩

/-! ### The automatic pass -/

/-- `_wallet_balance`. -/
def walletBalance (server : CloudServer) : RenewalProgram ℤ := do
  return ((← perform (.wallet server.userId)).map (·.balance)).getD 0

/-- `_check` of a service whose period has ended. -/
def checkEnded (policy : CommerceRenewalPolicy) (record : RenewalRecord) (server : CloudServer)
    (balance renewalAt now : ℤ) : RenewalProgram RenewalCheckOutcome := do
  let marked ← markDue policy record renewalAt
  if marked.graceUntil.getD (policy.graceEnd renewalAt) ≤ now then
    suspend marked balance
  else if marked.autoChargeEnabled ∧ marked.customerPriceMinor ≤ balance then
    settle marked server balance renewalAt
  else
    return ⟨record.serverId,
      if marked.autoChargeEnabled then "grace_retry" else "renewal_due", some balance⟩

/-- `_check`. -/
def check (policy : CommerceRenewalPolicy) (record : RenewalRecord) :
    RenewalProgram RenewalCheckOutcome := do
  let now ← perform .now
  match record.providerRenewalAt with
  | none => return ⟨record.serverId, "skipped", none⟩
  | some renewalAt =>
    match ← perform (.server record.serverId) with
    | none => return ⟨record.serverId, "skipped", none⟩
    | some server =>
      let balance ← walletBalance server
      if now < renewalAt then
        if record.autoChargeEnabled ∧ policy.chargeWindowOpen (renewalAt - now) ∧
            record.customerPriceMinor ≤ balance then
          settle record server balance renewalAt
        else return ⟨record.serverId, "warned", some balance⟩
      else checkEnded policy record server balance renewalAt now

/-- `RenewalChecker.run`, as it treats one service: a failing check is reported and ends. -/
def runPass (policy : CommerceRenewalPolicy) : RenewalProgram Unit := do
  if policy.enabled then
    match ← perform .listActive with
    | none => return ()
    | some record => tryCatch (do let _ ← check policy record) fun _ ↦ return ()
  else return ()

/-! ### The customer's side -/

/-- The result of a settlement that a customer asks for. -/
structure RenewalNowOutcome where
  serverId : Uuid
  reason : String
  settled : Bool := false
  status : RenewalStatus := .active
  amountMinor : ℤ := 0
  currency : String := ""
  periodEnd : Option ℤ := none
  graceUntil : Option ℤ := none
  autoRenewEnabled : Bool := true

/-- `_period_captured`: only for the wording of the answer. -/
def periodCaptured (serverId : Uuid) (wallet : Option Wallet) (period : ℤ) : RenewalProgram Bool :=
  match wallet with
  | none => return false
  | some wallet =>
    tryCatch (do
      let hold ← perform (.hold (.getByIdempotency wallet.id (renewalChargeKey serverId period)))
      return hold.any (·.status = .captured)) fun _ ↦ return false

/-- `settle_now` of a period that is payable now. -/
def settlePayable (serverId : Uuid) (record : RenewalRecord) (renewalAt : ℤ)
    (base : RenewalNowOutcome) : RenewalProgram RenewalNowOutcome := do
  match ← perform (.server serverId) with
  | none => return { base with reason := "no_renewal_record" }
  | some server =>
    let wallet ← perform (.wallet server.userId)
    let already ← periodCaptured serverId wallet (periodOf renewalAt)
    let outcome ← settle record server ((wallet.map (·.balance)).getD 0) renewalAt
    if outcome.action ≠ "charged" then return { base with reason := "insufficient_funds" }
    else
      return { base with
        reason := if already then "already_charged" else "charged"
        settled := true
        status := .active
        periodEnd := some (renewalAt + monthPeriod)
        graceUntil := none }

/-- `settle_now`. -/
def settleNow (serverId : Uuid) : RenewalProgram RenewalNowOutcome := do
  match ← perform (.lockForUpdate serverId) with
  | none => return { serverId := serverId, reason := "no_renewal_record" }
  | some record =>
    let base : RenewalNowOutcome :=
      { serverId := serverId, reason := "not_payable", status := record.status,
        amountMinor := record.customerPriceMinor, currency := record.currency,
        autoRenewEnabled := record.autoChargeEnabled }
    match record.providerRenewalAt with
    | none => return { base with reason := "no_due_date" }
    | some renewalAt =>
      let now ← perform .now
      let base : RenewalNowOutcome :=
        { base with periodEnd := some renewalAt, graceUntil := record.graceUntil }
      if record.status ∉ payableStatuses ∨ now < renewalAt then return base
      else if monthPeriod < now - renewalAt then
        return { base with reason := "manual_review_required" }
      else settlePayable serverId record renewalAt base

/-- `RenewalChecker.set_auto_renew`: `None` when the service has no record. -/
def setAutoRenew (serverId : Uuid) (enabled : Bool) : RenewalProgram (Option RenewalRecord) :=
  tryCatch (do
    let record ← perform (.setAutoRenew serverId enabled)
    return some record) fun raised ↦
    if raised.kind = .lookupError then return none else throw raised

/-! ### Runs -/

/-- What is started on a service. -/
inductive RenewalEntry
  | pass
  | settleNow
  | setAutoRenew (enabled : Bool)
  deriving DecidableEq

/-- The program of an entry. -/
def RenewalEntry.program (policy : CommerceRenewalPolicy) (serverId : Uuid) :
    RenewalEntry → RenewalProgram Unit
  | .pass => runPass policy
  | .settleNow => do let _ ← Renewals.settleNow serverId
  | .setAutoRenew enabled => do let _ ← Renewals.setAutoRenew serverId enabled

end CloudPlatform.Renewals
