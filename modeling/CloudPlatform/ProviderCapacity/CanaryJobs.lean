import CloudPlatform.ProviderCapacity.Backoff
import CloudPlatform.Transition.Protocol

/-!
# The jobs around one account

Hourly create operations, passes of the recovery controller and every other caller of the repository,
as programs that run side by side over the row of one account. A create of a pinned account claims
the canary before it is sent; a create of the account pool sends without a claim. Each operation may
stop after any of its calls. The shop records the operations that reached the row, in order, what the
claim of each thread met, and the creates that were sent.
-/

namespace CloudPlatform.ProviderCapacity

open Billing (addSeconds)
open Transition

/-! ### The replies of the repository -/

/-- What an operation of the repository returns. -/
@[reducible] def CapacityCall.Reply : CapacityCall → Type
  | .recordLimitReached .. | .recordHealthy => AccountCapacity
  | .bringForwardRecovery | .releaseCanaryLease _ | .markOutageNotified | .markReminderSent
  | .settleExpired => Bool
  | _ => Option AccountCapacity

/-- The reply of an operation. -/
def AccountRows.reply (rows : AccountRows) (clock : Clock) :
    (call : CapacityCall) → Result call.Reply
  | .recordLimitReached observation ttl => (rows.recordLimitReached observation ttl clock).map (·.2)
  | .recordHistoricalEvidence evidence ttl =>
    (rows.recordHistoricalEvidence evidence ttl clock).map (·.2)
  | .recordInventoryCensus count hash => (rows.recordInventoryCensus count hash clock).map (·.2)
  | .bringForwardRecovery => (rows.bringForwardRecovery clock).map (·.2)
  | .scheduleRecovery delay => (rows.scheduleRecovery delay clock).map (·.2)
  | .openRecoveryWindow => (rows.openRecoveryWindow clock).map (·.2)
  | .beginCanaryAttempt ref lease => (rows.beginCanaryAttempt ref lease clock).map (·.2)
  | .releaseCanaryLease ref => (rows.releaseCanaryLease ref clock).map (·.2)
  | .recordCanaryRefusal ref observation delay ttl =>
    (rows.recordCanaryRefusal ref observation delay ttl clock).map (·.2)
  | .recordRecoveryProven ref => (rows.recordRecoveryProven ref clock).map (·.2)
  | .markOutageNotified => (rows.markOutageNotified clock).map (·.2)
  | .markReminderSent => (rows.markReminderSent clock).map (·.2)
  | .recordHealthy => (rows.recordHealthy clock).map (·.2)
  | .settleExpired => (rows.settleExpired clock).map (·.2)

/-! ### The shop -/

/-- What the claim of a thread met: whether the stored state was a recovery candidate, and whether
the thread acquired the lease since. -/
structure CanaryMeeting where
  candidate : Bool
  leased : Bool
  deriving DecidableEq

/-- A meeting after an operation of its thread: a begin that wins acquires the lease. -/
def CanaryMeeting.next (meeting : CanaryMeeting) (begun : Bool) : CapacityCall → CanaryMeeting
  | .beginCanaryAttempt _ _ => { meeting with leased := meeting.leased || begun }
  | _ => meeting

/-- The row of the account, the clock, whether the store can be read, the operations that reached the
row, the claims of the threads, and the provider creates that were sent through the account. -/
structure CanaryShop where
  rows : AccountRows := {}
  clock : ℤ := 0
  readable : Bool := true
  calls : List CapacityEventAt := []
  claims : ℕ → Option CanaryMeeting := fun _ ↦ none
  creates : List CanaryMeeting := []

/-- What the handlers make of the answer to a create: an acceptance that is durably attached, an
outcome that proves nothing, `ProviderCapacityError`, `ProviderUnavailable`, another definitive
`ProviderError`, or an exception that nobody catches. -/
inductive CreateAnswer
  | accepted
  | unknown
  | capacity
  | unavailable
  | refused
  | raised

/-- The calls. `claimRead` is the read of `_claim_canary_attempt`, `getCapacity` every other one; a
repository operation takes the instant it is given, or that of the clock. `startAttempt` is the claim
of an account by a pooled create. -/
inductive CanaryCall
  | utcnow
  | claimRead
  | getCapacity
  | repository (call : CapacityCall) (now : Option ℤ)
  | firstHourHold
  | startAttempt
  | createInstance
  | emitSafe
  | storeFails
  | storeRecovers

/-- The values of the calls. -/
@[reducible] def CanaryOut : CanaryCall → Type
  | .utcnow => ℤ
  | .claimRead | .getCapacity => Option AccountCapacity
  | .repository call _ => call.Reply
  | .firstHourHold | .emitSafe => Bool
  | .startAttempt | .storeFails | .storeRecovers => Unit
  | .createInstance => CreateAnswer

/-- What the environment decides of a call: the time that passes before it, a failure of the store
before or after its commit, the answer of the provider, and the outcome of the hold or the card. -/
structure CanaryOracle where
  elapsed : ℕ := 0
  fault : Option Raised := none
  committed : Bool := false
  answer : CreateAnswer := .accepted
  succeeds : Bool := true

/-- The failure of a store that cannot be read. -/
def storeUnreadable : Raised :=
  ⟨.runtimeError, "capacity store unreadable"⟩

namespace CanaryShop

/-- The record as a reader at the clock sees it. -/
def record (shop : CanaryShop) : Option AccountCapacity :=
  shop.rows.row.map (·.capacity shop.clock)

/-- The stored state is a recovery candidate. -/
def candidate (shop : CanaryShop) : Bool :=
  shop.rows.row.any (·.state = AccountCapacityState.recoveryCandidate.value)

/-- What a thread has met. -/
def meets (shop : CanaryShop) (me : ℕ) (meeting : CanaryMeeting) : CanaryShop :=
  { shop with claims := fun thread ↦ if thread = me then some meeting else shop.claims thread }

/-- An operation reaches the row. -/
def execute (shop : CanaryShop) (event : CapacityEventAt) : CanaryShop :=
  { shop with rows := shop.rows.step event, calls := shop.calls ++ [event] }

/-- The thread has made an operation of the repository. -/
def leasedBy (shop : CanaryShop) (me : ℕ) (call : CapacityCall) (begun : Bool) : CanaryShop :=
  { shop with claims := fun thread ↦
      if thread = me then (shop.claims me).map (·.next begun call) else shop.claims thread }

/-- One call of a thread. -/
def handle (me : ℕ) (request : CanaryCall) (oracle : CanaryOracle) (shop : CanaryShop) :
    Result (CanaryOut request) × CanaryShop :=
  let shop := { shop with clock := shop.clock + oracle.elapsed }
  match request with
  | .utcnow => (.ok shop.clock, shop)
  | .claimRead =>
    let met := shop.meets me { candidate := shop.candidate, leased := false }
    if shop.readable then (.ok shop.record, met) else (.error storeUnreadable, met)
  | .getCapacity =>
    if shop.readable then (.ok shop.record, shop) else (.error storeUnreadable, shop)
  | .repository call now =>
    let event : CapacityEventAt := ⟨call, now.getD shop.clock, shop.clock⟩
    match oracle.fault with
    | none =>
      (shop.rows.reply event.clock call,
        (shop.execute event).leasedBy me call (shop.rows.wins event))
    | some raised => (.error raised, if oracle.committed then shop.execute event else shop)
  | .firstHourHold => (.ok oracle.succeeds, shop)
  | .startAttempt => (.ok (), shop.meets me { candidate := shop.candidate, leased := false })
  | .createInstance =>
    (.ok oracle.answer, { shop with creates := shop.creates ++ (shop.claims me).toList })
  | .emitSafe => (.ok oracle.succeeds, shop)
  | .storeFails => (.ok (), { shop with readable := false })
  | .storeRecovers => (.ok (), { shop with readable := true })

end CanaryShop

/-! ### The programs -/

/-- A program over the calls. -/
abbrev CanaryProgram :=
  Program Raised CanaryCall CanaryOut

/-- A recovery schedule: what `validate_recovery_backoff` accepts. -/
structure RecoveryBackoff where
  offsets : List ℤ
  offsets_ne_nil : offsets ≠ []
  offsets_min : ∀ offset ∈ offsets, minRecoveryDelaySeconds ≤ offset

/-- `recovery_backoff_seconds`: the last delay is the cap. -/
def RecoveryBackoff.recoveryBackoffSeconds (schedule : RecoveryBackoff) (attempts : ℕ) : ℤ :=
  schedule.offsets.getD attempts (schedule.offsets.getLast schedule.offsets_ne_nil)

/-- The settings of the service and of the controller. -/
structure CanarySettings where
  leaseSeconds : ℤ := 900
  backoff : RecoveryBackoff
  ttlSeconds : ℤ := 3600
  reminderDelaySeconds : ℤ := 1800
  reminderIntervalSeconds : ℤ := 21600

/-- An hourly create operation: its key, whether its first hour is reserved, and the evidence that a
capacity error would carry. -/
structure CanaryOrder where
  operationKey : String
  prepaid : Bool := false
  observation : CapacityObservation := {}

/-- Whether one real order may act as the canary. -/
structure CanaryClaim where
  required : Bool := false
  leased : Bool := false
  ref : Option String := none

namespace CanaryJobs

/-- One call. -/
def perform (request : CanaryCall) : CanaryProgram (CanaryOut request) :=
  Program.perform request

/-- An operation of the repository at the clock of the machine. -/
def repository (call : CapacityCall) : CanaryProgram call.Reply :=
  perform (.repository call none)

/-- The lease that a claim needs, or the failure to get it. -/
def leaseClaim (settings : CanarySettings) (operationKey : String) : CanaryProgram CanaryClaim := do
  match ← (repository (.beginCanaryAttempt operationKey settings.leaseSeconds)).attempt with
  | .ok (some _) => return { required := true, leased := true, ref := some operationKey }
  | .ok none => return { required := true }
  | .error _ => return { required := true }

/-- `_claim_canary_attempt`: a capacity read that fails claims nothing. -/
def claimCanaryAttempt (settings : CanarySettings) (operationKey : String) :
    CanaryProgram CanaryClaim := do
  match ← (perform .claimRead).attempt with
  | .error _ => return {}
  | .ok none => return {}
  | .ok (some record) =>
    if record.state ≠ .recoveryCandidate then return {}
    else leaseClaim settings operationKey

/-- `_release_canary_lease`: best effort. -/
def releaseCanaryLease : Option String → CanaryProgram Unit
  | none => return ()
  | some ref => do
    let _ ← (repository (.releaseCanaryLease (some ref))).attempt
    return ()

/-- `_recover_after_canary`: best effort. -/
def recoverAfterCanary : Option String → CanaryProgram Unit
  | none => return ()
  | some ref => do
    let _ ← (repository (.recordRecoveryProven ref)).attempt
    return ()

/-- The attempts of the stored record, zero when it cannot be read. -/
def storedAttempts : CanaryProgram ℕ := do
  match ← (perform .getCapacity).attempt with
  | .ok (some record) => return record.recoveryAttempts
  | .ok none => return 0
  | .error _ => return 0

/-- `_record_account_capacity_limit` without a lease. -/
def recordLimit (settings : CanarySettings) (order : CanaryOrder) : CanaryProgram Unit := do
  let _ ← (repository (.recordLimitReached order.observation settings.ttlSeconds)).attempt
  return ()

/-- `_record_account_capacity_limit`: the refusal of a canary is counted, and a refusal whose lease
is gone is recorded as any other. -/
def recordAccountCapacityLimit (settings : CanarySettings) (order : CanaryOrder) :
    Option String → CanaryProgram Unit
  | none => recordLimit settings order
  | some ref => do
    let attempts ← storedAttempts
    let delay := settings.backoff.recoveryBackoffSeconds attempts
    match ← (repository (.recordCanaryRefusal ref order.observation delay
      settings.ttlSeconds)).attempt with
    | .ok (some _) => return ()
    | .ok none => recordLimit settings order
    | .error _ => return ()

/-- What follows the answer to the create of a pinned account. -/
def settleAnswer (settings : CanarySettings) (order : CanaryOrder) (ref : Option String) :
    CreateAnswer → CanaryProgram Unit
  | .accepted => recoverAfterCanary ref
  | .unknown => releaseCanaryLease (some order.operationKey)
  | .capacity => recordAccountCapacityLimit settings order ref
  | .unavailable => return ()
  | .refused => releaseCanaryLease ref
  | .raised => return ()

/-- The create of a pinned account is sent. -/
def sendCreate (settings : CanarySettings) (order : CanaryOrder) (ref : Option String) :
    CanaryProgram Unit := do
  let answer ← perform .createInstance
  settleAnswer settings order ref answer

/-- The first-hour reservation gates the send of a prepaid order. -/
def reserveAndSend (settings : CanarySettings) (order : CanaryOrder) (ref : Option String) :
    CanaryProgram Unit := do
  let reserved ← perform .firstHourHold
  if reserved then sendCreate settings order ref else releaseCanaryLease ref

/-- `process_server` of a pinned account, from its claim of the canary. -/
def hourlyCreate (settings : CanarySettings) (order : CanaryOrder) : CanaryProgram Unit := do
  let canary ← claimCanaryAttempt settings order.operationKey
  if canary.required && !canary.leased then return ()
  else if order.prepaid then reserveAndSend settings order canary.ref
  else sendCreate settings order canary.ref

/-- What follows the answer to a pooled create. -/
def settlePooled (operationKey : String) : CreateAnswer → CanaryProgram Unit
  | .unknown | .unavailable | .raised => releaseCanaryLease (some operationKey)
  | _ => return ()

/-- `_process_account_pool` at this account: it makes no claim of the canary. -/
def pooledCreate (operationKey : String) : CanaryProgram Unit := do
  let _ ← perform .startAttempt
  let answer ← perform .createInstance
  settlePooled operationKey answer

/-! ### The recovery controller -/

/-- An operation of the controller, at the instant of its pass. -/
def repositoryAt (now : ℤ) (call : CapacityCall) : CanaryProgram call.Reply :=
  perform (.repository call (some now))

/-- The census of a pass, when the inventory of the account was read. -/
def takeCensus (record : AccountCapacity) (now : ℤ) :
    Option (ℤ × String) → CanaryProgram AccountCapacity
  | none => return record
  | some (instanceCount, idsHash) => do
    let updated ← repositoryAt now (.recordInventoryCensus instanceCount idsHash)
    return updated.getD record

/-- The one card of the outage. -/
def notifyOutage (record : AccountCapacity) (now : ℤ) : CanaryProgram Unit := do
  if record.outageNotifiedAt.isSome then return ()
  else if ← perform .emitSafe then
    let _ ← repositoryAt now .markOutageNotified
    return ()
  else return ()

/-- `reminder_due`. -/
def reminderDue (settings : CanarySettings) (record : AccountCapacity) (now : ℤ) :
    Result (Option ℤ) :=
  match record.outageNotifiedAt, record.observedAt with
  | some _, some observedAt => do
    let base ← match record.lastReminderAt with
      | some last => addSeconds last settings.reminderIntervalSeconds
      | none => addSeconds observedAt settings.reminderDelaySeconds
    return if base ≤ now then some base else none
  | _, _ => .ok none

/-- The reminder card, when it is due. -/
def remind (settings : CanarySettings) (record : AccountCapacity) (now : ℤ) :
    CanaryProgram Unit := do
  let due ← liftM (reminderDue settings record now)
  if due.isNone then return ()
  else if ← perform .emitSafe then
    let _ ← repositoryAt now .markReminderSent
    return ()
  else return ()

/-- A blocked account without a schedule gets the delay of its attempts. -/
def scheduleWindow (settings : CanarySettings) (record : AccountCapacity) (now : ℤ) :
    CanaryProgram AccountCapacity := do
  if record.nextRecoveryAttemptAt.isSome then return record
  else
    let delay := settings.backoff.recoveryBackoffSeconds record.recoveryAttempts
    let scheduled ← repositoryAt now (.scheduleRecovery delay)
    return scheduled.getD record

/-- The window opens when it is due. -/
def openWindow (record : AccountCapacity) (now : ℤ) : CanaryProgram Unit := do
  if record.recoveryWindowDue now then
    let _ ← repositoryAt now .openRecoveryWindow
    return ()
  else return ()

/-- `_evaluate_blocked`. -/
def evaluateBlocked (settings : CanarySettings) (record : AccountCapacity)
    (inventory : Option (ℤ × String)) (now : ℤ) : CanaryProgram Unit := do
  let record ← takeCensus record now inventory
  notifyOutage record now
  remind settings record now
  let record ← scheduleWindow settings record now
  openWindow record now

/-- One pass of the controller over the account; what it cannot read or finish, it leaves. -/
def recoveryPass (settings : CanarySettings) (inventory : Option (ℤ × String)) :
    CanaryProgram Unit := do
  let now ← perform .utcnow
  match ← (perform .getCapacity).attempt with
  | .error _ => return ()
  | .ok none => return ()
  | .ok (some record) =>
    if record.isLimitReached now then evaluateBlocked settings record inventory now
    else return ()

/-! ### The threads -/

/-- What a thread runs: a create of a pinned account or of the pool, a pass of the controller, a
single operation of any other caller, or a change of the store's health. -/
inductive Entry
  | hourlyCreate (order : CanaryOrder)
  | pooledCreate (operationKey : String)
  | recoveryPass (inventory : Option (ℤ × String))
  | operation (call : CapacityCall)
  | storeFails
  | storeRecovers

/-- The program of a thread. -/
def program (settings : CanarySettings) : Entry → CanaryProgram Unit
  | .hourlyCreate order => hourlyCreate settings order
  | .pooledCreate operationKey => pooledCreate operationKey
  | .recoveryPass inventory => recoveryPass settings inventory
  | .operation call => do
    let _ ← repository call
    return ()
  | .storeFails => perform .storeFails
  | .storeRecovers => perform .storeRecovers

end CanaryJobs

end CloudPlatform.ProviderCapacity
