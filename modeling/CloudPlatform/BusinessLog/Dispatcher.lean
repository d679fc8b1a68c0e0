import CloudPlatform.BusinessLog.Outbox
import CloudPlatform.Transition.Program

/-!
# The dispatcher of the business log

`deliver` claims the rows that are due, sends one message each and then writes its verdict. Claim,
send and verdict are separate calls, so any number of passes interleave between them, and a pass may
stop after any of them. Beside the rows the world keeps two journals, the claims with the workers
that made them and the attempts that were sent. The texts of the messages are parameters of the
dispatcher.
-/

namespace CloudPlatform.BusinessLog

open Billing (addSeconds)
open Transition (Program)

/-- The policy of the channel, as far as delivery reads it. -/
structure BusinessLogPolicy where
  enabled : Bool := false
  chatId : ℤ := 0
  maxAttempts : ℕ := 5
  batchSize : ℕ := 50
  backoffBaseSeconds : ℤ := 30
  staleClaimSeconds : ℤ := 300

/-- `policy.active`. -/
def BusinessLogPolicy.active (policy : BusinessLogPolicy) : Bool :=
  policy.enabled && policy.chatId ≠ 0

/-- The texts of the channel: the operator's card, the customer's card and the redacted description
of an exception. -/
structure BusinessLogTexts where
  render : BusinessLogRecord → Result String
  renderCustomerProvisioned : JsonObject → Result String
  safeError : Raised → String

/-- A customer, as far as delivery reads it. -/
structure User where
  telegramUserId : Option ℤ

/-! ### The world -/

/-- A claim and the worker that made it. -/
structure MadeClaim where
  claim : Claim
  worker : ℕ

/-- The rows, with the journals of the claims and of the messages. -/
structure OutboxWorld where
  outbox : OutboxRows := ⟨[], List.nodup_nil⟩
  claims : List MadeClaim := []
  sends : List Claim := []

/-- The status of an event. -/
def OutboxWorld.statusOf (world : OutboxWorld) (key : String) : Option EventStatus :=
  (world.outbox.get key).map (·.status)

/-- The arguments of `enqueue`. -/
structure NewEvent where
  eventKey : String
  eventType : String
  payload : JsonObject
  at' : Option ℤ := none

/-- One call. The attempt that a message is sent for is not part of it. -/
inductive OutboxCall
  | enqueue (event : NewEvent)
  | claimDue (options : ClaimOptions)
  | getUser (userId : Uuid)
  | send (attempt : Claim) (text : String)
  | sendCustomer (attempt : Claim) (chatId : ℤ) (text : String)
  | markSent (eventKey : String) (moment : ℤ)
  | markRetry (eventKey error : String) (nextAttemptAt : ℤ)
  | markAbandoned (eventKey error : String)
  | now

namespace OutboxCall

/-- The reply of a call. -/
@[reducible] def Out : OutboxCall → Type
  | enqueue _ => Bool
  | claimDue _ => List BusinessLogRecord
  | getUser _ => Option User
  | send .. | sendCustomer .. | markSent .. | markRetry .. | markAbandoned .. => Unit
  | now => ℤ

end OutboxCall

abbrev OutboxProgram (α : Type) := Program Raised OutboxCall OutboxCall.Out α

abbrev perform (request : OutboxCall) : OutboxProgram request.Out :=
  Program.perform request

/-- What a call meets: the clock, the customer and the answer of the channel. -/
structure OutboxChance where
  now : ℤ := 0
  user : Result (Option User) := .ok none
  delivery : Result Unit := .ok ()

/-- `error[:500]`. -/
def clipped (error : String) : String :=
  String.ofList (error.toList.take 500)

namespace EventRow

/-- The columns of `mark_sent`. -/
def asSent (moment : ℤ) (row : EventRow) : EventRow :=
  { row with status := .sent, sentAt := some moment, lastError := none }

/-- The columns of `mark_retry`. -/
def asRetry (error : String) (nextAttemptAt : ℤ) (row : EventRow) : EventRow :=
  { row with
    status := .retry
    lastError := some (clipped error)
    nextAttemptAt := some nextAttemptAt }

/-- The columns of `mark_abandoned`. -/
def asAbandoned (error : String) (row : EventRow) : EventRow :=
  { row with status := .abandoned, lastError := some (clipped error) }

end EventRow

/-- `UPDATE ... WHERE event_key = key`. -/
def writeVerdict (rows : OutboxRows) (key : String) (verdict : EventRow → EventRow)
    (h : ∀ row, (verdict row).eventKey = row.eventKey) : OutboxRows :=
  rows.update (fun row ↦ if row.eventKey = key then verdict row else row) fun row ↦ by
    by_cases hkey : row.eventKey = key
    · rw [if_pos hkey, h]
    · rw [if_neg hkey]

theorem get_writeVerdict (rows : OutboxRows) (key : String) (verdict : EventRow → EventRow)
    (h : ∀ row, (verdict row).eventKey = row.eventKey) (k : String) :
    (writeVerdict rows key verdict h).get k =
      if k = key then (rows.get k).map verdict else rows.get k := by
  rw [writeVerdict, Rows.Table.get_update]
  cases hrow : rows.get k with
  | none => simp
  | some row =>
    have hrowKey : row.eventKey = k := Rows.Table.key_of_get hrow
    by_cases hk : k = key
    · simp [hrowKey, hk]
    · simp [hrowKey, hk]

namespace OutboxCall

/-- One call of a worker. -/
def handle (worker : ℕ) (request : OutboxCall) (chance : OutboxChance) (world : OutboxWorld) :
    Result request.Out × OutboxWorld :=
  match request with
  | enqueue event =>
    match world.outbox.get event.eventKey with
    | some _ => (.ok false, world)
    | none => (.ok true, { world with outbox := world.outbox.put {
        eventKey := event.eventKey
        eventType := event.eventType
        payload := event.payload
        status := .pending
        createdAt := event.at'.getD chance.now } })
  | claimDue options =>
    match BusinessLog.claimDue world.outbox options with
    | .ok (outbox, records) => (.ok records, { world with
        outbox := outbox
        claims := world.claims ++ records.map fun record ↦ ⟨record.claim, worker⟩ })
    | .error raised => (.error raised, world)
  | getUser _ => (chance.user, world)
  | send attempt _ => (chance.delivery, { world with sends := world.sends ++ [attempt] })
  | sendCustomer attempt .. => (chance.delivery, { world with sends := world.sends ++ [attempt] })
  | markSent key moment => (.ok (), { world with
      outbox := writeVerdict world.outbox key (.asSent moment) fun _ ↦ rfl })
  | markRetry key error nextAttemptAt => (.ok (), { world with
      outbox := writeVerdict world.outbox key (.asRetry error nextAttemptAt) fun _ ↦ rfl })
  | markAbandoned key error => (.ok (), { world with
      outbox := writeVerdict world.outbox key (.asAbandoned error) fun _ ↦ rfl })
  | now => (.ok chance.now, world)

end OutboxCall

/-! ### A pass -/

/-- What a pass reports. -/
structure DeliveryReport where
  sent : ℕ := 0
  retried : ℕ := 0
  abandoned : ℕ := 0

/-- `UUID(str(payload["user_id"]))`. -/
def payloadUser (payload : JsonObject) : Result Uuid :=
  match payload.get "user_id" with
  | none => raise .keyError "user_id"
  | some value =>
    match Uuid.parse value.str with
    | some userId => .ok userId
    | none => raise .valueError "badly formed hexadecimal UUID string"

/-- The chat of a customer who has one. -/
def chatOf (user : Option User) : Result ℤ :=
  match user.bind (·.telegramUserId) with
  | some chatId =>
    if 0 < chatId then .ok chatId else raise .valueError "customer has no Telegram identity"
  | none => raise .valueError "customer has no Telegram identity"

section Passes

variable (policy : BusinessLogPolicy) (texts : BusinessLogTexts) (users : Bool)

/-- The customer's card is sent. -/
def deliverCustomer (record : BusinessLogRecord) : OutboxProgram Unit := do
  rejectIf (!users) .valueError "customer delivery is not configured"
  let userId ← payloadUser record.payload
  let user ← perform (.getUser userId)
  let chatId ← chatOf user
  let text ← texts.renderCustomerProvisioned record.payload
  perform (.sendCustomer record.claim chatId text)

/-- The operator's card is sent. -/
def deliverOperator (record : BusinessLogRecord) : OutboxProgram Unit := do
  let text ← texts.render record
  perform (.send record.claim text)

/-- The message of a record is sent. -/
def dispatch (record : BusinessLogRecord) : OutboxProgram Unit :=
  if record.eventType = customerProvisioned then deliverCustomer texts users record
  else deliverOperator texts record

/-- A delivery that failed is put off, the longer the more attempts there were. -/
def putOff (moment : ℤ) (record : BusinessLogRecord) (raised : Raised)
    (report : DeliveryReport) : OutboxProgram DeliveryReport := do
  let nextAttemptAt ← addSeconds moment (policy.backoffBaseSeconds * 2 ^ (record.attempts - 1))
  let _ ← perform (.markRetry record.eventKey (texts.safeError raised) nextAttemptAt)
  return { report with retried := report.retried + 1 }

/-- One claimed record. -/
def deliverRecord (moment : ℤ) (record : BusinessLogRecord) (report : DeliveryReport) :
    OutboxProgram DeliveryReport :=
  if policy.maxAttempts < record.attempts then do
    let _ ← perform (.markAbandoned record.eventKey
      s!"exceeded {policy.maxAttempts} delivery attempts")
    return { report with abandoned := report.abandoned + 1 }
  else do
    match ← (dispatch texts users record).attempt with
    | .error raised => putOff policy texts moment record raised report
    | .ok _ =>
      let _ ← perform (.markSent record.eventKey moment)
      return { report with sent := report.sent + 1 }

/-- The claimed records, in order. -/
def deliverRecords (moment : ℤ) :
    List BusinessLogRecord → DeliveryReport → OutboxProgram DeliveryReport
  | [], report => return report
  | record :: rest, report => do
    let report ← deliverRecord policy texts users moment record report
    deliverRecords moment rest report

end Passes

/-- `now or datetime.now(UTC)`. -/
def momentOf : Option ℤ → OutboxProgram ℤ
  | some moment => return moment
  | none => perform .now

/-- `limit or batch_size`. -/
def limitOf (policy : BusinessLogPolicy) : Option ℕ → ℕ
  | some 0 | none => policy.batchSize
  | some limit => limit

/-- A pass: whether the dispatcher has the customers at hand, and the arguments of `deliver`. -/
structure Delivery where
  users : Bool := false
  now : Option ℤ := none
  limit : Option ℕ := none

/-- `BusinessLogDispatcher.deliver`. -/
def deliver (policy : BusinessLogPolicy) (texts : BusinessLogTexts) (delivery : Delivery) :
    OutboxProgram DeliveryReport :=
  if !policy.active && !delivery.users then return {}
  else do
    let moment ← momentOf delivery.now
    let claimed ← perform (.claimDue {
      limit := limitOf policy delivery.limit
      now := moment
      staleAfterSeconds := policy.staleClaimSeconds
      customerOnly := !policy.active })
    deliverRecords policy texts delivery.users moment claimed {}

/-- What a worker is started for. -/
inductive OutboxEntry
  | enqueue (event : NewEvent)
  | deliver (delivery : Delivery)

/-- The program of a worker. -/
def OutboxEntry.program (policy : BusinessLogPolicy) (texts : BusinessLogTexts) :
    OutboxEntry → OutboxProgram Unit
  | enqueue event => do
    let _ ← perform (.enqueue event)
    return ()
  | deliver delivery => do
    let _ ← BusinessLog.deliver policy texts delivery
    return ()

end CloudPlatform.BusinessLog
