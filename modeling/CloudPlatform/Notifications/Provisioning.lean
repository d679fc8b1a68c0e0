import CloudPlatform.Compute.Domain
import CloudPlatform.Transition.Run

/-!
# Final provisioning notices

`ProvisioningProgressService` tells a customer how the creation of a server ended. The log has one
row for a server and a kind of final notice, made by `record_final` under a unique constraint; the
call that makes the row sends the notice, and every other call is done. Any number of calls run
interleaved: the database may fail before or behind a commit, a send before or behind the delivery,
and a caller may stop anywhere.

No notice reaches a customer twice. But the row stands before the notice is sent: when the send fails
or the caller stops in between, the notice is lost, because every later call finds the row.
`told_iff` says that nothing else goes wrong.
-/

namespace CloudPlatform.Notifications

open Compute (CloudServer)
open Transition

/-! ### The service -/

inductive ProvisioningEventKind
  | started
  | success
  | failed
  deriving DecidableEq

namespace ProvisioningEventKind

def value : ProvisioningEventKind → String
  | .started => "started"
  | .success => "success"
  | .failed => "failed"

def isFinal (kind : ProvisioningEventKind) : Bool :=
  kind ≠ .started

theorem value_inj {kind other : ProvisioningEventKind} : kind.value = other.value ↔ kind = other := by
  cases kind <;> cases other <;> simp [value]

end ProvisioningEventKind

/-- What a notice is about. -/
structure NoticeKey where
  serverId : Uuid
  kind : ProvisioningEventKind
  deriving DecidableEq

structure ProvisioningEvent where
  userId : Uuid
  serverId : Uuid
  kind : ProvisioningEventKind
  detail : Option String := none
  instant : Option ℤ := none

def ProvisioningEvent.key (event : ProvisioningEvent) : NoticeKey :=
  ⟨event.serverId, event.kind⟩

/-- A row of `provisioning_notifications`. -/
structure NotificationRow where
  userId : Uuid
  serverId : Uuid
  kind : String
  detail : Option String

/-- `record_final`: the unique constraint on server and kind refuses a second row. -/
def recordFinal (rows : List NotificationRow) (userId serverId : Uuid)
    (kind : ProvisioningEventKind) (detail : Option String) :
    Result (Bool × List NotificationRow) :=
  if kind.isFinal = false then raise .valueError "only final events may be recorded"
  else if rows.any fun row ↦ row.serverId = serverId && row.kind = kind.value then
    .ok (false, rows)
  else .ok (true, rows ++ [⟨userId, serverId, kind.value, detail⟩])

/-- A call of the service for a final notice. -/
inductive FinalCall
  | succeeded (server : CloudServer) (detail : Option String)
  | failed (server : CloudServer) (reason : Option String)

namespace FinalCall

def server : FinalCall → CloudServer
  | .succeeded server _ => server
  | .failed server _ => server

def kind : FinalCall → ProvisioningEventKind
  | .succeeded _ _ => .success
  | .failed _ _ => .failed

def detail : FinalCall → Option String
  | .succeeded _ detail => detail
  | .failed _ reason => reason

def key (call : FinalCall) : NoticeKey :=
  ⟨call.server.id, call.kind⟩

/-- `_event`. -/
def event (call : FinalCall) (now : ℤ) : ProvisioningEvent where
  userId := call.server.userId
  serverId := call.server.id
  kind := call.kind
  detail := call.detail
  instant := some now

theorem isFinal_kind (call : FinalCall) : call.kind.isFinal = true := by
  cases call <;> rfl

end FinalCall

/-- What a call of a collaborator meets: it answers, or raises before or behind its effect. -/
inductive Chance
  | answers
  | raises (landed : Bool) (raised : Raised)

namespace Chance

def lands : Chance → Bool
  | .answers => true
  | .raises landed _ => landed

/-- The answer of `record_final`, which takes every `IntegrityError` for a row that is there. -/
def recorded (first : Bool) : Chance → Result Bool
  | .answers => .ok first
  | .raises _ raised => if raised.kind = .integrityError then .ok false else .error raised

def sent : Chance → Result Unit
  | .answers => .ok ()
  | .raises _ raised => .error raised

end Chance

/-- Where a call of `_finish` stands. -/
inductive FinishPhase
  | recording
  | sending
  | returned (delivered : Bool)
  | raised (error : Raised)
  | stopped
  deriving DecidableEq

namespace FinishPhase

def afterRecord : Result Bool → FinishPhase
  | .ok true => .sending
  | .ok false => .returned false
  | .error error => .raised error

def afterSend : Result Unit → FinishPhase
  | .ok () => .returned true
  | .error error => .raised error

def isReturned : FinishPhase → Bool
  | .returned _ => true
  | _ => false

end FinishPhase

structure Finishing where
  call : FinalCall
  phase : FinishPhase

namespace Finishing

/-- The call is between its row and its send. -/
def sends (key : NoticeKey) (finishing : Finishing) : Bool :=
  finishing.call.key = key && finishing.phase = .sending

/-- The call ran to its end. -/
def answers (key : NoticeKey) (finishing : Finishing) : Bool :=
  finishing.call.key = key && finishing.phase.isReturned

end Finishing

/-- The log, the notices that reached their customers, and the calls. -/
structure NoticeWorld where
  rows : List NotificationRow := []
  received : List ProvisioningEvent := []
  calls : List Finishing := []

/-- A call begins, records, sends, or is stopped. -/
inductive NoticeEvent
  | call (call : FinalCall)
  | record (index : ℕ) (chance : Chance)
  | send (index : ℕ) (now : ℤ) (chance : Chance)
  | stop (index : ℕ)

namespace NoticeWorld

variable (world : NoticeWorld)

def record (index : ℕ) (chance : Chance) : NoticeWorld :=
  match world.calls[index]? with
  | some ⟨call, .recording⟩ =>
    match recordFinal world.rows call.server.userId call.server.id call.kind call.detail with
    | .error raised => { world with calls := world.calls.set index ⟨call, .raised raised⟩ }
    | .ok (first, rows) =>
      { world with
        rows := if chance.lands then rows else world.rows
        calls := world.calls.set index ⟨call, .afterRecord (chance.recorded first)⟩ }
  | _ => world

def send (index : ℕ) (now : ℤ) (chance : Chance) : NoticeWorld :=
  match world.calls[index]? with
  | some ⟨call, .sending⟩ =>
    { world with
      received := if chance.lands then world.received ++ [call.event now] else world.received
      calls := world.calls.set index ⟨call, .afterSend chance.sent⟩ }
  | _ => world

def stop (index : ℕ) : NoticeWorld :=
  match world.calls[index]? with
  | some ⟨call, .recording⟩ => { world with calls := world.calls.set index ⟨call, .stopped⟩ }
  | some ⟨call, .sending⟩ => { world with calls := world.calls.set index ⟨call, .stopped⟩ }
  | _ => world

def step : NoticeEvent → NoticeWorld
  | .call call => { world with calls := world.calls ++ [⟨call, .recording⟩] }
  | .record index chance => world.record index chance
  | .send index now chance => world.send index now chance
  | .stop index => world.stop index

/-! ### What is counted -/

/-- The log has the row. -/
def recorded (key : NoticeKey) : Bool :=
  world.rows.any fun row ↦ row.serverId = key.serverId && row.kind = key.kind.value

/-- How often the notice reached the customer. -/
def delivered (key : NoticeKey) : ℕ :=
  world.received.countP (·.key = key)

def sending (key : NoticeKey) : ℕ :=
  world.calls.countP (·.sends key)

def answered (key : NoticeKey) : ℕ :=
  world.calls.countP (·.answers key)

/-- The notice reached the customer, or is on its way. -/
def Reaches (key : NoticeKey) : Prop :=
  0 < world.delivered key ∨ 0 < world.sending key

/-- No notice reaches a customer twice, and one that a call ran to its end for is not lost. -/
structure Told : Prop where
  once : ∀ key, world.delivered key ≤ 1
  reaches : ∀ key, 0 < world.answered key → world.Reaches key

/-- A call whose row is refused finds a notice that reaches the customer; and when a call that made
the row fails to send the notice, or stops before, no other call for the notice was answered. -/
def Meets : NoticeEvent → Prop
  | .call _ => True
  | .record index chance => ∀ call, world.calls[index]? = some ⟨call, .recording⟩ →
      chance.recorded (!world.recorded call.key) = .ok false → world.Reaches call.key
  | .send index _ chance => ∀ call, world.calls[index]? = some ⟨call, .sending⟩ →
      chance.lands = false → world.answered call.key = 0
  | .stop index => ∀ call, world.calls[index]? = some ⟨call, .sending⟩ →
      world.answered call.key = 0

/-- Only the call that made the row sends, once. -/
def Kept : Prop :=
  ∀ key, world.sending key + world.delivered key ≤ (world.recorded key).toNat

/-! ### One step -/

section Steps

variable {world} {after : NoticeWorld} {index : ℕ} {call : FinalCall} {phase next : FinishPhase}

/-- A call moves on: each count loses what the call was and gains what it is. -/
theorem countP_set_add {calls : List Finishing} {old : Finishing} (new : Finishing)
    (p : Finishing → Bool) (h : calls[index]? = some old) :
    (calls.set index new).countP p + (p old).toNat = calls.countP p + (p new).toNat := by
  obtain ⟨hlt, hget⟩ := List.getElem?_eq_some_iff.mp h
  have hpos : p old = true → 0 < calls.countP p := fun hold ↦
    List.countP_pos_iff.mpr ⟨old, List.mem_of_getElem? h, hold⟩
  rw [List.countP_set hlt, hget]
  cases hold : p old with
  | true =>
    have := hpos hold
    cases p new <;> simp <;> omega
  | false => cases p new <;> simp

/-- The counts of a notice behind the step of one call, which neither was answered before. -/
structure Moved (world after : NoticeWorld) (call : FinalCall) (phase next : FinishPhase) :
    Prop where
  sending : after.sending call.key + (decide (phase = .sending)).toNat =
    world.sending call.key + (decide (next = .sending)).toNat
  answered : after.answered call.key = world.answered call.key + next.isReturned.toNat
  other : ∀ key, key ≠ call.key → after.sending key = world.sending key ∧
    after.answered key = world.answered key ∧ after.delivered key = world.delivered key ∧
      after.recorded key = world.recorded key

theorem moved_of_set (hcall : world.calls[index]? = some ⟨call, phase⟩)
    (hphase : phase.isReturned = false) (hcalls : after.calls = world.calls.set index ⟨call, next⟩)
    (hother : ∀ key, key ≠ call.key → after.delivered key = world.delivered key ∧
      after.recorded key = world.recorded key) : Moved world after call phase next := by
  have hcount (p : Finishing → Bool) := countP_set_add ⟨call, next⟩ p hcall
  refine ⟨?_, ?_, fun key hkey ↦ ⟨?_, ?_, hother key hkey⟩⟩
  · have hsends := hcount (·.sends call.key)
    simpa [sending, hcalls, Finishing.sends] using hsends
  · have hanswers := hcount (·.answers call.key)
    simpa [answered, hcalls, Finishing.answers, hphase] using hanswers
  · have hsends := hcount (·.sends key)
    simpa [sending, hcalls, Finishing.sends, hkey.symm] using hsends
  · have hanswers := hcount (·.answers key)
    simpa [answered, hcalls, Finishing.answers, hkey.symm] using hanswers

/-- Behind the step of one call the promise is a matter of its own notice. -/
theorem Moved.told_own_iff (h : Moved world after call phase next) (htold : world.Told) :
    after.Told ↔ after.delivered call.key ≤ 1 ∧
      (0 < after.answered call.key → after.Reaches call.key) := by
  constructor
  · exact fun hafter ↦ ⟨hafter.once call.key, hafter.reaches call.key⟩
  · rintro ⟨honce, hreaches⟩
    refine ⟨fun key ↦ ?_, fun key ↦ ?_⟩
    · by_cases hkey : key = call.key
      · exact hkey ▸ honce
      · rw [(h.other key hkey).2.2.1]
        exact htold.once key
    · by_cases hkey : key = call.key
      · exact hkey ▸ hreaches
      · obtain ⟨hsending, hanswered, hdelivered, -⟩ := h.other key hkey
        unfold Reaches
        rw [hsending, hanswered, hdelivered]
        exact htold.reaches key

theorem Moved.kept (h : Moved world after call phase next) (hkept : world.Kept)
    (hown : after.sending call.key + after.delivered call.key ≤ (after.recorded call.key).toNat) :
    after.Kept := by
  intro key
  by_cases hkey : key = call.key
  · exact hkey ▸ hown
  · obtain ⟨hsending, -, hdelivered, hrecorded⟩ := h.other key hkey
    rw [hsending, hdelivered, hrecorded]
    exact hkept key

/-- A final kind is recorded unless it is there. -/
theorem recordFinal_eq (world : NoticeWorld) (call : FinalCall) :
    recordFinal world.rows call.server.userId call.server.id call.kind call.detail =
      .ok (!world.recorded call.key, if world.recorded call.key then world.rows else world.rows ++
        [⟨call.server.userId, call.server.id, call.kind.value, call.detail⟩]) := by
  unfold recordFinal
  rw [call.isFinal_kind, if_neg Bool.true_eq_false.mp]
  change (if world.recorded call.key = true then _ else _) = _
  by_cases hrecorded : world.recorded call.key = true
  · rw [if_pos hrecorded, hrecorded]
    rfl
  · rw [if_neg hrecorded, Bool.eq_false_of_not_eq_true hrecorded]
    rfl

/-- Who sends made the row, and the row is in the log. -/
theorem recorded_eq_ok_true {chance : Chance} {first : Bool}
    (h : chance.recorded first = .ok true) : first = true ∧ chance.lands = true := by
  cases chance with
  | answers => exact ⟨Except.ok.inj h, rfl⟩
  | raises landed raised =>
    by_cases hintegrity : raised.kind = .integrityError
    · rw [Chance.recorded, if_pos hintegrity] at h
      exact absurd (Except.ok.inj h) Bool.false_ne_true
    · rw [Chance.recorded, if_neg hintegrity] at h
      cases h

theorem step_record (chance : Chance) (hkept : world.Kept) (htold : world.Told) :
    (world.record index chance).Kept ∧
      ((world.record index chance).Told ↔ world.Meets (.record index chance)) := by
  unfold record
  split
  · rename_i call hcall
    rw [recordFinal_eq]
    dsimp only
    set after : NoticeWorld := { world with rows := _, calls := _ }
    have hrecorded (key : NoticeKey) : after.recorded key =
        (world.recorded key || (chance.lands && decide (key = call.key))) := by
      change List.any (if chance.lands = true then _ else _) _ = _
      cases chance.lands with
      | false => simp [recorded]
      | true =>
        rw [if_pos rfl]
        by_cases hthere : world.recorded call.key = true
        · rw [if_pos hthere]
          by_cases hkey : key = call.key
          · rw [hkey, hthere]
            exact hthere
          · simp [hkey, recorded]
        · rw [if_neg hthere, List.any_append]
          obtain ⟨serverId, kind⟩ := key
          simp [recorded, FinalCall.key, ProvisioningEventKind.value_inj, eq_comm]
    have hmoved : Moved world after call .recording
        (.afterRecord (chance.recorded (!world.recorded call.key))) := by
      refine moved_of_set hcall rfl rfl fun key hkey ↦ ⟨rfl, ?_⟩
      rw [hrecorded, decide_eq_false hkey, Bool.and_false, Bool.or_false]
    have hdelivered : after.delivered call.key = world.delivered call.key := rfl
    have hown := hkept call.key
    have honce := htold.once call.key
    have hreaches := htold.reaches call.key
    have hsending := hmoved.sending
    have hanswered := hmoved.answered
    have hthere := hrecorded call.key
    have hmeets : world.Meets (.record index chance) ↔
        (chance.recorded (!world.recorded call.key) = .ok false → world.Reaches call.key) := by
      refine ⟨fun h ↦ h call hcall, fun h other hother ↦ ?_⟩
      rw [hcall] at hother
      cases hother
      exact h
    rw [hmoved.told_own_iff htold, hmeets, hdelivered]
    cases hreply : chance.recorded (!world.recorded call.key) with
    | error raised =>
      rw [hreply] at hsending hanswered
      replace hsending : after.sending call.key = world.sending call.key := hsending
      replace hanswered : after.answered call.key = world.answered call.key := hanswered
      refine ⟨hmoved.kept hkept ?_, iff_of_true ⟨honce, ?_⟩ nofun⟩
      · rw [hsending, hdelivered, hthere]
        exact hown.trans (Bool.toNat_le_toNat fun h ↦ by rw [h, Bool.true_or])
      · rw [hanswered, Reaches, hsending, hdelivered]
        exact hreaches
    | ok first =>
      rw [hreply] at hsending hanswered
      cases first with
      | true =>
        obtain ⟨hfirst, hlands⟩ := recorded_eq_ok_true hreply
        replace hsending : after.sending call.key = world.sending call.key + 1 := hsending
        rw [Bool.not_eq_true'] at hfirst
        rw [hfirst, Bool.toNat_false] at hown
        refine ⟨hmoved.kept hkept ?_, iff_of_true ⟨honce, fun _ ↦ ?_⟩ nofun⟩
        · rw [hsending, hdelivered, hthere, hlands, decide_eq_true rfl, Bool.and_true,
            Bool.or_true, Bool.toNat_true]
          omega
        · exact .inr (by omega)
      | false =>
        replace hsending : after.sending call.key = world.sending call.key := hsending
        replace hanswered : after.answered call.key = world.answered call.key + 1 := hanswered
        refine ⟨hmoved.kept hkept ?_, ?_⟩
        · rw [hsending, hdelivered, hthere]
          exact hown.trans (Bool.toNat_le_toNat fun h ↦ by rw [h, Bool.true_or])
        · rw [hanswered, Reaches, hsending, hdelivered]
          exact ⟨fun h _ ↦ h.2 (Nat.succ_pos _), fun h ↦ ⟨honce, fun _ ↦ h rfl⟩⟩
  · rename_i hnone
    exact ⟨hkept, iff_of_true htold fun call hcall ↦ absurd hcall (hnone call)⟩

theorem step_send (now : ℤ) (chance : Chance) (hkept : world.Kept) (htold : world.Told) :
    (world.send index now chance).Kept ∧
      ((world.send index now chance).Told ↔ world.Meets (.send index now chance)) := by
  unfold send
  split
  · rename_i call hcall
    set after : NoticeWorld := { world with received := _, calls := _ }
    have hdelivered (key : NoticeKey) : after.delivered key =
        world.delivered key + (chance.lands && decide (key = call.key)).toNat := by
      change List.countP _ (if chance.lands = true then _ else _) = _
      cases chance.lands with
      | false => rfl
      | true =>
        rw [if_pos rfl, List.countP_append, List.countP_singleton]
        by_cases hkey : key = call.key
        · rw [hkey]
          simp [delivered, show (call.event now).key = call.key from rfl]
        · simp [delivered, show (call.event now).key = call.key from rfl, hkey, Ne.symm hkey]
    have hmoved : Moved world after call .sending (.afterSend chance.sent) := by
      refine moved_of_set hcall rfl rfl fun key hkey ↦ ⟨?_, rfl⟩
      rw [hdelivered, decide_eq_false hkey, Bool.and_false]
      rfl
    have hown := hkept call.key
    have hone := Bool.toNat_le (world.recorded call.key)
    have hthere : after.recorded call.key = world.recorded call.key := rfl
    have hsending := hmoved.sending
    have hanswered := hmoved.answered
    have hcount := hdelivered call.key
    rw [decide_eq_true rfl, Bool.and_true] at hcount
    have hmeets : world.Meets (.send index now chance) ↔
        (chance.lands = false → world.answered call.key = 0) := by
      refine ⟨fun h ↦ h call hcall, fun h other hother ↦ ?_⟩
      rw [hcall] at hother
      cases hother
      exact h
    have hnext : (decide (FinishPhase.afterSend chance.sent = .sending)).toNat = 0 := by
      cases chance <;> rfl
    rw [hnext, decide_eq_true rfl, Bool.toNat_true] at hsending
    rw [hmoved.told_own_iff htold, hmeets, Reaches]
    cases hlands : chance.lands with
    | true =>
      rw [hlands, Bool.toNat_true] at hcount
      refine ⟨hmoved.kept hkept ?_, iff_of_true ⟨?_, fun _ ↦ .inl ?_⟩ nofun⟩
      · rw [hthere]
        omega
      · omega
      · omega
    | false =>
      have hraises : (FinishPhase.afterSend chance.sent).isReturned = false := by
        cases chance with
        | answers => cases hlands
        | raises landed raised => rfl
      rw [hlands, Bool.toNat_false] at hcount
      rw [hraises, Bool.toNat_false] at hanswered
      refine ⟨hmoved.kept hkept ?_, ?_⟩
      · rw [hthere]
        omega
      · constructor
        · rintro ⟨-, hreaches⟩ -
          by_contra hne
          have := hreaches (by omega)
          omega
        · intro hzero
          have := hzero rfl
          exact ⟨by omega, fun hpos ↦ by omega⟩
  · rename_i hnone
    exact ⟨hkept, iff_of_true htold fun call hcall ↦ absurd hcall (hnone call)⟩

/-- A caller that stops sends nothing more. -/
theorem step_stop (hkept : world.Kept) (htold : world.Told) :
    (world.stop index).Kept ∧ ((world.stop index).Told ↔ world.Meets (.stop index)) := by
  unfold stop
  split
  · rename_i call hcall
    set after : NoticeWorld := { world with calls := world.calls.set index ⟨call, .stopped⟩ }
    have hmoved : Moved world after call .recording .stopped :=
      moved_of_set hcall rfl rfl fun _ _ ↦ ⟨rfl, rfl⟩
    have hsending : after.sending call.key = world.sending call.key := hmoved.sending
    have hanswered : after.answered call.key = world.answered call.key := hmoved.answered
    refine ⟨hmoved.kept hkept ?_, iff_of_true ?_ fun other hother ↦ ?_⟩
    · rw [hsending]
      exact hkept call.key
    · rw [hmoved.told_own_iff htold, Reaches, hsending, hanswered]
      exact ⟨htold.once call.key, htold.reaches call.key⟩
    · rw [hcall] at hother
      cases hother
  · rename_i call hcall
    set after : NoticeWorld := { world with calls := world.calls.set index ⟨call, .stopped⟩ }
    have hmoved : Moved world after call .sending .stopped :=
      moved_of_set hcall rfl rfl fun _ _ ↦ ⟨rfl, rfl⟩
    have hown := hkept call.key
    have hone := Bool.toNat_le (world.recorded call.key)
    have hthere : after.recorded call.key = world.recorded call.key := rfl
    have hdelivered : after.delivered call.key = world.delivered call.key := rfl
    have hsending : after.sending call.key + 1 = world.sending call.key := hmoved.sending
    have hanswered : after.answered call.key = world.answered call.key := hmoved.answered
    refine ⟨hmoved.kept hkept ?_, ?_⟩
    · rw [hthere]
      omega
    · rw [hmoved.told_own_iff htold, Reaches]
      constructor
      · rintro ⟨-, hreaches⟩ other hother
        rw [hcall] at hother
        cases hother
        by_contra hne
        have := hreaches (by omega)
        omega
      · intro h
        have := h call hcall
        exact ⟨by omega, fun hpos ↦ by omega⟩
  · rename_i hnone
    exact ⟨hkept, iff_of_true htold fun call hcall ↦ absurd hcall (hnone call)⟩

/-- A call that begins changes no count. -/
theorem step_call (call : FinalCall) (hkept : world.Kept) (htold : world.Told) :
    (world.step (.call call)).Kept ∧ (world.step (.call call)).Told := by
  have hcount (p : Finishing → Bool) (hp : p ⟨call, .recording⟩ = false) :
      (world.calls ++ [(⟨call, .recording⟩ : Finishing)]).countP p = world.calls.countP p := by
    rw [List.countP_append, List.countP_singleton, hp]
    rfl
  have hsending (key : NoticeKey) : (world.step (.call call)).sending key = world.sending key :=
    hcount (·.sends key) (Bool.and_false _)
  have hanswered (key : NoticeKey) : (world.step (.call call)).answered key = world.answered key :=
    hcount (·.answers key) (Bool.and_false _)
  refine ⟨fun key ↦ ?_, htold.once, fun key ↦ ?_⟩
  · rw [hsending]
    exact hkept key
  · rw [hanswered, Reaches, hsending]
    exact htold.reaches key

theorem step_kept (event : NoticeEvent) (hkept : world.Kept) (htold : world.Told) :
    (world.step event).Kept := by
  cases event with
  | call call => exact (step_call call hkept htold).1
  | record index chance => exact (step_record chance hkept htold).1
  | send index now chance => exact (step_send now chance hkept htold).1
  | stop index => exact (step_stop hkept htold).1

/-- An event keeps the promise exactly if it meets the condition. -/
theorem step_told_iff (event : NoticeEvent) (hkept : world.Kept) (htold : world.Told) :
    (world.step event).Told ↔ world.Meets event := by
  cases event with
  | call call => exact iff_of_true (step_call call hkept htold).2 trivial
  | record index chance => exact (step_record chance hkept htold).2
  | send index now chance => exact (step_send now chance hkept htold).2
  | stop index => exact (step_stop hkept htold).2

end Steps

end NoticeWorld

/-! ### Every run -/

/-- Every notice reaches its customer at most once, and is not lost where a call for it runs to its
end, exactly in the runs in which a refused row is that of a notice that reaches the customer, and
no send fails and no caller stops behind the row where another call for the notice was answered. -/
theorem told_iff (events : List NoticeEvent) :
    Throughout NoticeWorld.step NoticeWorld.Told {} events ↔
      Along NoticeWorld.step NoticeWorld.Meets {} events := by
  have hkept : NoticeWorld.Kept {} := fun _ ↦ Nat.zero_le _
  have htold : NoticeWorld.Told {} := ⟨fun _ ↦ Nat.zero_le 1, fun _ h ↦ absurd h (lt_irrefl 0)⟩
  rw [← throughout_and_iff_of_holds
    (fun event _ world hkept htold ↦ NoticeWorld.step_kept event hkept htold) _ hkept]
  refine throughout_iff_along (fun world event h ↦ ?_) events _ ⟨hkept, htold⟩
  rw [and_iff_right (NoticeWorld.step_kept event h.1 h.2)]
  exact NoticeWorld.step_told_iff event h.1 h.2

/-! ### A caller that stops -/

namespace StoppedCaller

def server : CloudServer where
  id := ⟨"22222222-2222-4222-8222-222222222222", .refl true⟩
  userId := ⟨"11111111-1111-4111-8111-111111111111", .refl true⟩
  providerKey := "hetzner"
  state := .running

/-- The worker stops behind the row, and is run again. -/
def events : List NoticeEvent :=
  [.call (.succeeded server none), .record 0 .answers, .stop 0, .call (.succeeded server none),
    .record 1 .answers]

/-- The second call finds the row, and the notice never reaches the customer. -/
theorem not_told_events : ¬ Throughout NoticeWorld.step NoticeWorld.Told {} events := by
  intro h
  have hlast := (throughout_iff_forall_take _ _ _ _).mp h 5
  have hreaches := hlast.reaches ⟨server.id, .success⟩ (by decide +kernel)
  unfold NoticeWorld.Reaches at hreaches
  revert hreaches
  decide +kernel

end StoppedCaller

end CloudPlatform.Notifications
