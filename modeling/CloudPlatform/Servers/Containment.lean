import CloudPlatform.Operations.PowerExecutor
import CloudPlatform.Servers.ReadStates

/-!
# Containment over the life of a server

A contained server is in MANUAL_REVIEW and remembers the state that it was contained in, and a release
is the only way back. The lifecycle table, however, lists MANUAL_REVIEW as an ordinary source, and some
services move a server without looking at its state first: these take a contained server out of review
and leave the remembered state behind. A run of the services keeps containment reversible exactly if
none of its moves meets a contained server (`reversible_iff_spared`).
-/

namespace CloudPlatform.Servers

open Compute (CloudServer ServerAggregate ServerLifecycleState containableStates moveTo_eq_ok)
open Operations (Operation PowerAction ProviderServerState planStateRepair)
open Transition

/-! ### The moves of the services -/

/-- The calls of `transition_to`, by what has happened. -/
inductive ServerMove
  /-- The provider accepted the create. -/
  | provisioned
  /-- The order delivered its VPS. -/
  | delivered
  /-- The creation watch completed. -/
  | activated
  /-- The create failed for good. -/
  | failed
  /-- The hourly worker refused the stored intent. -/
  | refused
  /-- `_fail_intent` and its like, which mark any server. -/
  | intentFailed
  /-- The state reconciler repairs the row by a plan made for a state. -/
  | repaired (planned : ServerLifecycleState) (remote : ProviderServerState)
  /-- A power action took effect at the provider. -/
  | powered (action : PowerAction)
  /-- A snapshot of the provider is folded into the row. -/
  | reported (info : VpsInfo)
  /-- An hour could not be paid. -/
  | unpaid
  /-- The deletion starts. -/
  | deleting
  /-- The provider resource is gone and the usage is billed. -/
  | deleted (now : ℤ)
  /-- The provider shows an unpaid server stopped. -/
  | stopped

/-- The target that the service asks for when it meets a server in a state; none where its own check
of the state keeps it from asking. -/
def ServerMove.asks (state : ServerLifecycleState) : ServerMove → Option ServerLifecycleState
  | .provisioned => if state = .requested then some .provisioning else none
  | .delivered => if state ∈ [ServerLifecycleState.provisioning, .error] then some .running else none
  | .activated => if state = .provisioning then some .running else none
  | .failed => if state ∈ [ServerLifecycleState.requested, .provisioning] then some .error else none
  | .refused => if state = .requested then some .error else none
  | .intentFailed => some .error
  | .repaired planned remote =>
    -- the capture of a prepaid first hour reloads the row after the plan is made
    if planned = state ∨ planned = .provisioning ∧ remote = .running then
      (planStateRepair planned remote).target
    else none
  | .powered action =>
    if state = action.precondition then action.target.filter (state ≠ ·) else none
  | .reported info => info.target.filter (state ≠ ·)
  | .unpaid =>
    if state ∈ [ServerLifecycleState.provisioning, .running, .stopped] then some .deleteRequested
    else none
  | .deleting => if state = .deleteRequested then some .deleting else none
  | .deleted _ =>
    if state ∈ [ServerLifecycleState.deleteRequested, .deleting] then some .deleted else none
  | .stopped => if state = .running then some .stopped else none

/-- The row after a move. -/
def ServerMove.apply (server : ServerAggregate) (move : ServerMove) : Result ServerAggregate :=
  match move.asks server.state with
  | none => .ok server
  | some target =>
    match move with
    | .deleted now => server.markDeleted now
    | _ => server.moveTo target

/-- `DELETE_PRECONDITION_STATES`. -/
def deletePreconditionStates : List ServerLifecycleState :=
  [.running, .stopped, .error, .manualReview]

/-- `DeleteCommandService.request` up to the claim: the row, by the operation under its key. -/
def requestDelete (server : ServerAggregate) (known : Option Operation) : Result ServerAggregate :=
  let notAllowed := s!"delete not allowed in state {server.state.value}"
  match known with
  | none => do
    rejectIf (server.state ∉ deletePreconditionStates) .deleteActionNotAllowed notAllowed
    server.moveTo .deleteRequested
  | some operation =>
    match operation.status with
    | .completed => .ok server
    | .failed =>
      raise .deleteOperationFailed ((operation.error.filter (· ≠ "")).getD "delete operation failed")
    | .inFlight => raise .deleteOperationInProgress "delete operation is in progress"
    | _ => do
      rejectIf (server.state ∉ deletePreconditionStates && operation.attempts = 0)
        .deleteActionNotAllowed notAllowed
      return server

/-- `CloudServer.reset_to_requested` on the whole row. -/
def resetToRequested (server : ServerAggregate) : Result ServerAggregate := do
  let reset ← server.toCloudServer.resetToRequested
  return { server with toCloudServer := reset }

/-! ### Runs -/

/-- What the services do to a server. -/
inductive ServerOp
  | move (move : ServerMove)
  | requestDelete (known : Option Operation)
  | contain
  | release
  | resetToRequested

/-- One operation. -/
def ServerOp.apply (server : ServerAggregate) : ServerOp → Result ServerAggregate
  | .move change => change.apply server
  | .requestDelete known => Servers.requestDelete server known
  | .contain => server.contain
  | .release => server.release
  | .resetToRequested => Servers.resetToRequested server

/-- A server, and the state that it had when it last entered review. -/
structure Custody where
  server : ServerAggregate
  enteredFrom : Option ServerLifecycleState := none

namespace Custody

/-- A server as a create writes it. -/
def requested (server : CloudServer) : Custody where
  server := { toCloudServer := { server with state := .requested } }

/-- The server after an operation; one that enters review is written down. -/
def after (s : Custody) (server : ServerAggregate) : Custody where
  server := server
  enteredFrom :=
    if server.state = .manualReview ∧ s.server.state ≠ .manualReview then some s.server.state
    else s.enteredFrom

/-- One operation; one that raises leaves the row. -/
def step (s : Custody) (op : ServerOp) : Custody :=
  match op.apply s.server with
  | .ok server => s.after server
  | .error _ => s

end Custody

/-- A server is in review exactly when it remembers a state, which is one to contain, and a release
takes it back to the state in which it entered. -/
structure Reversible (s : Custody) : Prop where
  contained : s.server.state = .manualReview ↔ s.server.containedFrom.isSome
  containable : ∀ prior ∈ s.server.containedFrom, prior ∈ containableStates
  released : s.server.state = .manualReview → ∃ prior ∈ s.enteredFrom,
    s.server.release = .ok { s.server with state := prior, containedFrom := none }

/-- No service moves a server that is in review. -/
def Spared (s : Custody) (op : ServerOp) : Prop :=
  s.server.state = .manualReview →
    match op with
    | .move change => change.asks .manualReview = none
    | .requestDelete known => known.isSome
    | _ => True

/-! ### What one operation does -/

/-- No transition of the table leads back to REQUESTED. -/
theorem requested_notMem_allowed (state : ServerLifecycleState) :
    ServerLifecycleState.requested ∉ state.allowed := by
  cases state <;> decide

variable {target : ServerLifecycleState} {change : ServerMove} {server moved : ServerAggregate}

theorem mem_allowed_manualReview : target ∈ ServerLifecycleState.allowed .manualReview ↔
      target ≠ .requested ∧ target ≠ .manualReview := by
  cases target <;> decide

/-- No service asks for REQUESTED or for MANUAL_REVIEW. -/
theorem ServerMove.asks_spec {state target : ServerLifecycleState}
    (h : change.asks state = some target) : target ≠ .requested ∧ target ≠ .manualReview := by
  cases change with
  | repaired planned remote =>
    obtain ⟨-, hplan⟩ := Option.ite_none_right_eq_some.mp h
    have hallowed := (Operations.target_mem_allowed planned remote target hplan).2
    refine ⟨fun hrequested ↦ ?_, Operations.target_ne_manualReview planned remote target hplan⟩
    exact requested_notMem_allowed planned (hrequested ▸ hallowed)
  | powered action =>
    obtain ⟨-, hfilter⟩ := Option.ite_none_right_eq_some.mp h
    have htarget := (Option.filter_eq_some_iff.mp hfilter).1
    cases action <;> cases htarget <;> decide
  | reported info =>
    rw [asks, Option.filter_eq_some_iff] at h
    rcases target_cases h.1 with rfl | rfl <;> decide
  | intentFailed =>
    obtain rfl := Option.some.inj h
    decide
  | _ =>
    obtain ⟨-, htarget⟩ := Option.ite_none_right_eq_some.mp h
    obtain rfl := Option.some.inj htarget
    decide

/-- A transition, with whatever else the service writes. -/
structure MovedTo (server moved : ServerAggregate) (target : ServerLifecycleState) : Prop where
  allowed : target ∈ server.state.allowed
  state : moved.state = target
  containedFrom : moved.containedFrom = server.containedFrom

theorem movedTo_of_moveTo (h : server.moveTo target = .ok moved) : MovedTo server moved target := by
  obtain ⟨hallowed, rfl⟩ := moveTo_eq_ok h
  exact ⟨hallowed, rfl, rfl⟩

theorem movedTo_of_markDeleted {now : ℤ} (h : server.markDeleted now = .ok moved) :
    MovedTo server moved .deleted := by
  obtain ⟨inner, hinner, hmoved⟩ := bind_eq_ok.mp h
  obtain ⟨hallowed, rfl⟩ := moveTo_eq_ok hinner
  obtain rfl := pure_eq_ok.mp hmoved
  exact ⟨hallowed, rfl, rfl⟩

/-- A move that goes through asked for its target; one that asks for none leaves the row. -/
theorem ServerMove.apply_cases (h : change.apply server = .ok moved) :
    change.asks server.state = none ∧ moved = server ∨
      ∃ target, change.asks server.state = some target ∧ MovedTo server moved target := by
  unfold apply at h
  cases hasks : change.asks server.state with
  | none =>
    rw [hasks] at h
    exact .inl ⟨rfl, (Except.ok.inj h).symm⟩
  | some target =>
    rw [hasks] at h
    refine .inr ⟨target, rfl, ?_⟩
    cases change with
    | deleted now =>
      obtain ⟨-, htarget⟩ := Option.ite_none_right_eq_some.mp hasks
      obtain rfl := Option.some.inj htarget
      exact movedTo_of_markDeleted h
    | _ => exact movedTo_of_moveTo h

/-- A move along the table goes through. -/
theorem ServerMove.exists_apply {server : ServerAggregate}
    (hasks : change.asks server.state = some target) (hallowed : target ∈ server.state.allowed) :
    ∃ moved, change.apply server = .ok moved := by
  unfold apply
  rw [hasks]
  cases change with
  | deleted now =>
    obtain ⟨-, htarget⟩ := Option.ite_none_right_eq_some.mp hasks
    obtain rfl := Option.some.inj htarget
    show ∃ moved, (server.moveTo .deleted >>= fun deleted ↦ _) = .ok moved
    rw [moveTo_of_allowed hallowed]
    exact ⟨_, rfl⟩
  | _ => exact ⟨_, moveTo_of_allowed hallowed⟩

/-- A request of a deletion moves the row only where it is new. -/
theorem requestDelete_cases {known : Option Operation} (h : requestDelete server known = .ok moved) :
     known.isSome ∧ moved = server ∨ known = none ∧ MovedTo server moved .deleteRequested := by
  cases known with
  | none =>
    obtain ⟨-, hmoved⟩ := rejectIf_bind_eq_ok.mp h
    exact .inr ⟨rfl, movedTo_of_moveTo hmoved⟩
  | some operation =>
    refine .inl ⟨rfl, ?_⟩
    simp only [requestDelete] at h
    cases hstatus : operation.status <;> rw [hstatus] at h
    case completed => exact (Except.ok.inj h).symm
    case failed => exact absurd h raise_ne_ok
    case inFlight => exact absurd h raise_ne_ok
    all_goals
      obtain ⟨-, hkept⟩ := rejectIf_bind_eq_ok.mp h
      exact (pure_eq_ok.mp hkept).symm

/-! ### The invariant -/

/-- What holds of a server while no move meets it in review. -/
structure Kept (s : Custody) : Prop where
  contained : s.server.state = .manualReview ↔ s.server.containedFrom.isSome
  containable : ∀ prior ∈ s.server.containedFrom, prior ∈ containableStates
  remembered : s.server.state = .manualReview → s.enteredFrom = s.server.containedFrom

theorem mem_allowed_of_containable {prior : ServerLifecycleState} (h : prior ∈ containableStates) :
    prior ∈ ServerLifecycleState.allowed .manualReview := by
  revert h
  cases prior <;> decide

/-- A release goes back to the remembered state. -/
theorem release_eq {server : ServerAggregate} {prior : ServerLifecycleState}
    (hreview : server.state = .manualReview) (hprior : server.containedFrom = some prior)
    (hcontainable : prior ∈ containableStates) :
    server.release = .ok { server with state := prior, containedFrom := none } := by
  have hallowed : prior ∈ server.state.allowed := by
    rw [hreview]
    exact mem_allowed_of_containable hcontainable
  unfold ServerAggregate.release
  rw [rejectIf_bind (by simpa using hreview), hprior]
  show (server.moveTo prior >>= fun moved ↦ pure { moved with containedFrom := none }) = _
  rw [moveTo_of_allowed hallowed]
  rfl

theorem reversible_iff_kept (s : Custody) : Reversible s ↔ Kept s := by
  constructor
  · intro h
    refine ⟨h.contained, h.containable, fun hreview ↦ ?_⟩
    obtain ⟨remembered, hremembered⟩ := Option.isSome_iff_exists.mp (h.contained.mp hreview)
    obtain ⟨prior, hprior, hreleased⟩ := h.released hreview
    rw [release_eq hreview hremembered (h.containable remembered hremembered)] at hreleased
    have hstate : remembered = prior := congrArg (·.state) (Except.ok.inj hreleased)
    rw [hremembered, hstate, hprior]
  · intro h
    refine ⟨h.contained, h.containable, fun hreview ↦ ?_⟩
    obtain ⟨prior, hprior⟩ := Option.isSome_iff_exists.mp (h.contained.mp hreview)
    refine ⟨prior, ?_, release_eq hreview hprior (h.containable prior hprior)⟩
    rw [h.remembered hreview, hprior]
    rfl

section Step

variable {s : Custody} {moved : ServerAggregate}

theorem after_self (s : Custody) : s.after s.server = s := by
  have hsame : ¬ (s.server.state = .manualReview ∧ s.server.state ≠ .manualReview) :=
    fun h ↦ h.2 h.1
  rw [Custody.after, if_neg hsame]

theorem step_of_ok {op : ServerOp} (h : op.apply s.server = .ok moved) : s.step op = s.after moved := by
  rw [Custody.step, h]

theorem step_of_error {op : ServerOp} {raised : Raised} (h : op.apply s.server = .error raised) :
    s.step op = s := by
  rw [Custody.step, h]

/-- A server that remembers nothing may go anywhere but into review. -/
theorem kept_of_free (hstate : moved.state ≠ .manualReview) (hnone : moved.containedFrom = none) :
    Kept (s.after moved) := by
  have hserver : (s.after moved).server = moved := rfl
  constructor
  · rw [hserver, hnone]
    exact iff_of_false hstate (by simp)
  · rw [hserver, hnone]
    exact fun prior hprior ↦ absurd hprior (by simp)
  · rw [hserver]
    exact fun hreview ↦ absurd hreview hstate

/-- A transition keeps containment exactly where it does not meet it. -/
theorem kept_after_iff (h : Kept s) {target : ServerLifecycleState}
    (hmoved : MovedTo s.server moved target) (htarget : target ≠ .manualReview) :
    Kept (s.after moved) ↔ s.server.state ≠ .manualReview := by
  have hstate : moved.state ≠ .manualReview := hmoved.state ▸ htarget
  constructor
  · intro hkept hreview
    apply hstate
    apply hkept.contained.mpr
    show moved.containedFrom.isSome
    rw [hmoved.containedFrom]
    exact h.contained.mp hreview
  · intro hfree
    have hnone : s.server.containedFrom = none := by
      simpa using mt h.contained.mpr hfree
    exact kept_of_free hstate (hmoved.containedFrom.trans hnone)

theorem kept_move_iff (h : Kept s) (change : ServerMove) :
    Kept (s.step (.move change)) ↔ Spared s (.move change) := by
  cases happly : ServerOp.apply s.server (.move change) with
  | error raised =>
    rw [step_of_error happly]
    refine iff_of_true h fun hreview ↦ ?_
    show change.asks .manualReview = none
    by_contra hasks
    obtain ⟨target, htarget⟩ := Option.ne_none_iff_exists'.mp hasks
    have hallowed := mem_allowed_manualReview.mpr (ServerMove.asks_spec htarget)
    rw [← hreview] at htarget hallowed
    obtain ⟨moved, hmoved⟩ := ServerMove.exists_apply htarget hallowed
    exact absurd (hmoved.symm.trans happly) (by simp)
  | ok moved =>
    rw [step_of_ok happly]
    rcases ServerMove.apply_cases happly with ⟨hasks, rfl⟩ | ⟨target, hasks, hmoved⟩
    · rw [after_self]
      exact iff_of_true h fun hreview ↦ hreview ▸ hasks
    · rw [kept_after_iff h hmoved (ServerMove.asks_spec hasks).2]
      constructor
      · exact fun hfree hreview ↦ absurd hreview hfree
      · intro hspared hreview
        have hnone : change.asks .manualReview = none := hspared hreview
        rw [hreview, hnone] at hasks
        exact absurd hasks (by simp)

theorem kept_requestDelete_iff (h : Kept s) (known : Option Operation) :
    Kept (s.step (.requestDelete known)) ↔ Spared s (.requestDelete known) := by
  cases happly : ServerOp.apply s.server (.requestDelete known) with
  | error raised =>
    rw [step_of_error happly]
    refine iff_of_true h fun hreview ↦ ?_
    cases known with
    | some operation => rfl
    | none =>
      have hallowed : ServerLifecycleState.deleteRequested ∈ s.server.state.allowed := by
        rw [hreview]
        decide
      have hgate : decide (s.server.state ∉ deletePreconditionStates) = false := by
        rw [hreview]
        decide
      have hmoved : requestDelete s.server none = s.server.moveTo .deleteRequested :=
        rejectIf_bind hgate _
      have herror : requestDelete s.server none = .error raised := happly
      rw [hmoved, moveTo_of_allowed hallowed] at herror
      exact absurd herror (by simp)
  | ok moved =>
    rw [step_of_ok happly]
    rcases requestDelete_cases happly with ⟨hknown, rfl⟩ | ⟨rfl, hmoved⟩
    · rw [after_self]
      exact iff_of_true h fun _ ↦ hknown
    · rw [kept_after_iff h hmoved (by decide)]
      constructor
      · exact fun hfree hreview ↦ absurd hreview hfree
      · exact fun hspared hreview ↦ absurd (hspared hreview) (by simp)

/-- A server that is contained remembers where it came from; one that is contained already stays. -/
theorem kept_contain (h : Kept s) : Kept (s.step .contain) := by
  cases happly : ServerOp.apply s.server .contain with
  | error raised =>
    rw [step_of_error happly]
    exact h
  | ok moved =>
    rw [step_of_ok happly]
    have hcontain : s.server.contain = .ok moved := happly
    unfold ServerAggregate.contain at hcontain
    by_cases hreview : s.server.state = .manualReview
    · rw [if_pos hreview] at hcontain
      obtain ⟨-, hkept⟩ := rejectIf_bind_eq_ok.mp hcontain
      obtain rfl := pure_eq_ok.mp hkept
      rw [after_self]
      exact h
    · rw [if_neg hreview] at hcontain
      obtain ⟨hcontainable, hmoved⟩ := rejectIf_bind_eq_ok.mp hcontain
      obtain ⟨-, rfl⟩ := moveTo_eq_ok hmoved
      have hprior : s.server.state ∈ containableStates := by simpa using hcontainable
      constructor
      · exact iff_of_true rfl rfl
      · intro prior hremembered
        obtain rfl := Option.some.inj hremembered
        exact hprior
      · intro _
        exact if_pos ⟨rfl, hreview⟩

theorem kept_release (h : Kept s) : Kept (s.step .release) := by
  cases happly : ServerOp.apply s.server .release with
  | error raised =>
    rw [step_of_error happly]
    exact h
  | ok moved =>
    rw [step_of_ok happly]
    have hrelease : s.server.release = .ok moved := happly
    have hreview : s.server.state = .manualReview := by
      obtain ⟨hstate, -⟩ := rejectIf_bind_eq_ok.mp hrelease
      simpa using hstate
    obtain ⟨prior, hprior⟩ := Option.isSome_iff_exists.mp (h.contained.mp hreview)
    have hcontainable := h.containable prior hprior
    rw [release_eq hreview hprior hcontainable] at hrelease
    obtain rfl := Except.ok.inj hrelease
    apply kept_of_free
    · exact (mem_allowed_manualReview.mp (mem_allowed_of_containable hcontainable)).2
    · rfl

theorem kept_resetToRequested (h : Kept s) : Kept (s.step .resetToRequested) := by
  cases happly : ServerOp.apply s.server .resetToRequested with
  | error raised =>
    rw [step_of_error happly]
    exact h
  | ok moved =>
    rw [step_of_ok happly]
    obtain ⟨reset, hreset, hmoved⟩ := bind_eq_ok.mp happly
    obtain ⟨herror, hrequested⟩ := rejectIf_bind_eq_ok.mp hreset
    obtain rfl := pure_eq_ok.mp hrequested
    obtain rfl := pure_eq_ok.mp hmoved
    have hstate : s.server.state = .error := by simpa using herror
    have hfree : s.server.state ≠ .manualReview := by
      rw [hstate]
      decide
    have hnone : s.server.containedFrom = none := by
      simpa using mt h.contained.mpr hfree
    exact kept_of_free (by simp) hnone

/-- Containment survives an operation exactly if it does not move a server in review. -/
theorem kept_step_iff (h : Kept s) (op : ServerOp) : Kept (s.step op) ↔ Spared s op := by
  cases op with
  | move change => exact kept_move_iff h change
  | requestDelete known => exact kept_requestDelete_iff h known
  | contain => exact iff_of_true (kept_contain h) fun _ ↦ trivial
  | release => exact iff_of_true (kept_release h) fun _ ↦ trivial
  | resetToRequested => exact iff_of_true (kept_resetToRequested h) fun _ ↦ trivial

end Step

theorem kept_requested (server : CloudServer) : Kept (Custody.requested server) := by
  constructor
  · exact iff_of_false (by simp [Custody.requested]) (by simp [Custody.requested])
  · exact fun prior hprior ↦ absurd hprior (by simp [Custody.requested])
  · exact fun hreview ↦ absurd hreview (by simp [Custody.requested])

/-- Containment is reversible throughout a run of the services exactly if no move of the run meets a
server in review. -/
theorem reversible_iff_spared (server : CloudServer) (ops : List ServerOp) :
    Throughout Custody.step Reversible (Custody.requested server) ops ↔
      Along Custody.step Spared (Custody.requested server) ops := by
  have hsame : Reversible = Kept := funext fun s ↦ propext (reversible_iff_kept s)
  rw [hsame]
  exact throughout_iff_along (fun s op h ↦ kept_step_iff h op) ops _ (kept_requested server)

/-- A server is provisioned, runs and is contained, and its owner asks for its deletion. -/
def deletedInReview : List ServerOp :=
  [.move .provisioned, .move .activated, .contain, .requestDelete none]

/-- The deletion takes the server out of review, and the row still names the state to release it to. -/
theorem not_reversible_deletedInReview :
    (run Custody.step (Custody.requested Compute.runningServer.toCloudServer)
        deletedInReview).server.state = .deleteRequested ∧
      (run Custody.step (Custody.requested Compute.runningServer.toCloudServer)
        deletedInReview).server.containedFrom = some .running ∧
      ¬ ∀ (server : CloudServer) (ops : List ServerOp),
        Throughout Custody.step Reversible (Custody.requested server) ops := by
  refine ⟨by decide, by decide, fun h ↦ ?_⟩
  have hrun := (throughout_iff_forall_take _ _ _ _).mp
    (h Compute.runningServer.toCloudServer deletedInReview) 4
  exact absurd (hrun.contained.mpr (by decide)) (by decide)

end CloudPlatform.Servers
