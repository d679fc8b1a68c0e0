import CloudPlatform.Orders.ManualValidation

/-!
# Manual resolutions after a crash

The commits of `retry_failed` and `resolve_not_created` are independent, and a run may stop behind any
of them. A second run of the same command resumes the first exactly if that stopped with the order
still to be committed: the commands check the order and the operation again on entry and know their
own intermediate rows only for a retry that has reopened its operation. An order that the worker left
with its outcome unknown and its operation still in flight is accepted by no manual resolution.
-/

namespace CloudPlatform.Orders

open Compute (CloudServer ServerLifecycleState)
open Operations (Operation OperationStatus)
open Transition

/-! ### Runs that are cut off -/

/-- A run without repository failures that is stopped after so many calls. -/
abbrev Cut {α : Type} (scan : RecoveryScan) (property : Journal → Prop) (calls : ℕ)
    (p : OrderProgram α) (chances : ℕ → Chance) (j : Journal) : Prop :=
  Stops (OrderCall.journaled scan) property calls p chances j

section Rules

variable {scan : RecoveryScan} {β : Type} {property : Journal → Prop} {calls : ℕ}
  {chances : ℕ → Chance} {j : Journal} {orderId : Uuid}

theorem cut_call {request : OrderCall} {f : request.Out → OrderProgram β} {value : request.Out}
    {after : Journal} (hcall : OrderCall.journaled scan request (chances 0) j = (.ok value, after))
    (hstop : calls = 0 → property j) (hgo : ∀ less, calls = less + 1 →
      Cut scan property less (f value) (rest chances) after) :
    Cut scan property calls (perform request >>= f) chances j := by
  refine stops_perform hstop fun less hless ↦ ?_
  rw [hcall]
  exact hgo less hless

/-- The rule of a read. -/
theorem cut_read {request : OrderCall} {f : request.Out → OrderProgram β} {value : request.Out}
    (hcall : ∀ chance, OrderCall.journaled scan request chance j = (.ok value, j))
    (hstop : property j) (hgo : ∀ less, calls = less + 1 →
      Cut scan property less (f value) (rest chances) j) :
    Cut scan property calls (perform request >>= f) chances j :=
  cut_call (hcall _) (fun _ ↦ hstop) hgo

theorem cut_saveServer {f : CloudServer → OrderProgram β} {row copy : CloudServer}
    (hrow : j.rows.server = some row) (hstop : property j)
    (hgo : ∀ now less, calls = less + 1 → Cut scan property less (f (row.saved copy now))
      (rest chances) ⟨{ j.rows with server := some (row.saved copy now) },
        j.commits ++ [.saveServer copy]⟩) :
    Cut scan property calls (perform (.saveServer copy) >>= f) chances j :=
  cut_call (journaled_saveServer hrow copy (chances 0)) (fun _ ↦ hstop)
    fun less hless ↦ hgo _ less hless

theorem cut_saveOrder {f : ProviderOrder → OrderProgram β} {row copy : ProviderOrder}
    (hrow : j.rows.order = some row) (hstop : calls = 0 → property j)
    (hgo : ∀ now less, calls = less + 1 → Cut scan property less (f (row.saved copy now))
      (rest chances) ⟨{ j.rows with order := some (row.saved copy now) },
        j.commits ++ [.saveOrder copy]⟩) :
    Cut scan property calls (perform (.saveOrder copy) >>= f) chances j :=
  cut_call (journaled_saveOrder hrow copy (chances 0)) hstop fun less hless ↦ hgo _ less hless

theorem cut_saveOperation {f : Operation → OrderProgram β} {row copy : Operation}
    (hrow : j.rows.operation = some row) (hattempts : copy.attempts = row.attempts)
    (hstop : calls = 0 → property j) (hrefused : row.response.createRouting.isSome = true → property j)
    (hgo : row.response.createRouting = none → ∀ (saved : Operation) less,
      saved.status = copy.status → calls = less + 1 → Cut scan property less (f saved)
        (rest chances) ⟨{ j.rows with operation := some saved },
          j.commits ++ [.saveOperation copy]⟩) :
    Cut scan property calls (perform (.saveOperation copy) >>= f) chances j := by
  rcases save_cases hattempts (chances 0).now with
    ⟨hnone, saved, hsave, hstatus⟩ | ⟨hsome, raised, hsave⟩
  · exact cut_call (journaled_saveOperation hrow hsave) hstop
      fun less hless ↦ hgo hnone saved less hstatus hless
  · refine stops_perform hstop fun less _ ↦ ?_
    rw [journaled_saveOperation_refused hrow hsave]
    exact hrefused hsome

/-- The three reads at the start of a command. -/
theorem cut_orderAndOperation {f : Loaded → OrderProgram β} (hstop : property j)
    (hloaded : ∀ rows : Loaded, rows.Of j.rows → ∀ less, calls = less + 3 →
      Cut scan property less (f rows) (rest (rest (rest chances))) j) :
    Cut scan property calls (orderAndOperation orderId >>= f) chances j := by
  unfold orderAndOperation
  rw [Program.bind_assoc]
  refine cut_read (fun _ ↦ rfl) hstop fun first hfirst ↦ ?_
  cases horder : j.rows.order with
  | none => exact stops_done hstop
  | some order =>
    dsimp only
    rw [Program.bind_assoc]
    refine cut_read (fun _ ↦ rfl) hstop fun second hsecond ↦ ?_
    cases hoperation : j.rows.operation with
    | none => exact stops_done hstop
    | some operation =>
      dsimp only
      rw [Program.bind_assoc]
      refine cut_read (fun _ ↦ rfl) hstop fun less hless ↦ ?_
      cases hserver : j.rows.server with
      | none => exact stops_done hstop
      | some server =>
        exact hloaded ⟨order, operation, server⟩ ⟨horder, hoperation, hserver⟩ less (by omega)

end Rules

/-! ### Interruptions -/

/-- The states of the operation, the order and the server. -/
structure RowStates where
  operation : Option OperationStatus
  order : Option OrderStatus
  server : Option ServerLifecycleState

/-- The states of the rows. -/
def Purchase.states (s : Purchase) : RowStates where
  operation := s.operation.map (·.status)
  order := s.order.map (·.status)
  server := s.server.map (·.state)

/-- What is interrupted: a manual resolution, or the worker that records an unknown outcome with the
copies it holds. -/
inductive Interruption
  | retryFailed (reason : String)
  | resolveNotCreated (reason : String)
  | markOutcomeUnknown (order : ProviderOrder) (operation : Operation) (reason : String)

namespace Interruption

/-- The journal that is left after so many calls. -/
def left (scan : RecoveryScan) (orderId : Uuid) (s : Purchase) (calls : ℕ) (chances : ℕ → Chance) :
    Interruption → Journal
  | retryFailed reason =>
    (Orders.retryFailed orderId reason).stateAfter (OrderCall.journaled scan) calls chances ⟨s, []⟩
  | resolveNotCreated reason =>
    (Orders.resolveNotCreated orderId reason).stateAfter (OrderCall.journaled scan) calls chances
      ⟨s, []⟩
  | markOutcomeUnknown order operation reason =>
    (Orders.markOutcomeUnknown order operation reason).stateAfter (OrderCall.journaled scan) calls
      chances ⟨s, []⟩

/-- A command that is run again completes, and reaches the states of its uninterrupted run. -/
def Resumes (scan : RecoveryScan) (command : OrderProgram (ProviderOrder × Operation))
    (s left : Purchase) (chances again : ℕ → Chance) : Prop :=
  (command.eval (OrderCall.journaled scan) again ⟨left, []⟩).1.isOk = true ∧
    (command.eval (OrderCall.journaled scan) again ⟨left, []⟩).2.rows.states =
      (command.eval (OrderCall.journaled scan) chances ⟨s, []⟩).2.rows.states

/-- A manual resolution of an ambiguous order accepts the rows. -/
def Accepted (orderId : Uuid) (left : Purchase) : Prop :=
  ∃ rows : Loaded, rows.Of left ∧
    (checkExisting orderId rows = .ok () ∨ checkNotCreated orderId rows = .ok ())

/-- What is promised of an interruption: a command that is run again resumes, and an order of unknown
outcome can be resolved. -/
def Resumable (scan : RecoveryScan) (orderId : Uuid) (s : Purchase) (calls : ℕ)
    (chances again : ℕ → Chance) (interruption : Interruption) : Prop :=
  match interruption with
  | retryFailed reason => Resumes scan (Orders.retryFailed orderId reason) s
      (interruption.left scan orderId s calls chances).rows chances again
  | resolveNotCreated reason => Resumes scan (Orders.resolveNotCreated orderId reason) s
      (interruption.left scan orderId s calls chances).rows chances again
  | markOutcomeUnknown .. => Accepted orderId (interruption.left scan orderId s calls chances).rows

/-- What the interrupted run starts from: the worker holds the claimed operation as it is stored. -/
def Starts (s : Purchase) : Interruption → Prop
  | retryFailed _ => True
  | resolveNotCreated _ => True
  | markOutcomeUnknown _ operation _ => s.operation = some operation ∧
      operation.status = .inFlight ∧ s.order.isSome = true ∧ s.server.isSome = true

/-- The interruption comes before the commit that the entry checks do not admit: a retry stops behind
its three reads and the reopened operation, the worker behind both its commits. -/
def InTime (s : Purchase) (calls : ℕ) : Interruption → Prop
  | retryFailed _ => calls = 4 ∧ ∃ op ∈ s.operation, op.status = .failed
  | resolveNotCreated _ => False
  | markOutcomeUnknown .. => 2 ≤ calls

end Interruption

/-! ### What is left -/

section Left

variable {scan : RecoveryScan} {orderId : Uuid} {s : Purchase} {calls : ℕ}
  {chances : ℕ → Chance} {rows : Loaded}

/-- What a retry leaves, wherever it is stopped. -/
inductive LeftByRetry (orderId : Uuid) (s : Purchase) (reason : String) (calls : ℕ) :
    Journal → Prop
  | untouched : LeftByRetry orderId s reason calls ⟨s, []⟩
  | reopened (rows : Loaded) (saved : Operation) (commits : List OrderCall)
      (haccepts : AcceptsRetry orderId s reason rows) (hfailed : rows.operation.status = .failed)
      (hcalls : calls = 4) (hpending : saved.status = .pending) :
      LeftByRetry orderId s reason calls ⟨{ s with operation := some saved }, commits⟩
  | queued (j : Journal) (row : ProviderOrder)
      (hcalls : ¬ (calls = 4 ∧ ∃ op ∈ s.operation, op.status = .failed))
      (horder : j.rows.order = some row) (hqueued : row.status = .pendingSubmit) :
      LeftByRetry orderId s reason calls j

theorem cut_resetOrder {β : Type} {property : Journal → Prop} {j : Journal}
    {f : ProviderOrder → OrderProgram β} {order row : ProviderOrder}
    (hrow : j.rows.order = some row)
    (hstatus : order.status ∈ [OrderStatus.failed, .outcomeUnknown, .needsReview])
    (hstop : calls = 0 → property j)
    (hgo : ∀ reset saved commits less, calls = less + 1 → saved.status = .pendingSubmit →
      Cut scan property less (f reset) (rest chances)
        ⟨{ j.rows with order := some saved }, commits⟩) :
    Cut scan property calls (resetOrder order >>= f) chances j := by
  unfold resetOrder
  rw [resetToPendingSubmit_of_mem hstatus]
  change Cut scan property calls ((perform (.saveOrder _) >>= fun _ ↦ pure _) >>= f) chances j
  rw [Program.bind_assoc]
  exact cut_saveOrder hrow hstop fun now less hless ↦ hgo _ _ _ less hless rfl

/-- The rest of a retry, behind an operation that is PENDING. -/
theorem cut_requeue {reason : String} {less : ℕ} {j : Journal} (copy : Operation)
    (hrow : j.rows.order = some rows.order) (hserver : j.rows.server = some rows.server)
    (horder : rows.order.status = .failed)
    (hstop : less = 0 → LeftByRetry orderId s reason calls j)
    (hless : less ≠ 0 → ¬ (calls = 4 ∧ ∃ op ∈ s.operation, op.status = .failed)) :
    Cut scan (LeftByRetry orderId s reason calls) less (do
      let order ← resetOrder rows.order
      requeueServer rows.server
      perform (.audit "order.retry" reason)
      return (order, copy)) chances j := by
  refine cut_resetOrder hrow (by simp [horder]) hstop fun reset order commits fewer hfewer hreset ↦ ?_
  have hlate := hless (by omega)
  have hqueued : LeftByRetry orderId s reason calls ⟨{ j.rows with order := some order }, commits⟩ :=
    .queued _ order hlate rfl hreset
  unfold requeueServer
  split
  · rw [Program.bind_assoc]
    refine stops_lift (fun requested _ ↦ ?_) hqueued
    rw [Program.bind_assoc]
    refine cut_saveServer hserver hqueued fun now last _ ↦ ?_
    refine cut_read (fun _ ↦ rfl) ?_ fun _ _ ↦ stops_pure ?_
    · exact .queued _ order hlate rfl hreset
    · exact .queued _ order hlate rfl hreset
  · exact cut_read (fun _ ↦ rfl) hqueued fun _ _ ↦ stops_pure hqueued

theorem cut_retryFailed (reason : String) :
    Cut scan (LeftByRetry orderId s reason calls) calls (retryFailed orderId reason) chances
      ⟨s, []⟩ := by
  refine stops_lift (fun _ hreason ↦ ?_) .untouched
  refine cut_orderAndOperation .untouched fun rows hrows less hless ↦ ?_
  refine stops_lift (fun _ hchecked ↦ ?_) .untouched
  obtain ⟨hfailed, -⟩ := rejectIf_bind_eq_ok.mp hchecked
  have horder : rows.order.status = .failed := by simpa using hfailed
  unfold reopenOperation
  by_cases hreopen : rows.operation.status = .failed
  · rw [if_pos hreopen]
    have hreopened : rows.operation.reopenForRetry =
        .ok { rows.operation with status := .pending } := by
      simp [Operation.reopenForRetry, rejectIf, hreopen, bind, Except.bind, pure, Except.pure]
    rw [hreopened, Program.bind_assoc]
    refine stops_lift (fun copy hcopy ↦ ?_) LeftByRetry.untouched
    obtain rfl := Except.ok.inj hcopy
    rw [Program.bind_assoc]
    refine cut_saveOperation hrows.operation rfl (fun _ ↦ LeftByRetry.untouched) (fun _ ↦ .untouched)
      fun hnone saved fewer hsaved hfewer ↦ ?_
    have haccepts : AcceptsRetry orderId s reason rows := {
      reason_ne := of_decide_eq_false (rejectIf_eq_ok.mp hreason)
      loaded := hrows
      checked := hchecked
      unfenced := fun _ ↦ hnone }
    have hcalls : fewer ≠ 0 → ¬ (calls = 4 ∧ ∃ op ∈ s.operation, op.status = .failed) :=
      fun hmore h ↦ by omega
    refine cut_requeue _ hrows.order hrows.server horder (fun hnone ↦ ?_) hcalls
    exact .reopened rows saved _ haccepts hreopen (by omega) hsaved
  · rw [if_neg hreopen]
    refine cut_requeue _ hrows.order hrows.server horder (fun _ ↦ .untouched) fun _ h ↦ ?_
    obtain ⟨-, op, hop, hstatus⟩ := h
    obtain rfl := Option.some.inj (hrows.operation.symm.trans hop)
    exact hreopen hstatus

/-- What a verified absence leaves: nothing, or an operation that is PENDING again. -/
theorem cut_resolveNotCreated (reason : String) :
    Cut scan (fun j ↦ j = ⟨s, []⟩ ∨ ∃ op ∈ j.rows.operation, op.status = .pending) calls
      (resolveNotCreated orderId reason) chances ⟨s, []⟩ := by
  refine stops_lift (fun _ hreason ↦ ?_) (Or.inl rfl)
  refine cut_orderAndOperation (Or.inl rfl) fun rows hrows less hless ↦ ?_
  refine stops_lift (fun _ hchecked ↦ ?_) (Or.inl rfl)
  obtain ⟨horder, -⟩ := mem_of_rejectIf hchecked
  refine stops_lift (fun absent habsent ↦ ?_) (Or.inl rfl)
  obtain ⟨-, habsent⟩ := rejectIf_bind_eq_ok.mp habsent
  obtain rfl := pure_eq_ok.mp habsent
  refine cut_saveOperation hrows.operation rfl (fun _ ↦ Or.inl rfl) (fun _ ↦ Or.inl rfl)
    fun _ saved _ hsaved _ ↦ ?_
  have hpending : ∃ op ∈ some saved, op.status = .pending := ⟨saved, rfl, hsaved⟩
  refine cut_resetOrder hrows.order (List.mem_cons_of_mem _ horder) (fun _ ↦ Or.inr hpending) ?_
  intro reset order commits fewer _ _
  exact cut_read (fun _ ↦ rfl) (Or.inr hpending) fun _ _ ↦ stops_pure (Or.inr hpending)

/-- What the worker leaves of an unknown outcome: nothing, the order alone, or both rows. -/
inductive LeftByWorker (s : Purchase) (calls : ℕ) : Journal → Prop
  | untouched : LeftByWorker s calls ⟨s, []⟩
  | orderOnly (j : Journal) (hcalls : calls = 1) (hoperation : j.rows.operation = s.operation) :
      LeftByWorker s calls j
  | recorded (j : Journal) (row : ProviderOrder) (saved : Operation) (hcalls : 2 ≤ calls)
      (horder : j.rows.order = some row) (hunknown : row.status = .outcomeUnknown)
      (hsaved : j.rows.operation = some saved) (hstatus : saved.status = .outcomeUnknown)
      (hserver : j.rows.server = s.server) : LeftByWorker s calls j

theorem cut_markOutcomeUnknown {order row : ProviderOrder} {operation : Operation} (reason : String)
    (hrow : s.order = some row) (hoperation : s.operation = some operation)
    (hclaimed : operation.status = .inFlight) :
    Cut scan (LeftByWorker s calls) calls (markOutcomeUnknown order operation reason) chances
      ⟨s, []⟩ := by
  unfold markOutcomeUnknown
  split
  · exact stops_done LeftByWorker.untouched
  · rename_i hrouting
    have hnone : operation.response.createRouting = none := by simpa using hrouting
    refine stops_lift (fun unknown hunknown ↦ ?_) LeftByWorker.untouched
    obtain ⟨-, hunknown⟩ := rejectIf_bind_eq_ok.mp hunknown
    obtain rfl := pure_eq_ok.mp hunknown
    refine cut_saveOrder hrow (fun _ ↦ .untouched) fun now less hless ↦ ?_
    obtain ⟨moved, hmoved⟩ : ∃ moved, unknownOperation operation reason = .ok moved := by
      simp [unknownOperation, Operation.markOutcomeUnknown, Operation.transitionTo, hclaimed,
        OperationStatus.allowed, rejectIf, bind, Except.bind, pure, Except.pure]
    have hmoves := Operation.markOutcomeUnknown_moves
      (by simpa [unknownOperation, hclaimed] using hmoved)
    rw [hmoved]
    refine cut_saveOperation hoperation hmoves.attempts_eq (fun hnone ↦ ?_) (fun hsome ↦ ?_)
      fun _ saved fewer hsaved hfewer ↦ ?_
    · exact .orderOnly _ (by omega) rfl
    · exact absurd hsome hrouting
    refine stops_last (fun _ ↦ ?_) ?_
    · exact .recorded _ _ saved (by omega) rfl rfl rfl (hsaved.trans hmoves.status_eq) rfl
    · exact .recorded _ _ saved (by omega) rfl rfl rfl (hsaved.trans hmoves.status_eq) rfl

end Left

/-! ### Runs again -/

section Again

variable {scan : RecoveryScan} {orderId : Uuid} {s : Purchase} {calls : ℕ}
  {first again : ℕ → Chance} {j : Journal} {reason : String}

/-- The states of a completed retry. -/
theorem states_of_retried {after : Purchase}
    (h : (ManualCommand.retryFailed reason).Completes after) :
    after.states = ⟨some .pending, some .pendingSubmit, some .requested⟩ := by
  obtain ⟨⟨op, hop, hpending⟩, ⟨order, horder, hqueued⟩, ⟨server, hserver, hrequested⟩⟩ := h
  simp only [Option.mem_def] at hop horder hserver
  simp [Purchase.states, hop, horder, hserver, hpending, hqueued, hrequested]

/-- A run that is refused does not resume. -/
theorem not_resumes_of_endsAs {command : ManualCommand}
    {program : OrderProgram (ProviderOrder × Operation)} {accepted : Prop} {left : Purchase}
    (hends : Quiet scan (fun outcome _ after ↦ EndsAs left command accepted outcome after) program
      again ⟨left, []⟩) (hrefused : ¬ accepted) :
    ¬ Interruption.Resumes scan program s left first again := by
  rintro ⟨hok, -⟩
  obtain ⟨herror, -⟩ := hends.eval.refused hrefused
  rw [herror] at hok
  cases hok

/-- A reopened operation is accepted again. -/
theorem acceptsRetry_again {rows : Loaded} {saved : Operation}
    (haccepts : AcceptsRetry orderId s reason rows) (hpending : saved.status = .pending) :
    AcceptsRetry orderId { s with operation := some saved } reason { rows with operation := saved } where
  reason_ne := haccepts.reason_ne
  loaded := ⟨haccepts.loaded.order, rfl, haccepts.loaded.server⟩
  checked := by
    obtain ⟨hstatus, hrest⟩ := rejectIf_bind_eq_ok.mp haccepts.checked
    obtain ⟨-, hserver⟩ := rejectIf_bind_eq_ok.mp hrest
    refine rejectIf_bind_eq_ok.mpr ⟨hstatus, rejectIf_bind_eq_ok.mpr ⟨?_, hserver⟩⟩
    rw [hpending]
    rfl
  unfenced h := by
    rw [hpending] at h
    cases h

theorem endsAs_retryFailed (scan : RecoveryScan) (orderId : Uuid) (reason : String) (s : Purchase)
    (chances : ℕ → Chance) :
    EndsAs s (.retryFailed reason) (∃ rows, AcceptsRetry orderId s reason rows)
      ((retryFailed orderId reason).eval (OrderCall.journaled scan) chances ⟨s, []⟩).1
      ((retryFailed orderId reason).eval (OrderCall.journaled scan) chances ⟨s, []⟩).2 :=
  (quiet_retryFailed reason).eval

/-- A retry that was stopped behind the reopened operation resumes. -/
theorem resumes_of_reopened {rows : Loaded} {saved : Operation}
    (haccepts : AcceptsRetry orderId s reason rows) (hpending : saved.status = .pending) :
    Interruption.Resumes scan (retryFailed orderId reason) s { s with operation := some saved } first
      again := by
  obtain ⟨-, hdone⟩ := (endsAs_retryFailed scan orderId reason s first).completes ⟨rows, haccepts⟩
  obtain ⟨hok, hredone⟩ := (endsAs_retryFailed scan orderId reason _ again).completes
    ⟨_, acceptsRetry_again haccepts hpending⟩
  exact ⟨hok, (states_of_retried hredone).trans (states_of_retried hdone).symm⟩

theorem resumes_retryFailed_iff (hleft : LeftByRetry orderId s reason calls j)
    (hcommitted : j.commits ≠ []) :
    Interruption.Resumes scan (retryFailed orderId reason) s j.rows first again ↔
      calls = 4 ∧ ∃ op ∈ s.operation, op.status = .failed := by
  cases hleft with
  | untouched => exact absurd rfl hcommitted
  | reopened rows saved commits haccepts hfailed hcalls hpending =>
    refine iff_of_true (resumes_of_reopened haccepts hpending) ⟨hcalls, rows.operation, ?_, hfailed⟩
    exact haccepts.loaded.operation
  | queued _ row hcalls horder hqueued =>
    refine iff_of_false (not_resumes_of_endsAs (quiet_retryFailed reason) ?_) hcalls
    rintro ⟨rows, haccepts⟩
    obtain rfl := Option.some.inj (horder.symm.trans haccepts.loaded.order)
    obtain ⟨hfailed, -⟩ := rejectIf_bind_eq_ok.mp haccepts.checked
    simp [hqueued] at hfailed

theorem not_resumes_resolveNotCreated
    (hleft : j = ⟨s, []⟩ ∨ ∃ op ∈ j.rows.operation, op.status = .pending)
    (hcommitted : j.commits ≠ []) :
    ¬ Interruption.Resumes scan (resolveNotCreated orderId reason) s j.rows first again := by
  rcases hleft with rfl | ⟨op, hop, hpending⟩
  · exact absurd rfl hcommitted
  refine not_resumes_of_endsAs (quiet_resolveNotCreated reason) ?_
  rintro ⟨rows, haccepts⟩
  obtain rfl := Option.some.inj (hop.symm.trans haccepts.loaded.operation)
  obtain ⟨-, hrest⟩ := mem_of_rejectIf haccepts.checked
  obtain ⟨hunknown, -⟩ := rejectIf_bind_eq_ok.mp hrest
  simp [hpending] at hunknown

/-- Both resolutions of an ambiguous order ask for an operation of unknown outcome. -/
theorem not_accepted_of_operation {left : Purchase} {op : Operation} (hop : left.operation = some op)
    (hstatus : op.status ≠ .outcomeUnknown) : ¬ Interruption.Accepted orderId left := by
  rintro ⟨rows, hrows, hchecked⟩
  obtain rfl := Option.some.inj (hop.symm.trans hrows.operation)
  rcases hchecked with hexisting | hnotCreated
  · obtain ⟨-, hunknown⟩ := mem_of_rejectIf hexisting
    exact hstatus (by simpa using rejectIf_eq_ok.mp hunknown)
  · obtain ⟨-, hrest⟩ := mem_of_rejectIf hnotCreated
    obtain ⟨hunknown, -⟩ := rejectIf_bind_eq_ok.mp hrest
    exact hstatus (by simpa using hunknown)

theorem accepted_iff_of_leftByWorker {operation : Operation} (hleft : LeftByWorker s calls j)
    (hoperation : s.operation = some operation) (hclaimed : operation.status = .inFlight)
    (hserver : s.server.isSome = true) (hcommitted : j.commits ≠ []) :
    Interruption.Accepted orderId j.rows ↔ 2 ≤ calls := by
  cases hleft with
  | untouched => exact absurd rfl hcommitted
  | orderOnly _ hcalls hrow =>
    refine iff_of_false (not_accepted_of_operation (hrow.trans hoperation) ?_) (by omega)
    rw [hclaimed]
    decide
  | recorded _ row saved hcalls horder hunknown hsaved hstatus hkept =>
    refine iff_of_true ?_ hcalls
    obtain ⟨server, hserver⟩ := Option.isSome_iff_exists.mp hserver
    refine ⟨⟨row, saved, server⟩, ⟨horder, hsaved, hkept.trans hserver⟩, Or.inl ?_⟩
    unfold checkExisting
    rw [hunknown, hstatus]
    rfl

end Again

/-- Whatever the rows, and wherever a retry, a resolution of absence or the recording of an unknown
outcome is stopped behind a commit: the command that is run again completes and reaches the states of
the uninterrupted run, and the order of unknown outcome is accepted by a resolution, exactly if the
interruption came in time. -/
theorem resumable_iff_inTime (scan : RecoveryScan) (orderId : Uuid) (interruption : Interruption)
    (s : Purchase) (calls : ℕ) (first again : ℕ → Chance) (hstarts : interruption.Starts s)
    (hcommitted : (interruption.left scan orderId s calls first).commits ≠ []) :
    interruption.Resumable scan orderId s calls first again ↔ interruption.InTime s calls := by
  cases interruption with
  | retryFailed reason =>
    exact resumes_retryFailed_iff (cut_retryFailed reason).stateAfter hcommitted
  | resolveNotCreated reason =>
    refine iff_of_false ?_ id
    exact not_resumes_resolveNotCreated (cut_resolveNotCreated reason).stateAfter hcommitted
  | markOutcomeUnknown order operation reason =>
    obtain ⟨hoperation, hclaimed, horder, hserver⟩ := hstarts
    obtain ⟨row, hrow⟩ := Option.isSome_iff_exists.mp horder
    exact accepted_iff_of_leftByWorker
      (cut_markOutcomeUnknown reason hrow hoperation hclaimed).stateAfter hoperation hclaimed hserver
      hcommitted

namespace ManualRuns

/-- A purchase that failed definitively. -/
def failed : Purchase where
  books := paidBooks
  server := some (server .error)
  order := some (order .failed none)
  operation := some (operation .failed)

/-- The operator retries it. -/
def retry : Interruption :=
  .retryFailed "quota raised at the provider"

end ManualRuns

/-- Stopped behind the reopened operation, the retry resumes. -/
theorem resumable_iff_inTime_reopened :
    ManualRuns.retry.InTime ManualRuns.failed 4 ∧
    (ManualRuns.retry.Resumable PurchaseRuns.scan PurchaseRuns.rowId ManualRuns.failed 4
        (fun _ ↦ ManualRuns.found) (fun _ ↦ ManualRuns.found) ↔
      ManualRuns.retry.InTime ManualRuns.failed 4) :=
  ⟨⟨rfl, ManualRuns.operation .failed, rfl, rfl⟩,
    resumable_iff_inTime _ _ _ _ _ _ _ trivial (by decide +kernel)⟩

/-- Stopped behind the order, it is refused: the order is no longer FAILED, and the server stays in
ERROR. -/
theorem not_resumable_of_queued :
    ¬ ∀ (scan : RecoveryScan) (orderId : Uuid) (interruption : Interruption) (s : Purchase)
      (calls : ℕ) (first again : ℕ → Chance), interruption.Starts s →
      (interruption.left scan orderId s calls first).commits ≠ [] →
      interruption.Resumable scan orderId s calls first again := by
  intro h
  have hresumes := h PurchaseRuns.scan PurchaseRuns.rowId ManualRuns.retry ManualRuns.failed 5
    (fun _ ↦ ManualRuns.found) (fun _ ↦ ManualRuns.found) trivial (by decide +kernel)
  exact absurd hresumes.1 (by decide +kernel)

end CloudPlatform.Orders
