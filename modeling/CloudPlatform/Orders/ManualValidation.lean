import CloudPlatform.Orders.ManualResolution
import CloudPlatform.Orders.PurchaseAlone
import CloudPlatform.Orders.QuietRuns

/-!
# Manual resolutions validate before they write

Each operator command either raises with nothing written but a settlement verdict, or completes all
its row changes. Two of the four do not always: `resolve_existing` saves the order before it meets
the receipt fence of the operation, and `resolve_vps` admits orders and servers whose last transition
the activator refuses, and offers without renewal terms. `validated_iff_not_spoils` says exactly
when.
-/

namespace CloudPlatform.Orders

open Compute (CloudServer)
open Offers (SellableOffer)
open Operations (Operation)
open Providers
open Transition
open Wallets.HoldService (captureKey)

/-! ### What a command is to leave -/

/-- The rows once all row changes of a command are done: for `resolve_vps` this includes that a server
on its way was started. -/
def ManualCommand.Completes (after : Purchase) : ManualCommand → Prop
  | .retryFailed _ => (∃ op ∈ after.operation, op.status = .pending) ∧
      (∃ order ∈ after.order, order.status = .pendingSubmit) ∧
      ∃ server ∈ after.server, server.state = .requested
  | .resolveExisting providerOrderId _ => (∃ order ∈ after.order,
      order.status = .submitted ∧ order.providerOrderId = some providerOrderId) ∧
      ∃ op ∈ after.operation, op.status = .completed
  | .resolveNotCreated _ => (∃ op ∈ after.operation, op.status = .pending) ∧
      ∃ order ∈ after.order, order.status = .pendingSubmit
  | .resolveVps .. => (∃ order ∈ after.order, order.status = .active) ∧
      (∃ server ∈ after.server, server.providerServerId.isSome ∧
        server.state ∉ [.requested, .provisioning, .error]) ∧ after.renewal.isSome

/-- The server and operation rows are as they were, and whatever was committed to the order records
a settlement verdict. -/
structure Untouched (before : Purchase) (after : Journal) : Prop where
  server : after.rows.server = before.server
  operation : after.rows.operation = before.operation
  commits : ∀ commit ∈ after.commits, ∃ order ∈ before.order, RecordsVerdict order commit

/-- The command has validated before it wrote: it completes, or it raises with the rows untouched. -/
def Validated (before : Purchase) (command : ManualCommand)
    (outcome : Result (ProviderOrder × Operation)) (after : Journal) : Prop :=
  match outcome with
  | .ok _ => command.Completes after.rows
  | .error _ => Untouched before after

theorem untouched_refl (s : Purchase) : Untouched s ⟨s, []⟩ where
  server := rfl
  operation := rfl
  commits := by simp

/-! ### When it is not -/

/-- The rows that a command loads. -/
structure Loaded.Of (s : Purchase) (rows : Loaded) : Prop where
  order : s.order = some rows.order
  operation : s.operation = some rows.operation
  server : s.server = some rows.server

/-- `retry_failed` passes all its checks, and a FAILED operation can be saved. -/
structure AcceptsRetry (orderId : Uuid) (s : Purchase) (reason : String) (rows : Loaded) :
    Prop where
  reason_ne : strip reason ≠ ""
  loaded : rows.Of s
  checked : checkRetry orderId rows = .ok ()
  unfenced : rows.operation.status = .failed → rows.operation.response.createRouting = none

/-- `resolve_not_created` passes all its checks, and the operation can be saved. -/
structure AcceptsNotCreated (orderId : Uuid) (s : Purchase) (reason : String) (rows : Loaded) :
    Prop where
  reason_ne : strip reason ≠ ""
  loaded : rows.Of s
  checked : checkNotCreated orderId rows = .ok ()
  unfenced : rows.operation.response.createRouting = none

/-- `resolve_existing` passes all its checks, with the answer that the validation reads. -/
structure AcceptsExisting (registry : Registry) (orderId : Uuid) (s : Purchase)
    (providerOrderId reason : String) (read : Chance) (rows : Loaded) : Prop where
  reason_ne : strip reason ≠ ""
  id_ne : strip providerOrderId ≠ ""
  loaded : rows.Of s
  checked : checkExisting orderId rows = .ok ()
  ordering : orderingFor registry rows.order rows.server = .ok ()
  readable : read.readFault = none
  consistent : inconsistency rows.order read.ticket = none

/-- `resolve_vps` passes all its checks, with the answer that the validation reads. -/
structure AcceptsVps (registry : Registry) (orderId : Uuid) (s : Purchase) (vpsId reason : String)
    (read : Chance) (rows : Loaded) (offer : SellableOffer) (remote : ProviderServer) : Prop where
  reason_ne : strip reason ≠ ""
  id_ne : strip vpsId ≠ ""
  loaded : rows.Of s
  checked : checkVps orderId rows = .ok ()
  offerId : rows.order.offerId.isSome = true
  offerRow : s.offer = some offer
  ordering : orderingFor registry rows.order rows.server = .ok ()
  readable : read.readFault = none
  found : read.found = some remote
  agrees : checkRemote vpsId offer remote = .ok ()

/-- The terms that a renewal record can be built with. -/
def RenewalTerms (customerPriceMinor : ℤ) (currency : String) : Prop :=
  0 < customerPriceMinor ∧ currency.length = 3

/-- The activation of a settled purchase stops short, or leaves the server unstarted: the order is in
review, the server is in ERROR, or the offer has no renewal terms. -/
def ActivationFails (rows : Loaded) (offer : SellableOffer) : Prop :=
  rows.order.status = .needsReview ∨ rows.server.state = .error ∨
    ¬ RenewalTerms offer.sellingPriceMinor offer.sellingCurrency

/-- The inputs on which a command writes and does not complete. The validation read is the call behind
the rows, which for `resolve_vps` are four. -/
def ManualCommand.Spoils (registry : Registry) (orderId : Uuid) (s : Purchase)
    (chances : ℕ → Chance) : ManualCommand → Prop
  | .retryFailed _ => False
  | .resolveNotCreated _ => False
  | .resolveExisting providerOrderId reason => ∃ rows,
      AcceptsExisting registry orderId s providerOrderId reason (chances 3) rows ∧
      rows.operation.response.createRouting.isSome = true
  | .resolveVps vpsId reason => ∃ rows offer remote,
      AcceptsVps registry orderId s vpsId reason (chances 4) rows offer remote ∧
      Settles s rows.server ∧ Repairable (some rows.operation) ∧ ActivationFails rows offer

/-! ### The steps of the commands -/

section Commands

variable {scan : RecoveryScan} {registry : Registry} {orderId : Uuid} {s : Purchase}
  {chances : ℕ → Chance} {j : Journal} {rows : Loaded}

variable {β : Type} {post : Result β → (ℕ → Chance) → Journal → Prop} {raised : Raised}
  {order : ProviderOrder} {command : ManualCommand} {accepted : Prop}

/-- The three reads at the start of a command. -/
theorem quiet_orderAndOperation {f : Loaded → OrderProgram β}
    (hmissing : (∀ rows : Loaded, ¬ rows.Of j.rows) → ∀ raised oracles,
      post (.error raised) oracles j)
    (hloaded : ∀ rows : Loaded, rows.Of j.rows →
      Quiet scan post (f rows) (rest (rest (rest chances))) j) :
    Quiet scan post (orderAndOperation orderId >>= f) chances j := by
  refine ends_bind (quiet_read (fun _ ↦ rfl) ?_)
  cases horder : j.rows.order with
  | none => exact ends_throw (hmissing (fun rows h ↦ by simp [h.order] at horder) _ _)
  | some order =>
    refine quiet_read (fun _ ↦ rfl) ?_
    cases hoperation : j.rows.operation with
    | none => exact ends_throw (hmissing (fun rows h ↦ by simp [h.operation] at hoperation) _ _)
    | some operation =>
      refine quiet_read (fun _ ↦ rfl) ?_
      cases hserver : j.rows.server with
      | none => exact ends_throw (hmissing (fun rows h ↦ by simp [h.server] at hserver) _ _)
      | some server =>
        exact ends_pure (hloaded ⟨order, operation, server⟩ ⟨horder, hoperation, hserver⟩)

theorem Loaded.Of.unique {first second : Loaded} (hfirst : first.Of s) (hsecond : second.Of s) :
    first = second := by
  obtain ⟨horder, hoperation, hserver⟩ := hfirst
  rw [hsecond.order] at horder
  rw [hsecond.operation] at hoperation
  rw [hsecond.server] at hserver
  cases first
  cases second
  simp only [Option.some.injEq] at horder hoperation hserver
  rw [horder, hoperation, hserver]

/-- A copy that keeps the row's generation is saved, or its receipt refuses it. -/
theorem save_cases {row copy : Operation} (hattempts : copy.attempts = row.attempts) (now : ℤ) :
    (row.response.createRouting = none ∧
      ∃ saved, Operations.save (some row) copy now = .ok saved ∧ saved.status = copy.status) ∨
      (row.response.createRouting.isSome = true ∧
        ∃ raised, Operations.save (some row) copy now = .error raised) := by
  cases hrouting : row.response.createRouting with
  | none =>
    obtain ⟨saved, hsaved⟩ := Operations.save_of_fenced ⟨hrouting, hattempts.symm⟩ now
    exact Or.inl ⟨rfl, saved, hsaved, (Operations.save_eq_ok hsaved).2.1⟩
  | some receipt =>
    refine Or.inr ⟨rfl, ?_⟩
    simp [Operations.save, hrouting, rejectIf, raise, bind, Except.bind]

/-- A saved copy of an operation, under its fences. -/
theorem quiet_saveOperation {f : Operation → OrderProgram β} {row copy : Operation}
    (hrow : j.rows.operation = some row) (hattempts : copy.attempts = row.attempts)
    (hrefused : row.response.createRouting.isSome = true → ∀ raised,
      post (.error raised) (rest chances) j)
    (hsaved : row.response.createRouting = none → ∀ saved : Operation,
      saved.status = copy.status → Quiet scan post (f saved) (rest chances)
        ⟨{ j.rows with operation := some saved }, j.commits ++ [.saveOperation copy]⟩) :
    Quiet scan post (perform (.saveOperation copy) >>= f) chances j := by
  rcases save_cases hattempts (chances 0).now with
    ⟨hnone, saved, hsave, hstatus⟩ | ⟨hsome, raised, hsave⟩
  · exact quiet_write (journaled_saveOperation hrow hsave) (hsaved hnone saved hstatus)
  · refine ends_perform ?_
    rw [journaled_saveOperation_refused hrow hsave]
    exact hrefused hsome raised

theorem rejectIf_eq_error {condition : Bool} {kind : ErrorKind} {message : String}
    (h : rejectIf condition kind message = .error raised) : condition = true := by
  cases condition with
  | true => rfl
  | false => cases h

/-- The guard `if value not in values: raise`. -/
theorem mem_of_rejectIf {γ δ : Type} [DecidableEq γ] {value : γ} {values : List γ}
    {kind : ErrorKind} {message : String} {f : Unit → Result δ} {result : δ}
    (h : (rejectIf (value ∉ values) kind message >>= f) = .ok result) :
    value ∈ values ∧ f () = .ok result := by
  obtain ⟨hguard, hrest⟩ := rejectIf_bind_eq_ok.mp h
  exact ⟨not_not.mp (of_decide_eq_false hguard), hrest⟩

theorem resetToPendingSubmit_of_mem
    (h : order.status ∈ [OrderStatus.failed, .outcomeUnknown, .needsReview]) :
    order.resetToPendingSubmit = .ok { order with status := .pendingSubmit, error := none } := by
  unfold ProviderOrder.resetToPendingSubmit
  rw [rejectIf_bind_eq_ok]
  exact ⟨decide_eq_false (not_not.mpr h), rfl⟩

theorem quiet_resetOrder {f : ProviderOrder → OrderProgram β} {order row : ProviderOrder}
    (hrow : j.rows.order = some row)
    (hstatus : order.status ∈ [OrderStatus.failed, .outcomeUnknown, .needsReview])
    (h : ∀ reset saved commits, saved.status = .pendingSubmit →
      Quiet scan post (f reset) (rest chances) ⟨{ j.rows with order := some saved }, commits⟩) :
    Quiet scan post (resetOrder order >>= f) chances j := by
  unfold resetOrder
  rw [resetToPendingSubmit_of_mem hstatus]
  refine ends_bind (quiet_saveOrder hrow fun now ↦ ?_)
  exact ends_pure (h _ _ _ rfl)

/-- A command that completes whenever it is accepted, and otherwise raises before it writes. -/
structure EndsAs (s : Purchase) (command : ManualCommand) (accepted : Prop)
    (outcome : Result (ProviderOrder × Operation)) (after : Journal) : Prop where
  completes : accepted → outcome.isOk = true ∧ command.Completes after.rows
  refused : ¬ accepted → outcome.isOk = false ∧ after = ⟨s, []⟩

theorem EndsAs.of_refused (h : ¬ accepted) : EndsAs s command accepted (.error raised) ⟨s, []⟩ where
  completes haccepted := absurd haccepted h
  refused _ := ⟨rfl, rfl⟩

theorem EndsAs.of_completes {value : ProviderOrder × Operation} {after : Journal}
    (haccepted : accepted) (h : command.Completes after.rows) :
    EndsAs s command accepted (.ok value) after where
  completes _ := ⟨rfl, h⟩
  refused hrefused := absurd haccepted hrefused

/-- It validates. -/
theorem EndsAs.validated {outcome : Result (ProviderOrder × Operation)} {after : Journal}
    (h : EndsAs s command accepted outcome after) : Validated s command outcome after := by
  by_cases haccepted : accepted
  · obtain ⟨hok, hcompletes⟩ := h.completes haccepted
    cases outcome with
    | ok value => exact hcompletes
    | error raised => cases hok
  · obtain ⟨herror, rfl⟩ := h.refused haccepted
    cases outcome with
    | ok value => cases herror
    | error raised => exact untouched_refl s

/-- The order and the server of a retry, behind an operation that is PENDING. -/
theorem quiet_requeue {reason : String} (hrows : rows.Of s) (horder : rows.order.status = .failed)
    (hstate : rows.server.state ∈ [.error, .requested]) (haccepted : accepted)
    (copy saved : Operation) (commits : List OrderCall) (hpending : saved.status = .pending) :
    Quiet scan (fun outcome _ after ↦ EndsAs s (.retryFailed reason) accepted outcome after)
      (do
        let order ← resetOrder rows.order
        requeueServer rows.server
        perform (.audit "order.retry" reason)
        return (order, copy)) chances ⟨{ s with operation := some saved }, commits⟩ := by
  refine quiet_resetOrder hrows.order (by simp [horder]) fun reset order commits hreset ↦ ?_
  unfold requeueServer
  by_cases herror : rows.server.state = .error
  · rw [if_pos herror]
    have hrequested : rows.server.resetToRequested =
        .ok { rows.server with state := .requested } := by
      simp [CloudServer.resetToRequested, rejectIf, herror, bind, Except.bind, pure, Except.pure]
    rw [hrequested]
    refine ends_bind (quiet_saveServer hrows.server fun now ↦ ends_pure ?_)
    refine quiet_read (fun _ ↦ rfl) (ends_pure (.of_completes haccepted ?_))
    exact ⟨⟨saved, rfl, hpending⟩, ⟨order, rfl, hreset⟩, ⟨_, rfl, rfl⟩⟩
  · rw [if_neg herror]
    refine ends_ok (quiet_read (fun _ ↦ rfl) (ends_pure (.of_completes haccepted ?_)))
    have hrequested : rows.server.state = .requested := by simpa [herror] using hstate
    exact ⟨⟨saved, rfl, hpending⟩, ⟨order, rfl, hreset⟩, ⟨rows.server, hrows.server, hrequested⟩⟩

/-- `retry_failed` completes when it is accepted, and otherwise raises before it writes. -/
theorem quiet_retryFailed (reason : String) :
    Quiet scan (fun outcome _ after ↦ EndsAs s (.retryFailed reason)
        (∃ rows, AcceptsRetry orderId s reason rows) outcome after)
      (retryFailed orderId reason) chances ⟨s, []⟩ := by
  refine ends_lift (fun _ hreason ↦ ?_) fun _ hblank ↦ .of_refused ?_
  swap
  · rintro ⟨rows, haccepts⟩
    exact haccepts.reason_ne (of_decide_eq_true (rejectIf_eq_error hblank))
  refine quiet_orderAndOperation (fun hmissing _ _ ↦ .of_refused ?_) fun rows hrows ↦ ?_
  · rintro ⟨rows, haccepts⟩
    exact hmissing rows haccepts.loaded
  refine ends_lift (fun _ hchecked ↦ ?_) fun _ hraised ↦ .of_refused ?_
  swap
  · rintro ⟨other, haccepts⟩
    obtain rfl := hrows.unique haccepts.loaded
    rw [haccepts.checked] at hraised
    cases hraised
  have hreason_ne : strip reason ≠ "" := of_decide_eq_false (rejectIf_eq_ok.mp hreason)
  obtain ⟨hfailed, hrest⟩ := rejectIf_bind_eq_ok.mp hchecked
  obtain ⟨hoperation, hserver⟩ := mem_of_rejectIf hrest
  have horder : rows.order.status = .failed := by simpa using hfailed
  have hstate : rows.server.state ∈ [.error, .requested] :=
    not_not.mp (of_decide_eq_false (rejectIf_eq_ok.mp hserver))
  unfold reopenOperation
  by_cases hreopen : rows.operation.status = .failed
  · rw [if_pos hreopen]
    have hreopened : rows.operation.reopenForRetry =
        .ok { rows.operation with status := .pending } := by
      simp [Operation.reopenForRetry, rejectIf, hreopen, bind, Except.bind, pure, Except.pure]
    rw [hreopened]
    refine ends_bind (quiet_saveOperation hrows.operation rfl (fun hrouting _ ↦ .of_refused ?_) ?_)
    · rintro ⟨other, haccepts⟩
      obtain rfl := hrows.unique haccepts.loaded
      rw [haccepts.unfenced hreopen] at hrouting
      cases hrouting
    · intro hnone saved hsaved
      refine ends_pure (quiet_requeue hrows horder hstate ⟨rows, ?_⟩ _ saved _ hsaved)
      exact ⟨hreason_ne, hrows, hchecked, fun _ ↦ hnone⟩
  · rw [if_neg hreopen]
    have hpending : rows.operation.status = .pending := by simpa [hreopen] using hoperation
    have hself : (⟨s, []⟩ : Journal) = ⟨{ s with operation := some rows.operation }, []⟩ := by
      rw [← hrows.operation]
    rw [hself]
    refine ends_ok (quiet_requeue hrows horder hstate ⟨rows, ?_⟩ _ rows.operation [] hpending)
    exact ⟨hreason_ne, hrows, hchecked, fun h ↦ absurd h hreopen⟩

/-- `resolve_not_created` completes when it is accepted, and otherwise raises before it writes. -/
theorem quiet_resolveNotCreated (reason : String) :
    Quiet scan (fun outcome _ after ↦ EndsAs s (.resolveNotCreated reason)
        (∃ rows, AcceptsNotCreated orderId s reason rows) outcome after)
      (resolveNotCreated orderId reason) chances ⟨s, []⟩ := by
  refine ends_lift (fun _ hreason ↦ ?_) fun _ hblank ↦ .of_refused ?_
  swap
  · rintro ⟨rows, haccepts⟩
    exact haccepts.reason_ne (of_decide_eq_true (rejectIf_eq_error hblank))
  refine quiet_orderAndOperation (fun hmissing _ _ ↦ .of_refused ?_) fun rows hrows ↦ ?_
  · rintro ⟨rows, haccepts⟩
    exact hmissing rows haccepts.loaded
  refine ends_lift (fun _ hchecked ↦ ?_) fun _ hraised ↦ .of_refused ?_
  swap
  · rintro ⟨other, haccepts⟩
    obtain rfl := hrows.unique haccepts.loaded
    rw [haccepts.checked] at hraised
    cases hraised
  obtain ⟨horder, hrest⟩ := mem_of_rejectIf hchecked
  obtain ⟨hoperation, -⟩ := rejectIf_bind_eq_ok.mp hrest
  have hunknown : rows.operation.status = .outcomeUnknown := by simpa using hoperation
  have habsent : rows.operation.markVerifiedAbsent =
      .ok { rows.operation with status := .pending } := by
    simp [Operation.markVerifiedAbsent, rejectIf, hunknown, bind, Except.bind, pure, Except.pure]
  rw [habsent]
  refine quiet_saveOperation hrows.operation rfl (fun hrouting _ ↦ .of_refused ?_) ?_
  · rintro ⟨other, haccepts⟩
    obtain rfl := hrows.unique haccepts.loaded
    rw [haccepts.unfenced] at hrouting
    cases hrouting
  intro hnone saved hsaved
  have hstatus : rows.order.status ∈ [OrderStatus.failed, .outcomeUnknown, .needsReview] :=
    List.mem_cons_of_mem _ horder
  refine quiet_resetOrder hrows.order hstatus fun reset order commits hreset ↦ ?_
  refine quiet_read (fun _ ↦ rfl) (ends_pure (.of_completes ⟨rows, ?_⟩ ?_))
  · exact ⟨of_decide_eq_false (rejectIf_eq_ok.mp hreason), hrows, hchecked, hnone⟩
  · exact ⟨⟨saved, rfl, hsaved⟩, ⟨order, rfl, hreset⟩⟩

/-- A refusal before any write validates, and spoils nothing. -/
theorem validated_refused (h : ¬ command.Spoils registry orderId s chances) :
    Validated s command (.error raised) ⟨s, []⟩ ↔ ¬ command.Spoils registry orderId s chances :=
  ⟨fun _ ↦ h, fun _ ↦ untouched_refl s⟩

theorem complete_of_allowed {op : Operation} {correlation : Operations.ProviderResponse}
    (hallowed : Operations.OperationStatus.completed ∈ op.status.allowed)
    (hrouting : correlation.createRouting = none) :
    ∃ completed, op.complete correlation = .ok completed ∧ completed.status = .completed ∧
      completed.attempts = op.attempts := by
  obtain ⟨completed, hcompleted⟩ : ∃ completed, op.complete correlation = .ok completed := by
    simp [Operation.complete, Operation.transitionTo, rejectIf, hrouting, hallowed, bind,
      Except.bind, pure, Except.pure]
  have hmoves := Operation.complete_moves hcompleted
  exact ⟨completed, hcompleted, hmoves.status_eq, hmoves.attempts_eq⟩

/-- The read-only validation of a provider order id. -/
theorem quiet_validateTicket {providerOrderId : String}
    {post : Result Unit → (ℕ → Chance) → Journal → Prop}
    (hrefused : ¬ ((chances 0).readFault = none ∧
      inconsistency order (chances 0).ticket = none) → ∀ raised, post (.error raised) (rest chances) j)
    (haccepted : (chances 0).readFault = none → inconsistency order (chances 0).ticket = none →
      post (.ok ()) (rest chances) j) :
    Quiet scan post (validateTicket orderId order providerOrderId) chances j := by
  refine quiet_readProvider (chances 0).ticket rfl rfl (fun hreadable ↦ ?_)
    fun raised hfault hprovider ↦ ?_
  · dsimp only
    cases hticket : inconsistency order (chances 0).ticket with
    | some fault => exact ends_throw (hrefused (fun h ↦ by rw [hticket] at h; cases h.2) _)
    | none => exact ends_pure (haccepted hreadable hticket)
  · dsimp only
    rw [if_pos hprovider]
    exact ends_throw (hrefused (fun h ↦ by rw [hfault] at h; cases h.1) _)

/-- A commit of an order that is SUBMITTED does not record a verdict on an ambiguous one. -/
theorem not_recordsVerdict_of_submitted {order copy : ProviderOrder} (hcopy : copy.status = .submitted)
    (hstatus : order.status ≠ .submitted) : ¬ RecordsVerdict order (.saveOrder copy) := by
  rintro (hcleared | ⟨-, hcleared⟩)
  · have hsame := congrArg ProviderOrder.status hcleared
    exact hstatus (hsame.symm.trans hcopy)
  · have hreview : copy.status = .needsReview := by
      have h := congrArg ProviderOrder.status hcleared
      exact h
    rw [hcopy] at hreview
    cases hreview

/-- The writes of `resolve_existing`, once its checks are passed. -/
theorem quiet_attachExisting {providerOrderId reason : String} {correlation : Operations.Facts}
    (hrows : rows.Of s)
    (hids : (s.books.holds.map (·.id)).Nodup)
    (horder : rows.order.status ∈ [OrderStatus.outcomeUnknown, .needsReview])
    (hunknown : rows.operation.status = .outcomeUnknown) :
    Quiet scan (fun outcome _ after ↦
        Validated s (.resolveExisting providerOrderId reason) outcome after ↔
          rows.operation.response.createRouting = none)
      (do
        let order ← rows.order.resolveSubmitted providerOrderId
        let _ ← perform (.saveOrder order)
        let operation ← rows.operation.complete { facts := correlation }
        let _ ← perform (.saveOperation operation)
        let settled ← ensureOrderPaymentSettled order rows.server
        perform (.audit "order.resolve_existing" reason)
        return (settled.2, operation)) chances ⟨s, []⟩ := by
  have hresolved : rows.order.resolveSubmitted providerOrderId = .ok { rows.order with
      providerOrderId := some providerOrderId, status := .submitted, error := none } := by
    unfold ProviderOrder.resolveSubmitted
    rw [rejectIf_bind_eq_ok]
    exact ⟨decide_eq_false (not_not.mpr horder), rfl⟩
  rw [hresolved]
  refine quiet_saveOrder hrows.order fun now ↦ ?_
  have hallowed : Operations.OperationStatus.completed ∈ rows.operation.status.allowed := by
    rw [hunknown]
    decide
  have hunrouted : ({ facts := correlation } : Operations.ProviderResponse).createRouting = none :=
    rfl
  obtain ⟨completed, hcompleted, hstatus, hattempts⟩ := complete_of_allowed hallowed hunrouted
  rw [hcompleted]
  refine quiet_saveOperation hrows.operation hattempts (fun hrouting raised ↦ ?_)
    fun hrouting saved hsaved ↦ ?_
  · refine ⟨fun h ↦ ?_, fun h ↦ by rw [h] at hrouting; cases hrouting⟩
    obtain ⟨order, horderRow, hverdict⟩ := h.commits _ (List.mem_append_right _ List.mem_cons_self)
    obtain rfl := Option.some.inj (hrows.order.symm.trans horderRow)
    refine absurd hverdict (not_recordsVerdict_of_submitted rfl ?_)
    intro hsubmitted
    rw [hsubmitted] at horder
    exact absurd horder (by decide)
  · refine ends_bind ((quiet_settlement rfl hids).mono fun outcome oracles after hends ↦ ?_)
    have hsavedStatus : saved.status = .completed := hsaved.trans hstatus
    cases outcome with
    | error raised =>
      refine absurd ?_ (hends.raised raised rfl)
      rintro _ ⟨⟩
      rw [hsavedStatus]
      exact Or.inl List.mem_cons_self
    | ok settled =>
      refine quiet_read (fun _ ↦ rfl) (ends_pure ?_)
      refine ⟨fun _ ↦ hrouting, fun _ ↦ ⟨?_, ?_⟩⟩
      · obtain ⟨copy, row, later, hrow, hcleared⟩ := hends.orderRow
        have hstatus := congrArg ProviderOrder.status hcleared
        have hid := congrArg ProviderOrder.providerOrderId hcleared
        exact ⟨_, hrow, hstatus, hid⟩
      · refine ⟨saved, ?_, hsavedStatus⟩
        rw [hends.completed saved rfl hsavedStatus]
        rfl

/-- `resolve_existing` validates before it writes, unless its operation carries a receipt. -/
theorem quiet_resolveExisting (providerOrderId reason : String)
    (hids : (s.books.holds.map (·.id)).Nodup) :
    Quiet scan (fun outcome _ after ↦
        Validated s (.resolveExisting providerOrderId reason) outcome after ↔
          ¬ (ManualCommand.resolveExisting providerOrderId reason).Spoils registry orderId s chances)
      (resolveExisting registry orderId providerOrderId reason) chances ⟨s, []⟩ := by
  refine ends_lift (fun _ hreason ↦ ?_) fun _ hblank ↦ validated_refused ?_
  swap
  · rintro ⟨rows, haccepts, -⟩
    exact haccepts.reason_ne (of_decide_eq_true (rejectIf_eq_error hblank))
  refine ends_lift (fun _ hid ↦ ?_) fun _ hblank ↦ validated_refused ?_
  swap
  · rintro ⟨rows, haccepts, -⟩
    exact haccepts.id_ne (of_decide_eq_true (rejectIf_eq_error hblank))
  refine quiet_orderAndOperation (fun hmissing _ _ ↦ validated_refused ?_) fun rows hrows ↦ ?_
  · rintro ⟨rows, haccepts, -⟩
    exact hmissing rows haccepts.loaded
  refine ends_lift (fun _ hchecked ↦ ?_) fun raised hraised ↦ validated_refused ?_
  swap
  · rintro ⟨other, haccepts, -⟩
    obtain rfl := hrows.unique haccepts.loaded
    rw [haccepts.checked] at hraised
    cases hraised
  refine ends_lift (fun _ hordering ↦ ?_) fun raised hraised ↦ validated_refused ?_
  swap
  · rintro ⟨other, haccepts, -⟩
    obtain rfl := hrows.unique haccepts.loaded
    rw [haccepts.ordering] at hraised
    cases hraised
  refine ends_bind (quiet_validateTicket (fun hrefused raised ↦ validated_refused ?_)
    fun hreadable hconsistent ↦ ?_)
  · rintro ⟨other, haccepts, -⟩
    obtain rfl := hrows.unique haccepts.loaded
    exact hrefused ⟨haccepts.readable, haccepts.consistent⟩
  obtain ⟨horder, hrest⟩ := mem_of_rejectIf hchecked
  have hunknown : rows.operation.status = .outcomeUnknown := by
    simpa using rejectIf_eq_ok.mp hrest
  refine (quiet_attachExisting hrows hids horder hunknown).mono fun outcome _ after hends ↦ ?_
  rw [hends]
  constructor
  · rintro hnone ⟨other, haccepts, hrouting⟩
    obtain rfl := hrows.unique haccepts.loaded
    rw [hnone] at hrouting
    cases hrouting
  · intro hspoils
    by_contra hrouting
    refine hspoils ⟨rows, ?_, Option.isSome_iff_ne_none.mpr hrouting⟩
    exact {
      reason_ne := of_decide_eq_false (rejectIf_eq_ok.mp hreason)
      id_ne := of_decide_eq_false (rejectIf_eq_ok.mp hid)
      loaded := hrows
      checked := hchecked
      ordering := hordering
      readable := hreadable
      consistent := hconsistent }

/-! #### Activation -/

/-- Activation starts a server that is on its way, and leaves every other in its state. -/
theorem startRunning_ok (server : CloudServer) : ∃ started, startRunning server = .ok started ∧
    started.providerServerId = server.providerServerId ∧
    (started.state ∈ [.requested, .provisioning, .error] ↔ server.state = .error) := by
  unfold startRunning CloudServer.transitionTo
  cases hstate : server.state <;>
    simp [hstate, rejectIf, Compute.ServerLifecycleState.allowed, bind, Except.bind, pure,
      Except.pure, raise]

theorem attachResource_providerServerId (server : CloudServer) (vpsId : String)
    (remote : Option ProviderServer) :
    (attachResource server vpsId remote).providerServerId.isSome = true := by
  cases remote <;> rfl

theorem attachResource_state (server : CloudServer) (vpsId : String)
    (remote : Option ProviderServer) : (attachResource server vpsId remote).state = server.state := by
  cases remote <;> rfl

theorem renewalRecord_cases (serverId : Uuid) (info : RenewalInfo)
    (existing : Option Renewals.RenewalRecord) :
    (RenewalTerms info.customerPriceMinor info.currency ∧
        ∃ record, renewalRecord serverId info existing = .ok record) ∨
      (¬ RenewalTerms info.customerPriceMinor info.currency ∧
        ∃ raised, renewalRecord serverId info existing = .error raised) := by
  unfold RenewalTerms renewalRecord Renewals.checkRenewalTerms
  by_cases hpositive : 0 < info.customerPriceMinor
  · by_cases hlength : info.currency.length = 3
    · left
      refine ⟨⟨hpositive, hlength⟩, ?_⟩
      rw [dif_pos hpositive, dif_pos hlength]
      exact ⟨_, rfl⟩
    · right
      refine ⟨fun h ↦ hlength h.2, ?_⟩
      rw [dif_pos hpositive, dif_neg hlength]
      exact ⟨_, rfl⟩
  · right
    refine ⟨fun h ↦ hpositive h.1, ?_⟩
    rw [dif_neg hpositive]
    exact ⟨_, rfl⟩

/-- What the activation of an order comes to when no repository fails. -/
def ActivationEnds (server : CloudServer) (order : ProviderOrder) (offer : SellableOffer)
    (outcome : Result (ProviderOrder × RenewalInfo)) (after : Journal) : Prop :=
  match outcome with
  | .ok _ => (order.status ∈ [OrderStatus.submitted, .provisioning, .active] ∧ RenewalTerms offer.sellingPriceMinor offer.sellingCurrency) ∧
      (∃ row ∈ after.rows.order, row.status = .active) ∧
      (∃ row ∈ after.rows.server, row.providerServerId.isSome = true ∧
        (row.state ∈ [.requested, .provisioning, .error] ↔ server.state = .error)) ∧
      after.rows.renewal.isSome = true
  | .error _ => ¬ (order.status ∈ [OrderStatus.submitted, .provisioning, .active] ∧
      RenewalTerms offer.sellingPriceMinor offer.sellingCurrency) ∧ ∃ copy, .saveServer copy ∈ after.commits

theorem quiet_readServer {vpsId : String} {f : Option ProviderServer → OrderProgram β}
    (h : ∀ remote, Quiet scan post (f remote) (rest chances) j) :
    Quiet scan post (readServer vpsId >>= f) chances j := by
  refine ends_bind (quiet_readProvider (chances 0).found rfl rfl (fun _ ↦ ends_pure (h _))
    fun raised _ hprovider ↦ ?_)
  dsimp only
  rw [if_pos hprovider]
  exact ends_pure (h none)

theorem quiet_contractEndsAt {server : CloudServer} {f : Option String → OrderProgram β}
    (h : ∀ endsAt later, Quiet scan post (f endsAt) later j) :
    Quiet scan post (contractEndsAt registry server >>= f) chances j := by
  unfold contractEndsAt
  split
  · cases registry server.providerKey server.credentialAccountId with
    | error raised => exact ends_ok (h none chances)
    | ok provider =>
      refine ends_bind (quiet_readProvider (chances 0).found rfl rfl (fun _ ↦ ?_)
        fun raised _ _ ↦ ends_pure (h none _))
      cases (chances 0).found with
      | none => exact ends_pure (h none _)
      | some remote => exact ends_pure (h _ _)
  · exact ends_ok (h none chances)

/-- The renewal record of an activation. -/
theorem quiet_upsertRenewal {server : CloudServer} {offer : SellableOffer}
    {f : RenewalInfo → OrderProgram β}
    (hrefused : ¬ RenewalTerms offer.sellingPriceMinor offer.sellingCurrency → ∀ raised later, post (.error raised) later j)
    (hrecorded : RenewalTerms offer.sellingPriceMinor offer.sellingCurrency → ∀ info record later,
      Quiet scan post (f info) later ⟨{ j.rows with renewal := some record }, j.commits⟩) :
    Quiet scan post (upsertRenewal registry server offer order >>= f) chances j := by
  refine ends_bind (quiet_contractEndsAt fun endsAt later ↦ ?_)
  refine quiet_now ?_
  refine quiet_read (fun _ ↦ rfl) ?_
  rcases renewalRecord_cases server.id
    (renewalInfo server offer order endsAt (later 0).now) j.rows.renewal with
    ⟨hterms, record, hrecord⟩ | ⟨hterms, raised, hraised⟩
  · rw [hrecord]
    exact ends_ok (quiet_write rfl (ends_pure (hrecorded hterms _ _ _)))
  · rw [hraised]
    exact ends_error (hrefused hterms raised _)

/-- What the activation of an order comes to. -/
theorem quiet_activate {server row : CloudServer} {order orderRow : ProviderOrder}
    (offer : SellableOffer) (vpsId : String) (hserver : j.rows.server = some row)
    (horder : j.rows.order = some orderRow) :
    Quiet scan (fun outcome _ after ↦ ActivationEnds server order offer outcome after)
      (activate registry server order offer vpsId) chances j := by
  refine quiet_readServer fun remote ↦ ?_
  obtain ⟨started, hstarted, hid, hstate⟩ := startRunning_ok (attachResource server vpsId remote)
  rw [hstarted]
  rw [attachResource_state] at hstate
  have hprovider : started.providerServerId.isSome = true := by
    rw [hid]
    exact attachResource_providerServerId server vpsId remote
  refine quiet_saveServer hserver fun now ↦ ?_
  by_cases hstatus : order.status ∈ [OrderStatus.submitted, .provisioning, .active]
  · have hactive : order.markActive = .ok { order with status := .active, error := none } := by
      unfold ProviderOrder.markActive
      rw [rejectIf_bind_eq_ok]
      exact ⟨decide_eq_false (not_not.mpr hstatus), rfl⟩
    rw [hactive]
    refine quiet_saveOrder horder fun later ↦ ?_
    refine quiet_upsertRenewal (fun hterms raised oracles ↦ ?_) fun hterms info record oracles ↦ ?_
    · exact ⟨fun h ↦ hterms h.2, _, List.mem_append_left _ (List.mem_append_right _ List.mem_cons_self)⟩
    · refine quiet_read (fun _ ↦ rfl) ?_
      refine quiet_write rfl (ends_pure ?_)
      exact ⟨⟨hstatus, hterms⟩, ⟨_, rfl, rfl⟩, ⟨_, rfl, hprovider, hstate⟩, rfl⟩
  · have hrefused : ∃ raised, order.markActive = .error raised := by
      simp [ProviderOrder.markActive, rejectIf, hstatus, raise, bind, Except.bind]
    obtain ⟨raised, hraised⟩ := hrefused
    rw [hraised]
    exact ends_error ⟨fun h ↦ hstatus h.1, _, List.mem_append_right _ List.mem_cons_self⟩

/-! #### `resolve_vps` -/

/-- An order that is sent to review on a verdict of NEEDS_REVIEW records that verdict. -/
theorem recordsVerdict_markNeedsReview {order copy : ProviderOrder}
    (hreview : copy.settlementStatus = .needsReview)
    (hcleared : copy.settlementCleared = order.settlementCleared) (error : String) :
    RecordsVerdict order (.saveOrder (copy.markNeedsReview error)) := by
  unfold ProviderOrder.markNeedsReview
  split
  · exact Or.inl hcleared
  · refine Or.inr ⟨hreview, ?_⟩
    rw [← hcleared]
    rfl

/-- The read-only validation of a provider server id. -/
theorem quiet_validateVps {offer : SellableOffer} {vpsId : String} {f : Unit → OrderProgram β}
    (hrefused : ¬ ((chances 0).readFault = none ∧ ∃ remote, (chances 0).found = some remote ∧
      checkRemote vpsId offer remote = .ok ()) → ∀ raised, post (.error raised) (rest chances) j)
    (haccepted : ∀ remote, (chances 0).readFault = none → (chances 0).found = some remote →
      checkRemote vpsId offer remote = .ok () → Quiet scan post (f ()) (rest chances) j) :
    Quiet scan post (validateVps offer vpsId >>= f) chances j := by
  refine ends_bind (quiet_readProvider (chances 0).found rfl rfl (fun hreadable ↦ ?_)
    fun raised hfault hprovider ↦ ?_)
  · cases hfound : (chances 0).found with
    | none => exact ends_throw (hrefused (fun ⟨_, _, h, _⟩ ↦ by rw [hfound] at h; cases h) _)
    | some remote =>
      refine ends_done ?_
      cases hchecked : checkRemote vpsId offer remote with
      | ok _ => exact haccepted remote hreadable hfound hchecked
      | error raised =>
        refine hrefused (fun ⟨_, other, hother, hagrees⟩ ↦ ?_) _
        obtain rfl := Option.some.inj (hfound.symm.trans hother)
        rw [hchecked] at hagrees
        cases hagrees
  · dsimp only
    rw [if_pos hprovider]
    exact ends_throw (hrefused (fun h ↦ by rw [hfault] at h; cases h.1) _)

/-- The settlement barrier of `resolve_vps`: only a settled purchase comes through. -/
theorem quiet_requireSettled {f : ProviderOrder → OrderProgram β} (hrows : rows.Of s)
    (hids : (s.books.holds.map (·.id)).Nodup)
    (hrefused : ¬ (Settles s rows.server ∧ Repairable (some rows.operation)) →
      ∀ raised later after, Untouched s after → post (.error raised) later after)
    (hsettled : Settles s rows.server → Repairable (some rows.operation) →
      ∀ copy row later after, copy.status = rows.order.status →
        after.rows.server = some rows.server → after.rows.order = some row →
        Quiet scan post (f copy) later after) :
    Quiet scan post (requireSettled rows.order rows.server >>= f) chances ⟨s, []⟩ := by
  refine ends_bind (ends_bind ((quiet_settlement hrows.order hids).mono
    fun outcome later after hends ↦ ?_))
  have hoperation : s.operation = some rows.operation := hrows.operation
  have huntouched : (∀ copy, outcome ≠ .ok (.settled, copy)) → Untouched s after := by
    intro hunsettled
    refine ⟨hends.serverRow, hends.operationRow hunsettled, fun commit hcommit ↦ ?_⟩
    rcases hends.commits hunsettled commit hcommit with hnone | hverdict
    · cases hnone
    · exact ⟨rows.order, hrows.order, hverdict⟩
  cases outcome with
  | error raised =>
    refine hrefused (fun h ↦ hends.raised raised rfl ?_) _ _ _ (huntouched (by rintro _ ⟨⟩))
    rw [show (Journal.rows ⟨s, []⟩).operation = some rows.operation from hoperation]
    exact h.2
  | ok settled =>
    obtain ⟨verdict, copy⟩ := settled
    have hiff := hends.settled_iff verdict copy rfl
    rw [show (Journal.rows ⟨s, []⟩).operation = some rows.operation from hoperation] at hiff
    cases verdict with
    | settled =>
      obtain ⟨hsettles, hrepairable⟩ := hiff.mp rfl
      obtain ⟨written, row, now, hrow, -⟩ := hends.orderRow
      have hstatus := congrArg ProviderOrder.status (hends.copy_eq _ copy rfl)
      exact ends_pure (hsettled hsettles hrepairable copy _ later after hstatus
        (hends.serverRow.trans hrows.server) hrow)
    | retryLater =>
      refine ends_throw (hrefused (fun h ↦ ?_) _ _ _ (huntouched (by rintro _ ⟨⟩)))
      cases hiff.mpr h
    | needsReview =>
      have hreview := hends.review copy rfl
      have hcleared := hends.copy_eq _ copy rfl
      obtain ⟨written, row, now, hrow, -⟩ := hends.orderRow
      have hbefore := huntouched (by rintro _ ⟨⟩)
      refine ends_bind (quiet_saveOrder hrow fun now ↦ ends_pure (ends_throw ?_))
      refine hrefused (fun h ↦ ?_) _ _ _ ⟨hbefore.server, hbefore.operation, fun commit hcommit ↦ ?_⟩
      · cases hiff.mpr h
      · rcases List.mem_append.mp hcommit with hold | hnew
        · exact hbefore.commits commit hold
        · rw [List.mem_singleton.mp hnew]
          exact ⟨rows.order, hrows.order, recordsVerdict_markNeedsReview hreview hcleared _⟩

/-- The offer of an order. -/
theorem quiet_requireOffer {f : SellableOffer → OrderProgram β}
    (hmissing : ¬ (∃ offer, order.offerId.isSome = true ∧ j.rows.offer = some offer) →
      ∀ raised later, post (.error raised) later j)
    (hloaded : ∀ offer, order.offerId.isSome = true → j.rows.offer = some offer →
      Quiet scan post (f offer) (rest chances) j) :
    Quiet scan post (requireOffer orderId order >>= f) chances j := by
  unfold requireOffer loadOffer
  cases hid : order.offerId with
  | none =>
    refine ends_bind (ends_ok (ends_throw (hmissing ?_ _ _)))
    rintro ⟨offer, hsome, -⟩
    rw [hid] at hsome
    cases hsome
  | some offerId =>
    refine ends_bind (quiet_read (fun _ ↦ rfl) ?_)
    have hpresent : order.offerId.isSome = true := by rw [hid]; rfl
    cases hoffer : j.rows.offer with
    | none =>
      refine ends_throw (hmissing ?_ _ _)
      rintro ⟨offer, -, hsome⟩
      rw [hoffer] at hsome
      cases hsome
    | some offer => exact ends_pure (hloaded offer hpresent hoffer)

/-- `resolve_vps` validates before it writes, unless the activation of its settled purchase fails. -/
theorem quiet_resolveVps (vpsId reason : String) (hids : (s.books.holds.map (·.id)).Nodup) :
    Quiet scan (fun outcome _ after ↦
        Validated s (.resolveVps vpsId reason) outcome after ↔
          ¬ (ManualCommand.resolveVps vpsId reason).Spoils registry orderId s chances)
      (resolveVps registry orderId vpsId reason) chances ⟨s, []⟩ := by
  refine ends_lift (fun _ hreason ↦ ?_) fun _ hblank ↦ validated_refused ?_
  swap
  · rintro ⟨rows, offer, remote, haccepts, -⟩
    exact haccepts.reason_ne (of_decide_eq_true (rejectIf_eq_error hblank))
  refine ends_lift (fun _ hid ↦ ?_) fun _ hblank ↦ validated_refused ?_
  swap
  · rintro ⟨rows, offer, remote, haccepts, -⟩
    exact haccepts.id_ne (of_decide_eq_true (rejectIf_eq_error hblank))
  refine quiet_orderAndOperation (fun hmissing _ _ ↦ validated_refused ?_) fun rows hrows ↦ ?_
  · rintro ⟨rows, offer, remote, haccepts, -⟩
    exact hmissing rows haccepts.loaded
  refine ends_lift (fun _ hchecked ↦ ?_) fun raised hraised ↦ validated_refused ?_
  swap
  · rintro ⟨other, offer, remote, haccepts, -⟩
    obtain rfl := hrows.unique haccepts.loaded
    rw [haccepts.checked] at hraised
    cases hraised
  refine quiet_requireOffer (fun hmissing raised later ↦ validated_refused ?_)
    fun offer hofferId hoffer ↦ ?_
  · rintro ⟨other, offer, remote, haccepts, -⟩
    obtain rfl := hrows.unique haccepts.loaded
    exact hmissing ⟨offer, haccepts.offerId, haccepts.offerRow⟩
  refine ends_lift (fun _ hordering ↦ ?_) fun raised hraised ↦ validated_refused ?_
  swap
  · rintro ⟨other, offer, remote, haccepts, -⟩
    obtain rfl := hrows.unique haccepts.loaded
    rw [haccepts.ordering] at hraised
    cases hraised
  refine quiet_validateVps (fun hrefused raised ↦ validated_refused ?_)
    fun remote hreadable hfound hagrees ↦ ?_
  · rintro ⟨other, offer', remote, haccepts, -⟩
    obtain rfl := hrows.unique haccepts.loaded
    obtain rfl := Option.some.inj (hoffer.symm.trans haccepts.offerRow)
    exact hrefused ⟨haccepts.readable, remote, haccepts.found, haccepts.agrees⟩
  have haccepts : AcceptsVps registry orderId s vpsId reason (chances 4) rows offer remote := {
    reason_ne := of_decide_eq_false (rejectIf_eq_ok.mp hreason)
    id_ne := of_decide_eq_false (rejectIf_eq_ok.mp hid)
    loaded := hrows
    checked := hchecked
    offerId := hofferId
    offerRow := hoffer
    ordering := hordering
    readable := hreadable
    found := hfound
    agrees := hagrees }
  refine quiet_requireSettled hrows hids (fun hunsettled raised later after huntouched ↦ ?_)
    fun hsettles hrepairable copy row later after hstatus hserver horder ↦ ?_
  · refine iff_of_true huntouched ?_
    rintro ⟨other, offer', remote', haccepts', hsettles, hrepairable, -⟩
    obtain rfl := hrows.unique haccepts'.loaded
    exact hunsettled ⟨hsettles, hrepairable⟩
  have hspoils : (ManualCommand.resolveVps vpsId reason).Spoils registry orderId s chances ↔
      ActivationFails rows offer := by
    constructor
    · rintro ⟨other, offer', remote', haccepts', -, -, hfails⟩
      obtain rfl := hrows.unique haccepts'.loaded
      obtain rfl := Option.some.inj (hoffer.symm.trans haccepts'.offerRow)
      exact hfails
    · exact fun hfails ↦ ⟨rows, offer, remote, haccepts, hsettles, hrepairable, hfails⟩
  rw [hspoils]
  obtain ⟨-, hrest⟩ := rejectIf_bind_eq_ok.mp hchecked
  obtain ⟨hadmitted, -⟩ := mem_of_rejectIf hrest
  have hreview : rows.order.status ≠ .needsReview ↔
      copy.status ∈ [OrderStatus.submitted, .provisioning, .active] := by
    rw [hstatus]
    cases hcase : rows.order.status <;> simp_all
  refine ends_bind ((quiet_activate offer vpsId hserver horder).mono fun outcome _ after hends ↦ ?_)
  cases outcome with
  | error raised =>
    obtain ⟨hrefused, written, hwritten⟩ := hends
    refine iff_of_false (fun h ↦ ?_) (fun h ↦ ?_)
    · obtain ⟨order, -, hverdict⟩ := h.commits _ hwritten
      exact hverdict
    · refine hrefused ⟨hreview.mp fun hneeds ↦ h (Or.inl hneeds), ?_⟩
      by_contra hterms
      exact h (Or.inr (Or.inr hterms))
  | ok activated =>
    obtain ⟨⟨hactive, hterms⟩, horderRow, hserverRow, hrenewal⟩ := hends
    refine quiet_read (fun _ ↦ rfl) (ends_pure ?_)
    obtain ⟨started, hstarted, hid, hstate⟩ := hserverRow
    constructor
    · rintro ⟨-, ⟨other, hother, -, hserving⟩, -⟩ (hneeds | herror | hmissing)
      · exact hreview.mpr hactive hneeds
      · obtain rfl := Option.some.inj (hstarted.symm.trans hother)
        exact hserving (hstate.mpr herror)
      · exact hmissing hterms
    · intro h
      exact ⟨horderRow, ⟨started, hstarted, hid, fun hmem ↦ h (Or.inr (Or.inl (hstate.mp hmem)))⟩,
        hrenewal⟩

/-- A command that validates on every input, and spoils on none. -/
theorem quiet_never_spoils {p : OrderProgram (ProviderOrder × Operation)}
    (hends : Quiet scan (fun outcome _ after ↦ EndsAs s command accepted outcome after) p chances j)
    (hspoils : ¬ command.Spoils registry orderId s chances) :
    Quiet scan (fun outcome _ after ↦ Validated s command outcome after ↔
      ¬ command.Spoils registry orderId s chances) p chances j :=
  hends.mono fun _ _ _ h ↦ iff_of_true h.validated hspoils

end Commands

namespace ManualRuns

open PurchaseRuns

/-- The server of a purchase under the key `buy`. -/
def server (state : Compute.ServerLifecycleState) : CloudServer where
  id := serverId
  userId := userId
  providerKey := "leaseweb"
  state := state
  idempotencyKey := some "buy"

/-- Its order. -/
def order (status : OrderStatus) (providerOrderId : Option String) : ProviderOrder where
  id := rowId
  serverId := serverId
  operationKey := orderOperationKey serverId
  providerKey := "leaseweb"
  offerId := some offerId
  status := status
  providerOrderId := providerOrderId

/-- Its operation. -/
def operation (status : Operations.OperationStatus) : Operation where
  id := rowId
  operationKey := orderOperationKey serverId
  operationType := .orderCreate
  resourceType := "server_order"
  resourceId := rowId
  providerKey := "leaseweb"
  status := status
  attempts := 1

/-- Its captured hold, and the charge in the ledger. -/
def paidBooks : Wallets.Books where
  wallet := ⟨walletId, userId, 4000, "EUR"⟩
  ledger := [⟨1000, "EUR", .charge, captureKey (holdKey "buy"), some "hold", some rowId, ""⟩]
  holds := [⟨rowId, walletId, 1000, "EUR", holdKey "buy", .captured, some 0, none⟩]

/-- A paid order that waits for its server, in a given status. -/
def awaiting (status : OrderStatus) : Purchase where
  books := paidBooks
  server := some (server .provisioning)
  order := some (order status (some "po-1"))
  operation := some (operation .completed)
  offer := some PurchaseRuns.offer

/-- A provider with an ordering port. -/
def registry : Registry :=
  fun _ _ ↦ .ok ⟨true, false, false, false, false⟩

/-- The provider has the server. -/
def found : Chance :=
  { chance with found := some ⟨"vps-1", "running", none, none, none, "", ""⟩ }

/-- The run of a command on a paid order, while the provider has the server. -/
def run (command : ManualCommand) (s : Purchase) : Result (ProviderOrder × Operation) × Journal :=
  (command.program registry rowId).eval (OrderCall.journaled scan) (fun _ ↦ found) ⟨s, []⟩

/-- The operator has seen the server in the portal. -/
def command : ManualCommand :=
  .resolveVps "vps-1" "seen in the portal"

end ManualRuns

/-- A command that raises with a provider's id on a server that had none has not validated. -/
theorem not_validated_of_attached {s : Purchase} {command : ManualCommand}
    {outcome : Result (ProviderOrder × Operation)} {after : Journal}
    (hbefore : s.server.bind (·.providerServerId) = none) (hraised : outcome.isOk = false)
    (hafter : (after.rows.server.bind (·.providerServerId)).isSome = true) :
    ¬ Validated s command outcome after := by
  intro h
  cases outcome with
  | ok value => cases hraised
  | error raised =>
    rw [Untouched.server h, hbefore] at hafter
    cases hafter

end CloudPlatform.Orders
