import CloudPlatform.Orders.Settlement
import CloudPlatform.Transition.Evaluation
import CloudPlatform.Wallets.HoldServiceAlone

/-!
# Runs without repository failures

One workflow that runs alone while every repository call is served: only a read of the provider may
fail, and only with an exception of the provider's. A `Journal` keeps, beside the rows, the writes of
server, order and operation rows that were committed. `quiet_settlement` says what the settlement
barrier comes to in such a run: it returns SETTLED exactly if the purchase `Settles`, and short of
that it commits nothing but its verdict.
-/

namespace CloudPlatform.Orders

open Compute (CloudServer)
open Operations (Operation)
open Providers
open Transition
open Wallets (Books Hold HoldCall HoldProgram LedgerEntry captureEntry postEntry postEntry_duplicate
  postEntry_new)
open Wallets.Books (entry_of_ledger hold_of_mem)
open Wallets.HoldService (captureKey)

/-! ### A capture that runs alone -/

/-- The hold can be captured, and the charge of its key is an entry that can be read back. -/
structure Payable (books : Books) (hold : Hold) (key : String) : Prop where
  unreleased : hold.status ≠ .released
  covered : hold.status = .created → hold.amount ≤ books.wallet.balance
  readable : ((books.entry (captureKey key)).map (·.amount)).getD hold.amount ≠ 0

section Capture

variable {books : Books} {hold : Hold} {key : String} {chances : ℕ → HoldCall.Chance}

/-- What the capture of a hold comes to: short of an exception the charge of its key is in the
ledger. -/
def CaptureEnds (books : Books) (hold : Hold) (key : String) : Result Hold → Books → Prop
  | .ok _, after => ∃ entry, after.entry (captureKey key) = some entry ∧
      (entry.amount ≠ 0 ↔ Payable books hold key)
  | .error _, _ => ¬ Payable books hold key

/-- The posting of the charge once the hold is captured. -/
theorem ends_postCharge {m : Books} (captured : Hold) (hwallet : m.wallet.id = hold.walletId)
    (hentry : m.entry (captureKey key) = books.entry (captureKey key))
    (hpayable : Payable books hold key ↔
      ((books.entry (captureKey key)).map (·.amount)).getD hold.amount ≠ 0) :
    Ends HoldCall.handle (fun outcome _ after ↦ CaptureEnds books hold key outcome after)
      (Wallets.HoldService.postOnce (captureEntry hold.walletId hold key) >>= fun _ ↦ pure captured)
      chances m := by
  have hreference : optionalUuid (captureEntry hold.walletId hold key).referenceId =
    .ok (some hold.id) := optionalUuid_text hold.id
  refine ends_bind (ends_tryCatch (ends_perform ?_))
  rw [← hentry] at hpayable
  rw [show HoldCall.handle (.post (captureEntry hold.walletId hold key)) (chances 0) m =
    ((postEntry m (captureEntry hold.walletId hold key)).2,
      (postEntry m (captureEntry hold.walletId hold key)).1) from rfl]
  cases hfound : m.entry (captureKey key) with
  | some entry =>
    rw [hfound, Option.map_some, Option.getD_some] at hpayable
    obtain ⟨raised, hkind, hposted⟩ := postEntry_duplicate hreference hwallet hfound
    rw [hposted]
    dsimp only
    rw [if_pos hkind]
    exact ends_pure (ends_pure ⟨entry, hfound, hpayable.symm⟩)
  | none =>
    rw [hfound, Option.map_none, Option.getD_none] at hpayable
    rw [postEntry_new hreference hwallet hfound]
    by_cases hzero : (captureEntry hold.walletId hold key).amount = 0
    · rw [if_pos hzero]
      exact ends_throw fun h ↦ hpayable.mp h hzero
    · rw [if_neg hzero]
      refine ends_pure (ends_pure ⟨(captureEntry hold.walletId hold key).row (some hold.id), ?_,
        hpayable.symm⟩)
      rw [entry_of_ledger rfl, hfound]
      exact if_pos rfl

/-- A hold of the wallet that is captured while no other caller is there. -/
theorem ends_captureHold (hhold : books.hold hold.id = some hold)
    (hwallet : books.wallet.id = hold.walletId) :
    Ends HoldCall.handle (fun outcome _ after ↦ CaptureEnds books hold key outcome after)
      (Wallets.HoldService.captureHold hold.walletId hold.id key) chances books := by
  unfold Wallets.HoldService.captureHold Wallets.HoldService.resolveHold
  refine ends_bind (ends_perform ?_)
  simp only [HoldCall.handle, hhold]
  refine ends_pure ?_
  dsimp only
  by_cases hreleased : hold.status = .released
  · refine ends_lift (fun _ hguard ↦ ?_) fun _ _ ↦ fun hpayable ↦ hpayable.unreleased hreleased
    exact absurd hreleased (of_decide_eq_false (rejectIf_eq_ok.mp hguard))
  refine ends_lift (fun _ _ ↦ ?_) fun raised hraised ↦ ?_
  swap
  · simp [rejectIf, hreleased] at hraised
  refine ends_bind ?_
  unfold Wallets.HoldService.captureCreated
  by_cases hcreated : hold.status = .created
  · rw [if_pos hcreated]
    refine ends_perform ?_
    by_cases hcovered : hold.amount ≤ books.wallet.balance
    · rw [show HoldCall.handle (.capture hold.id) (rest chances 0) books =
        (.ok (some { hold with status := .captured, capturedAt := some (rest chances 0).now }),
          (books.withBalance (books.wallet.balance - hold.amount)).setHold
            { hold with status := .captured, capturedAt := some (rest chances 0).now }) by
        simp only [HoldCall.handle, Wallets.captureHold, hhold, if_pos hcreated]
        simp [rejectIf, hwallet, not_lt.mpr hcovered, transaction, bind, Except.bind, pure,
          Except.pure]]
      exact ends_pure <| ends_postCharge (m := (books.withBalance _).setHold _) _ hwallet rfl
        ⟨fun h ↦ h.readable, fun h ↦ ⟨hreleased, fun _ ↦ hcovered, h⟩⟩
    · obtain ⟨raised, hraised⟩ : ∃ raised,
          HoldCall.handle (.capture hold.id) (rest chances 0) books = (.error raised, books) := by
        simp [HoldCall.handle, Wallets.captureHold, hhold, hcreated, rejectIf, hwallet,
          not_le.mp hcovered, transaction, bind, Except.bind, raise]
      rw [hraised]
      exact fun h ↦ hcovered (h.covered hcreated)
  · rw [if_neg hcreated]
    refine ends_pure ?_
    exact ends_postCharge hold hwallet rfl
      ⟨fun h ↦ h.readable, fun h ↦ ⟨hreleased, fun h ↦ absurd h hcreated, h⟩⟩

end Capture

/-! ### Journals -/

/-- The calls that write a server, order or operation row. -/
def OrderCall.writesRow : OrderCall → Bool
  | .createServer .. | .saveServer _ | .createOrder _ | .saveOrder _ | .createOperation ..
  | .claim | .saveOperation _ => true
  | _ => false

/-- The calls that read at the provider. -/
def OrderCall.readsProvider : OrderCall → Bool
  | .getProduct .. | .validateOffer .. | .getOrder _ | .getServer _ | .matchVps _
  | .recoverOrder .. | .recoverServer _ => true
  | _ => false

/-- The provider's exception that a read meets. -/
def Chance.readFault (chance : Chance) : Option Raised :=
  chance.fault.filter (isProviderError ·.kind)

/-- What a call meets when no repository fails. -/
def Chance.reliable (chance : Chance) (request : OrderCall) : Chance :=
  { chance with fault := if request.readsProvider then chance.readFault else none }

/-- The rows, and the committed writes of server, order and operation rows. -/
structure Journal where
  rows : Purchase
  commits : List OrderCall := []

/-- The journal after a call that was answered. -/
def Journal.after {α : Type} (j : Journal) (request : OrderCall) (answer : Result α × Purchase) :
    Journal where
  rows := answer.2
  commits := if request.writesRow && answer.1.isOk then j.commits ++ [request] else j.commits

/-- One call when no repository fails. -/
def OrderCall.journaled (scan : RecoveryScan) (request : OrderCall) (chance : Chance)
    (j : Journal) : Result request.Out × Journal :=
  ((OrderCall.handle scan request (chance.reliable request) j.rows).1,
    j.after request (OrderCall.handle scan request (chance.reliable request) j.rows))

/-- A run without repository failures. -/
abbrev Quiet {α : Type} (scan : RecoveryScan)
    (post : Result α → (ℕ → Chance) → Journal → Prop) (p : OrderProgram α)
    (chances : ℕ → Chance) (j : Journal) : Prop :=
  Ends (OrderCall.journaled scan) post p chances j

section Rules

variable {scan : RecoveryScan} {α β : Type} {post : Result β → (ℕ → Chance) → Journal → Prop}
  {chances : ℕ → Chance} {j : Journal}

variable {request : OrderCall}

/-- The rule of a read. -/
theorem quiet_read {f : request.Out → OrderProgram β} {value : request.Out}
    (hcall : ∀ chance, OrderCall.journaled scan request chance j = (.ok value, j))
    (h : Quiet scan post (f value) (rest chances) j) :
    Quiet scan post (perform request >>= f) chances j := by
  refine ends_perform ?_
  rw [hcall]
  exact h

/-- The rule of the clock. -/
theorem quiet_now {f : ℤ → OrderProgram β}
    (h : Quiet scan post (f (chances 0).now) (rest chances) j) :
    Quiet scan post (perform .now >>= f) chances j :=
  ends_perform h

/-- The rule of a write. -/
theorem quiet_write {f : request.Out → OrderProgram β} {value : request.Out} {after : Journal}
    (hcall : OrderCall.journaled scan request (chances 0) j = (.ok value, after))
    (h : Quiet scan post (f value) (rest chances) after) :
    Quiet scan post (perform request >>= f) chances j := by
  refine ends_perform ?_
  rw [hcall]
  exact h

/-- The rule of a read whose outcome is examined. -/
theorem quiet_attempt {f : Result request.Out → OrderProgram β} {reply : Result request.Out}
    (hcall : OrderCall.journaled scan request (chances 0) j = (reply, j))
    (h : Quiet scan post (f reply) (rest chances) j) :
    Quiet scan post ((perform request).attempt >>= f) chances j := by
  refine ends_attemptCall ?_
  rw [hcall]
  exact h

/-- A read of the provider answers, or raises an exception of the provider's. -/
theorem Chance.reliable_reply (chance : Chance) (request : OrderCall)
    (hread : request.readsProvider = true) (value : α) :
    (chance.readFault = none ∧ (chance.reliable request).reply value = .ok value) ∨
      ∃ raised, chance.readFault = some raised ∧ isProviderError raised.kind = true ∧
        (chance.reliable request).reply value = .error raised := by
  simp only [Chance.reply, Chance.reliable, if_pos hread]
  cases hfault : chance.readFault with
  | none => exact Or.inl ⟨rfl, rfl⟩
  | some raised =>
    rw [Chance.readFault, Option.filter_eq_some_iff] at hfault
    exact Or.inr ⟨raised, rfl, hfault.2, rfl⟩

/-- The rule of a read of the provider whose outcome is examined. -/
theorem quiet_readProvider {f : Result request.Out → OrderProgram β} (value : request.Out)
    (hread : request.readsProvider = true) (hcall : OrderCall.journaled scan request (chances 0) j =
      (((chances 0).reliable request).reply value, j))
    (hok : (chances 0).readFault = none → Quiet scan post (f (.ok value)) (rest chances) j)
    (herror : ∀ raised, (chances 0).readFault = some raised → isProviderError raised.kind = true →
      Quiet scan post (f (.error raised)) (rest chances) j) :
    Quiet scan post ((perform request).attempt >>= f) chances j := by
  refine quiet_attempt hcall ?_
  rcases (chances 0).reliable_reply request hread value with
    ⟨hreadable, hreply⟩ | ⟨raised, hfault, hprovider, hreply⟩
  · rw [hreply]
    exact hok hreadable
  · rw [hreply]
    exact herror raised hfault hprovider

theorem journaled_saveServer {row : CloudServer} (hrow : j.rows.server = some row)
    (copy : CloudServer) (chance : Chance) : OrderCall.journaled scan (.saveServer copy) chance j =
      (.ok (row.saved copy chance.now), ⟨{ j.rows with server := some (row.saved copy chance.now) },
          j.commits ++ [.saveServer copy]⟩) := by
  simp only [OrderCall.journaled, Journal.after, OrderCall.handle, Chance.meets, Chance.reliable,
    OrderCall.readsProvider, Purchase.updateServer, hrow]
  rfl

theorem journaled_saveOrder {row : ProviderOrder} (hrow : j.rows.order = some row)
    (copy : ProviderOrder) (chance : Chance) : OrderCall.journaled scan (.saveOrder copy) chance j =
      (.ok (row.saved copy chance.now), ⟨{ j.rows with order := some (row.saved copy chance.now) },
          j.commits ++ [.saveOrder copy]⟩) := by
  simp only [OrderCall.journaled, Journal.after, OrderCall.handle, Chance.meets, Chance.reliable,
    OrderCall.readsProvider, Purchase.updateOrder, hrow]
  rfl

/-- The rule of a saved server. -/
theorem quiet_saveServer {f : CloudServer → OrderProgram β} {row copy : CloudServer}
    (hrow : j.rows.server = some row) (h : ∀ now, Quiet scan post (f (row.saved copy now))
      (rest chances) ⟨{ j.rows with server := some (row.saved copy now) },
        j.commits ++ [.saveServer copy]⟩) :
    Quiet scan post (perform (.saveServer copy) >>= f) chances j :=
  quiet_write (journaled_saveServer hrow copy (chances 0)) (h _)

/-- The rule of a saved order. -/
theorem quiet_saveOrder {f : ProviderOrder → OrderProgram β} {row copy : ProviderOrder}
    (hrow : j.rows.order = some row) (h : ∀ now, Quiet scan post (f (row.saved copy now))
      (rest chances) ⟨{ j.rows with order := some (row.saved copy now) },
        j.commits ++ [.saveOrder copy]⟩) :
    Quiet scan post (perform (.saveOrder copy) >>= f) chances j :=
  quiet_write (journaled_saveOrder hrow copy (chances 0)) (h _)

theorem journaled_saveOperation {row saved : Operation} {copy : Operation} {chance : Chance}
    (hrow : j.rows.operation = some row)
    (hsaved : Operations.save (some row) copy chance.now = .ok saved) :
    OrderCall.journaled scan (.saveOperation copy) chance j =
      (.ok saved, ⟨{ j.rows with operation := some saved },
        j.commits ++ [.saveOperation copy]⟩) := by
  simp only [OrderCall.journaled, Journal.after, OrderCall.handle, Chance.meets, Chance.reliable,
    OrderCall.readsProvider, Purchase.updateOperation, hrow, hsaved]
  rfl

theorem journaled_saveOperation_refused {row : Operation} {raised : Raised} {copy : Operation}
    {chance : Chance} (hrow : j.rows.operation = some row)
    (hsaved : Operations.save (some row) copy chance.now = .error raised) :
    OrderCall.journaled scan (.saveOperation copy) chance j = (.error raised, j) := by
  simp only [OrderCall.journaled, Journal.after, OrderCall.handle, Chance.meets, Chance.reliable,
    OrderCall.readsProvider, Purchase.updateOperation, hrow, hsaved]
  rfl

end Rules

/-! ### The settlement barrier -/

/-- An order without what the settlement writes. -/
def ProviderOrder.settlementCleared (order : ProviderOrder) : ProviderOrder :=
  { order with
    settlementStatus := .pending
    settlementAttemptedAt := none
    settlementAttempts := 0
    settlementError := none }

/-- The commit records a settlement verdict on the order: it changes the settlement columns, and on
NEEDS_REVIEW at most sends the order itself to review. -/
def RecordsVerdict (order : ProviderOrder) : OrderCall → Prop
  | .saveOrder copy => copy.settlementCleared = order.settlementCleared ∨
      copy.settlementStatus = .needsReview ∧ copy.settlementCleared =
        { order.settlementCleared with status := .needsReview, error := copy.error }
  | _ => False

/-- The charge of a purchase can be proved: the wallet is the user's, and the hold of the server is
payable. -/
def Settles (s : Purchase) (server : CloudServer) : Prop :=
  s.books.wallet.userId = server.userId ∧ ∃ key ∈ server.idempotencyKey, ∃ hold ∈ s.holdOf key,
    Payable s.books hold (holdKey key)

/-- The operation of a settled order needs no repair, or can be repaired. -/
def Repairable (operation : Option Operation) : Prop :=
  ∀ op ∈ operation, op.status ∈ [.completed, .failed] ∨ op.response.createRouting = none

/-- What the settlement of a copy of an order comes to when no repository fails. -/
structure SettlementEnds (j : Journal) (order : ProviderOrder) (server : CloudServer)
    (outcome : Result (SettlementVerdict × ProviderOrder)) (after : Journal) : Prop where
  settled_iff : ∀ verdict copy, outcome = .ok (verdict, copy) →
    (verdict = .settled ↔ Settles j.rows server ∧ Repairable j.rows.operation)
  raised : ∀ raised, outcome = .error raised → ¬ Repairable j.rows.operation
  review : ∀ copy, outcome = .ok (.needsReview, copy) → copy.settlementStatus = .needsReview
  copy_eq : ∀ verdict copy, outcome = .ok (verdict, copy) →
    copy.settlementCleared = order.settlementCleared
  serverRow : after.rows.server = j.rows.server
  orderRow : ∃ copy row now, after.rows.order = some (ProviderOrder.saved row copy now) ∧
    copy.settlementCleared = order.settlementCleared
  operationRow : (∀ copy, outcome ≠ .ok (.settled, copy)) →
    after.rows.operation = j.rows.operation
  completed : ∀ op ∈ j.rows.operation, op.status = .completed →
    after.rows.operation = j.rows.operation
  commits : (∀ copy, outcome ≠ .ok (.settled, copy)) → ∀ commit ∈ after.commits,
    commit ∈ j.commits ∨ RecordsVerdict order commit

/-- The journal with other books. -/
def Journal.withBooks (j : Journal) (books : Books) : Journal :=
  { j with rows := { j.rows with books := books } }

section SettlementRuns

variable {scan : RecoveryScan} {chances : ℕ → Chance} {j : Journal} {order copy row : ProviderOrder}
  {server : CloudServer} {now : ℤ} {books : Books}

/-- A verdict short of SETTLED is recorded. -/
theorem settlementEnds_recorded {verdict : SettlementVerdict} {later : ℤ}
    (hcopy : copy.settlementCleared = order.settlementCleared) (hverdict : verdict ≠ .settled)
    (hreview : verdict = .needsReview → copy.settlementStatus = .needsReview)
    (hunsettled : ¬ Settles j.rows server) : SettlementEnds j order server (.ok (verdict, copy))
      ⟨{ (j.withBooks books).rows with order := some (ProviderOrder.saved row copy later) },
        j.commits ++ [.saveOrder copy]⟩ where
  settled_iff := by
    rintro _ _ ⟨⟩
    exact ⟨fun h ↦ absurd h hverdict, fun h ↦ absurd h.1 hunsettled⟩
  raised := by rintro _ ⟨⟩
  review := by
    rintro _ ⟨⟩
    exact hreview rfl
  copy_eq := by
    rintro _ _ ⟨⟩
    exact hcopy
  serverRow := rfl
  orderRow := ⟨copy, row, later, rfl, hcopy⟩
  operationRow _ := rfl
  completed _ _ _ := rfl
  commits _ commit hcommit := by
    rcases List.mem_append.mp hcommit with hold | hnew
    · exact Or.inl hold
    · rw [List.mem_singleton.mp hnew]
      exact Or.inr (Or.inl hcopy)

theorem quiet_settlementNeedsReview (reason : String) (hrow : j.rows.order = some row)
    (hcopy : copy.settlementCleared = order.settlementCleared)
    (hunsettled : ¬ Settles j.rows server) :
    Quiet scan (fun outcome _ after ↦ SettlementEnds j order server outcome after)
      (settlementNeedsReview copy now reason) chances (j.withBooks books) := by
  refine quiet_saveOrder hrow fun now ↦ ?_
  refine quiet_read (fun _ ↦ rfl) ?_
  refine ends_pure ?_
  exact settlementEnds_recorded hcopy (by decide) (fun _ ↦ rfl) hunsettled

theorem quiet_settlementRetryLater (reason : String) (hrow : j.rows.order = some row)
    (hcopy : copy.settlementCleared = order.settlementCleared)
    (hunsettled : ¬ Settles j.rows server) :
    Quiet scan (fun outcome _ after ↦ SettlementEnds j order server outcome after)
      (settlementRetryLater copy now reason) chances (j.withBooks books) := by
  unfold settlementRetryLater
  dsimp only
  split
  · exact quiet_settlementNeedsReview _ hrow hcopy hunsettled
  · refine quiet_saveOrder hrow fun now ↦ ?_
    refine ends_pure ?_
    exact settlementEnds_recorded hcopy (by decide) (fun h ↦ by cases h) hunsettled

/-- A failed capture settles nothing. -/
theorem quiet_captureFailed (hold : Hold) (raised : Raised) (hrow : j.rows.order = some row)
    (hunsettled : ¬ Settles j.rows server) :
    Quiet scan (fun outcome _ after ↦ SettlementEnds j order server outcome after)
      (captureFailed order now hold raised) chances (j.withBooks books) := by
  unfold captureFailed
  split
  · exact quiet_settlementNeedsReview _ hrow rfl hunsettled
  · split
    · exact quiet_settlementNeedsReview _ hrow rfl hunsettled
    · exact quiet_settlementRetryLater _ hrow rfl hunsettled

/-- A completion without a receipt is refused by the transition table only. -/
theorem kind_of_complete {op : Operation} {correlation : Operations.ProviderResponse}
    {raised : Raised} (hnone : op.response.createRouting = none)
    (h : op.complete correlation = .error raised) : raised.kind = .invalidOperationTransition := by
  unfold Operation.complete Operation.transitionTo at h
  by_cases hallowed : Operations.OperationStatus.completed ∈ op.status.allowed
  · simp [rejectIf, hnone, hallowed, bind, Except.bind, pure, Except.pure] at h
  · simp [rejectIf, hnone, hallowed, bind, Except.bind, raise] at h
    rw [← h]

/-- What the repair of an operation comes to: a repairable one is left or completed. -/
inductive RepairEnds (j : Journal) : Result Unit → Journal → Prop
  | refused (raised : Raised) (h : ¬ Repairable j.rows.operation) : RepairEnds j (.error raised) j
  | kept (h : Repairable j.rows.operation) : RepairEnds j (.ok ()) j
  | saved (op saved commit : Operation) (hop : j.rows.operation = some op)
      (hopen : op.status ≠ .completed) (h : Repairable j.rows.operation) :
      RepairEnds j (.ok ())
        ⟨{ j.rows with operation := some saved }, j.commits ++ [.saveOperation commit]⟩

theorem quiet_repairOperation :
    Quiet scan (fun outcome _ after ↦ RepairEnds j outcome after) (repairOperation order) chances
      j := by
  refine quiet_read (fun _ ↦ rfl) ?_
  cases hop : j.rows.operation with
  | none =>
    refine ends_pure (RepairEnds.kept ?_)
    rw [hop]
    rintro _ ⟨⟩
  | some op =>
    dsimp only
    by_cases hclosed : op.status ∈ [.completed, .failed]
    · rw [if_pos hclosed]
      refine ends_pure (RepairEnds.kept ?_)
      rw [hop]
      rintro _ ⟨⟩
      exact Or.inl hclosed
    · rw [if_neg hclosed]
      by_cases hrouting : op.response.createRouting.isSome
      · rw [if_pos hrouting]
        refine ends_throw (RepairEnds.refused _ fun h ↦ ?_)
        rcases h op hop with hstatus | hnone
        · exact hclosed hstatus
        · rw [hnone] at hrouting
          cases hrouting
      · rw [if_neg hrouting]
        have hnone : op.response.createRouting = none := by simpa using hrouting
        have hrepairable : Repairable j.rows.operation := by
          rw [hop]
          rintro _ ⟨⟩
          exact Or.inr hnone
        split
        · rename_i raised hraised
          rw [if_pos (kind_of_complete hnone hraised)]
          exact ends_pure (RepairEnds.kept hrepairable)
        · rename_i completed hcompleted
          have hattempts := (Operations.Operation.complete_moves hcompleted).attempts_eq
          have hfenced : Operations.SaveFenced op completed := ⟨hnone, hattempts.symm⟩
          obtain ⟨saved, hsave⟩ := Operations.save_of_fenced hfenced (chances 1).now
          refine quiet_write (journaled_saveOperation hop hsave) ?_
          refine ends_pure (RepairEnds.saved op saved completed hop (fun hcompleted ↦ hclosed ?_)
            hrepairable)
          rw [hcompleted]
          exact List.mem_cons_self

/-- The proof of the charge once the hold is captured. -/
theorem quiet_proveCharge {walletId : Uuid} {key : String} {entry : LedgerEntry}
    (hrow : j.rows.order = some row) (hentry : books.entry (captureKey key) = some entry)
    (hsettles : entry.amount ≠ 0 ↔ Settles j.rows server) :
    Quiet scan (fun outcome _ after ↦ SettlementEnds j order server outcome after)
      (proveCharge order now walletId key) chances (j.withBooks books) := by
  have hread : ∀ chance, OrderCall.journaled scan (.ledgerEntry walletId (captureKey key)) chance
      (j.withBooks books) = (if entry.amount = 0 then
        raise .valueError "ledger entry amount cannot be zero" else .ok (some entry),
        j.withBooks books) := by
    intro chance
    simp only [OrderCall.journaled, Journal.after, OrderCall.handle, Chance.meets, Chance.reliable,
      OrderCall.readsProvider, Purchase.readEntry, Journal.withBooks, hentry]
    rfl
  refine quiet_attempt (hread _) ?_
  by_cases hzero : entry.amount = 0
  · rw [if_pos hzero]
    exact quiet_settlementRetryLater _ hrow rfl fun h ↦ hsettles.mpr h hzero
  · rw [if_neg hzero]
    have hproved : Settles j.rows server := hsettles.mp hzero
    refine quiet_saveOrder hrow fun now ↦ ?_
    refine ends_bind (quiet_repairOperation.mono fun outcome _ after hrepair ↦ ?_)
    cases hrepair with
    | refused raised h =>
      refine ⟨by rintro _ _ ⟨⟩, fun _ _ ↦ h, by rintro _ ⟨⟩, by rintro _ _ ⟨⟩, rfl,
        ⟨_, row, _, rfl, rfl⟩, fun _ ↦ rfl, fun _ _ _ ↦ rfl, fun _ commit hcommit ↦ ?_⟩
      rcases List.mem_append.mp hcommit with hold | hnew
      · exact Or.inl hold
      · rw [List.mem_singleton.mp hnew]
        exact Or.inr (Or.inl rfl)
    | kept h =>
      refine ends_pure ⟨?_, by rintro _ ⟨⟩, by rintro _ ⟨⟩, ?_, rfl, ⟨_, row, _, rfl, rfl⟩, fun _ ↦ rfl,
        fun _ _ _ ↦ rfl, fun hunsettled ↦ absurd rfl (hunsettled _)⟩
      · rintro _ _ ⟨⟩
        exact ⟨fun _ ↦ ⟨hproved, h⟩, fun _ ↦ rfl⟩
      · rintro _ _ ⟨⟩
        rfl
    | saved op saved commit hop hopen h =>
      refine ends_pure ⟨?_, by rintro _ ⟨⟩, by rintro _ ⟨⟩, ?_, rfl, ⟨_, row, _, rfl, rfl⟩,
        fun hunsettled ↦ absurd rfl (hunsettled _), fun other hother hcompleted ↦ ?_,
        fun hunsettled ↦ absurd rfl (hunsettled _)⟩
      · rintro _ _ ⟨⟩
        exact ⟨fun _ ↦ ⟨hproved, h⟩, fun _ ↦ rfl⟩
      · rintro _ _ ⟨⟩
        rfl
      · obtain rfl := Option.some.inj (hop.symm.trans hother)
        exact absurd hcompleted hopen

/-- A method of the hold service that runs alone. -/
theorem quiet_onHolds {α : Type} {program : HoldProgram α} {post : Result α → Books → Prop}
    (h : Ends HoldCall.handle (fun outcome _ books ↦ post outcome books) program
      (fun index ↦ ⟨(chances index).now, (chances index).newId⟩) j.rows.books) :
    Quiet scan (fun outcome _ after ↦ ∃ books, after = j.withBooks books ∧ post outcome books)
      (onHolds program) chances j := by
  refine ends_liftProgram HoldCall.handle (OrderCall.journaled scan) .hold (fun _ reply ↦ reply)
    j.withBooks (fun chance ↦ ⟨chance.now, chance.newId⟩) (fun request chance books ↦ ⟨?_, rfl⟩)
    program chances j.rows.books h
  exact congrFun Except.map_id _

/-- The settlement from the hold on. -/
theorem quiet_settleHold {key : String} (hrow : j.rows.order = some row)
    (hids : (j.rows.books.holds.map (·.id)).Nodup) (hsettles : Settles j.rows server ↔
      ∃ hold ∈ j.rows.books.holdByKey j.rows.books.wallet.id key, Payable j.rows.books hold key) :
    Quiet scan (fun outcome _ after ↦ SettlementEnds j order server outcome after)
      (settleHold order now j.rows.books.wallet.id key) chances j := by
  refine quiet_read (fun _ ↦ rfl) ?_
  cases hhold : j.rows.books.holdByKey j.rows.books.wallet.id key with
  | none =>
    rw [hhold] at hsettles
    show Quiet scan _ _ _ (j.withBooks j.rows.books)
    refine quiet_settlementNeedsReview _ hrow rfl fun h ↦ ?_
    obtain ⟨hold, hnone, -⟩ := hsettles.mp h
    cases hnone
  | some hold =>
    have hmem : hold ∈ j.rows.books.holds := List.mem_of_find?_eq_some hhold
    have hwallet : j.rows.books.wallet.id = hold.walletId := by
      have hfound := List.find?_some hhold
      simp only [decide_eq_true_iff] at hfound
      exact hfound.1.symm
    have hpayable : Settles j.rows server ↔ Payable j.rows.books hold key := by
      rw [hsettles, hhold]
      constructor
      · rintro ⟨_, ⟨⟩, h⟩
        exact h
      · exact fun h ↦ ⟨hold, rfl, h⟩
    dsimp only
    by_cases hreleased : hold.status = .released
    · rw [if_pos hreleased]
      show Quiet scan _ _ _ (j.withBooks j.rows.books)
      exact quiet_settlementNeedsReview _ hrow rfl
        fun h ↦ (hpayable.mp h).unreleased hreleased
    · rw [if_neg hreleased, hwallet]
      have hcapture : Quiet scan (fun outcome _ after ↦ ∃ books, after = j.withBooks books ∧
          CaptureEnds j.rows.books hold key outcome books)
          (onHolds (Wallets.HoldService.captureHold hold.walletId hold.id key)) (rest chances) j :=
        quiet_onHolds (ends_captureHold (hold_of_mem hids hmem) hwallet)
      refine ends_attempt (hcapture.mono fun outcome later after hafter ↦ ?_)
      obtain ⟨books, rfl, hends⟩ := hafter
      cases outcome with
      | error raised => exact quiet_captureFailed hold raised hrow fun h ↦ hends (hpayable.mp h)
      | ok captured =>
        obtain ⟨entry, hentry, hreadable⟩ := hends
        exact quiet_proveCharge hrow hentry (hreadable.trans hpayable.symm)

/-- What the settlement barrier comes to when no repository fails. -/
theorem quiet_settlement (hrow : j.rows.order = some row)
    (hids : (j.rows.books.holds.map (·.id)).Nodup) :
    Quiet scan (fun outcome _ after ↦ SettlementEnds j order server outcome after)
      (ensureOrderPaymentSettled order server) chances j := by
  refine quiet_now ?_
  have hself : j.withBooks j.rows.books = j := rfl
  cases hkey : server.idempotencyKey with
  | none =>
    rw [← hself]
    refine quiet_settlementNeedsReview _ hrow rfl fun h ↦ ?_
    obtain ⟨-, key, hnone, -⟩ := h
    rw [hkey] at hnone
    cases hnone
  | some idempotencyKey =>
    refine quiet_read (fun _ ↦ rfl) ?_
    by_cases huser : j.rows.books.wallet.userId = server.userId
    · rw [if_pos huser]
      refine quiet_settleHold hrow hids ?_
      unfold Settles
      rw [hkey]
      constructor
      · rintro ⟨-, _, ⟨⟩, h⟩
        exact h
      · exact fun h ↦ ⟨huser, idempotencyKey, rfl, h⟩
    · rw [if_neg huser, ← hself]
      exact quiet_settlementNeedsReview _ hrow rfl fun h ↦ huser h.1

end SettlementRuns

end CloudPlatform.Orders
