import CloudPlatform.Billing.AccrualJob
import CloudPlatform.Transition.Protocol
import Mathlib.Tactic.Ring

/-!
# The bookkeeping of the accrual job

The job may be interleaved with anything: what can be said of it is what it does with the copy that it
holds. `Bookkeeping` is an account of that copy over a protocol of the billing calls: `held k` after `k`
periods are settled, `paid k` while the next one may already be debited, `refused k` once the want of
funds is dealt with. A period debits the wallet once at most and then moves the watermark, and only the
debit is refused for want of funds (`follows_settlePeriod`); a prepayment that returns has moved the
watermark past the instant it is for (`follows_accrueServer`).
-/

namespace CloudPlatform.Billing

open Calendar (second)
open Compute (CloudServer ServerLifecycleState)
open Transition
open Wallets

theorem kind_of_rejectIf {condition : Bool} {kind : ErrorKind} {message : String} {raised : Raised}
    (h : rejectIf condition kind message = .error raised) : raised.kind = kind := by
  cases condition with
  | false => cases h
  | true =>
    obtain rfl := Except.error.inj h
    rfl

theorem kind_of_guard {condition : Bool} {kind : ErrorKind} {message : String} {raised : Raised}
    {β : Type} {f : Unit → Result β} (h : (rejectIf condition kind message >>= f) = .error raised) :
    raised.kind = kind ∨ f () = .error raised := by
  cases condition with
  | false => exact .inr h
  | true =>
    obtain rfl := Except.error.inj h
    exact .inl rfl

namespace BillingCall

/-- The calls that debit the wallet. -/
def Pays : BillingCall → Prop
  | adjust _ => True
  | hold (.capture _) => True
  | _ => False

/-- The calls that neither debit the wallet nor touch a server row. -/
def Quiet : BillingCall → Prop
  | adjust _ => False
  | hold (.capture _) => False
  | hold (.create ..) => False
  | saveServer _ => False
  | server _ => False
  | _ => True

theorem kind_of_optionalUuid {text : String} {raised : Raised}
    (h : optionalUuid text = .error raised) : raised.kind = .valueError := by
  unfold optionalUuid at h
  split at h
  · cases h
  · split at h
    · cases h
    · obtain rfl := Except.error.inj h
      rfl

/-- A quiet call is not refused for want of funds. -/
theorem kind_of_quiet {request : BillingCall} (hquiet : request.Quiet) {chance : Chance}
    {rows : BillingRows} {raised : Raised} (h : (request.handle chance rows).1 = .error raised) :
    raised.kind ≠ .insufficientBalance := by
  cases request with
  | hold request =>
    cases request with
    | capture holdId => exact hquiet.elim
    | create walletId amount currency key => exact hquiet.elim
    | post entry =>
      simp only [handle, HoldCall.handle, postEntry] at h
      cases hreference : optionalUuid entry.referenceId with
      | error other =>
        rw [hreference] at h
        obtain rfl := Except.error.inj h
        rw [kind_of_optionalUuid hreference]
        decide
      | ok referenceId =>
        rw [hreference] at h
        dsimp only at h
        split at h
        · obtain rfl := Except.error.inj h
          decide
        · split at h
          · obtain rfl := Except.error.inj h
            exact fun hkind ↦ nomatch hkind
          · dsimp only at h
            split at h
            · obtain rfl := Except.error.inj h
              decide
            · cases h
    | release holdId =>
      simp only [handle, HoldCall.handle] at h
      cases h
    | _ => cases h
  | ledgerEntry walletId key =>
    simp only [handle, Billing.ledgerEntry] at h
    split at h
    · rcases kind_of_guard h with hkind | hdone
      · rw [hkind]
        decide
      · cases hdone
    · cases h
  | addAccrual period =>
    simp only [handle] at h
    cases hdone : Billing.addAccrual rows period with
    | ok result =>
      rw [hdone] at h
      cases h
    | error other =>
      rw [hdone] at h
      obtain rfl := Except.error.inj h
      rcases kind_of_guard hdone with hkind | hdone
      · rw [hkind]
        decide
      · cases hdone
  | monthTotal walletId start currency rule =>
    rcases kind_of_guard h with hkind | h
    · rw [hkind]
      decide
    · rcases kind_of_guard h with hkind | hdone
      · rw [hkind]
        decide
      · cases hdone
  | adjust call => exact hquiet.elim
  | saveServer copy => exact hquiet.elim
  | _ => cases h

/-- Only a call that debits changes the wallet, and only if it returns. -/
theorem handle_wallet (request : BillingCall) (chance : Chance) (rows : BillingRows) :
    (request.handle chance rows).2.books.wallet = rows.books.wallet ∨
      request.Pays ∧ ∃ value, (request.handle chance rows).1 = .ok value := by
  cases request with
  | hold request =>
    by_cases hcapture : ∃ holdId, request = .capture holdId
    · obtain ⟨holdId, rfl⟩ := hcapture
      simp only [handle, HoldCall.handle, Pays, true_and]
      cases hdone : captureHold rows.books holdId rows.clock with
      | error raised => exact .inl rfl
      | ok result => exact .inr ⟨_, rfl⟩
    · exact .inl (Wallets.handle_wallet fun holdId heq ↦ hcapture ⟨holdId, heq⟩)
  | adjust call =>
    simp only [handle, Pays, true_and]
    cases hdone : Wallets.adjust rows.books call with
    | error raised => exact .inl rfl
    | ok result => exact .inr ⟨_, rfl⟩
  | addAccrual period =>
    simp only [handle]
    cases hdone : Billing.addAccrual rows period with
    | error raised => exact .inl rfl
    | ok result =>
      obtain ⟨-, hresult⟩ := rejectIf_bind_eq_ok.mp hdone
      obtain rfl := pure_eq_ok.mp hresult
      exact .inl rfl
  | saveServer copy =>
    simp only [handle, Billing.saveServer]
    cases rows.server copy.id with
    | none => exact .inl rfl
    | some row => exact .inl rfl
  | _ => exact .inl rfl

end BillingCall

namespace AccrualJob

/-- The copy that asks for the deletion of an unpaid server. -/
def deletionRequested (server : CloudServer) (now : ℤ) : CloudServer :=
  { server with
    lowBalanceSince := some (server.lowBalanceSince.getD now)
    state := .deleteRequested }

/-- The copy is paid beyond an instant. -/
def Covers (server : CloudServer) (instant : ℤ) : Prop :=
  ∃ paid ∈ server.lastAccruedAt, instant < paid

theorem covers_iff {server : CloudServer} {instant : ℤ} :
    server.lastAccruedAt.any (instant < ·) = true ↔ Covers server instant := by
  simp [Covers, Option.any_eq_true]

/-- The end of what is paid: the watermark, or before the first period the anchor. -/
def paidThrough (server : CloudServer) (now : ℤ) : ℤ :=
  server.lastAccruedAt.getD (server.billingStartedAt.getD now)

/-- A copy of a server after `k` more periods. -/
structure Extends (server : CloudServer) (now : ℤ) (k : ℕ) (copy : CloudServer) : Prop where
  same : ∃ watermark version,
    copy = { server with lastAccruedAt := watermark, updatedAt := version }
  unmoved : k = 0 → copy.lastAccruedAt = server.lastAccruedAt
  watermark_le : 0 < k → ∃ paid ∈ copy.lastAccruedAt,
    paidThrough server now + server.quantumSeconds * k * second ≤ paid

variable {Λ α β : Type}

/-- An account of the copy that the job holds, over a protocol of its calls. -/
structure Bookkeeping (P : Protocol Raised BillingCall BillingCall.Out Λ)
    (held paid refused : ℕ → CloudServer → Λ → Prop) (now : ℤ) : Prop where
  weaken : ∀ {k copy l}, held k copy l → paid k copy l
  reads : ∀ {k copy l request}, request.Quiet → held k copy l → P.permits l request ∧
    ∀ reply, P.truthful request reply → held k copy (P.learns l request reply)
  readsPaid : ∀ {k copy l request}, request.Quiet → paid k copy l → P.permits l request ∧
    ∀ reply, P.truthful request reply → paid k copy (P.learns l request reply) ∧
      ∀ raised, reply = .error raised → raised.kind ≠ .insufficientBalance
  pays : ∀ {k copy l request}, request.Pays → held k copy l → P.permits l request ∧
    (∀ value, P.truthful request (.ok value) → paid k copy (P.learns l request (.ok value))) ∧
    ∀ raised, P.truthful request (.error raised) → held k copy (P.learns l request (.error raised))
  saves : ∀ {k copy l} periodEnd, paid k copy l → P.permits l (.saveServer (moved copy periodEnd)) ∧
    (∀ row, P.truthful (.saveServer (moved copy periodEnd)) (.ok row) →
      held (k + 1) { moved copy periodEnd with updatedAt := row.updatedAt }
        (P.learns l (.saveServer (moved copy periodEnd)) (.ok row))) ∧
    ∀ raised, P.truthful (.saveServer (moved copy periodEnd)) (.error raised) →
      raised.kind ≠ .insufficientBalance
  covered : ∀ {k copy l}, held k copy l → Covers copy now → refused k copy l
  anchors : ∀ {copy l}, held 0 copy l → copy.billingStartedAt = none →
    P.permits l (.saveServer { copy with billingStartedAt := some now }) ∧
    (∀ row, P.truthful (.saveServer { copy with billingStartedAt := some now }) (.ok row) →
      held 0 { copy with billingStartedAt := some now, updatedAt := row.updatedAt }
        (P.learns l (.saveServer { copy with billingStartedAt := some now }) (.ok row))) ∧
    ∀ raised, P.truthful (.saveServer { copy with billingStartedAt := some now }) (.error raised) →
      raised.kind ≠ .insufficientBalance
  requests : ∀ {k copy l}, held k copy l →
    P.permits l (.saveServer (deletionRequested copy now)) ∧
    (∀ row, P.truthful (.saveServer (deletionRequested copy now)) (.ok row) →
      refused k (deletionRequested copy now)
        (P.learns l (.saveServer (deletionRequested copy now)) (.ok row))) ∧
    ∀ raised, P.truthful (.saveServer (deletionRequested copy now)) (.error raised) →
      raised.kind ≠ .insufficientBalance

/-- What a step establishes on return; it does not raise for want of funds. -/
def Funded (Q : α → Λ → Prop) : Result α → Λ → Prop
  | .ok value, l => Q value l
  | .error raised, _ => raised.kind ≠ .insufficientBalance

/-- What a step establishes on return; when it raises for want of funds, nothing was paid. -/
def Settles (held : Λ → Prop) (Q : α → Λ → Prop) : Result α → Λ → Prop
  | .ok value, l => Q value l
  | .error raised, l => raised.kind = .insufficientBalance → held l

/-- The copy once a period is settled. -/
def AdvancedTo (server : CloudServer) (periodEnd : ℤ) (copy : CloudServer) : Prop :=
  ∃ version, copy = { moved server periodEnd with updatedAt := version }

/-- A record that fails its checks raises a `ValueError`. -/
theorem kind_of_validated {period : AccrualPeriod} {raised : Raised}
    (h : period.validated = .error raised) : raised.kind = .valueError := by
  unfold AccrualPeriod.validated at h
  iterate 9
    rcases kind_of_guard h with hkind | h
    · exact hkind
  cases h

section Rules

variable {P : Protocol Raised BillingCall BillingCall.Out Λ}
  {held paid refused : ℕ → CloudServer → Λ → Prop} {now : ℤ} {k : ℕ} {copy : CloudServer} {l : Λ}

theorem funded_settles {H : Λ → Prop} {Q : α → Λ → Prop} (outcome : Result α) (l : Λ)
    (h : Funded Q outcome l) : Settles H Q outcome l := by
  cases outcome with
  | ok value => exact h
  | error raised => exact fun hinsufficient ↦ absurd hinsufficient h

/-! ### One call -/

variable {Q R : β → Λ → Prop} {facts : Settlement} {server : CloudServer}

/-- A reading call before the period is paid. -/
theorem follows_read (h : Bookkeeping P held paid refused now) (request : BillingCall)
    (hquiet : request.Quiet) {f : request.Out → AccrualProgram β} (hl : held k copy l)
    (hok : ∀ value l, held k copy l → Follows P (Settles (held k copy) Q) (f value) l) :
    Follows P (Settles (held k copy) Q) (perform request >>= f) l := by
  obtain ⟨hpermits, hreply⟩ := h.reads hquiet hl
  exact follows_perform hpermits (fun value htrue ↦ hok value _ (hreply _ htrue))
    fun raised htrue _ ↦ hreply _ htrue

/-- A reading call once the period may be paid. -/
theorem follows_readPaid (h : Bookkeeping P held paid refused now) (request : BillingCall)
    (hquiet : request.Quiet) {f : request.Out → AccrualProgram β} (hl : paid k copy l)
    (hok : ∀ value l, paid k copy l → Follows P (Funded Q) (f value) l) :
    Follows P (Funded Q) (perform request >>= f) l := by
  obtain ⟨hpermits, hreply⟩ := h.readsPaid hquiet hl
  exact follows_perform hpermits (fun value htrue ↦ hok value _ (hreply _ htrue).1)
    fun raised htrue ↦ (hreply _ htrue).2 raised rfl

/-- A debit. -/
theorem follows_pay (h : Bookkeeping P held paid refused now) (request : BillingCall)
    (hpays : request.Pays) {f : request.Out → AccrualProgram β} (hl : held k copy l)
    (hok : ∀ value l, paid k copy l → Follows P (Funded Q) (f value) l) :
    Follows P (Settles (held k copy) Q) (perform request >>= f) l := by
  obtain ⟨hpermits, hvalue, hraised⟩ := h.pays hpays hl
  exact follows_perform hpermits
    (fun value htrue ↦ (hok value _ (hvalue value htrue)).mono funded_settles)
    fun raised htrue _ ↦ hraised raised htrue

theorem follows_funded_bind {Q : α → Λ → Prop} {p : AccrualProgram α} {f : α → AccrualProgram β}
    (hp : Follows P (Funded Q) p l) (hf : ∀ value l, Q value l → Follows P (Funded R) (f value) l) :
    Follows P (Funded R) (p >>= f) l := by
  refine follows_bind (hp.mono fun outcome l houtcome ↦ ?_)
  cases outcome with
  | ok value => exact hf value l houtcome
  | error raised => exact houtcome

theorem follows_settles_bind {H : Λ → Prop} {Q : α → Λ → Prop} {p : AccrualProgram α}
    {f : α → AccrualProgram β} (hp : Follows P (Settles H Q) p l)
    (hf : ∀ value l, Q value l → Follows P (Settles H R) (f value) l) :
    Follows P (Settles H R) (p >>= f) l := by
  refine follows_bind (hp.mono fun outcome l houtcome ↦ ?_)
  cases outcome with
  | ok value => exact hf value l houtcome
  | error raised => exact houtcome

/-- A guard of the job does not raise for want of funds. -/
theorem follows_funded_guard {condition : Bool} {kind : ErrorKind} {message : String}
    {f : Unit → AccrualProgram β} (hkind : kind ≠ .insufficientBalance)
    (hf : Follows P (Funded R) (f ()) l) :
    Follows P (Funded R) ((liftM (rejectIf condition kind message) : AccrualProgram Unit) >>= f) l := by
  refine follows_lift (fun _ _ ↦ hf) fun raised hraised ↦ ?_
  rw [Funded, kind_of_rejectIf hraised]
  exact hkind

/-- A last guard of the job. -/
theorem follows_funded_reject {condition : Bool} {kind : ErrorKind} {message : String}
    {R : Λ → Prop} (hkind : kind ≠ .insufficientBalance) (hl : R l) :
    Follows P (Funded fun _ l ↦ R l)
      (liftM (rejectIf condition kind message) : AccrualProgram Unit) l := by
  cases condition with
  | false => exact hl
  | true => exact hkind

/-- A pure step that may raise before the period is paid. -/
theorem follows_settles_lift {outcome : Result α} {f : α → AccrualProgram β} (hl : held k copy l)
    (hf : ∀ value, Follows P (Settles (held k copy) R) (f value) l) :
    Follows P (Settles (held k copy) R) ((liftM outcome : AccrualProgram α) >>= f) l :=
  follows_lift (fun value _ ↦ hf value) fun _ _ _ ↦ hl

/-! ### The parts of a settlement -/

theorem follows_loadPeriod (h : Bookkeeping P held paid refused now) (hl : held k copy l)
    (server : CloudServer) (periodStart periodEnd : ℤ) :
    Follows P (Settles (held k copy) fun facts l ↦ held k copy l ∧ facts.server = server ∧
      facts.periodEnd = periodEnd) (loadPeriod server periodStart periodEnd) l := by
  unfold loadPeriod
  refine follows_read h (.wallet _) trivial hl fun wallet l hl ↦ ?_
  cases wallet with
  | none => exact fun _ ↦ hl
  | some wallet =>
    refine follows_read h (.snapshot _) trivial hl fun snapshot l hl ↦ ?_
    cases snapshot with
    | none => exact fun _ ↦ hl
    | some snapshot =>
      refine follows_settles_lift hl fun _ ↦ follows_settles_lift hl fun exactCost ↦ ?_
      dsimp only
      split
      · exact follows_read h (.hold (.getByIdempotency ..)) trivial hl
          fun hold l hl ↦ ⟨hl, rfl, rfl⟩
      · exact ⟨hl, rfl, rfl⟩

theorem follows_replayMatches (h : Bookkeeping P held paid refused now) (facts : Settlement) :
    ∀ (candidates : List String) {l : Λ}, held k copy l →
      Follows P (Settles (held k copy) fun _ l ↦ held k copy l) (replayMatches facts candidates) l
  | [], _, hl => hl
  | key :: rest, _, hl => by
    unfold replayMatches
    refine follows_read h (.ledgerEntry ..) trivial hl fun entry l hl ↦ ?_
    cases entry with
    | none => exact follows_replayMatches h facts rest hl
    | some entry =>
      refine follows_settles_lift hl fun _ ↦ ?_
      exact follows_settles_bind (follows_replayMatches h facts rest hl) fun _ _ hl ↦ hl

theorem follows_persist (h : Bookkeeping P held paid refused now) (hl : paid k copy l)
    (period : AccrualPeriod) :
    Follows P (Funded fun _ l ↦ paid k copy l) (persistAccrualRecord period) l := by
  unfold persistAccrualRecord
  refine follows_readPaid h (.accrual _) trivial hl fun found l hl ↦ ?_
  cases found with
  | some existing => exact follows_funded_guard (by decide) hl
  | none =>
    obtain ⟨hpermits, hreply⟩ := h.readsPaid (l := l) (show (BillingCall.addAccrual period).Quiet from trivial) hl
    refine follows_tryCatch ⟨hpermits, fun reply htrue ↦ ?_⟩
    obtain ⟨hl', hkind⟩ := hreply reply htrue
    cases reply with
    | ok added => exact hl'
    | error raised =>
      by_cases hexists : raised.kind = .accrualPeriodExists
      · show Follows P _ (if raised.kind = .accrualPeriodExists then _ else _) _
        rw [if_pos hexists]
        refine follows_readPaid h (.accrual _) trivial hl' fun found l hl ↦ ?_
        cases found with
        | some existing => exact follows_funded_guard (by decide) hl
        | none => exact show ErrorKind.valueError ≠ .insufficientBalance by decide
      · show Follows P _ (if raised.kind = .accrualPeriodExists then _ else _) _
        rw [if_neg hexists]
        exact hkind raised rfl

theorem follows_advance (h : Bookkeeping P held paid refused now) (hl : paid k copy l)
    (periodEnd : ℤ) :
    Follows P (Funded fun advanced l ↦ held (k + 1) advanced l ∧ AdvancedTo copy periodEnd advanced)
      (advance copy periodEnd) l := by
  obtain ⟨hpermits, hrow, hraised⟩ := h.saves periodEnd hl
  exact follows_perform hpermits (fun row htrue ↦ ⟨hrow row htrue, row.updatedAt, rfl⟩) hraised

theorem follows_finish (h : Bookkeeping P held paid refused now) (hl : paid k facts.server l)
    (key : String) : Follows P (Funded fun advanced l ↦ held (k + 1) advanced l ∧
      AdvancedTo facts.server facts.periodEnd advanced) (finish facts key) l := by
  unfold finish
  refine follows_lift (fun period _ ↦ ?_) fun raised hraised ↦ ?_
  · exact follows_funded_bind (follows_persist h hl period) fun _ _ hl ↦ follows_advance h hl _
  · rw [Funded, kind_of_validated hraised]
    decide

theorem follows_assertCaptureLedger (h : Bookkeeping P held paid refused now) (hl : paid k copy l)
    (facts : Settlement) (hold : Hold) :
    Follows P (Funded fun _ l ↦ paid k copy l) (assertCaptureLedger facts hold) l := by
  unfold assertCaptureLedger
  refine follows_readPaid h (.ledgerEntry ..) trivial hl fun entry l hl ↦ ?_
  cases entry with
  | none => exact show ErrorKind.valueError ≠ .insufficientBalance by decide
  | some entry => exact follows_funded_reject (by decide) hl

/-! ### The holds -/

/-- What the protocol says of the calls on the holds. -/
def onHolds (P : Protocol Raised BillingCall BillingCall.Out Λ) :
    Protocol Raised HoldCall HoldCall.Out Λ where
  permits l request := P.permits l (.hold request)
  truthful request reply := P.truthful (.hold request) reply
  learns l request reply := P.learns l (.hold request) reply

theorem follows_holds {post : Result α → Λ → Prop} {p : HoldProgram α}
    (h : Follows (onHolds P) post p l) : Follows P post (holds p) l := by
  unfold holds
  refine h.lift ?_ ?_ ?_
  · exact fun _ _ hpermits ↦ hpermits
  · intro request reply htrue
    cases reply <;> exact htrue
  · intro l request reply
    cases reply <;> rfl

/-- A call on the holds before the period is paid. -/
theorem follows_holdRead (h : Bookkeeping P held paid refused now) (request : HoldCall)
    (hquiet : (BillingCall.hold request).Quiet) {f : request.Out → HoldProgram β}
    (hl : held k copy l)
    (hok : ∀ value l, held k copy l → Follows (onHolds P) (Settles (held k copy) Q) (f value) l) :
    Follows (onHolds P) (Settles (held k copy) Q) (Program.perform request >>= f) l := by
  obtain ⟨hpermits, hreply⟩ := h.reads hquiet hl
  exact follows_perform hpermits (fun value htrue ↦ hok value _ (hreply (.ok value) htrue))
    fun raised htrue _ ↦ hreply (.error raised) htrue

/-- A call on the holds once the period may be paid. -/
theorem follows_holdReadPaid (h : Bookkeeping P held paid refused now) (request : HoldCall)
    (hquiet : (BillingCall.hold request).Quiet) {f : request.Out → HoldProgram β}
    (hl : paid k copy l)
    (hok : ∀ value l, paid k copy l → Follows (onHolds P) (Funded Q) (f value) l) :
    Follows (onHolds P) (Funded Q) (Program.perform request >>= f) l := by
  obtain ⟨hpermits, hreply⟩ := h.readsPaid hquiet hl
  exact follows_perform hpermits (fun value htrue ↦ hok value _ (hreply (.ok value) htrue).1)
    fun raised htrue ↦ (hreply (.error raised) htrue).2 raised rfl

theorem follows_resolveHold (h : Bookkeeping P held paid refused now) (hl : held k copy l)
    (walletId holdId : Uuid) (key : String) :
    Follows (onHolds P) (Settles (held k copy) fun _ l ↦ held k copy l)
      (HoldService.resolveHold walletId holdId key) l := by
  unfold HoldService.resolveHold
  refine follows_holdRead h (.get holdId) trivial hl fun found l hl ↦ ?_
  cases found with
  | some hold => exact hl
  | none =>
    refine follows_holdRead h (.getByIdempotency walletId key) trivial hl fun found l hl ↦ ?_
    cases found with
    | some hold => exact hl
    | none => exact fun _ ↦ hl

theorem follows_captureCreated (h : Bookkeeping P held paid refused now) (hl : held k copy l)
    (holdId : Uuid) (resolved : Hold) :
    Follows (onHolds P) (Settles (held k copy) fun _ l ↦ paid k copy l)
      (HoldService.captureCreated holdId resolved) l := by
  unfold HoldService.captureCreated
  by_cases hcreated : resolved.status = .created
  · rw [if_pos hcreated]
    have hpays : (BillingCall.hold (.capture resolved.id)).Pays := trivial
    obtain ⟨hpermits, hvalue, hraised⟩ := h.pays hpays hl
    refine follows_perform hpermits (fun captured htrue ↦ ?_) fun raised htrue _ ↦ hraised raised htrue
    have hpaid := hvalue captured htrue
    cases captured with
    | some hold => exact hpaid
    | none =>
      refine Follows.mono funded_settles ?_
      exact follows_holdReadPaid h (.get holdId) trivial hpaid fun found l hl ↦ hl
  · rw [if_neg hcreated]
    exact h.weaken hl

theorem follows_postOnce (h : Bookkeeping P held paid refused now) (hl : paid k copy l)
    (entry : PostCall) :
    Follows (onHolds P) (Funded fun _ l ↦ paid k copy l) (HoldService.postOnce entry) l := by
  have hquiet : (BillingCall.hold (.post entry)).Quiet := trivial
  obtain ⟨hpermits, hreply⟩ := h.readsPaid hquiet hl
  refine follows_tryCatch ⟨hpermits, fun reply htrue ↦ ?_⟩
  obtain ⟨hl', hkind⟩ := hreply reply htrue
  cases reply with
  | ok posted => exact hl'
  | error raised =>
    by_cases hduplicate : raised.kind = .duplicateIdempotency
    · show Follows _ _ (if raised.kind = .duplicateIdempotency then _ else _) _
      rw [if_pos hduplicate]
      exact hl'
    · show Follows _ _ (if raised.kind = .duplicateIdempotency then _ else _) _
      rw [if_neg hduplicate]
      exact hkind raised rfl

/-- The capture of a hold debits the wallet once at most, and is refused before it has. -/
theorem follows_captureHold (h : Bookkeeping P held paid refused now) (hl : held k copy l)
    (walletId holdId : Uuid) (key : String) :
    Follows (onHolds P) (Settles (held k copy) fun _ l ↦ paid k copy l)
      (HoldService.captureHold walletId holdId key) l := by
  unfold HoldService.captureHold
  refine follows_bind ((follows_resolveHold h hl walletId holdId key).mono fun outcome l hl ↦ ?_)
  cases outcome with
  | error raised => exact hl
  | ok resolved =>
    refine follows_lift (fun _ _ ↦ ?_) fun _ _ _ ↦ hl
    refine follows_bind ((follows_captureCreated h hl holdId resolved).mono fun outcome l hl ↦ ?_)
    cases outcome with
    | error raised => exact hl
    | ok hold =>
      refine follows_bind ((follows_postOnce h hl _).mono fun outcome l hl ↦ ?_)
      cases outcome with
      | error raised => exact fun hinsufficient ↦ absurd hinsufficient hl
      | ok _ => exact hl

/-- The release of a hold debits nothing. -/
theorem follows_releaseHold (h : Bookkeeping P held paid refused now) (hl : held k copy l)
    (walletId holdId : Uuid) (key : String) :
    Follows (onHolds P) (Settles (held k copy) fun _ l ↦ paid k copy l)
      (HoldService.releaseHold walletId holdId key) l := by
  unfold HoldService.releaseHold
  refine follows_bind ((follows_resolveHold h hl walletId holdId key).mono fun outcome l hl ↦ ?_)
  cases outcome with
  | error raised => exact hl
  | ok resolved =>
    refine follows_lift (fun _ _ ↦ ?_) fun _ _ _ ↦ hl
    have hreleased : Follows (onHolds P) (Settles (held k copy) fun _ l ↦ held k copy l)
        (HoldService.releaseCreated resolved) l := by
      unfold HoldService.releaseCreated
      by_cases hcreated : resolved.status = .created
      · rw [if_pos hcreated]
        exact follows_holdRead h (.release resolved.id) trivial hl fun _ _ hl ↦ hl
      · rw [if_neg hcreated]
        exact hl
    refine follows_bind (hreleased.mono fun outcome l hl ↦ ?_)
    cases outcome with
    | error raised => exact hl
    | ok hold =>
      refine follows_bind ((follows_postOnce h (h.weaken hl) _).mono fun outcome l hl ↦ ?_)
      cases outcome with
      | error raised => exact fun hinsufficient ↦ absurd hinsufficient hl
      | ok _ => exact hl

/-! ### One period -/

/-- What the settlement of period `k` of a copy leaves. -/
abbrev SettlesPeriod (held : ℕ → CloudServer → Λ → Prop) (k : ℕ) (server : CloudServer)
    (periodEnd : ℤ) : Result CloudServer → Λ → Prop :=
  Settles (held k server) fun advanced l ↦
    held (k + 1) advanced l ∧ AdvancedTo server periodEnd advanced

theorem follows_settleByCapture (h : Bookkeeping P held paid refused now)
    (hl : held k facts.server l) (hold : Hold) (unconfirmed : String) :
    Follows P (SettlesPeriod held k facts.server facts.periodEnd)
      (settleByCapture facts hold unconfirmed) l := by
  unfold settleByCapture
  refine follows_settles_bind (follows_holds (follows_captureHold h hl _ _ _)) fun captured l hl ↦ ?_
  refine Follows.mono funded_settles (follows_funded_guard (by decide) ?_)
  exact follows_funded_bind (follows_assertCaptureLedger h hl facts captured)
    fun _ _ hl ↦ follows_finish h hl _

theorem follows_settleCapped (h : Bookkeeping P held paid refused now) (hl : held k facts.server l) :
     Follows P (SettlesPeriod held k facts.server facts.periodEnd) (settleCapped facts) l := by
  have hadvance : ∀ l, paid k facts.server l →
      Follows P (SettlesPeriod held k facts.server facts.periodEnd)
        (advance facts.server facts.periodEnd) l :=
    fun l hl ↦ (follows_advance h hl _).mono funded_settles
  unfold settleCapped
  cases facts.hold with
  | none => exact hadvance l (h.weaken hl)
  | some hold =>
    by_cases hcaptured : hold.status = .captured
    · simp only [hcaptured, if_true]
      exact follows_settleByCapture h hl hold _
    · by_cases hcreated : hold.status = .created
      · simp only [hcreated, if_true, reduceCtorEq, if_false]
        refine follows_settles_bind (follows_holds (follows_releaseHold h hl _ _ _))
          fun released l hl ↦ ?_
        refine Follows.mono funded_settles (follows_funded_guard (by decide) ?_)
        exact follows_advance h hl _
      · simp only [hcaptured, hcreated, if_false]
        exact hadvance l (h.weaken hl)

theorem follows_settleFresh (h : Bookkeeping P held paid refused now) (hl : held k facts.server l) :
    Follows P (SettlesPeriod held k facts.server facts.periodEnd) (settleFresh facts) l := by
  unfold settleFresh
  cases facts.hold with
  | some hold =>
    refine follows_settles_lift hl fun _ ↦ follows_settles_lift hl fun _ ↦ ?_
    exact follows_settleByCapture h hl hold _
  | none => exact follows_pay h (.adjust _) trivial hl fun _ l hl ↦ follows_finish h hl _

/-- A period debits the wallet once at most and then moves the watermark; what is refused for want of
funds has debited nothing. -/
theorem follows_settlePeriod (h : Bookkeeping P held paid refused now) (hl : held k server l)
    (periodStart periodEnd : ℤ) :
    Follows P (SettlesPeriod held k server periodEnd) (settlePeriod server periodStart periodEnd) l := by
  unfold settlePeriod
  refine follows_settles_bind (follows_loadPeriod h hl server periodStart periodEnd) ?_
  rintro facts l ⟨hl, rfl, rfl⟩
  refine follows_settles_bind (follows_replayMatches h facts facts.candidateKeys hl)
    fun keys l hl ↦ follows_settles_lift hl fun _ ↦ ?_
  cases keys with
  | cons key rest => exact (follows_finish h (h.weaken hl) key).mono funded_settles
  | nil =>
    cases hcap : facts.snapshot.rule.monthlyCapMinor with
    | none =>
      dsimp only
      exact follows_settleFresh h hl
    | some cap =>
      dsimp only
      refine follows_read h (.monthTotal ..) trivial hl fun billed l hl ↦ ?_
      by_cases hbeyond : billed + facts.snapshot.sellingMinor > cap
      · rw [if_pos hbeyond]
        exact follows_settleCapped h hl
      · rw [if_neg hbeyond]
        exact follows_settleFresh h hl

/-! ### The due periods -/

theorem extends_refl (server : CloudServer) (now : ℤ) : Extends server now 0 server :=
  ⟨⟨server.lastAccruedAt, server.updatedAt, rfl⟩, fun _ ↦ rfl, fun h ↦ absurd h (lt_irrefl 0)⟩

/-- One more period. -/
theorem Extends.advance {server advanced : CloudServer} (h : Extends server now k copy)
    {periodEnd : ℤ}
    (hend : periodEnd = paidThrough server now + server.quantumSeconds * (k + 1 : ℕ) * second)
    (hadvanced : AdvancedTo copy periodEnd advanced) : Extends server now (k + 1) advanced := by
  obtain ⟨version, rfl⟩ := hadvanced
  obtain ⟨watermark, version', hcopy⟩ := h.same
  refine ⟨⟨_, version, by rw [moved, hcopy]⟩, fun hk ↦ absurd hk (Nat.succ_ne_zero k), fun _ ↦ ?_⟩
  refine ⟨(copy.lastAccruedAt.map (max · periodEnd)).getD periodEnd, rfl, ?_⟩
  rw [← hend]
  cases copy.lastAccruedAt with
  | none => exact le_refl periodEnd
  | some last => exact le_max_right last periodEnd

/-- How a want of funds ends: the copy is still covered, or its deletion is requested. -/
def Refusal (refused : ℕ → CloudServer → Λ → Prop) (server : CloudServer) (now : ℤ) (l : Λ) : Prop :=
  ∃ k copy, Extends server now k copy ∧
    (Covers copy now ∧ refused k copy l ∨ refused k (deletionRequested copy now) l)

/-- What a part of the accrual of a server leaves. -/
def Accrues (refused : ℕ → CloudServer → Λ → Prop) (server : CloudServer) (now : ℤ)
    (Q : CloudServer → Λ → Prop) : Result CloudServer → Λ → Prop
  | .ok copy, l => Q copy l
  | .error raised, l => raised.kind = .insufficientBalance → Refusal refused server now l

theorem follows_requestUnpaidDeletion (h : Bookkeeping P held paid refused now) (hl : held k copy l)
    (hextends : Extends server now k copy) : Follows P (fun outcome l ↦ match outcome with
      | .ok _ => Refusal refused server now l
      | .error raised => raised.kind ≠ .insufficientBalance) (requestUnpaidDeletion copy now) l := by
  unfold requestUnpaidDeletion
  by_cases hcovered : copy.lastAccruedAt.any (now < ·) = true
  · rw [if_pos hcovered]
    have hcovers : Covers copy now := covers_iff.mp hcovered
    exact ⟨k, copy, hextends, .inl ⟨hcovers, h.covered hl hcovers⟩⟩
  · rw [if_neg hcovered]
    refine follows_lift (fun requested hrequested ↦ ?_) fun raised hraised ↦ ?_
    · obtain ⟨-, hdone⟩ := rejectIf_bind_eq_ok.mp hrequested
      obtain rfl := pure_eq_ok.mp hdone
      obtain ⟨hpermits, hrow, hkind⟩ := h.requests hl
      refine follows_perform hpermits (fun row htrue ↦ ?_) hkind
      exact ⟨k, copy, hextends, .inr (hrow row htrue)⟩
    · show raised.kind ≠ .insufficientBalance
      rcases kind_of_guard hraised with hkind | hdone
      · rw [hkind]
        decide
      · cases hdone

/-- A period of the loop, with what a want of funds asks for. -/
theorem follows_settleOrRequestDeletion (h : Bookkeeping P held paid refused now)
    (hl : held k copy l) (hextends : Extends server now k copy) (periodStart : ℤ) {periodEnd : ℤ}
    (hend : periodEnd = paidThrough server now + server.quantumSeconds * (k + 1 : ℕ) * second) :
    Follows P (Accrues refused server now fun advanced l ↦
        held (k + 1) advanced l ∧ Extends server now (k + 1) advanced)
      (settleOrRequestDeletion now copy periodStart periodEnd) l := by
  unfold settleOrRequestDeletion
  refine follows_tryCatch ((follows_settlePeriod h hl periodStart periodEnd).mono
    fun outcome l houtcome ↦ ?_)
  cases outcome with
  | ok advanced => exact ⟨houtcome.1, hextends.advance hend houtcome.2⟩
  | error raised =>
    by_cases hinsufficient : raised.kind = .insufficientBalance
    · show Follows P _ (if raised.kind = .insufficientBalance then _ else _) _
      rw [if_pos hinsufficient]
      refine follows_bind ((follows_requestUnpaidDeletion h (houtcome hinsufficient) hextends).mono
        fun outcome l hrefusal ↦ ?_)
      cases outcome with
      | ok _ => exact fun _ ↦ hrefusal
      | error other => exact fun hother ↦ absurd hother hrefusal
    · show Follows P _ (if raised.kind = .insufficientBalance then _ else _) _
      rw [if_neg hinsufficient]
      exact fun hother ↦ absurd hother hinsufficient

theorem kind_of_addSeconds {instant seconds : ℤ} {raised : Raised}
    (h : addSeconds instant seconds = .error raised) : raised.kind ≠ .insufficientBalance := by
  rcases kind_of_guard h with hkind | hdone
  · rw [hkind]
    decide
  · cases hdone

/-- The periods of the loop, each from where the last one has left the copy. -/
theorem follows_settlePeriods (h : Bookkeeping P held paid refused now) :
    ∀ (remaining k : ℕ) {copy : CloudServer} {l : Λ}, held k copy l → Extends server now k copy →
      Follows P (Accrues refused server now fun advanced l ↦
          held (k + remaining) advanced l ∧ Extends server now (k + remaining) advanced)
        (settlePeriods (settleOrRequestDeletion now) (paidThrough server now) server.quantumSeconds k
          remaining copy) l
  | 0, _, _, _, hl, hextends => ⟨hl, hextends⟩
  | remaining + 1, k, copy, l, hl, hextends => by
    unfold settlePeriods
    refine follows_lift (fun periodStart hstart ↦ ?_)
      fun raised hraised hkind ↦ absurd hkind (kind_of_addSeconds hraised)
    refine follows_lift (fun periodEnd hfinish ↦ ?_)
      fun raised hraised hkind ↦ absurd hkind (kind_of_addSeconds hraised)
    have hend : periodEnd =
        paidThrough server now + server.quantumSeconds * (k + 1 : ℕ) * second := by
      rw [addSeconds_eq_ok hfinish, addSeconds_eq_ok hstart]
      push_cast
      ring
    refine follows_bind ((follows_settleOrRequestDeletion h hl hextends periodStart hend).mono
      fun outcome l houtcome ↦ ?_)
    cases outcome with
    | error raised => exact houtcome
    | ok advanced =>
      have hrest := follows_settlePeriods h remaining (k + 1) houtcome.1 houtcome.2
      rw [Nat.add_right_comm, Nat.add_assoc] at hrest
      exact hrest

/-- What the accrual of a server up to an instant establishes: the copy is covered beyond it, unless its
anchor is yet to come. -/
structure AccruedTo (held : ℕ → CloudServer → Λ → Prop) (server : CloudServer) (now coverageAt : ℤ)
    (copy : CloudServer) (l : Λ) : Prop where
  held : ∃ k, held k copy l ∧ Extends server now k copy
  covered : 0 < server.quantumSeconds →
    Covers copy coverageAt ∨ ∃ start ∈ server.billingStartedAt, coverageAt < start

theorem follows_accrueServer (h : Bookkeeping P held paid refused now)
    (hmodel : (server.isPrepaidMonthly || server.isPrepaidHourlyIrt) = false) (hl : held 0 server l)
    (coverageAt : ℤ) : Follows P (Accrues refused server now (AccruedTo held server now coverageAt))
      (accrueServer (settleOrRequestDeletion now) server coverageAt) l := by
  unfold accrueServer
  rw [if_neg (by simp [hmodel])]
  cases hanchor : server.billingStartedAt with
  | none => exact fun hkind ↦ nomatch hkind
  | some start =>
    have hlast : server.lastAccruedAt.getD start = paidThrough server now := by
      rw [paidThrough, hanchor, Option.getD_some]
    dsimp only
    rw [hlast]
    refine follows_lift (fun _ _ ↦ ?_) fun raised hraised hkind ↦ ?_
    · by_cases hahead : coverageAt < paidThrough server now
      · rw [if_pos hahead]
        refine ⟨⟨0, hl, extends_refl server now⟩, fun _ ↦ ?_⟩
        cases hwatermark : server.lastAccruedAt with
        | some watermark =>
          refine .inl ⟨watermark, hwatermark, ?_⟩
          rw [← hlast, hwatermark, Option.getD_some] at hahead
          exact hahead
        | none =>
          refine .inr ⟨start, hanchor, ?_⟩
          rw [← hlast, hwatermark, Option.getD_none] at hahead
          exact hahead
      · rw [if_neg hahead]
        refine follows_lift (fun _ _ ↦ ?_) fun raised hraised hkind ↦ ?_
        · refine (follows_settlePeriods h _ 0 hl (extends_refl server now)).mono
            fun outcome l houtcome ↦ ?_
          cases outcome with
          | error raised => exact houtcome
          | ok copy =>
            refine ⟨⟨_, houtcome⟩, fun hquantum ↦ .inl ?_⟩
            have hspan : 0 < server.quantumSeconds * second := by
              simp only [second]
              omega
            have hfloor := Int.lt_ediv_add_one_mul_self (coverageAt - paidThrough server now) hspan
            have hdue : 0 ≤ (coverageAt - paidThrough server now) / (server.quantumSeconds * second) :=
              Int.ediv_nonneg (by omega) hspan.le
            obtain ⟨paid, hpaid, hle⟩ := houtcome.2.watermark_le (by omega)
            refine ⟨paid, hpaid, ?_⟩
            rw [Nat.zero_add, Int.toNat_of_nonneg (by omega)] at hle
            calc coverageAt
                < paidThrough server now + ((coverageAt - paidThrough server now) /
                    (server.quantumSeconds * second) + 1) * (server.quantumSeconds * second) := by omega
              _ = paidThrough server now + server.quantumSeconds * ((coverageAt -
                    paidThrough server now) / (server.quantumSeconds * second) + 1) * second := by ring
              _ ≤ paid := hle
        · rw [kind_of_rejectIf hraised] at hkind
          cases hkind
    · rw [kind_of_rejectIf hraised] at hkind
      cases hkind

end Rules

/-! ### Prepayment -/

section Prepayment

variable {P : Protocol Raised BillingCall BillingCall.Out Λ}
  {held paid refused : CloudServer → ℕ → CloudServer → Λ → Prop} {now : ℤ} {l : Λ}

/-- The copy that a prepayment bills: the caller's copy with the facts of the row, and with an anchor. -/
structure StartedFrom (server row : CloudServer) (now : ℤ) (started : CloudServer) : Prop where
  same : ∃ anchor version,
    started = { refreshed server row with billingStartedAt := anchor, updatedAt := version }
  paidThrough_eq : paidThrough started now = paidThrough row now

/-- What a prepayment leaves. `held row` is an account of the copy since the row was read. -/
def Prepays (held refused : CloudServer → ℕ → CloudServer → Λ → Prop) (server : CloudServer)
    (now coverageAt : ℤ) : Result CloudServer → Λ → Prop
  | .ok copy, l => (∃ row k, held row k copy l) ∧ (0 < server.quantumSeconds →
      Covers copy coverageAt ∨ ∃ start ∈ copy.billingStartedAt, coverageAt < start)
  | .error raised, l => raised.kind = .insufficientBalance → ∃ row started,
      StartedFrom server row now started ∧ Refusal (refused row) started now l

theorem follows_anchored {row server : CloudServer}
    (h : Bookkeeping P (held row) (paid row) (refused row) now)
    (hl : held row 0 (refreshed server row) l) :
    Follows P (Funded fun started l ↦ held row 0 started l ∧ StartedFrom server row now started)
      (anchored (refreshed server row) now) l := by
  unfold anchored
  cases hanchor : (refreshed server row).billingStartedAt with
  | some start => exact ⟨hl, ⟨_, _, rfl⟩, rfl⟩
  | none =>
    obtain ⟨hpermits, hrow, hkind⟩ := h.anchors hl hanchor
    refine follows_perform hpermits (fun saved htrue ↦ ?_) hkind
    refine ⟨hrow saved htrue, ⟨some now, saved.updatedAt, rfl⟩, ?_⟩
    have hnone : row.billingStartedAt = none := hanchor
    show row.lastAccruedAt.getD now = row.lastAccruedAt.getD (row.billingStartedAt.getD now)
    rw [hnone, Option.getD_none]

/-- A prepayment reads the row and bills a copy of what it has read. -/
theorem follows_prepayLocked
    (h : ∀ row, Bookkeeping P (held row) (paid row) (refused row) now) {server : CloudServer}
    (hmodel : (server.isPrepaidMonthly || server.isPrepaidHourlyIrt) = false)
    (hpermits : P.permits l (.server server.id))
    (hrow : ∀ row, P.truthful (.server server.id) (.ok (some row)) →
      row.state ∈ [ServerLifecycleState.provisioning, .running, .stopped] →
      held row 0 (refreshed server row) (P.learns l (.server server.id) (.ok (some row))))
    (hread : ∀ raised, P.truthful (.server server.id) (.error raised) →
      raised.kind ≠ .insufficientBalance) (coverageAt : ℤ) :
    Follows P (Prepays held refused server now coverageAt) (prepayLocked server now coverageAt) l := by
  unfold prepayLocked
  refine follows_perform hpermits (fun found htrue ↦ ?_)
    fun raised htrue hkind ↦ absurd hkind (hread raised htrue)
  cases found with
  | none => exact fun hkind ↦ nomatch hkind
  | some row =>
    have hguard : ∀ {condition message} {raised : Raised},
        rejectIf condition .valueError message = .error raised →
          raised.kind ≠ .insufficientBalance := by
      intro condition message raised hraised
      rw [kind_of_rejectIf hraised]
      decide
    refine follows_lift (fun _ _ ↦ ?_) fun raised hraised hkind ↦ absurd hkind (hguard hraised)
    refine follows_lift (fun _ hstate ↦ ?_) fun raised hraised hkind ↦ absurd hkind (hguard hraised)
    refine follows_lift (fun _ _ ↦ ?_) fun raised hraised hkind ↦ absurd hkind (hguard hraised)
    have hactive : row.state ∈ [ServerLifecycleState.provisioning, .running, .stopped] :=
      not_not.mp (of_decide_eq_false (rejectIf_eq_ok.mp hstate))
    refine follows_bind ((follows_anchored (h row) (hrow row htrue hactive)).mono
      fun outcome l houtcome ↦ ?_)
    cases outcome with
    | error raised => exact fun hkind ↦ absurd hkind houtcome
    | ok started =>
      obtain ⟨hheld, hstarted⟩ := houtcome
      obtain ⟨anchor, version, hsame⟩ := hstarted.same
      have hmodel' : (started.isPrepaidMonthly || started.isPrepaidHourlyIrt) = false := by
        rw [hsame]
        exact hmodel
      have hquantum : started.quantumSeconds = server.quantumSeconds := by
        rw [hsame]
        rfl
      refine (follows_accrueServer (h row) hmodel' hheld coverageAt).mono fun outcome l houtcome ↦ ?_
      cases outcome with
      | error raised => exact fun hkind ↦ ⟨row, started, hstarted, houtcome hkind⟩
      | ok copy =>
        obtain ⟨k, hcopy, hextends⟩ := houtcome.held
        obtain ⟨_, _, hcopy'⟩ := hextends.same
        refine ⟨⟨row, k, hcopy⟩, fun hpositive ↦ ?_⟩
        have hanchor : copy.billingStartedAt = started.billingStartedAt := by rw [hcopy']
        rw [hanchor]
        exact houtcome.covered (hquantum ▸ hpositive)

end Prepayment

end AccrualJob

end CloudPlatform.Billing
