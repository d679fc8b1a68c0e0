import Mathlib.Algebra.Order.BigOperators.Group.List
import Mathlib.Algebra.Order.Ring.Int
import CloudPlatform.Transition.Run
import CloudPlatform.Wallets.Repository

/-!
# Does the balance cover the holds?

A hold reserves a part of the balance, and the reconciliation report calls a balance below the sum
of the CREATED holds impossible. A hold is created only from free balance, a release frees its
amount and a capture debits it; `adjust` compares a debit with the whole balance, reserved funds
included. So the coverage of the holds is kept by every run in which no posted adjustment debits
more than the free balance, and lost by every other run (`coversHolds_iff_sparesHolds`).
-/

namespace CloudPlatform.Wallets

open Transition

/-! ### Runs of wallet transactions -/

/-- One row-locked transaction of the wallet. A hold is asked for with a positive amount. -/
inductive WalletEvent
  | adjust (call : AdjustCall)
  | creditDeposit (call : DepositCall)
  | createHold (walletId : Uuid) (amount : {amount : ℤ // 0 < amount}) (currency key : String)
      (newId : Uuid)
  | releaseHold (holdId : Uuid) (now : ℤ)
  | captureHold (holdId : Uuid) (now : ℤ)

/-- The rows after a transaction that commits `outcome`, or raises and is rolled back. -/
def Books.settle {α : Type} (books : Books) (outcome : Result (Books × α)) : Books :=
  match outcome with
  | .ok (after, _) => after
  | .error _ => books

theorem settle_cases {α : Type} (books : Books) (outcome : Result (Books × α)) :
    (∃ after value, outcome = .ok (after, value) ∧ books.settle outcome = after) ∨
      books.settle outcome = books := by
  cases outcome with
  | ok committed => exact Or.inl ⟨committed.1, committed.2, rfl, rfl⟩
  | error raised => exact Or.inr rfl

namespace WalletEvent

/-- The rows after one transaction. -/
def step (books : Books) : WalletEvent → Books
  | .adjust call => books.settle (Wallets.adjust books call)
  | .creditDeposit call => books.settle (Wallets.creditDeposit books call)
  | .createHold walletId amount currency key newId =>
    books.settle (Wallets.createHold books walletId amount currency key newId)
  | .releaseHold holdId now => (Wallets.releaseHold books holdId now).1
  | .captureHold holdId now => books.settle (Wallets.captureHold books holdId now)

end WalletEvent

/-- The rows of a new wallet. -/
def Books.empty (id userId : Uuid) (currency : String) : Books where
  wallet := { id := id, userId := userId, balance := 0, currency := currency }

/-! ### The condition -/

/-- The checks of `adjust` that do not concern the balance: valid arguments, authorization, the
owner, the currency, an unused key, the prepaid fence, the reference and the business event. -/
def AdmitsAdjust (books : Books) (call : AdjustCall) : Prop :=
  checkAdjustCall call = .ok (strip call.idempotencyKey) ∧ authorizeAdjust call = .ok () ∧
    books.wallet.userId = call.userId ∧
    call.expectedCurrency.getD books.wallet.currency = books.wallet.currency ∧
    books.entry (strip call.idempotencyKey) = none ∧
    checkServerFence books.wallet call = .ok () ∧
    (∃ referenceId, optionalUuid call.referenceId = .ok referenceId) ∧
    ∀ event ∈ call.businessEvent.bind
        (· { books.wallet with balance := books.wallet.balance + call.delta }),
      ∀ logged ∈ books.businessLog, logged.eventKey ≠ event.eventKey

/-- The condition on one transaction: an adjustment that passes its other checks and stays within
the balance leaves at least the sum of the CREATED holds. -/
def SparesHolds (books : Books) : WalletEvent → Prop
  | .adjust call => AdmitsAdjust books call → 0 ≤ books.wallet.balance + call.delta →
      books.wallet.balance + call.delta ≤ maxInt64 → books.held ≤ books.wallet.balance + call.delta
  | _ => True

/-- The coverage of the holds: the balance is not negative, it covers the CREATED holds, and no
capture raises for want of balance. -/
structure CoversHolds (books : Books) : Prop where
  nonneg : 0 ≤ books.wallet.balance
  held_le : books.held ≤ books.wallet.balance
  captures : ∀ holdId now message,
    captureHold books holdId now ≠ .error ⟨.insufficientBalance, message⟩

/-- An adjustment posts exactly when it is admitted and the new balance is within its bounds. -/
theorem adjust_applied_iff (books : Books) (call : AdjustCall) :
    (∃ after wallet, adjust books call = .ok (after, wallet, true)) ↔
      AdmitsAdjust books call ∧ 0 ≤ books.wallet.balance + call.delta ∧
        books.wallet.balance + call.delta ≤ maxInt64 := by
  constructor
  · rintro ⟨after, wallet, h⟩
    obtain ⟨key, hcheck, hauthorize⟩ := bind_eq_ok.mp h
    obtain ⟨_, hallowed, huser⟩ := bind_eq_ok.mp hauthorize
    obtain ⟨howner, hcurrency⟩ := rejectIf_bind_eq_ok.mp huser
    obtain ⟨hsame, hentry⟩ := rejectIf_bind_eq_ok.mp hcurrency
    obtain ⟨rfl, -, -⟩ := checkAdjustCall_eq_ok hcheck
    split at hentry
    · obtain ⟨_, -, hrest⟩ := bind_eq_ok.mp hentry
      split at hrest
      · obtain ⟨_, -, hdone⟩ := bind_eq_ok.mp hrest
        cases (Prod.mk.inj (Prod.mk.inj (pure_eq_ok.mp hdone)).2).2
      · cases (Prod.mk.inj (Prod.mk.inj (pure_eq_ok.mp hrest)).2).2
    · rename_i hfresh
      obtain ⟨_, hfence, hbalance⟩ := bind_eq_ok.mp hentry
      obtain ⟨hnonneg, hbounds⟩ := rejectIf_bind_eq_ok.mp hbalance
      obtain ⟨hmax, hreference⟩ := rejectIf_bind_eq_ok.mp hbounds
      obtain ⟨referenceId, hparse, hposted⟩ := bind_eq_ok.mp hreference
      obtain ⟨committed, henqueue, -⟩ := bind_eq_ok.mp hposted
      refine ⟨⟨hcheck, hallowed, by simpa using howner, by simpa using hsame, hfresh, hfence,
        ⟨referenceId, hparse⟩, fun event hevent ↦ ?_⟩, not_lt.mp (of_decide_eq_false hnonneg),
        not_lt.mp (of_decide_eq_false hmax)⟩
      unfold Books.enqueue at henqueue
      split at henqueue
      · rename_i hnone
        rw [Option.mem_def] at hevent
        cases hevent.symm.trans hnone
      · rename_i other hother
        obtain rfl := Option.some.inj (hother.symm.trans hevent)
        obtain ⟨hunused, -⟩ := rejectIf_bind_eq_ok.mp henqueue
        simpa [Books.withBalance] using hunused
  · rintro ⟨⟨hcheck, hallowed, howner, hsame, hfresh, hfence, ⟨referenceId, hparse⟩, hevent⟩,
      hnonneg, hmax⟩
    have hallowed' : authorizeAdjust call = .ok () := hallowed
    unfold adjust
    simp only [hcheck, hallowed', ok_bind, howner, hsame, hfresh, hfence, hparse, rejectIf,
      ne_eq, not_true_eq_false, decide_false, Bool.false_eq_true, if_false,
      decide_eq_true_eq, if_neg (not_lt.mpr hnonneg), if_neg (not_lt.mpr hmax)]
    unfold Books.enqueue
    split
    · exact ⟨_, _, rfl⟩
    · rename_i event hsome
      have hunused := hevent event hsome
      have hnone : (books.businessLog.any fun logged ↦ decide (logged.eventKey = event.eventKey)) =
          false := by simpa using hunused
      simp only [rejectIf, Books.withBalance, hnone, Bool.false_eq_true, if_false, ok_bind]
      exact ⟨_, _, rfl⟩

/-! ### The sum of the holds -/

/-- The sum of the CREATED holds of a list. -/
def activeSum (holds : List Hold) : ℤ :=
  ((holds.filter (·.status = .created)).map (·.amount)).sum

theorem activeSum_cons (hold : Hold) (rest : List Hold) : activeSum (hold :: rest) =
      (if hold.status = .created then hold.amount else 0) + activeSum rest := by
  by_cases h : hold.status = .created <;> simp [activeSum, h]

theorem activeSum_append (first second : List Hold) :
    activeSum (first ++ second) = activeSum first + activeSum second := by
  simp [activeSum]

/-- Replacing a hold that is not in the list changes nothing. -/
theorem map_replace_of_notMem {holds : List Hold} {changed : Hold}
    (h : changed.id ∉ holds.map (·.id)) :
    (holds.map fun other ↦ if other.id = changed.id then changed else other) = holds := by
  conv_rhs => rw [← List.map_id holds]
  refine List.map_congr_left fun other hother ↦ ?_
  have hne : other.id ≠ changed.id := by
    rintro heq
    exact h (heq ▸ List.mem_map_of_mem hother)
  rw [if_neg hne, id]

/-- A CREATED hold that becomes terminal leaves the sum. -/
theorem activeSum_replace {hold changed : Hold} (hid : changed.id = hold.id)
    (hcreated : hold.status = .created) (hterminal : changed.status ≠ .created) :
    ∀ {holds : List Hold}, (holds.map (·.id)).Nodup → hold ∈ holds →
      activeSum (holds.map fun other ↦ if other.id = changed.id then changed else other) =
        activeSum holds - hold.amount := by
  intro holds
  induction holds with
  | nil => intro _ hmem; cases hmem
  | cons first rest ih =>
    intro hnodup hmem
    rw [List.map_cons, List.nodup_cons] at hnodup
    rw [List.map_cons, activeSum_cons, activeSum_cons]
    rcases List.mem_cons.mp hmem with rfl | hrest
    · rw [if_pos hid.symm, map_replace_of_notMem (hid ▸ hnodup.1), if_neg hterminal,
        if_pos hcreated]
      omega
    · have hne : first.id ≠ changed.id := by
        rintro heq
        exact hnodup.1 (heq ▸ hid ▸ List.mem_map_of_mem hrest)
      rw [if_neg hne, ih hnodup.2 hrest]
      omega

/-! ### One transaction -/

/-- The holds have distinct ids, and the CREATED ones positive amounts. -/
structure HoldsSound (books : Books) : Prop where
  ids_nodup : (books.holds.map (·.id)).Nodup
  positive : ∀ hold ∈ books.holds, 0 < hold.amount

variable {books : Books}

theorem HoldsSound.setHold (h : HoldsSound books) {hold changed : Hold} (hmem : hold ∈ books.holds)
    (hamount : changed.amount = hold.amount) : HoldsSound (books.setHold changed) := by
  refine ⟨by rw [Books.setHold_ids]; exact h.ids_nodup, fun other hother ↦ ?_⟩
  obtain ⟨earlier, hearlier, rfl⟩ := List.mem_map.mp hother
  split
  · rw [hamount]
    exact h.positive hold hmem
  · exact h.positive earlier hearlier

theorem held_setHold (h : HoldsSound books) {hold : Hold} (hmem : hold ∈ books.holds)
    (changed : Hold) (hid : changed.id = hold.id) (hcreated : hold.status = .created)
    (hterminal : changed.status ≠ .created) :
    (books.setHold changed).held = books.held - hold.amount :=
  activeSum_replace hid hcreated hterminal h.ids_nodup hmem

/-- One amount of a CREATED hold is at most the sum of them all. -/
theorem amount_le_held (h : HoldsSound books) {hold : Hold} (hmem : hold ∈ books.holds)
    (hcreated : hold.status = .created) : hold.amount ≤ books.held := by
  have hactive : hold.amount ∈ books.activeHolds.map (·.amount) :=
    List.mem_map_of_mem (List.mem_filter.mpr ⟨hmem, by simpa using hcreated⟩)
  refine List.single_le_sum (fun amount hamount ↦ ?_) _ hactive
  obtain ⟨other, hother, rfl⟩ := List.mem_map.mp hamount
  exact (h.positive other (List.mem_of_mem_filter hother)).le

/-- A covered wallet captures every CREATED hold. -/
theorem coversHolds_of_held_le (h : HoldsSound books) (hnonneg : 0 ≤ books.wallet.balance)
    (hheld : books.held ≤ books.wallet.balance) : CoversHolds books := by
  refine ⟨hnonneg, hheld, fun holdId now message hraised ↦ ?_⟩
  unfold captureHold at hraised
  split at hraised
  · cases hraised
  · rename_i hold hhold
    split at hraised
    · rename_i hcreated
      have hle := amount_le_held h (Books.mem_of_hold hhold).1 hcreated
      have hcovered : ¬ books.wallet.balance < hold.amount := by omega
      by_cases hwallet : books.wallet.id = hold.walletId
      · simp [rejectIf, hwallet, hcovered, bind, Except.bind, pure, Except.pure] at hraised
      · simp [rejectIf, raise, hwallet, bind, Except.bind] at hraised
    · cases hraised

/-- Every transaction keeps the holds sound. -/
theorem HoldsSound.step (h : HoldsSound books) (event : WalletEvent) :
    HoldsSound (event.step books) := by
  have hsame : ∀ {after : Books}, after.holds = books.holds → HoldsSound after := fun heq ↦
    ⟨heq ▸ h.ids_nodup, heq ▸ h.positive⟩
  cases event with
  | adjust call =>
    simp only [WalletEvent.step]
    rcases settle_cases books (adjust books call) with ⟨after, result, hadjust, hstep⟩ | hstep
    · rw [hstep]
      rcases adjust_eq_ok hadjust with ⟨-, rfl, -⟩ | ⟨-, -, -, -, _, -, hposted⟩
      · exact h
      · exact hsame hposted.holds
    · rwa [hstep]
  | creditDeposit call =>
    simp only [WalletEvent.step]
    rcases settle_cases books (creditDeposit books call) with ⟨after, result, hcredit, hstep⟩ | hstep
    · rw [hstep]
      rcases (creditDeposit_eq_ok hcredit).2 with ⟨-, rfl, -⟩ | ⟨-, hposted⟩
      · exact h
      · exact hsame hposted.holds
    · rwa [hstep]
  | createHold walletId amount currency key newId =>
    simp only [WalletEvent.step]
    rcases settle_cases books (createHold books walletId amount currency key newId) with
      ⟨after, hold, hcreate, hstep⟩ | hstep
    · rw [hstep]
      rcases createHold_eq_ok hcreate with ⟨rfl, -⟩ | ⟨-, -, -, -, hid, rfl, rfl⟩
      · exact h
      · refine ⟨?_, fun hold hhold ↦ ?_⟩
        · rw [List.map_append]
          refine List.nodup_append.mpr ⟨h.ids_nodup, by simp, ?_⟩
          rintro id hid' other hother rfl
          obtain ⟨earlier, hearlier, hsameId⟩ := List.mem_map.mp hid'
          have hnew := List.mem_singleton.mp hother
          simp only [Books.hold, List.find?_eq_none, decide_eq_true_eq] at hid
          exact hid earlier hearlier (hsameId.trans hnew)
        · rcases List.mem_append.mp hhold with hold | hnew
          · exact h.positive _ hold
          · rw [List.mem_singleton.mp hnew]
            exact amount.2
    · rwa [hstep]
  | releaseHold holdId now =>
    simp only [WalletEvent.step]
    rcases releaseHold_cases books holdId now with ⟨hold, hhold, -, heq⟩ | ⟨heq, -⟩
    · rw [heq]
      exact h.setHold (Books.mem_of_hold hhold).1 rfl
    · rw [heq]
      exact h
  | captureHold holdId now =>
    simp only [WalletEvent.step]
    rcases settle_cases books (captureHold books holdId now) with
      ⟨after, captured, hcapture, hstep⟩ | hstep
    · rw [hstep]
      rcases captureHold_eq_ok hcapture with ⟨hold, hhold, -, -, -, -, rfl⟩ | ⟨rfl, -, -⟩
      · have hbalance : HoldsSound (books.withBalance (books.wallet.balance - hold.amount)) :=
          hsame rfl
        exact hbalance.setHold (Books.mem_of_hold hhold).1 rfl
      · exact h
    · rwa [hstep]

/-- From covered holds, one transaction keeps them covered exactly when it spares them. -/
theorem coversHolds_step_iff (hsound : HoldsSound books) (hcovers : CoversHolds books)
    (event : WalletEvent) : CoversHolds (event.step books) ↔ SparesHolds books event := by
  have hnext := hsound.step event
  have hnonneg := hcovers.nonneg
  have hheld := hcovers.held_le
  cases event with
  | adjust call =>
    by_cases happlied : ∃ after wallet, adjust books call = .ok (after, wallet, true)
    · obtain ⟨hadmits, hlow, hhigh⟩ := (adjust_applied_iff books call).mp happlied
      obtain ⟨after, wallet, hadjust⟩ := happlied
      obtain ⟨hfalse, -⟩ | ⟨-, -, -, -, _, -, hposted⟩ := adjust_eq_ok hadjust
      · cases hfalse
      have hstep : WalletEvent.step books (.adjust call) = after := by
        simp only [WalletEvent.step, Books.settle, hadjust]
      rw [hstep] at hnext ⊢
      have hafterHeld : after.held = books.held := by
        rw [Books.held, Books.activeHolds, hposted.holds]
        rfl
      have hafterBalance : after.wallet.balance = books.wallet.balance + call.delta := by
        rw [hposted.wallet]
      constructor
      · intro hafter _ _ _
        have := hafter.held_le
        omega
      · intro hspares
        have := hspares hadmits hlow hhigh
        exact coversHolds_of_held_le hnext (by omega) (by omega)
    · have hstep : WalletEvent.step books (.adjust call) = books := by
        simp only [WalletEvent.step]
        rcases settle_cases books (adjust books call) with
          ⟨after, ⟨wallet, applied⟩, hadjust, hstep⟩ | hstep
        · rcases adjust_eq_ok hadjust with ⟨-, rfl, -⟩ | ⟨rfl, -⟩
          · exact hstep
          · exact absurd ⟨after, wallet, hadjust⟩ happlied
        · exact hstep
      rw [hstep]
      exact ⟨fun _ hadmits hlow hhigh ↦
        absurd ((adjust_applied_iff books call).mpr ⟨hadmits, hlow, hhigh⟩) happlied,
        fun _ ↦ hcovers⟩
  | creditDeposit call =>
    refine ⟨fun _ ↦ trivial, fun _ ↦ ?_⟩
    simp only [WalletEvent.step] at hnext ⊢
    rcases settle_cases books (creditDeposit books call) with ⟨after, result, hcredit, hstep⟩ | hstep
    · rw [hstep] at hnext ⊢
      obtain ⟨hpositive, ⟨-, rfl, -⟩ | ⟨-, hposted⟩⟩ := creditDeposit_eq_ok hcredit
      · exact hcovers
      · have hafterHeld : after.held = books.held := by
          rw [Books.held, Books.activeHolds, hposted.holds]
          rfl
        have hafterBalance : after.wallet.balance = books.wallet.balance + call.amount := by
          rw [hposted.wallet]
        exact coversHolds_of_held_le hnext (by omega) (by omega)
    · rwa [hstep]
  | createHold walletId amount currency key newId =>
    refine ⟨fun _ ↦ trivial, fun _ ↦ ?_⟩
    simp only [WalletEvent.step] at hnext ⊢
    rcases settle_cases books (createHold books walletId amount currency key newId) with
      ⟨after, hold, hcreate, hstep⟩ | hstep
    · rw [hstep] at hnext ⊢
      rcases createHold_eq_ok hcreate with ⟨rfl, -⟩ | ⟨-, -, hfree, -, -, rfl, rfl⟩
      · exact hcovers
      · refine coversHolds_of_held_le hnext hnonneg ?_
        have hsum : ({ books with holds := books.holds ++
            [⟨newId, walletId, amount, currency, key, .created, none, none⟩] } : Books).held =
              books.held + amount := by
          change activeSum (_ ++ _) = activeSum _ + _
          rw [activeSum_append]
          simp [activeSum]
        rw [hsum]
        change _ ≤ books.wallet.balance
        omega
    · rwa [hstep]
  | releaseHold holdId now =>
    refine ⟨fun _ ↦ trivial, fun _ ↦ ?_⟩
    simp only [WalletEvent.step] at hnext ⊢
    rcases releaseHold_cases books holdId now with ⟨hold, hhold, hcreated, heq⟩ | ⟨heq, -⟩
    · have hmem := (Books.mem_of_hold hhold).1
      have hpositive := hsound.positive hold hmem
      rw [heq] at hnext ⊢
      have hreleased := held_setHold hsound hmem
        { hold with status := .released, releasedAt := some now } rfl hcreated nofun
      refine coversHolds_of_held_le hnext hnonneg ?_
      change (books.setHold _).held ≤ books.wallet.balance
      omega
    · rw [heq]
      exact hcovers
  | captureHold holdId now =>
    refine ⟨fun _ ↦ trivial, fun _ ↦ ?_⟩
    simp only [WalletEvent.step] at hnext ⊢
    rcases settle_cases books (captureHold books holdId now) with
      ⟨after, captured, hcapture, hstep⟩ | hstep
    · rw [hstep] at hnext ⊢
      rcases captureHold_eq_ok hcapture with
        ⟨hold, hhold, hcreated, -, hamount, -, rfl⟩ | ⟨rfl, -, -⟩
      · have hmem := (Books.mem_of_hold hhold).1
        have hdebited : HoldsSound (books.withBalance (books.wallet.balance - hold.amount)) :=
          ⟨hsound.ids_nodup, hsound.positive⟩
        have hcaptured := held_setHold hdebited hmem
          { hold with status := .captured, capturedAt := some now } rfl hcreated nofun
        rw [Books.withBalance_held] at hcaptured
        refine coversHolds_of_held_le hnext ?_ ?_
        · change 0 ≤ books.wallet.balance - hold.amount
          omega
        · change (Books.setHold _ _).held ≤ books.wallet.balance - hold.amount
          omega
      · exact hcovers
    · rwa [hstep]

/-! ### Runs -/

/-- Sound and covered holds. -/
def Solvent (books : Books) : Prop :=
  HoldsSound books ∧ CoversHolds books

theorem solvent_empty (id userId : Uuid) (currency : String) :
    Solvent (Books.empty id userId currency) := by
  have hsound : HoldsSound (Books.empty id userId currency) :=
    ⟨List.nodup_nil, fun hold hmem ↦ by cases hmem⟩
  exact ⟨hsound, coversHolds_of_held_le hsound le_rfl le_rfl⟩

/-- The holds of a new wallet stay covered through a run exactly when every transaction of it spares
them. -/
theorem coversHolds_iff_sparesHolds (id userId : Uuid) (currency : String)
    (events : List WalletEvent) :
    Throughout WalletEvent.step CoversHolds (Books.empty id userId currency) events ↔
      Along WalletEvent.step SparesHolds (Books.empty id userId currency) events := by
  have hsolvent : ∀ books event, Solvent books →
      (Solvent (WalletEvent.step books event) ↔ SparesHolds books event) := by
    intro books event h
    rw [← coversHolds_step_iff h.1 h.2 event]
    exact ⟨fun hnext ↦ hnext.2, fun hnext ↦ ⟨h.1.step event, hnext⟩⟩
  have hsound : ∀ books event, HoldsSound books → HoldsSound (WalletEvent.step books event) :=
    fun _ event h ↦ h.step event
  rw [← throughout_iff_along hsolvent events _ (solvent_empty id userId currency)]
  constructor
  · intro hcovers
    rw [throughout_iff_forall_take] at hcovers ⊢
    exact fun count ↦
      ⟨invariant_run hsound _ _ (solvent_empty id userId currency).1, hcovers count⟩
  · exact Throughout.mono fun _ h ↦ h.2

/-- The owner and the wallet of the runs below. -/
def sampleUser : Uuid := ⟨"3c1d4a5e-0000-4000-8000-000000000001", .refl true⟩

def sampleWallet : Uuid := ⟨"3c1d4a5e-0000-4000-8000-000000000002", .refl true⟩

def sampleHold : Uuid := ⟨"3c1d4a5e-0000-4000-8000-000000000003", .refl true⟩

/-- A deposit of 100, a hold of 80, and an hourly charge of 50 through `adjust`. -/
def reservedSpending : List WalletEvent :=
  [.creditDeposit { userId := sampleUser, amount := 100, idempotencyKey := "deposit-1" },
    .createHold sampleWallet ⟨80, by decide⟩ "IRT" "server-create:1" sampleHold,
    .adjust { userId := sampleUser, delta := -50, idempotencyKey := "accrual:1", entryType := .charge }]

/-- An adjustment spends reserved funds: the balance is below the CREATED hold, and its capture
raises. -/
theorem not_coversHolds_of_reserved_spending :
    let books := run WalletEvent.step (Books.empty sampleWallet sampleUser "IRT") reservedSpending
    books.wallet.balance = 50 ∧ books.held = 80 ∧
      (∃ message, captureHold books sampleHold 0 = .error ⟨.insufficientBalance, message⟩) ∧
      ¬ ∀ id userId currency events, CoversHolds (run WalletEvent.step (Books.empty id userId currency) events) := by
  intro books
  have hbalance : books.wallet.balance = 50 := by decide +kernel
  have hheld : books.held = 80 := by decide +kernel
  refine ⟨hbalance, hheld, ⟨_, rfl⟩, fun h ↦ ?_⟩
  have hcovered : books.held ≤ books.wallet.balance := (h _ _ _ reservedSpending).held_le
  rw [hbalance, hheld] at hcovered
  revert hcovered
  decide

end CloudPlatform.Wallets
