import Mathlib.Data.Option.Basic
import CloudPlatform.Transition.Run
import CloudPlatform.Wallets.Repository

/-!
# Exactly-once money under idempotency keys

`adjust` and `credit_deposit` share the key space of one ledger. A key moves money once, and the
balance is the sum of the signed deltas of the applied keys. A replay is compared with the stored
ledger entry, which is unsigned: only an ADJUSTMENT has its direction checked, through its audit
event. Reusing the key of another entry with the opposite sign therefore returns success, and so
does a deposit that meets an equal DEPOSIT entry posted under another reference. A replay is honest
exactly when it is neither (`exactlyOnce_iff_keepsDirection`).
-/

namespace CloudPlatform.Wallets

open Transition

/-! ### Calls and runs -/

/-- A call of one of the two posting paths. -/
inductive MoneyCall
  | adjust (call : AdjustCall)
  | creditDeposit (call : DepositCall)

namespace MoneyCall

/-- The key that the call uses. -/
def key : MoneyCall → String
  | .adjust call => strip call.idempotencyKey
  | .creditDeposit call => strip call.idempotencyKey

/-- The signed amount that the call moves. -/
def delta : MoneyCall → ℤ
  | .adjust call => call.delta
  | .creditDeposit call => call.amount

/-- The transaction of the call. -/
def perform (books : Books) : MoneyCall → Result (Books × Wallet × Bool)
  | .adjust call => Wallets.adjust books call
  | .creditDeposit call => Wallets.creditDeposit books call

end MoneyCall

/-- The rows, and the keys and deltas of the calls that returned `applied=True`. -/
structure MoneyRun where
  books : Books
  applied : List (String × ℤ) := []

/-- One call; a call that raises is rolled back. -/
def MoneyRun.step (s : MoneyRun) (call : MoneyCall) : MoneyRun :=
  match call.perform s.books with
  | .ok (after, _, true) => ⟨after, s.applied ++ [(call.key, call.delta)]⟩
  | .ok (after, _, false) => ⟨after, s.applied⟩
  | .error _ => s

/-- A new wallet, with no entry and no balance. -/
def MoneyRun.start (id userId : Uuid) (currency : String) : MoneyRun where
  books := { wallet := { id := id, userId := userId, balance := 0, currency := currency } }

/-! ### What the claim asks -/

/-- Each ledger entry is the single one of its key, carries the amount of the one call that applied
the key, and the balance is the sum of the applied deltas. -/
structure Balanced (s : MoneyRun) : Prop where
  balance_eq : s.books.wallet.balance = (s.applied.map (·.2)).sum
  ledger_eq : s.books.ledger.map (fun entry ↦ (entry.idempotencyKey, entry.amount)) =
    s.applied.map fun posting ↦ (posting.1, (posting.2.natAbs : ℤ))
  keys_nodup : (s.applied.map (·.1)).Nodup

/-- The facts of a ledger entry with the sign of its delta. -/
structure SignedFacts where
  entryType : LedgerEntryType
  delta : ℤ
  currency : String
  referenceType : String
  referenceId : String
  description : String

/-- The signed facts of a stored entry that was posted with a delta. -/
def LedgerEntry.signedFacts (entry : LedgerEntry) (delta : ℤ) : SignedFacts where
  entryType := entry.entryType
  delta := delta
  currency := entry.currency
  referenceType := entry.referenceType.getD ""
  referenceId := (entry.referenceId.map (·.text)).getD ""
  description := entry.description

/-- The signed facts that a call asks for. -/
def MoneyCall.signedFacts (wallet : Wallet) : MoneyCall → SignedFacts
  | .adjust call =>
    { entryType := call.entryType, delta := call.delta, currency := wallet.currency
      referenceType := call.referenceType, referenceId := call.referenceId
      description := call.description }
  | .creditDeposit call =>
    { entryType := .deposit, delta := call.amount, currency := wallet.currency
      referenceType := "payment", referenceId := ""
      description := depositDescription call.reference (strip call.idempotencyKey) }

/-- A call that returns a replay has the signed facts of the stored entry. -/
def HonestReplay (s : MoneyRun) (call : MoneyCall) : Prop :=
  ∀ after wallet, call.perform s.books = .ok (after, wallet, false) →
    ∀ entry delta, s.books.entry call.key = some entry → (call.key, delta) ∈ s.applied →
      call.signedFacts s.books.wallet = entry.signedFacts delta

/-- A call that raises leaves the rows as they were. -/
def RaisesClean (s : MoneyRun) (call : MoneyCall) : Prop :=
  ∀ raised, call.perform s.books = .error raised → s.step call = s

/-! ### The condition -/

/-- The checks that `adjust` makes before it looks its key up. -/
def AdmitsReplay (books : Books) (call : AdjustCall) : Prop :=
  checkAdjustCall call = .ok (strip call.idempotencyKey) ∧ authorizeAdjust call = .ok () ∧
    books.wallet.userId = call.userId ∧
    call.expectedCurrency.getD books.wallet.currency = books.wallet.currency

/-- The adjustment reuses the key of an entry that is not an ADJUSTMENT and agrees with it but for
the sign. -/
def ReversesEntry (s : MoneyRun) (call : AdjustCall) : Prop :=
  AdmitsReplay s.books call ∧ call.entryType ≠ .adjustment ∧
    (strip call.idempotencyKey, -call.delta) ∈ s.applied ∧
    ∃ entry, s.books.entry (strip call.idempotencyKey) = some entry ∧
      entry.entryType = call.entryType ∧ entry.currency = s.books.wallet.currency ∧
      entry.referenceType.getD "" = call.referenceType ∧
      (entry.referenceId.map (·.text)).getD "" = call.referenceId ∧
      entry.description = call.description

/-- The checks that `credit_deposit` makes before it looks its key up. -/
def AdmitsDeposit (books : Books) (call : DepositCall) : Prop :=
  (0 < call.amount ∧ call.amount ≤ maxInt64) ∧ strip call.idempotencyKey ≠ "" ∧
    books.wallet.userId = call.userId ∧
    ∀ currency ∈ call.expectedCurrency, currency = books.wallet.currency

/-- The deposit reuses the key of a DEPOSIT entry of its amount, currency and description that was
posted as a debit, or under another reference than a payment. -/
def MisreadsDeposit (s : MoneyRun) (call : DepositCall) : Prop :=
  AdmitsDeposit s.books call ∧
    ∃ entry, s.books.entry (strip call.idempotencyKey) = some entry ∧
      entry.entryType = .deposit ∧ entry.amount = call.amount ∧
      entry.currency = s.books.wallet.currency ∧
      entry.description = depositDescription call.reference (strip call.idempotencyKey) ∧
      ((strip call.idempotencyKey, -call.amount) ∈ s.applied ∨
        entry.referenceType.getD "" ≠ "payment" ∨ (entry.referenceId.map (·.text)).getD "" ≠ "")

/-- The condition on one call. -/
def KeepsDirection (s : MoneyRun) : MoneyCall → Prop
  | .adjust call => ¬ ReversesEntry s call
  | .creditDeposit call => ¬ MisreadsDeposit s call

/-! ### The invariant of the rows -/

/-- The rows of a run: the ledger is the list of the applied calls, and every audit event records
the signed delta of its key. -/
structure Posting (s : MoneyRun) : Prop extends Balanced s where
  audits : ∀ audit ∈ s.books.audits, ∃ delta,
    (audit.idempotencyKey, delta) ∈ s.applied ∧ audit.amount = toString delta

theorem posting_start (id userId : Uuid) (currency : String) :
    Posting (MoneyRun.start id userId currency) where
  balance_eq := rfl
  ledger_eq := rfl
  keys_nodup := List.nodup_nil
  audits := by
    intro audit haudit
    cases haudit

variable {s : MoneyRun} {key : String} {call : AdjustCall}

/-- An entry that is stored was applied, with a delta of its amount. -/
theorem Posting.applied_of_entry (hs : Posting s) {entry : LedgerEntry}
    (h : s.books.entry key = some entry) :
    ∃ delta, (key, delta) ∈ s.applied ∧ entry.amount = delta.natAbs := by
  obtain ⟨hmem, rfl⟩ := Books.mem_of_entry h
  have hpair : (entry.idempotencyKey, entry.amount) ∈
      s.applied.map fun posting ↦ (posting.1, (posting.2.natAbs : ℤ)) :=
    hs.ledger_eq ▸ List.mem_map_of_mem hmem
  obtain ⟨⟨key, delta⟩, happlied, heq⟩ := List.mem_map.mp hpair
  obtain ⟨rfl, hamount⟩ := Prod.mk.inj heq
  exact ⟨delta, happlied, hamount.symm⟩

/-- A key is applied with one delta. -/
theorem Posting.delta_unique (hs : Posting s) {first second : ℤ} (h : (key, first) ∈ s.applied)
    (h' : (key, second) ∈ s.applied) : first = second :=
  congrArg Prod.snd (List.inj_on_of_nodup_map hs.keys_nodup h h' rfl)

/-- A key without an entry was not applied. -/
theorem Posting.notMem_of_fresh (hs : Posting s) (h : s.books.entry key = none) :
    key ∉ s.applied.map (·.1) := by
  intro hmem
  obtain ⟨⟨other, delta⟩, happlied, rfl⟩ := List.mem_map.mp hmem
  have hpair : (other, (delta.natAbs : ℤ)) ∈
      s.books.ledger.map fun entry ↦ (entry.idempotencyKey, entry.amount) := by
    rw [hs.ledger_eq]
    exact List.mem_map_of_mem happlied
  obtain ⟨entry, hentry, heq⟩ := List.mem_map.mp hpair
  exact Books.entry_eq_none.mp h entry hentry (Prod.mk.inj heq).1

/-- A posting under a fresh key keeps the rows, with the audit events it adds. -/
theorem Posting.posted (hs : Posting s) {after : Books} {delta : ℤ} {entry : LedgerEntry}
    {audits : List AuditEvent} (hposted : Posted s.books after key delta entry audits)
    (hamount : entry.amount = delta.natAbs)
    (haudits : ∀ audit ∈ audits, audit.idempotencyKey = key ∧ audit.amount = toString delta) :
    Posting ⟨after, s.applied ++ [(key, delta)]⟩ where
  balance_eq := by
    rw [hposted.wallet, List.map_append, List.sum_append, ← hs.balance_eq]
    simp
  ledger_eq := by
    rw [hposted.ledger, List.map_append, List.map_append, hs.ledger_eq]
    simp [hposted.key_eq, hamount]
  keys_nodup := by
    rw [List.map_append]
    refine List.nodup_append.mpr ⟨hs.keys_nodup, by simp, ?_⟩
    rintro other hother new hnew rfl
    rw [List.mem_singleton.mp hnew] at hother
    exact hs.notMem_of_fresh hposted.fresh hother
  audits := by
    intro audit haudit
    rw [hposted.audits, List.mem_append] at haudit
    rcases haudit with hold | hnew
    · obtain ⟨earlier, hearlier, hsame⟩ := hs.audits audit hold
      exact ⟨earlier, List.mem_append_left _ hearlier, hsame⟩
    · obtain ⟨hkey, hsame⟩ := haudits audit hnew
      exact ⟨delta, by simp [hkey], hsame⟩

/-- Every call keeps the rows. -/
theorem Posting.step (hs : Posting s) (call : MoneyCall) : Posting (s.step call) := by
  cases call with
  | adjust call =>
    cases hcall : Wallets.adjust s.books call with
    | error raised =>
      have hstep : s.step (.adjust call) = s := by
        simp only [MoneyRun.step, MoneyCall.perform, hcall]
      rwa [hstep]
    | ok result =>
      obtain ⟨after, wallet, applied⟩ := result
      rcases adjust_eq_ok hcall with ⟨rfl, rfl, -⟩ | ⟨rfl, -, -, -, referenceId, -, hposted⟩
      · have hstep : s.step (.adjust call) = ⟨s.books, s.applied⟩ := by
          simp only [MoneyRun.step, MoneyCall.perform, hcall]
        rwa [hstep]
      · have hstep : s.step (.adjust call) =
            ⟨after, s.applied ++ [(strip call.idempotencyKey, call.delta)]⟩ := by
          simp only [MoneyRun.step, MoneyCall.perform, MoneyCall.key, MoneyCall.delta, hcall]
        rw [hstep]
        refine hs.posted hposted rfl fun audit haudit ↦ ?_
        obtain ⟨actor, -, rfl⟩ := Option.mem_map.mp (Option.mem_toList.mp haudit)
        exact ⟨rfl, rfl⟩
  | creditDeposit call =>
    cases hcall : Wallets.creditDeposit s.books call with
    | error raised =>
      have hstep : s.step (.creditDeposit call) = s := by
        simp only [MoneyRun.step, MoneyCall.perform, hcall]
      rwa [hstep]
    | ok result =>
      obtain ⟨after, wallet, applied⟩ := result
      obtain ⟨hpositive, ⟨rfl, rfl, -⟩ | ⟨rfl, hposted⟩⟩ := creditDeposit_eq_ok hcall
      · have hstep : s.step (.creditDeposit call) = ⟨s.books, s.applied⟩ := by
          simp only [MoneyRun.step, MoneyCall.perform, hcall]
        rwa [hstep]
      · have hstep : s.step (.creditDeposit call) =
            ⟨after, s.applied ++ [(strip call.idempotencyKey, call.amount)]⟩ := by
          simp only [MoneyRun.step, MoneyCall.perform, MoneyCall.key, MoneyCall.delta, hcall]
        rw [hstep]
        refine hs.posted hposted ?_ fun audit haudit ↦ by cases haudit
        change call.amount = (call.amount.natAbs : ℤ)
        omega

/-! ### Replays -/

/-- An adjustment that returns passed the checks before the lookup of its key. -/
theorem admitsReplay_of_ok {books after : Books} {wallet : Wallet} {applied : Bool}
    (h : Wallets.adjust books call = .ok (after, wallet, applied)) : AdmitsReplay books call := by
  obtain ⟨key, hcheck, hauthorize⟩ := bind_eq_ok.mp h
  obtain ⟨_, hallowed, huser⟩ := bind_eq_ok.mp hauthorize
  obtain ⟨howner, hcurrency⟩ := rejectIf_bind_eq_ok.mp huser
  obtain ⟨hsame, -⟩ := rejectIf_bind_eq_ok.mp hcurrency
  obtain ⟨rfl, -, -⟩ := checkAdjustCall_eq_ok hcheck
  exact ⟨hcheck, hallowed, by simpa using howner, by simpa using hsame⟩

/-- An admitted adjustment that agrees with the entry of its key returns a replay. -/
theorem adjust_replays {books : Books} {prior : LedgerEntry} (hadmits : AdmitsReplay books call)
    (hreplays : ReplaysAdjust books call prior) (hother : call.entryType ≠ .adjustment) :
    Wallets.adjust books call = .ok (books, books.wallet, false) := by
  obtain ⟨hcheck, hallowed, howner, hcurrency⟩ := hadmits
  have hfacts : checkAdjustReplay prior books.wallet (strip call.idempotencyKey) call = .ok () :=
    rejectIf_eq_ok.mpr (decide_eq_false (not_not.mpr ⟨hreplays.entryType, hreplays.amount,
      hreplays.currency, hreplays.referenceType, hreplays.referenceId, hreplays.description⟩))
  simp only [Wallets.adjust, hcheck, hallowed, ok_bind, howner, hcurrency, hreplays.stored, hfacts,
    rejectIf, ne_eq, not_true_eq_false, decide_false, Bool.false_eq_true, if_false, if_neg hother]
  rfl

theorem creditDeposit_replays {books : Books} {call : DepositCall} {prior : LedgerEntry}
    (hadmits : AdmitsDeposit books call) (hreplays : ReplaysDeposit books call prior) :
    Wallets.creditDeposit books call = .ok (books, books.wallet, false) := by
  obtain ⟨hamount, hkey, howner, hcurrency⟩ := hadmits
  have hfacts : checkDepositReplay prior call.amount books.wallet.currency call.reference
      (strip call.idempotencyKey) = .ok () := by
    refine rejectIf_eq_ok.mpr ?_
    simp [hreplays.amount, hreplays.currency, hreplays.entryType, hreplays.description]
  have hexpected : (call.expectedCurrency.any fun currency ↦
      decide (currency ≠ books.wallet.currency)) = false := by
    cases hcase : call.expectedCurrency with
    | none => rfl
    | some currency => simp [hcurrency currency hcase]
  simp only [Wallets.creditDeposit, hamount, hkey, howner, hexpected, hreplays.stored, hfacts,
    ok_bind, rejectIf, ne_eq, not_true_eq_false, and_self, decide_false, Bool.false_eq_true,
    if_false]
  rfl

theorem admitsDeposit_of_ok {books after : Books} {call : DepositCall} {wallet : Wallet}
    {applied : Bool} (h : Wallets.creditDeposit books call = .ok (after, wallet, applied)) :
    AdmitsDeposit books call := by
  obtain ⟨hamount, hkey⟩ := rejectIf_bind_eq_ok.mp h
  obtain ⟨hnonempty, huser⟩ := rejectIf_bind_eq_ok.mp hkey
  obtain ⟨howner, hcurrency⟩ := rejectIf_bind_eq_ok.mp huser
  obtain ⟨hexpected, -⟩ := rejectIf_bind_eq_ok.mp hcurrency
  refine ⟨not_not.mp (of_decide_eq_false hamount), of_decide_eq_false hnonempty,
    by simpa using howner, fun currency hmem ↦ ?_⟩
  rw [Option.mem_def] at hmem
  rw [hmem] at hexpected
  exact not_not.mp (of_decide_eq_false hexpected)

/-- The audit event of an ADJUSTMENT replay fixes the sign. -/
theorem Posting.delta_of_direction (hs : Posting s) {delta : ℤ}
    (happlied : (strip call.idempotencyKey, delta) ∈ s.applied)
    (hdirection : checkAdjustmentDirection s.books (strip call.idempotencyKey) call = .ok ()) :
    call.delta = delta := by
  unfold checkAdjustmentDirection at hdirection
  split at hdirection
  · exact absurd hdirection raise_ne_ok
  · rename_i audit haudit
    have hguard := rejectIf_eq_ok.mp hdirection
    have hmem : audit ∈ s.books.audits.filter (·.idempotencyKey = strip call.idempotencyKey) := by
      rw [haudit]
      exact List.mem_singleton_self audit
    obtain ⟨hstored, hkey⟩ := List.mem_filter.mp hmem
    obtain ⟨other, hother, hamount⟩ := hs.audits audit hstored
    rw [of_decide_eq_true hkey] at hother
    have htext : audit.amount = toString call.delta := by
      simpa using (Bool.or_eq_false_iff.mp hguard).2
    have hdelta : call.delta = other := toString_injective (htext.symm.trans hamount)
    exact hdelta.trans (hs.delta_unique hother happlied)
  · exact absurd hdirection raise_ne_ok

/-- Replays of a call are honest exactly when it keeps the direction and the reference of the entry
whose key it reuses. -/
theorem honestReplay_iff_keepsDirection (hs : Posting s) (call : MoneyCall) :
    HonestReplay s call ↔ KeepsDirection s call := by
  cases call with
  | adjust call =>
    constructor
    · rintro hhonest ⟨hadmits, hother, happlied, entry, hentry, htype, hcurrency, hrefType, hrefId,
        hdescription⟩
      obtain ⟨delta, hdelta, hamount⟩ := hs.applied_of_entry hentry
      have hsame : entry.amount = call.delta.natAbs := by
        rw [hamount, hs.delta_unique hdelta happlied, Int.natAbs_neg]
      have hreplay := adjust_replays hadmits
        ⟨hentry, htype, hsame, hcurrency, hrefType, hrefId, hdescription, fun h ↦ absurd h hother⟩
        hother
      have hfacts := hhonest _ _ hreplay entry (-call.delta) hentry happlied
      have hsign : call.delta = -call.delta := congrArg SignedFacts.delta hfacts
      have hnonzero := (checkAdjustCall_eq_ok hadmits.1).2.1
      omega
    · intro hkeeps after wallet hreplay entry delta hentry happlied
      obtain ⟨-, rfl, prior, hprior⟩ | ⟨hfalse, -⟩ := adjust_eq_ok hreplay
      · obtain rfl := Option.some.inj (hprior.stored.symm.trans hentry)
        obtain ⟨other, hother, hamount⟩ := hs.applied_of_entry hprior.stored
        obtain rfl := hs.delta_unique hother happlied
        have hdelta : call.delta = other := by
          by_cases hadjustment : call.entryType = .adjustment
          · exact hs.delta_of_direction happlied (hprior.direction hadjustment)
          · have habs : (other.natAbs : ℤ) = call.delta.natAbs := hamount.symm.trans hprior.amount
            by_contra hne
            have hreverse : other = -call.delta := by omega
            exact hkeeps ⟨admitsReplay_of_ok hreplay, hadjustment, hreverse ▸ happlied, prior,
              hprior.stored, hprior.entryType, hprior.currency, hprior.referenceType,
              hprior.referenceId, hprior.description⟩
        simp only [MoneyCall.signedFacts, LedgerEntry.signedFacts, hprior.entryType,
          hprior.currency, hprior.referenceType, hprior.referenceId, hprior.description, hdelta]
      · cases hfalse
  | creditDeposit call =>
    constructor
    · rintro hhonest ⟨hadmits, entry, hentry, htype, hamount, hcurrency, hdescription, hwrong⟩
      have hreplay := creditDeposit_replays hadmits
        ⟨hentry, hamount, hcurrency, htype, hdescription⟩
      obtain ⟨delta, hdelta, -⟩ := hs.applied_of_entry hentry
      have hfacts := hhonest _ _ hreplay entry delta hentry hdelta
      have hsign : call.amount = delta := congrArg SignedFacts.delta hfacts
      have hrefType : "payment" = entry.referenceType.getD "" :=
        congrArg SignedFacts.referenceType hfacts
      have hrefId : "" = (entry.referenceId.map (·.text)).getD "" :=
        congrArg SignedFacts.referenceId hfacts
      rcases hwrong with hreverse | htype' | hid
      · have hpositive := hadmits.1.1
        have := hs.delta_unique hreverse hdelta
        omega
      · exact htype' hrefType.symm
      · exact hid hrefId.symm
    · intro hkeeps after wallet hreplay entry delta hentry happlied
      obtain ⟨hpositive, ⟨-, rfl, prior, hprior⟩ | ⟨hfalse, -⟩⟩ := creditDeposit_eq_ok hreplay
      · obtain rfl := Option.some.inj (hprior.stored.symm.trans hentry)
        obtain ⟨other, hother, hamount⟩ := hs.applied_of_entry hprior.stored
        obtain rfl := hs.delta_unique hother happlied
        have hmisread := fun hwrong ↦ hkeeps ⟨admitsDeposit_of_ok hreplay, prior, hprior.stored,
          hprior.entryType, hprior.amount, hprior.currency, hprior.description, hwrong⟩
        have hdelta : call.amount = other := by
          have habs : (other.natAbs : ℤ) = call.amount := hamount.symm.trans hprior.amount
          by_contra hne
          have hreverse : other = -call.amount := by omega
          exact hmisread (Or.inl (hreverse ▸ happlied))
        have hrefType : prior.referenceType.getD "" = "payment" :=
          by_contra fun hne ↦ hmisread (Or.inr (Or.inl hne))
        have hrefId : (prior.referenceId.map (·.text)).getD "" = "" :=
          by_contra fun hne ↦ hmisread (Or.inr (Or.inr hne))
        simp only [MoneyCall.signedFacts, LedgerEntry.signedFacts, hprior.entryType,
          hprior.currency, hrefType, hrefId, hprior.description, hdelta]
      · cases hfalse

/-! ### Runs -/

/-- Exactly-once money in a run: the rows are balanced in every state, a call that raises leaves
them, and a replay that returns has the signed facts of the stored entry. -/
def ExactlyOnce (s : MoneyRun) (calls : List MoneyCall) : Prop :=
  Throughout MoneyRun.step Balanced s calls ∧ Along MoneyRun.step RaisesClean s calls ∧
    Along MoneyRun.step HonestReplay s calls

theorem raisesClean (s : MoneyRun) (call : MoneyCall) : RaisesClean s call := by
  intro raised hraised
  simp only [MoneyRun.step, hraised]

/-- A run on a new wallet moves money exactly once exactly when every call keeps the direction and
the reference of the entry whose key it reuses. -/
theorem exactlyOnce_iff_keepsDirection (id userId : Uuid) (currency : String)
    (calls : List MoneyCall) : ExactlyOnce (MoneyRun.start id userId currency) calls ↔
      Along MoneyRun.step KeepsDirection (MoneyRun.start id userId currency) calls := by
  have hstart := posting_start id userId currency
  have hposting : ∀ (s : MoneyRun) call, Posting s → Posting (s.step call) :=
    fun _ call hs ↦ hs.step call
  have hhonest := along_congr (fun _ call hs ↦ honestReplay_iff_keepsDirection hs call)
    (fun s call hs _ ↦ hposting s call hs) calls _ hstart
  have hclean : ∀ (rest : List MoneyCall) (s : MoneyRun), Along MoneyRun.step RaisesClean s rest := by
    intro rest
    induction rest with
    | nil => intro s; trivial
    | cons call rest ih => exact fun s ↦ ⟨raisesClean s call, ih _⟩
  rw [← hhonest, ExactlyOnce]
  refine ⟨fun h ↦ h.2.2, fun h ↦ ⟨?_, hclean calls _, h⟩⟩
  exact (throughout_of_step hposting calls _ hstart).mono fun _ hs ↦ hs.toBalanced

/-- The owner and the wallet of the run below. -/
def refundedUser : Uuid := ⟨"7e0a52b4-0000-4000-8000-000000000001", .refl true⟩

def refundedWallet : Uuid := ⟨"7e0a52b4-0000-4000-8000-000000000002", .refl true⟩

/-- A refund of an amount, or its reversal, under one key. -/
def refund (delta : ℤ) : MoneyCall :=
  .adjust { userId := refundedUser, delta := delta, idempotencyKey := "refund-1",
            entryType := .refund, description := "goodwill" }

/-- The reversal of a refund under the refund's key returns success and moves nothing. -/
theorem not_exactlyOnce_of_reversed_refund :
    let s := run MoneyRun.step (MoneyRun.start refundedWallet refundedUser "IRT") [refund 5000]
    (∃ wallet, (refund (-5000)).perform s.books = .ok (s.books, wallet, false)) ∧
      s.books.wallet.balance = 5000 ∧
      ¬ ∀ id userId currency calls, ExactlyOnce (MoneyRun.start id userId currency) calls := by
  intro s
  have hreplay : (refund (-5000)).perform s.books = .ok (s.books, s.books.wallet, false) := rfl
  obtain ⟨entry, hentry⟩ : ∃ entry, s.books.entry "refund-1" = some entry := ⟨_, rfl⟩
  have happlied : ((refund (-5000)).key, 5000) ∈ s.applied := by decide +kernel
  refine ⟨⟨_, hreplay⟩, by decide +kernel, fun h ↦ ?_⟩
  have hrun := (h refundedWallet refundedUser "IRT" [refund 5000, refund (-5000)]).2.2
  have hfacts := hrun.2.1 _ _ hreplay entry 5000 hentry happlied
  have hsign : (-5000 : ℤ) = 5000 := congrArg SignedFacts.delta hfacts
  omega

end CloudPlatform.Wallets
