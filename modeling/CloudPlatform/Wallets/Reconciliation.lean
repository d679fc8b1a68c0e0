import Mathlib.Algebra.BigOperators.Group.List.Basic
import Mathlib.Tactic.Linarith
import CloudPlatform.Wallets.HoldRows

/-!
# The reconciliation report of a wallet

`check_wallet` derives what the holds and the ledger of a wallet imply and compares it with the
stored balance. The report is modelled for a wallet without currency migrations: the balance, the
currencies, the entries, the pairing of holds with entries, and the balance that the ledger nets to.
`isClean_report` says what a report without an ERROR finding establishes: a `Consistent` wallet.
-/

namespace CloudPlatform.Wallets

inductive WalletStatus
  | active
  | frozen
  | closed
  deriving DecidableEq

inductive FindingSeverity
  | error
  | warning
  deriving DecidableEq

/-- The stable identifiers of the findings. -/
inductive FindingCode
  | negativeBalance
  | overreserved
  | closedNonzeroBalance
  | currencyMismatchHold
  | currencyMismatchEntry
  | migrationBoundaryInvalid
  | zeroAmountEntry
  | duplicateIdempotencyKey
  | capturedHoldMissingCharge
  | releasedHoldMissingRelease
  | chargeWithoutHold
  | releaseWithoutHold
  | holdWithoutEntry
  | balanceLedgerMismatch
  deriving DecidableEq

/-- One detected anomaly in one wallet. -/
structure ReconciliationFinding where
  walletId : Uuid
  code : FindingCode
  severity : FindingSeverity
  message : String
  details : List (String × String) := []

def LedgerEntryType.value : LedgerEntryType → String
  | .deposit => "deposit"
  | .hold => "hold"
  | .release => "release"
  | .charge => "charge"
  | .refund => "refund"
  | .adjustment => "adjustment"
  | .currencyClose => "currency_close"
  | .currencyOpen => "currency_open"

def HoldStatus.value : HoldStatus → String
  | .created => "created"
  | .captured => "captured"
  | .released => "released"

/-- The reference of an entry as the ledger repository reads it back. -/
def LedgerEntry.referenceText (entry : LedgerEntry) : String :=
  (entry.referenceId.map (·.text)).getD ""

namespace Reconciliation

/-- One finding, reported when the condition is met. -/
def reportIf (condition : Bool) (finding : ReconciliationFinding) : List ReconciliationFinding :=
  if condition then [finding] else []

/-- `_resolve_hold`: by the id of the hold, else by its idempotency key. -/
def resolveHold (entry : LedgerEntry) (holds : List Hold) : Option Hold :=
  (holds.find? (·.id.text = entry.referenceText)).or
    (holds.find? (·.idempotencyKey = entry.referenceText))

section Checks

variable (walletId : Uuid)

/-- The sanity of the balance. -/
def checkBalance (status : WalletStatus) (balance : ℤ) (holds : List Hold) :
    List ReconciliationFinding :=
  let activeHeld := ((holds.filter (·.status = .created)).map (·.amount)).sum
  reportIf (balance < 0)
    ⟨walletId, .negativeBalance, .error, s!"balance is negative: {balance}", []⟩ ++
  reportIf (balance - activeHeld < 0) ⟨walletId, .overreserved, .error,
    s!"active holds exceed the balance (balance {balance} < held {activeHeld})", []⟩ ++
  reportIf (status = .closed && balance ≠ 0) ⟨walletId, .closedNonzeroBalance, .error,
    s!"closed wallet has non-zero balance: {balance}", []⟩

/-- The currency of one hold. -/
def checkHoldCurrency (currency : String) (hold : Hold) : List ReconciliationFinding :=
  reportIf (hold.currency ≠ currency) ⟨walletId, .currencyMismatchHold, .error,
    s!"hold {hold.idempotencyKey} currency {hold.currency} != wallet {currency}",
    [("hold_id", hold.id.text)]⟩

/-- The currency of one entry; without migrations no entry closes or opens a currency. -/
def checkEntryCurrency (currency : String) (entry : LedgerEntry) : List ReconciliationFinding :=
  reportIf (entry.currency ≠ currency) ⟨walletId, .currencyMismatchEntry, .error,
    s!"entry {entry.idempotencyKey} currency {entry.currency} is outside its " ++
      s!"audited {currency} epoch", [("entry_type", entry.entryType.value)]⟩ ++
  reportIf (entry.entryType = .currencyClose || entry.entryType = .currencyOpen)
    ⟨walletId, .migrationBoundaryInvalid, .error,
      "migration ledger event has no audit record", []⟩

/-- The sanity of the entries; `seenKeys` are the keys of the entries before them. -/
def checkEntries (seenKeys : List String) : List LedgerEntry → List ReconciliationFinding
  | [] => []
  | entry :: entries =>
    reportIf (entry.amount = 0) ⟨walletId, .zeroAmountEntry, .error,
      s!"entry {entry.idempotencyKey} has a zero amount",
      [("entry_type", entry.entryType.value)]⟩ ++
    reportIf (entry.idempotencyKey ∈ seenKeys) ⟨walletId, .duplicateIdempotencyKey, .error,
      s!"idempotency key {entry.idempotencyKey} used by multiple entries", []⟩ ++
    checkEntries (seenKeys ++ [entry.idempotencyKey]) entries

/-- The entries that one hold must have. -/
def checkHoldEntries (seenKeys : List String) (hold : Hold) : List ReconciliationFinding :=
  let key := hold.idempotencyKey
  reportIf (HoldService.holdKey key ∉ seenKeys) ⟨walletId, .holdWithoutEntry, .warning,
    s!"hold {key} has no HOLD ledger entry", [("hold_id", hold.id.text)]⟩ ++
  reportIf (hold.status = .captured && HoldService.captureKey key ∉ seenKeys)
    ⟨walletId, .capturedHoldMissingCharge, .error,
      s!"captured hold {key} has no CHARGE ledger entry", [("hold_id", hold.id.text)]⟩ ++
  reportIf (hold.status = .released && HoldService.releaseKey key ∉ seenKeys)
    ⟨walletId, .releasedHoldMissingRelease, .error,
      s!"released hold {key} has no RELEASE ledger entry", [("hold_id", hold.id.text)]⟩

/-- The hold that an entry of one type references must be in one state; `label` names the type. -/
def checkReference (entryType : LedgerEntryType) (status : HoldStatus) (code : FindingCode)
    (label : String) (holds : List Hold) (entry : LedgerEntry) : List ReconciliationFinding :=
  if entry.entryType ≠ entryType then []
  else match resolveHold entry holds with
    | none => [⟨walletId, code, .error,
        s!"{label} entry {entry.idempotencyKey} references no hold " ++
          s!"('{entry.referenceText}')", []⟩]
    | some referenced => reportIf (referenced.status ≠ status) ⟨walletId, code, .error,
        s!"{label} entry {entry.idempotencyKey} references hold " ++
          s!"{referenced.idempotencyKey} in state {referenced.status.value}", []⟩

/-- The hold of an entry that references one. -/
def checkEntryHold (holds : List Hold) (entry : LedgerEntry) : List ReconciliationFinding :=
  if entry.referenceType.getD "" ≠ "hold" then []
  else checkReference walletId .charge .captured .chargeWithoutHold "CHARGE" holds entry ++
    checkReference walletId .release .released .releaseWithoutHold "RELEASE" holds entry

/-- The balance that the entries imply, and the total of the administrator adjustments, one entry
further. -/
def deriveEntry (derived : ℤ × ℤ) (entry : LedgerEntry) : ℤ × ℤ :=
  match entry.entryType with
  | .deposit | .refund => (derived.1 + entry.amount, derived.2)
  | .charge => (derived.1 - entry.amount, derived.2)
  | .adjustment => (derived.1, derived.2 + entry.amount)
  | _ => derived

/-- `check_epoch` from an opening balance of zero. -/
def checkEpoch (cash : List LedgerEntry) (actual : ℤ) : List ReconciliationFinding :=
  let (expected, adjustmentSlack) := cash.foldl deriveEntry (0, 0)
  let residual := actual - expected
  if residual = 0 then []
  else if |residual| ≤ adjustmentSlack then
    [⟨walletId, .balanceLedgerMismatch, .warning,
      s!"balance differs from ledger net by {residual}; within the " ++
        s!"admin-adjustment total ({adjustmentSlack})", [("residual", toString residual)]⟩]
  else
    [⟨walletId, .balanceLedgerMismatch, .error,
      s!"balance differs from ledger net by {residual} and no admin " ++
        s!"adjustment total ({adjustmentSlack}) explains it",
      [("residual", toString residual), ("expected", toString expected)]⟩]

end Checks

/-- `check_wallet` of a wallet without currency migrations. -/
def checkWallet (status : WalletStatus) (wallet : Wallet) (holds : List Hold)
    (entries : List LedgerEntry) : List ReconciliationFinding :=
  let seenKeys := entries.map (·.idempotencyKey)
  checkBalance wallet.id status wallet.balance holds ++
    holds.flatMap (checkHoldCurrency wallet.id wallet.currency) ++
    entries.flatMap (checkEntryCurrency wallet.id wallet.currency) ++
    checkEntries wallet.id [] entries ++
    holds.flatMap (checkHoldEntries wallet.id seenKeys) ++
    entries.flatMap (checkEntryHold wallet.id holds) ++
    checkEpoch wallet.id entries wallet.balance

/-- `is_clean`: no finding is an ERROR. -/
def isClean (findings : List ReconciliationFinding) : Bool :=
  findings.all (·.severity ≠ .error)

end Reconciliation

/-! ### The ledger's net -/

/-- What an entry adds to the balance that the ledger implies. -/
def LedgerEntry.net (entry : LedgerEntry) : ℤ :=
  match entry.entryType with
  | .deposit | .refund => entry.amount
  | .charge => -entry.amount
  | _ => 0

/-- An adjustment moves the balance by its amount in one of the two directions. -/
def LedgerEntry.slack (entry : LedgerEntry) : ℤ :=
  if entry.entryType = .adjustment then entry.amount else 0

/-- The balance that the ledger implies. -/
def ledgerNet (entries : List LedgerEntry) : ℤ :=
  (entries.map (·.net)).sum

/-- The total of the administrator adjustments. -/
def adjustmentTotal (entries : List LedgerEntry) : ℤ :=
  (entries.map (·.slack)).sum

theorem ledgerNet_append (entries : List LedgerEntry) (entry : LedgerEntry) :
    ledgerNet (entries ++ [entry]) = ledgerNet entries + entry.net := by
  simp [ledgerNet]

theorem adjustmentTotal_eq_zero {entries : List LedgerEntry}
    (h : ∀ entry ∈ entries, entry.entryType ≠ .adjustment) : adjustmentTotal entries = 0 := by
  refine List.sum_eq_zero fun slack hslack ↦ ?_
  obtain ⟨entry, hentry, rfl⟩ := List.mem_map.mp hslack
  exact if_neg (h entry hentry)

namespace Reconciliation

theorem deriveEntry_eq (derived : ℤ × ℤ) (entry : LedgerEntry) :
    deriveEntry derived entry = (derived.1 + entry.net, derived.2 + entry.slack) := by
  unfold deriveEntry LedgerEntry.net LedgerEntry.slack
  cases entry.entryType <;> simp [sub_eq_add_neg]

theorem foldl_deriveEntry (entries : List LedgerEntry) : ∀ derived : ℤ × ℤ,
    entries.foldl deriveEntry derived =
      (derived.1 + ledgerNet entries, derived.2 + adjustmentTotal entries) := by
  induction entries with
  | nil => intro derived; simp [ledgerNet, adjustmentTotal]
  | cons entry rest ih =>
    intro derived
    rw [List.foldl_cons, ih, deriveEntry_eq]
    simp [ledgerNet, adjustmentTotal, add_assoc]

/-! ### Clean reports -/

@[simp] theorem isClean_append (first second : List ReconciliationFinding) :
    isClean (first ++ second) = true ↔ isClean first = true ∧ isClean second = true := by
  rw [isClean, List.all_append, Bool.and_eq_true]
  rfl

@[simp] theorem isClean_flatMap {α : Type} (check : α → List ReconciliationFinding)
    (rows : List α) :
    isClean (rows.flatMap check) = true ↔ ∀ row ∈ rows, isClean (check row) = true := by
  rw [isClean, List.all_flatMap, List.all_eq_true]
  rfl

/-- A check that reports an ERROR is clean when it reports nothing. -/
theorem isClean_reportIf {condition : Bool} {finding : ReconciliationFinding}
    (h : finding.severity = .error) :
    isClean (reportIf condition finding) = true ↔ condition = false := by
  cases condition with
  | true => simp [reportIf, isClean, h]
  | false => simp [reportIf, isClean]

/-- A WARNING leaves the report clean. -/
theorem isClean_reportIf_warning {condition : Bool} {finding : ReconciliationFinding}
    (h : finding.severity = .warning) : isClean (reportIf condition finding) = true := by
  cases condition with
  | true => simp [reportIf, isClean, h]
  | false => rfl

section Checks

variable {walletId : Uuid}

variable {holds : List Hold} {entry : LedgerEntry}

theorem isClean_checkBalance {status : WalletStatus} {balance : ℤ} :
    isClean (checkBalance walletId status balance holds) = true ↔ 0 ≤ balance ∧
      ((holds.filter (·.status = .created)).map (·.amount)).sum ≤ balance ∧
      (status = .closed → balance = 0) := by
  rw [checkBalance, isClean_append, isClean_append, isClean_reportIf rfl, isClean_reportIf rfl,
    isClean_reportIf rfl, and_assoc]
  simp

theorem isClean_checkHoldCurrency {currency : String} {hold : Hold} :
    isClean (checkHoldCurrency walletId currency hold) = true ↔ hold.currency = currency := by
  rw [checkHoldCurrency, isClean_reportIf rfl]
  simp

theorem isClean_checkEntryCurrency {currency : String} :
    isClean (checkEntryCurrency walletId currency entry) = true ↔ entry.currency = currency ∧
      entry.entryType ≠ .currencyClose ∧ entry.entryType ≠ .currencyOpen := by
  rw [checkEntryCurrency, isClean_append, isClean_reportIf rfl, isClean_reportIf rfl]
  simp

/-- Distinct keys, none of them seen before, and amounts other than zero. -/
theorem isClean_checkEntries (entries : List LedgerEntry) : ∀ seenKeys : List String,
    isClean (checkEntries walletId seenKeys entries) = true ↔
      (∀ entry ∈ entries, entry.amount ≠ 0) ∧ (∀ entry ∈ entries, entry.idempotencyKey ∉ seenKeys) ∧
      (entries.map (·.idempotencyKey)).Nodup := by
  induction entries with
  | nil => intro seenKeys; simp [checkEntries, isClean]
  | cons entry rest ih =>
    intro seenKeys
    rw [checkEntries, isClean_append, isClean_append, isClean_reportIf rfl, isClean_reportIf rfl,
      ih, List.map_cons, List.nodup_cons]
    simp only [decide_eq_false_iff_not, List.mem_append, List.mem_singleton, List.forall_mem_cons,
      List.mem_map, not_or, not_exists, not_and]
    constructor
    · rintro ⟨⟨hamount, hkey⟩, hamounts, hseen, hnodup⟩
      exact ⟨⟨hamount, hamounts⟩, ⟨hkey, fun other hother ↦ (hseen other hother).1⟩,
        fun other hother ↦ (hseen other hother).2, hnodup⟩
    · rintro ⟨⟨hamount, hamounts⟩, ⟨hkey, hseen⟩, hfresh, hnodup⟩
      exact ⟨⟨hamount, hkey⟩, hamounts,
        fun other hother ↦ ⟨hseen other hother, hfresh other hother⟩, hnodup⟩

theorem isClean_checkHoldEntries {seenKeys : List String} {hold : Hold} :
    isClean (checkHoldEntries walletId seenKeys hold) = true ↔
      (hold.status = .captured → HoldService.captureKey hold.idempotencyKey ∈ seenKeys) ∧
      (hold.status = .released → HoldService.releaseKey hold.idempotencyKey ∈ seenKeys) := by
  rw [checkHoldEntries, isClean_append, isClean_append, isClean_reportIf_warning rfl,
    isClean_reportIf rfl, isClean_reportIf rfl]
  simp

theorem isClean_checkReference {entryType : LedgerEntryType} {status : HoldStatus}
    {code : FindingCode} {label : String} :
    isClean (checkReference walletId entryType status code label holds entry) = true ↔
      (entry.entryType = entryType →
        ∃ hold, resolveHold entry holds = some hold ∧ hold.status = status) := by
  unfold checkReference
  by_cases htype : entry.entryType = entryType
  · rw [if_neg (not_not.mpr htype)]
    cases hresolved : resolveHold entry holds with
    | none => simp [isClean, htype]
    | some hold =>
      rw [isClean_reportIf rfl]
      simp [htype]
  · rw [if_pos htype]
    exact iff_of_true rfl fun h ↦ absurd h htype

theorem isClean_checkEntryHold : isClean (checkEntryHold walletId holds entry) = true ↔
      (entry.referenceType.getD "" = "hold" → (entry.entryType = .charge →
          ∃ hold, resolveHold entry holds = some hold ∧ hold.status = .captured) ∧
        (entry.entryType = .release →
          ∃ hold, resolveHold entry holds = some hold ∧ hold.status = .released)) := by
  unfold checkEntryHold
  by_cases hreference : entry.referenceType.getD "" = "hold"
  · rw [if_neg (not_not.mpr hreference), isClean_append, isClean_checkReference,
      isClean_checkReference]
    exact ⟨fun h _ ↦ h, fun h ↦ h hreference⟩
  · rw [if_pos hreference]
    exact iff_of_true rfl fun h ↦ absurd h hreference

theorem isClean_checkEpoch {cash : List LedgerEntry} {actual : ℤ} :
    isClean (checkEpoch walletId cash actual) = true ↔
      actual = ledgerNet cash ∨ |actual - ledgerNet cash| ≤ adjustmentTotal cash := by
  unfold checkEpoch
  rw [foldl_deriveEntry]
  simp only [zero_add]
  by_cases hresidual : actual - ledgerNet cash = 0
  · rw [if_pos hresidual]
    exact iff_of_true rfl (.inl (sub_eq_zero.mp hresidual))
  · have hne : actual ≠ ledgerNet cash := fun h ↦ hresidual (sub_eq_zero.mpr h)
    rw [if_neg hresidual, or_iff_right hne]
    by_cases hslack : |actual - ledgerNet cash| ≤ adjustmentTotal cash
    · rw [if_pos hslack]
      exact iff_of_true rfl hslack
    · rw [if_neg hslack]
      exact iff_of_false (by simp [isClean]) hslack

end Checks

/-! ### What a clean report establishes -/

/-- The entries as the report wants them: distinct keys, amounts other than zero, the currency of
the wallet, and none that closes or opens a currency. -/
structure SoundEntries (currency : String) (entries : List LedgerEntry) : Prop where
  keys : (entries.map (·.idempotencyKey)).Nodup
  amounts : ∀ entry ∈ entries, entry.amount ≠ 0
  currencies : ∀ entry ∈ entries, entry.currency = currency
  types : ∀ entry ∈ entries, entry.entryType ≠ .currencyClose ∧ entry.entryType ≠ .currencyOpen

/-- A terminal hold has the entry that its state wants. -/
structure PairedHold (keys : List String) (hold : Hold) : Prop where
  captured : hold.status = .captured → HoldService.captureKey hold.idempotencyKey ∈ keys
  released : hold.status = .released → HoldService.releaseKey hold.idempotencyKey ∈ keys

theorem PairedHold.mono {keys more : List String} {hold : Hold} (hsub : ∀ key ∈ keys, key ∈ more)
    (h : PairedHold keys hold) : PairedHold more hold :=
  ⟨fun hcaptured ↦ hsub _ (h.captured hcaptured), fun hreleased ↦ hsub _ (h.released hreleased)⟩

/-- A CHARGE or RELEASE entry that references a hold finds it in the state that it wants. -/
structure PairedEntry (holds : List Hold) (entry : LedgerEntry) : Prop where
  charge : entry.referenceType.getD "" = "hold" → entry.entryType = .charge →
    ∃ hold, resolveHold entry holds = some hold ∧ hold.status = .captured
  release : entry.referenceType.getD "" = "hold" → entry.entryType = .release →
    ∃ hold, resolveHold entry holds = some hold ∧ hold.status = .released

/-- What a report without an ERROR finding establishes of a wallet. -/
structure Consistent (status : WalletStatus) (books : Books) : Prop where
  nonneg : 0 ≤ books.wallet.balance
  covered : books.held ≤ books.wallet.balance
  closed : status = .closed → books.wallet.balance = 0
  holdCurrency : ∀ hold ∈ books.holds, hold.currency = books.wallet.currency
  entries : SoundEntries books.wallet.currency books.ledger
  holds : ∀ hold ∈ books.holds, PairedHold (books.ledger.map (·.idempotencyKey)) hold
  references : ∀ entry ∈ books.ledger, PairedEntry books.holds entry
  derived : books.wallet.balance = ledgerNet books.ledger ∨
    |books.wallet.balance - ledgerNet books.ledger| ≤ adjustmentTotal books.ledger

/-- The report of the rows of a wallet. -/
def report (status : WalletStatus) (books : Books) : List ReconciliationFinding :=
  checkWallet status books.wallet books.holds books.ledger

/-- A report is clean exactly for a consistent wallet. -/
theorem isClean_report {status : WalletStatus} {books : Books} :
    isClean (report status books) = true ↔ Consistent status books := by
  unfold report checkWallet
  simp only [isClean_append, isClean_flatMap, isClean_checkBalance, isClean_checkHoldCurrency,
    isClean_checkEntryCurrency, isClean_checkEntries, isClean_checkHoldEntries,
    isClean_checkEntryHold, isClean_checkEpoch]
  constructor
  · rintro ⟨⟨⟨⟨⟨⟨⟨hnonneg, hcovered, hclosed⟩, hholds⟩, hentries⟩, hamounts, -, hkeys⟩, hpaired⟩,
      hreferences⟩, hderived⟩
    exact {
      nonneg := hnonneg
      covered := hcovered
      closed := hclosed
      holdCurrency := hholds
      entries := ⟨hkeys, hamounts, fun entry hentry ↦ (hentries entry hentry).1,
        fun entry hentry ↦ (hentries entry hentry).2⟩
      holds := fun hold hhold ↦ ⟨(hpaired hold hhold).1, (hpaired hold hhold).2⟩
      references := fun entry hentry ↦ ⟨fun h ↦ (hreferences entry hentry h).1,
        fun h ↦ (hreferences entry hentry h).2⟩
      derived := hderived }
  · intro h
    refine ⟨⟨⟨⟨⟨⟨⟨h.nonneg, h.covered, h.closed⟩, h.holdCurrency⟩, fun entry hentry ↦ ?_⟩,
      h.entries.amounts, fun _ _ ↦ List.not_mem_nil, h.entries.keys⟩, fun hold hhold ↦ ?_⟩,
      fun entry hentry ↦ ?_⟩, h.derived⟩
    · exact ⟨h.entries.currencies entry hentry, h.entries.types entry hentry⟩
    · exact ⟨(h.holds hold hhold).captured, (h.holds hold hhold).released⟩
    · intro hreference
      exact ⟨(h.references entry hentry).charge hreference,
        (h.references entry hentry).release hreference⟩

end Reconciliation

end CloudPlatform.Wallets
