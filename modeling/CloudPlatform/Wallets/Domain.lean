import CloudPlatform.Core.Python
import CloudPlatform.Core.Tables

/-!
# Wallets, ledger entries and holds

The rows of one wallet: its balance, its append-only ledger, the holds that reserve a part of the
balance, the audit events of administrator adjustments and the business log outbox. Amounts are
minor units; ledger amounts carry no sign.
-/

namespace CloudPlatform.Wallets

inductive LedgerEntryType
  | deposit
  | hold
  | release
  | charge
  | refund
  | adjustment
  | currencyClose
  | currencyOpen
  deriving DecidableEq

structure LedgerEntry where
  amount : ℤ
  currency : String
  entryType : LedgerEntryType
  idempotencyKey : String
  referenceType : Option String := none
  referenceId : Option Uuid := none
  description : String := ""

inductive HoldStatus
  | created
  | captured
  | released
  deriving DecidableEq

theorem HoldStatus.released_of_ne {status : HoldStatus} (hcreated : status ≠ .created)
    (hcaptured : status ≠ .captured) : status = .released := by
  cases status with
  | created => exact absurd rfl hcreated
  | captured => exact absurd rfl hcaptured
  | released => rfl

theorem HoldStatus.captured_of_ne {status : HoldStatus} (hcreated : status ≠ .created)
    (hreleased : status ≠ .released) : status = .captured := by
  cases status with
  | created => exact absurd rfl hcreated
  | captured => rfl
  | released => exact absurd rfl hreleased

/-- A reservation of wallet funds. -/
structure Hold where
  id : Uuid
  walletId : Uuid
  amount : ℤ
  currency : String
  idempotencyKey : String
  status : HoldStatus := .created
  capturedAt : Option ℤ := none
  releasedAt : Option ℤ := none
  deriving DecidableEq

structure Wallet where
  id : Uuid
  userId : Uuid
  balance : ℤ
  currency : String
  deriving DecidableEq

/-- An audit event of `wallet.adjust`, with its metadata. -/
structure AuditEvent where
  actorId : Uuid
  reason : String
  amount : String
  currency : String
  idempotencyKey : String

/-- A business log event, unique by its key. -/
structure BusinessEvent where
  eventKey : String
  eventType : String
  payload : List (String × String)

/-- The rows of one wallet. -/
structure Books where
  wallet : Wallet
  ledger : List LedgerEntry := []
  holds : List Hold := []
  audits : List AuditEvent := []
  businessLog : List BusinessEvent := []

namespace Books

/-- The ledger entry of an idempotency key. -/
def entry (books : Books) (key : String) : Option LedgerEntry :=
  books.ledger.find? (·.idempotencyKey = key)

/-- The hold of an id. -/
def hold (books : Books) (id : Uuid) : Option Hold :=
  books.holds.find? (·.id = id)

/-- The hold of an idempotency key. -/
def holdByKey (books : Books) (walletId : Uuid) (key : String) : Option Hold :=
  books.holds.find? fun hold ↦ hold.walletId = walletId ∧ hold.idempotencyKey = key

/-- The holds in status CREATED. -/
def activeHolds (books : Books) : List Hold :=
  books.holds.filter (·.status = .created)

/-- The sum of the amounts of the holds in status CREATED. -/
def held (books : Books) : ℤ :=
  (books.activeHolds.map (·.amount)).sum

/-- The rows with another balance. -/
def withBalance (books : Books) (balance : ℤ) : Books :=
  { books with wallet := { books.wallet with balance := balance } }

/-- The rows with one hold replaced. -/
def setHold (books : Books) (hold : Hold) : Books :=
  { books with holds := books.holds.map fun other ↦ if other.id = hold.id then hold else other }

variable (books : Books)

@[simp] theorem withBalance_balance (balance : ℤ) :
    (books.withBalance balance).wallet.balance = balance :=
  rfl

@[simp] theorem withBalance_holds (balance : ℤ) : (books.withBalance balance).holds = books.holds :=
  rfl

@[simp] theorem withBalance_ledger (balance : ℤ) :
    (books.withBalance balance).ledger = books.ledger :=
  rfl

@[simp] theorem withBalance_held (balance : ℤ) : (books.withBalance balance).held = books.held :=
  rfl

@[simp] theorem setHold_wallet (hold : Hold) : (books.setHold hold).wallet = books.wallet :=
  rfl

@[simp] theorem setHold_ledger (hold : Hold) : (books.setHold hold).ledger = books.ledger :=
  rfl

variable {books : Books} {hold : Hold} {key : String}

theorem mem_of_hold {id : Uuid} (h : books.hold id = some hold) :
    hold ∈ books.holds ∧ hold.id = id :=
  ⟨List.mem_of_find?_eq_some h, by simpa using List.find?_some h⟩

theorem mem_of_entry {entry : LedgerEntry} (h : books.entry key = some entry) :
    entry ∈ books.ledger ∧ entry.idempotencyKey = key :=
  ⟨List.mem_of_find?_eq_some h, by simpa using List.find?_some h⟩

theorem entry_eq_none :
    books.entry key = none ↔ ∀ entry ∈ books.ledger, entry.idempotencyKey ≠ key := by
  simp [entry]

/-- The entry of a key after one more is posted. -/
theorem entry_of_ledger {books after : Books} {posted : LedgerEntry}
    (h : after.ledger = books.ledger ++ [posted]) (key : String) : after.entry key =
      (books.entry key).or (if posted.idempotencyKey = key then some posted else none) := by
  rw [entry, h, List.find?_append, List.find?_singleton]
  simp only [decide_eq_true_eq]
  rfl

/-- An entry that is found was there, or is the posted one. -/
theorem entry_posted {books after : Books} {posted entry : LedgerEntry}
    (hledger : after.ledger = books.ledger ++ [posted]) (h : after.entry key = some entry) :
    books.entry key = some entry ∨ posted.idempotencyKey = key ∧ entry = posted := by
  rw [entry_of_ledger hledger, Option.or_eq_some_iff] at h
  rcases h with hbefore | ⟨-, hnew⟩
  · exact Or.inl hbefore
  · split at hnew
    · rename_i hkey
      exact Or.inr ⟨hkey, (Option.some.inj hnew).symm⟩
    · cases hnew

theorem setHold_ids (books : Books) (changed : Hold) :
    (books.setHold changed).holds.map (·.id) = books.holds.map (·.id) := by
  rw [Books.setHold, List.map_map]
  refine List.map_congr_left fun other _ ↦ ?_
  rw [Function.comp_apply]
  split
  · rename_i heq
    exact heq.symm
  · rfl

/-- Ids are primary keys. -/
theorem hold_of_mem (hids : (books.holds.map (·.id)).Nodup) (hmem : hold ∈ books.holds) :
    books.hold hold.id = some hold := by
  cases hfound : books.hold hold.id with
  | none =>
    rw [Books.hold, List.find?_eq_none] at hfound
    exact absurd (decide_eq_true rfl) (hfound hold hmem)
  | some found =>
    obtain ⟨hother, hsame⟩ := mem_of_hold hfound
    exact congrArg some (List.inj_on_of_nodup_map hids hother hmem hsame)

/-- A change of status leaves a hold under its key. -/
theorem holdByKey_setHold (books : Books) (changed : Hold) (hids : (books.holds.map (·.id)).Nodup)
    (hmem : hold ∈ books.holds) (hid : changed.id = hold.id)
    (hwallet : changed.walletId = hold.walletId)
    (hkey : changed.idempotencyKey = hold.idempotencyKey) (walletId : Uuid) (key : String) :
    (books.setHold changed).holdByKey walletId key = (books.holdByKey walletId key).map
      fun other ↦ if other.id = changed.id then changed else other := by
  refine Rows.find?_replace Hold.id fun other hother hsame ↦ ?_
  have heq : other = hold := List.inj_on_of_nodup_map hids hother hmem (hsame.trans hid)
  rw [heq, hwallet, hkey]

end Books

end CloudPlatform.Wallets
