import CloudPlatform.Transition.Program
import CloudPlatform.Wallets.Repository

/-!
# The hold service

`HoldService` orchestrates the hold and ledger repositories: it reads the hold, changes it, and posts
the ledger entry, each in a transaction of its own. Its methods are programs over the repository
calls, so that other callers may commit between any two of them.
-/

namespace CloudPlatform.Wallets

open Transition (Program)

/-- The repository calls of the hold service. -/
inductive HoldCall
  | create (walletId : Uuid) (amount : ℤ) (currency key : String)
  | get (holdId : Uuid)
  | getByIdempotency (walletId : Uuid) (key : String)
  | release (holdId : Uuid)
  | capture (holdId : Uuid)
  | post (entry : PostCall)

namespace HoldCall

/-- What a repository call returns. -/
abbrev Out : HoldCall → Type
  | create .. => Hold
  | get _ => Option Hold
  | getByIdempotency .. => Option Hold
  | release _ => Option Hold
  | capture _ => Option Hold
  | post _ => LedgerEntry

/-- The clock and the id that the database gives a new row. -/
structure Chance where
  now : ℤ
  newId : Uuid

/-- One repository call as one transaction. -/
def handle : (request : HoldCall) → Chance → Books → Result request.Out × Books
  | create walletId amount currency key, chance, books =>
    transaction books (createHold books walletId amount currency key chance.newId)
  | get holdId, _, books => (.ok (books.hold holdId), books)
  | getByIdempotency walletId key, _, books => (.ok (books.holdByKey walletId key), books)
  | release holdId, chance, books =>
    (.ok (releaseHold books holdId chance.now).2, (releaseHold books holdId chance.now).1)
  | capture holdId, chance, books => transaction books (captureHold books holdId chance.now)
  | post entry, _, books => ((postEntry books entry).2, (postEntry books entry).1)

end HoldCall

/-- Only a capture changes the wallet. -/
theorem handle_wallet {request : HoldCall} (hcapture : ∀ holdId, request ≠ .capture holdId)
    {chance : HoldCall.Chance} {books : Books} :
    (request.handle chance books).2.wallet = books.wallet := by
  cases request with
  | create walletId amount currency key =>
    unfold HoldCall.handle
    dsimp only
    cases hdone : createHold books walletId amount currency key chance.newId with
    | error raised => rfl
    | ok result =>
      obtain ⟨after, hold⟩ := result
      rcases createHold_eq_ok hdone with ⟨rfl, -⟩ | ⟨-, -, -, -, -, -, rfl⟩
      · rfl
      · rfl
  | release holdId =>
    unfold HoldCall.handle
    dsimp only
    rcases releaseHold_cases books holdId chance.now with ⟨hold, -, -, hdone⟩ | ⟨hdone, -⟩
    · rw [hdone]
      rfl
    · rw [hdone]
  | post entry =>
    unfold HoldCall.handle
    dsimp only
    rcases postEntry_cases books entry with ⟨raised, hdone, -⟩ | ⟨-, _, -, hdone⟩
    · rw [hdone]
    · rw [hdone]
  | capture holdId => exact absurd rfl (hcapture holdId)
  | get holdId => rfl
  | getByIdempotency walletId key => rfl

abbrev HoldProgram := Program Raised HoldCall HoldCall.Out

namespace HoldService

/-- One repository call. -/
abbrev perform (request : HoldCall) : HoldProgram request.Out :=
  Program.perform request

/-- `_resolve_hold`: by id, else by the idempotency key. -/
def resolveHold (walletId holdId : Uuid) (key : String) : HoldProgram Hold := do
  match ← perform (.get holdId) with
  | some hold => return hold
  | none =>
    match ← perform (.getByIdempotency walletId key) with
    | some hold => return hold
    | none =>
      throw ⟨.holdNotFound, s!"hold {holdId.text} not found for wallet {walletId.text}"⟩

/-- Post an entry; a duplicate key means an earlier attempt has posted it. -/
def postOnce (entry : PostCall) : HoldProgram Unit :=
  tryCatch (do let _ ← perform (.post entry)) fun raised ↦
    if raised.kind = .duplicateIdempotency then return () else throw raised

/-- The ledger entry of a hold; `action` is the verb of its description. -/
def holdEntry (walletId holdId : Uuid) (amount : ℤ) (currency : String)
    (entryType : LedgerEntryType) (entryKey action key : String) : PostCall where
  walletId := walletId
  amount := amount
  currency := currency
  entryType := entryType
  idempotencyKey := entryKey
  referenceType := "hold"
  referenceId := holdId.text
  description := s!"hold {action} for {key}"

/-- The ledger key of the creation of a hold. -/
def holdKey (key : String) : String :=
  "hold-" ++ key

/-- The ledger key of the charge of a captured hold. -/
def captureKey (key : String) : String :=
  "capture-" ++ key

/-- The ledger key of the release of a hold. -/
def releaseKey (key : String) : String :=
  "release-" ++ key

variable (first second : String)

theorem holdKey_ne_captureKey : holdKey first ≠ captureKey second := by
  intro h
  have hchars := congrArg String.toList h
  simp [holdKey, captureKey] at hchars

theorem holdKey_ne_releaseKey : holdKey first ≠ releaseKey second := by
  intro h
  have hchars := congrArg String.toList h
  simp [holdKey, releaseKey] at hchars

theorem captureKey_ne_releaseKey : captureKey first ≠ releaseKey second := by
  intro h
  have hchars := congrArg String.toList h
  simp [captureKey, releaseKey] at hchars

/-- `HoldService.create_hold`. -/
def createHold (walletId : Uuid) (amount : ℤ) (currency key : String) : HoldProgram Hold := do
  let hold ← perform (.create walletId amount currency key)
  postOnce (holdEntry walletId hold.id amount currency .hold (holdKey key) "created" key)
  return hold

/-- The hold after a release: `None` means that it is terminal by now, and the copy is kept. -/
def releaseCreated (resolved : Hold) : HoldProgram Hold := do
  if resolved.status = .created then
    return (← perform (.release resolved.id)).getD resolved
  else
    return resolved

/-- `HoldService.release_hold`. -/
def releaseHold (walletId holdId : Uuid) (key : String) : HoldProgram Hold := do
  let resolved ← resolveHold walletId holdId key
  rejectIf (resolved.status = .captured) .holdStateConflict
    s!"hold {holdId.text} is already captured; cannot release"
  let hold ← releaseCreated resolved
  postOnce (holdEntry walletId resolved.id hold.amount hold.currency .release (releaseKey key)
    "released" key)
  return hold

/-- The hold after a capture: on `None` it is read again. -/
def captureCreated (holdId : Uuid) (resolved : Hold) : HoldProgram Hold := do
  if resolved.status = .created then
    match ← perform (.capture resolved.id) with
    | some captured => return captured
    | none => return (← perform (.get holdId)).getD resolved
  else
    return resolved

/-- `HoldService.capture_hold`. -/
def captureHold (walletId holdId : Uuid) (key : String) : HoldProgram Hold := do
  let resolved ← resolveHold walletId holdId key
  rejectIf (resolved.status = .released) .holdStateConflict
    s!"hold {holdId.text} is already released; cannot capture"
  let hold ← captureCreated holdId resolved
  postOnce (holdEntry walletId resolved.id hold.amount hold.currency .charge (captureKey key)
    "captured" key)
  return hold

end HoldService

end CloudPlatform.Wallets
