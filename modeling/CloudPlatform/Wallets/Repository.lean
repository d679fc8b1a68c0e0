import CloudPlatform.Compute.Domain
import CloudPlatform.Wallets.Domain

/-!
# The wallet transactions

Each function is one transaction of the wallet, ledger or hold repository on the rows of a wallet:
it commits new rows, or raises and leaves them. The wallet row is locked for the whole of an
adjustment, a deposit and a hold, so the transactions of one wallet follow each other.
-/

namespace CloudPlatform.Wallets

open Compute (CloudServer)

/-- The greatest signed 64-bit integer. -/
def maxInt64 : ℤ := 2 ^ 63 - 1

/-- The arguments of `adjust`. `authorization` is the outcome of the Super Admin check when the call
asks for it, `fencedServer` the server row that the prepaid fence reads. -/
structure AdjustCall where
  userId : Uuid
  delta : ℤ
  idempotencyKey : String
  entryType : LedgerEntryType
  referenceType : String := ""
  referenceId : String := ""
  description : String := ""
  auditActorId : Option Uuid := none
  businessEvent : Option (Wallet → Option BusinessEvent) := none
  expectedCurrency : Option String := none
  expectedRunningServerId : Option Uuid := none
  fencedServer : Option CloudServer := none
  authorization : Option (Result Unit) := none

/-- The checks of `adjust` on its arguments; the key that it uses. -/
def checkAdjustCall (call : AdjustCall) : Result String := do
  rejectIf (call.delta = 0) .valueError "wallet adjustment delta must be a non-zero integer"
  rejectIf (¬ (-2 ^ 63 < call.delta ∧ call.delta ≤ maxInt64)) .valueError
    "wallet and ledger amounts must fit signed int64 bounds"
  rejectIf (call.entryType = .adjustment && call.auditActorId.isNone) .valueError
    "administrator adjustments require an audited actor"
  let key := strip call.idempotencyKey
  rejectIf (key = "") .valueError "idempotency_key must not be empty"
  rejectIf (call.auditActorId.isSome && strip call.description = "") .valueError
    "administrator wallet adjustment requires a reason"
  return key

/-- The authorization of an administrator call. -/
def authorizeAdjust (call : AdjustCall) : Result Unit :=
  match call.authorization with
  | none => .ok ()
  | some outcome => do
    rejectIf call.auditActorId.isNone .permissionDenied
      "an audited Super Admin actor is required"
    outcome

/-- `_check_adjust_replay`: a consumed key fails closed on other facts. -/
def checkAdjustReplay (prior : LedgerEntry) (wallet : Wallet) (key : String) (call : AdjustCall) :
    Result Unit :=
  rejectIf (¬ (prior.entryType = call.entryType ∧ prior.amount = call.delta.natAbs ∧
      prior.currency = wallet.currency ∧ prior.referenceType.getD "" = call.referenceType ∧
      (prior.referenceId.map (·.text)).getD "" = call.referenceId ∧
      prior.description = call.description)) .duplicateIdempotency
    (s!"ledger entry with idempotency_key '{key}' already exists " ++
      s!"for wallet {wallet.id.text} with different facts")

/-- `_check_adjustment_direction`: the audit event of the key carries the signed amount. -/
def checkAdjustmentDirection (books : Books) (key : String) (call : AdjustCall) : Result Unit :=
  match books.audits.filter (·.idempotencyKey = key) with
  | [] => raise .duplicateIdempotency "wallet adjustment replay has different signed facts"
  | [audit] =>
    rejectIf (some audit.actorId ≠ call.auditActorId || audit.amount ≠ toString call.delta)
      .duplicateIdempotency "wallet adjustment replay has different signed facts"
  | _ => raise .multipleResultsFound "Multiple rows were found when one or none was required"

/-- The fence of a first prepaid charge: a bound IRT charge of a running prepaid hourly server. -/
def checkServerFence (wallet : Wallet) (call : AdjustCall) : Result Unit :=
  match call.expectedRunningServerId with
  | none => .ok ()
  | some serverId => do
    rejectIf (0 ≤ call.delta || call.entryType ≠ .charge || wallet.currency ≠ "IRT" ||
        call.referenceType ≠ "server" || call.referenceId ≠ serverId.text) .valueError
      "prepaid server fence requires a bound IRT server charge"
    rejectIf ((call.fencedServer.filter (·.id = serverId)).all fun server ↦
        server.userId ≠ call.userId || server.state ≠ .running ||
          server.billingModel ≠ "hourly_prepaid_irt") .valueError
      "server is not eligible for a prepaid hourly charge"

/-- The optional business event, enqueued under its unique key. -/
def Books.enqueue (books : Books) (factory : Option (Wallet → Option BusinessEvent)) :
    Result Books :=
  match factory.bind (· books.wallet) with
  | none => .ok books
  | some event => do
    rejectIf (books.businessLog.any (·.eventKey = event.eventKey)) .integrityError
      "duplicate key value violates unique constraint business_log_events_event_key_key"
    return { books with businessLog := books.businessLog ++ [event] }

/-- The ledger entry that an adjustment posts. -/
def adjustEntry (wallet : Wallet) (key : String) (call : AdjustCall) (referenceId : Option Uuid) :
    LedgerEntry where
  amount := call.delta.natAbs
  currency := wallet.currency
  entryType := call.entryType
  idempotencyKey := key
  referenceType := if call.referenceType = "" then none else some call.referenceType
  referenceId := referenceId
  description := call.description

/-- The audit event that an audited adjustment adds. -/
def adjustAudit (wallet : Wallet) (key : String) (call : AdjustCall) : Option AuditEvent :=
  call.auditActorId.map fun actorId ↦ {
    actorId := actorId
    reason := call.description
    amount := toString call.delta
    currency := wallet.currency
    idempotencyKey := key }

/-- `SqlAlchemyWalletRepository.adjust`: the rows after it, the wallet, and whether the delta was
applied by this call. -/
def adjust (books : Books) (call : AdjustCall) : Result (Books × Wallet × Bool) := do
  let key ← checkAdjustCall call
  authorizeAdjust call
  let wallet := books.wallet
  rejectIf (wallet.userId ≠ call.userId) .valueError s!"no wallet for user {call.userId.text}"
  let currency := call.expectedCurrency.getD wallet.currency
  rejectIf (currency ≠ wallet.currency) .valueError s!"wallet currency must be {currency}"
  match books.entry key with
  | some prior =>
    checkAdjustReplay prior wallet key call
    if call.entryType = .adjustment then
      checkAdjustmentDirection books key call
      return (books, wallet, false)
    else
      return (books, wallet, false)
  | none =>
    checkServerFence wallet call
    let balance := wallet.balance + call.delta
    rejectIf (balance < 0) .insufficientBalance
      s!"balance {wallet.balance} < required {-call.delta}"
    rejectIf (maxInt64 < balance) .valueError "wallet balance exceeds signed int64 bounds"
    let referenceId ← optionalUuid call.referenceId
    let posted := { books.withBalance balance with
      ledger := books.ledger ++ [adjustEntry wallet key call referenceId]
      audits := books.audits ++ (adjustAudit wallet key call).toList }
    let committed ← posted.enqueue call.businessEvent
    return (committed, committed.wallet, true)

/-- The arguments of `credit_deposit`. -/
structure DepositCall where
  userId : Uuid
  amount : ℤ
  idempotencyKey : String
  reference : String := ""
  expectedCurrency : Option String := none
  businessEvent : Option (Wallet → Option BusinessEvent) := none

/-- The description of a deposit's ledger entry. -/
def depositDescription (reference key : String) : String :=
  "gateway deposit " ++ if reference = "" then key else reference

/-- `_check_deposit_replay`. -/
def checkDepositReplay (prior : LedgerEntry) (amount : ℤ) (currency reference key : String) :
    Result Unit :=
  rejectIf (prior.amount ≠ amount || prior.currency ≠ currency || prior.entryType ≠ .deposit ||
      prior.description ≠ depositDescription reference key) .duplicateIdempotency
    "deposit idempotency key carries different facts"

/-- The ledger entry that a deposit posts. -/
def depositEntry (wallet : Wallet) (key : String) (call : DepositCall) : LedgerEntry where
  amount := call.amount
  currency := wallet.currency
  entryType := .deposit
  idempotencyKey := key
  referenceType := some "payment"
  description := depositDescription call.reference key

/-- `SqlAlchemyWalletRepository.credit_deposit`. -/
def creditDeposit (books : Books) (call : DepositCall) : Result (Books × Wallet × Bool) := do
  rejectIf (¬ (0 < call.amount ∧ call.amount ≤ maxInt64)) .valueError
    "credit_deposit requires a positive amount"
  let key := strip call.idempotencyKey
  rejectIf (key = "") .valueError "idempotency_key must not be empty"
  let wallet := books.wallet
  rejectIf (wallet.userId ≠ call.userId) .valueError s!"no wallet for user {call.userId.text}"
  rejectIf (call.expectedCurrency.any (· ≠ wallet.currency)) .valueError
    "wallet currency differs from verified payment credit"
  match books.entry key with
  | some prior =>
    checkDepositReplay prior call.amount wallet.currency call.reference key
    return (books, wallet, false)
  | none =>
    let balance := wallet.balance + call.amount
    rejectIf (maxInt64 < balance) .valueError "wallet balance exceeds signed int64 bounds"
    let posted := { books.withBalance balance with
      ledger := books.ledger ++ [depositEntry wallet key call] }
    let committed ← posted.enqueue call.businessEvent
    return (committed, committed.wallet, true)

/-- The hold of a key that is still CREATED. -/
def Books.createdHold (books : Books) (walletId : Uuid) (key : String) : Option Hold :=
  (books.holdByKey walletId key).filter (·.status = .created)

/-- `SqlAlchemyHoldRepository.create_hold`; `newId` is the id the database gives the new row. -/
def createHold (books : Books) (walletId : Uuid) (amount : ℤ) (currency key : String)
    (newId : Uuid) : Result (Books × Hold) :=
  match books.createdHold walletId key with
  | some existing => .ok (books, existing)
  | none => do
    rejectIf (walletId ≠ books.wallet.id) .valueError s!"wallet {walletId.text} not found"
    let balance := books.wallet.balance
    let available := balance - books.held
    rejectIf (available < amount) .insufficientHoldBalance
      (s!"available balance {available} < hold amount {amount} " ++
        s!"(balance {balance}, held {books.held})")
    rejectIf (books.holdByKey walletId key).isSome .integrityError
      "duplicate key value violates unique constraint uq_holds_wallet_idempotency"
    rejectIf (books.hold newId).isSome .integrityError
      "duplicate key value violates unique constraint holds_pkey"
    let hold : Hold :=
      { id := newId, walletId := walletId, amount := amount, currency := currency
        idempotencyKey := key }
    return ({ books with holds := books.holds ++ [hold] }, hold)

/-- `SqlAlchemyHoldRepository.release_hold`; `None` when the hold is missing or terminal. -/
def releaseHold (books : Books) (holdId : Uuid) (now : ℤ) : Books × Option Hold :=
  match books.hold holdId with
  | none => (books, none)
  | some hold =>
    if hold.status = .created then
      let released := { hold with status := .released, releasedAt := some now }
      (books.setHold released, some released)
    else (books, none)

/-- `SqlAlchemyHoldRepository.capture_hold`; `None` when the hold is missing or terminal. -/
def captureHold (books : Books) (holdId : Uuid) (now : ℤ) : Result (Books × Option Hold) :=
  match books.hold holdId with
  | none => .ok (books, none)
  | some hold =>
    if hold.status = .created then do
      rejectIf (books.wallet.id ≠ hold.walletId) .valueError
        s!"wallet for hold {holdId.text} not found"
      let balance := books.wallet.balance
      rejectIf (balance < hold.amount) .insufficientBalance
        s!"wallet balance {balance} < capture amount {hold.amount} (hold {holdId.text})"
      let captured := { hold with status := .captured, capturedAt := some now }
      return ((books.withBalance (balance - hold.amount)).setHold captured, some captured)
    else .ok (books, none)

/-- The arguments of `post_entry`. -/
structure PostCall where
  walletId : Uuid
  amount : ℤ
  currency : String
  entryType : LedgerEntryType
  idempotencyKey : String
  referenceType : String := ""
  referenceId : String := ""
  description : String := ""

/-- The row of a posted entry. -/
def PostCall.row (call : PostCall) (referenceId : Option Uuid) : LedgerEntry where
  amount := call.amount
  currency := call.currency
  entryType := call.entryType
  idempotencyKey := call.idempotencyKey
  referenceType := some call.referenceType
  referenceId := referenceId
  description := call.description

/-- `SqlAlchemyLedgerRepository.post_entry`: the rows after it and its outcome. The entry is
committed before it is read back as a domain entry, which must not have amount zero. -/
def postEntry (books : Books) (call : PostCall) : Books × Result LedgerEntry :=
  match optionalUuid call.referenceId with
  | .error raised => (books, .error raised)
  | .ok referenceId =>
    if books.wallet.id ≠ call.walletId then
      (books, raise .integrityError
        "insert or update on table ledger violates foreign key constraint")
    else if (books.entry call.idempotencyKey).isSome then
      (books, raise .duplicateIdempotency
        (s!"ledger entry with idempotency_key '{call.idempotencyKey}' already exists " ++
          s!"for wallet {call.walletId.text}"))
    else
      let entry := call.row referenceId
      ({ books with ledger := books.ledger ++ [entry] },
        if call.amount = 0 then raise .valueError "ledger entry amount cannot be zero"
        else .ok entry)

/-! ### What a transaction writes -/

variable {books after : Books}

/-- Enqueueing an event adds at most that event. -/
theorem enqueue_eq_ok {factory : Option (Wallet → Option BusinessEvent)}
    (h : books.enqueue factory = .ok after) :
    after = { books with businessLog := after.businessLog } := by
  unfold Books.enqueue at h
  split at h
  · rw [← Except.ok.inj h]
  · obtain ⟨-, hdone⟩ := rejectIf_bind_eq_ok.mp h
    rw [← pure_eq_ok.mp hdone]

/-- A posting with a new key: the balance moves by the delta, and one ledger entry is added. -/
structure Posted (books after : Books) (key : String) (delta : ℤ) (entry : LedgerEntry)
    (audits : List AuditEvent) : Prop where
  fresh : books.entry key = none
  key_eq : entry.idempotencyKey = key
  wallet : after.wallet = { books.wallet with balance := books.wallet.balance + delta }
  ledger : after.ledger = books.ledger ++ [entry]
  holds : after.holds = books.holds
  audits : after.audits = books.audits ++ audits

/-- A replay of an adjustment: the stored entry agrees with the call but for the sign, and an
administrator adjustment agrees with its audit event. -/
structure ReplaysAdjust (books : Books) (call : AdjustCall) (prior : LedgerEntry) : Prop where
  stored : books.entry (strip call.idempotencyKey) = some prior
  entryType : prior.entryType = call.entryType
  amount : prior.amount = call.delta.natAbs
  currency : prior.currency = books.wallet.currency
  referenceType : prior.referenceType.getD "" = call.referenceType
  referenceId : (prior.referenceId.map (·.text)).getD "" = call.referenceId
  description : prior.description = call.description
  direction : call.entryType = .adjustment →
    checkAdjustmentDirection books (strip call.idempotencyKey) call = .ok ()

theorem checkAdjustCall_eq_ok {call : AdjustCall} {key : String}
    (h : checkAdjustCall call = .ok key) : key = strip call.idempotencyKey ∧ call.delta ≠ 0 ∧
      (call.entryType = .adjustment → call.auditActorId.isSome) := by
  obtain ⟨hdelta, hbounds⟩ := rejectIf_bind_eq_ok.mp h
  obtain ⟨-, hactor⟩ := rejectIf_bind_eq_ok.mp hbounds
  obtain ⟨hadjustment, hkey⟩ := rejectIf_bind_eq_ok.mp hactor
  obtain ⟨-, hreason⟩ := rejectIf_bind_eq_ok.mp hkey
  obtain ⟨-, hdone⟩ := rejectIf_bind_eq_ok.mp hreason
  refine ⟨(pure_eq_ok.mp hdone).symm, of_decide_eq_false hdelta, fun htype ↦ ?_⟩
  cases hsome : call.auditActorId with
  | none => rw [htype, hsome] at hadjustment; cases hadjustment
  | some actor => rfl

/-- An adjustment that returns is a replay and changes nothing, or it posts its delta. -/
theorem adjust_eq_ok {call : AdjustCall} {wallet : Wallet} {applied : Bool}
    (h : adjust books call = .ok (after, wallet, applied)) :
    (applied = false ∧ after = books ∧ ∃ prior, ReplaysAdjust books call prior) ∨
      (applied = true ∧ call.delta ≠ 0 ∧ 0 ≤ books.wallet.balance + call.delta ∧
        (call.entryType = .adjustment → call.auditActorId.isSome) ∧
        ∃ referenceId, optionalUuid call.referenceId = .ok referenceId ∧
        Posted books after (strip call.idempotencyKey) call.delta
          (adjustEntry books.wallet (strip call.idempotencyKey) call referenceId)
          (adjustAudit books.wallet (strip call.idempotencyKey) call).toList) := by
  obtain ⟨key, hcheck, hauthorize⟩ := bind_eq_ok.mp h
  obtain ⟨_, -, huser⟩ := bind_eq_ok.mp hauthorize
  obtain ⟨-, hcurrency⟩ := rejectIf_bind_eq_ok.mp huser
  obtain ⟨-, hentry⟩ := rejectIf_bind_eq_ok.mp hcurrency
  obtain ⟨rfl, hdelta, hactor⟩ := checkAdjustCall_eq_ok hcheck
  split at hentry
  · rename_i prior hprior
    obtain ⟨_, hfacts, hrest⟩ := bind_eq_ok.mp hentry
    have hagree := rejectIf_eq_ok.mp hfacts
    rw [decide_eq_false_iff_not, not_not] at hagree
    obtain ⟨htype, hamount, hcur, hrefType, hrefId, hdescription⟩ := hagree
    split at hrest
    · obtain ⟨_, hdirection, hdone⟩ := bind_eq_ok.mp hrest
      obtain ⟨rfl, hpair⟩ := Prod.mk.inj (pure_eq_ok.mp hdone)
      obtain ⟨-, rfl⟩ := Prod.mk.inj hpair
      exact Or.inl ⟨rfl, rfl, prior, hprior, htype, hamount, hcur, hrefType, hrefId, hdescription,
        fun _ ↦ hdirection⟩
    · rename_i hother
      obtain ⟨rfl, hpair⟩ := Prod.mk.inj (pure_eq_ok.mp hrest)
      obtain ⟨-, rfl⟩ := Prod.mk.inj hpair
      exact Or.inl ⟨rfl, rfl, prior, hprior, htype, hamount, hcur, hrefType, hrefId, hdescription,
        fun hadjustment ↦ absurd hadjustment hother⟩
  · rename_i hfresh
    obtain ⟨_, -, hbalance⟩ := bind_eq_ok.mp hentry
    obtain ⟨hnonneg, hbounds⟩ := rejectIf_bind_eq_ok.mp hbalance
    obtain ⟨-, hreference⟩ := rejectIf_bind_eq_ok.mp hbounds
    obtain ⟨referenceId, hparse, hposted⟩ := bind_eq_ok.mp hreference
    obtain ⟨committed, henqueue, hdone⟩ := bind_eq_ok.mp hposted
    obtain ⟨rfl, hpair⟩ := Prod.mk.inj (pure_eq_ok.mp hdone)
    obtain ⟨-, rfl⟩ := Prod.mk.inj hpair
    have hcommitted := enqueue_eq_ok henqueue
    refine Or.inr ⟨rfl, hdelta, not_lt.mp (of_decide_eq_false hnonneg), hactor, referenceId, hparse,
      hfresh, rfl, ?_, ?_, ?_, ?_⟩
    · rw [hcommitted]; rfl
    · rw [hcommitted]
    · rw [hcommitted]; rfl
    · rw [hcommitted]

/-- A replay of a deposit: the stored entry agrees in amount, currency, type and description. -/
structure ReplaysDeposit (books : Books) (call : DepositCall) (prior : LedgerEntry) : Prop where
  stored : books.entry (strip call.idempotencyKey) = some prior
  amount : prior.amount = call.amount
  currency : prior.currency = books.wallet.currency
  entryType : prior.entryType = .deposit
  description :
    prior.description = depositDescription call.reference (strip call.idempotencyKey)

/-- A deposit that returns is a replay and changes nothing, or it posts its amount. -/
theorem creditDeposit_eq_ok {call : DepositCall} {wallet : Wallet} {applied : Bool}
    (h : creditDeposit books call = .ok (after, wallet, applied)) : 0 < call.amount ∧
      ((applied = false ∧ after = books ∧ ∃ prior, ReplaysDeposit books call prior) ∨
        (applied = true ∧ Posted books after (strip call.idempotencyKey) call.amount
          (depositEntry books.wallet (strip call.idempotencyKey) call) [])) := by
  obtain ⟨hamount, hkey⟩ := rejectIf_bind_eq_ok.mp h
  obtain ⟨-, huser⟩ := rejectIf_bind_eq_ok.mp hkey
  obtain ⟨-, hcurrency⟩ := rejectIf_bind_eq_ok.mp huser
  obtain ⟨-, hentry⟩ := rejectIf_bind_eq_ok.mp hcurrency
  have hpositive : 0 < call.amount := (not_not.mp (of_decide_eq_false hamount)).1
  refine ⟨hpositive, ?_⟩
  split at hentry
  · rename_i prior hprior
    obtain ⟨_, hfacts, hdone⟩ := bind_eq_ok.mp hentry
    have hagree := rejectIf_eq_ok.mp hfacts
    simp only [Bool.or_eq_false_iff, decide_eq_false_iff_not, not_not] at hagree
    obtain ⟨⟨⟨hsame, hcur⟩, htype⟩, hdescription⟩ := hagree
    obtain ⟨rfl, hpair⟩ := Prod.mk.inj (pure_eq_ok.mp hdone)
    obtain ⟨-, rfl⟩ := Prod.mk.inj hpair
    exact Or.inl ⟨rfl, rfl, prior, hprior, hsame, hcur, htype, hdescription⟩
  · rename_i hfresh
    obtain ⟨-, hposted⟩ := rejectIf_bind_eq_ok.mp hentry
    obtain ⟨committed, henqueue, hdone⟩ := bind_eq_ok.mp hposted
    obtain ⟨rfl, hpair⟩ := Prod.mk.inj (pure_eq_ok.mp hdone)
    obtain ⟨-, rfl⟩ := Prod.mk.inj hpair
    have hcommitted := enqueue_eq_ok henqueue
    refine Or.inr ⟨rfl, hfresh, rfl, ?_, ?_, ?_, ?_⟩
    · rw [hcommitted]; rfl
    · rw [hcommitted]
    · rw [hcommitted]; rfl
    · rw [hcommitted]; simp [Books.withBalance]

/-- A posting of the wallet under a key that is there. -/
theorem postEntry_duplicate {mid : Books} {call : PostCall} {referenceId : Option Uuid}
    {entry : LedgerEntry} (hreference : optionalUuid call.referenceId = .ok referenceId)
    (hwallet : mid.wallet.id = call.walletId) (hentry : mid.entry call.idempotencyKey = some entry) :
    ∃ raised, raised.kind = .duplicateIdempotency ∧ postEntry mid call = (mid, .error raised) := by
  unfold postEntry
  rw [hreference]
  dsimp only
  rw [if_neg (not_not.mpr hwallet), if_pos (by rw [hentry]; rfl)]
  exact ⟨_, rfl, rfl⟩

/-- A posting of the wallet under a new key. -/
theorem postEntry_new {mid : Books} {call : PostCall} {referenceId : Option Uuid}
    (hreference : optionalUuid call.referenceId = .ok referenceId)
    (hwallet : mid.wallet.id = call.walletId) (hentry : mid.entry call.idempotencyKey = none) :
    postEntry mid call = ({ mid with ledger := mid.ledger ++ [call.row referenceId] },
      if call.amount = 0 then raise .valueError "ledger entry amount cannot be zero"
      else .ok (call.row referenceId)) := by
  unfold postEntry
  rw [hreference]
  dsimp only
  rw [if_neg (not_not.mpr hwallet), if_neg (by rw [hentry]; simp)]

/-- After a posting to the wallet its key stands in the ledger. -/
theorem isSome_entry_postEntry {mid : Books} {call : PostCall} {referenceId : Option Uuid}
    (hreference : optionalUuid call.referenceId = .ok referenceId)
    (hwallet : mid.wallet.id = call.walletId) :
    ((postEntry mid call).1.entry call.idempotencyKey).isSome := by
  cases hentry : mid.entry call.idempotencyKey with
  | some entry =>
    obtain ⟨raised, -, hposted⟩ := postEntry_duplicate hreference hwallet hentry
    rw [hposted, hentry]
    rfl
  | none =>
    rw [postEntry_new hreference hwallet hentry, Books.entry_of_ledger rfl, hentry, Option.none_or]
    exact congrArg Option.isSome (if_pos rfl)

/-- Posting adds the entry of the call under a new key, or raises and changes nothing; it raises
`DuplicateIdempotencyError` only for a key that is there. -/
theorem postEntry_cases (books : Books) (call : PostCall) :
    (∃ raised, postEntry books call = (books, .error raised) ∧
      (raised.kind = .duplicateIdempotency → (books.entry call.idempotencyKey).isSome)) ∨
      (books.entry call.idempotencyKey = none ∧ ∃ referenceId,
        optionalUuid call.referenceId = .ok referenceId ∧ (postEntry books call).1 =
          { books with ledger := books.ledger ++ [call.row referenceId] }) := by
  unfold postEntry
  split
  · rename_i raised hraised
    refine Or.inl ⟨raised, rfl, fun hkind ↦ ?_⟩
    unfold optionalUuid at hraised
    split at hraised
    · cases hraised
    · split at hraised
      · cases hraised
      · rw [← Except.error.inj hraised] at hkind
        cases hkind
  · rename_i referenceId hreference
    by_cases hwallet : books.wallet.id ≠ call.walletId
    · rw [if_pos hwallet]
      exact Or.inl ⟨_, rfl, fun hkind ↦ by cases hkind⟩
    · rw [if_neg hwallet]
      by_cases hentry : (books.entry call.idempotencyKey).isSome
      · rw [if_pos hentry]
        exact Or.inl ⟨_, rfl, fun _ ↦ hentry⟩
      · rw [if_neg hentry]
        exact Or.inr ⟨by simpa using hentry, referenceId, hreference, rfl⟩

/-- A hold that is created is backed by free balance, under a new key and a new id. -/
theorem createHold_eq_ok {walletId : Uuid} {amount : ℤ} {currency key : String} {newId : Uuid}
    {hold : Hold} (h : createHold books walletId amount currency key newId = .ok (after, hold)) :
    (after = books ∧ books.createdHold walletId key = some hold) ∨
      (books.createdHold walletId key = none ∧ walletId = books.wallet.id ∧
        amount ≤ books.wallet.balance - books.held ∧ books.holdByKey walletId key = none ∧
        books.hold newId = none ∧ hold = ⟨newId, walletId, amount, currency, key, .created, none, none⟩ ∧
        after = { books with holds := books.holds ++ [hold] }) := by
  unfold createHold at h
  split at h
  · rename_i existing hexisting
    obtain ⟨rfl, rfl⟩ := Prod.mk.inj (Except.ok.inj h)
    exact Or.inl ⟨rfl, hexisting⟩
  · rename_i hnone
    obtain ⟨hwallet, havailable⟩ := rejectIf_bind_eq_ok.mp h
    obtain ⟨hamount, hkey⟩ := rejectIf_bind_eq_ok.mp havailable
    obtain ⟨hdup, hid⟩ := rejectIf_bind_eq_ok.mp hkey
    obtain ⟨hprimary, hdone⟩ := rejectIf_bind_eq_ok.mp hid
    obtain ⟨rfl, rfl⟩ := Prod.mk.inj (pure_eq_ok.mp hdone)
    refine Or.inr ⟨hnone, ?_, not_lt.mp (of_decide_eq_false hamount), ?_, ?_, rfl, rfl⟩
    · simpa using hwallet
    · simpa using hdup
    · simpa using hprimary

/-- A release returns the hold it moved to RELEASED, or changes nothing. -/
theorem releaseHold_cases (books : Books) (holdId : Uuid) (now : ℤ) :
    (∃ hold, books.hold holdId = some hold ∧ hold.status = .created ∧ releaseHold books holdId now =
        (books.setHold { hold with status := .released, releasedAt := some now },
          some { hold with status := .released, releasedAt := some now })) ∨
      (releaseHold books holdId now = (books, none) ∧
        ∀ hold, books.hold holdId = some hold → hold.status ≠ .created) := by
  cases hhold : books.hold holdId with
  | none => exact Or.inr ⟨by simp only [releaseHold, hhold], by simp⟩
  | some hold =>
    by_cases hcreated : hold.status = .created
    · exact Or.inl ⟨hold, rfl, hcreated, by simp only [releaseHold, hhold, if_pos hcreated]⟩
    · refine Or.inr ⟨by simp only [releaseHold, hhold, if_neg hcreated], fun other hother ↦ ?_⟩
      obtain rfl := Option.some.inj hother
      exact hcreated

/-- A capture that returns debits the amount of a CREATED hold and marks it, or changes nothing. -/
theorem captureHold_eq_ok {holdId : Uuid} {now : ℤ} {captured : Option Hold}
    (h : captureHold books holdId now = .ok (after, captured)) :
    (∃ hold, books.hold holdId = some hold ∧ hold.status = .created ∧
      books.wallet.id = hold.walletId ∧ hold.amount ≤ books.wallet.balance ∧
      captured = some { hold with status := .captured, capturedAt := some now } ∧
      after = (books.withBalance (books.wallet.balance - hold.amount)).setHold
        { hold with status := .captured, capturedAt := some now }) ∨
      (after = books ∧ captured = none ∧
        ∀ hold, books.hold holdId = some hold → hold.status ≠ .created) := by
  unfold captureHold at h
  split at h
  · rename_i hnone
    obtain ⟨rfl, rfl⟩ := Prod.mk.inj (Except.ok.inj h)
    exact Or.inr ⟨rfl, rfl, by simp [hnone]⟩
  · rename_i hold hhold
    split at h
    · rename_i hcreated
      obtain ⟨hwallet, hbalance⟩ := rejectIf_bind_eq_ok.mp h
      obtain ⟨hcovered, hdone⟩ := rejectIf_bind_eq_ok.mp hbalance
      obtain ⟨rfl, rfl⟩ := Prod.mk.inj (pure_eq_ok.mp hdone)
      exact Or.inl ⟨hold, hhold, hcreated, by simpa using hwallet,
        not_lt.mp (of_decide_eq_false hcovered), rfl, rfl⟩
    · rename_i hterminal
      obtain ⟨rfl, rfl⟩ := Prod.mk.inj (Except.ok.inj h)
      refine Or.inr ⟨rfl, rfl, fun other hother ↦ ?_⟩
      obtain rfl := Option.some.inj (hhold.symm.trans hother)
      exact hterminal

end CloudPlatform.Wallets
