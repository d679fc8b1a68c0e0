import CloudPlatform.Operations.Domain

/-!
# The create routing receipt

The validation of a stored receipt and the questions that the create workflow asks it. A receipt is
read on every call and every reading validates it: sequence numbers, distinct safe account ids, only
definitive capacity refusals before the last attempt, and an acceptance that agrees with the
attempts. A receipt that fails raises `CreateAttemptConflict`.
-/

namespace CloudPlatform.Operations

/-- `raise CreateAttemptConflict(message)` when the condition holds. -/
def conflictIf (condition : Bool) (message : String) : Result Unit :=
  rejectIf condition .createAttemptConflict message

theorem conflictIf_bind_eq_ok {β : Type} {condition : Bool} {message : String}
    {f : Unit → Result β} {result : β} :
    (conflictIf condition message >>= f) = .ok result ↔ condition = false ∧ f () = .ok result :=
  rejectIf_bind_eq_ok

theorem conflictIf_eq_ok {condition : Bool} {message : String} {u : Unit} :
    conflictIf condition message = .ok u ↔ condition = false :=
  rejectIf_eq_ok

/-- `DEFINITIVE_CAPACITY_REFUSAL_CODES`. -/
def definitiveCapacityRefusalCodes : List String := ["resource_limit_exceeded"]

/-- `DEFAULT_CREDENTIAL_ACCOUNT`. -/
def defaultCredentialAccount : String := "default"

/-- `normalize_account_id`: the empty or absent id is the default account. -/
def normalizeAccountId (accountId : Option String) : String :=
  let candidate := strip (accountId.getD "")
  if candidate = "" then defaultCredentialAccount else candidate

/-- A character of `_SAFE_CODE`. -/
def isSafeChar (c : Char) : Bool :=
  c.isAlphanum || c == '.' || c == '_' || c == '-'

/-- `safe_fact`: the value when it matches `_SAFE_CODE` in full. -/
def safeFact (value : Option String) : Option String :=
  value.filter fun text ↦ 1 ≤ text.length && text.length ≤ 128 && text.toList.all isSafeChar

/-- The loop of `create_routing` over the attempts: the account of the accepted attempt, if any.
`accounts` are the accounts seen before, `sequence` the number of the next attempt. -/
def checkAttempts (total : ℕ) :
    ℤ → List String → Option String → List CreateRoutingAttempt → Result (Option String)
  | _, _, accepted, [] => .ok accepted
  | sequence, accounts, accepted, attempt :: rest => do
    conflictIf (attempt.sequence ≠ sequence) "invalid account attempt sequence"
    let account := attempt.accountId
    conflictIf (safeFact (some account) = none || normalizeAccountId (some account) ≠ account ||
      account ∈ accounts) "invalid attempted credential identity"
    conflictIf (sequence < total && attempt.phase ≠ .capacityRefused)
      "account changed without definitive capacity proof"
    conflictIf (attempt.errorCode.isSome && safeFact attempt.errorCode = none)
      "unsafe provider error code"
    conflictIf (attempt.phase = .capacityRefused &&
      attempt.errorCode ∉ definitiveCapacityRefusalCodes.map some)
      "capacity refusal lacks documented pre-acceptance evidence"
    conflictIf (attempt.quotaNames.any fun name ↦ safeFact (some name) = none) "unsafe quota names"
    if attempt.phase = .accepted then
      conflictIf (attempt.providerServerId.all fun identity ↦ strip identity = "")
        "accepted attempt lacks provider identity"
      checkAttempts total (sequence + 1) (account :: accounts) (some account) rest
    else
      conflictIf attempt.providerServerId.isSome "unaccepted attempt contains provider identity"
      checkAttempts total (sequence + 1) (account :: accounts) accepted rest

/-- `create_routing`: the validated receipt, or `None` when the operation carries none. -/
def createRouting (operation : Operation) : Result (Option CreateRoutingReceipt) :=
  match operation.response.createRouting with
  | none => .ok none
  | some raw => do
    conflictIf (raw.version ≠ 1 || raw.policy ≠ "capacity_failover")
      "missing or unsupported create routing proof"
    conflictIf (raw.catalogAccountId.any fun account ↦
      safeFact (some account) = none || normalizeAccountId (some account) ≠ account)
      "invalid catalog observation provenance"
    let accepted ← checkAttempts raw.attempts.length 1 [] none raw.attempts
    conflictIf (raw.acceptedAccountId ≠ accepted)
      "accepted ownership disagrees with attempt history"
    return some raw

/-- The attempts of a stored receipt, read without validation. -/
def Operation.attemptHistory (operation : Operation) : List CreateRoutingAttempt :=
  (operation.response.createRouting.map (·.attempts)).getD []

/-- `last_attempt`. -/
def lastAttempt (operation : Operation) : Result (Option CreateRoutingAttempt) := do
  let receipt ← createRouting operation
  return (receipt.map (·.attempts)).getD [] |>.getLast?

/-- The provider identities that the flat facts of an operation record. -/
def identityKeys : List String := ["provider_server_id", "provider_order_id"]

/-- `safe_pre_post`: routing proof, no provider identity, and no attempt that may have been
accepted or was refused for another reason than capacity. -/
def safePrePost (operation : Operation) : Result Bool := do
  let receipt ← createRouting operation
  if receipt.isNone || identityKeys.any fun key ↦ (operation.response.facts.get key).truthy then
    return false
  let attempt ← lastAttempt operation
  return attempt.all (·.phase = .capacityRefused)

/-! ### What a successful reading says -/

variable {operation : Operation}

/-- A receipt that validates is the stored one. -/
theorem createRouting_eq_ok {receipt : Option CreateRoutingReceipt}
    (h : createRouting operation = .ok receipt) : receipt = operation.response.createRouting := by
  unfold createRouting at h
  split at h
  · rename_i hnone
    rw [hnone]
    exact (Except.ok.inj h).symm
  · rename_i raw hraw
    obtain ⟨-, hversion⟩ := conflictIf_bind_eq_ok.mp h
    obtain ⟨-, hcatalog⟩ := conflictIf_bind_eq_ok.mp hversion
    obtain ⟨accepted, -, hattempts⟩ := bind_eq_ok.mp hcatalog
    obtain ⟨-, hdone⟩ := conflictIf_bind_eq_ok.mp hattempts
    rw [hraw]
    exact (pure_eq_ok.mp hdone).symm

theorem lastAttempt_eq_ok {attempt : Option CreateRoutingAttempt}
    (h : lastAttempt operation = .ok attempt) : attempt = operation.attemptHistory.getLast? := by
  obtain ⟨receipt, hreceipt, hdone⟩ := bind_eq_ok.mp h
  rw [createRouting_eq_ok hreceipt] at hdone
  exact (pure_eq_ok.mp hdone).symm

/-- The last attempt, if any, was refused for capacity. -/
def ReadyToSend (operation : Operation) : Prop :=
  ∀ attempt ∈ operation.attemptHistory.getLast?, attempt.phase = .capacityRefused

/-- What `safe_pre_post` says when it answers yes. -/
theorem safePrePost_eq_true (h : safePrePost operation = .ok true) :
    operation.response.createRouting.isSome ∧
      (∀ key ∈ identityKeys, (operation.response.facts.get key).truthy = false) ∧
      ReadyToSend operation := by
  obtain ⟨receipt, hreceipt, hrest⟩ := bind_eq_ok.mp h
  obtain rfl := createRouting_eq_ok hreceipt
  split at hrest
  · simp [pure, Except.pure] at hrest
  · rename_i hguard
    obtain ⟨attempt, hattempt, hdone⟩ := bind_eq_ok.mp hrest
    obtain rfl := lastAttempt_eq_ok hattempt
    simp only [Bool.or_eq_true, not_or, List.any_eq_true, not_exists, not_and,
      Bool.not_eq_true, Option.isNone_eq_false_iff] at hguard
    refine ⟨hguard.1, hguard.2, fun attempt hlast ↦ ?_⟩
    have hall := pure_eq_ok.mp hdone
    rw [Option.mem_def] at hlast
    rw [hlast] at hall
    simpa using hall

end CloudPlatform.Operations
