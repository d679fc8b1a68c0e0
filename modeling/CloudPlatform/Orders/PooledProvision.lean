import CloudPlatform.Operations.CreateAttemptsRepository
import CloudPlatform.Orders.Worker
import CloudPlatform.ProviderRoutes.Selector
import CloudPlatform.Transition.Loop

/-!
# Provisioning from an account pool

`OrderWorker._provision_from_pool` for a provider with a usage reader: it selects an account,
validates the pinned contract there, records the attempt and sends the create. A definitive capacity
refusal or a contract mismatch excludes the account and selects again; everything else ends the
loop. Each pass meets the next answers of the world. `passed` and `sent` log the accounts that were
passed over and the creates that were sent; the source does not keep them.
-/

namespace CloudPlatform.Orders

open Compute (CloudServer)
open Operations (Operation CreateRows createRouting conflictIf normalizeAccountId safePrePost
  lastAttempt startAttempt recordRefusal recordUnknown recordAcceptance saveOutcome)
open ProviderRoutes (ProviderRoute AccountServerUsage UsageReader accountFor)
open Providers hiding normalizeAccountId
open Transition (Pass loop)

/-! ### The answers of the world -/

/-- An exception of the create, with the evidence of a capacity refusal. -/
structure CreateRaised where
  raised : Raised
  errorCode : Option String := none
  quotaNames : List String := []
  definitiveRefusal : Bool := false

/-- `ProviderCapacityError.allows_account_failover`. -/
def CreateRaised.allowsAccountFailover (refusal : CreateRaised) : Bool :=
  refusal.definitiveRefusal &&
    refusal.errorCode ∈ Operations.definitiveCapacityRefusalCodes.map some

/-- What `provider_for` finds: the adapter, no such account, or no such provider. -/
inductive AdapterLookup
  | adapter (provider : Provider)
  | unknownAccount
  | unknownProvider

/-- `provider_for`. -/
def AdapterLookup.resolve : AdapterLookup → Result Provider
  | .adapter provider => .ok provider
  | .unknownAccount => raise .unknownCredentialAccount "credential account is not configured"
  | .unknownProvider => raise .keyError "provider is not registered"

/-- The answers that one pass of the loop meets. `routes` is what the route table reads as, if it can
be read; `recovery` is the verdict of the read-only recovery, `settlement` what the settlement
barrier of an accepted order raises. -/
structure PoolRound where
  now : ℤ
  routes : Option (List ProviderRoute)
  serverUsage : String → Result AccountServerUsage
  adapter : Option String → AdapterLookup
  validation : Result Unit
  creation : CreateServerRequest → Except CreateRaised ProviderServer
  recovery : Result (Option ProviderServer)
  settlement : Result Unit

/-- A provider with a usage reader: the accounts that may take orders, the finitely many accounts
that have routes, and the answers of every pass. -/
structure AccountPool where
  acceptsNewOrders : String → Bool
  accounts : List String
  round : ℕ → PoolRound
  routed : ∀ n, ∀ routes ∈ (round n).routes, ∀ route ∈ routes,
    route.credentialAccountId ∈ accounts

/-- The usage reader, as one pass meets it. -/
def AccountPool.reader (pool : AccountPool) (n : ℕ) : UsageReader where
  acceptsNewOrders := pool.acceptsNewOrders
  serverUsage := (pool.round n).serverUsage

/-! ### The pinned contract -/

/-- The immutable provider contract of an order. -/
structure ProviderContract where
  productId : String
  locationId : String
  osName : String
  costMinor : ℤ
  currency : String
  contractTerm : String
  billingCycle : String

/-- The contract of an order that has it complete. -/
def pinnedContract (server : CloudServer) (order : ProviderOrder) : Option ProviderContract :=
  if truthy order.productId && truthy order.locationId && truthy order.osName &&
      server.os = order.osName && 0 < order.providerCostMinor.getD 0 &&
      truthy order.providerCostCurrency && truthy order.contractTerm &&
      truthy order.billingCycle && order.controlPanel.isNone then
    some {
      productId := textOf order.productId
      locationId := textOf order.locationId
      osName := textOf order.osName
      costMinor := order.providerCostMinor.getD 0
      currency := textOf order.providerCostCurrency
      contractTerm := textOf order.contractTerm
      billingCycle := textOf order.billingCycle }
  else none

/-- The request of the create: the pinned contract and nothing else. -/
def ProviderContract.request (contract : ProviderContract) (server : CloudServer) :
    CreateServerRequest where
  name := "srv-" ++ String.ofList (server.id.text.toList.take 8)
  planId := contract.productId
  imageId := contract.osName
  locationId := contract.locationId
  labels := [
    ("provider_price_minor", toString contract.costMinor),
    ("provider_currency", contract.currency),
    ("contract_term", contract.contractTerm),
    ("billing_cycle", contract.billingCycle),
    ("platform_server_id", server.id.text)]

/-! ### State and endings -/

/-- The permanent failures of the pooled path. -/
inductive PoolFailure
  | incompleteContract
  | noCapacity (contractMismatch : Bool)
  | noServingAccount
  | cannotCreate
  | cannotProveInputs
  | credentialRejected
  | refusalWithoutEvidence
  | rejected (kind : ErrorKind)

/-- The reason that the audit and the rows get. -/
def PoolFailure.reason : PoolFailure → String
  | .incompleteContract => "monthly intent lacks a complete immutable provider contract"
  | .noCapacity contractMismatch =>
    if contractMismatch then "no account can honor the pinned provider contract"
    else "all proven provider accounts are full or definitively refused"
  | .noServingAccount => "no proven serving account for the pinned provider contract"
  | .cannotCreate => "selected account cannot perform direct creation"
  | .cannotProveInputs => "selected account cannot prove mandatory checkout inputs"
  | .credentialRejected => "provider credential rejected before create"
  | .refusalWithoutEvidence => "provider refusal lacks authoritative capacity evidence"
  | .rejected kind => s!"provider create definitively rejected ({typeName kind})"

/-- A selection: its pass, what it excluded, and the account it came to. -/
structure Choice where
  round : ℕ
  excluded : List String
  account : String

/-- The state of the loop between two passes. -/
structure PoolState where
  rows : CreateRows
  claimed : Operation
  excluded : List String
  contractMismatch : Bool := false
  passed : List Choice := []
  sent : List Choice := []

/-- How the loop ended: its outcome, the failure after which the hold was released, the pass, and
the state there. -/
structure PoolEnd where
  outcome : Result OrderWorkerOutcome
  released : Option PoolFailure := none
  round : ℕ
  final : PoolState

/-- `refused_accounts`. -/
def refusedAccounts (operation : Operation) : Result (List String) := do
  match ← createRouting operation with
  | none => return []
  | some receipt =>
    return (receipt.attempts.filter (·.phase = .capacityRefused)).map (·.accountId)

section Passes

variable (order : ProviderOrder) (n : ℕ) (now : ℤ)

/-- The loop ends with an outcome and rows, and nothing is released. -/
def PoolState.stop (s : PoolState) : Result (CreateRows × OrderWorkerOutcome) → PoolEnd
  | .ok (rows, outcome) => { outcome := .ok outcome, round := n, final := { s with rows := rows } }
  | .error raised => { outcome := .error raised, round := n, final := s }

/-- `OrderWorker._fail_permanent` for a claimed operation with a receipt: the guarded save, and then
the release of the hold. -/
def PoolState.failPermanent (s : PoolState) (failure : PoolFailure) : PoolEnd :=
  match saveOutcome s.rows s.claimed.id s.claimed.attempts .failed (some failure.reason) [] now with
  | .error raised =>
    if raised.kind = .createAttemptConflict then s.stop n (.ok (s.rows, .skippedInFlight))
    else s.stop n (.error raised)
  | .ok (rows, _) =>
    match order.markFailed failure.reason with
    | .error raised => { outcome := .error raised, round := n, final := { s with rows := rows } }
    | .ok _ => {
        outcome := .ok .failed
        released := some failure
        round := n
        final := { s with rows := rows } }

/-- The operation goes back to PENDING. -/
def PoolState.requeue (s : PoolState) (error : String) : PoolEnd :=
  s.stop n do
    let (rows, _) ← saveOutcome s.rows s.claimed.id s.claimed.attempts .pending (some error) [] now
    return (rows, .requeued)

/-- `OrderWorker._mark_outcome_unknown` for an operation with a receipt; `account` is the server's. -/
def PoolState.markOutcomeUnknown (s : PoolState) (account reason : String) : PoolEnd :=
  s.stop n do
    let attempt ← lastAttempt s.claimed
    conflictIf (attempt.any (·.accountId ≠ normalizeAccountId (some account)))
      "receipt and fulfillment ownership disagree"
    let (rows, _) ← if attempt.any (·.phase = .sent) then
        recordUnknown s.rows s.claimed.id s.claimed.attempts account now
      else
        saveOutcome s.rows s.claimed.id s.claimed.attempts .outcomeUnknown (some reason) [] now
    return (rows, .outcomeUnknown)

/-- `OrderWorker._accept_direct` for an operation with a receipt. -/
def PoolState.acceptDirect (s : PoolState) (account : String) (created : ProviderServer)
    (settlement : Result Unit) : PoolEnd :=
  s.stop n do
    let attempt ← lastAttempt s.claimed
    conflictIf (attempt.any (·.accountId ≠ normalizeAccountId (some account)))
      "receipt and fulfillment ownership disagree"
    let (rows, accepted) ← recordAcceptance s.rows s.claimed.id s.claimed.attempts account
      created.id created.ipv4 created.ipv6 now
    let _ ← order.markSubmitted created.id
    let (rows, _) ← saveOutcome rows accepted.id accepted.attempts .completed none
      [("provider_server_id", .text created.id), ("provider_state", .text created.status),
        ("idempotency_key", .text accepted.operationKey)] now
    settlement
    return (rows, .submitted)

/-- The handlers of the selection. -/
def PoolState.selectionFailed (s : PoolState) (raised : Raised) : PoolEnd :=
  if raised.kind = .providerCapacity then
    s.failPermanent order n now (.noCapacity s.contractMismatch)
  else if raised.kind = .providerNotFound then s.failPermanent order n now .noServingAccount
  else if raised.kind ∈ [.providerUnavailable, .unknownCredentialAccount] then
    s.requeue n now "provider eligibility or Project inventory is unreadable"
  else s.stop n (.error raised)

/-- The handlers of the validation: a mismatch of the contract passes the account over. -/
def PoolState.validationFailed (s : PoolState) (account : String) (raised : Raised) :
    Pass PoolState PoolEnd :=
  if raised.kind = .providerAuth then .stop (s.failPermanent order n now .credentialRejected)
  else if raised.kind ∈ [.providerNotFound, .providerConflict] then
    .again { s with
      excluded := account :: s.excluded
      contractMismatch := true
      passed := ⟨n, s.excluded, account⟩ :: s.passed }
  else if isProviderError raised.kind then
    .stop (s.requeue n now s!"mandatory-input revalidation unreadable ({typeName raised.kind})")
  else .stop (s.stop n (.error raised))

/-- The handler of a capacity error of the create. -/
def PoolState.capacityRefused (s : PoolState) (account : String) (refusal : CreateRaised) :
    Pass PoolState PoolEnd :=
  if refusal.definitiveRefusal then
    match recordRefusal s.rows s.claimed.id s.claimed.attempts account
      refusal.allowsAccountFailover refusal.errorCode refusal.quotaNames now with
    | .error raised => .stop (s.stop n (.error raised))
    | .ok (rows, claimed) =>
      if refusal.allowsAccountFailover then
        .again { s with
          rows := rows
          claimed := claimed
          excluded := account :: s.excluded
          passed := ⟨n, s.excluded, account⟩ :: s.passed }
      else
        .stop (PoolState.failPermanent order n now { s with rows := rows, claimed := claimed }
          .refusalWithoutEvidence)
  else
    .stop (s.markOutcomeUnknown n now account
      ("capacity error lacks authoritative rejection proof; " ++
        "same-account recovery required"))

/-- The handler of an unknown or retryable outcome of the create: a read-only recovery. -/
def PoolState.recoverOutcome (s : PoolState) (account : String) (answers : PoolRound) : PoolEnd :=
  match recordUnknown s.rows s.claimed.id s.claimed.attempts account now with
  | .error raised => s.stop n (.error raised)
  | .ok (rows, claimed) =>
    let unknown := { s with rows := rows, claimed := claimed }
    match answers.recovery with
    | .error raised => unknown.stop n (.error raised)
    | .ok none =>
      unknown.markOutcomeUnknown n now account
        "provider outcome unknown; same-account recovery required"
    | .ok (some recovered) =>
      unknown.acceptDirect order n now account recovered answers.settlement

/-- The handler of a definitive rejection of the create. -/
def PoolState.rejected (s : PoolState) (account : String) (refusal : CreateRaised) : PoolEnd :=
  match recordRefusal s.rows s.claimed.id s.claimed.attempts account false refusal.errorCode []
    now with
  | .error raised => s.stop n (.error raised)
  | .ok (rows, claimed) =>
    PoolState.failPermanent order n now { s with rows := rows, claimed := claimed }
      (.rejected refusal.raised.kind)

/-- The handlers of the create. -/
def PoolState.createFailed (s : PoolState) (account : String) (answers : PoolRound)
    (refusal : CreateRaised) : Pass PoolState PoolEnd :=
  if refusal.raised.kind = .providerCapacity then s.capacityRefused order n now account refusal
  else if isProviderError refusal.raised.kind then
    if refusal.raised.kind = .providerOutcomeUnknown ∨
        classifyProviderError refusal.raised = .retryable then
      .stop (s.recoverOutcome order n now account answers)
    else .stop (s.rejected order n now account refusal)
  else
    .stop (s.markOutcomeUnknown n now account
      ("provider mutation returned an unverifiable outcome; " ++
        "same-account recovery required"))

/-- The attempt is recorded, and the create is sent. -/
def PoolState.create (s : PoolState) (account : String) (request : CreateServerRequest)
    (answers : PoolRound) : Pass PoolState PoolEnd :=
  match startAttempt s.rows s.claimed.id s.claimed.attempts account none now with
  | .error raised => .stop (s.stop n (.error raised))
  | .ok (rows, claimed) =>
    let started := { s with
      rows := rows
      claimed := claimed
      sent := ⟨n, s.excluded, account⟩ :: s.sent }
    match answers.creation request with
    | .ok created => .stop (started.acceptDirect order n now account created answers.settlement)
    | .error refusal => started.createFailed order n now account answers refusal

/-- What follows a selection: the checks of the adapter, the validation, the create. -/
def PoolState.useAccount (s : PoolState) (account : Option String) (provider : Provider)
    (request : CreateServerRequest) (answers : PoolRound) : Pass PoolState PoolEnd :=
  match account with
  | none => .stop (s.failPermanent order n now .cannotCreate)
  | some account =>
    if provisioningModeOf provider ≠ some .directCreate then
      .stop (s.failPermanent order n now .cannotCreate)
    else if !provider.offerOptions then .stop (s.failPermanent order n now .cannotProveInputs)
    else match answers.validation with
      | .error raised => s.validationFailed order n now account raised
      | .ok _ => s.create order n now account request answers

end Passes

section Pool

variable (pool : AccountPool) (server : CloudServer) (order : ProviderOrder)

/-- The selection of one pass: the routes are read, an account is chosen, its adapter resolved. -/
def AccountPool.select (contract : ProviderContract) (n : ℕ) (excluded : List String) :
    Result (Option String × Provider) := do
  match (pool.round n).routes with
  | none => raise .runtimeError "the route table could not be read"
  | some routes =>
    let account ← accountFor (some (pool.reader n)) routes contract.locationId
      (some contract.productId) excluded
    let provider ← ((pool.round n).adapter account).resolve
    return (account, provider)

/-- One pass of the loop. -/
def poolPass (contract : ProviderContract) (n : ℕ) (s : PoolState) : Pass PoolState PoolEnd :=
  match pool.select contract n s.excluded with
  | .error raised => .stop (s.selectionFailed order n (pool.round n).now raised)
  | .ok (account, provider) =>
    s.useAccount order n (pool.round n).now account provider (contract.request server)
      (pool.round n)

/-- `OrderWorker._provision_from_pool` for a claimed operation, within so many passes. -/
def provisionFromPool (fuel : ℕ) (rows : CreateRows) (claimed : Operation) : Option PoolEnd :=
  let start : PoolState := { rows := rows, claimed := claimed, excluded := [] }
  match safePrePost claimed with
  | .error raised => some (start.stop 0 (.error raised))
  | .ok false => some (start.stop 0 (.ok (rows, .outcomeUnknown)))
  | .ok true =>
    match pinnedContract server order with
    | none => some (start.failPermanent order 0 (pool.round 0).now .incompleteContract)
    | some contract =>
      match refusedAccounts claimed with
      | .error raised => some (start.stop 0 (.error raised))
      | .ok refused =>
        loop (poolPass pool server order contract) fuel 0 { start with excluded := refused }

end Pool

end CloudPlatform.Orders
