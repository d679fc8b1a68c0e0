import CloudPlatform.Compute.Domain
import CloudPlatform.Orders.Domain
import CloudPlatform.Operations.CreateAttempts

/-!
# The create attempt repository

The seven writes of the guarded create workflow, each one transaction on the rows of one create
intent: the operation, its server and, for an order, the order. A method reads the rows through
`bundle`, which checks that they belong together, raises `CreateAttemptConflict` where the intent,
the claim or the receipt no longer permits the write, and otherwise commits new rows. `wrote_of`
sums up what a successful call can have written; nothing after it looks at the methods again.
-/

namespace CloudPlatform.Operations

open Compute (CloudServer LegacyCreateRequest)
open Orders (ProviderOrder)

/-! ### Rows -/

/-- The rows of one create intent. -/
structure CreateRows where
  operation : Operation
  server : Option CloudServer
  order : Option ProviderOrder

/-- The rows that a method holds locked. -/
structure Bundle where
  operation : Operation
  server : CloudServer
  order : Option ProviderOrder

/-- The rows after a commit; an operation without an order leaves the order row. -/
def CreateRows.commit (rows : CreateRows) (bundle : Bundle) (now : ℤ) : CreateRows where
  operation := { bundle.operation with updatedAt := some now }
  server := some bundle.server
  order := bundle.order <|> rows.order

/-- `_owned`. -/
def owned (server : CloudServer) (order : Option ProviderOrder) (accountId : String) :
    Result Unit := do
  conflictIf (normalizeAccountId server.credentialAccountId ≠ accountId)
    "receipt/server ownership mismatch"
  conflictIf (order.any fun order ↦ normalizeAccountId order.credentialAccountId ≠ accountId)
    "receipt/order ownership mismatch"

/-- `_CREATE_STATES`. -/
def createStates : List Compute.ServerLifecycleState := [.requested, .provisioning]

/-- `_unaccepted`. -/
def unaccepted (server : CloudServer) (order : Option ProviderOrder) : Result Unit := do
  conflictIf (truthy server.providerServerId || server.state ∉ createStates)
    "server no longer permits a new create"
  conflictIf (order.any fun order ↦ truthy order.providerOrderId || order.status ≠ .pendingSubmit)
    "order no longer permits a new create"

/-- The order id and the server id that the operation is bound to. -/
def bound (rows : CreateRows) (orderId : Option Uuid) : Result (Option Uuid × Option Uuid) :=
  let operation := rows.operation
  match operation.operationType with
  | .orderCreate => do
    conflictIf (operation.resourceType ≠ "server_order") "order create resource type mismatch"
    conflictIf (orderId.any (· ≠ operation.resourceId)) "operation/order identity mismatch"
    return (some operation.resourceId,
      (rows.order.filter (·.id = operation.resourceId)).map (·.serverId))
  | .serverCreate => do
    conflictIf (operation.resourceType ∉ ["cloud_server", "server"])
      "server create resource type mismatch"
    conflictIf orderId.isSome "server create cannot bind an unrelated order"
    return (none, some operation.resourceId)
  | _ => raise .createAttemptConflict "operation is not a create intent"

/-- The order row of a bundle, when the operation is bound to one. -/
def boundOrder (rows : CreateRows) (server : CloudServer) :
    Option Uuid → Result (Option ProviderOrder)
  | none => .ok none
  | some orderId =>
    match rows.order.filter fun order ↦ order.id = orderId ∧ order.serverId = server.id ∧
      order.operationKey = rows.operation.operationKey ∧
      order.providerKey = rows.operation.providerKey with
    | none => raise .createAttemptConflict "create order binding mismatch"
    | some order => .ok (some order)

/-- The owner check of an attempt that may be absent. -/
def ownedLast (b : Bundle) : Option CreateRoutingAttempt → Result Unit
  | none => .ok ()
  | some attempt => owned b.server b.order attempt.accountId

/-- The receipt's agreement with the immutable contract and with the fulfillment pins. -/
def checkPins (operation : Operation) (server : CloudServer) (order : Option ProviderOrder) :
    Result Unit := do
  match ← createRouting operation with
  | none => return
  | some receipt =>
    conflictIf (server.fingerprint.facts.has "provider_account_id" &&
      server.fingerprint.facts.get "provider_account_id" ≠ .ofOption receipt.catalogAccountId)
      "receipt changed immutable catalog provenance"
    owned server order (normalizeAccountId server.credentialAccountId)
    ownedLast ⟨operation, server, order⟩ receipt.attempts.getLast?

/-- `_bundle`. -/
def bundle (rows : CreateRows) (operationId : Uuid) (serverId orderId : Option Uuid) :
    Result Bundle := do
  conflictIf (rows.operation.id ≠ operationId) "create operation no longer exists"
  let (orderId, boundServer) ← bound rows orderId
  conflictIf (serverId.isSome && serverId ≠ boundServer) "operation/server identity mismatch"
  match rows.server.filter fun server ↦ some server.id = boundServer with
  | none => raise .createAttemptConflict "create server no longer exists"
  | some server =>
    conflictIf (server.providerKey ≠ rows.operation.providerKey)
      "operation/server provider mismatch"
    let order ← boundOrder rows server orderId
    checkPins rows.operation server order
    return ⟨rows.operation, server, order⟩

/-- `_claim_matches`. -/
def claimMatches (operation : Operation) (generation : ℕ) (recovery : Bool := false) :
    Result CreateRoutingReceipt := do
  let statuses := if recovery then [OperationStatus.inFlight, .outcomeUnknown]
    else [OperationStatus.inFlight]
  conflictIf (operation.attempts ≠ generation || operation.status ∉ statuses)
    "create claim was fenced or is no longer live"
  match ← createRouting operation with
  | none => raise .createAttemptConflict "attempted operation has no routing proof"
  | some receipt => return receipt

/-- `_receipt`: the operation with the receipt in its correlation. -/
def withReceipt (operation : Operation) (receipt : CreateRoutingReceipt) : Operation :=
  { operation with
    providerResponse := some { operation.response with createRouting := some receipt } }

/-- The operation with its last attempt replaced. -/
def withLastAttempt (operation : Operation) (receipt : CreateRoutingReceipt)
    (attempt : CreateRoutingAttempt) : Operation :=
  withReceipt operation { receipt with attempts := receipt.attempts.dropLast ++ [attempt] }

/-! ### The methods -/

/-- The receipt that a claim stores: a new one, or the stored one when it is safe. -/
def claimReceipt (operation : Operation) (order : Option ProviderOrder)
    (catalogAccountId : Option String) : Result CreateRoutingReceipt := do
  match ← createRouting operation with
  | none =>
    conflictIf (operation.attempts ≠ 0 || order.any (·.postAttemptedAt.isSome))
      "historical attempt has no pre-POST routing proof"
    conflictIf (identityKeys.any fun key ↦ (operation.response.facts.get key).truthy)
      "operation already contains provider identity"
    return {
      version := 1
      policy := "capacity_failover"
      catalogAccountId := catalogAccountId
      attempts := [] }
  | some receipt =>
    let safe ← safePrePost operation
    conflictIf (!safe) "only proven pre-POST/refused attempts may be reclaimed"
    return receipt

/-- `claim`; `None` when the operation is not PENDING. -/
def claimCreate (rows : CreateRows) (operationId serverId : Uuid) (orderId : Option Uuid)
    (catalogAccountId : Option String) (now : ℤ) : Result (CreateRows × Option Operation) := do
  let b ← bundle rows operationId (some serverId) orderId
  if b.operation.status ≠ .pending then
    return (rows, none)
  unaccepted b.server b.order
  owned b.server b.order (normalizeAccountId b.server.credentialAccountId)
  let fingerprint := b.server.fingerprint.facts
  conflictIf (fingerprint.has "fingerprint_version" &&
    (fingerprint.get "fingerprint_version" ≠ .number 3 ||
      fingerprint.get "fulfillment_policy" ≠ .text "capacity_failover"))
    "historical hourly contracts cannot enter account failover"
  conflictIf (fingerprint.has "provider_account_id" &&
    fingerprint.get "provider_account_id" ≠ .ofOption catalogAccountId)
    "catalog provenance differs from the immutable intent"
  conflictIf (catalogAccountId.isSome && (safeFact catalogAccountId = none ||
    some (normalizeAccountId catalogAccountId) ≠ catalogAccountId))
    "invalid catalog account provenance"
  let receipt ← claimReceipt b.operation b.order catalogAccountId
  conflictIf (receipt.catalogAccountId ≠ catalogAccountId)
    "reclaim changed original catalog provenance"
  let claimed := { withReceipt b.operation receipt with
    status := .inFlight
    attempts := b.operation.attempts + 1
    error := none }
  let committed := rows.commit { b with operation := claimed } now
  return (committed, some committed.operation)

/-- The keys of a legacy create request. -/
def legacyRequestKeys : List String := ["name", "plan_id", "location_id", "image_id"]

/-- The legacy create request of a mapping with exactly its four keys and no blank value. -/
def legacyRequest (facts : List (String × String)) : Option LegacyCreateRequest := do
  guard (facts.all fun fact ↦ fact.1 ∈ legacyRequestKeys && strip fact.2 ≠ "")
  let name ← facts.lookup "name"
  let planId ← facts.lookup "plan_id"
  let locationId ← facts.lookup "location_id"
  let imageId ← facts.lookup "image_id"
  return ⟨name, planId, locationId, imageId⟩

/-- The server with the legacy request frozen in its contract. -/
def freezeRequest (server : CloudServer) :
    Option (List (String × String)) → Result CloudServer
  | none => .ok server
  | some facts =>
    match legacyRequest facts with
    | none => raise .createAttemptConflict "legacy create request is incomplete"
    | some request => do
      let fingerprint := server.fingerprint
      conflictIf (fingerprint.facts.has "fingerprint_version")
        "legacy request cannot alter an hourly contract"
      conflictIf (fingerprint.legacyCreateRequest.any (· ≠ request))
        "legacy create request changed after SENT"
      return { server with
        offerFingerprint := some { fingerprint with legacyCreateRequest := some request }
        imageId := some request.imageId }

/-- The next attempt of a receipt, about to be sent. -/
def CreateRoutingReceipt.nextAttempt (receipt : CreateRoutingReceipt) (account : String) :
    CreateRoutingAttempt where
  sequence := receipt.attempts.length + 1
  accountId := account
  phase := .sent

/-- `start_attempt`: the attempt is recorded as SENT before its POST. -/
def startAttempt (rows : CreateRows) (operationId : Uuid) (generation : ℕ) (accountId : String)
    (requestFacts : Option (List (String × String))) (now : ℤ) :
    Result (CreateRows × Operation) := do
  let account := normalizeAccountId (some accountId)
  let b ← bundle rows operationId none none
  let receipt ← claimMatches b.operation generation
  unaccepted b.server b.order
  let safe ← safePrePost b.operation
  conflictIf (!safe) "previous mutation is accepted, refused, or uncertain"
  ownedLast b receipt.attempts.getLast?
  conflictIf (receipt.attempts.any (·.accountId = account))
    "a definitively refused account cannot be sent again"
  let server ← freezeRequest b.server requestFacts
  let sent := receipt.nextAttempt account
  let committed := rows.commit {
    operation := withReceipt b.operation { receipt with attempts := receipt.attempts ++ [sent] }
    server := { server with credentialAccountId := some account, updatedAt := some now }
    order := b.order.map fun order ↦ { order with
      credentialAccountId := some account
      postAttemptedAt := some now
      updatedAt := some now } } now
  return (committed, committed.operation)

/-- The live SENT attempt of an account, as the two recordings of a POST's outcome need it. -/
def sentAttempt (receipt : CreateRoutingReceipt) (account message : String) :
    Result CreateRoutingAttempt :=
  match receipt.attempts.getLast? with
  | none => raise .createAttemptConflict message
  | some attempt => do
    conflictIf (attempt.phase ≠ .sent || attempt.accountId ≠ account) message
    return attempt

/-- The attempt with its refusal. -/
def CreateRoutingAttempt.refuse (attempt : CreateRoutingAttempt) (capacity : Bool)
    (errorCode : Option String) (quotaNames : List String) : CreateRoutingAttempt :=
  { attempt with
    phase := if capacity then .capacityRefused else .refused
    errorCode := (safeFact errorCode).or attempt.errorCode
    quotaNames := quotaNames.filter fun name ↦ (safeFact (some name)).isSome }

/-- `record_refusal`. -/
def recordRefusal (rows : CreateRows) (operationId : Uuid) (generation : ℕ) (accountId : String)
    (capacity : Bool) (errorCode : Option String) (quotaNames : List String) (now : ℤ) :
    Result (CreateRows × Operation) := do
  let account := normalizeAccountId (some accountId)
  conflictIf (capacity && errorCode ∉ definitiveCapacityRefusalCodes.map some)
    "capacity refusal requires a documented pre-acceptance code"
  let b ← bundle rows operationId none none
  let receipt ← claimMatches b.operation generation
  unaccepted b.server b.order
  owned b.server b.order account
  let attempt ← sentAttempt receipt account "refusal does not belong to the live SENT attempt"
  let refused := attempt.refuse capacity errorCode quotaNames
  let committed := rows.commit { b with operation := withLastAttempt b.operation receipt refused } now
  return (committed, committed.operation)

/-- `record_unknown`. -/
def recordUnknown (rows : CreateRows) (operationId : Uuid) (generation : ℕ) (accountId : String)
    (now : ℤ) : Result (CreateRows × Operation) := do
  let account := normalizeAccountId (some accountId)
  let b ← bundle rows operationId none none
  let receipt ← claimMatches b.operation generation
  owned b.server b.order account
  let attempt ← sentAttempt receipt account "unknown outcome does not belong to the SENT attempt"
  let error := some "provider create outcome unknown; read-only recovery required"
  let operation := withLastAttempt b.operation receipt { attempt with phase := .outcomeUnknown }
  let committed := rows.commit { b with
    operation := { operation with status := .outcomeUnknown, error := error }
    order := b.order.map fun order ↦ { order with status := .outcomeUnknown, error := error } } now
  return (committed, committed.operation)

/-- The statuses in which an order takes an accepted resource. -/
def attachableStatuses : List Orders.OrderStatus :=
  [.pendingSubmit, .outcomeUnknown, .submitted, .provisioning, .active]

/-- The order after an acceptance. -/
def attachOrder (order : ProviderOrder) (providerServerId : String) (firstAcceptance : Bool)
    (now : ℤ) : Result ProviderOrder := do
  conflictIf (order.status ∉ attachableStatuses) "order cannot attach an accepted resource"
  return { order with
    providerOrderId := some providerServerId
    status := if order.status ∈ [.pendingSubmit, .outcomeUnknown] then .submitted else order.status
    error := none
    attempts := if firstAcceptance then order.attempts + 1 else order.attempts
    updatedAt := some now }

/-- `record_acceptance`. -/
def recordAcceptance (rows : CreateRows) (operationId : Uuid) (generation : ℕ)
    (accountId providerServerId : String) (ipv4 ipv6 : Option String) (now : ℤ) :
    Result (CreateRows × Operation) := do
  let account := normalizeAccountId (some accountId)
  conflictIf (safeFact (some providerServerId) = none) "accepted provider identity is invalid"
  let b ← bundle rows operationId none none
  let receipt ← claimMatches b.operation generation true
  owned b.server b.order account
  match receipt.attempts.getLast? with
  | none => raise .createAttemptConflict "acceptance does not belong to the attempted account"
  | some attempt =>
    conflictIf (attempt.accountId ≠ account ||
      attempt.phase ∉ [Phase.sent, .outcomeUnknown, .accepted])
      "acceptance does not belong to the attempted account"
    conflictIf (b.server.state ∉ createStates && !truthy b.server.providerServerId)
      "server left the create window before acceptance"
    let identities : List FactValue :=
      [.ofOption b.server.providerServerId, b.operation.response.facts.get "provider_server_id",
        .ofOption (b.order.bind (·.providerOrderId)), .ofOption attempt.providerServerId]
    conflictIf (identities.any fun identity ↦
      identity.truthy && identity ≠ .text providerServerId)
      "accepted provider identity cannot be replaced"
    let order ← b.order.mapM (attachOrder · providerServerId (attempt.phase ≠ .accepted) now)
    let accepted := { attempt with
      phase := .accepted
      providerServerId := some providerServerId }
    let operation := withLastAttempt b.operation { receipt with acceptedAccountId := some account }
      accepted
    let committed := rows.commit {
      operation := { operation with
        providerResponse := some { operation.response with
          facts := ("provider_server_id", .text providerServerId) :: operation.response.facts } }
      server := { b.server with
        providerServerId := some providerServerId
        ipv4 := ipv4.or b.server.ipv4
        ipv6 := ipv6.or b.server.ipv6
        updatedAt := some now }
      order := order } now
    return (committed, committed.operation)

/-- `_COMPLETION_KEYS`. -/
def completionKeys : List String :=
  ["provider_server_id", "provider_order_id", "provider_state", "provider_status",
    "idempotency_key", "operation_key", "settled", "recovered", "resolved_by"]

/-- What `save_outcome` does to the server and the order for the status it saves, after the guards
of that status. -/
def outcomeRows (b : Bundle) (attempt : Option CreateRoutingAttempt) (status : OperationStatus)
    (error : Option String) (now : ℤ) : Result Bundle := do
  match status with
  | .completed =>
    conflictIf (attempt.all (·.phase ≠ .accepted) || !truthy b.server.providerServerId)
      "completion requires durable accepted identity"
    let state := if b.order.isNone && b.server.state = .requested then .provisioning
      else b.server.state
    return { b with server := { b.server with state := state, updatedAt := some now } }
  | .pending =>
    let safe ← safePrePost b.operation
    conflictIf (!safe) "uncertain mutations cannot be requeued"
    unaccepted b.server b.order
    return b
  | .failed =>
    conflictIf (attempt.any (·.phase ∉ [Phase.capacityRefused, .refused]))
      "accepted/uncertain mutations cannot fail or release funds"
    unaccepted b.server b.order
    return { b with
      server := { b.server with state := .error, updatedAt := some now }
      order := b.order.map fun order ↦ { order with
        status := .failed
        error := error
        updatedAt := some now } }
  | .outcomeUnknown =>
    conflictIf (attempt.all (·.phase ∉ [Phase.sent, .outcomeUnknown, .accepted]))
      "there is no potentially accepted mutation"
    return b
  | .inFlight => raise .createAttemptConflict "unsupported guarded finalization"

/-- The merge of a correlation into the operation. -/
def mergeCorrelation (operation : Operation) (server : CloudServer) (correlation : Facts) :
    Result Operation := do
  if correlation.isEmpty then
    return operation
  conflictIf (correlation.any (·.1 ∉ completionKeys)) "unsafe completion correlation fields"
  conflictIf (identityKeys.any fun key ↦ correlation.has key &&
    correlation.get key ≠ .ofOption server.providerServerId)
    "completion correlation changes accepted identity"
  return { operation with
    providerResponse := some { operation.response with
      facts := correlation ++ operation.response.facts } }

/-- `save_outcome`. -/
def saveOutcome (rows : CreateRows) (operationId : Uuid) (generation : ℕ)
    (status : OperationStatus) (error : Option String) (correlation : Facts) (now : ℤ) :
    Result (CreateRows × Operation) := do
  let b ← bundle rows operationId none none
  let _ ← claimMatches b.operation generation true
  let attempt ← lastAttempt b.operation
  ownedLast b attempt
  let written ← outcomeRows b attempt status error now
  let operation ← mergeCorrelation b.operation written.server correlation
  let committed := rows.commit { written with
    operation := { operation with status := status, error := error } } now
  return (committed, committed.operation)

/-- What `resume_safe_claim` makes of an operation whose attempts it has already counted up. -/
def resumed (b : Bundle) (receipt : CreateRoutingReceipt) : Result Bundle := do
  let operation := { b.operation with attempts := b.operation.attempts + 1 }
  let safe ← safePrePost b.operation
  if safe then
    unaccepted b.server b.order
    return { b with operation := { operation with status := .pending } }
  match receipt.attempts.getLast? with
  | none => raise .createAttemptConflict "historical routing proof cannot authorize recovery"
  | some attempt =>
    match attempt.phase with
    | .refused =>
      unaccepted b.server b.order
      return { b with operation := { operation with status := .inFlight } }
    | .sent | .outcomeUnknown =>
      let unknown := withLastAttempt operation receipt { attempt with phase := .outcomeUnknown }
      return { b with
        operation := { unknown with status := .outcomeUnknown }
        order := b.order.map fun order ↦ { order with status := .outcomeUnknown } }
    | .accepted => return { b with operation := operation }
    | .capacityRefused =>
      raise .createAttemptConflict "historical routing proof cannot authorize recovery"

/-- `resume_safe_claim`: fence a stale worker before a safe requeue or a read-only recovery. -/
def resumeSafeClaim (rows : CreateRows) (operationId : Uuid) (generation : ℕ) (now : ℤ) :
    Result (CreateRows × Operation) := do
  let b ← bundle rows operationId none none
  let receipt ← claimMatches b.operation generation true
  ownedLast b receipt.attempts.getLast?
  let written ← resumed b receipt
  let committed := rows.commit written now
  return (committed, committed.operation)

end CloudPlatform.Operations
