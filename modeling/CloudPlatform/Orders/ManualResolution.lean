import CloudPlatform.Orders.Worker

/-!
# Manual resolution

The four operator commands of `OrderManualResolutionService` on one order. Each checks its arguments,
loads the order, its operation and its server, validates, and only then writes; none sends a create.
-/

namespace CloudPlatform.Orders

open Compute (CloudServer)
open Offers (SellableOffer)
open Operations (Operation)
open Providers

/-- `raise OrderManualResolutionError(message)`. -/
def refuse {α : Type} (message : String) : OrderProgram α :=
  throw ⟨.orderManualResolution, message⟩

/-- `_require_reason`. -/
def requireReason (reason : String) : Result Unit :=
  rejectIf (strip reason = "") .orderManualResolution "an explicit non-empty reason is required"

/-- The rows that a command starts from. -/
structure Loaded where
  order : ProviderOrder
  operation : Operation
  server : CloudServer

/-- `_order_and_operation`. -/
def orderAndOperation (orderId : Uuid) : OrderProgram Loaded := do
  match ← perform .order with
  | none => throw ⟨.lookupError, s!"order {orderId.text} not found"⟩
  | some order => do
    match ← perform .operation with
    | none => refuse s!"order {orderId.text}: operation ledger row missing; cannot resolve"
    | some operation => do
      match ← perform .server with
      | none => refuse s!"order {orderId.text}: server row missing; cannot resolve"
      | some server => return ⟨order, operation, server⟩

/-! ### Retry of a definitive failure -/

/-- The preconditions of `retry_failed`. -/
def checkRetry (orderId : Uuid) (rows : Loaded) : Result Unit := do
  rejectIf (rows.order.status ≠ .failed) .orderManualResolution
    (s!"order {orderId.text} is {rows.order.status.value}; only orders that FAILED " ++
      "definitively (provider rejection, nothing created) may be retried. " ++
      "Ambiguous orders (OUTCOME_UNKNOWN/NEEDS_REVIEW) must be resolved with " ++
      "`orders resolve-existing` or `orders resolve-not-created` after " ++
      "verifying at the provider portal.")
  rejectIf (rows.operation.status ∉ [.failed, .pending]) .orderManualResolution
    (s!"order {orderId.text}: operation is {rows.operation.status.value}; cannot retry " ++
      "(expected FAILED, or PENDING when an earlier retry partially saved)")
  rejectIf (rows.server.state ∉ [.error, .requested]) .orderManualResolution
    (s!"order {orderId.text}: server is {rows.server.state.value}; cannot re-queue " ++
      "(expected ERROR or REQUESTED)")

/-- The operation is reopened, unless an earlier retry did it. -/
def reopenOperation (operation : Operation) : OrderProgram Operation :=
  if operation.status = .failed then do
    let reopened ← operation.reopenForRetry
    let _ ← perform (.saveOperation reopened)
    return reopened
  else return operation

/-- The order returns to the queue. -/
def resetOrder (order : ProviderOrder) : OrderProgram ProviderOrder := do
  let reset ← order.resetToPendingSubmit
  let _ ← perform (.saveOrder reset)
  return reset

/-- The server is re-queued, unless it is REQUESTED. -/
def requeueServer (server : CloudServer) : OrderProgram Unit :=
  if server.state = .error then do
    let requested ← server.resetToRequested
    let _ ← perform (.saveServer requested)
    return ()
  else return ()

/-- `OrderManualResolutionService.retry_failed`. -/
def retryFailed (orderId : Uuid) (reason : String) : OrderProgram (ProviderOrder × Operation) := do
  requireReason reason
  let rows ← orderAndOperation orderId
  checkRetry orderId rows
  let operation ← reopenOperation rows.operation
  let order ← resetOrder rows.order
  requeueServer rows.server
  perform (.audit "order.retry" reason)
  return (order, operation)

/-! ### Verified absence -/

/-- The preconditions of `resolve_not_created`. -/
def checkNotCreated (orderId : Uuid) (rows : Loaded) : Result Unit := do
  rejectIf (rows.order.status ∉ [.outcomeUnknown, .needsReview]) .orderManualResolution
    (s!"order {orderId.text} is {rows.order.status.value}; only ambiguous orders " ++
      "(OUTCOME_UNKNOWN/NEEDS_REVIEW) may be marked as not created")
  rejectIf (rows.operation.status ≠ .outcomeUnknown) .orderManualResolution
    (s!"order {orderId.text}: operation is {rows.operation.status.value}, not " ++
      "OUTCOME_UNKNOWN; cannot re-queue after verified absence")
  rejectIf (rows.server.state ≠ .requested) .orderManualResolution
    (s!"order {orderId.text}: server is {rows.server.state.value}; expected REQUESTED " ++
      "for an ambiguous POST")

/-- `OrderManualResolutionService.resolve_not_created`. -/
def resolveNotCreated (orderId : Uuid) (reason : String) :
    OrderProgram (ProviderOrder × Operation) := do
  requireReason reason
  let rows ← orderAndOperation orderId
  checkNotCreated orderId rows
  let operation ← rows.operation.markVerifiedAbsent
  let _ ← perform (.saveOperation operation)
  let order ← resetOrder rows.order
  perform (.audit "order.resolve_not_created" reason)
  return (order, operation)

/-! ### A verified provider order -/

/-- `_normalize`: terms and cycles up to case and separators. -/
def normalizeTerm (value : String) : String :=
  String.ofList ((upper (strip value)).toList.filter (· ∉ ['_', ' ', '-']))

/-- Two terms that are both there and differ. -/
def termsDiffer (stated snapshot : Option String) : Bool :=
  truthy stated && truthy snapshot &&
    normalizeTerm (stated.getD "") ≠ normalizeTerm (snapshot.getD "")

/-- `_inconsistency`: what a candidate order says against the local snapshots. -/
def inconsistency (order : ProviderOrder) (ticket : ProvisioningTicket) : Option String :=
  let cost := order.providerCostMinor.getD 0
  if truthy ticket.productId && ticket.productId ≠ some "VIRTUAL_SERVER" then
    some s!"provider order is product '{textOf ticket.productId}', not VIRTUAL_SERVER"
  else if ticket.pricePerFrequencyMinor.any fun price ↦ cost ≠ 0 && 1 < (price - cost).natAbs then
    some (s!"price {ticket.pricePerFrequencyMinor.getD 0} does not match the provider cost " ++
      s!"snapshot {cost}")
  else if truthy ticket.currency && truthy order.providerCostCurrency &&
      upper (ticket.currency.getD "") ≠ upper (order.providerCostCurrency.getD "") then
    some (s!"currency '{textOf ticket.currency}' does not match snapshot " ++
      s!"'{textOf order.providerCostCurrency}'")
  else if termsDiffer ticket.contractTerm order.contractTerm then
    some (s!"contract term '{textOf ticket.contractTerm}' does not match snapshot " ++
      s!"'{textOf order.contractTerm}'")
  else if termsDiffer ticket.billingCycle order.billingCycle then
    some (s!"billing cycle '{textOf ticket.billingCycle}' does not match snapshot " ++
      s!"'{textOf order.billingCycle}'")
  else none

/-- The preconditions of `resolve_existing`. -/
def checkExisting (orderId : Uuid) (rows : Loaded) : Result Unit := do
  rejectIf (rows.order.status ∉ [.outcomeUnknown, .needsReview]) .orderManualResolution
    (s!"order {orderId.text} is {rows.order.status.value}; only ambiguous orders " ++
      "(OUTCOME_UNKNOWN/NEEDS_REVIEW) may be resolved against an existing provider order")
  rejectIf (rows.operation.status ≠ .outcomeUnknown) .orderManualResolution
    (s!"order {orderId.text}: operation is {rows.operation.status.value}, not " ++
      "OUTCOME_UNKNOWN; cannot attach a manually verified order id")

/-- The read-only validation of the provider order id. -/
def validateTicket (orderId : Uuid) (order : ProviderOrder) (providerOrderId : String) :
    OrderProgram Unit := do
  match ← (perform (.getOrder providerOrderId)).attempt with
  | .error raised =>
    if isProviderError raised.kind then
      refuse (s!"read-only validation of provider order {providerOrderId} failed " ++
        s!"({typeName raised.kind}): {raised.message}")
    else throw raised
  | .ok ticket =>
    match inconsistency order ticket with
    | some fault =>
      refuse (s!"provider order {providerOrderId} is not internally consistent " ++
        s!"with order {orderId.text}: {fault}")
    | none => return ()

section

variable (registry : Registry)

/-- `_ordering_for`. -/
def orderingFor (order : ProviderOrder) (server : CloudServer) : Result Unit :=
  match registry server.providerKey server.credentialAccountId with
  | .error raised =>
    if isKeyError raised.kind then
      raise .orderManualResolution
        s!"order {order.id.text}: provider '{server.providerKey}' not configured"
    else .error raised
  | .ok provider =>
    rejectIf (!provider.ordering) .orderManualResolution
      s!"order {order.id.text}: provider '{server.providerKey}' has no ordering port"

/-- `OrderManualResolutionService.resolve_existing`. -/
def resolveExisting (orderId : Uuid) (providerOrderId reason : String) :
    OrderProgram (ProviderOrder × Operation) := do
  requireReason reason
  rejectIf (strip providerOrderId = "") .orderManualResolution
    "a non-empty provider order id is required"
  let rows ← orderAndOperation orderId
  checkExisting orderId rows
  orderingFor registry rows.order rows.server
  validateTicket orderId rows.order providerOrderId
  let order ← rows.order.resolveSubmitted providerOrderId
  let _ ← perform (.saveOrder order)
  let operation ← rows.operation.complete { facts := [
    ("provider_order_id", .text providerOrderId),
    ("resolved_by", .text "manual"),
    ("reason", .text reason),
    ("operation_key", .text rows.operation.operationKey)] }
  let _ ← perform (.saveOperation operation)
  let settled ← ensureOrderPaymentSettled order rows.server
  perform (.audit "order.resolve_existing" reason)
  return (settled.2, operation)

/-! ### A verified provider server -/

/-- The preconditions of `resolve_vps` on the rows. -/
def checkVps (orderId : Uuid) (rows : Loaded) : Result Unit := do
  rejectIf (!truthy rows.order.providerOrderId) .orderManualResolution
    (s!"order {orderId.text} has no provider order id; " ++
      "use `orders resolve-existing` first")
  rejectIf (rows.order.status ∉ [.submitted, .provisioning, .needsReview]) .orderManualResolution
    (s!"order {orderId.text} is {rows.order.status.value}; resolve-vps requires a " ++
      "SUBMITTED/PROVISIONING order with an attached provider order id")
  rejectIf (truthy rows.server.providerServerId) .orderManualResolution
    (s!"server {rows.server.id.text} already has provider_server_id " ++
      s!"'{textOf rows.server.providerServerId}'; nothing to resolve")

/-- The cross-check of a provider server with the offer; facts that are missing are skipped. -/
def checkRemote (vpsId : String) (offer : SellableOffer) (remote : ProviderServer) :
    Result Unit := do
  rejectIf (remote.datacenter ≠ "" && offer.locationId ≠ "" &&
      remote.datacenter ≠ offer.locationId) .orderManualResolution
    (s!"VPS {vpsId} datacenter '{remote.datacenter}' does not match the offer " ++
      s!"location '{offer.locationId}'")
  rejectIf (remote.pack ≠ "" && offer.name ≠ "" && remote.pack ≠ offer.name)
    .orderManualResolution
    s!"VPS {vpsId} pack '{remote.pack}' does not match the offer product '{offer.name}'"

/-- The read-only validation of the provider server id. -/
def validateVps (offer : SellableOffer) (vpsId : String) : OrderProgram Unit := do
  match ← (perform (.getServer vpsId)).attempt with
  | .error raised =>
    if isProviderError raised.kind then
      refuse (s!"read-only VPS lookup of {vpsId} failed ({typeName raised.kind}): " ++
        raised.message)
    else throw raised
  | .ok none => refuse s!"provider VPS {vpsId} does not exist (read-only lookup)"
  | .ok (some remote) => liftM (checkRemote vpsId offer remote)

/-- The refusal of an unsettled purchase. -/
def refuseUnsettled : OrderProgram ProviderOrder :=
  refuse ("payment settlement is not COMPLETE (hold must be CAPTURED with " ++
    "a CHARGE ledger entry); resolve the financial state before attaching the VPS")

/-- The settlement barrier of `resolve_vps`. -/
def requireSettled (order : ProviderOrder) (server : CloudServer) :
    OrderProgram ProviderOrder := do
  match ← ensureOrderPaymentSettled order server with
  | (.settled, order) => return order
  | (.needsReview, order) => do
    markSettlementReview order
    refuseUnsettled
  | (.retryLater, _) => refuseUnsettled

/-- The offer of an order, which must be there. -/
def requireOffer (orderId : Uuid) (order : ProviderOrder) : OrderProgram SellableOffer := do
  match ← loadOffer order with
  | none => refuse s!"order {orderId.text}: sellable offer row missing; cannot activate"
  | some offer => return offer

/-- `OrderManualResolutionService.resolve_vps`. -/
def resolveVps (orderId : Uuid) (vpsId reason : String) :
    OrderProgram (ProviderOrder × Operation) := do
  requireReason reason
  rejectIf (strip vpsId = "") .orderManualResolution "a non-empty provider VPS id is required"
  let rows ← orderAndOperation orderId
  checkVps orderId rows
  let offer ← requireOffer orderId rows.order
  orderingFor registry rows.order rows.server
  validateVps offer vpsId
  let order ← requireSettled rows.order rows.server
  let activated ← activate registry rows.server order offer vpsId
  perform (.audit "order.resolve_vps" reason)
  return (activated.1, rows.operation)

/-! ### The commands -/

/-- The operator commands. -/
inductive ManualCommand
  | retryFailed (reason : String)
  | resolveExisting (providerOrderId reason : String)
  | resolveNotCreated (reason : String)
  | resolveVps (vpsId reason : String)

/-- The program of a command on an order. -/
def ManualCommand.program (orderId : Uuid) :
    ManualCommand → OrderProgram (ProviderOrder × Operation)
  | .retryFailed reason => Orders.retryFailed orderId reason
  | .resolveExisting providerOrderId reason =>
    Orders.resolveExisting registry orderId providerOrderId reason
  | .resolveNotCreated reason => Orders.resolveNotCreated orderId reason
  | .resolveVps vpsId reason => Orders.resolveVps registry orderId vpsId reason

end

end CloudPlatform.Orders
