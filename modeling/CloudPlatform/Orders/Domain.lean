import CloudPlatform.Core.Python

/-!
# Provider orders

One provider order is the durable record of an asynchronous provisioning request: its coarse status
machine, the provider order id, and the separate settlement state of the local charge. A transition
changes an in-memory copy and raises `OrderStateConflict` from the statuses it does not admit.
-/

namespace CloudPlatform.Orders

inductive OrderStatus
  | pendingSubmit
  | submitted
  | provisioning
  | active
  | failed
  | outcomeUnknown
  | needsReview
  deriving DecidableEq

/-- The status text of the row and of the error messages. -/
def OrderStatus.value : OrderStatus → String
  | .pendingSubmit => "pending_submit"
  | .submitted => "submitted"
  | .provisioning => "provisioning"
  | .active => "active"
  | .failed => "failed"
  | .outcomeUnknown => "outcome_unknown"
  | .needsReview => "needs_review"

inductive SettlementStatus
  | pending
  | complete
  | needsReview

/-- One provider-side provisioning order; instants are microseconds since the epoch. -/
structure ProviderOrder where
  id : Uuid
  serverId : Uuid
  operationKey : String
  providerKey : String
  credentialAccountId : Option String := none
  offerId : Option Uuid := none
  status : OrderStatus := .pendingSubmit
  providerOrderId : Option String := none
  deliveryEstimate : Option String := none
  error : Option String := none
  attempts : ℕ := 0
  lastPolledAt : Option ℤ := none
  createdAt : Option ℤ := none
  updatedAt : Option ℤ := none
  productId : Option String := none
  locationId : Option String := none
  contractTerm : Option String := none
  billingCycle : Option String := none
  providerCostMinor : Option ℤ := none
  providerCostCurrency : Option String := none
  postAttemptedAt : Option ℤ := none
  settlementStatus : SettlementStatus := .pending
  settlementAttemptedAt : Option ℤ := none
  settlementAttempts : ℕ := 0
  settlementError : Option String := none
  providerContractId : Option String := none
  providerServiceId : Option String := none
  osName : Option String := none
  controlPanel : Option String := none
  sellingPriceMinor : Option ℤ := none
  sellingCurrency : Option String := none

namespace ProviderOrder

/-- The refusal of a transition outside its statuses. -/
def stateConflict (order : ProviderOrder) (action : String) : String :=
  s!"order {order.id.text}: cannot {action} from {order.status.value}"

/-- `ProviderOrder.mark_submitted`: record the provider order id. -/
def markSubmitted (order : ProviderOrder) (providerOrderId : String) : Result ProviderOrder := do
  rejectIf (order.status ∉ [.pendingSubmit, .submitted, .provisioning, .outcomeUnknown])
    .orderStateConflict (order.stateConflict "submit")
  return { order with
    providerOrderId := some providerOrderId
    status := if order.status ∈ [.pendingSubmit, .outcomeUnknown] then .submitted
      else order.status
    error := none }

/-- `ProviderOrder.mark_outcome_unknown`. -/
def markOutcomeUnknown (order : ProviderOrder) (error : String) : Result ProviderOrder := do
  rejectIf (order.status ∉ [.outcomeUnknown, .pendingSubmit, .submitted]) .orderStateConflict
    (order.stateConflict "mark outcome unknown")
  return { order with status := .outcomeUnknown, error := some error }

/-- `ProviderOrder.mark_active`. -/
def markActive (order : ProviderOrder) : Result ProviderOrder := do
  rejectIf (order.status ∉ [.submitted, .provisioning, .active]) .orderStateConflict
    (order.stateConflict "activate")
  return { order with status := .active, error := none }

/-- `ProviderOrder.mark_failed`. -/
def markFailed (order : ProviderOrder) (error : String) : Result ProviderOrder :=
  if order.status = .failed then .ok order
  else do
    rejectIf (order.status ∉ [.pendingSubmit, .submitted, .provisioning]) .orderStateConflict
      (order.stateConflict "fail")
    return { order with status := .failed, error := some error }

/-- `ProviderOrder.mark_needs_review`. -/
def markNeedsReview (order : ProviderOrder) (error : String) : ProviderOrder :=
  if order.status = .needsReview then order
  else { order with status := .needsReview, error := some error }

/-- `ProviderOrder.resolve_submitted`: manual only. -/
def resolveSubmitted (order : ProviderOrder) (providerOrderId : String) :
    Result ProviderOrder := do
  rejectIf (order.status ∉ [.outcomeUnknown, .needsReview]) .orderStateConflict
    (order.stateConflict "resolve-submit" ++ "; only ambiguous orders " ++
      "(OUTCOME_UNKNOWN/NEEDS_REVIEW) may be resolved manually")
  return { order with providerOrderId := some providerOrderId, status := .submitted, error := none }

/-- `ProviderOrder.reset_to_pending_submit`: manual only. -/
def resetToPendingSubmit (order : ProviderOrder) : Result ProviderOrder := do
  rejectIf (order.status ∉ [.failed, .outcomeUnknown, .needsReview]) .orderStateConflict
    (order.stateConflict "reset to pending_submit")
  return { order with status := .pendingSubmit, error := none }

/-- `SqlAlchemyProviderOrderRepository.save`: the row after a copy of it is saved. There is no
version check; the identity of the row and its creation pins are not written. -/
def saved (row copy : ProviderOrder) (now : ℤ) : ProviderOrder :=
  { copy with
    id := row.id
    serverId := row.serverId
    operationKey := row.operationKey
    providerKey := row.providerKey
    credentialAccountId := row.credentialAccountId
    offerId := row.offerId
    controlPanel := row.controlPanel
    lastPolledAt := row.lastPolledAt
    createdAt := row.createdAt
    updatedAt := some now }

end ProviderOrder

end CloudPlatform.Orders
