import CloudPlatform.Orders.Purchase

/-!
# The settlement barrier

`OrderSettlementService` proves or repairs the local charge of an accepted order: the checkout hold
is captured, its CHARGE entry is in the ledger, and the operation row is completed. It touches the
wallet, the ledger and the rows of the order, never the provider. A copy of the order is passed in
and the changed copy is returned beside the verdict.
-/

namespace CloudPlatform.Orders

open Compute (CloudServer)
open Providers
open Wallets (Hold)
open Wallets.HoldService (captureKey)

/-- Settlement attempts before an accepted order is escalated. -/
def maxSettlementAttempts : ℕ := 5

inductive SettlementVerdict
  | settled
  | retryLater
  | needsReview
  deriving DecidableEq

/-- `_needs_review`: escalate a financially unsafe state. -/
def settlementNeedsReview (order : ProviderOrder) (now : ℤ) (reason : String) :
    OrderProgram (SettlementVerdict × ProviderOrder) := do
  let order := { order with
    settlementStatus := .needsReview
    settlementAttemptedAt := some now
    settlementError := some reason }
  let _ ← perform (.saveOrder order)
  perform (.audit "orders.settlement_review" reason)
  return (.needsReview, order)

/-- `_retry_later`: record a transient failure, and escalate after bounded attempts. -/
def settlementRetryLater (order : ProviderOrder) (now : ℤ) (reason : String) :
    OrderProgram (SettlementVerdict × ProviderOrder) := do
  let order := { order with
    settlementAttempts := order.settlementAttempts + 1
    settlementAttemptedAt := some now
    settlementError := some reason }
  if maxSettlementAttempts ≤ order.settlementAttempts then
    settlementNeedsReview order now
      s!"settlement retries exhausted ({maxSettlementAttempts}): {reason}"
  else do
    let _ ← perform (.saveOrder order)
    return (.retryLater, order)

/-- `_repair_operation`, without the pooled repository: complete a stale operation row. -/
def repairOperation (order : ProviderOrder) : OrderProgram Unit := do
  match ← perform .operation with
  | none => return ()
  | some op =>
    if op.status ∈ [.completed, .failed] then return ()
    else if op.response.createRouting.isSome then
      throw ⟨.createAttemptConflict, "pooled acceptance has no fenced repository"⟩
    else
      match op.complete { facts := [("provider_order_id", .text (order.providerOrderId.getD "")),
          ("settled", .flag true), ("operation_key", .text op.operationKey)] } with
      | .error raised =>
        if raised.kind = .invalidOperationTransition then return () else throw raised
      | .ok completed => do
        let _ ← perform (.saveOperation completed)
        return ()

/-- The settlement once the hold is captured: the CHARGE entry must be read back. -/
def proveCharge (order : ProviderOrder) (now : ℤ) (walletId : Uuid) (key : String) :
    OrderProgram (SettlementVerdict × ProviderOrder) := do
  match ← (perform (.ledgerEntry walletId (captureKey key))).attempt with
  | .ok (some _) => do
    let order := { order with
      settlementStatus := .complete
      settlementAttemptedAt := some now
      settlementAttempts := 0
      settlementError := none }
    let _ ← perform (.saveOrder order)
    repairOperation order
    return (.settled, order)
  | _ =>
    settlementRetryLater order now ("hold captured but the CHARGE ledger entry is missing; " ++
      "the idempotent capture will repair it on the next pass")

/-- The handlers of the capture. -/
def captureFailed (order : ProviderOrder) (now : ℤ) (hold : Hold) (raised : Raised) :
    OrderProgram (SettlementVerdict × ProviderOrder) :=
  if raised.kind = .holdStateConflict then
    settlementNeedsReview order now
      s!"hold {hold.id.text} released while settling an accepted provider order"
  else if raised.kind = .insufficientBalance then
    settlementNeedsReview order now
      s!"hold {hold.id.text} cannot be captured: wallet balance below the held amount"
  else
    settlementRetryLater order now
      s!"hold capture failed transiently ({typeName raised.kind}): {raised.message}"

/-- The settlement from the checkout hold on. -/
def settleHold (order : ProviderOrder) (now : ℤ) (walletId : Uuid) (key : String) :
    OrderProgram (SettlementVerdict × ProviderOrder) := do
  match ← perform (.hold (.getByIdempotency walletId key)) with
  | none =>
    settlementNeedsReview order now
      "checkout hold missing although the provider order was accepted"
  | some hold =>
    if hold.status = .released then
      settlementNeedsReview order now
        s!"hold {hold.id.text} was RELEASED although the provider order was accepted"
    else
      match ← (onHolds (Wallets.HoldService.captureHold walletId hold.id key)).attempt with
      | .error raised => captureFailed order now hold raised
      | .ok _ => proveCharge order now walletId key

/-- `OrderSettlementService.ensure_order_payment_settled`. -/
def ensureOrderPaymentSettled (order : ProviderOrder) (server : CloudServer) :
    OrderProgram (SettlementVerdict × ProviderOrder) := do
  let now ← perform .now
  match server.idempotencyKey with
  | none =>
    settlementNeedsReview order now
      "server has no idempotency key; cannot locate the checkout hold"
  | some idempotencyKey =>
    match ← perform (.wallet server.userId) with
    | none => settlementNeedsReview order now s!"wallet missing for user {server.userId.text}"
    | some wallet => settleHold order now wallet.id (holdKey idempotencyKey)

/-- The reason of a review that a settlement has left on its order. -/
def settlementReviewReason (order : ProviderOrder) : String :=
  if truthy order.settlementError then order.settlementError.getD ""
  else "payment settlement requires manual review"

/-- What a caller does on NEEDS_REVIEW: the order itself goes to review. -/
def markSettlementReview (order : ProviderOrder) : OrderProgram Unit := do
  let _ ← perform (.saveOrder (order.markNeedsReview (settlementReviewReason order)))
  return ()

end CloudPlatform.Orders
