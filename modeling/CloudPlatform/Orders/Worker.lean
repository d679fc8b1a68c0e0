import CloudPlatform.Operations.CreateAttempts
import CloudPlatform.Orders.Activation
import CloudPlatform.Orders.Settlement

/-!
# The order worker

What the order worker of a deployment with an account pool shares with the one without: the outcomes
of an intent, the offer that is revalidated, and the mark of a create whose outcome is unknown.
-/

namespace CloudPlatform.Orders

open Offers (SellableOffer)
open Operations (Operation)

inductive OrderWorkerOutcome
  | submitted
  | requeued
  | failed
  | outcomeUnknown
  | skippedInFlight
  | skippedState
  | alreadyActive

/-- `await offers.get(order.offer_id) if order.offer_id else None`. -/
def loadOffer (order : ProviderOrder) : OrderProgram (Option SellableOffer) :=
  match order.offerId with
  | none => return none
  | some _ => perform .offer

/-- `if operation.status is not OUTCOME_UNKNOWN: operation.mark_outcome_unknown(reason)`. -/
def unknownOperation (operation : Operation) (reason : String) : Result Operation :=
  if operation.status = .outcomeUnknown then .ok operation
  else operation.markOutcomeUnknown reason

/-- `OrderWorker._mark_outcome_unknown`. -/
def markOutcomeUnknown (order : ProviderOrder) (operation : Operation) (reason : String) :
    OrderProgram Unit :=
  if operation.response.createRouting.isSome then throw ⟨.assertionError, ""⟩
  else do
    let unknown ← order.markOutcomeUnknown reason
    let _ ← perform (.saveOrder { unknown with attempts := unknown.attempts + 1 })
    let operation ← unknownOperation operation reason
    let _ ← perform (.saveOperation operation)
    perform (.audit "leaseweb.order_outcome_unknown" reason)

end CloudPlatform.Orders
