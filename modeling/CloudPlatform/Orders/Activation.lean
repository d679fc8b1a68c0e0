import CloudPlatform.Core.Calendar
import CloudPlatform.Orders.Purchase

/-!
# Activation

`OrderActivator` writes the provider resource onto the server, makes the order ACTIVE, upserts the
renewal record and delivers the server, in this order and each in a commit of its own. All paths to
a running service share it.
-/

namespace CloudPlatform.Orders

open Calendar (day parseIsoDatetime)
open Compute (CloudServer)
open Offers (SellableOffer)
open Providers
open Renewals (RenewalRecord checkRenewalTerms)

/-- The days of an estimated month. -/
def monthlyEstimateDays : ℤ := 30

/-- The server once its resource is written onto it: the resource as it was read, or its bare id. -/
def attachResource (server : CloudServer) (vpsId : String) (remote : Option ProviderServer) :
    CloudServer :=
  match remote with
  | some remote =>
    { server with providerServerId := some remote.id, ipv4 := remote.ipv4, ipv6 := remote.ipv6 }
  | none => { server with providerServerId := some vpsId }

/-- The transitions of activation: through PROVISIONING to RUNNING; a refused last one is logged. -/
def startRunning (server : CloudServer) : Result CloudServer := do
  let provisioning ← if server.state = .requested then server.transitionTo .provisioning
    else .ok server
  if provisioning.state ∈ [.provisioning, .error] then
    match provisioning.transitionTo .running with
    | .ok running => .ok running
    | .error _ => .ok provisioning
  else .ok provisioning

section

variable (registry : Registry)

/-- The end of the provider contract, when the resource can be read and says it. -/
def contractEndsAt (server : CloudServer) : OrderProgram (Option String) :=
  if truthy server.providerServerId then
    match registry server.providerKey server.credentialAccountId with
    | .error _ => return none
    | .ok _ => do
      match ← (perform (.getServer (server.providerServerId.getD ""))).attempt with
      | .ok (some remote) => return remote.contractEndsAt
      | _ => return none
  else return none

/-- The renewal facts: the contract end, or a month from the purchase as an estimate. -/
def renewalInfo (server : CloudServer) (offer : SellableOffer) (order : ProviderOrder)
    (endsAt : Option String) (now : ℤ) : RenewalInfo where
  providerContractId := order.providerContractId
  providerOrderRef := order.providerOrderId
  purchasedAt := server.createdAt.getD now
  providerRenewalAt := some ((parseIsoDatetime endsAt).getD
    (server.createdAt.getD now + monthlyEstimateDays * day))
  renewalDateEstimated := (parseIsoDatetime endsAt).isNone
  customerPriceMinor := offer.sellingPriceMinor
  currency := offer.sellingCurrency

/-- The record of the renewal facts, rebuilt from scratch but for the commercial state and the
customer's preference. -/
def renewalRecord (serverId : Uuid) (info : RenewalInfo) (existing : Option RenewalRecord) :
    Result RenewalRecord := do
  let terms ← checkRenewalTerms info.customerPriceMinor info.currency
  return {
    serverId := serverId
    purchasedAt := info.purchasedAt
    customerPriceMinor := info.customerPriceMinor
    currency := info.currency
    providerContractId := info.providerContractId
    providerOrderRef := info.providerOrderRef
    providerRenewalAt := info.providerRenewalAt
    renewalDateEstimated := info.renewalDateEstimated
    status := (existing.map (·.status)).getD .active
    autoChargeEnabled := (existing.map (·.autoChargeEnabled)).getD true
    price_pos := terms.down.1
    currency_length := terms.down.2 }

/-- `OrderActivator._upsert_renewal`. -/
def upsertRenewal (server : CloudServer) (offer : SellableOffer) (order : ProviderOrder) :
    OrderProgram RenewalInfo := do
  let endsAt ← contractEndsAt registry server
  let now ← perform .now
  let info := renewalInfo server offer order endsAt now
  let existing ← perform .renewal
  let record ← renewalRecord server.id info existing
  let _ ← perform (.upsertRenewal record)
  return info

/-- A read of a provider server whose provider failures count as unreadable. -/
def readServer (vpsId : String) : OrderProgram (Option ProviderServer) := do
  match ← (perform (.getServer vpsId)).attempt with
  | .ok remote => return remote
  | .error raised => if isProviderError raised.kind then return none else throw raised

/-- `OrderActivator.activate`; the order is returned as the caller's copy is left. -/
def activate (server : CloudServer) (order : ProviderOrder) (offer : SellableOffer)
    (vpsId : String) : OrderProgram (ProviderOrder × RenewalInfo) := do
  let remote ← readServer vpsId
  let server ← startRunning (attachResource server vpsId remote)
  let _ ← perform (.saveServer server)
  let order ← order.markActive
  let _ ← perform (.saveOrder order)
  let renewal ← upsertRenewal registry server offer order
  perform (.audit "leaseweb.server_provisioned"
    s!"provider server {textOf server.providerServerId} discovered")
  perform (.deliver ⟨server, offer, renewal⟩)
  return (order, renewal)

end

end CloudPlatform.Orders
