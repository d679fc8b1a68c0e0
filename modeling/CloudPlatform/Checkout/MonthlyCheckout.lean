import CloudPlatform.Orders.Purchase

/-!
# The monthly checkout

`MonthlyCheckoutService.create_order` reserves the price of an offer and persists the order intent:
the hold, the server, the order and the operation are four commits, and a failure behind the hold is
compensated as far as the source goes. The validation of the selection and of the fulfilment account
only reads; it is one call.
-/

namespace CloudPlatform.Checkout

open Compute (CloudServer ServerCreateIntent)
open Offers (SellableOffer)
open Orders
open Wallets (Hold)

inductive UserStatus
  | active
  | frozen
  | banned
  deriving DecidableEq

/-- The status text of the error messages. -/
def UserStatus.value : UserStatus → String
  | .active => "active"
  | .frozen => "frozen"
  | .banned => "banned"

/-- The buyer: a persisted id, a status, and whether the identity is verified. -/
structure User where
  id : Option Uuid
  status : UserStatus := .active
  verifiedIdentity : Bool := true

/-- The arguments of a purchase command; `serverId` is the fresh id of its server. -/
structure OrderCommand where
  user : User
  offerId : Uuid
  osName : String
  idempotencyKey : String
  panelName : Option String := none
  expectedSellingPriceMinor : Option ℤ := none
  expectedSellingCurrency : Option String := none
  serverId : Uuid

/-- The contract terms of the settings. -/
structure CheckoutSettings where
  contractTerm : String := "1_MONTH"
  billingCycle : String := "1_MONTH"

/-- The outcome of the checkout command. -/
structure MonthlyCheckoutResult where
  server : CloudServer
  order : ProviderOrder
  hold : Option Hold
  offer : Option SellableOffer
  replayed : Bool

/-- The guards on the user. -/
def checkUser (user : User) : Result Uuid := do
  match user.id with
  | none => raise .checkoutError "a persisted user id is required"
  | some userId =>
    rejectIf (user.status ≠ .active) .userNotActive s!"user {userId.text} is {user.status.value}"
    rejectIf (!user.verifiedIdentity) .identityRequired
      ("Verify your own Iranian Telegram contact and provide a valid national ID " ++
        "before purchasing a server")
    return userId

/-- The guards on the offer row and on the pinned price. -/
def checkOffer (command : OrderCommand) (offer : Option SellableOffer) : Result SellableOffer := do
  match offer.filter fun offer ↦ offer.id = command.offerId && offer.sellable with
  | none => raise .offerUnavailable s!"offer {command.offerId.text} is not sellable"
  | some offer =>
    rejectIf (offer.billingModel ≠ "prepaid_monthly_fixed") .offerUnavailable
      s!"offer {command.offerId.text} is not a monthly plan"
    rejectIf (command.expectedSellingPriceMinor.isNone ≠ command.expectedSellingCurrency.isNone)
      .offerUnavailable "selling price and currency must be pinned together"
    rejectIf (command.expectedSellingPriceMinor.any fun price ↦
        price ≤ 0 || offer.sellingPriceMinor ≠ price ||
          offer.sellingCurrency ≠ upper (strip (command.expectedSellingCurrency.getD "None")))
      .offerUnavailable "offer price changed since confirmation"
    return offer

/-- `_release_hold`: a failure is logged. -/
def releaseHold (hold : Hold) : OrderProgram Unit := do
  let _ ← (perform (.hold (.release hold.id))).attempt
  return ()

/-- `_fail_intent`: best-effort compensation. -/
def failIntent (server : CloudServer) (hold : Hold) : OrderProgram Unit := do
  let _ ← Transition.Program.attempt (do
    let failed ← server.transitionTo .error
    perform (.saveServer failed))
  releaseHold hold

/-- The hold of the original intent. -/
def originalHold (userId : Uuid) (idempotencyKey : String) : OrderProgram (Option Hold) := do
  match ← perform (.wallet userId) with
  | none => return none
  | some wallet => perform (.hold (.getByIdempotency wallet.id (holdKey idempotencyKey)))

/-- The replay of a command: the original intent, nothing new. -/
def replay (command : OrderCommand) (userId : Uuid) (existing : CloudServer) :
    OrderProgram MonthlyCheckoutResult := do
  rejectIf (existing.userId ≠ userId) .checkoutReplay
    s!"idempotency key '{command.idempotencyKey}' belongs to another user"
  let order ← perform .order
  let hold ← originalHold userId command.idempotencyKey
  match order with
  | none => throw ⟨.checkoutError, "server intent exists without a provider order row"⟩
  | some order => return ⟨existing, order, hold, none, true⟩

/-- The handler of `ServerCreateError`: a concurrent duplicate resolves to the original intent,
everything else releases the hold. -/
def resolveDuplicate (command : OrderCommand) (userId : Uuid) (offer : SellableOffer) (hold : Hold)
    (raised : Raised) : OrderProgram MonthlyCheckoutResult := do
  match (← perform (.serverByKey command.idempotencyKey)).filter (·.userId = userId) with
  | some original => do
    match ← perform .order with
    | none => throw ⟨.checkoutError, "concurrent intent without order row"⟩
    | some order => return ⟨original, order, some hold, some offer, true⟩
  | none => do
    releaseHold hold
    throw raised

/-- The server intent: REQUESTED, prepaid monthly, with its OS. -/
def serverIntent (command : OrderCommand) (userId : Uuid) (offer : SellableOffer)
    (account : Option String) : CloudServer where
  id := command.serverId
  userId := userId
  providerKey := offer.providerKey
  state := .requested
  billingModel := "prepaid_monthly_fixed"
  os := some command.osName
  credentialAccountId := account

/-- The create intent of the server; the offer is pinned by the order. -/
def createIntent (command : OrderCommand) (offer : SellableOffer) : ServerCreateIntent where
  catalogId := none
  costMinor := offer.providerCostMinor
  currency := offer.providerCostCurrency
  idempotencyKey := command.idempotencyKey

/-- The order row, with every provider-side fact and the selling price as snapshots; the repository
gives it its id. -/
def orderIntent (settings : CheckoutSettings) (command : OrderCommand) (offer : SellableOffer)
    (account : Option String) (created : CloudServer) : ProviderOrder where
  id := created.id
  serverId := created.id
  operationKey := orderOperationKey created.id
  providerKey := offer.providerKey
  offerId := some offer.id
  productId := some offer.productId
  locationId := some offer.locationId
  osName := some command.osName
  controlPanel := command.panelName
  contractTerm := some settings.contractTerm
  billingCycle := some settings.billingCycle
  providerCostMinor := some offer.providerCostMinor
  providerCostCurrency := some offer.providerCostCurrency
  sellingPriceMinor := some offer.sellingPriceMinor
  sellingCurrency := some offer.sellingCurrency
  credentialAccountId := account

/-- A commit whose failure fails the whole intent. -/
def orFailIntent {α : Type} (server : CloudServer) (hold : Hold) (commit : OrderProgram α) :
    OrderProgram α :=
  tryCatch commit fun raised ↦ do
    failIntent server hold
    throw raised

/-- The order row and the operation of a created server. -/
def persistOrder (settings : CheckoutSettings) (command : OrderCommand) (offer : SellableOffer)
    (account : Option String) (hold : Hold) (created : CloudServer) :
    OrderProgram MonthlyCheckoutResult := do
  let order ← orFailIntent created hold
    (perform (.createOrder (orderIntent settings command offer account created)))
  let _ ← orFailIntent created hold
    (perform (.createOperation (orderOperationKey created.id) order.id offer.providerKey))
  perform (.audit "checkout.monthly_order_requested" s!"monthly order {offer.ref}")
  return ⟨created, order, some hold, some offer, false⟩

/-- The intent behind the hold. -/
def persistIntent (settings : CheckoutSettings) (command : OrderCommand) (userId : Uuid)
    (offer : SellableOffer) (account : Option String) (hold : Hold) :
    OrderProgram MonthlyCheckoutResult := do
  (createIntent command offer).check
  match ← (perform (.createServer (serverIntent command userId offer account)
      command.idempotencyKey)).attempt with
  | .ok created => persistOrder settings command offer account hold created
  | .error raised =>
    if raised.kind = .serverCreate then resolveDuplicate command userId offer hold raised
    else throw raised

/-- The hold of the price. -/
def reservePrice (command : OrderCommand) (userId : Uuid) (offer : SellableOffer) :
    OrderProgram Hold := do
  match ← perform (.wallet userId) with
  | none => throw ⟨.noWallet, s!"user {userId.text} has no wallet"⟩
  | some wallet =>
    perform (.hold (.create wallet.id offer.sellingPriceMinor offer.sellingCurrency
      (holdKey command.idempotencyKey)))

/-- `MonthlyCheckoutService.create_order`. -/
def createOrder (settings : CheckoutSettings) (command : OrderCommand) :
    OrderProgram MonthlyCheckoutResult := do
  let userId ← checkUser command.user
  match ← perform (.serverByKey command.idempotencyKey) with
  | some existing => replay command userId existing
  | none => do
    let offer ← checkOffer command (← perform .offer)
    let account ← perform (.fulfillmentAccount offer command.osName)
    perform (.providerAccount userId offer.providerKey)
    let hold ← reservePrice command userId offer
    persistIntent settings command userId offer account hold

end CloudPlatform.Checkout
