import CloudPlatform.Offers.Domain
import CloudPlatform.Operations.Ledger
import CloudPlatform.Orders.Domain
import CloudPlatform.Providers.Ports
import CloudPlatform.Renewals.Domain
import CloudPlatform.Wallets.HoldService

/-!
# The rows of one purchase

A purchase is a server row, its provider order, the operation of the order, its renewal record, the
wallet that pays and the offer it was placed from. Every repository call of the checkout, the worker,
the reconciler, the recovery and the manual resolutions is one call on these rows, and so is every
call to the provider, whose creates are kept in a history. `writeOffer` is the catalog's: it reprices
or withdraws the offer. Whatever a caller cannot know in advance is in `Chance`: the clock, new ids,
the provider's answers, and the exception that the call meets instead of being served.
-/

namespace CloudPlatform.Orders

open Compute (CloudServer)
open Offers (SellableOffer)
open Operations (Operation)
open Providers
open Renewals (RenewalRecord)
open Transition (Program)
open Wallets (Books Hold HoldCall HoldProgram HoldStatus LedgerEntry Wallet)

/-- The deterministic operation key of the order intent of a server. -/
def orderOperationKey (serverId : Uuid) : String :=
  "order-create:" ++ serverId.text

/-- The hold key of a purchase command. -/
def holdKey (idempotencyKey : String) : String :=
  "leaseweb-order:" ++ idempotencyKey

/-! ### The history of creates -/

/-- What a billable create call came to. -/
inductive PostOutcome
  | accepted
  | retryable
  | refused
  | unknown

/-- The outcome that a reply shows: an exception that is not a provider's, like
`ProviderOutcomeUnknown`, leaves it unknown. -/
def PostOutcome.of {α : Type} : Result α → PostOutcome
  | .ok _ => .accepted
  | .error raised =>
    if ¬ isProviderError raised.kind ∨ raised.kind = .providerOutcomeUnknown then .unknown
    else if classifyProviderError raised = .retryable then .retryable
    else .refused

/-- One `place_order` or `create_server` call: its request, its key, its outcome, and the status of
the checkout hold when it was issued. -/
structure Post where
  request : CreateServerRequest
  key : String
  outcome : PostOutcome
  reserved : Option HoldStatus

/-- The renewal facts of a delivery. -/
structure RenewalInfo where
  providerContractId : Option String
  providerOrderRef : Option String
  purchasedAt : ℤ
  providerRenewalAt : Option ℤ
  renewalDateEstimated : Bool
  customerPriceMinor : ℤ
  currency : String

/-- The server details that were delivered to the owning user. -/
structure Delivery where
  server : CloudServer
  offer : SellableOffer
  renewal : RenewalInfo

/-- The rows of one purchase, the creates that were sent for it and its deliveries. -/
structure Purchase where
  books : Books
  server : Option CloudServer := none
  order : Option ProviderOrder := none
  operation : Option Operation := none
  renewal : Option RenewalRecord := none
  offer : Option SellableOffer := none
  posts : List Post := []
  deliveries : List Delivery := []

namespace Purchase

/-- The hold of a command key. -/
def holdOf (s : Purchase) (idempotencyKey : String) : Option Hold :=
  s.books.holdByKey s.books.wallet.id (holdKey idempotencyKey)

/-- The hold of the purchase: that of the key of its server. -/
def checkoutHold (s : Purchase) : Option Hold :=
  (s.server.bind (·.idempotencyKey)).bind s.holdOf

end Purchase

/-! ### Calls -/

/-- The calls of the purchase workflows on their repositories, the provider, the clock and the
delivery channel. -/
inductive OrderCall
  | now
  | listRequestedPrepaid
  | server
  | serverByKey (idempotencyKey : String)
  | createServer (server : CloudServer) (idempotencyKey : String)
  | saveServer (server : CloudServer)
  | order
  | listOpen
  | listOutcomeUnknown
  | createOrder (order : ProviderOrder)
  | saveOrder (order : ProviderOrder)
  | operation
  | createOperation (key : String) (resourceId : Uuid) (providerKey : String)
  | claim
  | saveOperation (operation : Operation)
  | offer
  | writeOffer (offer : Option SellableOffer)
  | fulfillmentAccount (offer : SellableOffer) (osName : String)
  | providerAccount (userId : Uuid) (providerKey : String)
  | wallet (userId : Uuid)
  | hold (request : HoldCall)
  | ledgerEntry (walletId : Uuid) (key : String)
  | renewal
  | upsertRenewal (record : RenewalRecord)
  | deliver (delivery : Delivery)
  | audit (action reason : String)
  | getProduct (locationId productId : String)
  | validateOffer (locationId productId osName : String) (costMinor : ℤ) (currency : String)
  | placeOrder (request : CreateServerRequest) (key : String)
  | createRemote (request : CreateServerRequest) (key : String)
  | getOrder (providerOrderId : String)
  | getServer (providerServerId : String)
  | matchVps (providerOrderId : String)
  | recoverOrder (costMinor : ℤ) (currency contractTerm billingCycle : String) (since : ℤ)
  | recoverServer (operationKey : String)

namespace OrderCall

/-- What a call returns. -/
abbrev Out : OrderCall → Type
  | now => ℤ
  | listRequestedPrepaid => Option CloudServer
  | server => Option CloudServer
  | serverByKey _ => Option CloudServer
  | createServer .. => CloudServer
  | saveServer _ => CloudServer
  | order => Option ProviderOrder
  | listOpen => Option ProviderOrder
  | listOutcomeUnknown => Option ProviderOrder
  | createOrder _ => ProviderOrder
  | saveOrder _ => ProviderOrder
  | operation => Option Operation
  | createOperation .. => Operation
  | claim => Option Operation
  | saveOperation _ => Operation
  | offer => Option SellableOffer
  | writeOffer _ => Unit
  | fulfillmentAccount .. => Option String
  | providerAccount .. => Unit
  | wallet _ => Option Wallet
  | hold request => request.Out
  | ledgerEntry .. => Option LedgerEntry
  | renewal => Option RenewalRecord
  | upsertRenewal _ => RenewalRecord
  | deliver _ => Unit
  | audit .. => Unit
  | getProduct .. => ProductDetail
  | validateOffer .. => Unit
  | placeOrder .. => ProvisioningTicket
  | createRemote .. => ProviderServer
  | getOrder _ => ProvisioningTicket
  | getServer _ => Option ProviderServer
  | matchVps _ => String
  | recoverOrder .. => OrderRecoveryResult
  | recoverServer _ => OrderRecoveryResult

end OrderCall

/-- What a call meets: an exception in place of its service, the clock, new row ids, and the answers
of the provider. -/
structure Chance where
  fault : Option Raised := none
  now : ℤ
  newId : Uuid
  account : Option String := none
  product : ProductDetail := ⟨0, "", []⟩
  ticket : ProvisioningTicket := ⟨"", .accepted, none, none, none, none, none, none⟩
  remote : ProviderServer := ⟨"", "", none, none, none, "", ""⟩
  found : Option ProviderServer := none
  vpsId : String := ""
  recovery : OrderRecoveryResult := ⟨.scanFailed, none, ""⟩

/-- The answer of a call that a fault pre-empts. -/
def Chance.meets {α : Type} (chance : Chance) (s : Purchase) (answer : Result α × Purchase) :
    Result α × Purchase :=
  match chance.fault with
  | some raised => (.error raised, s)
  | none => answer

/-- The reply of a provider call. -/
def Chance.reply {α : Type} (chance : Chance) (value : α) : Result α :=
  match chance.fault with
  | some raised => .error raised
  | none => .ok value

/-- A call raises its fault and changes nothing, or it is served. -/
theorem Chance.meets_cases {α : Type} (chance : Chance) (s : Purchase)
    (answer : Result α × Purchase) :
    (∃ raised, chance.meets s answer = (.error raised, s)) ∨ chance.meets s answer = answer := by
  unfold Chance.meets
  split
  · rename_i raised _
    exact Or.inl ⟨raised, rfl⟩
  · exact Or.inr rfl

/-- What the recovery scans of the provider answer, given the creates that it was sent. -/
abbrev RecoveryScan := List Post → Chance → OrderRecoveryResult

namespace Purchase

/-- `SqlAlchemyServerRepository.create` under a key: the unique key of another server row refuses
it. -/
def insertServer (s : Purchase) (server : CloudServer) (idempotencyKey : String) (now : ℤ) :
    Result CloudServer × Purchase :=
  match s.server with
  | some _ => (raise .serverCreate (s!"could not persist create intent " ++
      s!"(idempotency key '{idempotencyKey}' may already be consumed)"), s)
  | none =>
    let row := { server with idempotencyKey := some idempotencyKey, createdAt := some now }
    (.ok row, { s with server := some row })

/-- `SqlAlchemyServerRepository.save`. -/
def updateServer (s : Purchase) (copy : CloudServer) (now : ℤ) : Result CloudServer × Purchase :=
  match s.server with
  | none => (raise .lookupError s!"server {copy.id.text} not found", s)
  | some row => (.ok (row.saved copy now), { s with server := some (row.saved copy now) })

/-- `SqlAlchemyProviderOrderRepository.create`: the order of the server that is there wins. -/
def insertOrder (s : Purchase) (order : ProviderOrder) (chance : Chance) :
    Result ProviderOrder × Purchase :=
  match s.order with
  | some existing => (.ok existing, s)
  | none =>
    let row := { order with id := chance.newId, createdAt := some chance.now }
    (.ok row, { s with order := some row })

/-- `SqlAlchemyProviderOrderRepository.save`. -/
def updateOrder (s : Purchase) (copy : ProviderOrder) (now : ℤ) :
    Result ProviderOrder × Purchase :=
  match s.order with
  | none => (raise .lookupError s!"provider order {copy.id.text} not found", s)
  | some row => (.ok (row.saved copy now), { s with order := some (row.saved copy now) })

/-- `SqlAlchemyOperationRepository.get_or_create`. -/
def ensureOperation (s : Purchase) (key : String) (resourceId : Uuid) (providerKey : String)
    (chance : Chance) : Result Operation × Purchase :=
  match s.operation with
  | some existing => (.ok existing, s)
  | none =>
    let row : Operation :=
      { id := chance.newId, operationKey := key, operationType := .orderCreate
        resourceType := "server_order", resourceId := resourceId, providerKey := providerKey
        createdAt := some chance.now, updatedAt := some chance.now }
    (.ok row, { s with operation := some row })

/-- `SqlAlchemyOperationRepository.claim`. -/
def claimOperation (s : Purchase) (now : ℤ) : Result (Option Operation) × Purchase :=
  match s.operation with
  | none => (.ok none, s)
  | some row =>
    (.ok (Operations.claim row now).2, { s with operation := some (Operations.claim row now).1 })

/-- `SqlAlchemyOperationRepository.save`. -/
def updateOperation (s : Purchase) (copy : Operation) (now : ℤ) : Result Operation × Purchase :=
  match Operations.save s.operation copy now with
  | .ok saved => (.ok saved, { s with operation := some saved })
  | .error raised => (.error raised, s)

/-- A billable create call, kept in the history with its outcome. -/
def post {α : Type} (s : Purchase) (request : CreateServerRequest) (key : String)
    (reply : Result α) : Result α × Purchase :=
  (reply, { s with posts := s.posts ++
    [⟨request, key, .of reply, s.checkoutHold.map (·.status)⟩] })

/-- A call of the hold service on the books. -/
def onBooks (s : Purchase) (request : HoldCall) (chance : Chance) :
    Result request.Out × Purchase :=
  let (reply, books) := request.handle ⟨chance.now, chance.newId⟩ s.books
  (reply, { s with books := books })

/-- A ledger entry that is read back as a domain entry must not have amount zero. -/
def readEntry (s : Purchase) (key : String) : Result (Option LedgerEntry) :=
  match s.books.entry key with
  | none => .ok none
  | some entry =>
    if entry.amount = 0 then raise .valueError "ledger entry amount cannot be zero"
    else .ok (some entry)

end Purchase

/-- One call. -/
def OrderCall.handle (scan : RecoveryScan) :
    (request : OrderCall) → Chance → Purchase → Result request.Out × Purchase
  | now, chance, s => (.ok chance.now, s)
  | listRequestedPrepaid, chance, s => chance.meets s
    (.ok (s.server.filter fun row ↦ row.state = .requested && row.isPrepaidMonthly), s)
  | server, chance, s => chance.meets s (.ok s.server, s)
  | serverByKey key, chance, s =>
    chance.meets s (.ok (s.server.filter (·.idempotencyKey = some key)), s)
  | createServer row key, chance, s => chance.meets s (s.insertServer row key chance.now)
  | saveServer copy, chance, s => chance.meets s (s.updateServer copy chance.now)
  | order, chance, s => chance.meets s (.ok s.order, s)
  | listOpen, chance, s => chance.meets s
    (.ok (s.order.filter (·.status ∈ [OrderStatus.submitted, .provisioning])), s)
  | listOutcomeUnknown, chance, s => chance.meets s
    (.ok (s.order.filter (·.status = .outcomeUnknown)), s)
  | createOrder row, chance, s => chance.meets s (s.insertOrder row chance)
  | saveOrder copy, chance, s => chance.meets s (s.updateOrder copy chance.now)
  | operation, chance, s => chance.meets s (.ok s.operation, s)
  | createOperation key resourceId providerKey, chance, s =>
    chance.meets s (s.ensureOperation key resourceId providerKey chance)
  | claim, chance, s => chance.meets s (s.claimOperation chance.now)
  | saveOperation copy, chance, s => chance.meets s (s.updateOperation copy chance.now)
  | offer, chance, s => chance.meets s (.ok s.offer, s)
  | writeOffer row, chance, s => chance.meets s (.ok (), { s with offer := row })
  | fulfillmentAccount .., chance, s => chance.meets s (.ok chance.account, s)
  | providerAccount .., chance, s => chance.meets s (.ok (), s)
  | wallet userId, chance, s => chance.meets s
    (.ok (if s.books.wallet.userId = userId then some s.books.wallet else none), s)
  | hold request, chance, s => chance.meets s (s.onBooks request chance)
  | ledgerEntry _ key, chance, s => chance.meets s (s.readEntry key, s)
  | renewal, chance, s => chance.meets s (.ok s.renewal, s)
  | upsertRenewal record, chance, s => chance.meets s
    (.ok (Renewals.upsert s.renewal record),
      { s with renewal := some (Renewals.upsert s.renewal record) })
  | deliver delivery, chance, s =>
    chance.meets s (.ok (), { s with deliveries := s.deliveries ++ [delivery] })
  | audit .., chance, s => chance.meets s (.ok (), s)
  | getProduct .., chance, s => (chance.reply chance.product, s)
  | validateOffer .., chance, s => (chance.reply (), s)
  | placeOrder request key, chance, s => s.post request key (chance.reply chance.ticket)
  | createRemote request key, chance, s => s.post request key (chance.reply chance.remote)
  | getOrder _, chance, s => (chance.reply chance.ticket, s)
  | getServer _, chance, s => (chance.reply chance.found, s)
  | matchVps _, chance, s => (chance.reply chance.vpsId, s)
  | recoverOrder .., chance, s => (chance.reply (scan s.posts chance), s)
  | recoverServer _, chance, s => (chance.reply (scan s.posts chance), s)

abbrev OrderProgram := Program Raised OrderCall OrderCall.Out

/-- One call of a workflow. -/
abbrev perform (request : OrderCall) : OrderProgram request.Out :=
  Program.perform request

/-- A method of the hold service, as a part of a workflow. -/
def onHolds {α : Type} (program : HoldProgram α) : OrderProgram α :=
  program.lift .hold fun _ reply ↦ reply

end CloudPlatform.Orders
