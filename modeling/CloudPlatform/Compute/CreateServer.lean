import CloudPlatform.Billing.Domain
import CloudPlatform.Checkout.MonthlyCheckout

/-!
# The create command of usage-billed servers

`CreateServerService.create_server` validates the user, the offer, the quota and the balance, and
persists the intent: the hold, the server and the price snapshot are three commits. Every repository
call is a transaction of its own on the rows of one wallet; what the catalog, the price book and the
switches answer is in `CreateChance`.
-/

namespace CloudPlatform.Compute

open Billing (MarginRule OfferCost ServerPriceSnapshot)
open Checkout (User)
open Providers (isProviderError)
open Transition (Program)
open Wallets (Books Hold HoldCall Wallet)

/-! ### Values -/

/-- One sellable offer: a plan at a location of a provider. -/
structure OfferRef where
  providerKey : String
  planId : String
  locationId : String
  providerKey_ne : strip providerKey ≠ ""
  planId_ne : strip planId ≠ ""
  locationId_ne : strip locationId ≠ ""

instance : DecidableEq OfferRef := fun first second ↦
  decidable_of_iff (first.providerKey = second.providerKey ∧ first.planId = second.planId ∧
    first.locationId = second.locationId) <| by
      cases first
      cases second
      simp

/-- `OfferRef.key`. -/
def OfferRef.key (ref : OfferRef) : String :=
  s!"{ref.providerKey}/{ref.planId}/{ref.locationId}"

/-- A catalog row. -/
structure CatalogOffer where
  id : Uuid
  currency : String
  pricePerQuantum : ℤ
  enabled : Bool

/-- A selling price, with the rule that it came from. -/
structure SellingPrice where
  offer : OfferCost
  sellingMinor : ℤ
  rule : MarginRule
  sellingCurrency : String

/-- The scope of a maintenance switch; without a location it is the whole provider. -/
structure MaintenanceScope where
  providerKey : String
  locationId : Option String := none

/-- The provisioning quota of a user. -/
structure QuotaPolicy where
  maxActive : ℕ := 10
  maxTotal : ℕ := 50

/-- How the service is wired: its price book and quota, which of the optional collaborators are
there, and the providers whose fulfillment routes support capacity failover. -/
structure CreateServerSettings where
  bookName : String := "default"
  quota : QuotaPolicy := {}
  terms : Bool := false
  maintenance : Bool := false
  costBreaker : Bool := false
  capacityFailover : List String := []

/-- The arguments of a command; `serverId` is the fresh id of its server. -/
structure CreateServerCommand where
  user : User
  offerRef : OfferRef
  idempotencyKey : String
  pricedAt : Option ℤ := none
  serverId : Uuid

/-- The outcome of a command. -/
structure CreateServerResult where
  server : CloudServer
  snapshot : Option ServerPriceSnapshot
  hold : Option Hold
  replayed : Bool

/-- `_hold_key`. -/
def createHoldKey (idempotencyKey : String) : String :=
  "server-create:" ++ idempotencyKey

/-- `snapshot_from_selling_price`. -/
def snapshotOfPrice (serverId : Uuid) (price : SellingPrice) : ServerPriceSnapshot where
  serverId := serverId
  offer := price.offer
  sellingMinor := price.sellingMinor
  rule := price.rule
  sellingCurrency := price.sellingCurrency

/-! ### Rows and calls -/

/-- The rows that the command reads and writes. -/
structure CreateRows where
  books : Books
  servers : List CloudServer := []
  snapshots : List ServerPriceSnapshot := []

/-- The calls of the command on its collaborators. -/
inductive CreateCall
  | requireLatest (userId : Uuid)
  | serverByKey (idempotencyKey : String)
  | getOffer (ref : OfferRef)
  | blockingScope (providerKey locationId : String)
  | activeAccount (userId : Uuid) (providerKey : String)
  | checkCost (accountId : Uuid)
  | sellPrice (bookName : String) (cost : OfferCost) (pricedAt : Option ℤ)
  | countActive (userId : Uuid)
  | countTotal (userId : Uuid)
  | accountFor (providerKey locationId : String)
  | wallet (userId : Uuid)
  | hold (request : HoldCall)
  | createServer (server : CloudServer) (intent : ServerCreateIntent)
  | saveServer (server : CloudServer)
  | createSnapshot (serverId : Uuid) (price : SellingPrice)
  | getSnapshot (serverId : Uuid)
  | audit (action reason : String)

/-- What a call returns. -/
abbrev CreateCall.Out : CreateCall → Type
  | requireLatest _ => Unit
  | serverByKey _ => Option CloudServer
  | getOffer _ => Option CatalogOffer
  | blockingScope .. => Option MaintenanceScope
  | activeAccount .. => Option Uuid
  | checkCost _ => Option CostLimitTrigger
  | sellPrice .. => SellingPrice
  | countActive _ => ℕ
  | countTotal _ => ℕ
  | accountFor .. => Option String
  | wallet _ => Option Wallet
  | hold request => request.Out
  | createServer .. => CloudServer
  | saveServer _ => CloudServer
  | createSnapshot .. => ServerPriceSnapshot
  | getSnapshot _ => Option ServerPriceSnapshot
  | audit .. => Unit

/-- What a call meets: an exception in place of its service, the clock, new row ids, and the answers
of the collaborators outside the rows. -/
structure CreateChance where
  fault : Option Raised := none
  now : ℤ
  newId : Uuid
  offer : Option CatalogOffer := none
  scope : Option MaintenanceScope := none
  account : Option Uuid := none
  trigger : Option CostLimitTrigger := none
  price : SellingPrice
  route : Option String := none

/-- The answer of a call that a fault pre-empts. -/
def CreateChance.meets {α : Type} (chance : CreateChance) (rows : CreateRows)
    (answer : Result α × CreateRows) : Result α × CreateRows :=
  match chance.fault with
  | some raised => (.error raised, rows)
  | none => answer

namespace CreateRows

/-- `SqlAlchemyServerRepository.get_by_idempotency_key`. -/
def serverByKey (rows : CreateRows) (key : String) : Option CloudServer :=
  rows.servers.find? (·.idempotencyKey = some key)

/-- `SqlAlchemyServerRepository.count_active`. -/
def countActive (rows : CreateRows) (userId : Uuid) : ℕ :=
  rows.servers.countP fun row ↦ row.userId = userId ∧ row.state ≠ .deleted

/-- `SqlAlchemyServerRepository.count_total`. -/
def countTotal (rows : CreateRows) (userId : Uuid) : ℕ :=
  rows.servers.countP fun row ↦ row.userId = userId

/-- `SqlAlchemyServerRepository.create`: the primary key and the unique command key refuse a
duplicate. -/
def insertServer (rows : CreateRows) (server : CloudServer) (intent : ServerCreateIntent)
    (now : ℤ) : Result CloudServer × CreateRows :=
  if rows.servers.any fun row ↦
      row.id = server.id || row.idempotencyKey = some intent.idempotencyKey then
    (raise .serverCreate (s!"could not persist create intent " ++
      s!"(idempotency key '{intent.idempotencyKey}' may already be consumed)"), rows)
  else
    let row := { server with
      idempotencyKey := some intent.idempotencyKey
      createdAt := some now }
    (.ok row, { rows with servers := rows.servers ++ [row] })

/-- `SqlAlchemyServerRepository.save`. -/
def updateServer (rows : CreateRows) (copy : CloudServer) (now : ℤ) :
    Result CloudServer × CreateRows :=
  match rows.servers.find? (·.id = copy.id) with
  | none => (raise .lookupError s!"server {copy.id.text} not found", rows)
  | some row => (.ok (row.saved copy now), { rows with
      servers := rows.servers.map fun other ↦
        if other.id = copy.id then other.saved copy now else other })

/-- `ServerPriceSnapshotService.create_snapshot`: there is one snapshot a server. -/
def insertSnapshot (rows : CreateRows) (serverId : Uuid) (price : SellingPrice) :
    Result ServerPriceSnapshot × CreateRows :=
  if price.sellingMinor < 0 then
    (raise .valueError "selling_minor must not be negative", rows)
  else if rows.snapshots.any (·.serverId = serverId) then
    (raise .snapshotAlreadyExists s!"server {serverId.text} already has a price snapshot", rows)
  else
    (.ok (snapshotOfPrice serverId price),
      { rows with snapshots := rows.snapshots ++ [snapshotOfPrice serverId price] })

/-- A call of the hold repository on the books. -/
def onBooks (rows : CreateRows) (request : HoldCall) (chance : CreateChance) :
    Result request.Out × CreateRows :=
  let (reply, books) := request.handle ⟨chance.now, chance.newId⟩ rows.books
  (reply, { rows with books := books })

end CreateRows

/-- One call. -/
def CreateCall.handle :
    (request : CreateCall) → CreateChance → CreateRows → Result request.Out × CreateRows
  | requireLatest _, chance, rows => chance.meets rows (.ok (), rows)
  | serverByKey key, chance, rows => chance.meets rows (.ok (rows.serverByKey key), rows)
  | getOffer _, chance, rows => chance.meets rows (.ok chance.offer, rows)
  | blockingScope .., chance, rows => chance.meets rows (.ok chance.scope, rows)
  | activeAccount .., chance, rows => chance.meets rows (.ok chance.account, rows)
  | checkCost _, chance, rows => chance.meets rows (.ok chance.trigger, rows)
  | sellPrice .., chance, rows => chance.meets rows (.ok chance.price, rows)
  | countActive userId, chance, rows => chance.meets rows (.ok (rows.countActive userId), rows)
  | countTotal userId, chance, rows => chance.meets rows (.ok (rows.countTotal userId), rows)
  | accountFor .., chance, rows => chance.meets rows (.ok chance.route, rows)
  | wallet userId, chance, rows => chance.meets rows
    (.ok (if rows.books.wallet.userId = userId then some rows.books.wallet else none), rows)
  | hold request, chance, rows => chance.meets rows (rows.onBooks request chance)
  | createServer server intent, chance, rows =>
    chance.meets rows (rows.insertServer server intent chance.now)
  | saveServer copy, chance, rows => chance.meets rows (rows.updateServer copy chance.now)
  | createSnapshot serverId price, chance, rows =>
    chance.meets rows (rows.insertSnapshot serverId price)
  | getSnapshot serverId, chance, rows =>
    chance.meets rows (.ok (rows.snapshots.find? (·.serverId = serverId)), rows)
  | audit .., chance, rows => chance.meets rows (.ok (), rows)

abbrev CreateProgram := Program Raised CreateCall CreateCall.Out

namespace CreateServer

/-- One call of the command. -/
abbrev perform (request : CreateCall) : CreateProgram request.Out :=
  Program.perform request

/-! ### Validation -/

/-- The guards on the user. -/
def checkUser (user : User) : Result Uuid := do
  match user.id with
  | none => raise .createServerCommand "a persisted user id is required"
  | some userId =>
    rejectIf (user.status ≠ .active) .userNotActive s!"user {userId.text} is {user.status.value}"
    rejectIf (!user.verifiedIdentity) .identityRequired
      ("Verify your own Iranian Telegram contact and provide a valid national ID " ++
        "before purchasing a server")
    return userId

/-- The terms gate, when wired. -/
def requireTerms (settings : CreateServerSettings) (userId : Uuid) : CreateProgram Unit :=
  if settings.terms then perform (.requireLatest userId) else return ()

/-- The offer must be in the catalog and enabled. -/
def requireOffer (ref : OfferRef) : CreateProgram CatalogOffer := do
  match ← perform (.getOffer ref) with
  | none => throw ⟨.offerNotFound, s!"unknown offer {ref.key}"⟩
  | some offer =>
    if offer.enabled then return offer
    else throw ⟨.offerDisabled, s!"offer {ref.key} is not enabled"⟩

/-- The maintenance switch, when wired. -/
def checkMaintenance (settings : CreateServerSettings) (ref : OfferRef) : CreateProgram Unit :=
  if settings.maintenance then do
    match ← perform (.blockingScope ref.providerKey ref.locationId) with
    | none => return ()
    | some scope =>
      let place := if scope.locationId.isNone then s!"provider {ref.providerKey}"
        else s!"provider {ref.providerKey} location {ref.locationId}"
      throw ⟨.maintenanceBlocked, s!"new orders for {place} are blocked (provider maintenance)"⟩
  else return ()

/-- The active account of the user with the provider. -/
def requireAccount (userId : Uuid) (ref : OfferRef) : CreateProgram Uuid := do
  match ← perform (.activeAccount userId ref.providerKey) with
  | none => throw ⟨.noProviderAccount,
      s!"user {userId.text} has no active {ref.providerKey} account"⟩
  | some account => return account

/-- The cost circuit breaker, when wired. -/
def checkCostLimit (settings : CreateServerSettings) (account : Uuid) : CreateProgram Unit :=
  if settings.costBreaker then do
    match ← perform (.checkCost account) with
    | none => return ()
    | some trigger =>
      let place := if trigger.scope = .global then "all provider accounts"
        else s!"provider account {textOf (trigger.providerAccountId.map (·.text))}"
      throw ⟨.costLimitReached, s!"new orders halted for {place}: daily provider cost " ++
        s!"{trigger.spentMinor} reached the limit {trigger.limitMinor}"⟩
  else return ()

/-- The cost of the offer, as `OfferCost.__post_init__` checks it. -/
def offerCost (offer : CatalogOffer) : Result OfferCost := do
  rejectIf (strip offer.currency = "") .valueError "currency must not be empty"
  rejectIf (offer.pricePerQuantum < 0) .valueError "cost_minor must not be negative"
  return { costMinor := offer.pricePerQuantum, currency := offer.currency }

/-- The quota leaves room for one more server. -/
def checkQuota (settings : CreateServerSettings) (userId : Uuid) : CreateProgram Unit := do
  let active ← perform (.countActive userId)
  rejectIf (settings.quota.maxActive ≤ active) .quotaExceeded
    s!"user has {active} active servers (concurrent limit {settings.quota.maxActive})"
  let total ← perform (.countTotal userId)
  rejectIf (settings.quota.maxTotal ≤ total) .quotaExceeded
    s!"user has created {total} servers (lifetime limit {settings.quota.maxTotal})"

/-- No eligible account can be proved. -/
def inventoryUnavailable {α : Type} : CreateProgram α :=
  throw ⟨.providerInventoryUnavailable, "current provider availability could not be proved"⟩

/-- The fulfillment account, for a provider with capacity failover. -/
def fulfillmentAccount (settings : CreateServerSettings) (ref : OfferRef) :
    CreateProgram (Option String) :=
  if ref.providerKey ∈ settings.capacityFailover then do
    match ← (perform (.accountFor ref.providerKey ref.locationId)).attempt with
    | .ok (some account) => return some account
    | .ok none => inventoryUnavailable
    | .error raised =>
      if raised.kind = .providerCapacity then
        throw ⟨.providerAccountsFull, "all configured provider accounts are currently full"⟩
      else if isProviderError raised.kind then inventoryUnavailable
      else throw raised
  else return none

/-! ### The intent -/

/-- The hold of the price. -/
def reservePrice (command : CreateServerCommand) (userId : Uuid) (offer : CatalogOffer)
    (price : SellingPrice) : CreateProgram (Uuid × Hold) := do
  match ← perform (.wallet userId) with
  | none => throw ⟨.noWallet, s!"user {userId.text} has no wallet"⟩
  | some wallet => do
    let hold ← perform (.hold (.create wallet.id price.sellingMinor offer.currency
      (createHoldKey command.idempotencyKey)))
    return (wallet.id, hold)

/-- The REQUESTED server. -/
def serverIntent (command : CreateServerCommand) (userId : Uuid) (account : Option String) :
    CloudServer where
  id := command.serverId
  userId := userId
  providerKey := command.offerRef.providerKey
  state := .requested
  credentialAccountId := account

/-- The create intent, with the catalog offer pinned. -/
def createIntent (command : CreateServerCommand) (offer : CatalogOffer) : ServerCreateIntent where
  catalogId := some offer.id
  costMinor := offer.pricePerQuantum
  currency := offer.currency
  idempotencyKey := command.idempotencyKey

/-- `_release_hold`: a failure is logged. -/
def releaseHold (hold : Hold) : CreateProgram Unit := do
  let _ ← (perform (.hold (.release hold.id))).attempt
  return ()

/-- `_fail_intent`: best-effort compensation. -/
def failIntent (server : CloudServer) (hold : Hold) : CreateProgram Unit := do
  let _ ← Program.attempt (do
    let failed ← server.transitionTo .error
    perform (.saveServer failed))
  releaseHold hold

/-- The replay of a command: the original server, snapshot and hold. -/
def replay (command : CreateServerCommand) (userId : Uuid) (existing : CloudServer) :
    CreateProgram CreateServerResult := do
  rejectIf (existing.userId ≠ userId) .createServerCommand
    s!"idempotency key '{command.idempotencyKey}' belongs to another user"
  match ← perform (.wallet userId) with
  | none => do
    let snapshot ← perform (.getSnapshot existing.id)
    return ⟨existing, snapshot, none, true⟩
  | some wallet => do
    let hold ← perform (.hold (.getByIdempotency wallet.id (createHoldKey command.idempotencyKey)))
    let snapshot ← perform (.getSnapshot existing.id)
    return ⟨existing, snapshot, hold, true⟩

/-- The handler of `ServerCreateError`: a concurrent duplicate resolves to the original intent,
everything else releases the hold. -/
def resolveDuplicate (command : CreateServerCommand) (userId walletId : Uuid) (hold : Hold)
    (raised : Raised) : CreateProgram CreateServerResult := do
  match (← perform (.serverByKey command.idempotencyKey)).filter (·.userId = userId) with
  | some original => do
    let originalHold ← perform
      (.hold (.getByIdempotency walletId (createHoldKey command.idempotencyKey)))
    let originalSnapshot ← perform (.getSnapshot original.id)
    return ⟨original, originalSnapshot, originalHold, true⟩
  | none => do
    releaseHold hold
    throw raised

/-- The price snapshot of a created server, and the audit entry. -/
def persistSnapshot (command : CreateServerCommand) (price : SellingPrice) (hold : Hold)
    (created : CloudServer) : CreateProgram CreateServerResult := do
  let snapshot ← tryCatch (perform (.createSnapshot created.id price)) fun raised ↦ do
    failIntent created hold
    throw raised
  perform (.audit "server.create_requested" s!"create {command.offerRef.key}")
  return ⟨created, some snapshot, some hold, false⟩

/-- The intent behind the hold. -/
def persistIntent (command : CreateServerCommand) (userId walletId : Uuid) (offer : CatalogOffer)
    (price : SellingPrice) (account : Option String) (hold : Hold) :
    CreateProgram CreateServerResult := do
  (createIntent command offer).check
  match ← (perform (.createServer (serverIntent command userId account)
      (createIntent command offer))).attempt with
  | .ok created => persistSnapshot command price hold created
  | .error raised =>
    if raised.kind = .serverCreate then resolveDuplicate command userId walletId hold raised
    else throw raised

/-- A command whose key is new. -/
def createNew (settings : CreateServerSettings) (command : CreateServerCommand) (userId : Uuid) :
    CreateProgram CreateServerResult := do
  let offer ← requireOffer command.offerRef
  checkMaintenance settings command.offerRef
  let providerAccount ← requireAccount userId command.offerRef
  checkCostLimit settings providerAccount
  let cost ← offerCost offer
  let price ← perform (.sellPrice settings.bookName cost command.pricedAt)
  checkQuota settings userId
  let account ← fulfillmentAccount settings command.offerRef
  let reserved ← reservePrice command userId offer price
  persistIntent command userId reserved.1 offer price account reserved.2

end CreateServer

open CreateServer in
/-- `CreateServerService.create_server`. -/
def createServer (settings : CreateServerSettings) (command : CreateServerCommand) :
    CreateProgram CreateServerResult := do
  let userId ← checkUser command.user
  requireTerms settings userId
  match ← perform (.serverByKey command.idempotencyKey) with
  | some existing => replay command userId existing
  | none => createNew settings command userId

end CloudPlatform.Compute
