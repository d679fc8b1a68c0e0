import CloudPlatform.Core.Json
import CloudPlatform.Providers.Ports

/-!
# Recovery of lost creates

A create labels its server with the identity of its operation and with the platform's id of the
server. When the response is lost, the worker and the reconciler of the operation list the servers
of the project and look for that label. It has two spellings: the digest of the operation key, and
the key itself cut to 63 characters.
-/

namespace CloudPlatform.Hetzner

open Providers (CreateServerRequest OrderRecoveryResult isProviderError typeName)

/-! ### The servers of a project -/

/-- The texts that `_resource_id` returns. -/
def isResourceId (text : String) : Bool :=
  text ≠ "" && text.toList.all Char.isDigit && text.toList.head? ≠ some '0'

/-- The id of a server in a complete inventory. -/
abbrev ResourceId := { text : String // isResourceId text = true }

/-- A server as the API lists it; `labels` is absent where the field is no object. -/
structure ServerItem where
  id : ResourceId
  labels : Option JsonObject

/-- The answers of the project: the inventory of `_pages`, and `get_server`. -/
structure ProjectReads where
  servers : Result (List ServerItem)
  server : String → Result (Option ServerItem)

/-- The answers of a project that holds these servers. -/
def readsOf (inventory : List ServerItem) : ProjectReads where
  servers := .ok inventory
  server id := .ok (inventory.find? (·.id.val = id))

/-- `text[:count]`. -/
def cut (text : String) (count : ℕ) : String :=
  String.ofList (text.toList.take count)

section Correlation

variable (sha256 : String → String)

/-- `operation_label`; `sha256` is the hex digest of a text. -/
def operationLabel (operationKey : String) : String :=
  "op-" ++ cut (sha256 operationKey) 60

/-- The labels that `create_server` sends. -/
def createdLabels (request : CreateServerRequest) (operationKey : String) : JsonObject :=
  JsonObject.put (request.labels.map fun label ↦ (label.1, .text label.2)) "platform-operation"
    (.text (operationLabel sha256 operationKey))

/-- The server that an accepted `create_server` leaves in the project. -/
def createServer (request : CreateServerRequest) (operationKey : String) (id : ResourceId) :
    ServerItem where
  id := id
  labels := some (createdLabels sha256 request operationKey)

/-- The label that a recovery looks for. -/
def recoveryLabel (operationKey : String) (legacyLabel : Bool) : String :=
  if legacyLabel then cut operationKey 63 else operationLabel sha256 operationKey

/-- The server has the label of an operation. -/
def ServerItem.carries (item : ServerItem) (label : String) : Bool :=
  item.labels.any fun labels ↦ labels.get "platform-operation" = some (.text label)

/-- The server has the id of another platform server among its labels. -/
def ServerItem.conflicts (item : ServerItem) (platformServerId : Option String) : Bool :=
  item.labels.any fun labels ↦ platformServerId.any fun expected ↦
    (labels.get "platform_server_id").any (· ≠ .text expected)

/-- `recover_server_by_operation`. -/
def recoverServerByOperation (servers : Result (List ServerItem)) (operationKey : String)
    (legacyLabel : Bool) (platformServerId : Option String) : Result OrderRecoveryResult :=
  match servers with
  | .error raised =>
    if isProviderError raised.kind then
      .ok { verdict := .scanFailed, reason := typeName raised.kind }
    else .error raised
  | .ok inventory =>
    let candidates := inventory.filter (·.carries (recoveryLabel sha256 operationKey legacyLabel))
    match candidates with
    | [] => .ok { verdict := .noMatch }
    | first :: rest =>
      if !rest.isEmpty || candidates.any (·.conflicts platformServerId) then
        .ok { verdict := .ambiguous, reason := "conflicting operation correlation" }
      else .ok { verdict := .matched, providerOrderId := some first.id.val }

/-! ### The creates -/

/-- The contract of a monthly order, as its create labels it. -/
structure OrderContract where
  providerCostMinor : ℤ
  providerCostCurrency : String
  contractTerm : String
  billingCycle : String
  deriving DecidableEq

/-- What a create and its recovery read of an operation, its server and its order. An intent without
an order is the provisioning worker's; `receipt` is whether the operation has a routing receipt. -/
structure CreateIntent where
  operationKey : String
  receipt : Bool
  serverId : Uuid
  providerServerId : Option String := none
  order : Option OrderContract := none
  name : String
  planId : String
  imageId : String
  locationId : String
  deriving DecidableEq

/-- The labels of the request. -/
def CreateIntent.labels (intent : CreateIntent) : List (String × String) :=
  match intent.order with
  | none => [("platform_server_id", intent.serverId.text)]
  | some contract =>
    [("provider_price_minor", toString contract.providerCostMinor),
      ("provider_currency", contract.providerCostCurrency),
      ("contract_term", contract.contractTerm), ("billing_cycle", contract.billingCycle),
      ("platform_server_id", intent.serverId.text)]

/-- The request of the create. -/
def CreateIntent.request (intent : CreateIntent) : CreateServerRequest where
  name := intent.name
  planId := intent.planId
  imageId := intent.imageId
  locationId := intent.locationId
  labels := intent.labels

/-! ### The recoveries -/

/-- The identity of a match that `get_server` confirms. -/
def confirmedMatch (reads : ProjectReads) (result : OrderRecoveryResult) :
    Result (Option String) :=
  match result.verdict, result.providerOrderId with
  | .matched, some identity =>
    if identity = "" then .ok none
    else do
      let remote ← reads.server identity
      return (remote.filter (·.id.val = identity)).map (·.id.val)
  | _, _ => .ok none

/-- `OrderWorker._recover_direct_server`; `operation` is absent where the caller passes none. -/
def recoverDirectServer (reads : ProjectReads) (intent : CreateIntent)
    (operation : Option CreateIntent) : Result (Option String) := do
  let result ← recoverServerByOperation sha256 reads.servers intent.operationKey
    (!operation.any (·.receipt)) (some intent.serverId.text)
  confirmedMatch reads result

/-- A recovery whose provider errors leave everything unchanged. -/
def unchangedOnProviderError (outcome : Result (Option String)) : Result (Option String) :=
  match outcome with
  | .error raised => if isProviderError raised.kind then .ok none else .error raised
  | .ok identity => .ok identity

/-- The identity that `_recover_historical_direct` attaches. -/
def recoverHistoricalDirect (reads : ProjectReads) (intent : CreateIntent) :
    Result (Option String) := do
  let identity ← unchangedOnProviderError do
    let result ← recoverServerByOperation sha256 reads.servers intent.operationKey true
      (some intent.serverId.text)
    confirmedMatch reads result
  return identity.filter fun found ↦ intent.providerServerId.all (· = found)

/-- The identity that `_recover_pooled` attaches, where no acceptance is recorded. -/
def recoverPooled (reads : ProjectReads) (intent : CreateIntent) : Result (Option String) :=
  unchangedOnProviderError do
    let result ← recoverServerByOperation sha256 reads.servers intent.operationKey false
      (some intent.serverId.text)
    confirmedMatch reads result

/-- `_read_legacy_create_identity`. -/
def readLegacyCreateIdentity (reads : ProjectReads) (intent : CreateIntent) (receipt : Bool) :
    Result (Option String) := do
  match intent.providerServerId.filter (· ≠ "") with
  | some recorded =>
    let remote ← reads.server recorded
    return (remote.filter (·.id.val = recorded)).map (·.id.val)
  | none =>
    let result ← recoverServerByOperation sha256 reads.servers intent.operationKey (!receipt)
      (some intent.serverId.text)
    return if result.verdict = .matched then
      result.providerOrderId.filter (strip · ≠ "") else none

end Correlation

/-- The places that recover a lost create. -/
inductive RecoverySite
  | provisionDirect
  | recoverHistoricalDirect
  | provisionFromPool
  | recoverPooled
  | recoverHistoricalPending
  | reconcileHistoricalDirect
  | reconcileReceipt

/-- The places that recover the create of an intent: those of its worker and of its reconciler. -/
def CreateIntent.sites (intent : CreateIntent) : List RecoverySite :=
  match intent.order, intent.receipt with
  | some _, false => [.provisionDirect, .recoverHistoricalDirect]
  | some _, true => [.provisionFromPool, .recoverPooled]
  | none, false => [.recoverHistoricalPending, .reconcileHistoricalDirect]
  | none, true => [.reconcileReceipt]

/-- The identity that a place recovers. -/
def RecoverySite.recover (sha256 : String → String) (reads : ProjectReads) (intent : CreateIntent) :
    RecoverySite → Result (Option String)
  | .provisionDirect => recoverDirectServer sha256 reads intent none
  | .recoverHistoricalDirect => Hetzner.recoverHistoricalDirect sha256 reads intent
  | .provisionFromPool => recoverDirectServer sha256 reads intent (some intent)
  | .recoverPooled => Hetzner.recoverPooled sha256 reads intent
  | .recoverHistoricalPending =>
    unchangedOnProviderError (readLegacyCreateIdentity sha256 reads intent false)
  | .reconcileHistoricalDirect =>
    unchangedOnProviderError (readLegacyCreateIdentity sha256 reads intent false)
  | .reconcileReceipt =>
    unchangedOnProviderError (readLegacyCreateIdentity sha256 reads intent true)

end CloudPlatform.Hetzner
