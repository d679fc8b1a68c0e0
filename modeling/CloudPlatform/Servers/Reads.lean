import CloudPlatform.Compute.ServerSaves
import CloudPlatform.Core.Json
import CloudPlatform.Core.Lists
import CloudPlatform.Core.Tables
import CloudPlatform.Providers.Ports

/-!
# Looking at servers

The customer's server list and detail screens. Both fold what the provider says of a server into its
row: the provider's word for the power state goes through a table and the lifecycle machine of the
row, and image and addresses are copied. A row that this changes is saved whole.
-/

namespace CloudPlatform.Servers

open Rows
open Compute (ServerAggregate ServerLifecycleState)
open Providers (isProviderError)

/-! ### What the provider says -/

/-- The characters of `c.upper()`, for the characters that have an ASCII capital. -/
def upperChar (c : Char) : List Char :=
  match c.toNat with
  | 0x00DF => ['S', 'S']
  | 0x0131 => ['I']
  | 0x017F => ['S']
  | 0xFB00 => ['F', 'F']
  | 0xFB01 => ['F', 'I']
  | 0xFB02 => ['F', 'L']
  | 0xFB03 => ['F', 'F', 'I']
  | 0xFB04 => ['F', 'F', 'L']
  | 0xFB05 => ['S', 'T']
  | 0xFB06 => ['S', 'T']
  | _ => [c.toUpper]

/-- `text.upper()`, as far as it is compared with ASCII texts. -/
def upperText (text : String) : String :=
  String.ofList (text.toList.flatMap upperChar)

/-- The provider-neutral snapshot of a server. -/
structure VpsInfo where
  id : String
  state : String
  imageName : Option String := none
  metadata : JsonObject := []

/-- One address of a server. -/
structure VpsIp where
  ip : String
  version : ℤ
  networkType : String

/-- The adapter of a server: its capabilities, and what its reads answer. -/
structure ProviderContext where
  authoritativeInventory : Bool
  inventory : Bool
  ips : Bool
  listVpsInfo : Result (List VpsInfo)
  getVpsInfo : String → Result VpsInfo
  listVpsIps : String → Result (List VpsIp)

/-- `provider_for`: the adapter of a provider and a credential account. -/
abbrev Registry := String → Option String → Option ProviderContext

/-- The table `_PROVIDER_STATE_TO_LOCAL`. -/
def providerStateToLocal : List (String × ServerLifecycleState) :=
  [("RUNNING", .running), ("STARTED", .running), ("ACTIVE", .running), ("STOPPED", .stopped),
    ("OFF", .stopped), ("SHUTOFF", .stopped)]

/-- The local state behind the provider's word. -/
def VpsInfo.target (info : VpsInfo) : Option ServerLifecycleState :=
  providerStateToLocal.lookup (upperText (strip info.state))

/-- `metadata.get(key)` when it is a text that is not empty. -/
def VpsInfo.address (info : VpsInfo) (key : String) : Option String :=
  match info.metadata.get key with
  | some (.text ip) => if ip ≠ "" then some ip else none
  | _ => none

/-! ### The rows -/

/-- The table of servers. -/
abbrev ServerRows := Table fun server : ServerAggregate ↦ server.id

/-- The order of a customer's list: the newest first, rows without a date last. -/
def newerFirst (first second : ServerAggregate) : Bool :=
  match first.createdAt, second.createdAt with
  | some left, some right => right < left || (left = right && second.id.text ≤ first.id.text)
  | some _, none => true
  | none, some _ => false
  | none, none => second.id.text ≤ first.id.text

/-- Whether the list shows a row: failed creations without a provider resource leave it. -/
def visibleAfter (hideFailedBefore : ℤ) (server : ServerAggregate) : Bool :=
  server.state ≠ .error || server.providerServerId.isSome ||
    (server.updatedAt.or server.createdAt).any (hideFailedBefore < ·)

/-- `SqlAlchemyServerRepository.list_by_user_paged`. -/
def listByUserPaged (rows : ServerRows) (userId : Uuid) (offset limit : ℕ) (hideFailedBefore : ℤ) :
    List ServerAggregate × ℕ :=
  let visible := rows.rows.filter fun server ↦
    server.userId = userId && visibleAfter hideFailedBefore server
  (((visible.mergeSort newerFirst).drop offset).take limit, visible.length)

/-- A read: it may raise, and what it has saved stays. -/
abbrev ReadProgram := ExceptT Raised (StateM ServerRows)

/-- `SqlAlchemyServerRepository.save`. -/
def save (now : ℤ) (server : ServerAggregate) : ReadProgram Unit := do
  let rows ← get
  match rows.get server.id with
  | none => throw ⟨.lookupError, s!"server {server.id.text} not found"⟩
  | some row => set (rows.put (row.saved server now))

/-! ### Folding a snapshot into a row -/

/-- The row after its provider reported a state; a move that the machine refuses is skipped. -/
def follow (server : ServerAggregate) : Option ServerLifecycleState → ServerAggregate
  | none => server
  | some target =>
    if target = server.state then server
    else match server.moveTo target with
      | .ok moved => moved
      | .error _ => server

/-- The row with a snapshot folded in. -/
def fold (server : ServerAggregate) (info : VpsInfo) (authoritativeInventory : Bool) :
    ServerAggregate :=
  let moved := follow server info.target
  { moved with
    os := if authoritativeInventory then info.imageName.filter (· ≠ "")
      else if truthy info.imageName then info.imageName
      else moved.os
    ipv4 := (info.address "ipv4").or moved.ipv4
    ipv6 := (info.address "ipv6").or moved.ipv6 }

/-- The columns that a snapshot can change. -/
def face (server : ServerAggregate) :
    ServerLifecycleState × Option String × Option String × Option String :=
  (server.state, server.os, server.ipv4, server.ipv6)

/-- `_apply_provider_info`. -/
def applyProviderInfo (now : ℤ) (server : ServerAggregate) (info : VpsInfo)
    (authoritativeInventory : Bool) : ReadProgram ServerAggregate := do
  let folded := fold server info authoritativeInventory
  if face folded ≠ face server then save now folded
  return folded

/-- The public address of a version. -/
def publicAddress (version : ℤ) (ips : List VpsIp) : Option String :=
  let isPublic (row : VpsIp) : Bool :=
    row.version = version && "PUBLIC".toList.isPrefixOf (upperText row.networkType).toList
  (ips.find? isPublic).map (·.ip)

/-- `_apply_provider_ips`. -/
def applyProviderIps (now : ℤ) (server : ServerAggregate) (providerServerId : String)
    (context : ProviderContext) : ReadProgram ServerAggregate := do
  if !context.ips then return server
  match context.listVpsIps providerServerId with
  | .error raised => if isProviderError raised.kind then return server else throw raised
  | .ok ips =>
    let addressed := { server with
      ipv4 := (publicAddress 4 ips).or server.ipv4
      ipv6 := (publicAddress 6 ips).or server.ipv6 }
    if addressed ≠ server then save now addressed
    return addressed

/-! ### The screens -/

/-- The part of the policy that the reads look at. -/
structure ServerManagementPolicy where
  enabled : Bool := true
  pageSize : ℕ := 5
  positive : 0 < pageSize := by decide

/-- A shown server; without a snapshot of its inventory its image and name are left blank. -/
structure ServerItem where
  server : ServerAggregate
  verified : Bool := true
  refreshError : Option Raised := none

structure CustomerServerPage where
  items : List ServerItem
  page : ℕ
  pageSize : ℕ
  total : ℕ

/-- `_context`. -/
def contextOf (registry : Registry) (server : ServerAggregate) : Option ProviderContext :=
  registry server.providerKey server.credentialAccountId

/-- `_owned`. -/
def owned (policy : ServerManagementPolicy) (customerId serverId : Uuid) :
    ReadProgram ServerAggregate := do
  if !policy.enabled then throw ⟨.serverOperationNotAllowed, "server management is disabled"⟩
  match (← get).get serverId with
  | none => throw ⟨.serverNotFound, "server not found"⟩
  | some server =>
    if server.userId ≠ customerId then throw ⟨.serverNotFound, "server not found"⟩
    return server

/-- `refresh_server`. -/
def refreshServer (policy : ServerManagementPolicy) (registry : Registry) (now : ℤ)
    (customerId serverId : Uuid) : ReadProgram ServerItem := do
  let server ← owned policy customerId serverId
  match server.providerServerId.filter (· ≠ ""), contextOf registry server with
  | some providerServerId, some context =>
    if !context.inventory then return ⟨server, !context.authoritativeInventory, none⟩
    match context.getVpsInfo providerServerId with
    | .error raised =>
      if isProviderError raised.kind then
        return ⟨server, !context.authoritativeInventory, some raised⟩
      else throw raised
    | .ok info =>
      let folded ← applyProviderInfo now server info context.authoritativeInventory
      let addressed ← applyProviderIps now folded providerServerId context
      return ⟨addressed, true, none⟩
  | _, _ => return ⟨server, true, none⟩

/-- `get_server`. -/
def getServer (policy : ServerManagementPolicy) (registry : Registry) (now : ℤ)
    (customerId serverId : Uuid) : ReadProgram ServerItem := do
  let server ← owned policy customerId serverId
  if truthy server.providerServerId &&
      (contextOf registry server).any (·.authoritativeInventory) then
    refreshServer policy registry now customerId serverId
  else return ⟨server, true, none⟩

/-- The account whose inventory lists a server. -/
def accountKey (server : ServerAggregate) : String × Option String :=
  (server.providerKey, server.credentialAccountId)

/-- The rows of a page by account, in the order of their first rows. -/
def accountGroups (page : List ServerAggregate) : List (List ServerAggregate) :=
  let provisioned := page.filter fun row ↦ truthy row.providerServerId
  (firstBy accountKey provisioned).map fun first ↦
    provisioned.filter fun row ↦ accountKey row = accountKey first

/-- `{info.id: info for info in infos}.get(id)`. -/
def snapshotOf (infos : List VpsInfo) (row : ServerAggregate) : Option VpsInfo :=
  infos.reverse.find? fun info ↦ some info.id = row.providerServerId

/-- What the loops over a page have found. -/
structure Inspection where
  refreshed : List ServerAggregate := []
  unverified : List Uuid := []

/-- One row of a group. -/
def inspectRow (now : ℤ) (infos : List VpsInfo) (found : Inspection) (row : ServerAggregate) :
    ReadProgram Inspection :=
  match snapshotOf infos row with
  | none => return { found with unverified := found.unverified ++ [row.id] }
  | some info => do
    let folded ← applyProviderInfo now row info true
    return { found with refreshed := found.refreshed ++ [folded] }

/-- The inventory of a group's account: `None` when it is not read, empty when the read fails. -/
def inventoryOf (registry : Registry) (group : List ServerAggregate) :
    Result (Option (List VpsInfo)) :=
  match group.head?.bind (contextOf registry) with
  | none => .ok none
  | some context =>
    if !context.authoritativeInventory then .ok none
    else match context.listVpsInfo with
      | .ok infos => .ok (some infos)
      | .error raised => if isProviderError raised.kind then .ok (some []) else .error raised

/-- One group of a page. -/
def inspectGroup (registry : Registry) (now : ℤ) (found : Inspection)
    (group : List ServerAggregate) : ReadProgram Inspection := do
  match ← liftExcept (inventoryOf registry group) with
  | none => return found
  | some infos => group.foldlM (inspectRow now infos) found
where
  /-- A pure step that may raise. -/
  liftExcept {α : Type} (outcome : Result α) : ReadProgram α :=
    ExceptT.mk (pure outcome)

/-- A row as the page shows it. -/
def shown (found : Inspection) (row : ServerAggregate) : ServerItem where
  server := (found.refreshed.find? (·.id = row.id)).getD row
  verified := row.id ∉ found.unverified

/-- The page that is shown when `page` is asked for, and its rows. -/
def pageOf (policy : ServerManagementPolicy) (rows : ServerRows) (now : ℤ) (customerId : Uuid)
    (page : ℤ) : ℕ × List ServerAggregate × ℕ :=
  let hideFailedBefore := now - 3600000000
  let requested := (max 1 page).toNat
  let first := listByUserPaged rows customerId ((requested - 1) * policy.pageSize) policy.pageSize
    hideFailedBefore
  let pages := max 1 ((first.2 + policy.pageSize - 1) / policy.pageSize)
  if requested ≤ pages then (requested, first)
  else (pages, listByUserPaged rows customerId ((pages - 1) * policy.pageSize) policy.pageSize
    hideFailedBefore)

/-- `list_servers`. -/
def listServers (policy : ServerManagementPolicy) (registry : Registry) (now : ℤ)
    (customerId : Uuid) (page : ℤ) : ReadProgram CustomerServerPage := do
  if !policy.enabled then
    return { items := [], page := 1, pageSize := policy.pageSize, total := 0 }
  let (requested, rows, total) := pageOf policy (← get) now customerId page
  let found ← (accountGroups rows).foldlM (inspectGroup registry now) {}
  return {
    items := rows.map (shown found)
    page := requested
    pageSize := policy.pageSize
    total := total }

end CloudPlatform.Servers
