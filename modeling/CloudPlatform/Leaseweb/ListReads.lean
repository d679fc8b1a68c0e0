import CloudPlatform.Leaseweb.ProductPrices

/-!
# List reads

The readers of the provider's lists. The two readers of the ordering adapter go on until they have as
many rows as the total count says; the census goes on to the total count or to a short page, within a
bound of pages; the typed iterator goes on while the metadata of a page says that there is more; and the
lookup of a reference reads one page of a region.
-/

namespace CloudPlatform.Leaseweb

open Operations (ProviderServerState normalizeProviderStatus)
open Servers (upperText)
open Transition

/-! ### Envelopes -/

/-- The `_metadata` of an answer; of what is no mapping, the name of its type. -/
inductive Envelope
  | absent
  | mapping (fields : JsonObject)
  | other (typeName : String)

/-- What a list endpoint answers: a bare list, or a mapping with its lists and its `_metadata`. An item
that is no mapping is absent. -/
inductive ListPayload (Row : Type)
  | bare (items : List (Option Row))
  | keyed (lists : List (String × List (Option Row))) (metadata : Envelope)
  | other

namespace ListPayload

variable {Row : Type}

/-- `_as_list(payload, *keys)`. -/
def asList (keys : List String) : ListPayload Row → List (Option Row)
  | .bare items => items
  | .keyed lists _ => (keys.findSome? fun key ↦ lists.lookup key).getD []
  | .other => []

/-- The `_metadata` of an answer, absent from what is no mapping. -/
def metadata : ListPayload Row → Envelope
  | .keyed _ metadata => metadata
  | _ => .absent

end ListPayload

/-- `payload.get("_metadata", {}).get("totalCount")`, if that is an integer, which `True` and `False`
are too. -/
def Envelope.walkTotal : Envelope → Result (Option ℤ)
  | .absent => .ok none
  | .mapping fields =>
    match fields.get "totalCount" with
    | some (.number value) => .ok (some value)
    | some (.flag value) => .ok (some (if value then 1 else 0))
    | _ => .ok none
  | .other typeName => raise .attributeError s!"'{typeName}' object has no attribute 'get'"

/-- The total count of the census: an integer that is no flag, of an envelope that is a mapping. -/
def Envelope.censusTotal : Envelope → Option ℤ
  | .mapping fields =>
    match fields.get "totalCount" with
    | some (.number value) => some (max value 0)
    | _ => none
  | _ => none

/-! ### Rows -/

/-- The text of the first key with a true value, or a fallback. -/
def firstText (mapping : JsonObject) (keys : List String) (fallback : String) : String :=
  match keys.find? mapping.truthOf with
  | some key => textOrEmpty mapping key
  | none => fallback

/-- A server of the ordering family. -/
structure OrderedServer where
  id : String
  name : String
  status : ProviderServerState
  ipv4 : Option String
  ipv6 : Option String
  metadata : JsonObject
  deriving DecidableEq

/-- A row of the VPS list: its fields, its addresses and its contract. -/
structure VpsRow where
  fields : JsonObject := []
  ips : List (Option JsonObject) := []
  contract : JsonObject := []

/-- The addresses after one more entry of a VPS row. -/
def vpsAddress (found : Option String × Option String) (entry : JsonObject) :
    Option String × Option String :=
  let value := textOrEmpty entry "ip"
  let version := textOrEmpty entry "version"
  if '6' ∈ version.toList ∨ ':' ∈ value.toList then (found.1, found.2.or (some value))
  else (found.1.or (some value), found.2)

/-- `_map_vps`. -/
def mapVps (row : VpsRow) : OrderedServer :=
  let rawId := textOrEmpty row.fields "id"
  let addresses := (row.ips.filterMap id).foldl vpsAddress (none, none)
  let state := firstText row.fields ["state"] "unknown"
  let value (key : String) := (row.fields.get key).getD .null
  let contractValue (key : String) := (row.contract.get key).getD .null
  { id := rawId
    name := firstText row.fields ["reference", "pack"] rawId
    status := normalizeProviderStatus (some state)
    ipv4 := addresses.1
    ipv6 := addresses.2
    metadata := [("raw_state", .text state), ("datacenter", value "datacenter"),
      ("region", value "region"), ("pack", value "pack"), ("image", value "image"),
      ("root_disk_gb", value "rootDiskSize"), ("started_at", value "startedAt"),
      ("contract_id", contractValue "id"), ("contract_state", contractValue "state"),
      ("contract_starts_at", contractValue "startsAt"), ("contract_ends_at", contractValue "endsAt"),
      ("contract_type", contractValue "type"), ("contract_term", contractValue "term"),
      ("billing_frequency", contractValue "billingFrequency"), ("sla", contractValue "sla"),
      ("control_panel", contractValue "controlPanel")] }

/-- One hourly instance as the provider reports it. -/
structure CloudInstance where
  id : String
  reference : String
  state : String
  region : String
  ipv4 : Option String := none
  ipv6 : Option String := none
  instanceType : Option String := none
  imageId : Option String := none
  accountId : Option String := none
  deriving DecidableEq

/-- An entry of an instance row that should be a list of addresses. -/
inductive AddressEntry
  | absent
  | listed (entries : List (Option JsonObject))
  | other

/-- `bool(value)`; a false value counts as absent. -/
def AddressEntry.truth : AddressEntry → Bool
  | .absent => false
  | .listed entries => !entries.isEmpty
  | .other => true

/-- The mappings of the list, and none of another value. -/
def AddressEntry.mappings : AddressEntry → List JsonObject
  | .listed entries => entries.filterMap id
  | _ => []

/-- A row of the instance list: its fields and its two possible lists of addresses. -/
structure InstanceRow where
  fields : JsonObject := []
  ipAddresses : AddressEntry := .absent
  ips : AddressEntry := .absent

/-- The addresses after one more entry of an instance row. -/
def instanceAddress (found : Option String × Option String) (entry : JsonObject) :
    Option String × Option String :=
  let address := firstText entry ["ip", "address"] ""
  let version := textOrEmpty entry "version"
  if ':' ∈ address.toList ∧ found.2 = none then (found.1, some address)
  else if address ≠ "" ∧ version = "4" ∧ found.1 = none then (some address, found.2)
  else if address ≠ "" ∧ found.1 = none ∧ ':' ∉ address.toList then (some address, found.2)
  else found

/-- `_optional(*keys)`: the first of the keys with a text that is not blank. -/
def optionalText (mapping : JsonObject) (keys : List String) : Option String :=
  keys.findSome? fun key ↦
    match mapping.get key with
    | some (.text raw) => if strip raw = "" then none else some (strip raw)
    | _ => none

/-- `_parse_instance`. -/
def parseInstance (row : InstanceRow) : Option CloudInstance :=
  let rawId := strip (textOrEmpty row.fields "id")
  if rawId = "" then none
  else
    let ips := if row.ipAddresses.truth then row.ipAddresses else row.ips
    let addresses := ips.mappings.foldl instanceAddress (none, none)
    some {
      id := rawId
      reference := firstText row.fields ["reference", "name"] rawId
      state := firstText row.fields ["state", "status"] "unknown"
      region := textOrEmpty row.fields "region"
      ipv4 := addresses.1
      ipv6 := addresses.2
      instanceType := optionalText row.fields ["instanceType", "instance_type", "type"]
      imageId := optionalText row.fields ["imageId", "image_id", "image"]
      accountId := optionalText row.fields ["accountId", "account_id", "salesOrg", "sales_org"] }

/-- A product of a list, at its own location or at the one that was asked for. -/
def parseListed (intOf : String → Result ℤ) (defaultLocation : String) (row : ProductPayload) :
    Result (Option PricedProduct) :=
  parseProduct intOf row <|
    match row.fields.get "location" with
    | some (.text raw) => if strip raw = "" then defaultLocation else upperText (strip raw)
    | _ => defaultLocation

/-! ### Reads to the total count -/

section Walks

variable {Row α : Type}

/-- The mappings of a page that are parsed to something, in order. -/
def collect (parse : Row → Result (Option α)) (items : List (Option Row)) : Result (List α) := do
  let parsed ← (items.filterMap id).mapM parse
  return parsed.filterMap id

/-- What a read to the total count has so far, and the offset of its next page. -/
structure Walk (α : Type) where
  collected : List α := []
  offset : ℕ := 0

/-- One page of a read to the total count. -/
def walkPage (keys : List String) (parse : Row → Result (Option α))
    (request : ℕ → ℕ → Result (ListPayload Row)) (_ : ℕ) (walk : Walk α) :
    Pass (Walk α) (Result (List α)) :=
  let page := do
    let payload ← request 100 walk.offset
    let parsed ← collect parse (payload.asList keys)
    let total ← payload.metadata.walkTotal
    return ((payload.asList keys).length, walk.collected ++ parsed, total)
  match page with
  | .error raised => .stop (.error raised)
  | .ok (_, collected, none) => .stop (.ok collected)
  | .ok (length, collected, some total) =>
    if total ≤ collected.length ∨ length = 0 then .stop (.ok collected)
    else .again ⟨collected, walk.offset + length⟩

/-- The keys under which the product lists are looked for. -/
def productKeys : List String :=
  ["vpss", "products", "data", "items"]

/-- The keys under which the server lists are looked for. -/
def serverKeys : List String :=
  ["vps", "data", "items"]

/-- `_list_products`, when it ends within so many pages. -/
def listProducts (intOf : String → Result ℤ) (defaultLocation : String)
    (request : ℕ → ℕ → Result (ListPayload ProductPayload)) (pages : ℕ) :
    Option (Result (List PricedProduct)) :=
  loop (walkPage productKeys (parseListed intOf defaultLocation) request) pages 0 {}

/-- `list_servers`, when it ends within so many pages. -/
def listServers (request : ℕ → ℕ → Result (ListPayload VpsRow)) (pages : ℕ) :
    Option (Result (List OrderedServer)) :=
  loop (walkPage serverKeys (fun row ↦ .ok (some (mapVps row))) request) pages 0 {}

end Walks

/-! ### The census -/

def inventoryPageSize : ℕ := 100

def inventoryMaxPages : ℕ := 50

/-- `CloudInstancesRead`. -/
structure CloudInstancesRead where
  instances : List CloudInstance := []
  rawItems : ℕ := 0
  totalCount : Option ℤ := none
  complete : Bool := true

/-- The keys under which the instance lists are looked for. -/
def instanceKeys : List String :=
  ["instances", "data", "items"]

/-- `read_all_instances` from one page on, with so many pages to go. -/
def readInstancePages (request : ℕ → ℕ → Result (ListPayload InstanceRow)) :
    ℕ → CloudInstancesRead → ℕ → Result CloudInstancesRead
  | 0, read, _ => .ok read
  | pages + 1, read, offset => do
    let payload ← request inventoryPageSize offset
    let items := (payload.asList instanceKeys).filterMap id
    let totalCount := payload.metadata.censusTotal.or read.totalCount
    if items.isEmpty then return { read with totalCount := totalCount, complete := true }
    let next : CloudInstancesRead :=
      { instances := read.instances ++ items.filterMap parseInstance
        rawItems := read.rawItems + items.length
        totalCount := totalCount
        complete := false }
    match totalCount with
    | some total =>
      if total ≤ next.rawItems then return { next with complete := true }
      else readInstancePages request pages next (offset + items.length)
    | none =>
      -- Without a total count a short page ends the list.
      if items.length < inventoryPageSize then return { next with complete := true }
      else readInstancePages request pages next (offset + items.length)

/-- `read_all_instances`. -/
def readAllInstances (request : ℕ → ℕ → Result (ListPayload InstanceRow)) :
    Result CloudInstancesRead :=
  readInstancePages request inventoryMaxPages { complete := false } 0

/-! ### One region -/

/-- `list_instances`, from the list of a region. -/
def listInstances (request : ℕ → ℕ → Result (ListPayload InstanceRow)) :
    Result (List CloudInstance) := do
  let payload ← request 100 0
  return ((payload.asList instanceKeys).filterMap id).filterMap parseInstance

/-- `find_by_reference`, in the list of a region. -/
def findByReference (request : ℕ → ℕ → Result (ListPayload InstanceRow)) (reference : String) :
    Result (Option CloudInstance) :=
  match listInstances request with
  | .ok instances => .ok (instances.find? (·.reference = reference))
  | .error raised => if raised.kind = .providerNotFound then .ok none else .error raised

/-! ### Typed pages -/

/-- `PaginationMetadata`. -/
structure PaginationMetadata where
  totalCount : ℤ := 0
  offset : ℤ := 0
  limit : ℤ := 0

/-- `has_more(page_size=...)`. -/
def PaginationMetadata.hasMore (metadata : PaginationMetadata) (pageSize : ℤ) : Bool :=
  metadata.offset + pageSize < metadata.totalCount

/-- `LeasewebPage`. -/
structure LeasewebPage (α : Type) where
  items : List α := []
  metadata : Option PaginationMetadata := none

/-- `has_more` of a page. -/
def LeasewebPage.hasMore {α : Type} (page : LeasewebPage α) : Bool :=
  match page.metadata with
  | none => false
  | some metadata =>
    metadata.hasMore (if metadata.limit = 0 then page.items.length else metadata.limit)

section Pages

variable {α : Type}

/-- `paginate`, the rows in the order in which they are yielded. -/
def paginate (fetch : ℕ → ℕ → Result (LeasewebPage α)) (pageSize : ℕ) : ℕ → ℕ → Result (List α)
  | 0, _ => .ok []
  | maxPages + 1, offset => do
    let page ← fetch pageSize offset
    if page.items.isEmpty then return []
    else if page.hasMore then
      let rest ← paginate fetch pageSize maxPages (offset + page.items.length)
      return page.items ++ rest
    else return page.items

/-- `collect_pages`. -/
def collectPages (fetch : ℕ → ℕ → Result (LeasewebPage α)) (pageSize : ℕ := 100)
    (startOffset : ℕ := 0) (maxPages : ℕ := 50) : Result (List α) :=
  paginate fetch pageSize maxPages startOffset

end Pages

end CloudPlatform.Leaseweb
