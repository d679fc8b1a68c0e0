import CloudPlatform.Billing.Domain
import CloudPlatform.Core.Json
import CloudPlatform.Core.JsonText
import CloudPlatform.Navigation.Callbacks

/-!
# Confirmation tokens

A destructive operation needs a token that was issued for it: signed, bound to the customer, the
server, the operation and a digest of the arguments, good until an instant, and good once. `verify`
is all that happens before the store of used nonces is asked; the store is the memory of one
process, or is shared and reached over the network, so its answer comes later.
-/

namespace CloudPlatform.Servers

open Billing (addSeconds)
open Calendar (second)
open Navigation (splitFields)

/-! ### What is confirmed -/

inductive ServerOperation
  | view | refresh | start | stop | reboot | console | traffic
  | snapshotList | snapshotCreate | snapshotRestore | snapshotDelete
  | reinstall | delete | passwordReset
  | ipList | ipSetRdns | ipNullRoute | ipUnnullRoute
  | isoList | isoAttach | isoDetach
  | monitoring | monitoringEnable | rename | renewNow | autoRenew
  deriving DecidableEq

namespace ServerOperation

def value : ServerOperation → String
  | view => "view"
  | refresh => "refresh"
  | start => "start"
  | stop => "stop"
  | reboot => "reboot"
  | console => "console"
  | traffic => "traffic"
  | snapshotList => "snapshot_list"
  | snapshotCreate => "snapshot_create"
  | snapshotRestore => "snapshot_restore"
  | snapshotDelete => "snapshot_delete"
  | reinstall => "reinstall"
  | delete => "delete"
  | passwordReset => "password_reset"
  | ipList => "ip_list"
  | ipSetRdns => "ip_set_rdns"
  | ipNullRoute => "ip_null_route"
  | ipUnnullRoute => "ip_unnull_route"
  | isoList => "iso_list"
  | isoAttach => "iso_attach"
  | isoDetach => "iso_detach"
  | monitoring => "monitoring"
  | monitoringEnable => "monitoring_enable"
  | rename => "rename"
  | renewNow => "renew_now"
  | autoRenew => "auto_renew"

def all : List ServerOperation :=
  [view, refresh, start, stop, reboot, console, traffic, snapshotList, snapshotCreate,
    snapshotRestore, snapshotDelete, reinstall, delete, passwordReset, ipList, ipSetRdns,
    ipNullRoute, ipUnnullRoute, isoList, isoAttach, isoDetach, monitoring, monitoringEnable, rename,
    renewNow, autoRenew]

/-- `ServerOperation(text)`. -/
def ofText (text : String) : Result ServerOperation :=
  match all.find? (·.value = text) with
  | some operation => .ok operation
  | none => raise .valueError s!"'{text}' is not a valid ServerOperation"

@[simp] theorem ofText_value (operation : ServerOperation) :
    ofText operation.value = .ok operation := by
  cases operation <;> decide +kernel

end ServerOperation

/-- The value of an argument; another object than a text is known by `str` of it. -/
inductive ArgumentValue
  | null
  | text (value : String)
  | other (str : String)

/-- `str(value)` of a value that is neither `None` nor empty. -/
def ArgumentValue.kept : ArgumentValue → Option String
  | null => none
  | text value => if value ≠ "" then some value else none
  | other str => some str

/-- The arguments of an operation. -/
abbrev Arguments := Option (List (String × ArgumentValue))

/-- The arguments as they are digested: by key, stringified, without the empty ones. -/
def normalized (arguments : Arguments) : List (String × String) :=
  ((arguments.getD []).mergeSort (·.1 ≤ ·.1)).filterMap fun entry ↦
    entry.2.kept.map (entry.1, ·)

/-- What a confirmation is bound to. -/
structure ConfirmationBinding where
  customerId : Uuid
  serverId : Uuid
  operation : ServerOperation
  arguments : Arguments := none

/-- The canonical JSON of an operation and its arguments. -/
def argumentsText (operation : ServerOperation) (arguments : Arguments) : String :=
  String.ofList (JsonText.object [
    ("args", '\x7b' :: JsonText.textMembers (normalized arguments) ++ ['\x7d']),
    ("op", JsonText.quoted operation.value)])

/-! ### Tokens -/

/-- What `json.loads` makes of a document: an object, or another value. -/
inductive LoadedJson
  | object (fields : JsonObject)
  | other

/-- What the verifier takes from the libraries: the hexadecimal HMAC-SHA256 of a message under a
key, the hexadecimal SHA-256 of a text, and `json.loads` of UTF-8 bytes, `none` where it raises
`ValueError`. -/
structure Primitives where
  hmac : String → String → String
  sha256 : String → String
  loads : List ℕ → Option LoadedJson

/-- The verifier with its settings, as its constructor accepts them. -/
structure ConfirmationVerifier extends Primitives where
  signingKey : String
  ttlSeconds : ℤ := 900
  key_ne : signingKey ≠ ""
  ttl_ge : 30 ≤ ttlSeconds

/-- An issued token. -/
structure ConfirmationToken where
  token : String
  nonce : String
  expiresAt : ℤ

inductive ConfirmationStatus
  | ok
  | expired
  | replayed
  | mismatch
  | invalid
  | unavailable
  deriving DecidableEq

structure ConfirmationResult where
  status : ConfirmationStatus
  binding : Option ConfirmationBinding := none

/-- `text.isascii()`. -/
def isAscii (text : String) : Bool :=
  text.toList.all (·.toNat < 128)

/-- `hmac.compare_digest` of two strings. -/
def compareDigest (first second : String) : Result Bool :=
  if isAscii first && isAscii second then .ok (first = second)
  else raise .typeError "comparing strings with non-ASCII characters is not supported"

/-- `int(value)` of what JSON can hold. -/
def intOf : JsonValue → Result ℤ
  | .number value => .ok value
  | .flag value => .ok (if value then 1 else 0)
  | .text value =>
    match Decimals.parseInt value with
    | some number => .ok number
    | none => raise .valueError s!"invalid literal for int() with base 10: '{value}'"
  | .float written =>
    match Decimals.parseDecimal written with
    | some (.number value) => .ok (Int.tdiv value.toRat.num value.toRat.den)
    | _ => raise .valueError "cannot convert float NaN to integer"
  | _ => raise .typeError "int() argument must be a string, a bytes-like object or a real number"

/-- `datetime.fromtimestamp(seconds, tz=UTC)`. -/
def fromTimestamp (seconds : ℤ) : Result ℤ :=
  if seconds < -2 ^ 63 ∨ 2 ^ 63 ≤ seconds then
    raise .overflowError "timestamp out of range for platform time_t"
  else if Calendar.InRange (seconds * second) then .ok (seconds * second)
  else raise .valueError s!"year is out of range for {seconds}"

/-- `payload[key]`. -/
def item (payload : JsonObject) (key : String) : Result JsonValue :=
  match payload.get key with
  | some value => .ok value
  | none => raise .keyError s!"'{key}'"

/-- `str(payload.get(key, ""))`. -/
def textItem (payload : JsonObject) (key : String) : String :=
  ((payload.get key).map (·.str)).getD ""

/-- `UUID(text)`. -/
def uuidOf (text : String) : Result Uuid :=
  match Uuid.parse text with
  | some uuid => .ok uuid
  | none => raise .valueError "badly formed hexadecimal UUID string"

/-- The expiry that a payload carries and the binding that it names, its arguments apart. -/
def recordedOf (payload : JsonObject) : Result (ℤ × ConfirmationBinding) := do
  let seconds ← item payload "e" >>= intOf
  let expiresAt ← fromTimestamp seconds
  let customerId ← item payload "c" >>= fun value ↦ uuidOf value.str
  let serverId ← item payload "s" >>= fun value ↦ uuidOf value.str
  let operation ← item payload "o" >>= fun value ↦ ServerOperation.ofText value.str
  return (expiresAt, ⟨customerId, serverId, operation, none⟩)

/-- A call of `consume`: the presented text, what it is presented for, and the instant. -/
structure ConfirmationRequest where
  token : String
  binding : ConfirmationBinding
  moment : ℤ

/-- A token that is about to be marked used. -/
structure NonceClaim where
  nonce : String
  expiresAt : ℤ
  recorded : ConfirmationBinding

/-- What a request comes to before the store is asked. -/
inductive Verdict
  | answered (result : ConfirmationResult)
  | claims (claim : NonceClaim)

namespace ConfirmationVerifier

variable (verifier : ConfirmationVerifier)

/-- `ConfirmationBinding.digest`. -/
def digest (binding : ConfirmationBinding) : String :=
  verifier.sha256 (argumentsText binding.operation binding.arguments)

/-- `_sign`. -/
def sign (body : String) : Result String :=
  if isAscii body then
    .ok (String.ofList ((verifier.hmac verifier.signingKey body).toList.take 16))
  else raise .unicodeEncodeError "'ascii' codec can't encode characters: ordinal not in range(128)"

/-- The payload of a token. -/
def payloadFields (binding : ConfirmationBinding) (expiresAt : ℤ) (nonce : String) : JsonObject :=
  [("c", .text binding.customerId.text), ("d", .text (verifier.digest binding)),
    ("e", .number (Int.tdiv expiresAt second)), ("n", .text nonce),
    ("o", .text binding.operation.value), ("s", .text binding.serverId.text)]

/-- `json.dumps` of a value of the payload. -/
def valueText : JsonValue → List Char
  | .number value => (Decimals.intText value).toList
  | value => JsonText.quoted value.str

/-- The payload as it is written. -/
def payloadText (binding : ConfirmationBinding) (expiresAt : ℤ) (nonce : String) : List Char :=
  JsonText.object ((verifier.payloadFields binding expiresAt nonce).map fun field ↦
    (field.1, valueText field.2))

/-- The body of a token: the base64 of its payload, which is ASCII. -/
def bodyOf (binding : ConfirmationBinding) (expiresAt : ℤ) (nonce : String) : String :=
  String.ofList (Base64.unpadded ((verifier.payloadText binding expiresAt nonce).map Char.toNat))

/-- `issue`, with the nonce that was drawn. -/
def issue (binding : ConfirmationBinding) (moment : ℤ) (nonce : String) :
    Result ConfirmationToken := do
  let expiresAt ← addSeconds moment verifier.ttlSeconds
  let body := verifier.bodyOf binding expiresAt nonce
  let signature ← verifier.sign body
  return ⟨"v1." ++ body ++ "." ++ signature, nonce, expiresAt⟩

/-- The payload behind a body whose signature is good. -/
def loadBody (body : String) : Option JsonObject :=
  match (Base64.decode (Base64.padded body.toList)).bind verifier.loads with
  | some (.object fields) => some fields
  | _ => none

/-- `_payload`. -/
def payload (token : String) : Result (Option JsonObject) :=
  match splitFields '.' token with
  | [version, body, signature] =>
    if version ≠ "v1" then .ok none
    else do
      let expected ← verifier.sign body
      let signed ← compareDigest signature expected
      return if signed then verifier.loadBody body else none
  | _ => .ok none

/-- The binding that a payload names is compared with the one that is asked for. -/
def judge (payload : JsonObject) (expiresAt : ℤ) (recorded : ConfirmationBinding)
    (request : ConfirmationRequest) : Result Verdict := do
  if expiresAt ≤ request.moment then
    .ok (.answered ⟨.expired, some recorded⟩)
  else do
    let same ← compareDigest (textItem payload "d") (verifier.digest request.binding)
    return if !same || recorded.customerId ≠ request.binding.customerId ||
        recorded.serverId ≠ request.binding.serverId ||
        recorded.operation ≠ request.binding.operation then
      .answered ⟨.mismatch, some recorded⟩
    else if textItem payload "n" = "" then .answered ⟨.invalid, some recorded⟩
    else .claims ⟨textItem payload "n", expiresAt, recorded⟩

/-- `consume`, up to the call of the store. -/
def verify (request : ConfirmationRequest) : Result Verdict := do
  match ← verifier.payload request.token with
  | none => return .answered ⟨.invalid, none⟩
  | some payload =>
    match recordedOf payload with
    | .error raised =>
      if raised.kind ∈ [ErrorKind.keyError, .typeError, .valueError] then
        return .answered ⟨.invalid, none⟩
      else throw raised
    | .ok (expiresAt, recorded) => verifier.judge payload expiresAt recorded request

end ConfirmationVerifier

/-! ### The stores -/

/-- The nonces that one process remembers, with the expiries of their tokens. -/
structure InMemoryConfirmationStore where
  maxEntries : ℕ
  consumed : List (String × ℤ) := []

namespace InMemoryConfirmationStore

/-- `_sweep`. -/
def sweep (store : InMemoryConfirmationStore) (now : ℤ) : InMemoryConfirmationStore :=
  if store.consumed.length < store.maxEntries then store
  else { store with consumed := store.consumed.filter (now < ·.2) }

/-- `consume`. -/
def consume (store : InMemoryConfirmationStore) (nonce : String) (expiresAt now : ℤ) :
    Bool × InMemoryConfirmationStore :=
  let swept := store.sweep now
  if (swept.consumed.lookup nonce).isSome then (false, swept)
  else (true, { swept with consumed := swept.consumed ++ [(nonce, expiresAt)] })

end InMemoryConfirmationStore

/-- The markers in the shared store, with the instants at which they lapse. -/
structure SharedConfirmationStore where
  replayTtl : ℤ
  positive : 0 < replayTtl
  markers : List (String × ℤ) := []

namespace SharedConfirmationStore

/-- The lifetime of the marker that a consumption asks for. -/
def ttl (store : SharedConfirmationStore) (expiresAt now : ℤ) : ℤ :=
  max (Int.tdiv (expiresAt - now) second) store.replayTtl

/-- Whether the marker of a nonce is there. -/
def Holds (store : SharedConfirmationStore) (nonce : String) (instant : ℤ) : Prop :=
  ∃ deadline, store.markers.lookup nonce = some deadline ∧ instant < deadline

instance decidableHolds (store : SharedConfirmationStore) (nonce : String) (instant : ℤ) :
    Decidable (store.Holds nonce instant) :=
  match h : store.markers.lookup nonce with
  | none => .isFalse fun ⟨_, hdeadline, _⟩ ↦ nomatch h.symm.trans hdeadline
  | some deadline =>
    if hlive : instant < deadline then .isTrue ⟨deadline, h, hlive⟩
    else .isFalse fun ⟨_, hdeadline, hlt⟩ ↦ hlive (Option.some.inj (h.symm.trans hdeadline) ▸ hlt)

/-- `claim`: the marker is set only if it is absent. -/
def claim (store : SharedConfirmationStore) (nonce : String) (ttlSeconds instant : ℤ) :
    Bool × SharedConfirmationStore :=
  if store.Holds nonce instant then (false, store)
  else (true, { store with
    markers := (nonce, instant + ttlSeconds * second) :: store.markers.filter (·.1 ≠ nonce) })

end SharedConfirmationStore

inductive ConfirmationStore
  | inMemory (store : InMemoryConfirmationStore)
  | shared (store : SharedConfirmationStore)

/-! ### Calls in flight -/

/-- How far a call is. -/
inductive ConsumePhase
  | waiting (claim : NonceClaim) (ttlSeconds : ℤ)
  | finished (outcome : Result ConfirmationResult)

structure Consumption where
  request : ConfirmationRequest
  phase : ConsumePhase

/-- The clock, the store and the calls that were made. -/
structure ConfirmationDesk where
  now : ℤ
  store : ConfirmationStore
  calls : List Consumption := []

/-- Time passes, a token is presented, or the store answers a call: `outage` is a failure of the
store, and whether the marker was set before it. -/
inductive ConfirmationEvent
  | elapse (microseconds : ℕ)
  | present (token : String) (binding : ConfirmationBinding)
  | answer (call : ℕ) (outage : Option Bool)

/-- The result of a call that has the answer of the store. -/
def storeResult (request : ConfirmationRequest) (claim : NonceClaim) (won : Bool) :
    ConfirmationResult :=
  if won then ⟨.ok, some { claim.recorded with arguments := request.binding.arguments }⟩
  else ⟨.replayed, some claim.recorded⟩

namespace ConfirmationDesk

/-- A call that is recorded. -/
def record (desk : ConfirmationDesk) (request : ConfirmationRequest) (phase : ConsumePhase) :
    ConfirmationDesk :=
  { desk with calls := desk.calls ++ [⟨request, phase⟩] }

/-- `consume` is called. The store of the process answers within the same turn of the event loop. -/
def present (verifier : ConfirmationVerifier) (desk : ConfirmationDesk)
    (request : ConfirmationRequest) : ConfirmationDesk :=
  match verifier.verify request with
  | .error raised => desk.record request (.finished (.error raised))
  | .ok (.answered result) => desk.record request (.finished (.ok result))
  | .ok (.claims claim) =>
    match desk.store with
    | .inMemory store =>
      let consumed := store.consume claim.nonce claim.expiresAt request.moment
      { desk with store := .inMemory consumed.2 }.record request
        (.finished (.ok (storeResult request claim consumed.1)))
    | .shared store =>
      let ttlSeconds := store.ttl claim.expiresAt request.moment
      if ttlSeconds ≤ 0 then
        desk.record request (.finished (raise .valueError "ttl_seconds must be positive"))
      else desk.record request (.waiting claim ttlSeconds)

/-- The call of a position comes to its result. -/
def finish (desk : ConfirmationDesk) (call : ℕ) (request : ConfirmationRequest)
    (result : ConfirmationResult) : ConfirmationDesk :=
  { desk with calls := desk.calls.set call ⟨request, .finished (.ok result)⟩ }

/-- The shared store answers a call that waits for it. -/
def answer (desk : ConfirmationDesk) (call : ℕ) (outage : Option Bool) : ConfirmationDesk :=
  match desk.store, desk.calls[call]? with
  | .shared store, some ⟨request, .waiting claim ttlSeconds⟩ =>
    let claimed := store.claim claim.nonce ttlSeconds desk.now
    match outage with
    | none =>
      { desk with store := .shared claimed.2 }.finish call request
        (storeResult request claim claimed.1)
    | some landed =>
      { desk with store := .shared (if landed then claimed.2 else store) }.finish call request
        ⟨.unavailable, some claim.recorded⟩
  | _, _ => desk

/-- One event. -/
def step (verifier : ConfirmationVerifier) (desk : ConfirmationDesk) :
    ConfirmationEvent → ConfirmationDesk
  | .elapse microseconds => { desk with now := desk.now + microseconds }
  | .present token binding => desk.present verifier ⟨token, binding, desk.now⟩
  | .answer call outage => desk.answer call outage

end ConfirmationDesk

end CloudPlatform.Servers
