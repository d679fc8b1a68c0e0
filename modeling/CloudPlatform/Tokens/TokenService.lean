import CloudPlatform.Core.Python
import CloudPlatform.Core.Tables
import Mathlib.Data.Finset.Basic

/-!
# API tokens

A bearer token is shown once and kept as its hash. The service reads a row in one transaction and
writes a snapshot of it in a later one; `save` takes from that snapshot only what may still change.
Between the two transactions of a request the others go on.
-/

namespace CloudPlatform.Tokens

open Rows

/-! ### The domain -/

inductive TokenScope
  | catalogRead
  | walletRead
  | serversRead
  | serversWrite
  | sshKeysRead
  | sshKeysWrite
  | tokensManage
  | adminRead
  | adminWrite

def maxNameLength : ℕ := 64

/-- The metadata of a token. -/
structure ApiToken where
  id : Uuid
  userId : Uuid
  name : String
  tokenHash : String
  tokenPrefix : String
  scopes : Finset TokenScope
  createdAt : Option ℤ := none
  revokedAt : Option ℤ := none
  lastUsedAt : Option ℤ := none

/-- `ApiToken.__post_init__`: the token with its name stripped. -/
def ApiToken.checked (token : ApiToken) : Result ApiToken := do
  let name := strip token.name
  rejectIf (name = "") .valueError "token name must not be empty"
  rejectIf (maxNameLength < name.length) .valueError
    s!"token name longer than {maxNameLength} characters"
  return { token with name := name }

/-- What a valid token proves about a request. -/
structure TokenAuthentication where
  userId : Uuid
  scopes : Finset TokenScope
  tokenId : Uuid

/-! ### The repository -/

abbrev TokenRows := Table fun token : ApiToken ↦ token.id

/-- `add`, under the unique constraints of the id, the hash and the owner's names. -/
def add (rows : TokenRows) (token : ApiToken) : Result TokenRows :=
  if (rows.get token.id).isSome || rows.rows.any (fun row ↦ row.tokenHash = token.tokenHash ||
      (row.userId = token.userId && row.name = token.name)) then
    raise .integrityError "duplicate key value violates unique constraint"
  else .ok (rows.put token)

/-- `get_by_hash`; the hash column is unique. -/
def getByHash (rows : TokenRows) (tokenHash : String) : Option ApiToken :=
  rows.rows.find? (·.tokenHash = tokenHash)

/-- `list_for_user`, without its order. -/
def listForUser (rows : TokenRows) (userId : Uuid) : List ApiToken :=
  rows.rows.filter (·.userId = userId)

/-- The later of the stored use and that of a snapshot. -/
def laterUse (stored snapshot : Option ℤ) : Option ℤ :=
  match stored, snapshot with
  | some last, some used => if last < used then some used else some last
  | none, some used => some used
  | last, none => last

/-- The locked row after `save` of a snapshot. -/
def ApiToken.absorb (row snapshot : ApiToken) : ApiToken :=
  if row.revokedAt = none then
    { row with
      revokedAt := snapshot.revokedAt
      lastUsedAt := laterUse row.lastUsedAt snapshot.lastUsedAt }
  else row

/-- `save`: usage and revocation advance, nothing else is written. -/
def save (rows : TokenRows) (snapshot : ApiToken) : Result (TokenRows × ApiToken) :=
  match rows.get snapshot.id with
  | none => raise .tokenNotFound s!"token {snapshot.id.text} not found"
  | some row => .ok (rows.put (row.absorb snapshot), row.absorb snapshot)

/-! ### The service -/

inductive TokenRequest
  | create (actorUserId ownerUserId : Uuid) (name : String) (scopes : Finset TokenScope)
  | authenticate (rawToken : String)
  | listTokens (actorUserId ownerUserId : Uuid)
  | revoke (actorUserId tokenId : Uuid)

/-- What a request returns. -/
inductive TokenReply
  | created (token : ApiToken) (raw : String)
  | authenticated (authentication : TokenAuthentication)
  | listed (tokens : List ApiToken)
  | revoked (token : ApiToken)

/-- A request after its first transaction: at its second one, with what it has read, or done. -/
inductive TokenPhase
  | adding
  | stamping (record : ApiToken)
  | revoking (token : ApiToken)
  | finished (outcome : Result TokenReply)

structure TokenCall where
  request : TokenRequest
  phase : TokenPhase

def invalid {α : Type} : Result α :=
  raise .invalidToken "invalid or revoked token"

/-- The service's settings: the hash, and the limit of tokens for each user. -/
structure TokenSettings where
  hashToken : String → String
  maxTokensPerUser : ℕ := 10

variable (settings : TokenSettings)

/-- `create` up to its insert. -/
def startCreate (rows : TokenRows) (actorUserId ownerUserId : Uuid) (name : String) : TokenPhase :=
  if actorUserId ≠ ownerUserId then .finished (raise .tokenNotFound "manage your own tokens")
  else
    let existing := listForUser rows ownerUserId
    if settings.maxTokensPerUser ≤ existing.length then
      .finished (raise .tokenLimit s!"at most {settings.maxTokensPerUser} tokens per user")
    else if existing.any (·.name = strip name) then
      .finished (raise .duplicateTokenName s!"name '{name}' already registered")
    else .adding

/-- `authenticate` up to its save. -/
def startAuthenticate (rows : TokenRows) (rawToken : String) : TokenPhase :=
  if "cpt_".toList.isPrefixOf rawToken.toList = false then .finished invalid
  else
    match getByHash rows (settings.hashToken rawToken) with
    | none => .finished invalid
    | some record => if record.revokedAt.isSome then .finished invalid else .stamping record

/-- `list_tokens`. -/
def listTokens (rows : TokenRows) (actorUserId ownerUserId : Uuid) : Result TokenReply :=
  if actorUserId ≠ ownerUserId then raise .tokenNotFound "list your own tokens"
  else .ok (.listed (listForUser rows ownerUserId))

/-- `revoke` up to its save. -/
def startRevoke (rows : TokenRows) (actorUserId tokenId : Uuid) : TokenPhase :=
  match rows.get tokenId with
  | none => .finished (raise .tokenNotFound s!"token {tokenId.text} not found")
  | some token =>
    if token.userId ≠ actorUserId then
      .finished (raise .tokenNotFound s!"token {tokenId.text} not found")
    else if token.revokedAt.isSome then .finished (.ok (.revoked token))
    else .revoking token

/-- The first transaction of a request. -/
def start (rows : TokenRows) : TokenRequest → TokenPhase
  | .create actorUserId ownerUserId name _ => startCreate settings rows actorUserId ownerUserId name
  | .authenticate rawToken => startAuthenticate settings rows rawToken
  | .listTokens actorUserId ownerUserId => .finished (listTokens rows actorUserId ownerUserId)
  | .revoke actorUserId tokenId => startRevoke rows actorUserId tokenId

/-- The token that `create` registers. -/
def newToken (ownerUserId : Uuid) (name : String) (scopes : Finset TokenScope) (id : Uuid)
    (secret : String) (now : ℤ) : Result ApiToken :=
  let raw := "cpt_" ++ secret
  ApiToken.checked {
    id := id
    userId := ownerUserId
    name := name
    tokenHash := settings.hashToken raw
    tokenPrefix := String.ofList (raw.toList.take 10)
    scopes := scopes
    createdAt := some now }

/-- The insert of `create`, with the id and the secret that were drawn. -/
def finishCreate (rows : TokenRows) (ownerUserId : Uuid) (name : String)
    (scopes : Finset TokenScope) (id : Uuid) (secret : String) (now : ℤ) :
    TokenRows × Result TokenReply :=
  match newToken settings ownerUserId name scopes id secret now with
  | .error raised => (rows, .error raised)
  | .ok token =>
    match add rows token with
    | .error raised => (rows, .error raised)
    | .ok after => (after, .ok (.created token ("cpt_" ++ secret)))

/-- The save of `authenticate`. -/
def finishAuthenticate (rows : TokenRows) (record : ApiToken) (now : ℤ) :
    TokenRows × Result TokenReply :=
  match save rows { record with lastUsedAt := some now } with
  | .error raised => (rows, if raised.kind = .tokenNotFound then invalid else .error raised)
  | .ok (after, saved) =>
    (after, if saved.revokedAt.isSome then invalid
      else .ok (.authenticated ⟨saved.userId, saved.scopes, saved.id⟩))

/-- The save of `revoke`. -/
def finishRevoke (rows : TokenRows) (token : ApiToken) (now : ℤ) : TokenRows × Result TokenReply :=
  match save rows { token with revokedAt := some now } with
  | .error raised => (rows, .error raised)
  | .ok (after, saved) => (after, .ok (.revoked saved))

/-! ### The system -/

/-- The rows, the requests, and what each token's plaintext was when it was shown. -/
structure TokenWorld where
  rows : TokenRows := ⟨[], List.nodup_nil⟩
  calls : List TokenCall := []
  shown : List (Uuid × String) := []

/-- A request arrives and makes its first transaction, or makes its second one with what the clock
and the generators give it. -/
inductive TokenEvent
  | arrive (request : TokenRequest)
  | proceed (call : ℕ) (now : ℤ) (id : Uuid) (secret : String)

namespace TokenWorld

/-- The second transaction of a request. -/
def finish (rows : TokenRows) (call : TokenCall) (now : ℤ) (id : Uuid) (secret : String) :
    TokenRows × Option (Result TokenReply) :=
  match call.phase, call.request with
  | .adding, .create _ ownerUserId name scopes =>
    let done := finishCreate settings rows ownerUserId name scopes id secret now
    (done.1, some done.2)
  | .stamping record, _ =>
    let done := finishAuthenticate rows record now
    (done.1, some done.2)
  | .revoking token, _ =>
    let done := finishRevoke rows token now
    (done.1, some done.2)
  | _, _ => (rows, none)

/-- The plaintext that a reply shows. -/
def shownBy : Option (Result TokenReply) → List (Uuid × String)
  | some (.ok (.created token raw)) => [(token.id, raw)]
  | _ => []

/-- One event. -/
def step (world : TokenWorld) : TokenEvent → TokenWorld
  | .arrive request =>
    { world with calls := world.calls ++ [⟨request, start settings world.rows request⟩] }
  | .proceed index now id secret =>
    match world.calls[index]? with
    | none => world
    | some call =>
      let done := finish settings world.rows call now id secret
      match done.2 with
      | none => world
      | some outcome =>
        { rows := done.1
          calls := world.calls.set index ⟨call.request, .finished outcome⟩
          shown := shownBy done.2 ++ world.shown }

end TokenWorld

end CloudPlatform.Tokens
