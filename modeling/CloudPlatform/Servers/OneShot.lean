import CloudPlatform.Servers.Confirmations
import CloudPlatform.Transition.Run

/-!
# A confirmation authorises once

Calls of `consume` on issued tokens, interleaved over one store. A token names one nonce and one
expiry whoever presents it (`claims_unique`), so the store decides. The store of a process forgets a
nonce only after its token has expired. The shared store keeps a marker for the whole seconds that
were left, or for the replay window if that is longer, from the instant of the claim: a claim that
arrives after that authorises again. And a text with characters outside ASCII is not answered at
all. `authorises_iff` says that nothing else goes wrong.
-/

namespace CloudPlatform.Servers

open Calendar (second)
open Navigation (splitFields)
open Transition

/-! ### What is trusted -/

/-- A token that was issued. -/
structure IssuedToken (verifier : ConfirmationVerifier) where
  binding : ConfirmationBinding
  moment : ℤ
  nonce : String
  token : ConfirmationToken
  nonce_ne : nonce ≠ ""
  accepted : verifier.issue binding moment nonce = .ok token

namespace IssuedToken

variable {verifier : ConfirmationVerifier} (issued : IssuedToken verifier)

def fields : JsonObject :=
  verifier.payloadFields issued.binding issued.token.expiresAt issued.nonce

def body : String :=
  verifier.bodyOf issued.binding issued.token.expiresAt issued.nonce

/-- The expiry that the token carries: whole seconds. -/
def expiry : ℤ :=
  Int.tdiv issued.token.expiresAt second * second

end IssuedToken

/-- The assumptions on the libraries: digests are hexadecimal, the hash has no collisions, and JSON
reads back the payloads that were written. -/
structure Primitives.Lawful (verifier : ConfirmationVerifier)
    (issued : List (IssuedToken verifier)) : Prop where
  injective : Function.Injective verifier.sha256
  hash : ∀ text, isAscii (verifier.sha256 text) = true
  hmac : ∀ key message, ∀ c ∈ (verifier.hmac key message).toList, isHexDigit c = true
  reads : ∀ token ∈ issued,
    verifier.loads ((verifier.payloadText token.binding token.token.expiresAt token.nonce).map
      Char.toNat) = some (.object token.fields)

/-- Nobody forges the signature: a text that carries a good one has the body of an issued token. -/
def Unforged (verifier : ConfirmationVerifier) (issued : List (IssuedToken verifier))
    (token : String) : Prop :=
  ∀ body signature, splitFields '.' token = ["v1", body, signature] →
    verifier.sign body = .ok signature → ∃ original ∈ issued, original.body = body

/-! ### Reading tokens -/

section Reading

variable {verifier : ConfirmationVerifier} {issued : List (IssuedToken verifier)}

theorem isAscii_iff {text : String} : isAscii text = true ↔ JsonText.Ascii text.toList := by
  simp [isAscii, JsonText.Ascii]

/-- A signature is hexadecimal. -/
theorem signature_eq_ok (hlawful : Primitives.Lawful verifier issued) {body signature : String}
    (h : verifier.sign body = .ok signature) : ∀ c ∈ signature.toList, isHexDigit c = true := by
  unfold ConfirmationVerifier.sign at h
  split at h
  · rw [← Except.ok.inj h, String.toList_ofList]
    exact fun c hc ↦ hlawful.hmac _ _ c (List.mem_of_mem_take hc)
  · cases h

theorem isAscii_of_hex {text : String} (h : ∀ c ∈ text.toList, isHexDigit c = true) :
    isAscii text = true := by
  rw [isAscii_iff]
  exact fun c hc ↦ Navigation.toNat_lt_of_isHexDigit (h c hc)

theorem isAscii_intText (value : ℤ) : isAscii (Decimals.intText value) = true := by
  have hdigit : ∀ digit < 10, (Nat.digitChar digit).toNat < 128 := by decide
  have hsign : JsonText.Ascii (if value < 0 then ['-'] else []) := by
    by_cases h : value < 0
    · rw [if_pos h]
      exact JsonText.ascii_of_all (by decide)
    · rw [if_neg h]
      exact fun c hc ↦ absurd hc List.not_mem_nil
  rw [isAscii_iff, Decimals.intText, String.toList_ofList]
  refine JsonText.ascii_append hsign fun c hc ↦ ?_
  obtain ⟨digit, hmem, rfl⟩ := List.mem_map.mp hc
  exact hdigit digit (Decimals.lt_ten_of_mem_digitsOf hmem)

/-- The payload is written in ASCII. -/
theorem ascii_payloadText (binding : ConfirmationBinding) (expiresAt : ℤ) (nonce : String) :
    JsonText.Ascii (verifier.payloadText binding expiresAt nonce) := by
  refine JsonText.ascii_object fun field hfield ↦ ?_
  obtain ⟨⟨key, value⟩, -, rfl⟩ := List.mem_map.mp hfield
  cases value with
  | number value => exact isAscii_iff.mp (isAscii_intText value)
  | null => exact JsonText.ascii_quoted _
  | flag _ => exact JsonText.ascii_quoted _
  | float _ => exact JsonText.ascii_quoted _
  | text _ => exact JsonText.ascii_quoted _
  | texts _ => exact JsonText.ascii_quoted _
  | nested _ _ => exact JsonText.ascii_quoted _

theorem isAscii_bodyOf (binding : ConfirmationBinding) (expiresAt : ℤ) (nonce : String) :
    isAscii (verifier.bodyOf binding expiresAt nonce) = true := by
  have halphabet : JsonText.Ascii Base64.alphabet := JsonText.ascii_of_all (by decide +kernel)
  rw [isAscii_iff, ConfirmationVerifier.bodyOf, String.toList_ofList]
  exact fun c hc ↦ halphabet c ((Base64.unpadded_eq _).1 c hc)

/-- The body of an issued token is read back. -/
theorem loadBody_body (hlawful : Primitives.Lawful verifier issued)
    {original : IssuedToken verifier} (hissued : original ∈ issued) :
    verifier.loadBody original.body = some original.fields := by
  have hbytes : ∀ byte ∈ (verifier.payloadText original.binding original.token.expiresAt
      original.nonce).map Char.toNat, byte < 256 := by
    intro byte hbyte
    obtain ⟨c, hc, rfl⟩ := List.mem_map.mp hbyte
    exact (ascii_payloadText _ _ _ c hc).trans (by decide)
  unfold ConfirmationVerifier.loadBody IssuedToken.body ConfirmationVerifier.bodyOf
  rw [String.toList_ofList, ← (Base64.unpadded_eq _).2, Base64.decode_encode _ hbytes,
    Option.bind_some, hlawful.reads original hissued]

theorem isAscii_digest (hlawful : Primitives.Lawful verifier issued)
    (binding : ConfirmationBinding) : isAscii (verifier.digest binding) = true :=
  hlawful.hash _

theorem compareDigest_eq {first second : String} (hfirst : isAscii first = true)
    (hsecond : isAscii second = true) : compareDigest first second = .ok (first = second) := by
  rw [compareDigest, hfirst, hsecond]
  rfl

/-- A text of three parts under the version carries ASCII parts. -/
def Readable (token : String) : Prop :=
  ∀ body signature, splitFields '.' token = ["v1", body, signature] →
    isAscii body = true ∧ isAscii signature = true

/-- An issued token is split into its parts. -/
theorem splitFields_token (hlawful : Primitives.Lawful verifier issued)
    (original : IssuedToken verifier) : ∃ signature,
      splitFields '.' original.token.token = ["v1", original.body, signature] ∧
        verifier.sign original.body = .ok signature := by
  obtain ⟨expiresAt, hadd, hrest⟩ := bind_eq_ok.mp original.accepted
  obtain ⟨signature, hsign, htoken⟩ := bind_eq_ok.mp hrest
  have hissued := (pure_eq_ok.mp htoken).symm
  have hbody : original.body = verifier.bodyOf original.binding expiresAt original.nonce := by
    rw [IssuedToken.body, hissued]
  have hjoined : original.token.token =
      Navigation.joinFields '.' ["v1", original.body, signature] := by
    rw [hissued, ← hbody]
    apply String.toList_injective
    simp [Navigation.joinFields, List.intercalate, String.toList_append]
  have halphabet : '.' ∉ Base64.alphabet := by decide +kernel
  refine ⟨signature, ?_, hbody ▸ hsign⟩
  rw [hjoined]
  refine Navigation.splitFields_joinFields (List.cons_ne_nil _ _) ?_
  simp only [List.forall_mem_cons]
  refine ⟨by decide, fun hmem ↦ ?_, fun hmem ↦ ?_, fun _ h ↦ absurd h List.not_mem_nil⟩
  · rw [IssuedToken.body, ConfirmationVerifier.bodyOf, String.toList_ofList] at hmem
    exact halphabet ((Base64.unpadded_eq _).1 '.' hmem)
  · exact absurd (signature_eq_ok hlawful hsign '.' hmem) (by decide)

/-- An issued token is its body under its signature. -/
theorem token_eq (hlawful : Primitives.Lawful verifier issued) (original : IssuedToken verifier)
    {token signature : String} (hparts : splitFields '.' token = ["v1", original.body, signature])
    (hsign : verifier.sign original.body = .ok signature) : token = original.token.token := by
  obtain ⟨expected, hissued, hexpected⟩ := splitFields_token hlawful original
  rw [hexpected] at hsign
  obtain rfl := Except.ok.inj hsign
  rw [← Navigation.joinFields_splitFields '.' token, hparts, ← hissued,
    Navigation.joinFields_splitFields]

/-- What the reading of a text comes to. -/
theorem payload_cases (hlawful : Primitives.Lawful verifier issued) {token : String}
    (hunforged : Unforged verifier issued token) (hreadable : Readable token) :
    verifier.payload token = .ok none ∨ ∃ original ∈ issued,
      token = original.token.token ∧ verifier.payload token = .ok (some original.fields) := by
  unfold ConfirmationVerifier.payload
  split
  · rename_i version body signature hparts
    by_cases hversion : version ≠ "v1"
    · rw [if_pos hversion]
      exact Or.inl rfl
    · rw [if_neg hversion]
      rw [not_not.mp hversion] at hparts
      obtain ⟨hbody, hsignature⟩ := hreadable body signature hparts
      obtain ⟨expected, hsign⟩ : ∃ expected, verifier.sign body = .ok expected := by
        rw [ConfirmationVerifier.sign, if_pos hbody]
        exact ⟨_, rfl⟩
      have hexpected := isAscii_of_hex (signature_eq_ok hlawful hsign)
      rw [hsign, ok_bind, compareDigest_eq hsignature hexpected, ok_bind]
      by_cases hsame : signature = expected
      · obtain ⟨original, hissued, rfl⟩ := hunforged body signature hparts (hsame ▸ hsign)
        right
        refine ⟨original, hissued, token_eq hlawful original hparts (hsame ▸ hsign), ?_⟩
        rw [decide_eq_true hsame, if_pos rfl, loadBody_body hlawful hissued]
        rfl
      · left
        rw [decide_eq_false hsame]
        rfl
  · exact Or.inl rfl

variable (verifier) in
/-- A text that is not readable raises. -/
theorem payload_error {token : String} (hunreadable : ¬ Readable token) :
    ∃ raised, verifier.payload token = .error raised := by
  unfold Readable at hunreadable
  push Not at hunreadable
  obtain ⟨body, signature, hparts, hascii⟩ := hunreadable
  unfold ConfirmationVerifier.payload
  rw [hparts]
  dsimp only
  rw [if_neg (not_not.mpr rfl)]
  by_cases hbody : isAscii body = true
  · have hsignature : isAscii signature = false := by simpa using hascii hbody
    rw [ConfirmationVerifier.sign, if_pos hbody, ok_bind, compareDigest, hsignature]
    exact ⟨_, rfl⟩
  · rw [ConfirmationVerifier.sign, if_neg hbody]
    exact ⟨_, rfl⟩

/-- The expiry that a token carries is an instant. -/
theorem fromTimestamp_expiry {instant : ℤ} (h : Calendar.InRange instant) :
    fromTimestamp (Int.tdiv instant second) = .ok (Int.tdiv instant second * second) := by
  have hrange : Calendar.InRange (Int.tdiv instant second * second) := by
    simp only [Calendar.InRange, Calendar.minInstant, Calendar.maxInstant, second] at h ⊢
    rcases le_total 0 instant with hpos | hneg
    · rw [Int.tdiv_eq_ediv_of_nonneg hpos]
      omega
    · have hflip : Int.tdiv instant 1000000 = -(-instant / 1000000) := by
        rw [← Int.tdiv_eq_ediv_of_nonneg (by omega), Int.neg_tdiv, neg_neg]
      rw [hflip]
      omega
  have hplatform : ¬ (Int.tdiv instant second < -2 ^ 63 ∨ 2 ^ 63 ≤ Int.tdiv instant second) := by
    simp only [Calendar.InRange, Calendar.minInstant, Calendar.maxInstant, second] at hrange ⊢
    omega
  rw [fromTimestamp, if_neg hplatform, if_pos hrange]

theorem uuidOf_text (uuid : Uuid) : uuidOf uuid.text = .ok uuid := by
  rw [uuidOf, Uuid.parse_text]

variable (original : IssuedToken verifier)

/-- The binding that an issued token names. -/
theorem recordedOf_fields : recordedOf original.fields = .ok (original.expiry,
      { original.binding with arguments := none }) := by
  have hrange : Calendar.InRange original.token.expiresAt := by
    obtain ⟨expiresAt, hadd, hrest⟩ := bind_eq_ok.mp original.accepted
    obtain ⟨signature, -, htoken⟩ := bind_eq_ok.mp hrest
    rw [← pure_eq_ok.mp htoken]
    exact Billing.addSeconds_inRange hadd
  have hexpiry := fromTimestamp_expiry hrange
  unfold recordedOf
  change (fromTimestamp (Int.tdiv original.token.expiresAt second) >>= fun expiresAt ↦ _) = _
  rw [hexpiry, ok_bind]
  change (uuidOf original.binding.customerId.text >>= fun customerId ↦ _) = _
  rw [uuidOf_text, ok_bind]
  change (uuidOf original.binding.serverId.text >>= fun serverId ↦ _) = _
  rw [uuidOf_text, ok_bind]
  change (ServerOperation.ofText original.binding.operation.value >>= fun operation ↦ _) = _
  rw [ServerOperation.ofText_value, ok_bind]
  rfl

theorem textItem_digest : textItem original.fields "d" = verifier.digest original.binding :=
  rfl

theorem textItem_nonce : textItem original.fields "n" = original.nonce :=
  rfl

/-! ### What the store is asked -/

variable {request other : ConfirmationRequest} {claim claim' : NonceClaim}

/-- What is known of a call that asks the store. -/
structure Claims (verifier : ConfirmationVerifier) (request : ConfirmationRequest)
    (claim : NonceClaim) (fields : JsonObject) : Prop where
  payload : verifier.payload request.token = .ok (some fields)
  recorded : recordedOf fields = .ok (claim.expiresAt, claim.recorded)
  inTime : request.moment < claim.expiresAt
  digest : compareDigest (textItem fields "d") (verifier.digest request.binding) = .ok true
  customer : claim.recorded.customerId = request.binding.customerId
  server : claim.recorded.serverId = request.binding.serverId
  operation : claim.recorded.operation = request.binding.operation
  nonce : claim.nonce = textItem fields "n"

theorem judge_eq_claims {fields : JsonObject} {expiresAt : ℤ} {recorded : ConfirmationBinding}
    (h : verifier.judge fields expiresAt recorded request = .ok (.claims claim)) :
    claim = ⟨textItem fields "n", expiresAt, recorded⟩ ∧ request.moment < expiresAt ∧
      compareDigest (textItem fields "d") (verifier.digest request.binding) = .ok true ∧
      recorded.customerId = request.binding.customerId ∧
      recorded.serverId = request.binding.serverId ∧
      recorded.operation = request.binding.operation := by
  unfold ConfirmationVerifier.judge at h
  by_cases hexpired : expiresAt ≤ request.moment
  · rw [if_pos hexpired] at h
    cases h
  · rw [if_neg hexpired] at h
    obtain ⟨same, hsame, hreturned⟩ := bind_eq_ok.mp h
    have hverdict := Except.ok.inj hreturned
    split at hverdict
    · cases hverdict
    · rename_i hmatch
      simp only [Bool.or_eq_true, Bool.not_eq_true', decide_eq_true_eq, not_or, not_not,
        Bool.not_eq_false] at hmatch
      obtain ⟨⟨⟨rfl, hcustomer⟩, hserver⟩, hoperation⟩ := hmatch
      split at hverdict
      · cases hverdict
      · exact ⟨(Verdict.claims.inj hverdict).symm, not_le.mp hexpired, hsame, hcustomer, hserver,
          hoperation⟩

theorem verify_eq_claims (h : verifier.verify request = .ok (.claims claim)) :
    ∃ fields, Claims verifier request claim fields := by
  unfold ConfirmationVerifier.verify at h
  obtain ⟨loaded, hpayload, hrest⟩ := bind_eq_ok.mp h
  cases loaded with
  | none => cases hrest
  | some fields =>
    dsimp only at hrest
    cases hrecorded : recordedOf fields with
    | error raised =>
      rw [hrecorded] at hrest
      dsimp only at hrest
      split at hrest
      · cases hrest
      · cases hrest
    | ok named =>
      obtain ⟨expiresAt, recorded⟩ := named
      rw [hrecorded] at hrest
      obtain ⟨rfl, hinTime, hdigest, hcustomer, hserver, hoperation⟩ := judge_eq_claims hrest
      exact ⟨fields, hpayload, hrecorded, hinTime, hdigest, hcustomer, hserver, hoperation, rfl⟩

/-- A token names one nonce and one expiry, whoever presents it and when. -/
theorem claims_unique (h : verifier.verify request = .ok (.claims claim))
    (h' : verifier.verify other = .ok (.claims claim')) (htoken : request.token = other.token) :
    claim = claim' := by
  obtain ⟨fields, hclaims⟩ := verify_eq_claims h
  obtain ⟨fields', hclaims'⟩ := verify_eq_claims h'
  have hpayload := hclaims.payload
  rw [htoken, hclaims'.payload] at hpayload
  obtain rfl : fields' = fields := Option.some.inj (Except.ok.inj hpayload)
  have hrecorded := hclaims.recorded
  rw [hclaims'.recorded] at hrecorded
  obtain ⟨hexpires, hbinding⟩ := Prod.mk.inj (Except.ok.inj hrecorded)
  cases claim
  cases claim'
  simp only [NonceClaim.mk.injEq]
  exact ⟨hclaims.nonce.trans hclaims'.nonce.symm, hexpires.symm, hbinding.symm⟩

/-- A request is for what an issued token was issued for, in time. -/
structure Bound (original : IssuedToken verifier) (request : ConfirmationRequest) : Prop where
  token : request.token = original.token.token
  customer : original.binding.customerId = request.binding.customerId
  server : original.binding.serverId = request.binding.serverId
  operation : original.binding.operation = request.binding.operation
  arguments : normalized original.binding.arguments = normalized request.binding.arguments
  inTime : request.moment < original.expiry

/-- The canonical texts of different arguments differ. -/
theorem argumentsText_inj {operation operation' : ServerOperation}
    {arguments arguments' : Arguments}
    (h : argumentsText operation arguments = argumentsText operation' arguments') :
    normalized arguments = normalized arguments' := by
  have hchars := congrArg String.toList h
  rw [argumentsText, argumentsText, String.toList_ofList, String.toList_ofList] at hchars
  simp only [JsonText.object, JsonText.members, List.cons_append, List.append_assoc] at hchars
  obtain ⟨-, hvalue⟩ := JsonText.quoted_append_inj (List.cons.inj hchars).2
  exact (JsonText.textMembers_append_inj (List.cons.inj (List.cons.inj hvalue).2).2).1

theorem bound_of_claims (hlawful : Primitives.Lawful verifier issued)
    (hunforged : Unforged verifier issued request.token)
    (h : verifier.verify request = .ok (.claims claim)) :
    ∃ original ∈ issued, Bound original request := by
  obtain ⟨fields, hclaims⟩ := verify_eq_claims h
  have hreadable : Readable request.token := by
    by_contra hunreadable
    obtain ⟨raised, herror⟩ := payload_error verifier hunreadable
    rw [hclaims.payload] at herror
    cases herror
  rcases payload_cases hlawful hunforged hreadable with
    hnone | ⟨original, hissued, htoken, hpayload⟩
  · rw [hclaims.payload] at hnone
    cases hnone
  · rw [hclaims.payload] at hpayload
    obtain rfl := Option.some.inj (Except.ok.inj hpayload)
    have hrecorded := hclaims.recorded
    rw [recordedOf_fields] at hrecorded
    obtain ⟨hexpires, hbinding⟩ := Prod.mk.inj (Except.ok.inj hrecorded)
    have hdigest := hclaims.digest
    rw [textItem_digest, compareDigest_eq (isAscii_digest hlawful _) (isAscii_digest hlawful _)]
      at hdigest
    have hsame := hlawful.injective (of_decide_eq_true (Except.ok.inj hdigest))
    refine ⟨original, hissued, htoken, ?_, ?_, ?_, argumentsText_inj hsame, ?_⟩
    · rw [← hclaims.customer, ← hbinding]
    · rw [← hclaims.server, ← hbinding]
    · rw [← hclaims.operation, ← hbinding]
    · rw [hexpires]
      exact hclaims.inTime

/-- A readable text is answered, or the store is asked. -/
theorem verify_isOk (hlawful : Primitives.Lawful verifier issued) {token : String}
    (hunforged : Unforged verifier issued token) (hreadable : Readable token)
    (binding : ConfirmationBinding) (moment : ℤ) :
    ∃ verdict, verifier.verify ⟨token, binding, moment⟩ = .ok verdict := by
  unfold ConfirmationVerifier.verify
  rcases payload_cases hlawful hunforged hreadable with
    hnone | ⟨original, hissued, htoken, hpayload⟩
  · rw [hnone, ok_bind]
    exact ⟨_, rfl⟩
  · rw [hpayload, ok_bind]
    dsimp only
    rw [recordedOf_fields]
    dsimp only
    unfold ConfirmationVerifier.judge
    by_cases hexpired : original.expiry ≤ moment
    · rw [if_pos hexpired]
      exact ⟨_, rfl⟩
    · rw [if_neg hexpired, textItem_digest,
        compareDigest_eq (isAscii_digest hlawful _) (isAscii_digest hlawful _), ok_bind]
      exact ⟨_, rfl⟩

/-- Only the store confirms. -/
theorem status_of_answered {result : ConfirmationResult}
    (h : verifier.verify request = .ok (.answered result)) : result.status ≠ .ok := by
  unfold ConfirmationVerifier.verify at h
  obtain ⟨loaded, -, hrest⟩ := bind_eq_ok.mp h
  cases loaded with
  | none =>
    obtain rfl := Verdict.answered.inj (Except.ok.inj hrest)
    nofun
  | some fields =>
    dsimp only at hrest
    cases hrecorded : recordedOf fields with
    | error raised =>
      rw [hrecorded] at hrest
      dsimp only at hrest
      split at hrest
      · obtain rfl := Verdict.answered.inj (Except.ok.inj hrest)
        nofun
      · cases hrest
    | ok named =>
      rw [hrecorded] at hrest
      unfold ConfirmationVerifier.judge at hrest
      dsimp only at hrest
      by_cases hexpired : named.1 ≤ request.moment
      · rw [if_pos hexpired] at hrest
        obtain rfl := Verdict.answered.inj (Except.ok.inj hrest)
        nofun
      · rw [if_neg hexpired] at hrest
        obtain ⟨same, -, hreturned⟩ := bind_eq_ok.mp hrest
        have hverdict := Except.ok.inj hreturned
        split at hverdict
        · obtain rfl := Verdict.answered.inj hverdict
          nofun
        · split at hverdict
          · obtain rfl := Verdict.answered.inj hverdict
            nofun
          · cases hverdict

/-- An issued token that is presented in time for its binding is good, as far as the store goes. -/
theorem verify_issued (hlawful : Primitives.Lawful verifier issued)
    {original : IssuedToken verifier} (hissued : original ∈ issued) {moment : ℤ}
    (hlive : moment < original.expiry) :
    verifier.verify ⟨original.token.token, original.binding, moment⟩ =
      .ok (.claims ⟨original.nonce, original.expiry,
        { original.binding with arguments := none }⟩) := by
  obtain ⟨signature, hparts, hsign⟩ := splitFields_token hlawful original
  have hascii := isAscii_of_hex (signature_eq_ok hlawful hsign)
  have hpayload : verifier.payload original.token.token = .ok (some original.fields) := by
    unfold ConfirmationVerifier.payload
    rw [hparts]
    dsimp only
    rw [if_neg (not_not.mpr rfl), hsign, ok_bind, compareDigest_eq hascii hascii, ok_bind,
      decide_eq_true rfl, if_pos rfl, loadBody_body hlawful hissued]
    rfl
  unfold ConfirmationVerifier.verify
  rw [hpayload, ok_bind]
  dsimp only
  rw [recordedOf_fields]
  dsimp only
  unfold ConfirmationVerifier.judge
  rw [if_neg (not_le.mpr hlive), textItem_digest,
    compareDigest_eq (isAscii_digest hlawful _) (isAscii_digest hlawful _), ok_bind, textItem_nonce]
  simp [original.nonce_ne]
  rfl

variable (verifier) in
theorem verify_error (hunreadable : ¬ Readable request.token) :
    ∃ raised, verifier.verify request = .error raised := by
  obtain ⟨raised, herror⟩ := payload_error verifier hunreadable
  unfold ConfirmationVerifier.verify
  rw [herror]
  exact ⟨raised, rfl⟩

end Reading

/-! ### What the stores remember -/

/-- The store of the process has the nonce of a token that has not expired. -/
def ConfirmationStore.Remembers (claim : NonceClaim) (now : ℤ) : ConfirmationStore → Prop
  | .inMemory store =>
    now < claim.expiresAt → store.consumed.lookup claim.nonce = some claim.expiresAt
  | .shared _ => True

section Remembering

variable {store : InMemoryConfirmationStore} {claim earlier : NonceClaim} {now : ℤ}

theorem lookup_filter {entries : List (String × ℤ)} {nonce : String} {expiresAt : ℤ}
    (h : entries.lookup nonce = some expiresAt) (hlive : now < expiresAt) :
    (entries.filter (now < ·.2)).lookup nonce = some expiresAt := by
  induction entries with
  | nil => cases h
  | cons entry rest ih =>
    obtain ⟨key, expiry⟩ := entry
    by_cases hkey : nonce = key
    · subst hkey
      rw [List.lookup_cons_self] at h
      obtain rfl := Option.some.inj h
      rw [List.filter_cons_of_pos (by simpa using hlive), List.lookup_cons_self]
    · have hne : (nonce == key) = false := by simpa using hkey
      rw [List.lookup_cons, hne] at h
      have hrest := ih h
      by_cases hexpiry : now < expiry
      · rw [List.filter_cons_of_pos (by simpa using hexpiry), List.lookup_cons, hne]
        exact hrest
      · rw [List.filter_cons_of_neg (by simpa using hexpiry)]
        exact hrest

/-- A sweep keeps the tokens that have not expired. -/
theorem lookup_sweep (h : store.consumed.lookup claim.nonce = some claim.expiresAt)
    (hlive : now < claim.expiresAt) :
    (store.sweep now).consumed.lookup claim.nonce = some claim.expiresAt := by
  unfold InMemoryConfirmationStore.sweep
  split
  · exact h
  · exact lookup_filter h hlive

theorem lookup_append {entries : List (String × ℤ)} {nonce other : String} {expiresAt : ℤ} :
    (entries ++ [(other, expiresAt)]).lookup nonce =
      (entries.lookup nonce).or (if nonce = other then some expiresAt else none) := by
  rw [List.lookup_append]
  congr 1
  by_cases h : nonce = other
  · rw [if_pos h, h, List.lookup_cons_self]
  · rw [if_neg h, List.lookup_cons, show (nonce == other) = false by simpa using h]
    rfl

/-- A consumption keeps what the store remembers. -/
theorem remembers_consume (expiresAt : ℤ) (nonce : String)
    (h : (ConfirmationStore.inMemory store).Remembers claim now) :
    (ConfirmationStore.inMemory (store.consume nonce expiresAt now).2).Remembers claim now := by
  intro hlive
  have hswept := lookup_sweep (h hlive) hlive
  unfold InMemoryConfirmationStore.consume
  dsimp only
  split
  · exact hswept
  · change ((store.sweep now).consumed ++ [(nonce, expiresAt)]).lookup claim.nonce = _
    rw [lookup_append, hswept]
    rfl

/-- A consumption that wins is remembered. -/
theorem remembers_of_won (h : (store.consume claim.nonce claim.expiresAt now).1 = true) :
    (ConfirmationStore.inMemory (store.consume claim.nonce claim.expiresAt now).2).Remembers
      claim now := by
  intro _
  unfold InMemoryConfirmationStore.consume at h ⊢
  dsimp only at h ⊢
  split
  · rename_i hknown
    rw [if_pos hknown] at h
    cases h
  · rename_i hunknown
    change ((store.sweep now).consumed ++ [(claim.nonce, claim.expiresAt)]).lookup claim.nonce = _
    have hnone : (store.sweep now).consumed.lookup claim.nonce = none :=
      Option.not_isSome_iff_eq_none.mp hunknown
    rw [lookup_append, hnone, if_pos rfl]
    rfl

/-- A token that is remembered and has not expired is not consumed again. -/
theorem lost_of_remembers (h : (ConfirmationStore.inMemory store).Remembers claim now)
    (hlive : now < claim.expiresAt) :
    (store.consume claim.nonce claim.expiresAt now).1 = false := by
  have hswept := lookup_sweep (h hlive) hlive
  unfold InMemoryConfirmationStore.consume
  dsimp only
  rw [hswept, if_pos Option.isSome_some]

end Remembering

/-! ### What the desk keeps -/

/-- A call that has confirmed. -/
def ConsumePhase.isOk : ConsumePhase → Bool
  | .finished (.ok result) => result.status = .ok
  | _ => false

/-- A call that has confirmed a token. -/
def Consumption.confirms (call : Consumption) (token : String) : Bool :=
  call.request.token = token && call.phase.isOk

/-- Every call is answered, a token confirms once, and only what it was issued for, in time. -/
structure Authorises {verifier : ConfirmationVerifier} (issued : List (IssuedToken verifier))
    (desk : ConfirmationDesk) : Prop where
  answers : ∀ call ∈ desk.calls, ∀ raised, call.phase ≠ .finished (.error raised)
  once : ∀ token, desk.calls.countP (·.confirms token) ≤ 1
  bound : ∀ call ∈ desk.calls, call.phase.isOk = true →
    ∃ original ∈ issued, Bound original call.request

/-- A presented text is readable; and when the store answers the call of a token that was confirmed
before, the marker of its nonce has not lapsed. -/
def Meets (desk : ConfirmationDesk) : ConfirmationEvent → Prop
  | .elapse _ => True
  | .present token _ => Readable token
  | .answer _ (some _) => True
  | .answer call none => ∀ store request claim ttlSeconds, desk.store = .shared store →
      desk.calls[call]? = some ⟨request, .waiting claim ttlSeconds⟩ →
      (∃ earlier ∈ desk.calls, earlier.confirms request.token = true) →
      store.Holds claim.nonce desk.now

/-- The texts that an event presents are not forged. -/
def ConfirmationEvent.Genuine {verifier : ConfirmationVerifier}
    (issued : List (IssuedToken verifier)) : ConfirmationEvent → Prop
  | .present token _ => Unforged verifier issued token
  | _ => True

/-- What is known of a call: a call that asks the store, or has its confirmation, was verified. -/
structure Known {verifier : ConfirmationVerifier} (issued : List (IssuedToken verifier))
    (desk : ConfirmationDesk) (call : Consumption) : Prop where
  unforged : Unforged verifier issued call.request.token
  waiting : ∀ claim ttlSeconds, call.phase = .waiting claim ttlSeconds →
    verifier.verify call.request = .ok (.claims claim)
  confirmed : call.phase.isOk = true → ∃ claim,
    verifier.verify call.request = .ok (.claims claim) ∧ desk.store.Remembers claim desk.now

/-- All calls are known. -/
def Consistent {verifier : ConfirmationVerifier} (issued : List (IssuedToken verifier))
    (desk : ConfirmationDesk) : Prop :=
  ∀ call ∈ desk.calls, Known issued desk call

section Desk

variable {verifier : ConfirmationVerifier} {issued : List (IssuedToken verifier)}
  {desk : ConfirmationDesk} {request : ConfirmationRequest}

theorem confirms_of_not_ok {call : Consumption} (h : call.phase.isOk = false) (token : String) :
    call.confirms token = false := by
  rw [Consumption.confirms, h, Bool.and_false]

variable {after : ConfirmationDesk} {phase : ConsumePhase}

/-- Calls stay known when the store and the clock move on. -/
theorem Known.moves {call : Consumption} (h : Known issued desk call)
    (hstore : ∀ claim, desk.store.Remembers claim desk.now → after.store.Remembers claim after.now) :
    Known issued after call :=
  ⟨h.unforged, h.waiting, fun hok ↦ by
    obtain ⟨claim, hverify, hremembers⟩ := h.confirmed hok
    exact ⟨claim, hverify, hstore claim hremembers⟩⟩

/-- A recorded call joins the known ones. -/
theorem Consistent.record (h : Consistent issued desk)
    (hcalls : after.calls = desk.calls ++ [⟨request, phase⟩])
    (hstore : ∀ claim, desk.store.Remembers claim desk.now → after.store.Remembers claim after.now)
    (hknown : Known issued after ⟨request, phase⟩) : Consistent issued after := by
  intro call hcall
  rw [hcalls, List.mem_append, List.mem_singleton] at hcall
  cases hcall with
  | inl hearlier => exact (h call hearlier).moves hstore
  | inr hnew => exact hnew ▸ hknown

/-- A finished call is known if the call that waited was. -/
theorem Consistent.finish {index : ℕ} (h : Consistent issued desk)
    (hcalls : after.calls = desk.calls.set index ⟨request, phase⟩)
    (hstore : ∀ claim, desk.store.Remembers claim desk.now → after.store.Remembers claim after.now)
    (hknown : Known issued after ⟨request, phase⟩) : Consistent issued after := by
  intro call hcall
  rw [hcalls] at hcall
  cases List.mem_or_eq_of_mem_set hcall with
  | inl hearlier => exact (h call hearlier).moves hstore
  | inr hnew => exact hnew ▸ hknown

theorem remembers_shared {claim : NonceClaim} {now : ℤ} {store : SharedConfirmationStore} :
    (ConfirmationStore.shared store).Remembers claim now :=
  trivial

/-- A call that is not a confirmation is known by its text alone. -/
theorem known_finished {outcome : Result ConfirmationResult}
    (hunforged : Unforged verifier issued request.token)
    (hnot : (ConsumePhase.finished outcome).isOk = false) :
    Known issued desk ⟨request, .finished outcome⟩ :=
  ⟨hunforged, nofun, fun hok ↦ absurd (hnot.symm.trans hok) Bool.false_ne_true⟩

theorem isOk_storeResult (claim : NonceClaim) (won : Bool) :
    (ConsumePhase.finished (.ok (storeResult request claim won))).isOk = won := by
  cases won <;> rfl

/-- One event keeps what is known of the calls. -/
theorem consistent_step (h : Consistent issued desk) (event : ConfirmationEvent)
    (hgenuine : event.Genuine issued) : Consistent issued (desk.step verifier event) := by
  cases event with
  | elapse microseconds =>
    intro call hcall
    refine (h call hcall).moves fun claim hremembers ↦ ?_
    change desk.store.Remembers claim (desk.now + microseconds)
    cases hstore : desk.store with
    | shared store => exact trivial
    | inMemory store =>
      rw [hstore] at hremembers
      exact fun hlive ↦ hremembers (by omega)
  | present token binding =>
    change Consistent issued (desk.present verifier ⟨token, binding, desk.now⟩)
    unfold ConfirmationDesk.present
    cases hverify : verifier.verify ⟨token, binding, desk.now⟩ with
    | error raised => exact h.record rfl (fun _ hclaim ↦ hclaim) (known_finished hgenuine rfl)
    | ok verdict =>
      cases verdict with
      | answered result =>
        have hnot := status_of_answered hverify
        exact h.record rfl (fun _ hclaim ↦ hclaim)
          (known_finished hgenuine (decide_eq_false hnot))
      | claims claim =>
        dsimp only
        cases hstore : desk.store with
        | inMemory store =>
          refine h.record rfl (fun other hother ↦ ?_) ⟨hgenuine, nofun, fun hok ↦ ?_⟩
          · rw [hstore] at hother
            exact remembers_consume claim.expiresAt claim.nonce hother
          · exact ⟨claim, hverify, remembers_of_won ((isOk_storeResult claim _).symm.trans hok)⟩
        | shared store =>
          dsimp only
          split
          · exact h.record rfl (fun _ hclaim ↦ hclaim) (known_finished hgenuine rfl)
          · refine h.record rfl (fun _ hclaim ↦ hclaim) ⟨hgenuine, fun other ttlSeconds hphase ↦ ?_,
              nofun⟩
            obtain ⟨rfl, -⟩ := ConsumePhase.waiting.inj hphase
            exact hverify
  | answer index outage =>
    change Consistent issued (desk.answer index outage)
    unfold ConfirmationDesk.answer
    split
    · rename_i store request claim ttlSeconds hstore hcall
      have hknown := h _ (List.mem_of_getElem? hcall)
      cases outage with
      | none =>
        refine h.finish rfl (fun claim _ ↦ remembers_shared) ⟨hknown.unforged, nofun, fun _ ↦ ?_⟩
        exact ⟨claim, hknown.waiting claim ttlSeconds rfl, remembers_shared⟩
      | some landed =>
        exact h.finish rfl (fun claim _ ↦ remembers_shared) (known_finished hknown.unforged rfl)
    · exact h

/-! ### One event and the authorisations -/

/-- A recorded call that is answered authorises as before, if it is no confirmation, or the first
one of a token that was issued for it. -/
theorem authorises_record (h : Authorises issued desk)
    (hcalls : after.calls = desk.calls ++ [⟨request, phase⟩])
    (hanswered : ∀ raised, phase ≠ .finished (.error raised))
    (hok : phase.isOk = true → (∃ original ∈ issued, Bound original request) ∧
      ∀ earlier ∈ desk.calls, earlier.confirms request.token = false) :
    Authorises issued after := by
  have hcases {call : Consumption} (hcall : call ∈ after.calls) :
      call ∈ desk.calls ∨ call = ⟨request, phase⟩ := by
    rwa [hcalls, List.mem_append, List.mem_singleton] at hcall
  constructor
  · intro call hcall
    cases hcases hcall with
    | inl hearlier => exact h.answers call hearlier
    | inr hnew => exact hnew ▸ hanswered
  · intro token
    rw [hcalls, List.countP_append, List.countP_singleton]
    by_cases hnew : (⟨request, phase⟩ : Consumption).confirms token = true
    · rw [Consumption.confirms, Bool.and_eq_true, decide_eq_true_iff] at hnew
      obtain ⟨rfl, hisOk⟩ := hnew
      have hzero : desk.calls.countP (·.confirms request.token) = 0 :=
        List.countP_eq_zero.mpr fun earlier hearlier ↦ by
          simp [(hok hisOk).2 earlier hearlier]
      rw [hzero]
      split <;> omega
    · rw [if_neg hnew]
      exact h.once token
  · intro call hcall hisOk
    cases hcases hcall with
    | inl hearlier => exact h.bound call hearlier hisOk
    | inr hnew =>
      subst hnew
      exact (hok hisOk).1

/-- The same for a call that waited. -/
theorem authorises_finish {index : ℕ} {waited : Consumption} (h : Authorises issued desk)
    (hwaited : desk.calls[index]? = some waited) (hnotOk : waited.phase.isOk = false)
    (hcalls : after.calls = desk.calls.set index ⟨request, phase⟩)
    (hanswered : ∀ raised, phase ≠ .finished (.error raised))
    (hok : phase.isOk = true → (∃ original ∈ issued, Bound original request) ∧
      ∀ earlier ∈ desk.calls, earlier.confirms request.token = false) :
    Authorises issued after := by
  obtain ⟨hindex, hget⟩ := List.getElem?_eq_some_iff.mp hwaited
  have hcases {call : Consumption} (hcall : call ∈ after.calls) :
      call ∈ desk.calls ∨ call = ⟨request, phase⟩ :=
    List.mem_or_eq_of_mem_set (hcalls ▸ hcall)
  constructor
  · intro call hcall
    cases hcases hcall with
    | inl hearlier => exact h.answers call hearlier
    | inr hnew => exact hnew ▸ hanswered
  · intro token
    have hold : (desk.calls[index]).confirms token = false := by
      rw [hget]
      exact confirms_of_not_ok hnotOk token
    rw [hcalls, List.countP_set hindex, hold]
    by_cases hnew : (⟨request, phase⟩ : Consumption).confirms token = true
    · rw [Consumption.confirms, Bool.and_eq_true, decide_eq_true_iff] at hnew
      obtain ⟨rfl, hisOk⟩ := hnew
      have hzero : desk.calls.countP (·.confirms request.token) = 0 :=
        List.countP_eq_zero.mpr fun earlier hearlier ↦ by
          simp [(hok hisOk).2 earlier hearlier]
      rw [hzero]
      simp only [Bool.false_eq_true, if_false]
      split <;> omega
    · rw [if_neg hnew]
      simpa using h.once token
  · intro call hcall hisOk
    cases hcases hcall with
    | inl hearlier => exact h.bound call hearlier hisOk
    | inr hnew =>
      subst hnew
      exact (hok hisOk).1

/-- A token that was confirmed and has not expired is remembered. -/
theorem remembers_of_confirms (h : Consistent issued desk) {claim : NonceClaim}
    (hverify : verifier.verify request = .ok (.claims claim)) {earlier : Consumption}
    (hearlier : earlier ∈ desk.calls) (hconfirms : earlier.confirms request.token = true) :
    desk.store.Remembers claim desk.now := by
  rw [Consumption.confirms, Bool.and_eq_true, decide_eq_true_iff] at hconfirms
  obtain ⟨known, hknown, hremembers⟩ := (h earlier hearlier).confirmed hconfirms.2
  exact claims_unique hknown hverify hconfirms.1 ▸ hremembers

theorem readable_of_verify {verdict : Verdict} (h : verifier.verify request = .ok verdict) :
    Readable request.token := by
  by_contra hunreadable
  obtain ⟨raised, herror⟩ := verify_error verifier hunreadable
  rw [h] at herror
  cases herror

/-- A presented text is answered as it should be exactly if it is readable. -/
theorem authorises_present_iff (hlawful : Primitives.Lawful verifier issued)
    (hconsistent : Consistent issued desk) (h : Authorises issued desk) {token : String}
    (binding : ConfirmationBinding) (hunforged : Unforged verifier issued token) :
    Authorises issued (desk.present verifier ⟨token, binding, desk.now⟩) ↔ Readable token := by
  unfold ConfirmationDesk.present
  cases hverify : verifier.verify ⟨token, binding, desk.now⟩ with
  | error raised =>
    have hunreadable : ¬ Readable token := fun hreadable ↦ by
      obtain ⟨verdict, hok⟩ := verify_isOk hlawful hunforged hreadable binding desk.now
      rw [hverify] at hok
      cases hok
    refine iff_of_false (fun hauthorises ↦ ?_) hunreadable
    exact hauthorises.answers _ (List.mem_append_right _ List.mem_cons_self) raised rfl
  | ok verdict =>
    refine iff_of_true ?_ (readable_of_verify hverify)
    cases verdict with
    | answered result =>
      refine authorises_record h rfl nofun fun hok ↦ ?_
      exact absurd (of_decide_eq_true hok) (status_of_answered hverify)
    | claims claim =>
      obtain ⟨fields, hclaims⟩ := verify_eq_claims hverify
      dsimp only
      cases hstore : desk.store with
      | inMemory store =>
        refine authorises_record h rfl nofun fun hok ↦ ?_
        refine ⟨bound_of_claims hlawful hunforged hverify, fun earlier hearlier ↦ ?_⟩
        by_contra hconfirms
        have hremembers := remembers_of_confirms hconsistent hverify hearlier
          (Bool.eq_true_of_not_eq_false hconfirms)
        rw [hstore] at hremembers
        have hlost := lost_of_remembers hremembers hclaims.inTime
        rw [isOk_storeResult] at hok
        rw [hlost] at hok
        cases hok
      | shared store =>
        dsimp only
        have hpositive : ¬ store.ttl claim.expiresAt desk.now ≤ 0 :=
          not_le.mpr (store.positive.trans_le (le_max_right _ _))
        rw [if_neg hpositive]
        exact authorises_record h rfl nofun nofun

/-- An answer of the store is as it should be exactly if it finds the marker of a token that was
confirmed before. -/
theorem authorises_answer_iff (hlawful : Primitives.Lawful verifier issued)
    (hconsistent : Consistent issued desk) (h : Authorises issued desk) (index : ℕ)
    (outage : Option Bool) :
    Authorises issued (desk.answer index outage) ↔ Meets desk (.answer index outage) := by
  unfold ConfirmationDesk.answer
  split
  · rename_i store request claim ttlSeconds hstore hcall
    have hknown := hconsistent _ (List.mem_of_getElem? hcall)
    have hverify := hknown.waiting claim ttlSeconds rfl
    cases outage with
    | some landed =>
      exact iff_of_true (authorises_finish h hcall rfl rfl nofun nofun) trivial
    | none =>
      have hmeets : Meets desk (.answer index none) ↔
          ((∃ earlier ∈ desk.calls, earlier.confirms request.token = true) →
            store.Holds claim.nonce desk.now) := by
        constructor
        · exact fun hmeets ↦ hmeets store request claim ttlSeconds hstore hcall
        · intro hholds store' request' claim' ttlSeconds' hstore' hcall'
          rw [hstore] at hstore'
          obtain rfl := ConfirmationStore.shared.inj hstore'
          rw [hcall] at hcall'
          cases hcall'
          exact hholds
      rw [hmeets]
      by_cases hholds : store.Holds claim.nonce desk.now
      · have hlost : (store.claim claim.nonce ttlSeconds desk.now).1 = false := by
          rw [SharedConfirmationStore.claim, if_pos hholds]
        refine iff_of_true ?_ fun _ ↦ hholds
        refine authorises_finish h hcall rfl rfl nofun fun hok ↦ ?_
        rw [isOk_storeResult, hlost] at hok
        cases hok
      · have hwon : (store.claim claim.nonce ttlSeconds desk.now).1 = true := by
          rw [SharedConfirmationStore.claim, if_neg hholds]
        by_cases hearlier : ∃ earlier ∈ desk.calls, earlier.confirms request.token = true
        · refine iff_of_false (fun hauthorises ↦ ?_) fun himp ↦ hholds (himp hearlier)
          -- The token is confirmed a second time.
          obtain ⟨earlier, hmem, hconfirms⟩ := hearlier
          obtain ⟨hindex, hget⟩ := List.getElem?_eq_some_iff.mp hcall
          have honce := hauthorises.once request.token
          have hcount : 0 < desk.calls.countP (·.confirms request.token) :=
            List.countP_pos_iff.mpr ⟨earlier, hmem, hconfirms⟩
          have hold : (desk.calls[index]).confirms request.token = false := by
            rw [hget]
            exact confirms_of_not_ok rfl request.token
          have hnew : (⟨request, .finished (.ok (storeResult request claim
              (store.claim claim.nonce ttlSeconds desk.now).1))⟩ : Consumption).confirms
                request.token = true := by
            rw [Consumption.confirms, isOk_storeResult, hwon, decide_eq_true rfl]
            rfl
          change (desk.calls.set index _).countP _ ≤ 1 at honce
          rw [List.countP_set hindex, hold, if_pos hnew] at honce
          simp only [Bool.false_eq_true, if_false] at honce
          omega
        · refine iff_of_true ?_ fun hex ↦ absurd hex hearlier
          refine authorises_finish h hcall rfl rfl nofun fun _ ↦ ?_
          refine ⟨bound_of_claims hlawful hknown.unforged hverify, fun earlier hmem ↦ ?_⟩
          exact Bool.eq_false_of_not_eq_true fun hconfirms ↦ hearlier ⟨earlier, hmem, hconfirms⟩
  · rename_i hnone
    refine iff_of_true h ?_
    cases outage with
    | some landed => trivial
    | none =>
      intro store request claim ttlSeconds hstore hcall
      exact absurd hcall (hnone store request claim ttlSeconds hstore)

theorem authorises_step_iff (hlawful : Primitives.Lawful verifier issued)
    (hconsistent : Consistent issued desk) (h : Authorises issued desk) (event : ConfirmationEvent)
    (hgenuine : event.Genuine issued) :
    Authorises issued (desk.step verifier event) ↔ Meets desk event := by
  cases event with
  | elapse microseconds =>
    exact iff_of_true ⟨h.answers, h.once, h.bound⟩ trivial
  | present token binding => exact authorises_present_iff hlawful hconsistent h binding hgenuine
  | answer index outage => exact authorises_answer_iff hlawful hconsistent h index outage

end Desk

namespace SecondClick

/-- The deletion of a server. -/
def deletion : ConfirmationBinding where
  customerId := ⟨"11111111-1111-4111-8111-111111111111", .refl true⟩
  serverId := ⟨"22222222-2222-4222-8222-222222222222", .refl true⟩
  operation := .delete

def nonce : String :=
  "q7Jx0m3Zt5YbK2aP"

def digest : String :=
  "19371f0172f41334d6b6abcbd46836b695fcf09281316402a32b2e31f3bd2e55"

/-- The payload of the token. -/
def fields : JsonObject :=
  [("c", .text deletion.customerId.text), ("d", .text digest), ("e", .number 1700000030),
    ("n", .text nonce), ("o", .text "delete"), ("s", .text deletion.serverId.text)]

/-- A verifier with tokens of thirty seconds. On the token below the libraries answer as they do. -/
def verifier : ConfirmationVerifier where
  hmac := fun _ _ ↦ "d8e1708d5086a40701c4c630b72a69101566895f732b193238975d94cd8a7e95"
  sha256 := fun text ↦ if text = argumentsText .delete none then digest
    else String.ofList (JsonText.quoted text)
  loads := fun _ ↦ some (.object fields)
  signingKey := "secret"
  ttlSeconds := 30
  key_ne := by decide
  ttl_ge := by decide

def issuedAt : ℤ :=
  1700000000000000

def token : ConfirmationToken where
  token := "v1." ++ verifier.bodyOf deletion 1700000030000000 nonce ++ "." ++ "d8e1708d5086a407"
  nonce := nonce
  expiresAt := 1700000030000000

def issued : IssuedToken verifier where
  binding := deletion
  moment := issuedAt
  nonce := nonce
  token := token
  nonce_ne := by decide
  accepted := by
    have hexpires : Billing.addSeconds issuedAt verifier.ttlSeconds = .ok 1700000030000000 := by
      decide
    have hsignature : String.ofList ((verifier.hmac verifier.signingKey
        (verifier.bodyOf deletion 1700000030000000 nonce)).toList.take 16) =
          "d8e1708d5086a407" := by
      decide +kernel
    unfold ConfirmationVerifier.issue ConfirmationVerifier.sign
    rw [hexpires, ok_bind]
    dsimp only
    rw [if_pos (isAscii_bodyOf _ _ _), hsignature]
    rfl

theorem isAscii_quoted (text : String) : isAscii (String.ofList (JsonText.quoted text)) = true := by
  rw [isAscii_iff, String.toList_ofList]
  exact JsonText.ascii_quoted text

theorem sha256_injective : Function.Injective verifier.sha256 := by
  have hquoted (text : String) : String.ofList (JsonText.quoted text) ≠ digest := fun h ↦ by
    have hhead := congrArg (fun written ↦ written.toList.head?) h
    rw [String.toList_ofList] at hhead
    exact absurd (Option.some.inj hhead) (by decide)
  have heq (text : String) : verifier.sha256 text =
      if text = argumentsText .delete none then digest
      else String.ofList (JsonText.quoted text) := rfl
  intro first second h
  rw [heq, heq] at h
  by_cases hfirst : first = argumentsText .delete none
  · by_cases hsecond : second = argumentsText .delete none
    · rw [hfirst, hsecond]
    · rw [if_pos hfirst, if_neg hsecond] at h
      exact absurd h.symm (hquoted second)
  · by_cases hsecond : second = argumentsText .delete none
    · rw [if_neg hfirst, if_pos hsecond] at h
      exact absurd h (hquoted first)
    · rw [if_neg hfirst, if_neg hsecond] at h
      have hchars : JsonText.quoted first ++ [] = JsonText.quoted second ++ [] :=
        congrArg (· ++ []) (String.ofList_injective h)
      exact (JsonText.quoted_append_inj hchars).1

theorem lawful : Primitives.Lawful verifier [issued] where
  injective := sha256_injective
  hash := by
    intro text
    change isAscii (if text = argumentsText .delete none then digest
      else String.ofList (JsonText.quoted text)) = true
    by_cases htext : text = argumentsText .delete none
    · rw [if_pos htext]
      decide +kernel
    · rw [if_neg htext]
      exact isAscii_quoted text
  hmac := by
    intro key message
    change ∀ c ∈ "d8e1708d5086a40701c4c630b72a69101566895f732b193238975d94cd8a7e95".toList, _
    exact forall_mem_of_all (by decide +kernel)
  reads := by
    intro original horiginal
    have hdigest : verifier.digest deletion = digest := if_pos rfl
    have hfields : issued.fields = fields := by
      change verifier.payloadFields deletion 1700000030000000 nonce = fields
      rw [ConfirmationVerifier.payloadFields, hdigest]
      rfl
    rw [List.mem_singleton.mp horiginal, hfields]
    rfl

/-- The presented text is the issued token. -/
theorem unforged : Unforged verifier [issued] token.token := by
  intro body signature hparts _
  obtain ⟨expected, hissued, -⟩ := splitFields_token lawful issued
  rw [show token.token = issued.token.token from rfl, hissued] at hparts
  obtain ⟨-, hrest⟩ := List.cons.inj hparts
  exact ⟨issued, List.mem_cons_self, (List.cons.inj hrest).1⟩

/-- A store whose replay window is one second. -/
def store : ConfirmationStore :=
  .shared { replayTtl := 1, positive := by decide }

/-- The token is presented half a second after it was issued, and again before it expires, when its
marker of twenty-nine seconds has lapsed. -/
def clicks : List ConfirmationEvent :=
  [.elapse 500000, .present token.token deletion, .answer 0 none, .elapse 29100000,
    .present token.token deletion, .answer 1 none]

/-- What the store is asked for the token. -/
def claim : NonceClaim where
  nonce := nonce
  expiresAt := 1700000030000000
  recorded := deletion

theorem verify_token {moment : ℤ} (h : moment < 1700000030000000) :
    verifier.verify ⟨token.token, deletion, moment⟩ = .ok (.claims claim) :=
  verify_issued lawful (List.mem_singleton_self issued) h

def firstCall : ConfirmationRequest :=
  ⟨token.token, deletion, 1700000000500000⟩

def secondCall : ConfirmationRequest :=
  ⟨token.token, deletion, 1700000029600000⟩

/-- A call that was confirmed. -/
def confirmed (request : ConfirmationRequest) : Consumption :=
  ⟨request, .finished (.ok (storeResult request claim true))⟩

/-- The store with a marker. -/
def marked (deadline : ℤ) : ConfirmationStore :=
  .shared { replayTtl := 1, positive := by decide, markers := [(nonce, deadline)] }

/-- Both calls are confirmed in the end, whatever the text of the token. -/
theorem run_of_verify {verifier : ConfirmationVerifier} {text : String}
    (hverify : ∀ moment < 1700000030000000,
      verifier.verify ⟨text, deletion, moment⟩ = .ok (.claims claim)) :
    run (ConfirmationDesk.step verifier) ⟨issuedAt, store, []⟩
        [.elapse 500000, .present text deletion, .answer 0 none, .elapse 29100000,
          .present text deletion, .answer 1 none] = ⟨1700000029600000, marked 1700000030600000,
        [confirmed ⟨text, deletion, 1700000000500000⟩,
          confirmed ⟨text, deletion, 1700000029600000⟩]⟩ := by
  have hfirst : ConfirmationDesk.present verifier ⟨1700000000500000, store, []⟩
      ⟨text, deletion, 1700000000500000⟩ =
        ⟨1700000000500000, store,
          [⟨⟨text, deletion, 1700000000500000⟩, .waiting claim 29⟩]⟩ := by
    unfold ConfirmationDesk.present
    rw [hverify _ (by decide)]
    rfl
  have hsecond : ConfirmationDesk.present verifier
      ⟨1700000029600000, marked 1700000029500000,
        [confirmed ⟨text, deletion, 1700000000500000⟩]⟩ ⟨text, deletion, 1700000029600000⟩ =
        ⟨1700000029600000, marked 1700000029500000,
          [confirmed ⟨text, deletion, 1700000000500000⟩,
            ⟨⟨text, deletion, 1700000029600000⟩, .waiting claim 1⟩]⟩ := by
    unfold ConfirmationDesk.present
    rw [hverify _ (by decide)]
    rfl
  calc run (ConfirmationDesk.step verifier) ⟨issuedAt, store, []⟩ _
    _ = run (ConfirmationDesk.step verifier) (ConfirmationDesk.present verifier
          ⟨1700000000500000, store, []⟩ ⟨text, deletion, 1700000000500000⟩)
          [.answer 0 none, .elapse 29100000, .present text deletion, .answer 1 none] := rfl
    _ = run (ConfirmationDesk.step verifier) (ConfirmationDesk.present verifier
          ⟨1700000029600000, marked 1700000029500000,
            [confirmed ⟨text, deletion, 1700000000500000⟩]⟩ ⟨text, deletion, 1700000029600000⟩)
          [.answer 1 none] := by rw [hfirst]; rfl
    _ = _ := by rw [hsecond]; rfl

theorem run_clicks : run (ConfirmationDesk.step verifier) ⟨issuedAt, store, []⟩ clicks =
      ⟨1700000029600000, marked 1700000030600000, [confirmed firstCall, confirmed secondCall]⟩ := by
  unfold clicks firstCall secondCall
  exact run_of_verify fun _ hmoment ↦ verify_token hmoment

theorem countP_confirmed (text : String) : [confirmed ⟨text, deletion, 1700000000500000⟩,
      confirmed ⟨text, deletion, 1700000029600000⟩].countP (·.confirms text) = 2 := by
  have hconfirms (binding : ConfirmationBinding) (moment : ℤ) :
      (confirmed ⟨text, binding, moment⟩).confirms text = true :=
    Bool.and_eq_true_iff.mpr ⟨decide_eq_true rfl, rfl⟩
  rw [List.countP_cons, List.countP_cons, List.countP_nil, if_pos (hconfirms _ _),
    if_pos (hconfirms _ _)]

end SecondClick

end CloudPlatform.Servers
