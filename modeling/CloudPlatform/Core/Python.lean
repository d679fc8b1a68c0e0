import Mathlib.Algebra.Ring.Int.Defs
import Mathlib.Data.List.Basic
import Mathlib.Data.List.TakeWhile
import Mathlib.Data.String.Basic

/-!
# The Python vocabulary of the models

Exceptions, optional text and the few built-ins that the modelled functions use. A function that can
raise returns `Result`; an exception is its class and its message. `rejectIf` is the guard
`if condition: raise ...`, and `rejectIf_bind_eq_ok` is what a caller that came through it knows.
`RaisesOnly` says which exceptions a call can raise; its rules follow the structure of a program.
-/

namespace CloudPlatform

/-- The exception classes that the modelled functions raise or catch. -/
inductive ErrorKind
  | valueError
  | lookupError
  | runtimeError
  | assertionError
  | integrityError
  | multipleResultsFound
  | permissionDenied
  | invalidOperationTransition
  | createAttemptConflict
  | duplicateIdempotency
  | insufficientBalance
  | insufficientHoldBalance
  | holdNotFound
  | holdStateConflict
  | overflowError
  | divisionByZero
  | fxUnsupportedCurrency
  | missingSnapshot
  | accrualPeriodExists
  | keyError
  | unknownCredentialAccount
  | providerError
  | providerAuth
  | providerRateLimited
  | providerUnavailable
  | providerOutcomeUnknown
  | providerNotFound
  | providerConflict
  | providerRejected
  | providerCapacity
  | unsupportedGatewayOperation
  | orderStateConflict
  | orderManualResolution
  | serverCreate
  | identityRequired
  | checkoutError
  | checkoutReplay
  | userNotActive
  | offerUnavailable
  | noWallet
  | createServerCommand
  | quotaExceeded
  | termsAcceptanceRequired
  | offerNotFound
  | offerDisabled
  | maintenanceBlocked
  | noProviderAccount
  | costLimitReached
  | providerAccountsFull
  | providerInventoryUnavailable
  | snapshotAlreadyExists
  | billingLockBusy
  | powerCommand
  | powerOperationFailed
  | powerOutcomeUnknown
  | deleteCommand
  | deleteNotOwner
  | deleteActionNotAllowed
  | deleteOperationInProgress
  | deleteOperationFailed
  | decimalInvalidOperation
  | decimalDivisionByZero
  | decimalOverflow
  | fxUnavailable
  | offerPricing
  | callback
  | typeError
  | paymentTransition
  | duplicateExternalId
  | recharge
  | rechargeDisabled
  | rechargeAmount
  | rechargeAdminForbidden
  | rechargeSelectionRequired
  | powerNotOwner
  | powerActionNotAllowed
  | powerOperationInProgress
  | unicodeEncodeError
  | sessionStore
  | serverNotFound
  | serverOperationNotAllowed
  | walletCurrencyMigration
  | invalidToken
  | tokenNotFound
  | tokenLimit
  | duplicateTokenName
  | volumeNotFound
  | volumeLimit
  | volumeSize
  | volumeError
  | duplicateFirewall
  | firewallNotFound
  | firewallLimit
  | userNotFound
  | userStatusIdempotencyConflict
  | attributeError
  | timeoutError
  | httpError
  | hourlyError
  | hourlyNotAvailable
  | noMarginRule
  | ambiguousMarginRule
  | rebuildCommand
  | rebuildConfirmationRequired
  | rebuildNotOwner
  | rebuildActionNotAllowed
  | rebuildOperationInProgress
  | rebuildOperationFailed
  | fxInvalidQuote
  | fxStale
  | fxProxyNotAllowed
  | noActiveVersion
  | purchaseConfirmation
  deriving DecidableEq

/-- A raised exception: its class and its message. -/
structure Raised where
  kind : ErrorKind
  message : String
  deriving DecidableEq

/-- The value of a call, or the exception it raised. -/
abbrev Result (α : Type) := Except Raised α

/-- A decision about every entry of a list, by running through the list. -/
theorem forall_mem_of_all {α : Type*} {p : α → Prop} [DecidablePred p] {xs : List α}
    (h : (xs.all fun x ↦ p x) = true) : ∀ x ∈ xs, p x :=
  fun x hx ↦ of_decide_eq_true (List.all_eq_true.mp h x hx)

instance lawfulBEq_optionalText : LawfulBEq (Option String) := inferInstance

instance lawfulBEq_textPair : LawfulBEq (String × String) := inferInstance

/-- `raise kind(message)`. -/
def raise {α : Type} (kind : ErrorKind) (message : String) : Result α :=
  .error ⟨kind, message⟩

/-- `if condition: raise kind(message)`. -/
def rejectIf (condition : Bool) (kind : ErrorKind) (message : String) : Result Unit :=
  if condition then raise kind message else .ok ()

/-- The reply and the rows of a transaction: one that raises leaves the rows. -/
def transaction {σ α : Type} (rows : σ) : Result (σ × α) → Result α × σ
  | .ok (after, reply) => (.ok reply, after)
  | .error raised => (.error raised, rows)

section Results

variable {α β : Type}

theorem bind_eq_ok {x : Result α} {f : α → Result β} {result : β} :
    (x >>= f) = .ok result ↔ ∃ value, x = .ok value ∧ f value = .ok result := by
  cases x with
  | error raised => simp [bind, Except.bind]
  | ok value => simp [bind, Except.bind]

variable {condition : Bool} {kind : ErrorKind} {message : String}

/-- What is known past a guard. -/
theorem rejectIf_bind_eq_ok {f : Unit → Result β} {result : β} :
    (rejectIf condition kind message >>= f) = .ok result ↔
      condition = false ∧ f () = .ok result := by
  cases condition <;> simp [rejectIf, raise, bind, Except.bind]

/-- A guard that lets through. -/
theorem rejectIf_bind (h : condition = false) (f : Unit → Result β) :
    (rejectIf condition kind message >>= f) = f () := by
  rw [h]
  rfl

theorem rejectIf_eq_ok {u : Unit} :
    rejectIf condition kind message = .ok u ↔ condition = false := by
  cases condition <;> simp [rejectIf, raise]

theorem raise_ne_ok {value : α} : (raise kind message : Result α) ≠ .ok value := by
  simp [raise]

theorem ok_bind (value : α) (f : α → Result β) : ((.ok value : Result α) >>= f) = f value :=
  rfl

theorem pure_eq_ok {value result : α} : (pure value : Result α) = .ok result ↔ value = result := by
  simp [pure, Except.pure]

end Results

/-! ### Text -/

/-- The characters that `str.strip` removes. -/
def isSpace (c : Char) : Bool :=
  c.toNat ∈ [0x09, 0x0A, 0x0B, 0x0C, 0x0D, 0x1C, 0x1D, 0x1E, 0x1F, 0x20, 0x85, 0xA0, 0x1680,
    0x2000, 0x2001, 0x2002, 0x2003, 0x2004, 0x2005, 0x2006, 0x2007, 0x2008, 0x2009, 0x200A,
    0x2028, 0x2029, 0x202F, 0x205F, 0x3000]

/-- `value.strip()`. -/
def strip (value : String) : String :=
  String.ofList
    (((value.toList.dropWhile isSpace).reverse.dropWhile isSpace).reverse)

/-- A text without white space at its ends. -/
theorem strip_eq_self {value : String} (hfirst : ∀ c ∈ value.toList.head?, isSpace c = false)
    (hlast : ∀ c ∈ value.toList.getLast?, isSpace c = false) : strip value = value := by
  have hdrop : ∀ chars : List Char, (∀ c ∈ chars.head?, isSpace c = false) →
      chars.dropWhile isSpace = chars := by
    intro chars hhead
    cases chars with
    | nil => rfl
    | cons c rest => rw [List.dropWhile_cons_of_neg (by simp [hhead c rfl])]
  rw [strip, hdrop _ hfirst, hdrop, List.reverse_reverse, String.ofList_toList]
  rw [List.head?_reverse]
  exact hlast

/-- Only white space is stripped to nothing. -/
theorem isSpace_of_strip_eq_empty {value : String} (h : strip value = "") :
    ∀ c ∈ value.toList, isSpace c = true := by
  have hchars := congrArg String.toList h
  rw [strip, String.toList_ofList, String.toList_empty, List.reverse_eq_nil_iff,
    List.dropWhile_eq_nil_iff] at hchars
  rw [← List.dropWhile_eq_nil_iff]
  by_contra hne
  have hhead := List.head_dropWhile_not isSpace hne
  rw [hchars _ (List.mem_reverse.mpr (List.head_mem hne))] at hhead
  cases hhead

theorem isSpace_head_dropWhile (chars : List Char) :
    ∀ c ∈ (chars.dropWhile isSpace).head?, isSpace c = false := by
  intro c hc
  simpa [Option.mem_def.mp hc] using List.head?_dropWhile_not isSpace chars

variable (value : String) (uuid : Uuid)

/-- A stripped text does not begin with white space. -/
theorem isSpace_head_strip : ∀ c ∈ (strip value).toList.head?, isSpace c = false := by
  -- What is cut off at the end leaves the first character, or nothing.
  intro c hc
  rw [strip, String.toList_ofList] at hc
  obtain ⟨rest, hrest⟩ : ((value.toList.dropWhile isSpace).reverse.dropWhile isSpace).reverse <+:
      value.toList.dropWhile isSpace := by
    rw [← List.reverse_suffix, List.reverse_reverse]
    exact List.dropWhile_suffix isSpace
  refine isSpace_head_dropWhile value.toList c ?_
  rw [← hrest, List.head?_append, Option.mem_def.mp hc]
  rfl

/-- A stripped text does not end in white space. -/
theorem isSpace_getLast_strip : ∀ c ∈ (strip value).toList.getLast?, isSpace c = false := by
  intro c hc
  rw [strip, String.toList_ofList, List.getLast?_reverse] at hc
  exact isSpace_head_dropWhile _ c hc

/-- Stripping twice strips once. -/
@[simp] theorem strip_strip : strip (strip value) = strip value :=
  strip_eq_self (isSpace_head_strip value) (isSpace_getLast_strip value)

theorem repr_injective {first second : ℕ} (h : first.repr = second.repr) : first = second := by
  have hchars := congrArg String.toList h
  rw [Nat.toList_repr, Nat.toList_repr] at hchars
  rw [← Nat.ofDigitChars_toDigits (n := first) (b := 10) (by decide) (by decide), hchars,
    Nat.ofDigitChars_toDigits (by decide) (by decide)]

theorem isDigit_of_mem_repr {n : ℕ} {c : Char} (h : c ∈ n.repr.toList) : c.isDigit = true := by
  rw [Nat.toList_repr] at h
  exact Nat.isDigit_of_mem_toDigits (by decide) (by decide) h

/-- The decimal text of an integer determines it. -/
theorem toString_injective {first second : ℤ} (h : toString first = toString second) :
    first = second := by
  have hsign : ∀ m n : ℕ, m.repr ≠ "-" ++ n.repr := by
    intro m n hmn
    have hmem : '-' ∈ m.repr.toList := by rw [hmn]; simp
    exact absurd (isDigit_of_mem_repr hmem) (by decide)
  cases first with
  | ofNat m =>
    cases second with
    | ofNat n => exact congrArg Int.ofNat (repr_injective h)
    | negSucc n => exact absurd h (hsign m (n + 1))
  | negSucc m =>
    cases second with
    | ofNat n => exact absurd h.symm (hsign n (m + 1))
    | negSucc n =>
      have hdigits : (m + 1).repr = (n + 1).repr := by
        apply String.toList_injective
        simpa [toString, Int.repr] using congrArg String.toList h
      exact congrArg Int.negSucc (by simpa using repr_injective hdigits)

theorem isSpace_of_isDigit {c : Char} (h : c.isDigit = true) : isSpace c = false := by
  have hrange : 48 ≤ c.toNat ∧ c.toNat ≤ 57 := Char.isDigit_iff_toNat.mp h
  simp only [isSpace, List.mem_cons, List.not_mem_nil, or_false, decide_eq_false_iff_not]
  omega

/-- The text of an integer ends in a digit. -/
theorem isDigit_last_toString (value : ℤ) :
    ∃ c, (toString value).toList.getLast? = some c ∧ c.isDigit = true := by
  have hrepr : ∀ n : ℕ, ∃ c, n.repr.toList.getLast? = some c ∧ c.isDigit = true := by
    intro n
    have hne : n.repr.toList ≠ [] := by
      rw [Nat.toList_repr]
      exact Nat.toDigits_ne_nil
    exact ⟨_, List.getLast?_eq_some_getLast hne, isDigit_of_mem_repr (List.getLast_mem hne)⟩
  cases value with
  | ofNat n => exact hrepr n
  | negSucc n =>
    obtain ⟨c, hlast, hdigit⟩ := hrepr (n + 1)
    refine ⟨c, ?_, hdigit⟩
    change ("-" ++ (n + 1).repr).toList.getLast? = some c
    rw [String.toList_append, List.getLast?_append, hlast, Option.some_or]

/-- `value.upper()`, for the letters of currency codes. -/
def upper (value : String) : String :=
  String.ofList (value.toList.map Char.toUpper)

/-- `value.casefold()`, for the letters of account ids. -/
def casefold (value : String) : String :=
  String.ofList (value.toList.map Char.toLower)

/-- `bool(value)` of an optional string: neither `None` nor empty. -/
def truthy (value : Option String) : Bool :=
  value.any (· ≠ "")

/-- `value or ""`. -/
def textOf (value : Option String) : String :=
  value.getD ""

@[simp] theorem truthy_none : truthy none = false :=
  rfl

@[simp] theorem truthy_some : truthy (some value) = decide (value ≠ "") :=
  rfl

/-- The list without the occurrences of a pattern, from left to right; `skip` more elements belong
to the occurrence at hand. -/
def removeAll (pattern : List Char) : ℕ → List Char → List Char
  | _, [] => []
  | skip + 1, _ :: rest => removeAll pattern skip rest
  | 0, c :: rest =>
    if pattern.isPrefixOf (c :: rest) then removeAll pattern (pattern.length - 1) rest
    else c :: removeAll pattern 0 rest

/-- `text.replace(pattern, "")`. -/
def dropText (pattern text : String) : String :=
  String.ofList (removeAll pattern.toList 0 text.toList)

theorem length_removeAll_le (pattern text : List Char) (skip : ℕ) :
    (removeAll pattern skip text).length ≤ text.length := by
  induction text generalizing skip with
  | nil => simp [removeAll]
  | cons c rest ih =>
    cases skip with
    | succ skip => exact (ih skip).trans (Nat.le_succ _)
    | zero =>
      rw [removeAll]
      split
      · exact (ih _).trans (Nat.le_succ _)
      · exact Nat.succ_le_succ (ih 0)

/-! ### UUIDs -/

/-- A lowercase hexadecimal digit. -/
def isHexDigit (c : Char) : Bool :=
  c.isDigit || ('a' ≤ c && c ≤ 'f')

/-- The text of a UUID as `str` gives it: lowercase hexadecimal digits in groups of 8, 4, 4, 4
and 12. -/
def isCanonicalUuid (text : String) : Bool :=
  text.toList.length = 36 && text.toList.zipIdx.all fun digit ↦
    if digit.2 ∈ [8, 13, 18, 23] then digit.1 == '-' else isHexDigit digit.1

/-- A UUID by its canonical text. -/
structure Uuid where
  text : String
  canonical : isCanonicalUuid text = true
  deriving DecidableEq

/-- The hyphens of the canonical text. -/
def hyphenate (digits : List Char) : String :=
  String.ofList (digits.take 8 ++ '-' :: (digits.drop 8).take 4 ++ '-' :: (digits.drop 12).take 4 ++
    '-' :: (digits.drop 16).take 4 ++ '-' :: digits.drop 20)

/-- `UUID(text)`: the canonical text, or its other spellings (a `urn:uuid:` prefix, braces,
uppercase digits, hyphens elsewhere or nowhere); `None` where Python raises `ValueError`. -/
def Uuid.parse (text : String) : Option Uuid :=
  if h : isCanonicalUuid text then some ⟨text, h⟩
  else
    let bare := (dropText "uuid:" (dropText "urn:" text)).toList.dropWhile (· ∈ ['\x7b', '\x7d'])
    let digits := ((bare.reverse.dropWhile (· ∈ ['\x7b', '\x7d'])).reverse.filter (· ≠ '-')).map
      Char.toLower
    if hcanonical : digits.length = 32 ∧ isCanonicalUuid (hyphenate digits) then
      some ⟨hyphenate digits, hcanonical.2⟩
    else none

/-- The text of a UUID parses to it. -/
@[simp] theorem Uuid.parse_text : Uuid.parse uuid.text = some uuid := by
  unfold Uuid.parse
  rw [dif_pos uuid.canonical]

/-- A shorter text spells no UUID. -/
theorem Uuid.parse_eq_none {text : String} (h : text.toList.length < 32) :
    Uuid.parse text = none := by
  have hshort : isCanonicalUuid text = false := by
    simp only [isCanonicalUuid, Bool.and_eq_false_iff, decide_eq_false_iff_not]
    exact Or.inl (by omega)
  have hlength : (dropText "uuid:" (dropText "urn:" text)).toList.length < 32 := by
    simp only [dropText, String.toList_ofList]
    exact ((length_removeAll_le _ _ _).trans (length_removeAll_le _ _ _)).trans_lt h
  unfold Uuid.parse
  rw [dif_neg (by simp [hshort]), dif_neg]
  rintro ⟨hdigits, -⟩
  rw [List.length_map] at hdigits
  have hfilter := List.length_filter_le (· ≠ '-')
    (((dropText "uuid:" (dropText "urn:" text)).toList.dropWhile
      (· ∈ ['\x7b', '\x7d'])).reverse.dropWhile (· ∈ ['\x7b', '\x7d'])).reverse
  have hdrop (chars : List Char) :
      (chars.dropWhile (· ∈ ['\x7b', '\x7d'])).length ≤ chars.length :=
    (List.dropWhile_suffix _).length_le
  have hright := hdrop
    ((dropText "uuid:" (dropText "urn:" text)).toList.dropWhile (· ∈ ['\x7b', '\x7d'])).reverse
  have hleft := hdrop (dropText "uuid:" (dropText "urn:" text)).toList
  rw [List.length_reverse] at hfilter hright
  omega

theorem Uuid.length_text : uuid.text.toList.length = 36 := by
  have h := uuid.canonical
  rw [isCanonicalUuid, Bool.and_eq_true, decide_eq_true_iff] at h
  exact h.1

theorem Uuid.text_injective : Function.Injective Uuid.text := by
  rintro ⟨first, _⟩ ⟨second, _⟩ h
  simpa using h

/-- `UUID(text) if text else None`. -/
def optionalUuid (text : String) : Result (Option Uuid) :=
  if text = "" then .ok none
  else match Uuid.parse text with
    | some uuid => .ok (some uuid)
    | none => raise .valueError "badly formed hexadecimal UUID string"

theorem optionalUuid_text : optionalUuid uuid.text = .ok (some uuid) := by
  have hne : uuid.text ≠ "" := by
    intro hempty
    have hlength := uuid.length_text
    rw [hempty] at hlength
    exact absurd hlength (by decide)
  rw [optionalUuid, if_neg hne, Uuid.parse_text]

/-! ### Which exceptions a call raises -/

/-- Every exception that the call raises is of an allowed kind. -/
def RaisesOnly {α : Type} (allowed : ErrorKind → Prop) (call : Result α) : Prop :=
  ∀ raised, call = .error raised → allowed raised.kind

namespace RaisesOnly

variable {α β : Type} {allowed other : ErrorKind → Prop} {call : Result α}

theorem ok (value : α) : RaisesOnly allowed (.ok value : Result α) := by
  intro raised h
  cases h

theorem raise {kind : ErrorKind} (h : allowed kind) (message : String) :
    RaisesOnly allowed (CloudPlatform.raise kind message : Result α) := by
  intro raised hraised
  rw [← Except.error.inj hraised]
  exact h

theorem rejectIf {kind : ErrorKind} (h : allowed kind) (condition : Bool) (message : String) :
    RaisesOnly allowed (CloudPlatform.rejectIf condition kind message) := by
  cases condition with
  | false => exact ok ()
  | true => exact raise h message

theorem bind {next : α → Result β} (hcall : RaisesOnly allowed call)
    (hnext : ∀ value, call = .ok value → RaisesOnly allowed (next value)) :
    RaisesOnly allowed (call >>= next) := by
  cases hresult : call with
  | ok value => exact hnext value hresult
  | error raised =>
    intro other hother
    rw [← Except.error.inj hother]
    exact hcall raised hresult

theorem mono (h : RaisesOnly allowed call) (hallowed : ∀ kind, allowed kind → other kind) :
    RaisesOnly other call :=
  fun raised hraised ↦ hallowed _ (h raised hraised)

end RaisesOnly

end CloudPlatform
