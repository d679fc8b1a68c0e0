import CloudPlatform.Core.Casing
import CloudPlatform.Core.OffsetTimestamps
import CloudPlatform.Core.RelativeErrors
import CloudPlatform.Fx.Domain
import CloudPlatform.Operations.StatePlan

/-!
# Frozen conversions

The record of a financially binding conversion and its text form, which is stored and compared when the
conversion is replayed. The constructor computes the target amount again, from a product with a working
precision of 512 digits; `Accepted` is what it leaves of a record. A record is read back with the fixed
offsets that its datetimes have, which `Standing` says is no loss, and whatever is read has a target
that was rounded once from that product (`frozen_conversions`).
-/

namespace CloudPlatform.Fx

open Billing (currencyExponent maxInt64)
open Calendar (InRange Moment fromIsoformat)
open Decimals
open Operations (lower)

/-! ### Datetimes -/

/-- A `datetime`. Its zone is a fixed offset, or a region of the zone database whose offset may depend
on `fold`. -/
structure Datetime extends Moment where
  region : Option String := none
  folds : Bool := false
  wall_range : InRange wall := by decide
  offset_range : ∀ value ∈ offset, |value| < Calendar.day := by decide
  deriving DecidableEq

namespace Datetime

/-- The datetime with the fixed offset that it has. -/
def fixed (datetime : Datetime) : Datetime :=
  { datetime with region := none, folds := false }

/-- `first <= second` of aware datetimes: in one region the clocks are compared, else the instants. -/
def notAfter (first second : Datetime) : Bool :=
  if first.region.isSome ∧ first.region = second.region then first.wall ≤ second.wall
  else first.instant ≤ second.instant

/-- `first == second` of aware datetimes: in one region the clocks are compared, else the instants; a
datetime whose offset depends on `fold` equals none of another zone. -/
def same (first second : Datetime) : Bool :=
  if first.region.isSome ∧ first.region = second.region then first.wall = second.wall
  else !first.folds && !second.folds && first.instant = second.instant

/-- `datetime.fromisoformat`, for the extended calendar format; `None` where it raises
`ValueError`. -/
def read (text : String) : Option Datetime :=
  match fromIsoformat text with
  | some moment =>
    if h : InRange moment.wall ∧ ∀ value ∈ moment.offset, |value| < Calendar.day then
      some { toMoment := moment, wall_range := h.1, offset_range := h.2 }
    else none
  | none => none

/-- A datetime is read back with the offset that it had. -/
theorem read_isoformat (datetime : Datetime) : read datetime.isoformat = some datetime.fixed := by
  obtain ⟨moment, region, folds, hwall, hoffset⟩ := datetime
  unfold read
  rw [Calendar.fromIsoformat_moment hwall hoffset]
  exact dif_pos ⟨hwall, hoffset⟩

theorem same_fixed (datetime : Datetime) : datetime.fixed.same datetime = !datetime.folds := by
  have hinstant : datetime.fixed.instant = datetime.instant := rfl
  have hregion : datetime.fixed.region = none := rfl
  have hfolds : datetime.fixed.folds = false := rfl
  simp [same, hinstant, hregion, hfolds]

end Datetime

/-! ### The record -/

/-- `FX_MATH_PRECISION`, as a context. -/
def workingContext : Context where
  precision := 512

/-- `FxPurpose.value`. -/
def FxPurpose.value : FxPurpose → String
  | .display => "display"
  | .charge => "charge"
  | .liquidation => "liquidation"

/-- `FxPurpose(value)`. -/
def FxPurpose.ofValue (value : String) : Result FxPurpose :=
  match [FxPurpose.display, .charge, .liquidation].find? (·.value = value) with
  | some purpose => .ok purpose
  | none => raise .valueError s!"'{value}' is not a valid FxPurpose"

/-- `ConversionSnapshot`. -/
structure ConversionSnapshot where
  sourceAmountMinor : ℤ
  sourceCurrency : String
  targetAmountMinor : ℤ
  targetCurrency : String
  rate : Decimal
  purpose : FxPurpose
  source : String
  path : String
  observedAt : Datetime
  proxy : Bool := false
  proxyAsset : String := ""
  expiresAt : Option Datetime := none
  stale : Bool := false
  deriving DecidableEq

namespace ConversionSnapshot

/-- The target amount, computed again. -/
def expectedTarget (snapshot : ConversionSnapshot) : Result ℤ := do
  let major ← minorToMajor snapshot.sourceAmountMinor snapshot.sourceCurrency
  let product ← arithmetic (workingContext.multiply major snapshot.rate)
  majorToMinor product snapshot.targetCurrency snapshot.purpose

/-- `except (InvalidOperation, ValueError, OverflowError)` around it. -/
def inRange {α : Type} : Result α → Result α
  | .ok value => .ok value
  | .error raised =>
    if raised.kind ∈ [.decimalInvalidOperation, .valueError, .overflowError] then
      raise .fxInvalidQuote "conversion snapshot amounts are outside the audited numeric range"
    else .error raised

/-- An amount that the record cannot hold. -/
def unstorable (amount : ℤ) : Bool :=
  amount < 0 || maxInt64 < amount

/-- `__post_init__`: the record with its normal forms. -/
def construct (given : ConversionSnapshot) : Result ConversionSnapshot := do
  let source ← normalizeCurrency given.sourceCurrency
  let target ← normalizeCurrency given.targetCurrency
  let snapshot : ConversionSnapshot :=
    { given with sourceCurrency := source, targetCurrency := target }
  rejectIf (unstorable snapshot.sourceAmountMinor) .fxInvalidQuote
    "source_amount_minor must be a non-negative integer"
  rejectIf (unstorable snapshot.targetAmountMinor) .fxInvalidQuote
    "target_amount_minor must be a non-negative integer"
  rejectIf (!snapshot.rate.positive) .fxInvalidQuote
    "conversion snapshot rate must be a positive finite Decimal"
  rejectIf (512 < numDigits snapshot.rate.coefficient || 1000 < snapshot.rate.exponent.natAbs)
    .fxInvalidQuote "conversion snapshot rate exceeds the audited numeric range"
  let expected ← inRange snapshot.expectedTarget
  rejectIf (expected ≠ snapshot.targetAmountMinor) .fxInvalidQuote
    "conversion snapshot amounts do not match the exact rate"
  rejectIf snapshot.observedAt.naive .fxInvalidQuote
    "conversion snapshot observed_at must be timezone-aware"
  rejectIf (snapshot.expiresAt.any fun expiry ↦
      expiry.naive || expiry.notAfter snapshot.observedAt)
    .fxInvalidQuote "conversion snapshot expiry must be a later aware datetime"
  rejectIf (snapshot.purpose ≠ .display && snapshot.expiresAt.isNone) .fxInvalidQuote
    "binding FX snapshots require an expiry timestamp"
  rejectIf (strip snapshot.source = "" || strip snapshot.path = "") .fxInvalidQuote
    "conversion snapshot provenance must be non-empty"
  let asset := upper (strip snapshot.proxyAsset)
  rejectIf (snapshot.proxy && asset ≠ "USDT") .fxInvalidQuote
    "proxy conversion must identify the audited USDT asset"
  rejectIf (!snapshot.proxy && asset ≠ "") .fxInvalidQuote
    "non-proxy conversion must not identify a proxy asset"
  return { snapshot with proxyAsset := asset }

/-- `first == second`. -/
def same (first second : ConversionSnapshot) : Bool :=
  { first with observedAt := second.observedAt, expiresAt := second.expiresAt } = second &&
    first.observedAt.same second.observedAt &&
    match first.expiresAt, second.expiresAt with
    | some expiry, some other => expiry.same other
    | none, none => true
    | _, _ => false

/-- `"true" if flag else "false"`. -/
def flagText (flag : Bool) : String :=
  if flag then "true" else "false"

/-- `to_dict`. -/
def toDict (snapshot : ConversionSnapshot) : List (String × String) :=
  [("source_amount_minor", intText snapshot.sourceAmountMinor),
    ("source_currency", snapshot.sourceCurrency),
    ("target_amount_minor", intText snapshot.targetAmountMinor),
    ("target_currency", snapshot.targetCurrency),
    ("rate", snapshot.rate.text),
    ("purpose", snapshot.purpose.value),
    ("source", snapshot.source),
    ("path", snapshot.path),
    ("observed_at", snapshot.observedAt.isoformat),
    ("proxy", flagText snapshot.proxy),
    ("proxy_asset", snapshot.proxyAsset),
    ("expires_at", (snapshot.expiresAt.map (·.isoformat)).getD ""),
    ("stale", flagText snapshot.stale)]

/-- `data[key]`. -/
def item (data : List (String × String)) (key : String) : Result String :=
  match data.lookup key with
  | some value => .ok value
  | none => raise .keyError s!"'{key}'"

/-- `int(text)`. -/
def intOf (text : String) : Result ℤ :=
  match parseInt text with
  | some value => .ok value
  | none => raise .valueError s!"invalid literal for int() with base 10: '{text}'"

/-- `parse_rate`. -/
def parseRate (raw field : String) : Result Decimal :=
  match parseDecimal raw with
  | some (.number value) =>
    if value.positive then .ok value
    else raise .fxInvalidQuote s!"non-positive or non-finite rate field '{field}'"
  | some _ => raise .fxInvalidQuote s!"non-positive or non-finite rate field '{field}'"
  | none => raise .fxInvalidQuote s!"malformed rate field '{field}'"

/-- A text that must spell a truth value. -/
def flagOf (raw field : String) : Result Bool := do
  rejectIf (lower raw ∉ ["true", "false"]) .valueError s!"snapshot {field} must be true or false"
  return lower raw = "true"

/-- `datetime.fromisoformat(text)`. -/
def datetimeOf (fromisoformat : String → Option Datetime) (text : String) : Result Datetime :=
  match fromisoformat text with
  | some datetime => .ok datetime
  | none => raise .valueError s!"Invalid isoformat string: '{text}'"

/-- `datetime.fromisoformat(text) if text else None`. -/
def expiryOf (fromisoformat : String → Option Datetime) (text : String) : Result (Option Datetime) :=
  if text = "" then .ok none else do return some (← datetimeOf fromisoformat text)

/-- `except (KeyError, TypeError, ValueError, InvalidOperation)` around the reading. -/
def wellFormed {α : Type} : Result α → Result α
  | .ok value => .ok value
  | .error raised =>
    if raised.kind ∈ [.keyError, .typeError, .valueError, .decimalInvalidOperation] then
      raise .fxInvalidQuote s!"malformed conversion snapshot: {raised.message}"
    else .error raised

/-- `from_dict` of a mapping of texts. -/
def fromDict (fromisoformat : String → Option Datetime) (data : List (String × String)) :
    Result ConversionSnapshot := wellFormed do
  let sourceAmount ← item data "source_amount_minor"
  let targetAmount ← item data "target_amount_minor"
  let proxy ← flagOf ((data.lookup "proxy").getD "false") "proxy"
  let stale ← flagOf ((data.lookup "stale").getD "false") "stale"
  let expiresRaw := strip ((data.lookup "expires_at").getD "")
  let sourceAmountMinor ← intOf sourceAmount
  let sourceCurrency ← item data "source_currency"
  let targetAmountMinor ← intOf targetAmount
  let targetCurrency ← item data "target_currency"
  let rate ← parseRate (← item data "rate") "conversion_snapshot.rate"
  let purpose ← FxPurpose.ofValue (← item data "purpose")
  let source ← item data "source"
  let observedAt ← datetimeOf fromisoformat (← item data "observed_at")
  let expiresAt ← expiryOf fromisoformat expiresRaw
  construct {
    sourceAmountMinor := sourceAmountMinor
    sourceCurrency := sourceCurrency
    targetAmountMinor := targetAmountMinor
    targetCurrency := targetCurrency
    rate := rate
    purpose := purpose
    source := source
    path := (data.lookup "path").getD ""
    observedAt := observedAt
    proxy := proxy
    proxyAsset := (data.lookup "proxy_asset").getD ""
    expiresAt := expiresAt
    stale := stale }

/-! ### What the constructor leaves -/

/-- A record as the constructor leaves it. -/
structure Accepted (snapshot : ConversionSnapshot) : Prop where
  source_normal : normalizeCurrency snapshot.sourceCurrency = .ok snapshot.sourceCurrency
  target_normal : normalizeCurrency snapshot.targetCurrency = .ok snapshot.targetCurrency
  source_storable : unstorable snapshot.sourceAmountMinor = false
  target_storable : unstorable snapshot.targetAmountMinor = false
  rate_positive : snapshot.rate.positive = true
  rate_range : (512 < numDigits snapshot.rate.coefficient ||
    1000 < snapshot.rate.exponent.natAbs : Bool) = false
  expected : snapshot.expectedTarget = .ok snapshot.targetAmountMinor
  observed_aware : snapshot.observedAt.naive = false
  expiry_later : (snapshot.expiresAt.any fun expiry ↦
    expiry.naive || expiry.notAfter snapshot.observedAt) = false
  binding_expires : (snapshot.purpose ≠ .display && snapshot.expiresAt.isNone : Bool) = false
  provenance : (strip snapshot.source = "" || strip snapshot.path = "" : Bool) = false
  asset_normal : upper (strip snapshot.proxyAsset) = snapshot.proxyAsset
  asset_of_proxy : (snapshot.proxy && snapshot.proxyAsset ≠ "USDT" : Bool) = false
  no_asset : (!snapshot.proxy && snapshot.proxyAsset ≠ "" : Bool) = false

theorem inRange_eq_ok {α : Type} {call : Result α} {value : α} :
    inRange call = .ok value ↔ call = .ok value := by
  cases call with
  | ok found => rfl
  | error raised =>
    unfold inRange
    dsimp only
    split_ifs <;> simp [raise]

theorem wellFormed_eq_ok {α : Type} {call : Result α} {value : α} :
    wellFormed call = .ok value ↔ call = .ok value := by
  cases call with
  | ok found => rfl
  | error raised =>
    unfold wellFormed
    dsimp only
    split_ifs <;> simp [raise]

theorem normalizeCurrency_idem {currency code : String}
    (h : normalizeCurrency currency = .ok code) : normalizeCurrency code = .ok code := by
  unfold normalizeCurrency at h ⊢
  dsimp only at h ⊢
  by_cases hcode : 2 ≤ (upper (strip currency)).length ∧ (upper (strip currency)).length ≤ 5 ∧
      (upper (strip currency)).toList.all Char.isAlpha
  · rw [if_pos hcode] at h
    rw [← Except.ok.inj h, upper_strip_upper_strip, if_pos hcode]
  · rw [if_neg hcode] at h
    exact absurd h raise_ne_ok

variable {given snapshot : ConversionSnapshot}

theorem construct_eq_ok (h : given.construct = .ok snapshot) :
    Accepted snapshot ∧ snapshot.observedAt = given.observedAt ∧
      snapshot.expiresAt = given.expiresAt := by
  obtain ⟨source, hsource, h⟩ := bind_eq_ok.mp h
  obtain ⟨target, htarget, h⟩ := bind_eq_ok.mp h
  obtain ⟨hsourceAmount, h⟩ := rejectIf_bind_eq_ok.mp h
  obtain ⟨htargetAmount, h⟩ := rejectIf_bind_eq_ok.mp h
  obtain ⟨hpositive, h⟩ := rejectIf_bind_eq_ok.mp h
  obtain ⟨hrange, h⟩ := rejectIf_bind_eq_ok.mp h
  obtain ⟨expected, hexpected, h⟩ := bind_eq_ok.mp h
  obtain ⟨hmatch, h⟩ := rejectIf_bind_eq_ok.mp h
  obtain ⟨hobserved, h⟩ := rejectIf_bind_eq_ok.mp h
  obtain ⟨hexpiry, h⟩ := rejectIf_bind_eq_ok.mp h
  obtain ⟨hbinding, h⟩ := rejectIf_bind_eq_ok.mp h
  obtain ⟨hprovenance, h⟩ := rejectIf_bind_eq_ok.mp h
  obtain ⟨hproxy, h⟩ := rejectIf_bind_eq_ok.mp h
  obtain ⟨hnone, h⟩ := rejectIf_bind_eq_ok.mp h
  obtain rfl := pure_eq_ok.mp h
  have htargetEq : expected = given.targetAmountMinor := by simpa using hmatch
  rw [htargetEq] at hexpected
  refine ⟨?_, rfl, rfl⟩
  exact {
    source_normal := normalizeCurrency_idem hsource
    target_normal := normalizeCurrency_idem htarget
    source_storable := hsourceAmount
    target_storable := htargetAmount
    rate_positive := by simpa using hpositive
    rate_range := hrange
    expected := by
      have htarget := inRange_eq_ok.mp hexpected
      unfold expectedTarget at htarget ⊢
      exact htarget
    observed_aware := hobserved
    expiry_later := hexpiry
    binding_expires := hbinding
    provenance := hprovenance
    asset_normal := upper_strip_upper_strip given.proxyAsset
    asset_of_proxy := hproxy
    no_asset := hnone }

/-- What the constructor leaves is its own normal form. -/
theorem Accepted.construct (h : Accepted snapshot) : snapshot.construct = .ok snapshot := by
  unfold ConversionSnapshot.construct
  rw [h.source_normal, ok_bind, h.target_normal, ok_bind]
  dsimp only
  rw [rejectIf_bind h.source_storable, rejectIf_bind h.target_storable,
    rejectIf_bind (by rw [h.rate_positive]; rfl), rejectIf_bind h.rate_range,
    inRange_eq_ok.mpr h.expected, ok_bind, rejectIf_bind (by simp),
    rejectIf_bind h.observed_aware, rejectIf_bind h.expiry_later, rejectIf_bind h.binding_expires,
    rejectIf_bind h.provenance, h.asset_normal, rejectIf_bind h.asset_of_proxy,
    rejectIf_bind h.no_asset]
  rfl

/-- The record with the fixed offsets of its datetimes. -/
def fixed (snapshot : ConversionSnapshot) : ConversionSnapshot :=
  { snapshot with
    observedAt := snapshot.observedAt.fixed
    expiresAt := snapshot.expiresAt.map (·.fixed) }

/-- The offsets of the datetimes do not depend on `fold`, and the expiry is also a later instant. -/
def Standing (snapshot : ConversionSnapshot) : Prop :=
  snapshot.observedAt.folds = false ∧ ∀ expiry ∈ snapshot.expiresAt,
    expiry.folds = false ∧ snapshot.observedAt.instant < expiry.instant

theorem same_fixed (snapshot : ConversionSnapshot) : snapshot.fixed.same snapshot ↔
      snapshot.observedAt.folds = false ∧ ∀ expiry ∈ snapshot.expiresAt, expiry.folds = false := by
  have hobserved : snapshot.fixed.observedAt = snapshot.observedAt.fixed := rfl
  have hexpires : snapshot.fixed.expiresAt = snapshot.expiresAt.map (·.fixed) := rfl
  have hrest : { snapshot.fixed with
      observedAt := snapshot.observedAt, expiresAt := snapshot.expiresAt } = snapshot := rfl
  rw [same, hrest, hobserved, hexpires, Datetime.same_fixed]
  cases snapshot.expiresAt with
  | none => simp
  | some expiry => simp [Datetime.same_fixed]

theorem toDict_fixed (snapshot : ConversionSnapshot) : snapshot.fixed.toDict = snapshot.toDict := by
  obtain ⟨_, _, _, _, _, _, _, _, _, _, _, expiry, _⟩ := snapshot
  cases expiry <;> rfl

/-- With fixed offsets the expiry is compared by its instant. -/
theorem later_fixed (haccepted : Accepted snapshot) : (snapshot.fixed.expiresAt.any fun expiry ↦
      expiry.naive || expiry.notAfter snapshot.fixed.observedAt) = false ↔
      ∀ expiry ∈ snapshot.expiresAt, snapshot.observedAt.instant < expiry.instant := by
  have hlater := haccepted.expiry_later
  have hexpires : snapshot.fixed.expiresAt = snapshot.expiresAt.map (·.fixed) := rfl
  rw [hexpires]
  cases hcase : snapshot.expiresAt with
  | none => simp
  | some expiry =>
    rw [hcase, Option.any_some, Bool.or_eq_false_iff] at hlater
    have haware : expiry.fixed.naive = false := hlater.1
    have hnotAfter : expiry.fixed.notAfter snapshot.fixed.observedAt =
        decide (expiry.instant ≤ snapshot.observedAt.instant) := rfl
    simp [haware, hnotAfter]

theorem Accepted.fixed (haccepted : Accepted snapshot)
    (hlater : ∀ expiry ∈ snapshot.expiresAt, snapshot.observedAt.instant < expiry.instant) :
    Accepted snapshot.fixed :=
  { haccepted with
    expected := haccepted.expected
    observed_aware := haccepted.observed_aware
    expiry_later := (later_fixed haccepted).mpr hlater
    binding_expires := by
      have hnone : snapshot.fixed.expiresAt.isNone = snapshot.expiresAt.isNone := Option.isNone_map
      rw [hnone]
      exact haccepted.binding_expires }

/-! ### Reading back -/

section Reading

variable {fromisoformat : String → Option Datetime}

theorem ofValue_value (purpose : FxPurpose) : FxPurpose.ofValue purpose.value = .ok purpose := by
  cases purpose <;> decide

theorem flagOf_flagText (flag : Bool) (field : String) :
    flagOf (flagText flag) field = .ok flag := by
  have htexts : lower "true" = "true" ∧ lower "false" = "false" := by decide +kernel
  unfold flagOf flagText
  cases flag with
  | true =>
    rw [if_pos rfl, htexts.1]
    rfl
  | false =>
    rw [if_neg Bool.false_ne_true, htexts.2]
    rfl

theorem parseRate_text {rate : Decimal} (h : rate.positive = true) (field : String) :
    parseRate rate.text field = .ok rate := by
  unfold parseRate
  rw [parseDecimal_text]
  exact if_pos h

theorem isSpace_secondsChars (seconds micros : ℕ) :
    ∀ c ∈ Calendar.secondsChars seconds micros, isSpace c = false := by
  have hdigits : ∀ width n, ∀ c ∈ Calendar.digits width n, isSpace c = false :=
    fun _ _ _ hc ↦ isSpace_of_isDigit (Calendar.isDigit_of_mem_digits hc)
  unfold Calendar.secondsChars
  rw [List.forall_mem_append]
  refine ⟨hdigits _ _, ?_⟩
  split_ifs
  · exact fun c hc ↦ absurd hc List.not_mem_nil
  · exact List.forall_mem_cons.mpr ⟨by decide, hdigits _ _⟩

variable (moment : Moment)

/-- There is no blank in the text of a datetime. -/
theorem isSpace_chars : ∀ c ∈ moment.chars, isSpace c = false := by
  have hdigits : ∀ width n, ∀ c ∈ Calendar.digits width n, isSpace c = false :=
    fun _ _ _ hc ↦ isSpace_of_isDigit (Calendar.isDigit_of_mem_digits hc)
  have hoffset : ∀ offset, ∀ c ∈ Calendar.offsetChars offset, isSpace c = false := by
    intro offset
    unfold Calendar.offsetChars Calendar.offsetClockChars
    rw [List.forall_mem_cons, List.forall_mem_append, List.forall_mem_cons, List.forall_mem_append]
    refine ⟨by split_ifs <;> decide, hdigits _ _, by decide, hdigits _ _, ?_⟩
    split_ifs
    · exact fun c hc ↦ absurd hc List.not_mem_nil
    · exact List.forall_mem_cons.mpr ⟨by decide, isSpace_secondsChars _ _⟩
  unfold Calendar.Moment.chars Calendar.clockChars
  rw [Calendar.toList_dateText]
  simp only [List.forall_mem_append, List.forall_mem_cons]
  refine ⟨⟨hdigits _ _, by decide, hdigits _ _, by decide, hdigits _ _⟩, by decide,
    ⟨hdigits _ _, by decide, hdigits _ _, by decide, isSpace_secondsChars _ _⟩, ?_⟩
  cases moment.offset with
  | none => exact fun c hc ↦ absurd hc List.not_mem_nil
  | some offset => exact hoffset offset

theorem strip_isoformat : strip moment.isoformat = moment.isoformat := by
  apply strip_eq_self
  · intro c hc
    rw [Calendar.Moment.isoformat, String.toList_ofList] at hc
    exact isSpace_chars moment c (List.mem_of_mem_head? hc)
  · intro c hc
    rw [Calendar.Moment.isoformat, String.toList_ofList] at hc
    exact isSpace_chars moment c (List.mem_of_mem_getLast? hc)

theorem isoformat_ne_empty : moment.isoformat ≠ "" := by
  intro h
  have hchars := congrArg String.toList h
  rw [Calendar.Moment.isoformat, String.toList_ofList] at hchars
  exact absurd (List.append_eq_nil_iff.mp hchars).2 (List.cons_ne_nil _ _)

/-- What is built from the text of an accepted record is the record with fixed offsets. -/
theorem fromDict_toDict (hread : ∀ text datetime, Datetime.read text = some datetime →
      fromisoformat text = some datetime) (haccepted : Accepted snapshot) :
    fromDict fromisoformat snapshot.toDict = wellFormed snapshot.fixed.construct := by
  have hdatetime : ∀ datetime : Datetime,
      datetimeOf fromisoformat datetime.isoformat = .ok datetime.fixed := by
    intro datetime
    rw [datetimeOf, hread _ _ (Datetime.read_isoformat datetime)]
  have hint : ∀ value : ℤ, intOf (intText value) = .ok value := by
    intro value
    rw [intOf, parseInt_intText]
  have hexpiry : expiryOf fromisoformat (strip ((snapshot.expiresAt.map (·.isoformat)).getD "")) =
      .ok (snapshot.expiresAt.map (·.fixed)) := by
    cases hcase : snapshot.expiresAt with
    | none => rfl
    | some expiry =>
      change expiryOf fromisoformat (strip expiry.isoformat) = _
      rw [strip_isoformat, expiryOf, if_neg (isoformat_ne_empty _), hdatetime expiry]
      rfl
  have hsource : item snapshot.toDict "source_amount_minor" =
      .ok (intText snapshot.sourceAmountMinor) := rfl
  have htarget : item snapshot.toDict "target_amount_minor" =
      .ok (intText snapshot.targetAmountMinor) := rfl
  have hproxy : (snapshot.toDict.lookup "proxy").getD "false" = flagText snapshot.proxy := rfl
  have hstale : (snapshot.toDict.lookup "stale").getD "false" = flagText snapshot.stale := rfl
  have hexpiresText : (snapshot.toDict.lookup "expires_at").getD "" =
      (snapshot.expiresAt.map (·.isoformat)).getD "" := rfl
  have hsourceCurrency : item snapshot.toDict "source_currency" = .ok snapshot.sourceCurrency := rfl
  have htargetCurrency : item snapshot.toDict "target_currency" = .ok snapshot.targetCurrency := rfl
  have hrate : item snapshot.toDict "rate" = .ok snapshot.rate.text := rfl
  have hpurpose : item snapshot.toDict "purpose" = .ok snapshot.purpose.value := rfl
  have horigin : item snapshot.toDict "source" = .ok snapshot.source := rfl
  have hobservedText : item snapshot.toDict "observed_at" = .ok snapshot.observedAt.isoformat := rfl
  have hpath : (snapshot.toDict.lookup "path").getD "" = snapshot.path := rfl
  have hasset : (snapshot.toDict.lookup "proxy_asset").getD "" = snapshot.proxyAsset := rfl
  unfold fromDict
  rw [hsource, htarget, hproxy, hstale, hexpiresText, hsourceCurrency, htargetCurrency, hrate,
    hpurpose, horigin, hobservedText, hpath, hasset]
  simp only [ok_bind, flagOf_flagText, hint, parseRate_text haccepted.rate_positive,
    ofValue_value, hdatetime, hexpiry]
  rfl

/-- An accepted record is read back as an equal one with the same text exactly when it stands. -/
theorem standing_iff (hread : ∀ text datetime, Datetime.read text = some datetime →
      fromisoformat text = some datetime) (haccepted : Accepted snapshot) :
    (∃ back, fromDict fromisoformat snapshot.toDict = .ok back ∧ back.same snapshot ∧
      back.toDict = snapshot.toDict) ↔ snapshot.Standing := by
  rw [fromDict_toDict hread haccepted]
  constructor
  · rintro ⟨back, hconstruct, hsame, -⟩
    obtain ⟨hback, hobserved, hexpires⟩ := construct_eq_ok (wellFormed_eq_ok.mp hconstruct)
    have hlater := hback.expiry_later
    rw [hobserved, hexpires, later_fixed haccepted] at hlater
    have hfixed := (haccepted.fixed hlater).construct
    obtain rfl := Except.ok.inj (hfixed.symm.trans (wellFormed_eq_ok.mp hconstruct))
    obtain ⟨hfolds, hexpiries⟩ := (same_fixed snapshot).mp hsame
    exact ⟨hfolds, fun expiry h ↦ ⟨hexpiries expiry h, hlater expiry h⟩⟩
  · intro hstanding
    have hfixed := (haccepted.fixed fun expiry h ↦ (hstanding.2 expiry h).2).construct
    exact ⟨snapshot.fixed, wellFormed_eq_ok.mpr hfixed,
      (same_fixed snapshot).mpr ⟨hstanding.1, fun expiry h ↦ (hstanding.2 expiry h).1⟩,
      toDict_fixed snapshot⟩

end Reading

/-! ### The target amount -/

/-- The target amount is the product of the source amount and the rate, which the working precision
keeps up to its last digit and exactly if it has no more digits, rounded once for the purpose. -/
def RoundedOnce (snapshot : ConversionSnapshot) : Prop :=
  ∃ (sourceExponent targetExponent : ℕ) (major product : Decimal),
    currencyExponent snapshot.sourceCurrency = .ok sourceExponent ∧
    currencyExponent snapshot.targetCurrency = .ok targetExponent ∧
    major.toRat = snapshot.sourceAmountMinor / 10 ^ sourceExponent ∧
    workingContext.multiply major snapshot.rate = .ok product ∧
    Within (workingContext.unit / 2) (major.toRat * snapshot.rate.toRat) product.toRat ∧
    (numDigits (snapshot.sourceAmountMinor.natAbs * snapshot.rate.coefficient) ≤ 512 →
      product.toRat = major.toRat * snapshot.rate.toRat) ∧
    snapshot.targetAmountMinor = snapshot.purpose.round (product.toRat * 10 ^ targetExponent)

variable {amount : ℤ} {currency : String}

theorem range_of_storable (h : unstorable amount = false) : 0 ≤ amount ∧ amount ≤ maxInt64 := by
  simpa [unstorable] using h

theorem exponent_le_two {exponent : ℕ} (h : currencyExponent currency = .ok exponent) :
    exponent ≤ 2 := by
  have hall : ∀ entry ∈ Billing.currencyExponents, entry.2 ≤ 2 := by decide
  unfold currencyExponent at h
  split at h
  · rename_i found hlookup
    obtain rfl := Except.ok.inj h
    obtain ⟨before, after, hsplit, -⟩ := List.lookup_eq_some_iff.mp hlookup
    exact hall (_, found) (hsplit ▸ List.mem_append_right before List.mem_cons_self)
  · exact absurd h raise_ne_ok

/-- The major units of an amount are its digits with the point moved. -/
theorem minorToMajor_overPow {major : Decimal} (h : minorToMajor amount currency = .ok major)
    (hamount : 0 ≤ amount) : ∃ exponent, currencyExponent currency = .ok exponent ∧
      major.toRat = amount / 10 ^ exponent ∧ major.negative = false ∧
        major.coefficient ≤ amount.natAbs ∧ -2 ≤ major.exponent ∧ major.exponent ≤ 0 := by
  obtain ⟨exponent, hexponent, hrat, hsign, hcoefficient, hlow⟩ := minorToMajor_eq_ok h hamount
  have htwo := exponent_le_two hexponent
  obtain ⟨-, h⟩ := rejectIf_bind_eq_ok.mp h
  rw [hexponent, ok_bind] at h
  have hdigits : numDigits (decimalOfInt amount).coefficient ≤
      max 50 (numDigits amount.natAbs + exponent + 20) := by
    change numDigits amount.natAbs ≤ _
    omega
  rw [arithmetic_eq_ok, divide_pow _ _ _ hdigits] at h
  have hle := exponent_overPow_le (decimalOfInt amount) exponent
  have hcut := le_exponent_overPow (decimalOfInt amount) exponent
  rw [eq_of_fix h ((numDigits_mono (coefficient_overPow_le _ _)).trans hdigits)
    (by simp only [Context.etiny]; change (0 : ℤ) - exponent ≤ _ at hcut; omega)
    fun _ ↦ hle.trans (show (0 : ℤ) ≤ 999999 by decide)] at hlow hrat hsign hcoefficient ⊢
  exact ⟨exponent, hexponent, hrat, hsign, hcoefficient, by omega, hle⟩

/-- A target that is computed again is rounded once. -/
theorem Accepted.roundedOnce (h : Accepted snapshot) : snapshot.RoundedOnce := by
  obtain ⟨hamount, hbound⟩ := range_of_storable h.source_storable
  have hrange := h.rate_range
  simp only [Bool.or_eq_false_iff, decide_eq_false_iff_not, not_lt] at hrange
  have hrateSign : snapshot.rate.negative = false := by
    have hpositive := h.rate_positive
    simp only [Decimal.positive, Bool.and_eq_true, Bool.not_eq_true'] at hpositive
    exact hpositive.1
  obtain ⟨major, hmajor, hrest⟩ := bind_eq_ok.mp h.expected
  obtain ⟨product, hproduct, hrest⟩ := bind_eq_ok.mp hrest
  obtain ⟨exponent, hexponent, hrat, hsign, hcoefficient, hlow, -⟩ :=
    minorToMajor_overPow hmajor hamount
  have hproduct := arithmetic_eq_ok.mp hproduct
  have htiny : workingContext.etiny + 1 < (major.mulExact snapshot.rate).exponent := by
    change (-1000509 : ℤ) < major.exponent + snapshot.rate.exponent
    omega
  have hnonneg : product.negative = false := by
    rw [negative_of_fix hproduct]
    change (major.negative != snapshot.rate.negative) = false
    rw [hsign, hrateSign]
    rfl
  obtain ⟨targetExponent, htarget, hround⟩ := majorToMinor_round hrest hnonneg
  refine ⟨exponent, targetExponent, major, product, hexponent, htarget, hrat, hproduct, ?_, ?_,
    hround⟩
  · rw [← Decimal.toRat_mulExact]
    exact within_fix_of_exponent hproduct (by decide) htiny
  · intro hdigits
    have hexact : (major.mulExact snapshot.rate).coefficient =
        major.coefficient * snapshot.rate.coefficient * 10 ^ 0 := by rw [pow_zero, mul_one]; rfl
    rw [← Decimal.toRat_mulExact]
    refine (toRat_of_fix hproduct hexact ((numDigits_mono ?_).trans hdigits) (by omega)).1
    exact Nat.mul_le_mul_right _ hcoefficient

/-! ### Errors -/

/-- The subclasses of `FxError`. -/
def isFxError (kind : ErrorKind) : Prop :=
  kind ∈ [.fxUnavailable, .fxStale, .fxProxyNotAllowed, .fxUnsupportedCurrency, .fxInvalidQuote]

/-- What computing a target can raise. -/
def isAmountError (kind : ErrorKind) : Prop :=
  kind ∈ [.fxUnsupportedCurrency, .valueError, .decimalInvalidOperation]

instance : DecidablePred isFxError :=
  fun kind ↦ inferInstanceAs (Decidable (kind ∈ _))

instance : DecidablePred isAmountError :=
  fun kind ↦ inferInstanceAs (Decidable (kind ∈ _))

theorem currencyExponent_raises (currency : String) :
    RaisesOnly isAmountError (currencyExponent currency) := by
  unfold currencyExponent
  split
  · exact .ok _
  · exact .raise (by decide) _

theorem numDigits_storable (h : 0 ≤ amount ∧ amount ≤ maxInt64) : numDigits amount.natAbs ≤ 19 := by
  refine numDigits_le (by decide) ?_
  have hmax : maxInt64 < 10 ^ 19 := by decide
  omega

theorem minorToMajor_raises (h : 0 ≤ amount ∧ amount ≤ maxInt64) :
    RaisesOnly isAmountError (minorToMajor amount currency) := by
  refine .bind (.rejectIf (by decide) _ _) fun _ _ ↦
    .bind (currencyExponent_raises currency) fun exponent hexponent ↦ ?_
  have htwo := exponent_le_two hexponent
  have hdigits := numDigits_storable h
  have hcoefficient := numDigits_mono (coefficient_overPow_le (decimalOfInt amount) exponent)
  have hle := exponent_overPow_le (decimalOfInt amount) exponent
  change numDigits _ ≤ numDigits amount.natAbs at hcoefficient
  change _ ≤ (0 : ℤ) at hle
  obtain ⟨fixed, hfixed⟩ : ∃ fixed, Context.divide
      ⟨max 50 (numDigits amount.natAbs + exponent + 20), 999999, -999999⟩ (decimalOfInt amount)
        (.ofNat (10 ^ exponent)) = .ok fixed := by
    rw [divide_pow _ _ _ (by change numDigits amount.natAbs ≤ _; dsimp only; omega)]
    exact fix_isOk (show (-999999 : ℤ) < 999999 by decide) (by dsimp only; omega)
  dsimp only
  rw [hfixed]
  exact .ok _

theorem majorToMinor_raises {amount : Decimal} {purpose : FxPurpose}
    (hsign : amount.negative = false) (hdigits : numDigits amount.coefficient ≤ 513) :
    RaisesOnly isAmountError (majorToMinor amount currency purpose) := by
  refine .bind (currencyExponent_raises currency) fun exponent hexponent ↦ ?_
  have htwo := exponent_le_two hexponent
  dsimp only
  refine .bind ?_ fun quantized hquantized ↦ ?_
  · cases hquantize : Context.quantize
        ⟨max 50 (numDigits amount.coefficient + exponent + 20), 999999, -999999⟩ amount (-exponent)
          (roundingFor purpose) with
    | ok quantized => exact .ok _
    | error signal =>
      rw [quantize_error hquantize]
      exact .raise (by decide) _
  · obtain ⟨⟨hunit, -⟩, -, hlength, -⟩ := quantize_round (divide_roundingFor purpose)
      (arithmetic_eq_ok.mp hquantized) (by simp) hsign
    have hpower : numDigits (10 ^ exponent) ≤ 3 :=
      numDigits_le (by decide) (Nat.pow_lt_pow_right (by decide) (by omega))
    obtain ⟨scaled, hscaled⟩ : ∃ scaled, Context.multiply
        ⟨max 50 (numDigits amount.coefficient + exponent + 20), 999999, -999999⟩ quantized
          (.ofNat (10 ^ exponent)) = .ok scaled := by
      refine multiply_isOk (show (-999999 : ℤ) < 999999 by decide) ?_
      change (numDigits quantized.coefficient : ℤ) + numDigits (10 ^ exponent) +
        (quantized.exponent + 0) ≤ 999999
      dsimp only at hlength
      omega
    rw [hscaled]
    exact .bind (.ok scaled) fun _ _ ↦ .bind (.rejectIf (by decide) _ _) fun _ _ ↦ .ok _

/-- Amounts and a rate that were checked are computed with, or do not fit. -/
theorem expectedTarget_raises (hamount : unstorable snapshot.sourceAmountMinor = false)
    (hpositive : snapshot.rate.positive = true)
    (hrange : numDigits snapshot.rate.coefficient ≤ 512 ∧ snapshot.rate.exponent.natAbs ≤ 1000) :
    RaisesOnly isAmountError snapshot.expectedTarget := by
  have hstorable := range_of_storable hamount
  refine .bind (minorToMajor_raises hstorable) fun major hmajor ↦ ?_
  obtain ⟨exponent, -, -, hsign, hcoefficient, -, hle⟩ := minorToMajor_overPow hmajor hstorable.1
  have hdigits := (numDigits_mono hcoefficient).trans (numDigits_storable hstorable)
  obtain ⟨product, hproduct⟩ : ∃ product, workingContext.multiply major snapshot.rate =
      .ok product := by
    refine multiply_isOk (by decide) ?_
    change _ ≤ (999999 : ℤ)
    omega
  have hrateSign : snapshot.rate.negative = false := by
    simp only [Decimal.positive, Bool.and_eq_true, Bool.not_eq_true'] at hpositive
    exact hpositive.1
  rw [hproduct]
  refine .bind (.ok _) fun found hfound ↦ ?_
  obtain rfl := Except.ok.inj hfound
  refine majorToMinor_raises ?_ (numDigits_of_fix_le hproduct)
  rw [negative_of_fix hproduct]
  change (major.negative != snapshot.rate.negative) = false
  rw [hsign, hrateSign]
  rfl

theorem normalizeCurrency_raises (currency : String) :
    RaisesOnly isFxError (normalizeCurrency currency) := by
  unfold normalizeCurrency
  dsimp only
  split_ifs
  · exact .ok _
  · exact .raise (by decide) _

theorem inRange_raises {α : Type} {call : Result α} (h : RaisesOnly isAmountError call) :
    RaisesOnly isFxError (inRange call) := by
  cases call with
  | ok value => exact .ok value
  | error raised =>
    have hkind := h raised rfl
    unfold inRange
    dsimp only
    split_ifs with hcaught
    · exact .raise (by decide) _
    · intro other hother
      rw [← Except.error.inj hother]
      simp only [isAmountError, List.mem_cons, List.not_mem_nil, or_false] at hkind hcaught
      push Not at hcaught
      rcases hkind with hkind | hkind | hkind
      · rw [hkind]
        decide
      · exact absurd hkind hcaught.2.1
      · exact absurd hkind hcaught.1

/-- The constructor raises nothing but FX errors. -/
theorem construct_raises (given : ConversionSnapshot) : RaisesOnly isFxError given.construct := by
  have hcheck : ∀ (condition : Bool) (message : String),
      RaisesOnly isFxError (rejectIf condition .fxInvalidQuote message) :=
    fun condition message ↦ .rejectIf (by decide) condition message
  refine .bind (normalizeCurrency_raises _) fun source _ ↦
    .bind (normalizeCurrency_raises _) fun target _ ↦ ?_
  dsimp only
  refine .bind (hcheck _ _) fun _ hamount ↦ .bind (hcheck _ _) fun _ _ ↦
    .bind (hcheck _ _) fun _ hpositive ↦ .bind (hcheck _ _) fun _ hrange ↦ ?_
  have hrange := rejectIf_eq_ok.mp hrange
  simp only [Bool.or_eq_false_iff, decide_eq_false_iff_not, not_lt] at hrange
  refine .bind (inRange_raises (expectedTarget_raises (rejectIf_eq_ok.mp hamount)
    (by simpa using rejectIf_eq_ok.mp hpositive) hrange)) fun _ _ ↦ ?_
  refine .bind (hcheck _ _) fun _ _ ↦ .bind (hcheck _ _) fun _ _ ↦ .bind (hcheck _ _) fun _ _ ↦
    .bind (hcheck _ _) fun _ _ ↦ .bind (hcheck _ _) fun _ _ ↦ .bind (hcheck _ _) fun _ _ ↦
      .bind (hcheck _ _) fun _ _ ↦ .ok _

/-- What reading the fields can raise: what `wellFormed` catches, and what the constructor raises. -/
def isReadError (kind : ErrorKind) : Prop :=
  kind ∈ [.keyError, .typeError, .valueError, .decimalInvalidOperation] ∨ isFxError kind

instance : DecidablePred isReadError :=
  fun _ ↦ inferInstanceAs (Decidable (_ ∨ _))

theorem wellFormed_raises {α : Type} {call : Result α} (h : RaisesOnly isReadError call) :
    RaisesOnly isFxError (wellFormed call) := by
  cases call with
  | ok value => exact .ok value
  | error raised =>
    unfold wellFormed
    dsimp only
    split_ifs with hcaught
    · exact .raise (by decide) _
    · intro other hother
      rw [← Except.error.inj hother]
      exact (h raised rfl).resolve_left hcaught

section Mappings

variable (fromisoformat : String → Option Datetime) (data : List (String × String))

/-- Reading a mapping raises nothing but FX errors. -/
theorem fromDict_raises : RaisesOnly isFxError (fromDict fromisoformat data) := by
  have hitem : ∀ key, RaisesOnly isReadError (item data key) := by
    intro key
    unfold item
    split
    · exact .ok _
    · exact .raise (by decide) _
  have hflag : ∀ raw field, RaisesOnly isReadError (flagOf raw field) :=
    fun raw field ↦ .bind (.rejectIf (by decide) _ _) fun _ _ ↦ .ok _
  have hint : ∀ text, RaisesOnly isReadError (intOf text) := by
    intro text
    unfold intOf
    split
    · exact .ok _
    · exact .raise (by decide) _
  have hrate : ∀ raw field, RaisesOnly isReadError (parseRate raw field) := by
    intro raw field
    unfold parseRate
    split
    · split_ifs
      · exact .ok _
      · exact .raise (by decide) _
    · exact .raise (by decide) _
    · exact .raise (by decide) _
  have hpurpose : ∀ value, RaisesOnly isReadError (FxPurpose.ofValue value) := by
    intro value
    unfold FxPurpose.ofValue
    split
    · exact .ok _
    · exact .raise (by decide) _
  have hdatetime : ∀ text, RaisesOnly isReadError (datetimeOf fromisoformat text) := by
    intro text
    unfold datetimeOf
    split
    · exact .ok _
    · exact .raise (by decide) _
  have hexpiry : ∀ text, RaisesOnly isReadError (expiryOf fromisoformat text) := by
    intro text
    unfold expiryOf
    split_ifs
    · exact .ok _
    · exact .bind (hdatetime text) fun _ _ ↦ .ok _
  refine wellFormed_raises ?_
  refine .bind (hitem _) fun _ _ ↦ .bind (hitem _) fun _ _ ↦ .bind (hflag _ _) fun _ _ ↦
    .bind (hflag _ _) fun _ _ ↦ .bind (hint _) fun _ _ ↦ .bind (hitem _) fun _ _ ↦
      .bind (hint _) fun _ _ ↦ .bind (hitem _) fun _ _ ↦ .bind (hitem _) fun _ _ ↦
        .bind (hrate _ _) fun _ _ ↦ .bind (hitem _) fun _ _ ↦ .bind (hpurpose _) fun _ _ ↦
          .bind (hitem _) fun _ _ ↦ .bind (hitem _) fun _ _ ↦ .bind (hdatetime _) fun _ _ ↦
            .bind (hexpiry _) fun _ _ ↦ ?_
  exact (construct_raises _).mono fun _ ↦ .inr

variable {fromisoformat data}

/-- What is read went through the constructor. -/
theorem accepted_of_fromDict (h : fromDict fromisoformat data = .ok snapshot) :
    Accepted snapshot := by
  have h := wellFormed_eq_ok.mp h
  obtain ⟨sourceAmount, -, h⟩ := bind_eq_ok.mp h
  obtain ⟨targetAmount, -, h⟩ := bind_eq_ok.mp h
  obtain ⟨proxy, -, h⟩ := bind_eq_ok.mp h
  obtain ⟨stale, -, h⟩ := bind_eq_ok.mp h
  obtain ⟨sourceAmountMinor, -, h⟩ := bind_eq_ok.mp h
  obtain ⟨sourceCurrency, -, h⟩ := bind_eq_ok.mp h
  obtain ⟨targetAmountMinor, -, h⟩ := bind_eq_ok.mp h
  obtain ⟨targetCurrency, -, h⟩ := bind_eq_ok.mp h
  obtain ⟨rateText, -, h⟩ := bind_eq_ok.mp h
  obtain ⟨rate, -, h⟩ := bind_eq_ok.mp h
  obtain ⟨purposeText, -, h⟩ := bind_eq_ok.mp h
  obtain ⟨purpose, -, h⟩ := bind_eq_ok.mp h
  obtain ⟨source, -, h⟩ := bind_eq_ok.mp h
  obtain ⟨observedText, -, h⟩ := bind_eq_ok.mp h
  obtain ⟨observedAt, -, h⟩ := bind_eq_ok.mp h
  obtain ⟨expiresAt, -, h⟩ := bind_eq_ok.mp h
  exact (construct_eq_ok h).1

end Mappings

/-- An accepted conversion survives its storage exactly when it stands, and every mapping is read as a
conversion that was rounded once from the product at the working precision, or refused with an FX
error. -/
theorem frozen_conversions {fromisoformat : String → Option Datetime}
    (hread : ∀ text datetime, Datetime.read text = some datetime →
      fromisoformat text = some datetime) :
    (∀ given snapshot : ConversionSnapshot, given.construct = .ok snapshot →
      ((∃ back, fromDict fromisoformat snapshot.toDict = .ok back ∧ back.same snapshot ∧
        back.toDict = snapshot.toDict) ↔ snapshot.Standing)) ∧
      ∀ data, (∃ snapshot, fromDict fromisoformat data = .ok snapshot ∧ snapshot.RoundedOnce) ∨
        ∃ raised, fromDict fromisoformat data = .error raised ∧ isFxError raised.kind := by
  constructor
  · intro given snapshot h
    exact standing_iff hread (construct_eq_ok h).1
  · intro data
    cases hresult : fromDict fromisoformat data with
    | ok snapshot => exact .inl ⟨snapshot, rfl, (accepted_of_fromDict hresult).roundedOnce⟩
    | error raised => exact .inr ⟨raised, rfl, fromDict_raises fromisoformat data raised hresult⟩

/-! ### A rate with more digits than the product keeps, and an hour that happens twice -/

/-- Two yen in won, at a rate just above five; the charge is the working product, rounded up. -/
def sharpRate : ConversionSnapshot where
  sourceAmountMinor := 2
  sourceCurrency := "JPY"
  targetAmountMinor := 10
  targetCurrency := "KRW"
  rate := ⟨false, 5 * 10 ^ 511 + 1, -511⟩
  purpose := .charge
  source := "frankfurter"
  path := "JPY->KRW"
  observedAt := { Moment.utc 1709251199500000 with }
  expiresAt := some { Moment.utc 1709254799500000 with }

/-- A conversion of nothing that was observed when the clocks of its zone had gone back, and that
expires at a later clock time before they had. -/
def repeatedHour : ConversionSnapshot where
  sourceAmountMinor := 0
  sourceCurrency := "JPY"
  targetAmountMinor := 0
  targetCurrency := "KRW"
  rate := ⟨false, 9, 0⟩
  purpose := .charge
  source := "frankfurter"
  path := "JPY->KRW"
  observedAt := { wall := 1729995300000000, offset := some 3600000000, region := some "Europe/Berlin",
                  folds := true }
  expiresAt := some { wall := 1729997100000000, offset := some 7200000000,
                      region := some "Europe/Berlin", folds := true }

theorem construct_sharpRate : sharpRate.construct = .ok sharpRate := by decide +kernel

theorem construct_repeatedHour : repeatedHour.construct = .ok repeatedHour := by decide +kernel

theorem standing_sharpRate : sharpRate.Standing :=
  ⟨rfl, fun expiry h ↦ by cases h; exact ⟨rfl, by decide⟩⟩

/-- The conversion at the sharp rate survives its storage, by the reader of the extended format. -/
theorem frozen_conversions_sharpRate :
    ∃ back, fromDict Datetime.read sharpRate.toDict = .ok back ∧ back.same sharpRate ∧
      back.toDict = sharpRate.toDict :=
  ((frozen_conversions fun _ _ h ↦ h).1 sharpRate sharpRate construct_sharpRate).mpr
    standing_sharpRate

/-- A conversion in the repeated hour is accepted and cannot be read back, and the target that is read
for the sharp rate is not its product rounded up. -/
theorem refused_and_inexact_conversions :
    (repeatedHour.construct = .ok repeatedHour ∧
      ∃ raised, fromDict Datetime.read repeatedHour.toDict = .error raised) ∧
    (fromDict Datetime.read sharpRate.toDict = .ok sharpRate ∧
      currencyExponent sharpRate.sourceCurrency = .ok 0 ∧
      currencyExponent sharpRate.targetCurrency = .ok 0 ∧
      sharpRate.targetAmountMinor < sharpRate.sourceAmountMinor * sharpRate.rate.toRat) := by
  refine ⟨⟨construct_repeatedHour, ?_⟩, ?_, by decide, by decide, by decide +kernel⟩
  · cases hresult : fromDict Datetime.read repeatedHour.toDict with
    | ok snapshot =>
      have hrefused : (fromDict Datetime.read repeatedHour.toDict).isOk = false := by decide +kernel
      simp [hresult, Except.isOk, Except.toBool] at hrefused
    | error raised => exact ⟨raised, rfl⟩
  · rw [fromDict_toDict (fun _ _ h ↦ h) (construct_eq_ok construct_sharpRate).1]
    exact wellFormed_eq_ok.mpr construct_sharpRate

end ConversionSnapshot

end CloudPlatform.Fx
