import CloudPlatform.Core.Dictionaries
import CloudPlatform.Core.HalfUp
import CloudPlatform.Leaseweb.OrderingDiscovery
import CloudPlatform.Operations.StatePlan
import CloudPlatform.Pricing.Domain
import CloudPlatform.Servers.Reads

/-!
# The prices of an ordering product

What the detail of a VPS product says it costs. The price stands in the payload for each contract term,
for each billing cycle and once for the list; it is read in whole minor units and, next to it, as the
exact text. Both readings look the terms up on their own; `termTotals_lookup` and
`termTotalTexts_lookup` say which row each of them finds.
-/

namespace CloudPlatform.Leaseweb

open Decimals (Datum halfUp parseDecimal)
open Dictionaries (ofEntries)
open Operations (lower)
open Pricing (defaultContext)
open Servers (upperText)

/-! ### Numbers of the provider -/

/-- `to_minor_units`. -/
def toMinorUnits : Datum → Result ℤ
  | .number value => do
    let scaled ← Fx.arithmetic (defaultContext.multiply value (.ofNat 100))
    let rounded ← Fx.arithmetic (defaultContext.quantize scaled 0 .halfUp)
    return rounded.toInt
  | .infinity _ => raise .decimalInvalidOperation "InvalidOperation"
  | .nan => raise .valueError "cannot convert NaN to integer"

/-- `_decimal`. -/
def readDecimal : Option JsonValue → Option Datum
  | none => none
  | some .null => none
  | some (.flag _) => none
  | some value => parseDecimal value.str

/-- `_minor`. -/
def minor (value : Option JsonValue) : Result ℤ :=
  match readDecimal value with
  | some parsed => toMinorUnits parsed
  | none => .ok 0

/-- `_decimal_text`. -/
def decimalText (value : Option JsonValue) : String :=
  match value with
  | none => ""
  | some .null => ""
  | some (.flag _) => ""
  | some value => if (parseDecimal (strip value.str)).isSome then strip value.str else ""

/-- `str(mapping.get(key) or "")`. -/
def textOrEmpty (mapping : JsonObject) (key : String) : String :=
  match mapping.get key with
  | some value => if value.truth then value.str else ""
  | none => ""

/-- `_disk_gb`; `intOf` stands for `int(float(text))`, with zero for what is no number. -/
def diskGb (intOf : String → Result ℤ) : Option JsonValue → Result ℤ
  | none => .ok 0
  | some value =>
    if value.truth then
      let text := (upperText (strip value.str)).toList
      let amount := intOf (strip (String.ofList (text.take (text.length - 2))))
      if "GB".toList.isSuffixOf text then amount
      else if "TB".toList.isSuffixOf text then do return (← amount) * 1024
      else intOf (String.ofList text)
    else .ok 0

/-! ### Payloads -/

/-- The price of a product: its own fields, and the mappings among the rows of its terms. -/
structure PriceMapping where
  fields : JsonObject := []
  contractTerms : List JsonObject := []
  billingCycles : List JsonObject := []

/-- The detail of one product as the provider sends it; an entry of an option list that is no mapping
is absent. -/
structure ProductPayload where
  fields : JsonObject := []
  price : PriceMapping := {}
  operatingSystem : List (Option JsonObject) := []
  controlPanel : List (Option JsonObject) := []
  diskUpgrade : List (Option JsonObject) := []
  serviceLevelAgreement : List (Option JsonObject) := []
  location : List JsonValue := []

/-- One configuration option. -/
structure LeasewebProductOption where
  name : String
  priceMinor : ℤ
  currency : String
  selected : Bool
  deriving DecidableEq

/-- A product with the raw list price and the evidence of its metadata. -/
structure PricedProduct extends LeasewebProduct where
  providerPriceMinor : ℤ
  basePriceMinor : ℤ
  storageType : Option String
  deriving DecidableEq

/-- `LeasewebProductDetail`, with its options and the prices of its terms. -/
structure PricedDetail where
  product : PricedProduct
  osOptions : List LeasewebProductOption
  controlPanels : List LeasewebProductOption
  diskUpgrades : List LeasewebProductOption
  slas : List LeasewebProductOption
  availableLocations : List String
  contractTerms : List (String × ℤ)
  billingCycles : List (String × ℤ)
  deriving DecidableEq

/-! ### Rows of terms -/

/-- The two lists of term rows; an entry of a term has the name of its list in front of its key. -/
inductive TermKind
  | contractTerm
  | billingCycle
  deriving DecidableEq

def TermKind.mark : TermKind → String
  | .contractTerm => "contractTerm:"
  | .billingCycle => "billingCycle:"

def PriceMapping.rows (price : PriceMapping) : TermKind → List JsonObject
  | .contractTerm => price.contractTerms
  | .billingCycle => price.billingCycles

/-- `str(row.get("key") or "").strip()`. -/
def termKey (row : JsonObject) : String :=
  strip (textOrEmpty row "key")

/-- The totals of the rows of one term, in the order of the rows; an empty key names no term. -/
def totalsOf (rows : List JsonObject) (key : String) : List (Option JsonValue) :=
  (rows.filter fun row ↦ termKey row = key ∧ key ≠ "").map (·.get "total")

/-- The prices of the rows of one list. -/
def termPrices (price : PriceMapping) (kind : TermKind) : Result (List (String × ℤ)) :=
  ((price.rows kind).filter (termKey · ≠ "")).mapM fun row ↦ do
    return (kind.mark ++ termKey row, ← minor (row.get "total"))

/-- The usable texts of the rows of one list. -/
def termTexts (price : PriceMapping) (kind : TermKind) : List (String × String) :=
  ((price.rows kind).filter fun row ↦ termKey row ≠ "" ∧ decimalText (row.get "total") ≠ "").map
    fun row ↦ (kind.mark ++ termKey row, decimalText (row.get "total"))

/-- `_term_totals`. -/
def termTotals (price : PriceMapping) : Result (List (String × ℤ)) := do
  let terms ← termPrices price .contractTerm
  let cycles ← termPrices price .billingCycle
  return ofEntries (terms ++ cycles)

/-- `_term_total_texts`. -/
def termTotalTexts (price : PriceMapping) : List (String × String) :=
  ofEntries (termTexts price .contractTerm ++ termTexts price .billingCycle)

/-- The entries of one list, without its name. -/
def entriesOf (kind : TermKind) (terms : List (String × ℤ)) : List (String × ℤ) :=
  (terms.filter fun entry ↦ kind.mark.toList.isPrefixOf entry.1.toList).map fun entry ↦
    (String.ofList (entry.1.toList.drop kind.mark.toList.length), entry.2)

/-! ### The product -/

/-- `_parse_option`. -/
def parseOption : Option JsonObject → Result LeasewebProductOption
  | none => raise .attributeError "object has no attribute 'get'"
  | some item => do
    return {
      name := textOrEmpty item "name"
      priceMinor := ← minor (item.get "price")
      currency := upperText (strip (textOrEmpty item "currency"))
      selected := item.truthOf "selected" }

/-- The name of a product: its own, or its id. -/
def productName (fields : JsonObject) (rawId : String) : String :=
  if fields.truthOf "name" then textOrEmpty fields "name" else rawId

/-- The currency that the provider reports: that of the price, or the one of the product. -/
def productCurrency (payload : ProductPayload) : String :=
  upperText (strip (if payload.price.fields.truthOf "currency" then
    textOrEmpty payload.price.fields "currency" else textOrEmpty payload.fields "currency"))

/-- `_parse_product`. -/
def parseProduct (intOf : String → Result ℤ) (payload : ProductPayload) (location : String) :
    Result (Option PricedProduct) := do
  let rawId := strip (textOrEmpty payload.fields "id")
  if rawId = "" then return none
  let vcpu ← intOf (payload.fields.strOf "vCpu" "None")
  let ramGb ← intOf (payload.fields.strOf "vRam" "None")
  let diskGb ← diskGb intOf (payload.fields.get "nvmeStorage")
  let total ← minor (payload.price.fields.get "total")
  let basePrice ← minor (payload.price.fields.get "basePrice")
  return some {
    id := rawId
    name := productName payload.fields rawId
    location := location
    vcpu := vcpu
    ramGb := ramGb
    diskGb := diskGb
    traffic := textOrEmpty payload.fields "traffic"
    currency := productCurrency payload
    monthlyPriceMinor := total
    providerPriceMinor := total
    monthlyPriceExact := decimalText (payload.price.fields.get "total")
    basePriceMinor := basePrice
    storageType := if ((payload.fields.get "nvmeStorage").getD .null) = .null then none
      else some "NVMe" }

/-- What the adapter is configured with. -/
structure OrderingSettings where
  contractTerm : String := "1_MONTH"
  billingCycle : String := "1_MONTH"
  osAllowlist : List String := []

/-- The terms that a caller of `get_product` passes. -/
structure AskedTerms where
  contractTerm : Option String := none
  billingCycle : Option String := none

/-- `contract_term or self._contract_term`. -/
def OrderingSettings.askedTerm (settings : OrderingSettings) (asked : AskedTerms) : String :=
  if truthy asked.contractTerm then textOf asked.contractTerm else settings.contractTerm

/-- `billing_cycle or self._billing_cycle`. -/
def OrderingSettings.askedCycle (settings : OrderingSettings) (asked : AskedTerms) : String :=
  if truthy asked.billingCycle then textOf asked.billingCycle else settings.billingCycle

/-- The parameters of the request. -/
structure ProductParams where
  location : String
  contractTerm : String
  billingCycle : String

/-- `entries.get(key) or other`, of prices. -/
def priceOr (found : Option ℤ) (other : ℤ) : ℤ :=
  match found with
  | some price => if price ≠ 0 then price else other
  | none => other

/-- `entries.get(key) or other`, of texts. -/
def textOr (found : Option String) (other : String) : String :=
  match found with
  | some text => if text ≠ "" then text else other
  | none => other

/-- `monthly`. -/
def monthlyPrice (settings : OrderingSettings) (terms : List (String × ℤ)) (total : ℤ) : ℤ :=
  priceOr (terms.lookup ("contractTerm:" ++ settings.contractTerm))
    (priceOr (terms.lookup ("billingCycle:" ++ settings.billingCycle)) total)

/-- `monthly_exact`. -/
def monthlyExact (settings : OrderingSettings) (texts : List (String × String)) (total : String) :
    String :=
  textOr (texts.lookup ("contractTerm:" ++ settings.contractTerm))
    (textOr (texts.lookup ("billingCycle:" ++ settings.billingCycle)) total)

/-- `get_product`; `respond` is the provider's answer to a product id and its parameters. -/
def getProduct (intOf : String → Result ℤ) (respond : String → ProductParams → Result ProductPayload)
    (settings : OrderingSettings) (location productId : String) (asked : AskedTerms) :
    Result PricedDetail := do
  let payload ← respond productId ⟨location, settings.askedTerm asked, settings.askedCycle asked⟩
  match ← parseProduct intOf payload location with
  | none => raise .providerError s!"leaseweb product '{productId}' at '{location}' not parseable"
  | some product =>
    let terms ← termTotals payload.price
    let total ← minor (payload.price.fields.get "total")
    let osOptions ← payload.operatingSystem.mapM parseOption
    let controlPanels ← payload.controlPanel.mapM parseOption
    let diskUpgrades ← payload.diskUpgrade.mapM parseOption
    let slas ← payload.serviceLevelAgreement.mapM parseOption
    return {
      product := { product with
        monthlyPriceMinor := monthlyPrice settings terms total
        providerPriceMinor := total
        monthlyPriceExact := monthlyExact settings (termTotalTexts payload.price)
          (decimalText (payload.price.fields.get "total")) }
      osOptions := if settings.osAllowlist = [] then osOptions
        else osOptions.filter fun option ↦ lower option.name ∈ settings.osAllowlist.map lower
      controlPanels := controlPanels
      diskUpgrades := diskUpgrades
      slas := slas
      availableLocations := payload.location.map (·.str)
      contractTerms := entriesOf .contractTerm terms
      billingCycles := entriesOf .billingCycle terms }

/-! ### Readings of one number -/

/-- A number in hundredths, as the precision of 28 digits leaves them, rounded half up; nothing for what
is no number. -/
def hundredths (value : Option JsonValue) : ℤ :=
  match readDecimal value with
  | some (.number x) =>
    match defaultContext.multiply x (.ofNat 100) with
    | .ok scaled => halfUp scaled.toRat
    | .error _ => 0
  | _ => 0

theorem toMinorUnits_eq_ok {parsed : Datum} {units : ℤ} (h : toMinorUnits parsed = .ok units) :
    ∃ x scaled, parsed = .number x ∧ defaultContext.multiply x (.ofNat 100) = .ok scaled ∧
      units = halfUp scaled.toRat := by
  cases parsed with
  | infinity negative => exact absurd h raise_ne_ok
  | nan => exact absurd h raise_ne_ok
  | number x =>
    obtain ⟨scaled, hscaled, h⟩ := bind_eq_ok.mp h
    obtain ⟨rounded, hrounded, h⟩ := bind_eq_ok.mp h
    rw [← pure_eq_ok.mp h]
    exact ⟨x, scaled, rfl, Fx.arithmetic_eq_ok.mp hscaled,
      Decimals.toInt_quantize_halfUp (Fx.arithmetic_eq_ok.mp hrounded) (by decide)⟩

variable {value : Option JsonValue}

/-- A price that can be read is its number of hundredths. -/
theorem minor_eq_ok {units : ℤ} (h : minor value = .ok units) : units = hundredths value := by
  unfold minor at h
  unfold hundredths
  cases hparsed : readDecimal value with
  | none =>
    rw [hparsed] at h
    exact (Except.ok.inj h).symm
  | some parsed =>
    rw [hparsed] at h
    obtain ⟨x, scaled, rfl, hscaled, rfl⟩ := toMinorUnits_eq_ok h
    simp only [hscaled]

theorem parseDecimal_strip (text : String) : parseDecimal (strip text) = parseDecimal text := by
  unfold parseDecimal
  rw [strip_strip]

/-- The text of a price is all that its number depends on. -/
theorem readDecimal_eq (value : Option JsonValue) :
    readDecimal value = parseDecimal (decimalText value) := by
  have hnone : none = parseDecimal "" := by decide +kernel
  have hread : ∀ text : String, parseDecimal text =
      parseDecimal (if (parseDecimal (strip text)).isSome then strip text else "") := by
    intro text
    rw [parseDecimal_strip]
    cases hparsed : parseDecimal text with
    | none => exact hnone
    | some parsed => exact hparsed.symm.trans (parseDecimal_strip text).symm
  unfold readDecimal decimalText
  cases value with
  | none => exact hnone
  | some value =>
    cases value with
    | null => exact hnone
    | flag value => exact hnone
    | number value => exact hread _
    | float text => exact hread _
    | text value => exact hread _
    | texts values => exact hread _
    | nested text truth => exact hread _

theorem decimalText_eq_empty : decimalText value = "" ↔ readDecimal value = none := by
  constructor
  · intro h
    rw [readDecimal_eq, h]
    decide +kernel
  · have hread : ∀ text : String, parseDecimal text = none →
        (if (parseDecimal (strip text)).isSome then strip text else "") = "" := by
      intro text h
      rw [parseDecimal_strip, h]
      rfl
    intro h
    unfold readDecimal at h
    unfold decimalText
    cases value with
    | none => rfl
    | some value =>
      cases value with
      | null => rfl
      | flag value => rfl
      | number value => exact hread _ h
      | float text => exact hread _ h
      | text value => exact hread _ h
      | texts values => exact hread _ h
      | nested text truth => exact hread _ h

theorem minor_congr {first second : Option JsonValue} (h : decimalText first = decimalText second) :
    minor first = minor second := by
  unfold minor
  rw [readDecimal_eq, readDecimal_eq, h]

theorem hundredths_of_unusable (h : decimalText value = "") : hundredths value = 0 := by
  unfold hundredths
  rw [decimalText_eq_empty.mp h]

/-! ### Looking terms up -/

theorem mark_append_inj {kind other : TermKind} {key name : String} :
    kind.mark ++ key = other.mark ++ name ↔ kind = other ∧ key = name := by
  constructor
  · intro h
    have hchars := congrArg String.toList h
    rw [String.toList_append, String.toList_append] at hchars
    have hhead := congrArg List.head? hchars
    cases kind <;> cases other
    · exact ⟨rfl, String.toList_injective (List.append_cancel_left hchars)⟩
    · exact absurd (show some 'c' = some 'b' from hhead) (by decide)
    · exact absurd (show some 'b' = some 'c' from hhead) (by decide)
    · exact ⟨rfl, String.toList_injective (List.append_cancel_left hchars)⟩
  · rintro ⟨rfl, rfl⟩
    rfl

section Lookup

variable {α : Type} {price : PriceMapping} {kind other : TermKind} {key : String}
  (counted : JsonObject → Bool) (value : JsonObject → α)

/-- The entries that the counted rows of one list give. -/
def rowEntries (price : PriceMapping) (kind : TermKind) : List (String × α) :=
  ((price.rows kind).filter counted).map fun row ↦ (kind.mark ++ termKey row, value row)

theorem filter_rowEntries : (rowEntries counted value price other).filter (·.1 = kind.mark ++ key) =
      if other = kind then ((price.rows kind).filter fun row ↦ counted row && termKey row = key).map
        fun row ↦ (kind.mark ++ termKey row, value row) else [] := by
  unfold rowEntries
  rw [List.filter_map, List.filter_filter]
  by_cases hkind : other = kind
  · subst hkind
    rw [if_pos rfl]
    refine congrArg (List.map _) (List.filter_congr fun row _ ↦ ?_)
    rw [Bool.eq_iff_iff]
    simp only [Function.comp_apply, mark_append_inj, true_and, Bool.and_eq_true,
      decide_eq_true_eq]
    exact and_comm
  · rw [if_neg hkind, List.map_eq_nil_iff, List.filter_eq_nil_iff]
    intro row _
    simp [mark_append_inj, hkind]

/-- Of the counted rows of a term the last one is found; the other list does not interfere. -/
theorem lookup_rowEntries (kind : TermKind) (key : String) :
    (ofEntries (rowEntries counted value price .contractTerm ++
      rowEntries counted value price .billingCycle)).lookup (kind.mark ++ key) =
        ((((price.rows kind).filter fun row ↦ counted row && termKey row = key).getLast?).map
          value) := by
  rw [Dictionaries.lookup_ofEntries, List.filter_append, filter_rowEntries, filter_rowEntries]
  cases kind with
  | contractTerm =>
    rw [if_pos rfl, if_neg (by decide), List.append_nil, List.getLast?_map, Option.map_map]
    rfl
  | billingCycle =>
    rw [if_neg (by decide), if_pos rfl, List.nil_append, List.getLast?_map, Option.map_map]
    rfl

end Lookup

variable {price : PriceMapping}

theorem termPrices_eq_ok {kind : TermKind} {entries : List (String × ℤ)}
    (h : termPrices price kind = .ok entries) :
    entries = rowEntries (termKey · ≠ "") (fun row ↦ hundredths (row.get "total")) price kind := by
  have hmap : entries.map id = ((price.rows kind).filter (termKey · ≠ "")).map fun row ↦
      (kind.mark ++ termKey row, hundredths (row.get "total")) := by
    refine map_of_mapM_eq_ok (fun row _ entry hentry ↦ ?_) h
    obtain ⟨units, hunits, hentry⟩ := bind_eq_ok.mp hentry
    rw [← pure_eq_ok.mp hentry, ← minor_eq_ok hunits]
    rfl
  rwa [List.map_id] at hmap

/-- The price that is found for a term is the one of its last row. -/
theorem termTotals_lookup {terms : List (String × ℤ)} (h : termTotals price = .ok terms)
    (kind : TermKind) (key : String) : terms.lookup (kind.mark ++ key) =
      ((totalsOf (price.rows kind) key).getLast?).map hundredths := by
  obtain ⟨ofTerms, hterms, h⟩ := bind_eq_ok.mp h
  obtain ⟨ofCycles, hcycles, h⟩ := bind_eq_ok.mp h
  obtain rfl := pure_eq_ok.mp h
  rw [termPrices_eq_ok hterms, termPrices_eq_ok hcycles, lookup_rowEntries, totalsOf,
    List.getLast?_map, Option.map_map]
  congr 2
  refine List.filter_congr fun row _ ↦ ?_
  rw [Bool.eq_iff_iff]
  simp only [Bool.and_eq_true, decide_eq_true_eq]
  constructor
  · rintro ⟨hne, rfl⟩
    exact ⟨rfl, hne⟩
  · rintro ⟨rfl, hne⟩
    exact ⟨hne, rfl⟩

/-- The text that is found for a term is the one of its last usable row. -/
theorem termTotalTexts_lookup (kind : TermKind) (key : String) :
    (termTotalTexts price).lookup (kind.mark ++ key) =
      (((totalsOf (price.rows kind) key).filter (decimalText · ≠ "")).getLast?).map decimalText := by
  have htexts : ∀ kind, termTexts price kind = rowEntries
      (fun row ↦ termKey row ≠ "" ∧ decimalText (row.get "total") ≠ "")
        (fun row ↦ decimalText (row.get "total")) price kind := fun _ ↦ rfl
  rw [termTotalTexts, htexts, htexts, lookup_rowEntries, totalsOf, List.filter_map,
    List.filter_filter, List.getLast?_map, Option.map_map]
  congr 2
  refine List.filter_congr fun row _ ↦ ?_
  rw [Bool.eq_iff_iff]
  simp only [Function.comp_apply, Bool.and_eq_true, decide_eq_true_eq]
  constructor
  · rintro ⟨⟨hkey, htext⟩, rfl⟩
    exact ⟨htext, rfl, hkey⟩
  · rintro ⟨htext, rfl, hkey⟩
    exact ⟨⟨hkey, htext⟩, rfl⟩

end CloudPlatform.Leaseweb
