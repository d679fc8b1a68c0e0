import CloudPlatform.Leaseweb.ProductPrices

/-!
# The price of the terms asked for

A caller of `get_product` asks for a contract term and a billing cycle; the product it gets back has
one monthly price, in minor units and as exact text. `pricedAsAsked_iff` says when both are the price
of the terms asked for: the rows of the configured terms hold that text, the price in minor units is
not zero where the text is found, and hundredths are the minor units of the currency.
-/

namespace CloudPlatform.Leaseweb

open Billing (currencyExponent currencyExponents)
open Decimals (Decimal halfUp parseDecimal)
open Fx (majorToMinor)

/-! ### The rows that price a term -/

/-- The totals that can be read. -/
def usable (totals : List (Option JsonValue)) : List (Option JsonValue) :=
  totals.filter (decimalText · ≠ "")

/-- The totals that price a term and a cycle: of the rows of the term those that can be read, without
one those of the cycle, and without one the total of the list. -/
def PriceMapping.totalsFor (price : PriceMapping) (term cycle : String) : List (Option JsonValue) :=
  if usable (totalsOf price.contractTerms term) ≠ [] then usable (totalsOf price.contractTerms term)
  else if usable (totalsOf price.billingCycles cycle) ≠ [] then
    usable (totalsOf price.billingCycles cycle)
  else [price.fields.get "total"]

/-- The price of a product is that of the terms asked for: both of its forms come from one row of them,
and the minor units are those of its currency, also as the automatic pricing derives them. -/
structure PricedAsAsked (payload : ProductPayload) (term cycle : String) (product : PricedProduct) :
    Prop where
  sameRow : ∃ total ∈ payload.price.totalsFor term cycle,
    product.monthlyPriceExact = decimalText total ∧ minor total = .ok product.monthlyPriceMinor
  rounded : product.monthlyPriceExact ≠ "" →
    ∃ x, parseDecimal product.monthlyPriceExact = some (.number x) ∧
      ∀ exponent, currencyExponent product.currency = .ok exponent →
        product.monthlyPriceMinor = halfUp (x.toRat * 10 ^ exponent)
  rederived : ∀ x expected, parseDecimal product.monthlyPriceExact = some (.number x) →
    x.positive = true → majorToMinor x product.currency .display = .ok expected →
      expected = product.monthlyPriceMinor

/-! ### When it is -/

/-- The total whose text becomes the exact price. -/
def foundTotal (settings : OrderingSettings) (price : PriceMapping) : Option JsonValue :=
  ((price.totalsFor settings.contractTerm settings.billingCycle).getLast?).getD none

/-- The price in minor units stays with the last readable row: the last row of all is not worth zero,
or what the lookup goes on to has the same price. -/
def Stays (totals : List (Option JsonValue)) (next : ℤ) : Prop :=
  hundredths (totals.getLast?.getD none) ≠ 0 ∨
    next = hundredths ((usable totals).getLast?.getD none)

/-- The lookup of the price in minor units does not pass over the row of the exact price. -/
def NotPassedOver (settings : OrderingSettings) (price : PriceMapping) : Prop :=
  let ofTerm := totalsOf price.contractTerms settings.contractTerm
  let ofCycle := totalsOf price.billingCycles settings.billingCycle
  let ofList := hundredths (price.fields.get "total")
  if usable ofTerm ≠ [] then Stays ofTerm (priceOr (ofCycle.getLast?.map hundredths) ofList)
  else if usable ofCycle ≠ [] then Stays ofCycle ofList
  else True

/-- Hundredths are the minor units of the currency: rounding to 28 digits has not carried them over a
half, and in a currency without decimals there are none. -/
def UnitsAgree (currency : String) (total : Option JsonValue) : Prop :=
  ∀ x exponent, readDecimal total = some (.number x) → currencyExponent currency = .ok exponent →
    if exponent = 0 then hundredths total = 0 else hundredths total = halfUp (x.toRat * 100)

/-- What the configured terms and the payload have to offer. -/
structure Priced (settings : OrderingSettings) (asked : AskedTerms) (payload : ProductPayload) :
    Prop where
  asked : ∃ total ∈ payload.price.totalsFor (settings.askedTerm asked) (settings.askedCycle asked),
    decimalText total = decimalText (foundTotal settings payload.price)
  notPassedOver : NotPassedOver settings payload.price
  units : UnitsAgree (productCurrency payload) (foundTotal settings payload.price)

/-- A caller that asks for the configured terms finds their row. -/
theorem asked_of_configured {settings : OrderingSettings} {asked : AskedTerms} (price : PriceMapping)
    (hterm : settings.askedTerm asked = settings.contractTerm)
    (hcycle : settings.askedCycle asked = settings.billingCycle) :
    ∃ total ∈ price.totalsFor (settings.askedTerm asked) (settings.askedCycle asked),
      decimalText total = decimalText (foundTotal settings price) := by
  rw [hterm, hcycle]
  have hne : price.totalsFor settings.contractTerm settings.billingCycle ≠ [] := by
    unfold PriceMapping.totalsFor
    split_ifs with hofTerm hofCycle
    · exact hofTerm
    · exact hofCycle
    · exact List.cons_ne_nil _ _
  refine ⟨_, List.getLast_mem hne, ?_⟩
  rw [foundTotal, List.getLast?_eq_some_getLast hne]
  rfl

theorem currencyExponent_cases {currency : String} {exponent : ℕ}
    (h : currencyExponent currency = .ok exponent) : exponent = 0 ∨ exponent = 2 := by
  have hall : ∀ entry ∈ currencyExponents, entry.2 = 0 ∨ entry.2 = 2 := by decide
  unfold currencyExponent at h
  split at h
  · rename_i found hlookup
    obtain rfl := Except.ok.inj h
    obtain ⟨before, after, hsplit, -⟩ := List.lookup_eq_some_iff.mp hlookup
    exact hall (_, found) (hsplit ▸ List.mem_append_right before List.mem_cons_self)
  · exact absurd h raise_ne_ok

/-! ### What the two lookups find -/

section Found

variable {settings : OrderingSettings} {price : PriceMapping}

theorem foundTotal_eq : foundTotal settings price =
    if usable (totalsOf price.contractTerms settings.contractTerm) ≠ [] then
      (usable (totalsOf price.contractTerms settings.contractTerm)).getLast?.getD none
    else if usable (totalsOf price.billingCycles settings.billingCycle) ≠ [] then
      (usable (totalsOf price.billingCycles settings.billingCycle)).getLast?.getD none
    else price.fields.get "total" := by
  unfold foundTotal PriceMapping.totalsFor
  split_ifs <;> rfl

/-- A text that is found is never empty. -/
theorem textOr_usable (totals : List (Option JsonValue)) (other : String) :
    textOr (((usable totals).getLast?).map decimalText) other =
      if usable totals ≠ [] then decimalText ((usable totals).getLast?.getD none) else other := by
  by_cases hempty : usable totals = []
  · rw [if_neg (not_not.mpr hempty), hempty]
    rfl
  · have hlast := List.getLast_mem hempty
    have hne : decimalText ((usable totals).getLast hempty) ≠ "" := by
      simpa using (List.mem_filter.mp hlast).2
    rw [if_pos hempty, List.getLast?_eq_some_getLast hempty]
    exact if_pos hne

theorem monthlyExact_eq : monthlyExact settings (termTotalTexts price)
    (decimalText (price.fields.get "total")) = decimalText (foundTotal settings price) := by
  unfold monthlyExact
  rw [show "contractTerm:" = TermKind.contractTerm.mark from rfl,
    show "billingCycle:" = TermKind.billingCycle.mark from rfl, termTotalTexts_lookup,
    termTotalTexts_lookup]
  change textOr (((usable (totalsOf price.contractTerms _)).getLast?).map decimalText)
    (textOr (((usable (totalsOf price.billingCycles _)).getLast?).map decimalText) _) = _
  rw [textOr_usable, textOr_usable, foundTotal_eq]
  split_ifs <;> rfl

/-- What is worth something can be read, so that the last row is the last readable one. -/
theorem getLast?_usable {totals : List (Option JsonValue)}
    (h : hundredths (totals.getLast?.getD none) ≠ 0) :
    (usable totals).getLast? = totals.getLast? := by
  rcases List.eq_nil_or_concat totals with rfl | ⟨front, last, rfl⟩
  · rfl
  · rw [List.concat_eq_append, List.getLast?_concat] at h ⊢
    have hne : decimalText last ≠ "" := fun hempty ↦ h (hundredths_of_unusable hempty)
    rw [usable, List.filter_append, List.filter_singleton, decide_eq_true hne]
    exact List.getLast?_concat

theorem priceOr_eq_iff (totals : List (Option JsonValue)) (next : ℤ) :
    priceOr (totals.getLast?.map hundredths) next =
        hundredths ((usable totals).getLast?.getD none) ↔ Stays totals next := by
  unfold Stays
  by_cases hworth : hundredths (totals.getLast?.getD none) = 0
  · have hnext : priceOr (totals.getLast?.map hundredths) next = next := by
      cases hlast : totals.getLast? with
      | none => rfl
      | some last =>
        rw [hlast] at hworth
        exact if_neg (not_not.mpr hworth)
    rw [hnext]
    exact ⟨Or.inr, fun h ↦ h.resolve_left (not_not.mpr hworth)⟩
  · refine iff_of_true ?_ (Or.inl hworth)
    rw [getLast?_usable hworth]
    cases hlast : totals.getLast? with
    | none =>
      rw [hlast] at hworth
      exact absurd (hundredths_of_unusable rfl) hworth
    | some last =>
      rw [hlast] at hworth
      exact if_pos hworth

/-- A term without a readable row has no price. -/
theorem priceOr_of_unusable {totals : List (Option JsonValue)} (h : usable totals = []) (next : ℤ) :
    priceOr (totals.getLast?.map hundredths) next = next := by
  cases hlast : totals.getLast? with
  | none => rfl
  | some last =>
    have hempty : decimalText last = "" := by
      have hall := List.filter_eq_nil_iff.mp h last (List.mem_of_getLast? hlast)
      simpa using hall
    exact if_neg (not_not.mpr (hundredths_of_unusable hempty))

variable {terms : List (String × ℤ)}

/-- The two lookups agree exactly if the one of the minor units does not pass over the row. -/
theorem monthlyPrice_eq_iff (h : termTotals price = .ok terms) :
    monthlyPrice settings terms (hundredths (price.fields.get "total")) =
      hundredths (foundTotal settings price) ↔ NotPassedOver settings price := by
  unfold monthlyPrice NotPassedOver
  rw [show "contractTerm:" = TermKind.contractTerm.mark from rfl,
    show "billingCycle:" = TermKind.billingCycle.mark from rfl, termTotals_lookup h,
    termTotals_lookup h, foundTotal_eq]
  dsimp only [PriceMapping.rows]
  by_cases hofTerm : usable (totalsOf price.contractTerms settings.contractTerm) = []
  · rw [if_neg (not_not.mpr hofTerm), if_neg (not_not.mpr hofTerm), priceOr_of_unusable hofTerm]
    by_cases hofCycle : usable (totalsOf price.billingCycles settings.billingCycle) = []
    · rw [if_neg (not_not.mpr hofCycle), if_neg (not_not.mpr hofCycle),
        priceOr_of_unusable hofCycle]
      exact iff_of_true rfl trivial
    · rw [if_pos hofCycle, if_pos hofCycle]
      exact priceOr_eq_iff _ _
  · rw [if_pos hofTerm, if_pos hofTerm]
    exact priceOr_eq_iff _ _

/-- Every row of a term is read. -/
theorem minor_of_mem (h : termTotals price = .ok terms) (kind : TermKind) {key : String}
    {total : Option JsonValue} (htotal : total ∈ totalsOf (price.rows kind) key) :
    ∃ units, minor total = .ok units := by
  obtain ⟨row, hrow, rfl⟩ := List.mem_map.mp htotal
  obtain ⟨hmem, hkey⟩ := List.mem_filter.mp hrow
  have hcounted : row ∈ (price.rows kind).filter (termKey · ≠ "") := by
    obtain ⟨hterm, hne⟩ : termKey row = key ∧ key ≠ "" := by simpa using hkey
    exact List.mem_filter.mpr ⟨hmem, by simpa [hterm] using hne⟩
  obtain ⟨ofTerms, hterms, h⟩ := bind_eq_ok.mp h
  obtain ⟨ofCycles, hcycles, -⟩ := bind_eq_ok.mp h
  have hread : ∃ entries, termPrices price kind = .ok entries := by
    cases kind with
    | contractTerm => exact ⟨ofTerms, hterms⟩
    | billingCycle => exact ⟨ofCycles, hcycles⟩
  obtain ⟨entries, hentries⟩ := hread
  obtain ⟨entry, hentry⟩ := exists_of_mapM_eq_ok hentries hcounted
  obtain ⟨units, hunits, -⟩ := bind_eq_ok.mp hentry
  exact ⟨units, hunits⟩

/-- The total of the exact price is read. -/
theorem minor_foundTotal {units : ℤ} (h : termTotals price = .ok terms)
    (htotal : minor (price.fields.get "total") = .ok units) :
    minor (foundTotal settings price) = .ok (hundredths (foundTotal settings price)) := by
  have hsome : ∀ kind key, usable (totalsOf (price.rows kind) key) ≠ [] →
      ∃ units, minor ((usable (totalsOf (price.rows kind) key)).getLast?.getD none) = .ok units := by
    intro kind key hne
    rw [List.getLast?_eq_some_getLast hne]
    exact minor_of_mem h kind (List.mem_filter.mp (List.getLast_mem hne)).1
  have hread : ∃ units, minor (foundTotal settings price) = .ok units := by
    rw [foundTotal_eq]
    split_ifs with hofTerm hofCycle
    · exact hsome .contractTerm _ hofTerm
    · exact hsome .billingCycle _ hofCycle
    · exact ⟨units, htotal⟩
  obtain ⟨found, hfound⟩ := hread
  rw [hfound, minor_eq_ok hfound]

end Found

/-! ### The product that is returned -/

section Product

variable {intOf : String → Result ℤ} {respond : String → ProductParams → Result ProductPayload}
  {settings : OrderingSettings} {location productId : String} {asked : AskedTerms}
  {payload : ProductPayload} {detail : PricedDetail}

theorem parseProduct_currency {product : PricedProduct}
    (h : parseProduct intOf payload location = .ok (some product)) :
    product.currency = productCurrency payload := by
  unfold parseProduct at h
  by_cases hid : strip (textOrEmpty payload.fields "id") = ""
  · rw [if_pos hid] at h
    cases pure_eq_ok.mp h
  · rw [if_neg hid] at h
    obtain ⟨vcpu, -, h⟩ := bind_eq_ok.mp h
    obtain ⟨ramGb, -, h⟩ := bind_eq_ok.mp h
    obtain ⟨disk, -, h⟩ := bind_eq_ok.mp h
    obtain ⟨total, -, h⟩ := bind_eq_ok.mp h
    obtain ⟨basePrice, -, h⟩ := bind_eq_ok.mp h
    rw [← Option.some.inj (pure_eq_ok.mp h)]

/-- What a returned product has been read from. -/
theorem getProduct_cases
    (h : getProduct intOf respond settings location productId asked = .ok detail)
    (hpayload : respond productId ⟨location, settings.askedTerm asked, settings.askedCycle asked⟩ =
      .ok payload) : ∃ terms total, termTotals payload.price = .ok terms ∧
      minor (payload.price.fields.get "total") = .ok total ∧
      detail.product.monthlyPriceMinor = monthlyPrice settings terms total ∧
      detail.product.monthlyPriceExact = decimalText (foundTotal settings payload.price) ∧
      detail.product.currency = productCurrency payload := by
  obtain ⟨answer, hanswer, h⟩ := bind_eq_ok.mp h
  obtain rfl := Except.ok.inj (hpayload.symm.trans hanswer)
  obtain ⟨parsed, hparsed, h⟩ := bind_eq_ok.mp h
  cases parsed with
  | none => exact absurd h raise_ne_ok
  | some product =>
    obtain ⟨terms, hterms, h⟩ := bind_eq_ok.mp h
    obtain ⟨total, htotal, h⟩ := bind_eq_ok.mp h
    obtain ⟨osOptions, -, h⟩ := bind_eq_ok.mp h
    obtain ⟨controlPanels, -, h⟩ := bind_eq_ok.mp h
    obtain ⟨diskUpgrades, -, h⟩ := bind_eq_ok.mp h
    obtain ⟨slas, -, h⟩ := bind_eq_ok.mp h
    refine ⟨terms, total, hterms, htotal, ?_⟩
    rw [← pure_eq_ok.mp h]
    have hcurrency := parseProduct_currency hparsed
    exact ⟨rfl, monthlyExact_eq, hcurrency⟩

/-- The minor units of a price that is not negative, as the automatic pricing derives them. -/
theorem expected_eq {x : Decimal} {currency : String} {expected units : ℤ} (hx : x.positive = true)
    (h : majorToMinor x currency .display = .ok expected)
    (hunits : ∀ exponent, currencyExponent currency = .ok exponent →
      units = halfUp (x.toRat * 10 ^ exponent)) : expected = units := by
  have hsign : x.negative = false := by
    unfold Decimal.positive at hx
    simpa using (Bool.and_eq_true_iff.mp hx).1
  obtain ⟨exponent, hexponent, rfl⟩ := Fx.majorToMinor_round h hsign
  have hnonneg : 0 ≤ x.toRat * 10 ^ exponent :=
    mul_nonneg (Decimals.Decimal.toRat_nonneg hsign) (by positivity)
  rw [hunits exponent hexponent, Decimals.halfUp_of_nonneg hnonneg]
  rfl

/-- Hundredths are the minor units of a currency exactly if they agree with them. -/
theorem hundredths_eq_iff {total : Option JsonValue} {units : ℤ} {x : Decimal} {exponent : ℕ}
    (h : minor total = .ok units) (hx : readDecimal total = some (.number x))
    (hexponent : exponent = 0 ∨ exponent = 2) :
    hundredths total = halfUp (x.toRat * 10 ^ exponent) ↔
      if exponent = 0 then hundredths total = 0 else hundredths total = halfUp (x.toRat * 100) := by
  cases hexponent with
  | inl hzero =>
    rw [hzero, if_pos rfl, pow_zero, mul_one, ← minor_eq_ok h]
    unfold minor at h
    rw [hx] at h
    obtain ⟨other, scaled, hother, hscaled, rfl⟩ := toMinorUnits_eq_ok h
    cases hother
    exact Decimals.halfUp_hundredfold_iff hscaled (by decide) (by decide)
  | inr htwo =>
    rw [htwo, if_neg (by decide)]
    norm_num

/-- The monthly price of a returned product is the price of the terms asked for exactly if the
configured terms have their row, the minor units are taken from it too and hundredths are the minor
units of the currency. -/
theorem pricedAsAsked_iff
    (h : getProduct intOf respond settings location productId asked = .ok detail)
    (hpayload : respond productId ⟨location, settings.askedTerm asked, settings.askedCycle asked⟩ =
      .ok payload) :
    PricedAsAsked payload (settings.askedTerm asked) (settings.askedCycle asked) detail.product ↔
      Priced settings asked payload := by
  obtain ⟨terms, total, hterms, htotal, hminor, hexact, hcurrency⟩ := getProduct_cases h hpayload
  rw [minor_eq_ok htotal] at hminor
  have hfound : minor (foundTotal settings payload.price) =
      .ok (hundredths (foundTotal settings payload.price)) := minor_foundTotal hterms htotal
  have hread : parseDecimal detail.product.monthlyPriceExact =
      readDecimal (foundTotal settings payload.price) := by
    rw [hexact, readDecimal_eq]
  have hsteady : monthlyPrice settings terms (hundredths (payload.price.fields.get "total")) =
      hundredths (foundTotal settings payload.price) ↔ NotPassedOver settings payload.price :=
    monthlyPrice_eq_iff hterms
  rw [← hminor] at hsteady
  constructor
  · intro hpriced
    obtain ⟨row, hrow, htext, hunits⟩ := hpriced.sameRow
    have hsame : decimalText row = decimalText (foundTotal settings payload.price) :=
      htext.symm.trans hexact
    rw [minor_congr hsame, hfound] at hunits
    have hunits := Except.ok.inj hunits
    refine ⟨⟨row, hrow, hsame⟩, hsteady.mp hunits.symm, ?_⟩
    intro x exponent hx hexponent
    have hne : detail.product.monthlyPriceExact ≠ "" := by
      intro hempty
      rw [hexact, decimalText_eq_empty, hx] at hempty
      cases hempty
    obtain ⟨y, hy, hrounded⟩ := hpriced.rounded hne
    rw [hread, hx] at hy
    cases hy
    rw [hcurrency] at hrounded
    refine (hundredths_eq_iff hfound hx (currencyExponent_cases hexponent)).mp ?_
    rw [hunits, hrounded exponent hexponent]
  · intro hpriced
    have hunits := hsteady.mpr hpriced.notPassedOver
    have hrounded : ∀ x, readDecimal (foundTotal settings payload.price) = some (.number x) →
        ∀ exponent, currencyExponent detail.product.currency = .ok exponent →
          detail.product.monthlyPriceMinor = halfUp (x.toRat * 10 ^ exponent) := by
      intro x hx exponent hexponent
      rw [hcurrency] at hexponent
      rw [hunits]
      exact (hundredths_eq_iff hfound hx (currencyExponent_cases hexponent)).mpr
        (hpriced.units x exponent hx hexponent)
    constructor
    · obtain ⟨row, hrow, hsame⟩ := hpriced.asked
      exact ⟨row, hrow, hexact.trans hsame.symm, by rw [minor_congr hsame, hfound, hunits]⟩
    · intro hne
      cases hparsed : readDecimal (foundTotal settings payload.price) with
      | none => exact absurd (hexact.trans (decimalText_eq_empty.mpr hparsed)) hne
      | some parsed =>
        unfold minor at hfound
        rw [hparsed] at hfound
        obtain ⟨x, -, rfl, -, -⟩ := toMinorUnits_eq_ok hfound
        exact ⟨x, hread.trans hparsed, hrounded x hparsed⟩
    · intro x expected hx hpositive hexpected
      exact expected_eq hpositive hexpected (hrounded x (hread.symm.trans hx))

end Product

/-! ### A term that costs nothing -/

/-- The detail of a product whose configured term has a total of its own. -/
def termPayload (total : String) : ProductPayload where
  fields := [("id", .text "VPS-1")]
  price := {
    fields := [("total", .text "12.00"), ("currency", .text "EUR")]
    contractTerms := [[("key", .text "1_MONTH"), ("total", .text total)]] }

/-- The detail that is returned for it. -/
def termDetail (total : String) (units monthly : ℤ) : PricedDetail where
  product := {
    id := "VPS-1"
    name := "VPS-1"
    location := "AMS-01"
    vcpu := 4
    ramGb := 4
    diskGb := 0
    currency := "EUR"
    monthlyPriceMinor := monthly
    monthlyPriceExact := total
    providerPriceMinor := 1200
    basePriceMinor := 0
    storageType := none }
  osOptions := []
  controlPanels := []
  diskUpgrades := []
  slas := []
  availableLocations := []
  contractTerms := [("1_MONTH", units)]
  billingCycles := []

/-- A term of 9.99 has the same price in both forms. -/
theorem pricedAsAsked_termPayload :
    PricedAsAsked (termPayload "9.99") "1_MONTH" "1_MONTH" (termDetail "9.99" 999 999).product := by
  have hreturned : getProduct (fun _ ↦ .ok 4) (fun _ _ ↦ .ok (termPayload "9.99")) {} "AMS-01" "VPS-1"
      {} = .ok (termDetail "9.99" 999 999) := by decide +kernel
  refine (pricedAsAsked_iff hreturned rfl).mpr ⟨?_, ?_, ?_⟩
  · exact asked_of_configured _ rfl rfl
  · change Stays _ _
    exact Or.inl (by decide +kernel)
  · intro x exponent hx hexponent
    have hnumber : readDecimal (foundTotal {} (termPayload "9.99").price) =
        some (.number ⟨false, 999, -2⟩) := by decide +kernel
    have htwo : currencyExponent (productCurrency (termPayload "9.99")) = .ok 2 := by decide +kernel
    rw [hnumber] at hx
    rw [htwo] at hexponent
    cases hx
    cases hexponent
    decide +kernel

/-- The exact price of a term that costs nothing comes with the minor units of the list price. -/
theorem not_pricedAsAsked_termPayload :
    getProduct (fun _ ↦ .ok 4) (fun _ _ ↦ .ok (termPayload "0.00")) {} "AMS-01" "VPS-1" {} =
        .ok (termDetail "0.00" 0 1200) ∧
      ¬ PricedAsAsked (termPayload "0.00") "1_MONTH" "1_MONTH" (termDetail "0.00" 0 1200).product := by
  refine ⟨by decide +kernel, fun hpriced ↦ ?_⟩
  obtain ⟨row, hrow, -, hunits⟩ := hpriced.sameRow
  have hrows : (termPayload "0.00").price.totalsFor "1_MONTH" "1_MONTH" = [some (.text "0.00")] := by
    decide +kernel
  have hzero : minor (some (.text "0.00")) = .ok 0 := by decide +kernel
  rw [hrows, List.mem_singleton] at hrow
  rw [hrow, hzero] at hunits
  exact absurd (Except.ok.inj hunits) (by decide)

end CloudPlatform.Leaseweb
