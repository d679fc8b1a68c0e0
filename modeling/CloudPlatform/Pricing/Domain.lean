import CloudPlatform.Fx.Domain

/-!
# Price books

A version of a price book is a list of margin rules with distinct patterns. A rule matches an offer
whose provider, plan and location it names or leaves open; the price of an offer is derived from the
matching rule that names the most of the three. The versions of a named book take effect one after
another, and `sell_price` takes the latest one in effect.
-/

namespace CloudPlatform.Pricing

open Decimals

/-- `WILDCARD`. -/
def wildcard : String :=
  "*"

/-- What `_require_pattern` lets through. -/
def IsPattern (value : String) : Prop :=
  strip value ≠ "" ∨ value = wildcard

instance (value : String) : Decidable (IsPattern value) :=
  inferInstanceAs (Decidable (_ ∨ _))

theorem isPattern_wildcard : IsPattern wildcard :=
  .inr rfl

/-- One margin rule: pattern, explicit margin (`none` is `Infinity`) and optional monthly cap. -/
structure MarginRule extends Billing.MarginRule where
  marginFactor : Option Decimal
  fixedMinor : ℤ := 0
  provider_pattern : IsPattern provider
  plan_pattern : IsPattern plan
  location_pattern : IsPattern location
  margin_pos : marginFactor.all Decimal.positive = true
  fixed_nonneg : 0 ≤ fixedMinor
  cap_nonneg : ∀ cap ∈ monthlyCapMinor, 0 ≤ cap
  deriving DecidableEq

/-- The provider cost side of one offer. -/
structure OfferCost extends Billing.OfferCost where
  providerKey : String
  planId : String
  locationId : String
  provider_ne : strip providerKey ≠ ""
  plan_ne : strip planId ≠ ""
  location_ne : strip locationId ≠ ""
  currency_ne : strip currency ≠ ""
  cost_nonneg : 0 ≤ costMinor

/-- The provider, plan and location of a rule. -/
structure Pattern where
  provider : String
  plan : String
  location : String
  deriving DecidableEq

/-- A pattern as a message shows it. -/
def Pattern.repr (pattern : Pattern) : String :=
  s!"('{pattern.provider}', '{pattern.plan}', '{pattern.location}')"

namespace MarginRule

variable (rule : MarginRule)

/-- Number of concrete fields: 0..3. -/
def specificity : ℕ :=
  [rule.provider, rule.plan, rule.location].countP (· ≠ wildcard)

/-- `matches`. -/
def «matches» (offer : OfferCost) : Bool :=
  (rule.provider = wildcard || rule.provider = offer.providerKey) &&
    (rule.plan = wildcard || rule.plan = offer.planId) &&
      (rule.location = wildcard || rule.location = offer.locationId)

/-- `pattern`. -/
def pattern : Pattern where
  provider := rule.provider
  plan := rule.plan
  location := rule.location

end MarginRule

/-! ### Versions -/

/-- The scan for a pattern that came before. -/
def rejectDuplicates : List Pattern → List MarginRule → Result Unit
  | _, [] => .ok ()
  | seen, rule :: rules =>
    if rule.pattern ∈ seen then raise .valueError s!"duplicate rule pattern {rule.pattern.repr}"
    else rejectDuplicates (rule.pattern :: seen) rules

/-- The scan ends when no two rules have one pattern. -/
theorem rejectDuplicates_eq_ok {seen : List Pattern} {rules : List MarginRule} :
    rejectDuplicates seen rules = .ok () ↔
      (rules.map MarginRule.pattern).Nodup ∧ ∀ rule ∈ rules, rule.pattern ∉ seen := by
  induction rules generalizing seen with
  | nil => simp [rejectDuplicates]
  | cons rule rules ih =>
    rw [rejectDuplicates]
    by_cases hseen : rule.pattern ∈ seen
    · rw [if_pos hseen]
      simp [raise, hseen]
    · rw [if_neg hseen, ih]
      simp only [List.map_cons, List.nodup_cons, List.mem_map, List.mem_cons, not_or]
      constructor
      · rintro ⟨hnodup, hnew⟩
        refine ⟨⟨?_, hnodup⟩, ?_⟩
        · rintro ⟨other, hother, hpattern⟩
          exact (hnew other hother).1 hpattern
        · intro other hother
          by_cases heq : other = rule
          · rw [heq]
            exact hseen
          · exact (hnew other (hother.resolve_left heq)).2
      · rintro ⟨⟨hnot, hnodup⟩, hnew⟩
        refine ⟨hnodup, fun other hother ↦ ⟨?_, hnew other (Or.inr hother)⟩⟩
        intro hpattern
        exact hnot ⟨other, hother, hpattern⟩

/-- One immutable version of a named price book. -/
structure PriceBookVersion where
  bookName : String
  version : ℤ
  effectiveAt : ℤ
  rules : List MarginRule
  book_ne : strip bookName ≠ ""
  version_pos : 1 ≤ version
  rules_ne : rules ≠ []
  accepted : rejectDuplicates [] rules = .ok ()

namespace PriceBookVersion

theorem rules_nodup (version : PriceBookVersion) : version.rules.Nodup :=
  (rejectDuplicates_eq_ok.mp version.accepted).1.of_map _

/-- `PriceBookVersion(...)`. -/
def construct (bookName : String) (version effectiveAt : ℤ) (rules : List MarginRule) :
    Result PriceBookVersion :=
  if hbook : strip bookName = "" then raise .valueError "book_name must not be empty"
  else if hversion : version < 1 then raise .valueError "version must be >= 1"
  else if hrules : rules = [] then
    raise .valueError "a price book version needs at least one rule"
  else match haccepted : rejectDuplicates [] rules with
    | .error raised => .error raised
    | .ok () => .ok ⟨bookName, version, effectiveAt, rules, hbook, not_lt.mp hversion, hrules,
        haccepted⟩

/-- The same version with its rules in another order. -/
def reorder (version : PriceBookVersion) (rules : List MarginRule)
    (h : rules.Perm version.rules) : PriceBookVersion :=
  { version with
    rules := rules
    rules_ne := fun hnil ↦ version.rules_ne (List.nil_perm.mp (hnil ▸ h))
    accepted := by
      refine rejectDuplicates_eq_ok.mpr ⟨?_, fun _ _ ↦ by simp⟩
      exact (h.map _).nodup_iff.mpr (rejectDuplicates_eq_ok.mp version.accepted).1 }

/-- The constructor accepts the rules of a version in every order. -/
theorem construct_reorder (version : PriceBookVersion) (rules : List MarginRule)
    (h : rules.Perm version.rules) :
    construct version.bookName version.version version.effectiveAt rules =
      .ok (version.reorder rules h) := by
  have haccepted : rejectDuplicates [] rules = .ok () := (version.reorder rules h).accepted
  have hne : rules ≠ [] := (version.reorder rules h).rules_ne
  unfold construct
  rw [dif_neg version.book_ne, dif_neg (not_lt.mpr version.version_pos), dif_neg hne]
  split
  · rename_i raised herror
    rw [haccepted] at herror
    cases herror
  · rfl

end PriceBookVersion

/-! ### Derivation -/

/-- One round of the loop of `_match_rule`. -/
def matchStep (offer : OfferCost) (best : Option MarginRule) (rule : MarginRule) :
    Result (Option MarginRule) :=
  if ¬ rule.matches offer then .ok best
  else match best with
    | none => .ok (some rule)
    | some best =>
      if best.specificity < rule.specificity then .ok (some rule)
      else if rule.specificity = best.specificity then
        raise .ambiguousMarginRule
          s!"rules {best.pattern.repr} and {rule.pattern.repr} both match '{offer.planId}'"
      else .ok (some best)

/-- `_match_rule`. -/
def matchRule (rules : List MarginRule) (offer : OfferCost) : Result MarginRule := do
  let best ← rules.foldlM (matchStep offer) none
  match best with
  | none =>
    raise .noMarginRule
      s!"no margin rule matches {offer.providerKey}/{offer.planId}/{offer.locationId}"
  | some best => return best

/-- The default context of the decimal arithmetic. -/
def defaultContext : Context where
  precision := 28

/-- `int((Decimal(cost_minor) * margin_factor + Decimal(fixed_minor)).quantize(Decimal("1"),
rounding=ROUND_HALF_UP))`; an infinite margin has no price. -/
def sellingMinor (costMinor : ℤ) (marginFactor : Option Decimal) (fixedMinor : ℤ) : Result ℤ := do
  match marginFactor with
  | none => raise .decimalInvalidOperation "InvalidOperation"
  | some margin =>
    let product ← Fx.arithmetic (defaultContext.multiply (Fx.decimalOfInt costMinor) margin)
    let raw ← Fx.arithmetic (defaultContext.add product (Fx.decimalOfInt fixedMinor))
    let selling ← Fx.arithmetic (defaultContext.quantize raw 0 .halfUp)
    return selling.toInt

/-- A selling price, with the rule and the version it came from. -/
structure SellingPrice where
  offer : OfferCost
  sellingMinor : ℤ
  rule : MarginRule
  bookName : String
  version : ℤ
  pricedAt : ℤ
  sellingCurrency : String

/-- `derive_selling_price`. -/
def deriveSellingPrice (version : PriceBookVersion) (offer : OfferCost) (pricedAt : ℤ) :
    Result SellingPrice := do
  let rule ← matchRule version.rules offer
  let selling ← sellingMinor offer.costMinor rule.marginFactor rule.fixedMinor
  return {
    offer := offer
    sellingMinor := selling
    rule := rule
    bookName := version.bookName
    version := version.version
    pricedAt := pricedAt
    sellingCurrency := upper (strip offer.currency) }

/-! ### The price of an offer at an instant -/

open Calendar (isoformat)

/-- `OfferCost(...)`. -/
def OfferCost.construct (providerKey planId locationId : String) (costMinor : ℤ)
    (currency : String) : Result OfferCost :=
  if hprovider : strip providerKey = "" then raise .valueError "provider_key must not be empty"
  else if hplan : strip planId = "" then raise .valueError "plan_id must not be empty"
  else if hlocation : strip locationId = "" then raise .valueError "location_id must not be empty"
  else if hcurrency : strip currency = "" then raise .valueError "currency must not be empty"
  else if hcost : costMinor < 0 then raise .valueError "cost_minor must not be negative"
  else .ok {
    costMinor := costMinor
    currency := currency
    providerKey := providerKey
    planId := planId
    locationId := locationId
    provider_ne := hprovider
    plan_ne := hplan
    location_ne := hlocation
    currency_ne := hcurrency
    cost_nonneg := not_lt.mp hcost }

/-- One round of the loop of `active_version`. -/
def laterVersion (at' : ℤ) (best : Option PriceBookVersion) (candidate : PriceBookVersion) :
    Option PriceBookVersion :=
  if candidate.effectiveAt ≤ at' ∧ best.all (·.version < candidate.version) then some candidate
  else best

/-- `active_version`: the latest version effective at an instant. -/
def activeVersion (versions : List PriceBookVersion) (at' : ℤ) : Option PriceBookVersion :=
  versions.foldl (laterVersion at') none

/-- `SqlAlchemyPriceBookRepository.list_versions`: the newest first. -/
def listVersions (versions : List PriceBookVersion) (bookName : String) : List PriceBookVersion :=
  (versions.filter (·.bookName = bookName)).mergeSort fun first second ↦
    second.version ≤ first.version

/-- `PriceBookService.sell_price`. -/
def sellPrice (versions : List PriceBookVersion) (bookName : String) (offer : OfferCost) (at' : ℤ) :
    Result SellingPrice :=
  match activeVersion (listVersions versions bookName) at' with
  | none => raise .noActiveVersion (s!"no '{bookName}' version effective at " ++ isoformat at')
  | some current => deriveSellingPrice current offer at'

/-! ### What is derived -/

/-- The cost carries what it was built from. -/
theorem OfferCost.construct_eq_ok {providerKey planId locationId currency : String} {costMinor : ℤ}
    {cost : OfferCost}
    (h : OfferCost.construct providerKey planId locationId costMinor currency = .ok cost) :
    cost.currency = currency ∧ cost.costMinor = costMinor ∧ strip currency ≠ "" ∧ 0 ≤ costMinor := by
  unfold OfferCost.construct at h
  split_ifs at h with hprovider hplan hlocation hcurrency hcost
  · exact absurd h raise_ne_ok
  · exact absurd h raise_ne_ok
  · exact absurd h raise_ne_ok
  · exact absurd h raise_ne_ok
  · exact absurd h raise_ne_ok
  · obtain rfl := Except.ok.inj h
    exact ⟨rfl, rfl, hcurrency, not_lt.mp hcost⟩

end CloudPlatform.Pricing
