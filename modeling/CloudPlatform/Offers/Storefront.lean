import CloudPlatform.Core.Lists
import CloudPlatform.Offers.PricingGate

/-!
# The storefront

The offers that `list_sellable` returns, and the gate that an operator is told to clear. Both read
the same row. The listing asks for a valid audit within the stale limit of the catalog, and not for
the currency of the catalog; the report asks for the currency, and reads the audit without the
limit. `onSaleAgree_iff` says for which rows that makes no difference.
-/

namespace CloudPlatform.Offers

open Fx

/-- `SqlAlchemySellableOfferRepository`, as it is constructed. -/
structure SellableRepository where
  catalogCurrency : String
  catalogStaleLimitSeconds : Option ℤ := none
  supported : catalogCurrency ∈ supportedCurrencies
  positive : ∀ limit ∈ catalogStaleLimitSeconds, 0 < limit

/-- The customer-facing gates, named for reporting. -/
inductive Gate
  | providerUnavailable
  | disabled
  | operatorDisabled
  | deprecated
  | pricingPending
  | unpriced
  | sellingCurrency
  | pricingProvenance

namespace AuditedOffer

variable (offer : AuditedOffer)

/-- `blocking_gate`: the first gate that keeps an offer off the storefront. -/
def blockingGate (now : ℤ) (catalogCurrency : Option String) : Option Gate :=
  if offer.providerAvailable = false then some .providerUnavailable
  else if offer.enabled = false then some .disabled
  else if offer.operatorDisabled then some .operatorDisabled
  else if offer.technicalMetadata.truthOf "deprecated" then some .deprecated
  else if offer.pricingMetadata.truthOf "fx_repricing_pending" then some .pricingPending
  else if offer.sellingPriceMinor ≤ 0 then some .unpriced
  else if catalogCurrency.any offer.requiresCurrencyNormalization then some .sellingCurrency
  else if catalogCurrency.any fun currency ↦
      !offer.hasValidPricingProvenance now currency none then some .pricingProvenance
  else none

/-- The columns that the query of `list_sellable` selects by. -/
def selectedBy (provider : Option String) : Bool :=
  offer.providerAvailable && offer.enabled && !offer.operatorDisabled &&
    0 < offer.sellingPriceMinor && provider.all fun key ↦ key = "" || offer.providerKey = key

end AuditedOffer

namespace SellableRepository

variable (repository : SellableRepository)

/-- An offer that the listing keeps. -/
def lists (now : ℤ) (offer : AuditedOffer) : Bool :=
  offer.sellable && offer.hasValidPricingProvenance now repository.catalogCurrency
    repository.catalogStaleLimitSeconds

/-- `list_sellable`, up to its order: a selected row without an identity raises. -/
def listSellable (now : ℤ) (rows : List AuditedOffer) (provider : Option String) :
    Result (List AuditedOffer) := do
  let offers ← (rows.filter (·.selectedBy provider)).mapM AuditedOffer.toDomain
  return offers.filter (repository.lists now)

end SellableRepository

/-! ### Reading a row -/

abbrev AuditedTable := Rows.Table fun row : AuditedOffer ↦ row.key

theorem AuditedOffer.toDomain_eq_ok {row offer : AuditedOffer} (h : row.toDomain = .ok offer) :
    row.checkIdentity = .ok () ∧ offer.legacyInvalid = !row.moneyValid ∧
      offer.providerAvailable = (row.providerAvailable && row.moneyValid) ∧
      offer.enabled = (row.enabled && row.moneyValid) ∧
      offer.operatorDisabled = row.operatorDisabled ∧ offer.key = row.key ∧
      offer.sellingPriceMinor = row.sellingPriceMinor := by
  obtain ⟨plain, hplain, h⟩ := bind_eq_ok.mp h
  obtain rfl := pure_eq_ok.mp h
  obtain ⟨⟨⟩, hidentity, hplain⟩ := bind_eq_ok.mp hplain
  by_cases hmoney : row.moneyValid = true
  · rw [if_pos hmoney] at hplain
    obtain rfl := pure_eq_ok.mp hplain
    simp [hidentity, hmoney, OfferRow.key]
  · rw [if_neg hmoney] at hplain
    obtain rfl := pure_eq_ok.mp hplain
    simp [hidentity, Bool.not_eq_true _ ▸ hmoney, OfferRow.key]

theorem AuditedOffer.exists_toDomain {row : AuditedOffer} (h : row.checkIdentity = .ok ()) :
    ∃ offer, row.toDomain = .ok offer := by
  have hplain : ∃ plain, row.toOfferRow.toDomain = .ok plain := by
    unfold OfferRow.toDomain
    rw [h, ok_bind]
    by_cases hmoney : row.moneyValid = true
    · exact ⟨_, if_pos hmoney⟩
    · exact ⟨_, if_neg hmoney⟩
  obtain ⟨plain, hplain⟩ := hplain
  exact ⟨_, by rw [AuditedOffer.toDomain, hplain]; rfl⟩

/-! ### The two readings of an audit -/

namespace AuditedOffer

/-- The price is in a foreign currency that is not the one of the catalog: the currency of the
provider cost. -/
def soldAstray (offer : AuditedOffer) (target : String) : Bool :=
  offer.native = upper (strip offer.sellingCurrency) &&
    offer.native ∉ domesticProviderCostCurrencies && offer.native ≠ upper (strip target)

/-- The limit makes no difference to how long the audit holds; a manual price in the currency of
the cost has no audit. -/
def limitIdle (offer : AuditedOffer) (limit : Option ℤ) : Bool :=
  offer.native = upper (strip offer.sellingCurrency) && !offer.autoPriced ||
    (auditTimes offer.pricingMetadata).all fun times ↦
      times.bounded offer.pricingMetadata limit = times.bounded offer.pricingMetadata none

variable {offer : AuditedOffer} {now : ℤ} {source target : String} {limit : Option ℤ}

theorem validPricingMetadata_congr (h : ((auditTimes offer.pricingMetadata).all fun times ↦
      decide (times.bounded offer.pricingMetadata limit =
        times.bounded offer.pricingMetadata none)) = true) :
    offer.validPricingMetadata now source target limit =
      offer.validPricingMetadata now source target none := by
  cases htimes : auditTimes offer.pricingMetadata with
  | none => simp only [validPricingMetadata, htimes, Option.any_none]
  | some times =>
    rw [htimes, Option.all_some, decide_eq_true_eq] at h
    simp only [validPricingMetadata, htimes, Option.any_some, h]

/-- The limit decides nothing about an audit for which it is idle. -/
theorem hasValidPricingProvenance_congr (h : offer.limitIdle limit = true) :
    offer.hasValidPricingProvenance now target limit =
      offer.hasValidPricingProvenance now target none := by
  unfold hasValidPricingProvenance
  rw [limitIdle, Bool.or_eq_true] at h
  cases h with
  | inl hmanual =>
    rw [Bool.and_eq_true, decide_eq_true_eq, Bool.not_eq_true'] at hmanual
    simp only [hmanual.1, hmanual.2, if_true, Bool.false_eq_true, if_false]
  | inr hidle => simp only [validPricingMetadata_congr hidle]

/-- An accepted audit spells its times, and they hold. -/
theorem bounded_of_validPricingMetadata
    (h : offer.validPricingMetadata now source target limit = true) :
    ∃ times, auditTimes offer.pricingMetadata = some times ∧
      times.bounded offer.pricingMetadata limit = true := by
  simp only [validPricingMetadata, Bool.and_eq_true, Option.any_eq_true] at h
  obtain ⟨-, amounts, -, ⟨-, times, htimes, -, hbounded⟩, -⟩ := h
  exact ⟨times, htimes, hbounded⟩

/-- An accepted price is a manual one in the currency of its cost, or its audit holds. -/
theorem bounded_of_hasValidPricingProvenance
    (h : offer.hasValidPricingProvenance now target limit = true) :
    (offer.native = upper (strip offer.sellingCurrency) ∧ offer.autoPriced = false) ∨
      ∃ times, auditTimes offer.pricingMetadata = some times ∧
        times.bounded offer.pricingMetadata limit = true := by
  simp only [hasValidPricingProvenance] at h
  by_cases hempty : offer.native = "" ∨ upper (strip target) = "" ∨
      upper (strip offer.sellingCurrency) = ""
  · exact absurd ((if_pos hempty).symm.trans h) Bool.false_ne_true
  rw [if_neg hempty] at h
  by_cases hsame : offer.native = upper (strip offer.sellingCurrency)
  · rw [if_pos hsame] at h
    by_cases hauto : offer.autoPriced = true
    · rw [if_pos hauto] at h
      exact Or.inr (bounded_of_validPricingMetadata h)
    · exact Or.inl ⟨hsame, Bool.not_eq_true _ ▸ hauto⟩
  rw [if_neg hsame] at h
  by_cases hdomestic : offer.native ∈ domesticProviderCostCurrencies
  · exact absurd ((if_pos hdomestic).symm.trans h) Bool.false_ne_true
  rw [if_neg hdomestic] at h
  by_cases htarget : upper (strip offer.sellingCurrency) = upper (strip target)
  · rw [if_neg (not_not_intro htarget)] at h
    exact Or.inr (bounded_of_validPricingMetadata h)
  · exact absurd ((if_pos htarget).symm.trans h) Bool.false_ne_true

/-- The limit is idle for a price that is accepted with it and without it. -/
theorem limitIdle_of_both (hlimit : offer.hasValidPricingProvenance now target limit = true)
    (hnone : offer.hasValidPricingProvenance now target none = true) :
    offer.limitIdle limit = true := by
  rw [limitIdle, Bool.or_eq_true, Bool.and_eq_true, decide_eq_true_eq, Bool.not_eq_true']
  cases bounded_of_hasValidPricingProvenance hlimit with
  | inl hmanual => exact Or.inl hmanual
  | inr haudit =>
    obtain ⟨times, htimes, hbounded⟩ := haudit
    cases bounded_of_hasValidPricingProvenance hnone with
    | inl hmanual => exact Or.inl hmanual
    | inr hplain =>
      obtain ⟨same, hsame, hheld⟩ := hplain
      obtain rfl := Option.some.inj (htimes.symm.trans hsame)
      right
      rw [htimes, Option.all_some, decide_eq_true_eq, hbounded, hheld]

/-- An accepted price is in the currency that the catalog asks for, unless it is sold astray. -/
theorem requiresCurrencyNormalization_eq
    (h : offer.hasValidPricingProvenance now target limit = true) :
    offer.requiresCurrencyNormalization target = offer.soldAstray target := by
  unfold hasValidPricingProvenance at h
  unfold requiresCurrencyNormalization soldAstray requiredSellingCurrency
  by_cases hdomestic : offer.native ∈ domesticProviderCostCurrencies
  · by_cases hsame : offer.native = upper (strip offer.sellingCurrency)
    · simp [hdomestic, ← hsame]
    · simp [hdomestic, hsame] at h
  · by_cases hsame : offer.native = upper (strip offer.sellingCurrency)
    · simp [hdomestic, ← hsame]
    · have htarget : upper (strip offer.sellingCurrency) = upper (strip target) := by
        by_contra hne
        simp [hsame, hne] at h
      simp [hdomestic, htarget]

/-- The report names no gate exactly if the flags and the gate without a limit are passed. -/
theorem blockingGate_eq_none
    (hlegacy : offer.legacyInvalid = true → offer.providerAvailable = false) :
    offer.blockingGate now (some target) = none ↔
      offer.sellable = true ∧ offer.requiresCurrencyNormalization target = false ∧
        offer.hasValidPricingProvenance now target none = true := by
  by_cases havailable : offer.providerAvailable = true
  · have hvalid : offer.legacyInvalid = false :=
      Bool.eq_false_iff.mpr fun h ↦ by simp [hlegacy h] at havailable
    simp only [blockingGate, sellable, hvalid, havailable, Option.any_some]
    split_ifs <;> simp_all
  · simp [blockingGate, sellable, havailable]

end AuditedOffer

/-! ### One definition of what is on sale -/

namespace SellableRepository

variable {repository : SellableRepository} {rows : AuditedTable} {provider : Option String}
  {row : AuditedOffer} {now : ℤ}

/-- The listing contains an offer exactly if the offer is sellable, and exactly then the report
names no gate. -/
def OnSaleAgree (repository : SellableRepository) (rows : AuditedTable) (provider : Option String)
    (now : ℤ) (row : AuditedOffer) : Prop :=
  ∃ listed, repository.listSellable now rows.rows provider = .ok listed ∧
    ∀ offer, row.toDomain = .ok offer →
      (offer ∈ listed ↔ offer.isSellableInCurrency now repository.catalogCurrency
        repository.catalogStaleLimitSeconds = true) ∧
      (offer.isSellableInCurrency now repository.catalogCurrency
        repository.catalogStaleLimitSeconds = true ↔
          offer.blockingGate now (some repository.catalogCurrency) = none)

/-- An offer with its flags set that passes the gate is not sold astray, and if it is not, the
limit of the catalog makes no difference to its audit. -/
structure ReadAlike (repository : SellableRepository) (now : ℤ) (offer : AuditedOffer) : Prop where
  currency : offer.hasValidPricingProvenance now repository.catalogCurrency
      repository.catalogStaleLimitSeconds = true →
    offer.soldAstray repository.catalogCurrency = false
  limit : offer.soldAstray repository.catalogCurrency = false →
    offer.hasValidPricingProvenance now repository.catalogCurrency
        repository.catalogStaleLimitSeconds = true ∨
      offer.hasValidPricingProvenance now repository.catalogCurrency none = true →
    offer.limitIdle repository.catalogStaleLimitSeconds = true

variable {offer : AuditedOffer}

/-- The three readings of one offer agree exactly if it is read alike. -/
theorem agree_iff (hlegacy : offer.legacyInvalid = true → offer.providerAvailable = false) :
    ((repository.lists now offer = true ↔ offer.isSellableInCurrency now
        repository.catalogCurrency repository.catalogStaleLimitSeconds = true) ∧
      (offer.isSellableInCurrency now repository.catalogCurrency
        repository.catalogStaleLimitSeconds = true ↔
          offer.blockingGate now (some repository.catalogCurrency) = none)) ↔
      (offer.sellable = true → repository.ReadAlike now offer) := by
  rw [AuditedOffer.blockingGate_eq_none hlegacy, lists, AuditedOffer.isSellableInCurrency]
  simp only [Bool.and_eq_true, Bool.not_eq_true']
  constructor
  · rintro ⟨hlists, hgate⟩ hsellable
    constructor
    · intro hvalid
      rw [← AuditedOffer.requiresCurrencyNormalization_eq hvalid]
      exact (hlists.mp ⟨hsellable, hvalid⟩).1.2
    · intro hastray hvalid
      have hrequires : offer.requiresCurrencyNormalization repository.catalogCurrency = false := by
        cases hvalid with
        | inl hlimit => rw [AuditedOffer.requiresCurrencyNormalization_eq hlimit, hastray]
        | inr hnone => rw [AuditedOffer.requiresCurrencyNormalization_eq hnone, hastray]
      cases hvalid with
      | inl hlimit =>
        exact AuditedOffer.limitIdle_of_both hlimit
          (hgate.mp ⟨⟨hsellable, hrequires⟩, hlimit⟩).2.2
      | inr hnone =>
        exact AuditedOffer.limitIdle_of_both (hgate.mpr ⟨hsellable, hrequires, hnone⟩).2 hnone
  · intro halike
    constructor
    · constructor
      · rintro ⟨hsellable, hvalid⟩
        refine ⟨⟨hsellable, ?_⟩, hvalid⟩
        rw [AuditedOffer.requiresCurrencyNormalization_eq hvalid]
        exact (halike hsellable).currency hvalid
      · rintro ⟨⟨hsellable, -⟩, hvalid⟩
        exact ⟨hsellable, hvalid⟩
    · constructor
      · rintro ⟨⟨hsellable, hrequires⟩, hvalid⟩
        have hidle := (halike hsellable).limit ((halike hsellable).currency hvalid) (Or.inl hvalid)
        exact ⟨hsellable, hrequires,
          (AuditedOffer.hasValidPricingProvenance_congr hidle).symm.trans hvalid⟩
      · rintro ⟨hsellable, hrequires, hvalid⟩
        rw [AuditedOffer.requiresCurrencyNormalization_eq hvalid] at hrequires
        have hidle := (halike hsellable).limit hrequires (Or.inr hvalid)
        rw [AuditedOffer.requiresCurrencyNormalization_eq hvalid]
        exact ⟨⟨hsellable, hrequires⟩,
          (AuditedOffer.hasValidPricingProvenance_congr hidle).trans hvalid⟩

/-- Two rows of the catalog that read as one offer are one row. -/
theorem mem_listSellable {listed : List AuditedOffer}
    (hlisted : repository.listSellable now rows.rows provider = .ok listed) (hrow : row ∈ rows.rows)
    (hoffer : row.toDomain = .ok offer) :
    offer ∈ listed ↔ row.selectedBy provider = true ∧ repository.lists now offer = true := by
  obtain ⟨offers, hoffers, h⟩ := bind_eq_ok.mp hlisted
  obtain rfl := pure_eq_ok.mp h
  rw [List.mem_filter, mem_of_mapM_eq_ok hoffers]
  constructor
  · rintro ⟨⟨other, hother, hread⟩, hlists⟩
    obtain ⟨hmem, hselected⟩ := List.mem_filter.mp hother
    have hkey : other.key = row.key :=
      (AuditedOffer.toDomain_eq_ok hread).2.2.2.2.2.1.symm.trans
        (AuditedOffer.toDomain_eq_ok hoffer).2.2.2.2.2.1
    obtain rfl := List.inj_on_of_nodup_map rows.unique hmem hrow hkey
    exact ⟨hselected, hlists⟩
  · rintro ⟨hselected, hlists⟩
    exact ⟨⟨row, List.mem_filter.mpr ⟨hrow, hselected⟩, hoffer⟩, hlists⟩

/-- The query selects every row that reads as a sellable offer. -/
theorem selectedBy_of_sellable (hoffer : row.toDomain = .ok offer)
    (hprovider : ∀ key ∈ provider, key = "" ∨ row.providerKey = key)
    (hsellable : offer.sellable = true) : row.selectedBy provider = true := by
  obtain ⟨-, -, havailable, henabled, hdisabled, -, hprice⟩ := AuditedOffer.toDomain_eq_ok hoffer
  simp only [AuditedOffer.sellable, havailable, henabled, hdisabled, hprice, Bool.and_eq_true]
    at hsellable
  obtain ⟨⟨⟨⟨⟨⟨-, havailable⟩, henabled⟩, hdisabled⟩, -⟩, -⟩, hprice⟩ := hsellable
  simp only [AuditedOffer.selectedBy, havailable.1, henabled.1, hdisabled, hprice, Bool.and_true,
    Bool.true_and]
  cases provider with
  | none => rfl
  | some key => simpa using hprovider key rfl

/-- The listing, the gate and the report agree on a row exactly if every selected row has an
identity and the offer, when its flags are set, is read alike. -/
theorem onSaleAgree_iff (hrow : row ∈ rows.rows)
    (hprovider : ∀ key ∈ provider, key = "" ∨ row.providerKey = key) :
    repository.OnSaleAgree rows provider now row ↔
      (∀ other ∈ rows.rows, other.selectedBy provider = true → other.checkIdentity = .ok ()) ∧
        ∀ offer, row.toDomain = .ok offer →
          offer.sellable = true → repository.ReadAlike now offer := by
  have hlegacy (offer : AuditedOffer) (hoffer : row.toDomain = .ok offer) :
      offer.legacyInvalid = true → offer.providerAvailable = false := by
    obtain ⟨-, hinvalid, havailable, -⟩ := AuditedOffer.toDomain_eq_ok hoffer
    rw [hinvalid, havailable, Bool.not_eq_true']
    intro hmoney
    rw [hmoney, Bool.and_false]
  have hmember {listed : List AuditedOffer} {offer : AuditedOffer}
      (hlisted : repository.listSellable now rows.rows provider = .ok listed)
      (hoffer : row.toDomain = .ok offer) :
      offer ∈ listed ↔ repository.lists now offer = true := by
    rw [mem_listSellable hlisted hrow hoffer]
    refine and_iff_right_of_imp fun hlists ↦ selectedBy_of_sellable hoffer hprovider ?_
    exact (Bool.and_eq_true _ _ ▸ hlists).1
  constructor
  · rintro ⟨listed, hlisted, hagree⟩
    constructor
    · intro other hother hselected
      obtain ⟨offers, hoffers, -⟩ := bind_eq_ok.mp hlisted
      obtain ⟨offer, hoffer⟩ :=
        exists_of_mapM_eq_ok hoffers (List.mem_filter.mpr ⟨hother, hselected⟩)
      exact (AuditedOffer.toDomain_eq_ok hoffer).1
    · intro offer hoffer
      obtain ⟨hlists, hgate⟩ := hagree offer hoffer
      rw [hmember hlisted hoffer] at hlists
      exact (agree_iff (hlegacy offer hoffer)).mp ⟨hlists, hgate⟩
  · rintro ⟨hidentity, halike⟩
    obtain ⟨offers, hoffers⟩ : ∃ offers,
        (rows.rows.filter (·.selectedBy provider)).mapM AuditedOffer.toDomain = .ok offers :=
      mapM_eq_ok_of_forall fun other hother ↦
        AuditedOffer.exists_toDomain (hidentity other (List.mem_filter.mp hother).1
          (List.mem_filter.mp hother).2)
    have hlisted : repository.listSellable now rows.rows provider =
        .ok (offers.filter (repository.lists now)) := by
      rw [listSellable, hoffers]
      rfl
    refine ⟨_, hlisted, fun offer hoffer ↦ ?_⟩
    rw [hmember hlisted hoffer]
    exact (agree_iff (hlegacy offer hoffer)).mpr (halike offer hoffer)

/-! ### A row that is listed and not sellable -/

/-- A server rented in euro with a manual price in euro. -/
def euroServer : AuditedOffer where
  providerKey := "leaseweb"
  productId := "VPS-1"
  locationId := "AMS-01"
  billingModel := billingModelMonthly
  name := "VPS 1"
  vcpu := 1
  ramGb := 4
  diskGb := 80
  traffic := none
  providerCostMinor := 399
  providerCostCurrency := "EUR"
  sellingPriceMinor := 599
  sellingCurrency := "EUR"
  billingParameters := [("provider_monthly_rate", .text "3.99")]
  providerAvailable := true
  enabled := true
  autoPriced := false

def dollarCatalog : SellableRepository where
  catalogCurrency := "USD"
  supported := by decide +kernel
  positive := by simp

def euroTable : AuditedTable := ⟨[euroServer], by decide⟩

/-- The euro server is listed in the dollar catalog, where it is not sellable. -/
theorem euroServer_listed : ¬ dollarCatalog.OnSaleAgree euroTable none 0 euroServer := by
  rintro ⟨listed, hlisted, hagree⟩
  have hoffer : euroServer.toDomain = .ok euroServer := by decide +kernel
  have hmem : euroServer ∈ listed := by
    have hselected : euroServer.selectedBy none = true ∧ dollarCatalog.lists 0 euroServer = true := by
      decide +kernel
    exact (mem_listSellable hlisted (List.mem_singleton_self _) hoffer).mpr hselected
  have hsellable : euroServer.isSellableInCurrency 0 dollarCatalog.catalogCurrency
      dollarCatalog.catalogStaleLimitSeconds = false := by decide +kernel
  rw [(hagree euroServer hoffer).1, hsellable] at hmem
  exact Bool.false_ne_true hmem

/-- In a catalog in euro the three agree on it. -/
def euroCatalog : SellableRepository where
  catalogCurrency := "EUR"
  supported := by decide +kernel
  positive := by simp

theorem euroServer_agrees : euroCatalog.OnSaleAgree euroTable none 0 euroServer :=
  (onSaleAgree_iff (List.mem_singleton_self _) (by simp)).mpr
    ⟨fun other hother _ ↦ by
        rw [List.mem_singleton.mp hother]
        decide +kernel,
      fun offer hoffer _ ↦ by
        have hread : euroServer.toDomain = .ok euroServer := by decide +kernel
        obtain rfl := Except.ok.inj (hread.symm.trans hoffer)
        exact ⟨fun _ ↦ by decide +kernel, fun _ _ ↦ by decide +kernel⟩⟩

end SellableRepository

end CloudPlatform.Offers
