import CloudPlatform.Pricing.Domain

/-!
# The selected margin rule

The scan of the rules keeps the matching rule with the most concrete fields, and gives up as soon as
a matching rule has as many as the best so far. Distinct patterns can have equally many, such as
one that names the provider and one that names the plan. `orderFree_iff` says for which versions and
offers the order of the rules does not matter.
-/

namespace CloudPlatform.Pricing

/-- No two rules that match the offer have equally many concrete fields. -/
def NoTie (rules : List MarginRule) (offer : OfferCost) : Prop :=
  ∀ first ∈ rules, ∀ second ∈ rules, first.matches offer → second.matches offer →
    first.specificity = second.specificity → first = second

/-- What the scan holds after some rules: their best match, or nothing when none matches. -/
def Selected (rules : List MarginRule) (offer : OfferCost) : Option MarginRule → Prop
  | none => ∀ rule ∈ rules, rule.matches offer = false
  | some best => (best ∈ rules ∧ best.matches offer) ∧
      ∀ rule ∈ rules, rule.matches offer → rule.specificity ≤ best.specificity

section Scan

variable {rules done : List MarginRule} {offer : OfferCost} {best other : Option MarginRule}
  {rule : MarginRule}

/-- A rule that does not match is passed over. -/
theorem selected_skip (h : Selected done offer best) (hrule : rule.matches offer = false) :
    Selected (done ++ [rule]) offer best := by
  cases best with
  | none =>
    intro other hother
    rcases List.mem_append.mp hother with hdone | hlast
    · exact h other hdone
    · rw [List.mem_singleton.mp hlast]
      exact hrule
  | some best =>
    refine ⟨⟨List.mem_append_left _ h.1.1, h.1.2⟩, ?_⟩
    intro other hother hmatches
    rcases List.mem_append.mp hother with hdone | hlast
    · exact h.2 other hdone hmatches
    · rw [List.mem_singleton.mp hlast, hrule] at hmatches
      cases hmatches

/-- A rule above all matches so far is the new best. -/
theorem selected_take (hrule : rule.matches offer = true)
    (h : ∀ other ∈ done, other.matches offer → other.specificity ≤ rule.specificity) :
    Selected (done ++ [rule]) offer (some rule) := by
  refine ⟨⟨List.mem_append_right _ (List.mem_singleton_self _), hrule⟩, ?_⟩
  intro other hother hmatches
  rcases List.mem_append.mp hother with hdone | hlast
  · exact h other hdone hmatches
  · rw [List.mem_singleton.mp hlast]

/-- One round of the scan. -/
theorem matchStep_selected (h : Selected done offer best) (htie : NoTie (done ++ [rule]) offer)
    (hnew : rule ∉ done) :
    ∃ next, matchStep offer best rule = .ok next ∧ Selected (done ++ [rule]) offer next := by
  unfold matchStep
  by_cases hrule : rule.matches offer = true
  · rw [if_neg (by simpa using hrule)]
    cases best with
    | none =>
      refine ⟨some rule, rfl, selected_take hrule fun other hother hmatches ↦ ?_⟩
      rw [h other hother] at hmatches
      cases hmatches
    | some best =>
      have hbest : best ∈ done ++ [rule] := List.mem_append_left _ h.1.1
      have hlast : rule ∈ done ++ [rule] := List.mem_append_right _ (List.mem_singleton_self _)
      have hne : rule.specificity ≠ best.specificity := by
        intro hequal
        have hsame := htie rule hlast best hbest hrule h.1.2 hequal
        exact hnew (hsame ▸ h.1.1)
      by_cases hless : best.specificity < rule.specificity
      · refine ⟨some rule, if_pos hless, selected_take hrule fun other hother hmatches ↦ ?_⟩
        exact (h.2 other hother hmatches).trans hless.le
      · refine ⟨some best, ?_, ⟨hbest, h.1.2⟩, ?_⟩
        · dsimp only
          rw [if_neg hless, if_neg hne]
        · intro other hother hmatches
          rcases List.mem_append.mp hother with hdone | hsingle
          · exact h.2 other hdone hmatches
          · rw [List.mem_singleton.mp hsingle]
            exact not_lt.mp hless
  · rw [if_pos hrule]
    exact ⟨best, rfl, selected_skip h (by simpa using hrule)⟩

/-- The whole scan, from what it holds after the rules that are done. -/
theorem scan_selected {rest : List MarginRule} (h : Selected done offer best)
    (htie : NoTie (done ++ rest) offer) (hnodup : (done ++ rest).Nodup) :
    ∃ last, rest.foldlM (matchStep offer) best = .ok last ∧ Selected (done ++ rest) offer last := by
  induction rest generalizing done best with
  | nil => exact ⟨best, rfl, by rwa [List.append_nil]⟩
  | cons rule rest ih =>
    have hsplit : done ++ rule :: rest = (done ++ [rule]) ++ rest := by simp
    rw [hsplit] at htie hnodup ⊢
    have hnew : rule ∉ done := by
      intro hmem
      have hfirst := (List.nodup_append.mp hnodup).1
      exact (List.nodup_append.mp hfirst).2.2 rule hmem rule (List.mem_singleton_self _) rfl
    obtain ⟨next, hstep, hnext⟩ := matchStep_selected h (fun first hfirst second hsecond ↦
      htie first (List.mem_append_left _ hfirst) second (List.mem_append_left _ hsecond)) hnew
    obtain ⟨last, hlast, hselected⟩ := ih hnext htie hnodup
    refine ⟨last, ?_, hselected⟩
    rw [List.foldlM_cons, hstep]
    exact hlast

/-- What is selected does not depend on the order of the rules. -/
theorem Selected.unique (hbest : Selected rules offer best) (hother : Selected done offer other)
    (hperm : done.Perm rules) (htie : NoTie rules offer) : best = other := by
  cases best with
  | none =>
    cases other with
    | none => rfl
    | some other =>
      have hmatches := hbest other (hperm.mem_iff.mp hother.1.1)
      rw [hother.1.2] at hmatches
      cases hmatches
  | some best =>
    have hmem : best ∈ done := hperm.mem_iff.mpr hbest.1.1
    cases other with
    | none =>
      have hmatches := hother best hmem
      rw [hbest.1.2] at hmatches
      cases hmatches
    | some other =>
      have hback : other ∈ rules := hperm.mem_iff.mp hother.1.1
      have hequal : best.specificity = other.specificity :=
        le_antisymm (hother.2 best hmem hbest.1.2) (hbest.2 other hback hother.1.2)
      rw [htie best hbest.1.1 other hback hbest.1.2 hother.1.2 hequal]

/-- Without a tie the scan selects. -/
theorem matchRule_selected (htie : NoTie rules offer) (hnodup : rules.Nodup) :
    ∃ best, rules.foldlM (matchStep offer) none = .ok best ∧ Selected rules offer best := by
  have hstart : Selected [] offer none := fun rule hrule ↦ absurd hrule (by simp)
  simpa using scan_selected hstart (by simpa using htie) (by simpa using hnodup)

theorem NoTie.perm (htie : NoTie rules offer) (hperm : done.Perm rules) : NoTie done offer :=
  fun first hfirst second hsecond ↦
    htie first (hperm.mem_iff.mp hfirst) second (hperm.mem_iff.mp hsecond)

/-- Without a tie the order of the rules does not matter. -/
theorem matchRule_perm (htie : NoTie rules offer) (hnodup : rules.Nodup)
    (hperm : done.Perm rules) : matchRule done offer = matchRule rules offer := by
  obtain ⟨best, hbest, hselected⟩ := matchRule_selected htie hnodup
  obtain ⟨other, hother, hreordered⟩ :=
    matchRule_selected (htie.perm hperm) (hperm.nodup_iff.mpr hnodup)
  unfold matchRule
  rw [hbest, hother, hselected.unique hreordered hperm htie]

/-- Without a tie a failed selection says that no rule matches. -/
theorem matchRule_kind (htie : NoTie rules offer) (hnodup : rules.Nodup) {raised : Raised}
    (h : matchRule rules offer = .error raised) : raised.kind = .noMarginRule := by
  obtain ⟨best, hbest, -⟩ := matchRule_selected htie hnodup
  unfold matchRule at h
  rw [hbest] at h
  cases best with
  | none => exact (congrArg Raised.kind (Except.error.inj h)).symm
  | some best => cases h

/-- Two tied rules in front stop the scan. -/
theorem matchRule_tied (rest : List MarginRule) {first second : MarginRule}
    (hfirst : first.matches offer = true) (hsecond : second.matches offer = true)
    (h : second.specificity = first.specificity) :
    ∃ raised, matchRule (first :: second :: rest) offer = .error raised ∧
      raised.kind = .ambiguousMarginRule := by
  have hstart : matchStep offer none first = .ok (some first) := by
    unfold matchStep
    rw [if_neg (by simpa using hfirst)]
  have hstop : matchStep offer (some first) second = raise .ambiguousMarginRule
      s!"rules {first.pattern.repr} and {second.pattern.repr} both match '{offer.planId}'" := by
    unfold matchStep
    rw [if_neg (by simpa using hsecond)]
    dsimp only
    rw [if_neg (by omega), if_pos h]
  refine ⟨⟨.ambiguousMarginRule,
    s!"rules {first.pattern.repr} and {second.pattern.repr} both match '{offer.planId}'"⟩, ?_, rfl⟩
  unfold matchRule
  rw [List.foldlM_cons, hstart, ok_bind, List.foldlM_cons, hstop]
  rfl

end Scan

/-! ### The order of the rules -/

/-- The kinds of error that the arithmetic of a price raises. -/
theorem arithmetic_kind {α : Type} {x : Except Decimals.Signal α} {raised : Raised}
    (h : Fx.arithmetic x = .error raised) : raised.kind ≠ .ambiguousMarginRule := by
  cases x with
  | ok value => cases h
  | error signal =>
    cases signal <;> rw [← Except.error.inj h] <;> exact ErrorKind.noConfusion

theorem sellingMinor_kind {costMinor fixedMinor : ℤ} {margin : Option Decimals.Decimal}
    {raised : Raised} (h : sellingMinor costMinor margin fixedMinor = .error raised) :
    raised.kind ≠ .ambiguousMarginRule := by
  cases margin with
  | none =>
    rw [← Except.error.inj h]
    exact ErrorKind.noConfusion
  | some margin =>
    unfold sellingMinor at h
    dsimp only at h
    rcases hproduct : Fx.arithmetic (defaultContext.multiply (Fx.decimalOfInt costMinor) margin)
      with failed | product
    · rw [hproduct] at h
      exact Except.error.inj h ▸ arithmetic_kind hproduct
    · rw [hproduct, ok_bind] at h
      rcases hraw : Fx.arithmetic (defaultContext.add product (Fx.decimalOfInt fixedMinor))
        with failed | raw
      · rw [hraw] at h
        exact Except.error.inj h ▸ arithmetic_kind hraw
      · rw [hraw, ok_bind] at h
        rcases hselling : Fx.arithmetic (defaultContext.quantize raw 0 .halfUp)
          with failed | selling
        · rw [hselling] at h
          exact Except.error.inj h ▸ arithmetic_kind hselling
        · rw [hselling] at h
          cases h

/-- The rules of a version select and price an offer alike in every order, and never find two of
them equally specific. -/
structure OrderFree (version : PriceBookVersion) (offer : OfferCost) : Prop where
  rule : ∀ rules : List MarginRule, rules.Perm version.rules →
    matchRule rules offer = matchRule version.rules offer
  price : ∀ (rules : List MarginRule) (h : rules.Perm version.rules) (pricedAt : ℤ),
    deriveSellingPrice (version.reorder rules h) offer pricedAt =
      deriveSellingPrice version offer pricedAt
  unambiguous : ∀ raised, matchRule version.rules offer = .error raised →
    raised.kind ≠ .ambiguousMarginRule
  unambiguousPrice : ∀ (pricedAt : ℤ) raised,
    deriveSellingPrice version offer pricedAt = .error raised →
      raised.kind ≠ .ambiguousMarginRule

/-- Two members of a list, in front of the others. -/
theorem exists_perm_cons_cons {α : Type} [DecidableEq α] {xs : List α} {x y : α} (hx : x ∈ xs)
    (hy : y ∈ xs) (hne : x ≠ y) : ∃ rest, (x :: y :: rest).Perm xs := by
  have hleft : y ∈ xs.erase x := (List.mem_erase_of_ne hne.symm).mpr hy
  refine ⟨(xs.erase x).erase y, ?_⟩
  exact ((List.perm_cons_erase hleft).symm.cons x).trans (List.perm_cons_erase hx).symm

section Order

variable {version : PriceBookVersion} {offer : OfferCost}

/-- Two tied rules in front stop the scan, so a version whose order is free has none. -/
theorem noTie_of_orderFree (h : OrderFree version offer) : NoTie version.rules offer := by
  intro first hfirst second hsecond hmatches hmatches' hequal
  by_contra hne
  obtain ⟨rest, hperm⟩ := exists_perm_cons_cons hfirst hsecond hne
  obtain ⟨raised, hraised, hkind⟩ := matchRule_tied rest hmatches hmatches' hequal.symm
  rw [h.rule _ hperm] at hraised
  exact h.unambiguous raised hraised hkind

theorem orderFree_of_noTie (htie : NoTie version.rules offer) : OrderFree version offer := by
  have hrule : ∀ rules : List MarginRule, rules.Perm version.rules →
      matchRule rules offer = matchRule version.rules offer :=
    fun rules hperm ↦ matchRule_perm htie version.rules_nodup hperm
  have hkind : ∀ raised, matchRule version.rules offer = .error raised →
      raised.kind ≠ .ambiguousMarginRule := by
    intro raised hraised
    rw [matchRule_kind htie version.rules_nodup hraised]
    exact ErrorKind.noConfusion
  refine ⟨hrule, ?_, hkind, ?_⟩
  · intro rules hperm pricedAt
    unfold deriveSellingPrice
    change (matchRule rules offer >>= _) = _
    rw [hrule rules hperm]
    rfl
  · intro pricedAt raised hraised
    unfold deriveSellingPrice at hraised
    rcases hmatch : matchRule version.rules offer with failed | best
    · rw [hmatch] at hraised
      exact Except.error.inj hraised ▸ hkind failed hmatch
    · rw [hmatch, ok_bind] at hraised
      rcases hselling : sellingMinor offer.costMinor best.marginFactor best.fixedMinor
        with failed | selling
      · rw [hselling] at hraised
        exact Except.error.inj hraised ▸ sellingMinor_kind hselling
      · rw [hselling] at hraised
        cases hraised

end Order

/-- The order of a version's rules does not matter for an offer exactly when no two of the rules
that match it have equally many concrete fields. -/
theorem orderFree_iff (version : PriceBookVersion) (offer : OfferCost) :
    OrderFree version offer ↔ NoTie version.rules offer :=
  ⟨noTie_of_orderFree, orderFree_of_noTie⟩

/-! ### A provider's rule and a plan's rule -/

namespace OverlappingRules

/-- A rule with a margin of fifteen percent. -/
def rule (provider plan : String) (hprovider : IsPattern provider) (hplan : IsPattern plan) :
    MarginRule where
  provider := provider
  plan := plan
  location := wildcard
  marginFactor := some ⟨false, 115, -2⟩
  provider_pattern := hprovider
  plan_pattern := hplan
  location_pattern := by decide
  margin_pos := by decide
  fixed_nonneg := by decide
  cap_nonneg := by simp

def providerRule : MarginRule :=
  rule "leaseweb" "*" (by decide) (by decide)

def planRule : MarginRule :=
  rule "*" "m4" (by decide) (by decide)

/-- A version with a rule for the provider, one for the plan and one for both. -/
def version : PriceBookVersion where
  bookName := "default"
  version := 1
  effectiveAt := 0
  rules := [rule "leaseweb" "m4" (by decide) (by decide), providerRule, planRule]
  book_ne := by decide
  version_pos := by decide
  rules_ne := by simp
  accepted := by decide

def offer : OfferCost where
  costMinor := 1000
  currency := "EUR"
  providerKey := "leaseweb"
  planId := "m4"
  locationId := "AMS-01"
  provider_ne := by decide
  plan_ne := by decide
  location_ne := by decide
  currency_ne := by decide
  cost_nonneg := by decide

/-- The constructor takes the version, and the offer is ambiguous when its rules are reversed. -/
theorem not_orderFree :
    PriceBookVersion.construct "default" 1 0 version.rules = .ok version ∧
      ¬ OrderFree version offer := by
  refine ⟨PriceBookVersion.construct_reorder version version.rules (List.Perm.refl _), ?_⟩
  intro h
  have htie := noTie_of_orderFree h providerRule (by decide) planRule (by decide)
    (by decide) (by decide) (by decide)
  exact absurd htie (by decide)

end OverlappingRules

end CloudPlatform.Pricing
