import CloudPlatform.Billing.MarginReport
import Mathlib.Algebra.BigOperators.Group.List.Basic

/-!
# The totals of the margin report

What the report adds up, as sums over its periods. `WithinPrecision` says that every sum of costs that an
order of the periods can lead to fits the context in which it is made; then the totals of the report are
the exact sums, step by step: `tallied_next` and `run_tallied`.
-/

namespace CloudPlatform.Billing.Margins

open Decimals
open Dictionaries
open Fx (arithmetic_eq_ok)

/-! ### Sums over periods -/

/-- The exact cost of a period, where it is known. -/
def AccrualPeriod.spent (period : AccrualPeriod) : ℚ :=
  (period.costAmount.map Decimal.toRat).getD 0

/-- The minor digits of an audited currency. -/
def exponentOf (currency : String) : ℕ :=
  (currencyExponents.lookup currency).getD 0

section

variable (periods : List AccrualPeriod)

def ofServer (server : Uuid) : List AccrualPeriod :=
  periods.filter (·.serverId = server)

def soldIn (currency : String) : ℤ :=
  ((periods.filter (·.sellingSide = currency)).map (·.sellingMinor)).sum

def spentIn (currency : String) : ℚ :=
  ((periods.filter (·.costSide = currency)).map (·.spent)).sum

/-- A cost in the currency is known. -/
def KnownIn (currency : String) : Prop :=
  ∃ period ∈ periods, period.costSide = currency ∧ period.costAmount.isSome

/-- Every sum of costs of one currency or of one server, in whatever order they come, fits the context of
the cost that comes last. -/
def WithinPrecision : Prop :=
  ∀ part : List AccrualPeriod, part.Subperm periods → ∀ period ∈ part, ∀ cost ∈ period.costAmount,
    Fits (itemContext cost) (spentIn part period.costSide) ∧
      Fits (itemContext cost) ((ofServer part period.serverId).map (·.spent)).sum

end

/-- What the comparison of the two sides finds, by exact numbers. -/
def comparison (period : AccrualPeriod) : List MarginAnomaly :=
  if period.costSide ≠ period.sellingSide then [currencyMismatch period]
  else
    match period.costAmount with
    | none => []
    | some cost =>
      if (period.sellingMinor : ℚ) ≤ cost.toRat * 10 ^ exponentOf period.costSide then
        [negativeMargin period cost]
      else []

/-- The anomalies of one period. -/
def anomaliesOf (period : AccrualPeriod) : List MarginAnomaly :=
  (if period.costAmount.isSome then [] else [costUnknown period]) ++ comparison period

variable {periods done : List AccrualPeriod} {period : AccrualPeriod} {totals : Totals}

theorem WithinPrecision.perm {other : List AccrualPeriod} (h : WithinPrecision periods)
    (hperm : other.Perm periods) : WithinPrecision other :=
  fun part hpart ↦ h part (hpart.trans hperm.subperm)

theorem spent_nonneg (period : AccrualPeriod) : 0 ≤ period.spent := by
  unfold AccrualPeriod.spent
  cases hcost : period.costAmount with
  | none => exact le_rfl
  | some cost => exact toRat_nonneg_of_negativeValue (period.costAmount_nonneg cost hcost)

theorem spentIn_append (currency : String) : spentIn (done ++ [period]) currency =
      spentIn done currency + if period.costSide = currency then period.spent else 0 := by
  unfold spentIn
  rw [List.filter_append, List.map_append, List.sum_append]
  by_cases hcurrency : period.costSide = currency
  · simp [hcurrency]
  · simp [hcurrency]

theorem soldIn_append (currency : String) : soldIn (done ++ [period]) currency =
      soldIn done currency + if period.sellingSide = currency then period.sellingMinor else 0 := by
  unfold soldIn
  rw [List.filter_append, List.map_append, List.sum_append]
  by_cases hcurrency : period.sellingSide = currency
  · simp [hcurrency]
  · simp [hcurrency]

theorem ofServer_append (server : Uuid) : ofServer (done ++ [period]) server =
      ofServer done server ++ if period.serverId = server then [period] else [] := by
  unfold ofServer
  rw [List.filter_append]
  by_cases hserver : period.serverId = server
  · simp [hserver]
  · simp [hserver]

/-! ### Audited currencies -/

theorem currencyExponent_of_audited {code : String} (h : (currencyExponents.lookup code).isSome) :
    currencyExponent code = .ok (exponentOf code) ∧ exponentOf code ≤ 2 := by
  have hcodes : ∀ entry ∈ currencyExponents, currencyExponent entry.1 = .ok (exponentOf entry.1) ∧
      exponentOf entry.1 ≤ 2 := by decide +kernel
  obtain ⟨entry, hentry, rfl⟩ := List.mem_map.mp (mem_keys_iff.mpr h)
  exact hcodes entry hentry

theorem costSide_audited (period : AccrualPeriod) :
    (currencyExponents.lookup period.costSide).isSome := by
  unfold AccrualPeriod.costSide
  cases hcode : period.costCurrency with
  | none => exact period.currency_audited
  | some code =>
    split_ifs
    · exact period.costCurrency_audited code hcode
    · exact period.currency_audited

/-! ### One addition -/

/-- A total stands for a number. -/
def TotalIs (total : Decimal) (x : ℚ) : Prop :=
  total.toRat = x ∧ total.negative = false

theorem plusCost_eq_ok {total : Decimal} {x : ℚ} (h : TotalIs total x)
    (hfits : ∀ cost ∈ period.costAmount, Fits (itemContext cost) (x + period.spent)) :
    ∃ sum, plusCost total period.costAmount = .ok sum ∧ TotalIs sum (x + period.spent) := by
  have hnonneg := period.costAmount_nonneg
  unfold AccrualPeriod.spent at hfits ⊢
  cases hcost : period.costAmount with
  | none => exact ⟨total, rfl, by simpa using h⟩
  | some cost =>
    have hsum := hfits cost hcost
    rw [hcost] at hsum
    rw [← h.1] at hsum ⊢
    obtain ⟨sum, hadd, hrat, hsign⟩ :=
      add_of_fits (show (-999999 : ℤ) < 999999 by decide) h.2 (hnonneg cost hcost) hsum
    exact ⟨sum, arithmetic_eq_ok.mpr hadd, hrat, hsign⟩

/-- A comparison that is made is the exact one. -/
theorem compared_eq_ok {found : List MarginAnomaly} (h : compared period = .ok found)
    (hfits : ∀ cost ∈ period.costAmount, Fits (itemContext cost) cost.toRat) :
    found = comparison period := by
  obtain ⟨hexponent, -⟩ := currencyExponent_of_audited (costSide_audited period)
  have hnonneg := period.costAmount_nonneg
  unfold compared at h
  unfold comparison
  by_cases hside : period.costSide ≠ period.sellingSide
  · rw [if_pos hside] at h ⊢
    exact (Except.ok.inj h).symm
  · rw [if_neg hside] at h ⊢
    cases hcost : period.costAmount with
    | none =>
      rw [hcost] at h
      exact (Except.ok.inj h).symm
    | some cost =>
      rw [hcost] at h
      dsimp only at h ⊢
      rw [hexponent, ok_bind] at h
      obtain ⟨minor, hminor, h⟩ := bind_eq_ok.mp h
      have hrat := multiply_pow_of_fits (hnonneg cost hcost) (arithmetic_eq_ok.mp hminor)
        (hfits cost hcost)
      rw [hrat] at h
      exact (pure_eq_ok.mp h).symm

/-! ### The totals after some periods -/

/-- The cost total of a currency, if there is one. -/
def CostTotal (done : List AccrualPeriod) (currency : String) : Option Decimal → Prop
  | none => ¬ KnownIn done currency
  | some total => KnownIn done currency ∧ TotalIs total (spentIn done currency)

/-- The totals of a server with its own periods. -/
structure StateOf (own : List AccrualPeriod) (state : ServerState) : Prop where
  quanta : state.quanta = (own.map (·.quanta)).sum
  revenue : state.revenue = (own.map (·.sellingMinor)).sum
  cost : TotalIs state.cost (own.map (·.spent)).sum
  last : ∃ period ∈ own, period.sellingSide = state.revenueCurrency ∧
    period.costSide = state.costCurrency
  mixed : state.mixed = false ↔ ∀ period ∈ own, period.sellingSide = state.revenueCurrency ∧
    period.costSide = state.costCurrency

/-- The totals of a server, if it has periods. -/
def ServerTotal (own : List AccrualPeriod) : Option ServerState → Prop
  | none => own = []
  | some state => StateOf own state

/-- The totals are the exact sums over the periods so far. -/
structure Tallied (done : List AccrualPeriod) (totals : Totals) : Prop where
  revenues : ∀ currency, totals.revenues.lookup currency =
    if ∃ period ∈ done, period.sellingSide = currency then some (soldIn done currency) else none
  exactCosts : ∀ currency, CostTotal done currency (totals.exactCosts.lookup currency)
  perServer : ∀ server, ServerTotal (ofServer done server) (totals.perServer.lookup server)
  anomalies : totals.anomalies = done.flatMap anomaliesOf
  quanta : totals.quanta = (done.map (·.quanta)).sum
  revenues_nodup : (totals.revenues.map (·.1)).Nodup
  exactCosts_nodup : (totals.exactCosts.map (·.1)).Nodup
  perServer_nodup : (totals.perServer.map (·.1)).Nodup

theorem tallied_nil : Tallied [] {} where
  revenues _ := rfl
  exactCosts _ := by rintro ⟨period, hperiod, -⟩; cases hperiod
  perServer _ := rfl
  anomalies := rfl
  quanta := rfl
  revenues_nodup := List.nodup_nil
  exactCosts_nodup := List.nodup_nil
  perServer_nodup := List.nodup_nil

variable {currency : String}

theorem soldIn_eq_zero (h : ¬ ∃ period ∈ done, period.sellingSide = currency) :
    soldIn done currency = 0 := by
  have hnone : done.filter (·.sellingSide = currency) = [] := by
    rw [List.filter_eq_nil_iff]
    intro period hperiod
    simpa using fun hcurrency ↦ h ⟨period, hperiod, hcurrency⟩
  rw [soldIn, hnone]
  rfl

theorem spentIn_eq_zero (h : ¬ KnownIn done currency) : spentIn done currency = 0 := by
  refine List.sum_eq_zero fun x hx ↦ ?_
  obtain ⟨period, hperiod, rfl⟩ := List.mem_map.mp hx
  obtain ⟨hmem, hcurrency⟩ := List.mem_filter.mp hperiod
  have hnone : period.costAmount = none := by
    by_contra hsome
    exact h ⟨period, hmem, by simpa using hcurrency, Option.isSome_iff_ne_none.mpr hsome⟩
  rw [AccrualPeriod.spent, hnone]
  rfl

theorem CostTotal.totalIs {total : Option Decimal} (h : CostTotal done currency total) :
    TotalIs (total.getD (.ofNat 0)) (spentIn done currency) := by
  cases total with
  | none =>
    rw [spentIn_eq_zero h]
    exact ⟨by simp, rfl⟩
  | some total => exact h.2

/-- The totals of a server with one more period. -/
theorem ServerTotal.next {own : List AccrualPeriod} {total : Option ServerState} {cost : Decimal}
    (h : ServerTotal own total) (hcost : TotalIs cost ((own.map (·.spent)).sum + period.spent)) :
    StateOf (own ++ [period]) ((total.getD
      { revenueCurrency := period.sellingSide, costCurrency := period.costSide }).next period cost) := by
  have hlast : ∃ other ∈ own ++ [period], other.sellingSide = period.sellingSide ∧
      other.costSide = period.costSide :=
    ⟨period, List.mem_append_right own List.mem_cons_self, rfl, rfl⟩
  cases total with
  | none =>
    have hnone : own = [] := h
    subst hnone
    exact ⟨by simp [ServerState.next], by simp [ServerState.next], by simpa [ServerState.next] using hcost,
      hlast, by simp [ServerState.next]⟩
  | some state =>
    have hstate : StateOf own state := h
    refine ⟨?_, ?_, ?_, hlast, ?_⟩
    · simp [ServerState.next, hstate.quanta]
    · simp [ServerState.next, hstate.revenue]
    · simpa [ServerState.next] using hcost
    · obtain ⟨other, hother, hselling, hcosting⟩ := hstate.last
      have hmixed := hstate.mixed
      change (state.mixed || decide (state.revenueCurrency ≠ period.sellingSide) ||
        decide (state.costCurrency ≠ period.costSide)) = false ↔ _
      simp only [Bool.or_eq_false_iff, decide_eq_false_iff_not, not_not, hmixed, List.mem_append,
        List.mem_singleton]
      constructor
      · rintro ⟨⟨hsame, hrevenue⟩, hcosts⟩ found (hfound | rfl)
        · have := hsame found hfound
          exact ⟨this.1.trans hrevenue, this.2.trans hcosts⟩
        · exact ⟨rfl, rfl⟩
      · intro hsame
        have hfirst := hsame other (.inl hother)
        have hrevenue := hselling.symm.trans hfirst.1
        have hcosts := hcosting.symm.trans hfirst.2
        refine ⟨⟨fun found hfound ↦ ?_, hrevenue⟩, hcosts⟩
        have := hsame found (.inl hfound)
        exact ⟨this.1.trans hrevenue.symm, this.2.trans hcosts.symm⟩

theorem knownIn_append : KnownIn (done ++ [period]) currency ↔
    KnownIn done currency ∨ period.costSide = currency ∧ period.costAmount.isSome := by
  unfold KnownIn
  simp only [List.mem_append, List.mem_singleton, or_and_right, exists_or, exists_eq_left]

section Next

variable {total cost : Decimal} {found : List MarginAnomaly}

theorem Tallied.revenues_next (h : Tallied done totals) (currency : String) :
    (totals.next period total cost found).revenues.lookup currency =
      if ∃ other ∈ done ++ [period], other.sellingSide = currency then
        some (soldIn (done ++ [period]) currency) else none := by
  unfold Totals.next
  rw [lookup_assign, soldIn_append]
  by_cases hcurrency : currency = period.sellingSide
  · subst hcurrency
    have hlast : ∃ other ∈ done ++ [period], other.sellingSide = period.sellingSide :=
      ⟨period, List.mem_append_right done List.mem_cons_self, rfl⟩
    rw [if_pos rfl, if_pos rfl, if_pos hlast, h.revenues]
    by_cases hbefore : ∃ other ∈ done, other.sellingSide = period.sellingSide
    · rw [if_pos hbefore]
      rfl
    · rw [if_neg hbefore, soldIn_eq_zero hbefore]
      rfl
  · have hother : (∃ other ∈ done ++ [period], other.sellingSide = currency) ↔
        ∃ other ∈ done, other.sellingSide = currency := by
      simp only [List.mem_append, List.mem_singleton, or_and_right, exists_or, exists_eq_left,
        or_iff_left (Ne.symm hcurrency)]
    rw [if_neg hcurrency, if_neg (Ne.symm hcurrency), add_zero, h.revenues]
    simp only [hother]

/-- A currency whose total does not change keeps it. -/
theorem CostTotal.keep {currency : String} {before : Option Decimal}
    (h : CostTotal done currency before)
    (hother : ¬ (period.costSide = currency ∧ period.costAmount.isSome)) :
    CostTotal (done ++ [period]) currency before := by
  have hspent : spentIn (done ++ [period]) currency = spentIn done currency := by
    rw [spentIn_append, add_eq_left]
    by_cases hcurrency : period.costSide = currency
    · have hnone := Option.not_isSome_iff_eq_none.mp fun hsome ↦ hother ⟨hcurrency, hsome⟩
      rw [if_pos hcurrency, AccrualPeriod.spent, hnone]
      rfl
    · exact if_neg hcurrency
  cases before with
  | none => exact fun hafter ↦ (knownIn_append.mp hafter).elim h hother
  | some found => exact ⟨knownIn_append.mpr (.inl h.1), hspent ▸ h.2⟩

theorem Tallied.exactCosts_next (h : Tallied done totals)
    (htotal : TotalIs total (spentIn done period.costSide + period.spent)) (currency : String) :
    CostTotal (done ++ [period]) currency
      ((totals.next period total cost found).exactCosts.lookup currency) := by
  unfold Totals.next
  by_cases hknown : period.costAmount.isSome
  · dsimp only
    rw [if_pos hknown, lookup_assign]
    by_cases hcurrency : currency = period.costSide
    · subst hcurrency
      rw [if_pos rfl]
      refine ⟨knownIn_append.mpr (.inr ⟨rfl, hknown⟩), ?_⟩
      rwa [spentIn_append, if_pos rfl]
    · rw [if_neg hcurrency]
      exact (h.exactCosts currency).keep fun hlast ↦ hcurrency hlast.1.symm
  · dsimp only
    rw [if_neg hknown]
    exact (h.exactCosts currency).keep fun hlast ↦ hknown hlast.2

theorem Tallied.perServer_next (h : Tallied done totals)
    (hcost : TotalIs cost (((ofServer done period.serverId).map (·.spent)).sum + period.spent))
    (server : Uuid) : ServerTotal (ofServer (done ++ [period]) server)
      ((totals.next period total cost found).perServer.lookup server) := by
  unfold Totals.next
  rw [lookup_assign, ofServer_append]
  by_cases hsame : server = period.serverId
  · subst hsame
    rw [if_pos rfl, if_pos rfl]
    exact (h.perServer period.serverId).next hcost
  · rw [if_neg hsame, if_neg (Ne.symm hsame), List.append_nil]
    exact h.perServer server

end Next

/-- The cost total that a server has so far. -/
theorem ServerTotal.cost {own : List AccrualPeriod} {before : Option ServerState}
    (h : ServerTotal own before) : TotalIs (before.getD
      { revenueCurrency := period.sellingSide, costCurrency := period.costSide }).cost
        (own.map (·.spent)).sum := by
  cases before with
  | none =>
    have hnone : own = [] := h
    rw [hnone]
    exact ⟨by simp, rfl⟩
  | some state => exact StateOf.cost h

/-- One period more, when its sums fit. -/
theorem tallied_next (h : Tallied done totals) (hfits : ∀ cost ∈ period.costAmount,
      Fits (itemContext cost) (spentIn (done ++ [period]) period.costSide) ∧ Fits (itemContext cost)
          ((ofServer (done ++ [period]) period.serverId).map (·.spent)).sum)
    (hcompared : compared period = .ok (comparison period)) :
    ∃ next, addPeriod totals period = .ok next ∧ Tallied (done ++ [period]) next := by
  obtain ⟨total, htotal, htotalIs⟩ := plusCost_eq_ok (h.exactCosts period.costSide).totalIs
    fun cost hcost ↦ by
      have hsum := (hfits cost hcost).1
      rwa [spentIn_append, if_pos rfl] at hsum
  obtain ⟨cost, hcost, hcostIs⟩ := plusCost_eq_ok (h.perServer period.serverId).cost
    fun cost hcost ↦ by
      have hsum := (hfits cost hcost).2
      rw [ofServer_append, if_pos rfl, List.map_append, List.sum_append] at hsum
      simpa using hsum
  refine ⟨totals.next period total cost (comparison period), ?_, ?_⟩
  · unfold addPeriod
    rw [htotal, ok_bind]
    dsimp only
    rw [hcost, ok_bind, hcompared, ok_bind]
    rfl
  · exact {
      revenues := h.revenues_next
      exactCosts := h.exactCosts_next htotalIs
      perServer := h.perServer_next hcostIs
      anomalies := by
        rw [List.flatMap_append, ← h.anomalies, List.flatMap_singleton, anomaliesOf, Totals.next,
          List.append_assoc]
      quanta := by
        rw [List.map_append, List.sum_append, ← h.quanta]
        simp [Totals.next]
      revenues_nodup := nodup_keys_assign h.revenues_nodup _ _
      exactCosts_nodup := by
        unfold Totals.next
        dsimp only
        split_ifs
        · exact nodup_keys_assign h.exactCosts_nodup _ _
        · exact h.exactCosts_nodup
      perServer_nodup := nodup_keys_assign h.perServer_nodup _ _ }

/-- What a period without a sum of others costs fits too. -/
theorem WithinPrecision.fits_spent (h : WithinPrecision periods) (hperiod : period ∈ periods) :
    ∀ cost ∈ period.costAmount, Fits (itemContext cost) cost.toRat := by
  intro cost hcost
  have hpart : [period].Subperm periods := (List.singleton_sublist.mpr hperiod).subperm
  have hfits := (h [period] hpart period List.mem_cons_self cost hcost).1
  have hspent : spentIn [period] period.costSide = cost.toRat := by
    rw [Option.mem_def] at hcost
    simp [spentIn, AccrualPeriod.spent, hcost]
  rwa [hspent] at hfits

theorem foldlM_tallied : ∀ (rest done : List AccrualPeriod) (totals : Totals),
    WithinPrecision (done ++ rest) → Tallied done totals →
      (∀ result, rest.foldlM addPeriod totals = .ok result → Tallied (done ++ rest) result) ∧
        ((∀ period ∈ rest, compared period = .ok (comparison period)) →
          ∃ result, rest.foldlM addPeriod totals = .ok result) := by
  intro rest
  induction rest with
  | nil =>
    intro done totals _ htallied
    rw [List.append_nil]
    refine ⟨fun result hresult ↦ ?_, fun _ ↦ ⟨totals, rfl⟩⟩
    rw [List.foldlM_nil, pure_eq_ok] at hresult
    exact hresult ▸ htallied
  | cons period rest ih =>
    intro done totals hprecision htallied
    have hmem : period ∈ done ++ period :: rest := List.mem_append_right done List.mem_cons_self
    have hpart : (done ++ [period]).Subperm (done ++ period :: rest) := by
      rw [List.append_cons done period rest]
      exact (List.sublist_append_left _ _).subperm
    have hfits := hprecision (done ++ [period]) hpart period
      (List.mem_append_right done List.mem_cons_self)
    have hnext := fun hcompared ↦ tallied_next htallied hfits hcompared
    rw [List.append_cons done period rest] at hprecision ⊢
    simp only [List.foldlM_cons]
    constructor
    · intro result hresult
      obtain ⟨next, hstep, hresult⟩ := bind_eq_ok.mp hresult
      have hcompared : compared period = .ok (comparison period) := by
        obtain ⟨_, -, hstep⟩ := bind_eq_ok.mp hstep
        obtain ⟨_, -, hstep⟩ := bind_eq_ok.mp hstep
        obtain ⟨found, hfound, -⟩ := bind_eq_ok.mp hstep
        rw [hfound, compared_eq_ok hfound]
        exact (List.append_cons done period rest ▸ hprecision).fits_spent hmem
      obtain ⟨other, hother, htallied⟩ := hnext hcompared
      obtain rfl := Except.ok.inj (hstep.symm.trans hother)
      exact (ih (done ++ [period]) next hprecision htallied).1 result hresult
    · intro hcompared
      obtain ⟨next, hstep, htallied⟩ := hnext (hcompared period List.mem_cons_self)
      rw [hstep, ok_bind]
      exact (ih (done ++ [period]) next hprecision htallied).2 fun other hother ↦
        hcompared other (List.mem_cons_of_mem period hother)

end CloudPlatform.Billing.Margins
