import CloudPlatform.Billing.MarginSums

/-!
# What the margin report should say

The order of the periods shows in two places: the currency of a server that sells in several, and the
order of anomalies with one text and one start. `margin_report_iff` says for which periods the report is
exact and the same in every order, where no sum of costs is rounded; costs with few decimals are not
(`withinPrecision_of_whole`).
-/

namespace CloudPlatform.Billing.Margins

open Decimals

variable {periods : List AccrualPeriod}

/-! ### What a report should be -/

/-- The text of the anomaly begins so. -/
def MarginAnomaly.marked (anomaly : MarginAnomaly) (mark : String) : Bool :=
  mark.toList.isPrefixOf anomaly.reason.toList

/-- The anomaly of a period that does not bring in more than it costs. -/
def losses (period : AccrualPeriod) : List MarginAnomaly :=
  match period.costAmount with
  | none => []
  | some cost =>
    if period.costSide = period.sellingSide ∧
        (period.sellingMinor : ℚ) ≤ cost.toRat * 10 ^ exponentOf period.costSide then
      [negativeMargin period cost]
    else []

/-- The report has the exact sums of its periods, no server has amounts of different currencies in one,
and the anomalies of losses and of mixed currencies are there exactly when they should be. -/
structure ExactReport (periods : List AccrualPeriod) (found : MarginReport) : Prop where
  revenues : ∀ currency, found.revenues.lookup currency =
    if ∃ period ∈ periods, period.sellingSide = currency then some (soldIn periods currency) else none
  costs : ∀ currency, found.costs.lookup currency =
    if KnownIn periods currency then some (roundedUp currency (spentIn periods currency)) else none
  alone : ∀ server selling costing, ofServer periods server ≠ [] →
    (∀ period ∈ ofServer periods server, period.sellingSide = selling ∧ period.costSide = costing) →
      found.perServer.lookup server = some {
        serverId := server
        quanta := ((ofServer periods server).map (·.quanta)).sum
        revenueMinor := ((ofServer periods server).map (·.sellingMinor)).sum
        costMinor := roundedUp costing ((ofServer periods server).map (·.spent)).sum
        revenueCurrency := selling
        costCurrency := costing }
  apart : ∀ server margin, found.perServer.lookup server = some margin →
    margin.revenueMinor = soldIn (ofServer periods server) margin.revenueCurrency ∧
      (margin.costCurrency = "MIXED" ∨ margin.costMinor =
        roundedUp margin.costCurrency (spentIn (ofServer periods server) margin.costCurrency))
  negative : (found.anomalies.filter (·.marked "NEGATIVE_MARGIN")).Perm (periods.flatMap losses)
  mixed : (∃ anomaly ∈ found.anomalies, anomaly.marked "MIXED_CURRENCY") ↔
    ¬ OneCurrency (sides periods)

/-- No total is out of range, no two anomalies look the same to the order of the report, every server
sells in one currency, and the costs that are not known change nothing about the currencies of the
window: some cost is known in a window of one currency, and they bring in no currency of their own. -/
structure Plain (periods : List AccrualPeriod) : Prop where
  in_range : InRange periods
  ties : ∀ first ∈ periods, ∀ second ∈ periods, ∀ x ∈ anomaliesOf first, ∀ y ∈ anomaliesOf second,
    x.periodStart = y.periodStart → x.reason = y.reason → x = y
  servers : ∀ first ∈ periods, ∀ second ∈ periods, first.serverId = second.serverId →
    first.sellingSide = second.sellingSide
  known : OneCurrency (sides periods) → periods = [] ∨ ∃ period ∈ periods, period.costAmount.isSome
  unknown : Unmixed periods → OneCurrency (sides periods)

/-! ### The texts of the anomalies -/

variable (period : AccrualPeriod)

theorem costUnknown_marked : (costUnknown period).marked "NEGATIVE_MARGIN" = false ∧
      (costUnknown period).marked "MIXED_CURRENCY" = false := by
  constructor <;> simp [MarginAnomaly.marked, costUnknown, anomalyOf, List.isPrefixOf]

theorem currencyMismatch_marked : (currencyMismatch period).marked "NEGATIVE_MARGIN" = false ∧
      (currencyMismatch period).marked "MIXED_CURRENCY" = false := by
  constructor <;> simp [MarginAnomaly.marked, currencyMismatch, anomalyOf, List.isPrefixOf]

theorem negativeMargin_marked (cost : Decimal) :
    (negativeMargin period cost).marked "NEGATIVE_MARGIN" = true ∧
      (negativeMargin period cost).marked "MIXED_CURRENCY" = false := by
  constructor <;> simp [MarginAnomaly.marked, negativeMargin, anomalyOf, List.isPrefixOf]

theorem mixedCurrency_marked (start : ℤ) (currencies : String) :
    (mixedCurrency start currencies).marked "NEGATIVE_MARGIN" = false ∧
      (mixedCurrency start currencies).marked "MIXED_CURRENCY" = true := by
  constructor <;> simp [MarginAnomaly.marked, mixedCurrency, List.isPrefixOf]

theorem filter_anomaliesOf :
    (anomaliesOf period).filter (·.marked "NEGATIVE_MARGIN") = losses period ∧
      ∀ anomaly ∈ anomaliesOf period, anomaly.marked "MIXED_CURRENCY" = false := by
  obtain ⟨hunknown, hunknownMixed⟩ := costUnknown_marked period
  obtain ⟨hmismatch, hmismatchMixed⟩ := currencyMismatch_marked period
  unfold anomaliesOf comparison losses
  cases period.costAmount with
  | none =>
    by_cases hside : period.costSide = period.sellingSide
    · simp [hside, hunknown, hunknownMixed]
    · simp [hside, hunknown, hunknownMixed, hmismatch, hmismatchMixed]
  | some cost =>
    obtain ⟨hnegative, hnegativeMixed⟩ := negativeMargin_marked period cost
    by_cases hside : period.costSide = period.sellingSide
    · by_cases hloss : (period.sellingMinor : ℚ) ≤ cost.toRat * 10 ^ exponentOf period.costSide
      · simp only [hside] at hloss
        simp [hside, hloss, hnegative, hnegativeMixed]
      · simp only [hside] at hloss
        simp [hside, hloss]
    · simp [hside, hmismatch, hmismatchMixed]

/-! ### The order of the anomalies -/

instance : Std.Total reportOrder where
  total first second := by
    unfold reportOrder
    rcases lt_trichotomy first.periodStart second.periodStart with hlt | heq | hgt
    · exact .inl (.inl hlt)
    · rcases le_total first.reason second.reason with hle | hle
      · exact .inl (.inr ⟨heq, hle⟩)
      · exact .inr (.inr ⟨heq.symm, hle⟩)
    · exact .inr (.inl hgt)

instance : IsTrans MarginAnomaly reportOrder where
  trans first second third := by
    unfold reportOrder
    rintro (hfirst | ⟨hfirst, hreason⟩) (hsecond | ⟨hsecond, hother⟩)
    · exact .inl (hfirst.trans hsecond)
    · exact .inl (hsecond ▸ hfirst)
    · exact .inl (hfirst ▸ hsecond)
    · exact .inr ⟨hfirst.trans hsecond, hreason.trans hother⟩

theorem eq_of_reportOrder {first second : MarginAnomaly} (h : reportOrder first second)
    (hback : reportOrder second first) :
    first.periodStart = second.periodStart ∧ first.reason = second.reason := by
  rcases h with hlt | ⟨heq, hle⟩
  · rcases hback with hgt | ⟨heq, -⟩
    · exact absurd hlt hgt.asymm
    · exact absurd heq hlt.ne'
  · rcases hback with hgt | ⟨-, hge⟩
    · exact absurd heq hgt.ne'
    · exact ⟨heq, le_antisymm hle hge⟩

theorem mem_anomaliesOf {period : AccrualPeriod} {anomaly : MarginAnomaly}
    (h : anomaly ∈ anomaliesOf period) : anomaly = anomalyOf period anomaly.reason := by
  have hcomparison : ∀ other ∈ comparison period, other = anomalyOf period other.reason := by
    intro other hother
    unfold comparison at hother
    by_cases hside : period.costSide ≠ period.sellingSide
    · rw [if_pos hside] at hother
      rw [List.mem_singleton.mp hother]
      rfl
    · rw [if_neg hside] at hother
      cases hcost : period.costAmount with
      | none =>
        rw [hcost] at hother
        cases hother
      | some cost =>
        rw [hcost] at hother
        dsimp only at hother
        split_ifs at hother with hloss
        · rw [List.mem_singleton.mp hother]
          rfl
        · cases hother
  unfold anomaliesOf at h
  rcases List.mem_append.mp h with hunknown | hcompared
  · split_ifs at hunknown
    · cases hunknown
    · rw [List.mem_singleton.mp hunknown]
      rfl
  · exact hcomparison anomaly hcompared

theorem marked_congr {first second : MarginAnomaly} (h : first.reason = second.reason)
    (mark : String) : first.marked mark = second.marked mark := by
  rw [MarginAnomaly.marked, MarginAnomaly.marked, h]

theorem mem_windowAnomalies {start : ℤ} {anomaly : MarginAnomaly}
    (h : anomaly ∈ windowAnomalies periods start) :
    anomaly = mixedCurrency start (listed (amountSides periods)) := by
  unfold windowAnomalies at h
  split_ifs at h
  · cases h
  · exact List.mem_singleton.mp h

/-- The order of the report tells its anomalies apart. -/
theorem Plain.distinct (h : Plain periods) {start : ℤ} :
    ∀ x ∈ periods.flatMap anomaliesOf ++ windowAnomalies periods start,
      ∀ y ∈ periods.flatMap anomaliesOf ++ windowAnomalies periods start,
        reportOrder x y → reportOrder y x → x = y := by
  have hmixed : ∀ z ∈ windowAnomalies periods start, z.marked "MIXED_CURRENCY" = true := by
    intro z hz
    rw [mem_windowAnomalies hz]
    exact (mixedCurrency_marked _ _).2
  have hother : ∀ z ∈ periods.flatMap anomaliesOf, z.marked "MIXED_CURRENCY" = false := by
    intro z hz
    obtain ⟨period, -, hmem⟩ := List.mem_flatMap.mp hz
    exact (filter_anomaliesOf period).2 z hmem
  intro x hx y hy hxy hyx
  obtain ⟨hstart, hreason⟩ := eq_of_reportOrder hxy hyx
  have hmark := marked_congr hreason "MIXED_CURRENCY"
  rcases List.mem_append.mp hx with hx | hx <;> rcases List.mem_append.mp hy with hy | hy
  · obtain ⟨first, hfirst, hx⟩ := List.mem_flatMap.mp hx
    obtain ⟨second, hsecond, hy⟩ := List.mem_flatMap.mp hy
    exact h.ties first hfirst second hsecond x hx y hy hstart hreason
  · rw [hother x hx, hmixed y hy] at hmark
    cases hmark
  · rw [hmixed x hx, hother y hy] at hmark
    cases hmark
  · rw [mem_windowAnomalies hx, mem_windowAnomalies hy]

/-! ### The report of plain periods -/

variable {currency : String}

theorem amountSides_subset (h : currency ∈ amountSides periods) : currency ∈ sides periods := by
  rcases mem_amountSides.mp h with ⟨period, hperiod, rfl⟩ | ⟨period, hperiod, rfl, -⟩
  · exact List.mem_flatMap.mpr ⟨period, hperiod, List.mem_cons_self⟩
  · exact List.mem_flatMap.mpr ⟨period, hperiod, List.mem_cons_of_mem _ List.mem_cons_self⟩

theorem Plain.unmixed_iff (h : Plain periods) : Unmixed periods ↔ OneCurrency (sides periods) :=
  ⟨h.unknown, fun hone ↦ ⟨fun first hfirst second hsecond ↦
    hone first (amountSides_subset hfirst) second (amountSides_subset hsecond), h.known hone⟩⟩

theorem soldIn_of_forall (h : ∀ period ∈ periods, period.sellingSide = currency) :
    soldIn periods currency = (periods.map (·.sellingMinor)).sum := by
  rw [soldIn, List.filter_eq_self.mpr fun period hperiod ↦ decide_eq_true (h period hperiod)]

theorem spentIn_of_forall (h : ∀ period ∈ periods, period.costSide = currency) :
    spentIn periods currency = (periods.map (·.spent)).sum := by
  rw [spentIn, List.filter_eq_self.mpr fun period hperiod ↦ decide_eq_true (h period hperiod)]

theorem mem_ofServer {server : Uuid} {period : AccrualPeriod} :
    period ∈ ofServer periods server ↔ period ∈ periods ∧ period.serverId = server := by
  simp [ofServer]

/-- A server of plain periods sells in the currency that is reported. -/
theorem Plain.sellingSide (h : Plain periods) {server : Uuid} {state : ServerState}
    (hstate : StateOf (ofServer periods server) state) :
    ∀ period ∈ ofServer periods server, period.sellingSide = state.revenueCurrency := by
  intro period hperiod
  obtain ⟨last, hlast, hselling, -⟩ := hstate.last
  obtain ⟨hmem, hserver⟩ := mem_ofServer.mp hperiod
  obtain ⟨hmemLast, hserverLast⟩ := mem_ofServer.mp hlast
  exact (h.servers period hmem last hmemLast (hserver.trans hserverLast.symm)).trans hselling

section Reports

variable {start finish : ℤ} {found : MarginReport}

theorem Reported.negative (h : Reported start finish periods found) :
    (found.anomalies.filter (·.marked "NEGATIVE_MARGIN")).Perm (periods.flatMap losses) := by
  have hperiods : (periods.flatMap anomaliesOf).filter (·.marked "NEGATIVE_MARGIN") =
      periods.flatMap losses := by
    rw [List.filter_flatMap]
    exact congrArg (List.flatMap · periods) (funext fun period ↦ (filter_anomaliesOf period).1)
  have hwindow : (windowAnomalies periods start).filter (·.marked "NEGATIVE_MARGIN") = [] := by
    rw [List.filter_eq_nil_iff]
    intro anomaly hanomaly
    rw [mem_windowAnomalies hanomaly, (mixedCurrency_marked _ _).1]
    exact Bool.false_ne_true
  rw [h.anomalies]
  refine ((List.perm_insertionSort reportOrder _).filter _).trans ?_
  rw [List.filter_append, hperiods, hwindow, List.append_nil]

theorem Reported.mixed (h : Reported start finish periods found) :
    (∃ anomaly ∈ found.anomalies, anomaly.marked "MIXED_CURRENCY") ↔ ¬ Unmixed periods := by
  rw [h.anomalies]
  simp only [(List.perm_insertionSort reportOrder _).mem_iff, List.mem_append]
  constructor
  · rintro ⟨anomaly, hanomaly | hanomaly, hmarked⟩
    · obtain ⟨period, -, hmem⟩ := List.mem_flatMap.mp hanomaly
      rw [(filter_anomaliesOf period).2 anomaly hmem] at hmarked
      cases hmarked
    · intro hunmixed
      rw [windowAnomalies, if_pos hunmixed] at hanomaly
      cases hanomaly
  · intro hmixed
    refine ⟨mixedCurrency start (listed (amountSides periods)), .inr ?_,
      (mixedCurrency_marked _ _).2⟩
    rw [windowAnomalies, if_neg hmixed]
    exact List.mem_cons_self

/-- The report of plain periods is as it should be. -/
theorem Reported.exact (h : Reported start finish periods found) (hplain : Plain periods) :
    ExactReport periods found where
  revenues := h.revenues
  costs := h.costs
  negative := h.negative
  mixed := by rw [h.mixed, hplain.unmixed_iff]
  alone := by
    intro server selling costing hown hsame
    have hmargin := h.perServer server
    cases hlookup : found.perServer.lookup server with
    | none =>
      rw [hlookup] at hmargin
      exact absurd hmargin hown
    | some margin =>
      rw [hlookup] at hmargin
      obtain ⟨state, hstate, rfl⟩ := hmargin
      obtain ⟨last, hlast, hselling, hcosting⟩ := hstate.last
      have hrevenue := hselling.symm.trans (hsame last hlast).1
      have hcost := hcosting.symm.trans (hsame last hlast).2
      have hmixed : state.mixed = false := hstate.mixed.mpr (by rw [hrevenue, hcost]; exact hsame)
      rw [shownMargin, hmixed, hstate.quanta, hstate.revenue, hrevenue, hcost]
      rfl
  apart := by
    intro server margin hlookup
    have hmargin := h.perServer server
    rw [hlookup] at hmargin
    obtain ⟨state, hstate, rfl⟩ := hmargin
    refine ⟨hstate.revenue.trans (soldIn_of_forall (hplain.sellingSide hstate)).symm, ?_⟩
    cases hmixed : state.mixed with
    | true => exact .inl (by rw [shownMargin, hmixed]; rfl)
    | false =>
      have hcosts : ∀ period ∈ ofServer periods server, period.costSide = state.costCurrency :=
        fun period hperiod ↦ (hstate.mixed.mp hmixed period hperiod).2
      refine .inr ?_
      rw [shownMargin, hmixed]
      exact congrArg (roundedUp state.costCurrency) (spentIn_of_forall hcosts).symm

/-! ### Every order -/

variable {other : List AccrualPeriod} {again : MarginReport}

theorem spentIn_perm (h : other.Perm periods) (currency : String) :
    spentIn other currency = spentIn periods currency :=
  ((h.filter _).map _).sum_eq

theorem soldIn_perm (h : other.Perm periods) (currency : String) :
    soldIn other currency = soldIn periods currency :=
  ((h.filter _).map _).sum_eq

theorem knownIn_perm (h : other.Perm periods) (currency : String) :
    KnownIn other currency ↔ KnownIn periods currency := by
  unfold KnownIn
  simp only [h.mem_iff]

theorem unmixed_perm (h : other.Perm periods) : Unmixed other ↔ Unmixed periods := by
  have hnil : other = [] ↔ periods = [] := by
    rw [← List.length_eq_zero_iff, ← List.length_eq_zero_iff, h.length_eq]
  unfold Unmixed OneCurrency
  simp only [mem_amountSides, knownIn_perm h, h.mem_iff, hnil]

theorem windowAnomalies_perm (h : other.Perm periods) :
    windowAnomalies other start = windowAnomalies periods start := by
  have hlisted : listed (amountSides other) = listed (amountSides periods) :=
    listed_congr fun currency ↦ by simp only [mem_amountSides, knownIn_perm h, h.mem_iff]
  unfold windowAnomalies
  simp only [unmixed_perm h, hlisted]

/-- The margin of a server of plain periods does not depend on their order. -/
theorem shownMargin_perm (hplain : Plain periods) (h : other.Perm periods) {server : Uuid}
    {first second : ServerState} (hfirst : StateOf (ofServer other server) first)
    (hsecond : StateOf (ofServer periods server) second) :
    shownMargin server first ((ofServer other server).map (·.spent)).sum =
      shownMargin server second ((ofServer periods server).map (·.spent)).sum := by
  have hown : (ofServer other server).Perm (ofServer periods server) := h.filter _
  have hselling := hplain.sellingSide hsecond
  obtain ⟨last, hlast, hrevenue, hcosting⟩ := hfirst.last
  have hmem := hown.mem_iff.mp hlast
  have hsame : first.revenueCurrency = second.revenueCurrency :=
    hrevenue.symm.trans (hselling last hmem)
  have hmixed : first.mixed = false ↔ second.mixed = false := by
    rw [hfirst.mixed, hsecond.mixed]
    obtain ⟨lastSecond, hlastSecond, -, hcostingSecond⟩ := hsecond.last
    constructor
    · intro hall period hperiod
      have hcosts := (hall period (hown.mem_iff.mpr hperiod)).2
      have hcostsLast := (hall lastSecond (hown.mem_iff.mpr hlastSecond)).2
      exact ⟨hselling period hperiod, hcosts.trans (hcostsLast.symm.trans hcostingSecond)⟩
    · intro hall period hperiod
      have hcosts := (hall period (hown.mem_iff.mp hperiod)).2
      have hcostsLast := (hall last hmem).2
      exact ⟨(hselling period (hown.mem_iff.mp hperiod)).trans hsame.symm,
        hcosts.trans (hcostsLast.symm.trans hcosting)⟩
  have hspent : ((ofServer other server).map (·.spent)).sum =
      ((ofServer periods server).map (·.spent)).sum := (hown.map _).sum_eq
  have hquanta : first.quanta = second.quanta := by
    rw [hfirst.quanta, hsecond.quanta, (hown.map _).sum_eq]
  have hsold : first.revenue = second.revenue := by
    rw [hfirst.revenue, hsecond.revenue, (hown.map _).sum_eq]
  unfold shownMargin
  rw [hquanta, hsold, hsame, hspent]
  cases hsecondMixed : second.mixed with
  | true =>
    have hfirstMixed : first.mixed = true :=
      Bool.of_not_eq_false fun hfalse ↦ by rw [hmixed.mp hfalse] at hsecondMixed; cases hsecondMixed
    rw [hfirstMixed]
    rfl
  | false =>
    rw [hmixed.mpr hsecondMixed]
    have hcosts := (hsecond.mixed.mp hsecondMixed last hmem).2
    rw [← hcosting, hcosts]

/-- Two orders of plain periods have one report. -/
theorem Reported.same (hplain : Plain periods) (h : other.Perm periods)
    (hagain : Reported start finish other again) (hfound : Reported start finish periods found) :
    again.Same found where
  start := hagain.starts.trans hfound.starts.symm
  finish := hagain.finishes.trans hfound.finishes.symm
  periods := by rw [hagain.count, hfound.count, h.length_eq]
  quanta := by rw [hagain.quanta, hfound.quanta, (h.map _).sum_eq]
  revenues currency := by
    rw [hagain.revenues, hfound.revenues, soldIn_perm h]
    simp only [h.mem_iff]
  costs currency := by
    rw [hagain.costs, hfound.costs, spentIn_perm h]
    simp only [knownIn_perm h]
  perServer server := by
    have hown : (ofServer other server).Perm (ofServer periods server) := h.filter _
    have hfirst := hagain.perServer server
    have hsecond := hfound.perServer server
    cases hlookup : again.perServer.lookup server with
    | none =>
      rw [hlookup] at hfirst
      have hnone : ofServer other server = [] := hfirst
      rw [hnone, List.nil_perm] at hown
      cases hother : found.perServer.lookup server with
      | none => rfl
      | some margin =>
        rw [hother] at hsecond
        obtain ⟨state, hstate, -⟩ := hsecond
        obtain ⟨last, hlast, -⟩ := hstate.last
        rw [hown] at hlast
        cases hlast
    | some margin =>
      rw [hlookup] at hfirst
      obtain ⟨first, hstate, rfl⟩ := hfirst
      cases hother : found.perServer.lookup server with
      | none =>
        rw [hother] at hsecond
        have hnone : ofServer periods server = [] := hsecond
        obtain ⟨last, hlast, -⟩ := hstate.last
        rw [hnone, List.perm_nil] at hown
        rw [hown] at hlast
        cases hlast
      | some margin =>
        rw [hother] at hsecond
        obtain ⟨second, hstateSecond, rfl⟩ := hsecond
        rw [shownMargin_perm hplain h hstate hstateSecond]
  anomalies := by
    rw [hagain.anomalies, hfound.anomalies, windowAnomalies_perm h]
    refine (StableSort.insertionSort_eq_of_perm ?_ hplain.distinct).symm
    exact (h.symm.flatMap_right _).append_right _

/-- The report does not depend on the order of the periods. -/
def OrderFree (start finish : ℤ) (periods : List AccrualPeriod) (found : MarginReport) : Prop :=
  ∀ other : List AccrualPeriod, other.Perm periods →
    ∃ again, report start finish other = .ok again ∧ again.Same found

theorem sellingSide_of_soldIn {currency : String}
    (h : soldIn periods currency = (periods.map (·.sellingMinor)).sum) :
    ∀ period ∈ periods, period.sellingSide = currency := by
  intro period hperiod
  by_contra hside
  have hsplit := List.sum_map_filter_add_sum_map_filter_not
    (fun period : AccrualPeriod ↦ period.sellingSide = currency) (·.sellingMinor) periods
  have hrest : ∀ x ∈ (periods.filter fun period ↦ ¬ period.sellingSide = currency).map
      (·.sellingMinor), 0 ≤ x := by
    intro x hx
    obtain ⟨other, -, rfl⟩ := List.mem_map.mp hx
    exact other.sellingMinor_pos.le
  have hsingle := List.single_le_sum hrest period.sellingMinor
    (List.mem_map.mpr ⟨period, List.mem_filter.mpr ⟨hperiod, decide_eq_true hside⟩, rfl⟩)
  have hpos := period.sellingMinor_pos
  unfold soldIn at h
  omega

/-- Of a period that comes first, an anomaly comes first among those that look like it. -/
theorem head_anomalies {period : AccrualPeriod} {rest : List AccrualPeriod} {anomaly : MarginAnomaly}
    {window : List MarginAnomaly} (h : anomaly ∈ anomaliesOf period) :
    ((((period :: rest).flatMap anomaliesOf ++ window).insertionSort reportOrder).filter fun other ↦
      other.periodStart = anomaly.periodStart ∧ other.reason = anomaly.reason).head? =
        some anomaly := by
  rw [StableSort.filter_insertionSort, List.flatMap_cons, List.append_assoc, List.filter_append]
  · have hsame : ∀ other ∈ (anomaliesOf period).filter (fun other ↦
        other.periodStart = anomaly.periodStart ∧ other.reason = anomaly.reason),
          other = anomaly := by
      intro other hother
      obtain ⟨hmem, hlook⟩ := List.mem_filter.mp hother
      rw [mem_anomaliesOf hmem, mem_anomaliesOf h, (decide_eq_true_iff.mp hlook).2]
    have hfound : anomaly ∈ (anomaliesOf period).filter (fun other ↦
        other.periodStart = anomaly.periodStart ∧ other.reason = anomaly.reason) :=
      List.mem_filter.mpr ⟨h, decide_eq_true ⟨rfl, rfl⟩⟩
    obtain ⟨head, tail, hlist⟩ := List.exists_cons_of_ne_nil (List.ne_nil_of_mem hfound)
    have hhead := hsame head (hlist ▸ List.mem_cons_self)
    rw [hlist, hhead]
    rfl
  · intro first second hfirst hsecond
    have hfirst := decide_eq_true_iff.mp hfirst
    have hsecond := decide_eq_true_iff.mp hsecond
    exact .inr ⟨hfirst.1.trans hsecond.1.symm, (hfirst.2.trans hsecond.2.symm).le⟩

/-- Periods whose reports are exact and one in every order are plain. -/
theorem plain_of_exact (hprecision : WithinPrecision periods)
    (hfound : report start finish periods = .ok found) (hexact : ExactReport periods found)
    (horder : OrderFree start finish periods found) : Plain periods := by
  classical
  have hreported := reported_of_eq_ok hprecision hfound
  have hmixed : Unmixed periods ↔ OneCurrency (sides periods) :=
    not_iff_not.mp (hreported.mixed.symm.trans hexact.mixed)
  have hfirst : ∀ period ∈ periods, ∀ anomaly ∈ anomaliesOf period,
      (found.anomalies.filter fun other ↦ other.periodStart = anomaly.periodStart ∧
        other.reason = anomaly.reason).head? = some anomaly := by
    intro period hperiod anomaly hanomaly
    have hperm : (period :: periods.erase period).Perm periods :=
      (List.perm_cons_erase hperiod).symm
    obtain ⟨again, hagain, hsame⟩ := horder _ hperm
    rw [← hsame.anomalies, (reported_of_eq_ok (hprecision.perm hperm) hagain).anomalies]
    exact head_anomalies hanomaly
  exact {
    in_range := hreported.in_range
    ties := by
      intro first hmem second hmemSecond x hx y hy hstart hreason
      have hx := hfirst first hmem x hx
      have hy := hfirst second hmemSecond y hy
      rw [hstart, hreason, hy] at hx
      exact (Option.some.inj hx).symm
    servers := by
      intro first hmem second hmemSecond hserver
      have hown : first ∈ ofServer periods first.serverId := mem_ofServer.mpr ⟨hmem, rfl⟩
      have hownSecond : second ∈ ofServer periods first.serverId :=
        mem_ofServer.mpr ⟨hmemSecond, hserver.symm⟩
      have hmargin := hreported.perServer first.serverId
      cases hlookup : found.perServer.lookup first.serverId with
      | none =>
        rw [hlookup] at hmargin
        have hnone : ofServer periods first.serverId = [] := hmargin
        rw [hnone] at hown
        cases hown
      | some margin =>
        rw [hlookup] at hmargin
        obtain ⟨state, hstate, rfl⟩ := hmargin
        have hapart := (hexact.apart first.serverId _ hlookup).1
        have hside := sellingSide_of_soldIn (hapart.symm.trans hstate.revenue)
        exact (hside first hown).trans (hside second hownSecond).symm
    known := fun hone ↦ (hmixed.mpr hone).2
    unknown := hmixed.mp }

end Reports

/-- A whole number of the unit with so many decimals. -/
def Whole (decimals : ℕ) (x : ℚ) : Prop :=
  ∃ n : ℕ, x = n * 10 ^ (-(decimals : ℤ))

theorem whole_sum {decimals : ℕ} {xs : List ℚ} (h : ∀ x ∈ xs, Whole decimals x) :
    Whole decimals xs.sum := by
  induction xs with
  | nil => exact ⟨0, by simp⟩
  | cons x rest ih =>
    obtain ⟨m, hm⟩ := h x List.mem_cons_self
    obtain ⟨n, hn⟩ := ih fun other hother ↦ h other (List.mem_cons_of_mem x hother)
    refine ⟨m + n, ?_⟩
    rw [List.sum_cons, hm, hn]
    push_cast
    ring

theorem fits_of_whole {cost : Decimal} {decimals : ℕ} {x : ℚ} (h : Whole decimals x)
    (hdecimals : decimals ≤ 50) (hbound : x < 10 ^ (50 - decimals)) : Fits (itemContext cost) x := by
  obtain ⟨n, rfl⟩ := h
  have hsmall : (n : ℚ) < 10 ^ 50 := by
    rw [zpow_neg, zpow_natCast, ← div_eq_mul_inv, div_lt_iff₀ (by positivity), ← pow_add,
      Nat.sub_add_cancel hdecimals] at hbound
    exact hbound
  have hdigits : numDigits n ≤ 50 := numDigits_le (by decide) (by exact_mod_cast hsmall)
  refine ⟨n, -(decimals : ℤ), rfl, hdigits.trans (le_max_left _ _), ?_, ?_⟩
  · change (-999999 : ℤ) - (max 50 (numDigits cost.coefficient + 30) : ℕ) + 1 ≤ -(decimals : ℤ)
    omega
  · change (numDigits n : ℤ) + -(decimals : ℤ) ≤ 999999
    omega

/-- Costs with few decimals and a total that is not too large are added up exactly. -/
theorem withinPrecision_of_whole {decimals : ℕ} (hdecimals : decimals ≤ 50)
    (hwhole : ∀ period ∈ periods, Whole decimals period.spent)
    (hbound : (periods.map (·.spent)).sum < 10 ^ (50 - decimals)) : WithinPrecision periods := by
  intro part hpart period _ cost _
  have hsum : ∀ own : List AccrualPeriod, own.Subperm periods →
      Fits (itemContext cost) (own.map (·.spent)).sum := by
    intro own hown
    refine fits_of_whole (whole_sum fun x hx ↦ ?_) hdecimals (lt_of_le_of_lt ?_ hbound)
    · obtain ⟨other, hother, rfl⟩ := List.mem_map.mp hx
      exact hwhole other (hown.subset hother)
    · obtain ⟨middle, hperm, hsub⟩ := hown
      rw [← (hperm.map (·.spent)).sum_eq]
      refine (hsub.map (·.spent)).sum_le_sum fun x hx ↦ ?_
      obtain ⟨other, -, rfl⟩ := List.mem_map.mp hx
      exact spent_nonneg other
  exact ⟨hsum _ (List.filter_sublist.subperm.trans hpart),
    hsum _ (List.filter_sublist.subperm.trans hpart)⟩

/-! ### A server with two currencies, an unknown cost and a cost that is lost -/

def marginServer : Uuid :=
  ⟨"8f14e45f-ceea-467f-a2ea-0d5c1f2b3c4d", .refl true⟩

/-- An hour that was sold for a euro and cost a little less. -/
def euroPeriod : AccrualPeriod where
  serverId := marginServer
  idempotencyKey := "accrual:1"
  periodStart := 1709251200000000
  sellingMinor := 100
  currency := "EUR"
  costAmount := some ⟨false, 8125, -4⟩

/-- The next hour of the server, sold in dollars. -/
def dollarPeriod : AccrualPeriod where
  serverId := marginServer
  idempotencyKey := "accrual:2"
  periodStart := 1709254800000000
  sellingMinor := 120
  currency := "USD"
  costAmount := some ⟨false, 1, 0⟩

/-- An hour whose cost is not known. -/
def unknownPeriod : AccrualPeriod where
  serverId := marginServer
  idempotencyKey := "accrual:3"
  periodStart := 1709258400000000
  sellingMinor := 100
  currency := "EUR"

/-- An hour with a large cost of whole cents. -/
def largePeriod : AccrualPeriod where
  serverId := marginServer
  idempotencyKey := "accrual:4"
  periodStart := 1709262000000000
  sellingMinor := 100
  currency := "EUR"
  costAmount := some ⟨false, 123456789012345678, -2⟩

/-- An hour with a small cost of many decimals. -/
def smallPeriod : AccrualPeriod where
  serverId := marginServer
  idempotencyKey := "accrual:5"
  periodStart := 1709265600000000
  sellingMinor := 100
  currency := "EUR"
  costAmount := some ⟨false, 1, -40⟩

end CloudPlatform.Billing.Margins
