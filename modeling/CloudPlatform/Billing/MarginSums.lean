import CloudPlatform.Billing.MarginTotals

/-!
# The sums of the margin report

A report of exact totals, as a function of its periods: `Reported`. `reported_of_eq_ok` says that every
report whose sums fit their contexts is that one, and `report_isOk` that it is made where the totals are
64-bit amounts.
-/

namespace CloudPlatform.Billing.Margins

open Decimals
open Dictionaries
open Fx (arithmetic_eq_ok majorToMinor majorToMinor_round)

/-! ### Rounded totals -/

/-- An exact amount in minor units, rounded up. -/
def roundedUp (currency : String) (x : ℚ) : ℤ :=
  ⌈x * 10 ^ exponentOf currency⌉

theorem majorToMinor_eq {total : Decimal} {x : ℚ} {currency : String} (htotal : TotalIs total x)
    (haudited : (currencyExponents.lookup currency).isSome) {minor : ℤ}
    (h : majorToMinor total currency .charge = .ok minor) :
    minor = roundedUp currency x ∧ minor ≤ maxInt64 := by
  obtain ⟨exponent, hexponent, hminor⟩ := majorToMinor_round h htotal.2
  rw [(currencyExponent_of_audited haudited).1] at hexponent
  obtain rfl := Except.ok.inj hexponent
  rw [htotal.1] at hminor
  refine ⟨hminor, ?_⟩
  obtain ⟨_, -, h⟩ := bind_eq_ok.mp h
  obtain ⟨_, -, h⟩ := bind_eq_ok.mp h
  obtain ⟨_, -, h⟩ := bind_eq_ok.mp h
  obtain ⟨hbounds, h⟩ := rejectIf_bind_eq_ok.mp h
  obtain rfl := pure_eq_ok.mp h
  simp only [Bool.or_eq_false_iff, decide_eq_false_iff_not, not_lt] at hbounds
  exact hbounds.2

/-- A total whose minor units are a 64-bit integer is converted. -/
theorem majorToMinor_isOk {total : Decimal} {x : ℚ} {currency : String} (htotal : TotalIs total x)
    (hnonneg : 0 ≤ x) (haudited : (currencyExponents.lookup currency).isSome)
    (hbound : roundedUp currency x ≤ maxInt64) :
    majorToMinor total currency .charge = .ok (roundedUp currency x) := by
  obtain ⟨hexponent, htwo⟩ := currencyExponent_of_audited haudited
  have hten : (10 : ℚ) ≠ 0 := by norm_num
  have hle : x * 10 ^ exponentOf currency ≤ maxInt64 :=
    (Int.le_ceil _).trans (Int.cast_le.mpr hbound)
  have hsmall : total.toRat < 10 ^ (-(exponentOf currency : ℤ) + (19 : ℕ)) := by
    rw [htotal.1, zpow_add₀ hten, zpow_neg, zpow_natCast, zpow_natCast, inv_mul_eq_div,
      lt_div_iff₀ (by positivity)]
    refine hle.trans_lt ?_
    norm_num [maxInt64]
  have hrange : (-999999 : ℤ) < 999999 := by decide
  let context : Context :=
    ⟨max 50 (numDigits total.coefficient + exponentOf currency + 20), 999999, -999999⟩
  obtain ⟨quantized, hquantized⟩ : ∃ quantized,
      context.quantize total (-(exponentOf currency : ℤ)) .ceiling = .ok quantized :=
    quantize_ceiling_isOk htotal.2 hrange (by simp only [context, Context.etiny]; omega)
      (by simp only [context]; omega) (by simp only [context]; omega) hsmall
  obtain ⟨⟨hunit, -⟩, -, -, hrounded⟩ := quantize_round (Fx.divide_roundingFor .charge) hquantized
    (by simp [context]) htotal.2
  have hcoefficient : (quantized.coefficient : ℤ) = roundedUp currency x := by
    rw [hrounded, htotal.1, zpow_neg, zpow_natCast, div_inv_eq_mul]
    rfl
  have hdigits : numDigits quantized.coefficient ≤ 19 := by
    refine numDigits_le (by decide) ?_
    have hmax : maxInt64 < 10 ^ 19 := by decide
    omega
  have hpower : numDigits (10 ^ exponentOf currency) ≤ 3 :=
    numDigits_le (by decide) (Nat.pow_lt_pow_right (by decide) (by omega))
  obtain ⟨scaled, hscaled⟩ : ∃ scaled,
      context.multiply quantized (.ofNat (10 ^ exponentOf currency)) = .ok scaled := by
    refine multiply_isOk hrange ?_
    change (numDigits quantized.coefficient : ℤ) + numDigits (10 ^ exponentOf currency) +
      (quantized.exponent + 0) ≤ 999999
    omega
  have hminor : scaled.toInt = roundedUp currency x := by
    have hround : scaled.toInt = Fx.FxPurpose.charge.round (total.toRat * 10 ^ exponentOf currency) :=
      Fx.toInt_scaled hquantized hscaled (by simp [context]) htotal.2
    rw [hround, htotal.1]
    rfl
  have hlow : 0 ≤ roundedUp currency x := Int.ceil_nonneg (by positivity)
  refine bind_eq_ok.mpr ⟨_, hexponent, bind_eq_ok.mpr ⟨_, arithmetic_eq_ok.mpr hquantized,
    bind_eq_ok.mpr ⟨_, arithmetic_eq_ok.mpr hscaled, ?_⟩⟩⟩
  rw [hminor, rejectIf_bind]
  · rfl
  · simp only [Bool.or_eq_false_iff, decide_eq_false_iff_not, not_lt]
    exact ⟨by omega, hbound⟩

/-! ### Currencies of a window -/

section

variable (periods : List AccrualPeriod)

/-- The currencies of the two sides of every period. -/
def sides : List String :=
  periods.flatMap fun period ↦ [period.sellingSide, period.costSide]

/-- The currencies of the amounts that the periods have. -/
def amountSides : List String :=
  periods.flatMap fun period ↦
    period.sellingSide :: if period.costAmount.isSome then [period.costSide] else []

/-- All of a list is one currency. -/
def OneCurrency (currencies : List String) : Prop :=
  ∀ first ∈ currencies, ∀ second ∈ currencies, first = second

/-- The window is taken for one of a single currency. -/
def Unmixed : Prop :=
  OneCurrency (amountSides periods) ∧ (periods = [] ∨ ∃ period ∈ periods, period.costAmount.isSome)

instance (currencies : List String) : Decidable (OneCurrency currencies) :=
  inferInstanceAs (Decidable (∀ first ∈ currencies, ∀ second ∈ currencies, first = second))

instance : Decidable (Unmixed periods) :=
  inferInstanceAs (Decidable (OneCurrency (amountSides periods) ∧
    (periods = [] ∨ ∃ period ∈ periods, period.costAmount.isSome)))

instance (currency : String) : Decidable (KnownIn periods currency) :=
  inferInstanceAs (Decidable (∃ period ∈ periods, period.costSide = currency ∧
    period.costAmount.isSome))

/-- The texts of some currencies, each once and in order. -/
def listed (currencies : List String) : String :=
  ", ".intercalate (currencies.dedup.insertionSort (· ≤ ·))

/-- The anomaly of the window, if there is one. -/
def windowAnomalies (start : ℤ) : List MarginAnomaly :=
  if Unmixed periods then [] else [mixedCurrency start (listed (amountSides periods))]

end

variable {periods : List AccrualPeriod} {totals : Totals}

theorem listed_congr {first second : List String} (h : ∀ currency, currency ∈ first ↔
    currency ∈ second) : listed first = listed second := by
  have hperm : first.dedup.Perm second.dedup :=
    (List.perm_ext_iff_of_nodup (List.nodup_dedup _) (List.nodup_dedup _)).mpr fun currency ↦ by
      rw [List.mem_dedup, List.mem_dedup, h]
  have : Std.Total fun first second : String ↦ first ≤ second := ⟨le_total⟩
  have : IsTrans String fun first second ↦ first ≤ second := ⟨fun _ _ _ ↦ le_trans⟩
  unfold listed
  rw [StableSort.insertionSort_eq_of_perm hperm fun _ _ _ _ ↦ le_antisymm]

variable {currency : String}

theorem mem_amountSides : currency ∈ amountSides periods ↔
    (∃ period ∈ periods, period.sellingSide = currency) ∨ KnownIn periods currency := by
  unfold amountSides KnownIn
  rw [List.mem_flatMap]
  constructor
  · rintro ⟨period, hperiod, hcurrency⟩
    rcases List.mem_cons.mp hcurrency with rfl | hcurrency
    · exact .inl ⟨period, hperiod, rfl⟩
    · split_ifs at hcurrency with hknown
      · exact .inr ⟨period, hperiod, (List.mem_singleton.mp hcurrency).symm, hknown⟩
      · cases hcurrency
  · rintro (⟨period, hperiod, rfl⟩ | ⟨period, hperiod, rfl, hknown⟩)
    · exact ⟨period, hperiod, List.mem_cons_self⟩
    · refine ⟨period, hperiod, List.mem_cons_of_mem _ ?_⟩
      rw [if_pos hknown]
      exact List.mem_cons_self

theorem Tallied.mem_revenues (h : Tallied periods totals) :
    currency ∈ totals.revenues.map (·.1) ↔ ∃ period ∈ periods, period.sellingSide = currency := by
  rw [mem_keys_iff, h.revenues]
  split_ifs with hsold
  · exact iff_of_true rfl hsold
  · exact iff_of_false Bool.false_ne_true hsold

theorem Tallied.mem_exactCosts (h : Tallied periods totals) :
    currency ∈ totals.exactCosts.map (·.1) ↔ KnownIn periods currency := by
  have hcost := h.exactCosts currency
  rw [mem_keys_iff]
  cases hlookup : totals.exactCosts.lookup currency with
  | none =>
    rw [hlookup] at hcost
    exact iff_of_false Bool.false_ne_true hcost
  | some total =>
    rw [hlookup] at hcost
    exact iff_of_true rfl hcost.1

theorem length_le_one_iff {keys : List String} (h : keys.Nodup) :
    keys.length ≤ 1 ↔ OneCurrency keys := by
  constructor
  · intro hlength
    match keys with
    | [] => rintro first hfirst; cases hfirst
    | [key] =>
      intro first hfirst second hsecond
      rw [List.mem_singleton.mp hfirst, List.mem_singleton.mp hsecond]
    | _ :: _ :: _ => simp at hlength
  · intro hone
    match keys with
    | [] => exact Nat.zero_le 1
    | [key] => exact le_rfl
    | first :: second :: rest =>
      have hsame := hone first List.mem_cons_self second (List.mem_cons_of_mem _ List.mem_cons_self)
      exact absurd (hsame ▸ List.mem_cons_self) (List.nodup_cons.mp h).1

/-- The report notices a mix of the currencies of the amounts, and the lack of every cost. -/
theorem Tallied.unmixed_iff (h : Tallied periods totals) {costs : List (String × ℤ)}
    (hcosts : costs.map (·.1) = totals.exactCosts.map (·.1)) :
    (1 < totals.revenues.length || 1 < costs.length || !sameKeys totals.revenues costs : Bool) =
      false ↔ Unmixed periods := by
  have hrevenues : totals.revenues.length ≤ 1 ↔ OneCurrency (totals.revenues.map (·.1)) := by
    rw [← length_le_one_iff h.revenues_nodup, List.length_map]
  have hexact : costs.length ≤ 1 ↔ OneCurrency (totals.exactCosts.map (·.1)) := by
    rw [← length_le_one_iff h.exactCosts_nodup, ← hcosts, List.length_map]
  have hkeys : sameKeys totals.revenues costs = true ↔ ∀ currency,
      (∃ period ∈ periods, period.sellingSide = currency) ↔ KnownIn periods currency := by
    unfold sameKeys
    rw [hcosts, Bool.and_eq_true, List.all_eq_true, List.all_eq_true]
    simp only [decide_eq_true_eq, h.mem_revenues, h.mem_exactCosts]
    exact ⟨fun hboth currency ↦ ⟨hboth.1 currency, hboth.2 currency⟩,
      fun hboth ↦ ⟨fun currency ↦ (hboth currency).mp, fun currency ↦ (hboth currency).mpr⟩⟩
  rw [Bool.or_eq_false_iff, Bool.or_eq_false_iff, decide_eq_false_iff_not, decide_eq_false_iff_not,
    not_lt, not_lt, Bool.not_eq_false', hrevenues, hexact, hkeys]
  unfold Unmixed OneCurrency
  simp only [h.mem_revenues, h.mem_exactCosts, mem_amountSides]
  constructor
  · rintro ⟨⟨hsold, hknown⟩, hsame⟩
    refine ⟨fun first hfirst second hsecond ↦ hsold first ?_ second ?_, ?_⟩
    · exact hfirst.elim id (hsame first).mpr
    · exact hsecond.elim id (hsame second).mpr
    · by_cases hnone : periods = []
      · exact .inl hnone
      · obtain ⟨period, hperiod⟩ := List.exists_mem_of_ne_nil periods hnone
        obtain ⟨other, hother, -, hcost⟩ := (hsame period.sellingSide).mp ⟨period, hperiod, rfl⟩
        exact .inr ⟨other, hother, hcost⟩
  · rintro ⟨hone, hcost⟩
    refine ⟨⟨fun first hfirst second hsecond ↦ hone first (.inl hfirst) second (.inl hsecond),
      fun first hfirst second hsecond ↦ hone first (.inr hfirst) second (.inr hsecond)⟩,
      fun currency ↦ ⟨fun hsold ↦ ?_, fun hknown ↦ ?_⟩⟩
    · rcases hcost with rfl | ⟨other, hother, hother_known⟩
      · obtain ⟨period, hperiod, -⟩ := hsold
        cases hperiod
      · have hknown : KnownIn periods other.costSide := ⟨other, hother, rfl, hother_known⟩
        rw [hone currency (.inl hsold) other.costSide (.inr hknown)]
        exact hknown
    · have hamount := hone currency (.inr hknown)
      obtain ⟨period, hperiod, -⟩ := hknown
      exact ⟨period, hperiod, (hamount _ (.inl ⟨period, hperiod, rfl⟩)).symm⟩

theorem Tallied.currenciesOf (h : Tallied periods totals) {costs : List (String × ℤ)}
    (hcosts : costs.map (·.1) = totals.exactCosts.map (·.1)) :
    currenciesOf totals.revenues costs = listed (amountSides periods) := by
  refine listed_congr fun currency ↦ ?_
  rw [hcosts, List.mem_append, h.mem_revenues, h.mem_exactCosts, mem_amountSides]

/-! ### A report of exact totals -/

/-- The margin that is shown of a server, with its exact cost. -/
def shownMargin (server : Uuid) (state : ServerState) (spent : ℚ) : ServerMargin where
  serverId := server
  quanta := state.quanta
  revenueMinor := state.revenue
  costMinor := if state.mixed then 0 else roundedUp state.costCurrency spent
  revenueCurrency := state.revenueCurrency
  costCurrency := if state.mixed then "MIXED" else state.costCurrency

/-- The margin of a server, if it has periods. -/
def MarginFor (server : Uuid) (own : List AccrualPeriod) : Option ServerMargin → Prop
  | none => own = []
  | some margin => ∃ state, StateOf own state ∧
      margin = shownMargin server state (own.map (·.spent)).sum

/-- The report of a window, by the exact sums over its periods. -/
structure Reported (start finish : ℤ) (periods : List AccrualPeriod) (found : MarginReport) :
    Prop where
  starts : found.start = start
  finishes : found.finish = finish
  count : found.periods = periods.length
  quanta : found.quanta = (periods.map (·.quanta)).sum
  revenues : ∀ currency, found.revenues.lookup currency =
    if ∃ period ∈ periods, period.sellingSide = currency then some (soldIn periods currency) else none
  costs : ∀ currency, found.costs.lookup currency =
    if KnownIn periods currency then some (roundedUp currency (spentIn periods currency)) else none
  in_range : ∀ currency, roundedUp currency (spentIn periods currency) ≤ maxInt64
  perServer : ∀ server, MarginFor server (ofServer periods server) (found.perServer.lookup server)
  anomalies : found.anomalies =
    (periods.flatMap anomaliesOf ++ windowAnomalies periods start).insertionSort reportOrder

theorem roundedUp_zero (currency : String) : roundedUp currency 0 = 0 := by
  simp [roundedUp]

theorem StateOf.costCurrency_audited {own : List AccrualPeriod} {state : ServerState}
    (h : StateOf own state) : (currencyExponents.lookup state.costCurrency).isSome := by
  obtain ⟨period, -, -, hcost⟩ := h.last
  exact hcost ▸ costSide_audited period

theorem costOf_key (entry : String × Decimal) (result : String × ℤ) (h : costOf entry = .ok result) :
    result.1 = entry.1 := by
  obtain ⟨minor, -, h⟩ := bind_eq_ok.mp h
  rw [← pure_eq_ok.mp h]

theorem marginOf_key (entry : Uuid × ServerState) (result : Uuid × ServerMargin)
    (h : marginOf entry = .ok result) : result.1 = entry.1 := by
  obtain ⟨minor, -, h⟩ := bind_eq_ok.mp h
  rw [← pure_eq_ok.mp h]

/-- The margin that a report shows is the exact one. -/
theorem marginOf_eq_ok {server key : Uuid} {own : List AccrualPeriod} {state : ServerState}
    {margin : ServerMargin} (hstate : StateOf own state)
    (h : marginOf (server, state) = .ok (key, margin)) :
    margin = shownMargin server state (own.map (·.spent)).sum := by
  obtain ⟨minor, hminor, h⟩ := bind_eq_ok.mp h
  obtain rfl := (Prod.mk.inj (pure_eq_ok.mp h)).2
  have hcost : minor = if state.mixed then 0
      else roundedUp state.costCurrency (own.map (·.spent)).sum := by
    unfold costDisplay at hminor
    dsimp only at hminor
    cases hmixed : state.mixed with
    | true =>
      rw [hmixed, Bool.true_or, if_pos rfl] at hminor
      exact (Except.ok.inj hminor).symm
    | false =>
      rw [hmixed, Bool.false_or] at hminor
      rw [if_neg Bool.false_ne_true]
      by_cases hzero : state.cost.coefficient = 0
      · rw [if_pos (decide_eq_true hzero)] at hminor
        rw [← hstate.cost.1, toRat_of_coefficient_eq_zero hzero, roundedUp_zero]
        exact (Except.ok.inj hminor).symm
      · rw [if_neg (by simpa using hzero)] at hminor
        exact (majorToMinor_eq hstate.cost hstate.costCurrency_audited hminor).1
  unfold shownMargin
  rw [hcost]

/-- A report that is made reports the exact sums. -/
theorem reported_of_eq_ok {start finish : ℤ} {found : MarginReport}
    (hprecision : WithinPrecision periods) (h : report start finish periods = .ok found) :
    Reported start finish periods found := by
  obtain ⟨-, h⟩ := rejectIf_bind_eq_ok.mp h
  obtain ⟨totals, htotals, h⟩ := bind_eq_ok.mp h
  obtain ⟨costs, hcosts, h⟩ := bind_eq_ok.mp h
  obtain ⟨perServer, hperServer, h⟩ := bind_eq_ok.mp h
  obtain rfl := pure_eq_ok.mp h
  have htallied : Tallied periods totals :=
    (foldlM_tallied periods [] {} hprecision tallied_nil).1 totals htotals
  have hkeys : costs.map (·.1) = totals.exactCosts.map (·.1) :=
    map_of_mapM_eq_ok (fun entry _ result hresult ↦ costOf_key entry result hresult) hcosts
  have hcost : ∀ currency, (costs.lookup currency =
      if KnownIn periods currency then some (roundedUp currency (spentIn periods currency))
        else none) ∧ roundedUp currency (spentIn periods currency) ≤ maxInt64 := by
    intro currency
    have htotal := htallied.exactCosts currency
    have hmapped := lookup_mapM costOf_key hcosts currency
    cases hlookup : totals.exactCosts.lookup currency with
    | none =>
      rw [hlookup] at htotal hmapped
      rw [if_neg htotal, spentIn_eq_zero htotal, roundedUp_zero]
      exact ⟨hmapped, by decide⟩
    | some total =>
      rw [hlookup] at htotal hmapped
      obtain ⟨minor, hminor, hlookup⟩ := hmapped
      obtain ⟨hknown, htotal⟩ := htotal
      obtain ⟨converted, hconverted, hminor⟩ := bind_eq_ok.mp hminor
      obtain rfl := (Prod.mk.inj (pure_eq_ok.mp hminor)).2
      have haudited : (currencyExponents.lookup currency).isSome := by
        obtain ⟨period, -, rfl, -⟩ := hknown
        exact costSide_audited period
      obtain ⟨heq, hbound⟩ := majorToMinor_eq htotal haudited hconverted
      rw [if_pos hknown, ← heq]
      exact ⟨hlookup, hbound⟩
  exact {
    starts := rfl
    finishes := rfl
    count := rfl
    quanta := htallied.quanta
    revenues := htallied.revenues
    costs := fun currency ↦ (hcost currency).1
    in_range := fun currency ↦ (hcost currency).2
    perServer := by
      intro server
      have hserver := htallied.perServer server
      have hmapped := lookup_mapM marginOf_key hperServer server
      cases hlookup : totals.perServer.lookup server with
      | none =>
        rw [hlookup] at hserver hmapped
        dsimp only
        rw [hmapped]
        exact hserver
      | some state =>
        rw [hlookup] at hserver hmapped
        obtain ⟨margin, hmargin, hlookup⟩ := hmapped
        dsimp only
        rw [hlookup]
        exact ⟨state, hserver, marginOf_eq_ok hserver hmargin⟩
    anomalies := by
      have hmixed := htallied.unmixed_iff hkeys
      have hwindow : (if (1 < totals.revenues.length || 1 < costs.length ||
          !sameKeys totals.revenues costs : Bool) then
            [mixedCurrency start (currenciesOf totals.revenues costs)] else []) =
          windowAnomalies periods start := by
        unfold windowAnomalies
        rw [htallied.currenciesOf hkeys]
        by_cases hunmixed : Unmixed periods
        · rw [if_pos hunmixed, hmixed.mpr hunmixed]
          rfl
        · rw [if_neg hunmixed, if_pos]
          exact Bool.of_not_eq_false (mt hmixed.mp hunmixed)
      dsimp only
      rw [hwindow, htallied.anomalies] }

/-! ### A report that is made -/

/-- Every cost total is a 64-bit number of minor units. -/
def InRange (periods : List AccrualPeriod) : Prop :=
  ∀ currency, roundedUp currency (spentIn periods currency) ≤ maxInt64

theorem roundedUp_mono (currency : String) {x y : ℚ} (h : x ≤ y) :
    roundedUp currency x ≤ roundedUp currency y :=
  Int.ceil_mono (mul_le_mul_of_nonneg_right h (by positivity))

/-- The costs of one server in one currency are among the costs of the currency. -/
theorem spent_ofServer_le {server : Uuid}
    (h : ∀ period ∈ ofServer periods server, period.costSide = currency) :
    ((ofServer periods server).map (·.spent)).sum ≤ spentIn periods currency := by
  have hsub : (ofServer periods server).Sublist (periods.filter (·.costSide = currency)) := by
    have hown : (ofServer periods server).filter (·.costSide = currency) =
        ofServer periods server := by
      rw [List.filter_eq_self]
      simpa using h
    have hfilter : (ofServer periods server).Sublist periods := List.filter_sublist
    rw [← hown]
    exact hfilter.filter _
  refine (hsub.map (·.spent)).sum_le_sum fun x hx ↦ ?_
  obtain ⟨period, -, rfl⟩ := List.mem_map.mp hx
  exact spent_nonneg period

theorem spent_le_spentIn {period : AccrualPeriod} (h : period ∈ periods) :
    period.spent ≤ spentIn periods period.costSide := by
  refine List.single_le_sum (fun x hx ↦ ?_) _ ?_
  · obtain ⟨other, -, rfl⟩ := List.mem_map.mp hx
    exact spent_nonneg other
  · exact List.mem_map.mpr ⟨period, List.mem_filter.mpr ⟨h, decide_eq_true rfl⟩, rfl⟩

/-- The comparison of a cost within range is made. -/
theorem compared_isOk (hprecision : WithinPrecision periods) (hrange : InRange periods)
    {period : AccrualPeriod} (h : period ∈ periods) : compared period = .ok (comparison period) := by
  obtain ⟨hexponent, htwo⟩ := currencyExponent_of_audited (costSide_audited period)
  suffices hmade : ∃ found, compared period = .ok found by
    obtain ⟨found, hfound⟩ := hmade
    rw [hfound, compared_eq_ok hfound (hprecision.fits_spent h)]
  unfold compared
  by_cases hside : period.costSide ≠ period.sellingSide
  · rw [if_pos hside]
    exact ⟨_, rfl⟩
  · rw [if_neg hside]
    cases hcost : period.costAmount with
    | none => exact ⟨_, rfl⟩
    | some cost =>
      dsimp only
      rw [hexponent, ok_bind]
      suffices hproduct : ∃ product,
          (itemContext cost).multiply cost (.ofNat (10 ^ exponentOf period.costSide)) = .ok product by
        obtain ⟨product, hproduct⟩ := hproduct
        rw [arithmetic_eq_ok.mpr hproduct, ok_bind]
        exact ⟨_, rfl⟩
      by_cases hzero : cost.coefficient = 0
      · exact ⟨_, if_pos (by rw [Decimal.mulExact, hzero, zero_mul])⟩
      · have hsign : cost.negative = false := by
          simpa [Decimal.negativeValue, hzero] using period.costAmount_nonneg cost hcost
        have hspent : period.spent = cost.toRat := by rw [AccrualPeriod.spent, hcost]; rfl
        have hle : cost.toRat ≤ maxInt64 := by
          have hrounded := (roundedUp_mono period.costSide (spent_le_spentIn h)).trans
            (hrange period.costSide)
          rw [hspent] at hrounded
          have hone : (1 : ℚ) ≤ 10 ^ exponentOf period.costSide := one_le_pow₀ (by norm_num)
          have hscaled := (Int.le_ceil _).trans (Int.cast_le.mpr hrounded)
          exact (le_mul_of_one_le_right (Decimal.toRat_nonneg hsign) hone).trans hscaled
        have hsize := numDigits_add_exponent_le (k := 19) hsign hzero
          (hle.trans_lt (by norm_num [maxInt64]))
        have hpower : numDigits (10 ^ exponentOf period.costSide) ≤ 3 :=
          numDigits_le (by decide) (Nat.pow_lt_pow_right (by decide) (by omega))
        refine multiply_isOk (show (-999999 : ℤ) < 999999 by decide) ?_
        change (numDigits cost.coefficient : ℤ) + numDigits (10 ^ exponentOf period.costSide) +
          (cost.exponent + 0) ≤ 999999
        omega

theorem report_isOk {start finish : ℤ} (hwindow : start < finish)
    (hprecision : WithinPrecision periods) (hrange : InRange periods) :
    ∃ found, report start finish periods = .ok found := by
  obtain ⟨hsound, hmade⟩ := foldlM_tallied periods [] {} hprecision tallied_nil
  obtain ⟨totals, htotals⟩ := hmade fun period h ↦ compared_isOk hprecision hrange h
  have htallied : Tallied periods totals := hsound totals htotals
  obtain ⟨costs, hcosts⟩ : ∃ costs, totals.exactCosts.mapM costOf = .ok costs := by
    refine mapM_eq_ok_of_forall fun entry hentry ↦ ?_
    have htotal := htallied.exactCosts entry.1
    rw [lookup_of_mem htallied.exactCosts_nodup hentry] at htotal
    obtain ⟨⟨period, -, hside, -⟩, htotal⟩ := htotal
    have hnonneg : 0 ≤ spentIn periods entry.1 := htotal.1 ▸ Decimal.toRat_nonneg htotal.2
    rw [costOf, majorToMinor_isOk htotal hnonneg (hside ▸ costSide_audited period) (hrange entry.1)]
    exact ⟨_, rfl⟩
  obtain ⟨perServer, hperServer⟩ : ∃ perServer, totals.perServer.mapM marginOf = .ok perServer := by
    refine mapM_eq_ok_of_forall fun entry hentry ↦ ?_
    have hstate := htallied.perServer entry.1
    rw [lookup_of_mem htallied.perServer_nodup hentry] at hstate
    have hstate : StateOf (ofServer periods entry.1) entry.2 := hstate
    suffices hshown : ∃ minor, costDisplay entry.2 = .ok minor by
      obtain ⟨minor, hminor⟩ := hshown
      rw [marginOf, hminor]
      exact ⟨_, rfl⟩
    unfold costDisplay
    split_ifs with hnothing
    · exact ⟨0, rfl⟩
    · rw [Bool.or_eq_true, not_or, Bool.not_eq_true] at hnothing
      have hsame := hstate.mixed.mp hnothing.1
      have hle := spent_ofServer_le fun period hperiod ↦ (hsame period hperiod).2
      have hnonneg : 0 ≤ ((ofServer periods entry.1).map (·.spent)).sum :=
        hstate.cost.1 ▸ Decimal.toRat_nonneg hstate.cost.2
      exact ⟨_, majorToMinor_isOk hstate.cost hnonneg hstate.costCurrency_audited
        ((roundedUp_mono _ hle).trans (hrange _))⟩
  unfold report
  rw [rejectIf_bind (by simpa using hwindow), htotals, ok_bind]
  dsimp only
  rw [hcosts, ok_bind, hperServer, ok_bind]
  exact ⟨_, rfl⟩

end CloudPlatform.Billing.Margins
