import CloudPlatform.Billing.Usage

/-!
# The segments of a usage window

What `calculate_usage_segments` owes to a window: segments that tile it on the grid, each at the price
of its start, that add up at every grid instant and count the cells of the window. `segmented_iff` says
that it pays exactly if the datetimes are ones in UTC, up to the first grid instant that is not before
the end, and the prices in use can be multiplied.
-/

namespace CloudPlatform.Billing.Usage

open Calendar (InRange Moment second)
open Cells (Cut Tiles)

/-! ### What is owed -/

/-- A window with an ascending schedule of one policy that covers its start. -/
structure Window (started ended : Moment) (schedule : List PricedPeriod) (policy : BillingPolicy) :
    Prop where
  started_aware : started.naive = false
  ended_aware : ended.naive = false
  ordered : started.instant ≤ ended.instant
  schedule_aware : ∀ period ∈ schedule, period.effectiveFrom.naive = false
  ascending : schedule.Pairwise fun earlier later ↦
    earlier.effectiveFrom.instant ≤ later.effectiveFrom.instant
  policy_eq : ∀ period ∈ schedule, period.price.policy = policy
  covers : ∃ period ∈ schedule, period.effectiveFrom.instant ≤ started.instant

/-- The last period that is effective at an instant. -/
def effectiveAt (schedule : List PricedPeriod) (instant : ℤ) : Option PricedPeriod :=
  (schedule.filter fun period ↦ period.effectiveFrom.instant ≤ instant).getLast?

/-- The two ends of a segment. -/
def UsageSegment.ends (segment : UsageSegment) : ℤ × ℤ :=
  (segment.start, segment.finish)

/-- The charge that a segment carries. -/
def UsageSegment.charge (segment : UsageSegment) : UsageCharge :=
  ⟨segment.quanta, segment.providerCost, segment.customerCharge⟩

/-- The quanta of all segments. -/
def totalQuanta (segments : List UsageSegment) : ℤ :=
  (segments.map (·.quanta)).sum

/-- The segments of a window are as they should be. -/
structure SegmentedAs (started ended : Moment) (schedule : List PricedPeriod) (policy : BillingPolicy)
    (segments : List UsageSegment) : Prop where
  tiles : Tiles started.instant (segments.map (·.ends)) ended.instant
  grid : ∀ segment ∈ segments,
    (segment.start = started.instant ∨ policy.length ∣ segment.start) ∧
      (segment.finish = ended.instant ∨ policy.length ∣ segment.finish)
  priced : ∀ segment ∈ segments, ∃ period, effectiveAt schedule segment.start = some period ∧
    calculateUsageCharge (.utc segment.start) (.utc segment.finish) period.price =
      .ok segment.charge
  additive : ∀ instant, policy.length ∣ instant → started.instant ≤ instant →
    instant ≤ ended.instant → ∃ before after,
      calculateUsageSegments started (.utc instant) schedule = .ok before ∧
      calculateUsageSegments (.utc instant) ended schedule = .ok after ∧ segments = before ++ after
  counted : policy.minimumQuanta ≤ 1 → totalQuanta segments =
    ((Finset.Ico started.instant ended.instant).image (· / policy.length)).card
  bounded : policy.minimumQuanta ≤ 1 → ∀ price charge, price.policy = policy →
    calculateUsageCharge started ended price = .ok charge → totalQuanta segments ≤ charge.quanta + 1

/-- The segments are returned, and they are as they should be. -/
def Segmented (started ended : Moment) (schedule : List PricedPeriod) (policy : BillingPolicy) : Prop :=
  ∃ segments, calculateUsageSegments started ended schedule = .ok segments ∧
    SegmentedAs started ended schedule policy segments

/-! ### When it is paid -/

/-- The amounts of a price can be multiplied by a number of quanta. -/
def PriceSnapshot.Multiplies (price : PriceSnapshot) (quanta : ℤ) : Prop :=
  (∃ cost, price.providerCostPerQuantum.amount.times quanta = .ok cost) ∧
    ∃ charge, price.customerPricePerQuantum.amount.times quanta = .ok charge

/-- The datetimes are ones in UTC, the first grid instant not before the end as well, and the prices in
use can be multiplied by the quanta of a segment. -/
structure Fits (started ended : Moment) (schedule : List PricedPeriod) (policy : BillingPolicy) :
    Prop where
  started_range : InRange started.instant
  ended_range : InRange ended.instant
  schedule_range : ∀ period ∈ schedule, InRange period.effectiveFrom.instant
  next_range : started.instant < ended.instant → InRange (Cells.atLeast policy.length ended.instant)
  multiplies : ∀ instant, (instant = started.instant ∨ policy.length ∣ instant) →
    started.instant ≤ instant → instant < ended.instant → ∀ period,
      effectiveAt schedule instant = some period →
        period.price.Multiplies (max policy.minimumQuanta 1)

/-! ### Prices -/

/-- The steps of a schedule, in UTC. -/
def stepsOf (schedule : List PricedPeriod) : List (ℤ × PriceSnapshot) :=
  schedule.map fun period ↦ (period.effectiveFrom.instant, period.price)

variable {instant : ℤ} {schedule : List PricedPeriod} {price : PriceSnapshot}

theorem priceLoop_eq (schedule : List PricedPeriod)
    (hascending : schedule.Pairwise fun earlier later ↦
      earlier.effectiveFrom.instant ≤ later.effectiveFrom.instant) (price : Option PriceSnapshot) :
    priceLoop instant price (stepsOf schedule) =
      ((effectiveAt schedule instant).map (·.price)).or price := by
  unfold effectiveAt stepsOf
  induction schedule generalizing price with
  | nil => rfl
  | cons first rest ih =>
    obtain ⟨hfirst, hrest⟩ := List.pairwise_cons.mp hascending
    rw [List.map_cons, priceLoop, List.filter_cons]
    by_cases heffective : first.effectiveFrom.instant ≤ instant
    · rw [if_pos heffective, if_pos (decide_eq_true heffective), ih hrest, List.getLast?_cons]
      cases (rest.filter fun period ↦ period.effectiveFrom.instant ≤ instant).getLast? with
      | none => rfl
      | some last => rfl
    · have hlater : rest.filter (fun period ↦ period.effectiveFrom.instant ≤ instant) = [] := by
        apply List.filter_eq_nil_iff.mpr
        intro period hperiod
        have hle := hfirst period hperiod
        simpa using (not_le.mp heffective).trans_le hle
      rw [if_neg heffective, if_neg (by simpa using heffective), hlater]
      rfl

theorem priceAt_eq_ok (hascending : schedule.Pairwise fun earlier later ↦
      earlier.effectiveFrom.instant ≤ later.effectiveFrom.instant) :
    priceAt (stepsOf schedule) instant = .ok price ↔
      ∃ period, effectiveAt schedule instant = some period ∧ period.price = price := by
  unfold priceAt
  rw [priceLoop_eq schedule hascending, Option.or_none]
  cases effectiveAt schedule instant with
  | none => simp [raise]
  | some period => simp

/-- What covers the start of a window covers every later instant. -/
theorem Window.exists_effective {started ended : Moment} {policy : BillingPolicy}
    (h : Window started ended schedule policy) (hinstant : started.instant ≤ instant) :
    ∃ period ∈ schedule, effectiveAt schedule instant = some period := by
  obtain ⟨period, hperiod, hcovers⟩ := h.covers
  have hmem : period ∈ schedule.filter fun period ↦ period.effectiveFrom.instant ≤ instant :=
    List.mem_filter.mpr ⟨hperiod, decide_eq_true (hcovers.trans hinstant)⟩
  have hne := List.ne_nil_of_mem hmem
  exact ⟨_, (List.mem_filter.mp (List.getLast_mem hne)).1, List.getLast?_eq_some_getLast hne⟩

/-! ### Charges -/

theorem toUtc_eq_ok {moment : Moment} :
    toUtc moment = .ok instant ↔ InRange moment.instant ∧ moment.instant = instant := by
  unfold toUtc
  by_cases hrange : InRange moment.instant
  · rw [if_pos hrange]
    simp [hrange]
  · rw [if_neg hrange]
    simp [hrange, raise]

theorem charge_eq_ok {quanta : ℤ} :
    (∃ charge, price.charge quanta = .ok charge) ↔ price.Multiplies quanta := by
  unfold PriceSnapshot.charge PriceSnapshot.Multiplies
  constructor
  · rintro ⟨charge, h⟩
    obtain ⟨cost, hcost, h⟩ := bind_eq_ok.mp h
    obtain ⟨amount, hamount, -⟩ := bind_eq_ok.mp h
    exact ⟨⟨_, (Money.times_eq_ok.mp hcost).1⟩, ⟨_, (Money.times_eq_ok.mp hamount).1⟩⟩
  · rintro ⟨⟨cost, hcost⟩, ⟨amount, hamount⟩⟩
    have hcost : price.providerCostPerQuantum.times quanta =
        .ok { price.providerCostPerQuantum with amount := cost } :=
      Money.times_eq_ok.mpr ⟨hcost, rfl⟩
    have hamount : price.customerPricePerQuantum.times quanta =
        .ok { price.customerPricePerQuantum with amount := amount } :=
      Money.times_eq_ok.mpr ⟨hamount, rfl⟩
    rw [hcost, ok_bind, hamount]
    exact ⟨_, rfl⟩

theorem quanta_of_charge {quanta : ℤ} {charge : UsageCharge} (h : price.charge quanta = .ok charge) :
    charge.quanta = quanta := by
  obtain ⟨cost, -, h⟩ := bind_eq_ok.mp h
  obtain ⟨amount, -, h⟩ := bind_eq_ok.mp h
  rw [← pure_eq_ok.mp h]

/-- A piece within one cell costs one quantum, or the minimum. -/
theorem quanta_of_cell {policy : BillingPolicy} {elapsed : ℤ} (hpos : 0 < elapsed)
    (hle : elapsed ≤ policy.length) : policy.quanta elapsed = max policy.minimumQuanta 1 := by
  have hone : -(-elapsed / policy.length) = 1 := by
    apply le_antisymm
    · rw [neg_le, Int.le_ediv_iff_mul_le policy.length_pos]
      linarith
    · rw [le_neg, ← Int.lt_add_one_iff, Int.ediv_lt_iff_lt_mul policy.length_pos]
      linarith
  rw [BillingPolicy.quanta, hone]

theorem calculateUsageCharge_utc {start finish : ℤ} (hstart : InRange start)
    (hfinish : InRange finish) (hle : start ≤ finish) (price : PriceSnapshot) :
    calculateUsageCharge (.utc start) (.utc finish) price =
      price.charge (price.policy.quanta (finish - start)) := by
  have hinstant : ∀ instant, (Moment.utc instant).instant = instant := fun _ ↦ sub_zero _
  have hutc : ∀ instant, InRange instant → toUtc (.utc instant) = .ok instant :=
    fun instant hrange ↦ toUtc_eq_ok.mpr ⟨(hinstant instant).symm ▸ hrange, hinstant instant⟩
  change (do chargeBetween (← toUtc (.utc start)) (← toUtc (.utc finish)) price) = _
  rw [hutc start hstart, hutc finish hfinish, ok_bind, ok_bind, chargeBetween,
    rejectIf_bind (by simpa using hle)]

/-! ### Windows and their pieces -/

theorem mem_pairwise {α : Type} {R : α → α → Prop} {xs : List α} (h : xs.Pairwise R) :
    ∀ both ∈ pairwise xs, R both.1 both.2 := by
  induction xs with
  | nil => exact fun both hboth ↦ absurd hboth List.not_mem_nil
  | cons first rest ih =>
    obtain ⟨hfirst, hrest⟩ := List.pairwise_cons.mp h
    cases rest with
    | nil => exact fun both hboth ↦ absurd hboth List.not_mem_nil
    | cons second rest =>
      intro both hboth
      cases List.mem_cons.mp hboth with
      | inl heq =>
        rw [heq]
        exact hfirst second List.mem_cons_self
      | inr hmem => exact ih hrest both hmem

theorem mapM_toUtc_eq_ok {periods : List (ℤ × PriceSnapshot)} :
    (schedule.mapM fun period ↦ do return (← toUtc period.effectiveFrom, period.price)) =
        (.ok periods : Result _) ↔
      (∀ period ∈ schedule, InRange period.effectiveFrom.instant) ∧ periods = stepsOf schedule := by
  have hsteps : ∀ periods : List (ℤ × PriceSnapshot), (schedule.mapM fun period ↦ do
      return (← toUtc period.effectiveFrom, period.price)) = (.ok periods : Result _) →
        periods = stepsOf schedule := by
    intro periods h
    have hmap : periods.map id = stepsOf schedule := by
      refine map_of_mapM_eq_ok (fun period _ step hstep ↦ ?_) h
      obtain ⟨instant, hinstant, hstep⟩ := bind_eq_ok.mp hstep
      rw [← pure_eq_ok.mp hstep, (toUtc_eq_ok.mp hinstant).2]
      rfl
    rwa [List.map_id] at hmap
  constructor
  · intro h
    refine ⟨fun period hperiod ↦ ?_, hsteps periods h⟩
    obtain ⟨step, hstep⟩ := exists_of_mapM_eq_ok h hperiod
    obtain ⟨instant, hinstant, -⟩ := bind_eq_ok.mp hstep
    exact (toUtc_eq_ok.mp hinstant).1
  · rintro ⟨hrange, rfl⟩
    obtain ⟨periods, hperiods⟩ := mapM_eq_ok_of_forall
      (f := fun period : PricedPeriod ↦ do return (← toUtc period.effectiveFrom, period.price))
      fun period hperiod ↦ ⟨_, by rw [toUtc_eq_ok.mpr ⟨hrange period hperiod, rfl⟩]; rfl⟩
    rw [hperiods, hsteps periods hperiods]

section Windows

variable {started ended : Moment} {schedule : List PricedPeriod} {policy : BillingPolicy}

variable {segments : List UsageSegment} {instant : ℤ}

/-- What the checks of `calculate_usage_segments` leave of a window. -/
theorem Window.calculate_eq_ok (h : Window started ended schedule policy) :
    calculateUsageSegments started ended schedule = .ok segments ↔
      InRange started.instant ∧ InRange ended.instant ∧
        (∀ period ∈ schedule, InRange period.effectiveFrom.instant) ∧
          if ended.instant = started.instant then segments = []
          else segmentsBetween (stepsOf schedule) policy.quantumSeconds started.instant
            ended.instant = .ok segments := by
  obtain ⟨covering, hcovering, -⟩ := h.covers
  have hascending : ((pairwise (stepsOf schedule)).any fun both ↦ both.2.1 < both.1.1) = false := by
    rw [List.any_eq_false]
    intro both hboth
    have hsteps : (stepsOf schedule).Pairwise fun earlier later ↦ earlier.1 ≤ later.1 :=
      List.pairwise_map.mpr h.ascending
    simpa using mem_pairwise hsteps both hboth
  have haware : (schedule.forM fun period ↦ rejectIf period.effectiveFrom.naive .valueError
      "PricedPeriod.effective_from must be timezone-aware") = .ok () :=
    forM_eq_ok.mpr fun period hperiod ↦ by rw [h.schedule_aware period hperiod]; rfl
  obtain ⟨first, rest, rfl⟩ := List.exists_cons_of_ne_nil (List.ne_nil_of_mem hcovering)
  have hquantum : first.price.policy = policy := h.policy_eq first List.mem_cons_self
  unfold calculateUsageSegments
  rw [rejectIf_bind h.started_aware, rejectIf_bind h.ended_aware]
  constructor
  · intro hok
    obtain ⟨start, hstart, hok⟩ := bind_eq_ok.mp hok
    obtain ⟨hstartRange, rfl⟩ := toUtc_eq_ok.mp hstart
    obtain ⟨finish, hfinish, hok⟩ := bind_eq_ok.mp hok
    obtain ⟨hfinishRange, rfl⟩ := toUtc_eq_ok.mp hfinish
    obtain ⟨-, hok⟩ := rejectIf_bind_eq_ok.mp hok
    dsimp only at hok
    rw [haware, ok_bind] at hok
    obtain ⟨periods, hperiods, hok⟩ := bind_eq_ok.mp hok
    obtain ⟨hscheduleRange, rfl⟩ := mapM_toUtc_eq_ok.mp hperiods
    obtain ⟨-, hok⟩ := rejectIf_bind_eq_ok.mp hok
    refine ⟨hstartRange, hfinishRange, hscheduleRange, ?_⟩
    by_cases hempty : ended.instant = started.instant
    · rw [if_pos hempty] at hok ⊢
      exact (pure_eq_ok.mp hok).symm
    · rw [if_neg hempty] at hok ⊢
      rwa [hquantum] at hok
  · rintro ⟨hstartRange, hfinishRange, hscheduleRange, hsegments⟩
    rw [toUtc_eq_ok.mpr ⟨hstartRange, rfl⟩, ok_bind, toUtc_eq_ok.mpr ⟨hfinishRange, rfl⟩, ok_bind,
      rejectIf_bind (by simpa using h.ordered)]
    dsimp only
    rw [haware, ok_bind, mapM_toUtc_eq_ok.mpr ⟨hscheduleRange, rfl⟩, ok_bind,
      rejectIf_bind hascending]
    by_cases hempty : ended.instant = started.instant
    · rw [if_pos hempty] at hsegments ⊢
      rw [hsegments]
      rfl
    · rw [if_neg hempty] at hsegments ⊢
      rwa [hquantum]

/-- The segments between two instants are those of the pieces that the grid cuts. -/
theorem segmentsBetween_eq_ok {steps : List (ℤ × PriceSnapshot)} {start finish : ℤ}
    (hlt : start < finish) (hstart : InRange start) :
    segmentsBetween steps policy.quantumSeconds start finish = .ok segments ↔
      InRange (Cells.atLeast policy.length finish) ∧ ∃ pieces,
        Cut policy.length start finish pieces ∧ pieces.mapM (segmentOf steps) = .ok segments := by
  have hproper : ∀ pieces, Cut policy.length start finish pieces →
      (pieces.filter fun cut ↦ cut.1 < cut.2) = pieces := by
    intro pieces hcut
    exact List.filter_eq_self.mpr fun piece hpiece ↦
      decide_eq_true (hcut.bounds policy.length_pos piece hpiece).1
  unfold segmentsBetween
  constructor
  · intro h
    obtain ⟨boundaries, hboundaries, h⟩ := bind_eq_ok.mp h
    obtain ⟨hcut, hend⟩ := gridBoundaries_cut policy.quantum_pos hlt hboundaries
    rw [hproper _ hcut] at h
    exact ⟨hend, _, hcut, h⟩
  · rintro ⟨hend, pieces, hpieces, hsegments⟩
    obtain ⟨boundaries, hboundaries⟩ := gridBoundaries_isOk policy.quantum_pos hlt hstart hend
    obtain ⟨hcut, -⟩ := gridBoundaries_cut policy.quantum_pos hlt hboundaries
    rw [hboundaries, ok_bind, hproper _ hcut, ← hpieces.unique hcut]
    exact hsegments

/-! ### Segments of pieces -/

/-- The segment of a piece carries the charge of one quantum at the price of its start. -/
theorem segmentOf_eq_ok (h : Window started ended schedule policy) {piece : ℤ × ℤ}
    (hfirst : InRange piece.1) (hsecond : InRange piece.2) (hlt : piece.1 < piece.2)
    (hshort : piece.2 - piece.1 ≤ policy.length) {segment : UsageSegment} :
    segmentOf (stepsOf schedule) piece = .ok segment ↔ segment.ends = piece ∧
      ∃ period ∈ schedule, effectiveAt schedule piece.1 = some period ∧
        calculateUsageCharge (.utc piece.1) (.utc piece.2) period.price = .ok segment.charge ∧
          period.price.charge (max policy.minimumQuanta 1) = .ok segment.charge := by
  have hcharge : ∀ period ∈ schedule,
      calculateUsageCharge (.utc piece.1) (.utc piece.2) period.price =
        period.price.charge (max policy.minimumQuanta 1) := by
    intro period hperiod
    rw [calculateUsageCharge_utc hfirst hsecond hlt.le, h.policy_eq period hperiod,
      quanta_of_cell (by omega) hshort]
  unfold segmentOf
  constructor
  · intro hok
    obtain ⟨price, hprice, hok⟩ := bind_eq_ok.mp hok
    obtain ⟨charge, hcharged, hdone⟩ := bind_eq_ok.mp hok
    obtain ⟨period, hperiod, heq⟩ := (priceAt_eq_ok h.ascending).mp hprice
    have hmem := (List.mem_filter.mp (List.mem_of_getLast? hperiod)).1
    rw [← heq] at hcharged
    rw [← pure_eq_ok.mp hdone]
    exact ⟨rfl, period, hmem, hperiod, hcharged, (hcharge period hmem).symm.trans hcharged⟩
  · rintro ⟨rfl, period, hmem, hperiod, hok, -⟩
    rw [(priceAt_eq_ok h.ascending).mpr ⟨period, hperiod, rfl⟩, ok_bind, hok]
    rfl

/-- The segments of a window are those of its pieces, if they can be had. -/
theorem Window.segments_iff (h : Window started ended schedule policy) :
    calculateUsageSegments started ended schedule = .ok segments ↔
      InRange started.instant ∧ InRange ended.instant ∧
        (∀ period ∈ schedule, InRange period.effectiveFrom.instant) ∧
          (ended.instant = started.instant ∧ segments = [] ∨
            started.instant < ended.instant ∧ InRange (Cells.atLeast policy.length ended.instant) ∧
              ∃ pieces, Cut policy.length started.instant ended.instant pieces ∧
                pieces.mapM (segmentOf (stepsOf schedule)) = .ok segments) := by
  rw [h.calculate_eq_ok]
  refine and_congr_right fun hstart ↦ and_congr_right fun _ ↦ and_congr_right fun _ ↦ ?_
  by_cases hempty : ended.instant = started.instant
  · simp [hempty]
  · have hlt : started.instant < ended.instant := lt_of_le_of_ne h.ordered (Ne.symm hempty)
    rw [if_neg hempty, segmentsBetween_eq_ok hlt hstart]
    simp [hempty, hlt]

/-- An instant of the window begins a window with the same schedule, and it ends one. -/
theorem Window.before (h : Window started ended schedule policy)
    (hstart : started.instant ≤ instant) : Window started (.utc instant) schedule policy where
  started_aware := h.started_aware
  ended_aware := rfl
  ordered := hstart.trans_eq (sub_zero instant).symm
  schedule_aware := h.schedule_aware
  ascending := h.ascending
  policy_eq := h.policy_eq
  covers := h.covers

theorem Window.after (h : Window started ended schedule policy) (hstart : started.instant ≤ instant)
    (hfinish : instant ≤ ended.instant) : Window (.utc instant) ended schedule policy where
  started_aware := rfl
  ended_aware := h.ended_aware
  ordered := (sub_zero instant).trans_le hfinish
  schedule_aware := h.schedule_aware
  ascending := h.ascending
  policy_eq := h.policy_eq
  covers := by
    obtain ⟨period, hperiod, hcovers⟩ := h.covers
    exact ⟨period, hperiod, (hcovers.trans hstart).trans_eq (sub_zero instant).symm⟩

theorem mapM_append_eq_ok {α β : Type} {f : α → Result β} {first second : List α} {ys : List β}
    (h : (first ++ second).mapM f = .ok ys) :
    ∃ before after, first.mapM f = .ok before ∧ second.mapM f = .ok after ∧ ys = before ++ after := by
  rw [List.mapM_append] at h
  obtain ⟨before, hbefore, h⟩ := bind_eq_ok.mp h
  obtain ⟨after, hafter, h⟩ := bind_eq_ok.mp h
  exact ⟨before, after, hbefore, hafter, (pure_eq_ok.mp h).symm⟩

/-- At every grid instant the segments of a window are those before it and those after it. -/
theorem Window.additive (h : Window started ended schedule policy)
    (hsegments : calculateUsageSegments started ended schedule = .ok segments)
    (hgrid : policy.length ∣ instant) (hstart : started.instant ≤ instant)
    (hfinish : instant ≤ ended.instant) : ∃ before after,
      calculateUsageSegments started (.utc instant) schedule = .ok before ∧
      calculateUsageSegments (.utc instant) ended schedule = .ok after ∧
        segments = before ++ after := by
  have hinstant : (Moment.utc instant).instant = instant := sub_zero instant
  obtain ⟨hstartRange, hfinishRange, hscheduleRange, hcases⟩ := h.segments_iff.mp hsegments
  have hrange : InRange instant := ⟨hstartRange.1.trans hstart, hfinish.trans hfinishRange.2⟩
  have hbefore : ∀ before, calculateUsageSegments started (.utc instant) schedule = .ok before ↔
      instant = started.instant ∧ before = [] ∨ started.instant < instant ∧ ∃ pieces,
        Cut policy.length started.instant instant pieces ∧
          pieces.mapM (segmentOf (stepsOf schedule)) = .ok before := by
    intro before
    rw [(h.before hstart).segments_iff, hinstant, Cells.atLeast_of_dvd policy.length_pos hgrid]
    simp only [hstartRange, hrange, true_and, and_iff_right hscheduleRange]
  have hafter : ∀ after, calculateUsageSegments (.utc instant) ended schedule = .ok after ↔
      ended.instant = instant ∧ after = [] ∨ instant < ended.instant ∧
        InRange (Cells.atLeast policy.length ended.instant) ∧ ∃ pieces,
          Cut policy.length instant ended.instant pieces ∧
            pieces.mapM (segmentOf (stepsOf schedule)) = .ok after := by
    intro after
    rw [(h.after hstart hfinish).segments_iff, hinstant]
    simp only [hfinishRange, hrange, true_and, and_iff_right hscheduleRange]
  cases hcases with
  | inl hempty =>
    obtain ⟨heq, rfl⟩ := hempty
    have hmiddle : instant = started.instant := le_antisymm (hfinish.trans_eq heq) hstart
    exact ⟨[], [], (hbefore []).mpr (.inl ⟨hmiddle, rfl⟩),
      (hafter []).mpr (.inl ⟨heq.trans hmiddle.symm, rfl⟩), rfl⟩
  | inr hwindow =>
    obtain ⟨hlt, hend, pieces, hcut, hpieces⟩ := hwindow
    rcases hstart.eq_or_lt with hfirst | hfirst
    · rw [hfirst] at hcut hlt
      exact ⟨[], segments, (hbefore []).mpr (.inl ⟨hfirst.symm, rfl⟩),
        (hafter segments).mpr (.inr ⟨hlt, hend, pieces, hcut, hpieces⟩), rfl⟩
    rcases hfinish.eq_or_lt with hlast | hlast
    · rw [← hlast] at hcut
      exact ⟨segments, [], (hbefore segments).mpr (.inr ⟨hfirst, pieces, hcut, hpieces⟩),
        (hafter []).mpr (.inl ⟨hlast.symm, rfl⟩), (List.append_nil _).symm⟩
    -- The pieces of both windows, which are those of the whole.
    have hcuts : ∀ start finish, start < finish → InRange start →
        InRange (Cells.atLeast policy.length finish) →
          ∃ pieces, Cut policy.length start finish pieces := by
      intro start finish hlt hrange hend
      obtain ⟨boundaries, hboundaries⟩ := gridBoundaries_isOk policy.quantum_pos hlt hrange hend
      exact ⟨_, (gridBoundaries_cut policy.quantum_pos hlt hboundaries).1⟩
    obtain ⟨first, hcutFirst⟩ := hcuts started.instant instant hfirst hstartRange
      (by rwa [Cells.atLeast_of_dvd policy.length_pos hgrid])
    obtain ⟨second, hcutSecond⟩ := hcuts instant ended.instant hlast hrange hend
    rw [hcut.unique (hcutFirst.append policy.length_pos hgrid hcutSecond)] at hpieces
    obtain ⟨before, after, hofFirst, hofSecond, rfl⟩ := mapM_append_eq_ok hpieces
    exact ⟨before, after, (hbefore before).mpr (.inr ⟨hfirst, first, hcutFirst, hofFirst⟩),
      (hafter after).mpr (.inr ⟨hlast, hend, second, hcutSecond, hofSecond⟩), rfl⟩

/-- Every piece lies in the range of a `datetime`. -/
theorem range_of_piece {start finish : ℤ} {pieces : List (ℤ × ℤ)} (hstart : InRange start)
    (hfinish : InRange finish) (hcut : Cut policy.length start finish pieces) {piece : ℤ × ℤ}
    (hpiece : piece ∈ pieces) : InRange piece.1 ∧ InRange piece.2 := by
  obtain ⟨hlt, -, hfirst, hsecond⟩ := hcut.bounds policy.length_pos piece hpiece
  exact ⟨⟨hstart.1.trans hfirst, (hlt.le.trans hsecond).trans hfinish.2⟩,
    ⟨(hstart.1.trans hfirst).trans hlt.le, hsecond.trans hfinish.2⟩⟩

theorem exists_offset {moment : Moment} (h : moment.naive = false) :
    ∃ offset, moment.offset = some offset := by
  unfold Moment.naive at h
  cases hoffset : moment.offset with
  | none => simp [hoffset] at h
  | some offset => exact ⟨offset, rfl⟩

/-- The quanta of the whole window in one charge. -/
theorem Window.quanta_of_charge (h : Window started ended schedule policy) {price : PriceSnapshot}
    {charge : UsageCharge} (hpolicy : price.policy = policy)
    (hcharge : calculateUsageCharge started ended price = .ok charge) :
    charge.quanta = policy.quanta (ended.instant - started.instant) := by
  obtain ⟨startOffset, hstartOffset⟩ := exists_offset h.started_aware
  obtain ⟨endOffset, hendOffset⟩ := exists_offset h.ended_aware
  unfold calculateUsageCharge at hcharge
  rw [hstartOffset, hendOffset] at hcharge
  obtain ⟨start, hstart, hcharge⟩ := bind_eq_ok.mp hcharge
  obtain ⟨finish, hfinish, hcharge⟩ := bind_eq_ok.mp hcharge
  obtain ⟨-, hcharge⟩ := rejectIf_bind_eq_ok.mp hcharge
  rw [Usage.quanta_of_charge hcharge, hpolicy, (toUtc_eq_ok.mp hstart).2,
    (toUtc_eq_ok.mp hfinish).2]

/-- Segments that are returned are as they should be. -/
theorem Window.segmentedAs (h : Window started ended schedule policy)
    (hsegments : calculateUsageSegments started ended schedule = .ok segments) :
    SegmentedAs started ended schedule policy segments := by
  obtain ⟨hstartRange, hfinishRange, -, hcases⟩ := h.segments_iff.mp hsegments
  have hadditive : ∀ instant, policy.length ∣ instant → started.instant ≤ instant →
      instant ≤ ended.instant → _ := fun instant hgrid hstart hfinish ↦
    h.additive hsegments hgrid hstart hfinish
  cases hcases with
  | inl hempty =>
    obtain ⟨heq, rfl⟩ := hempty
    have hnone : (totalQuanta [] : ℤ) = 0 := rfl
    refine ⟨heq.symm, by simp, by simp, hadditive, fun _ ↦ ?_, fun _ price charge hpolicy hok ↦ ?_⟩
    · rw [hnone, heq, Finset.Ico_self]
      rfl
    · have hquanta : 0 ≤ charge.quanta := by
        rw [h.quanta_of_charge hpolicy hok]
        exact policy.minimum_nonneg.trans (le_max_left _ _)
      rw [hnone]
      omega
  | inr hwindow =>
    obtain ⟨hlt, -, pieces, hcut, hpieces⟩ := hwindow
    have hspec : ∀ piece ∈ pieces, ∀ segment, segmentOf (stepsOf schedule) piece = .ok segment →
        segment.ends = piece ∧ ∃ period ∈ schedule, effectiveAt schedule piece.1 = some period ∧
          calculateUsageCharge (.utc piece.1) (.utc piece.2) period.price = .ok segment.charge ∧
            period.price.charge (max policy.minimumQuanta 1) = .ok segment.charge := by
      intro piece hpiece segment hsegment
      obtain ⟨hfirst, hsecond⟩ := range_of_piece hstartRange hfinishRange hcut hpiece
      obtain ⟨hproper, hshort, -, -⟩ := hcut.bounds policy.length_pos piece hpiece
      exact (segmentOf_eq_ok h hfirst hsecond hproper hshort).mp hsegment
    have hends : segments.map (·.ends) = pieces.map id :=
      map_of_mapM_eq_ok (fun piece hpiece segment hsegment ↦ (hspec piece hpiece segment hsegment).1)
        hpieces
    rw [List.map_id] at hends
    have hmem : ∀ segment ∈ segments, ∃ piece ∈ pieces,
        segmentOf (stepsOf schedule) piece = .ok segment :=
      fun segment hsegment ↦ (mem_of_mapM_eq_ok hpieces).mp hsegment
    have htotal : policy.minimumQuanta ≤ 1 → totalQuanta segments = pieces.length := by
      intro hminimum
      have hquanta : segments.map (·.quanta) = pieces.map fun _ ↦ 1 := by
        refine map_of_mapM_eq_ok (fun piece hpiece segment hsegment ↦ ?_) hpieces
        obtain ⟨-, period, -, -, -, hcharged⟩ := hspec piece hpiece segment hsegment
        exact (Usage.quanta_of_charge hcharged).trans (max_eq_right hminimum)
      rw [totalQuanta, hquanta, List.map_const', List.sum_replicate]
      simp
    constructor
    · rw [hends]
      exact hcut.tiles policy.length_pos
    · intro segment hsegment
      obtain ⟨piece, hpiece, hok⟩ := hmem segment hsegment
      obtain ⟨rfl, -⟩ := hspec piece hpiece segment hok
      exact hcut.grid _ hpiece
    · intro segment hsegment
      obtain ⟨piece, hpiece, hok⟩ := hmem segment hsegment
      obtain ⟨rfl, period, -, hperiod, hcharged, -⟩ := hspec piece hpiece segment hok
      exact ⟨period, hperiod, hcharged⟩
    · exact hadditive
    · intro hminimum
      rw [htotal hminimum, hcut.length_eq_card policy.length_pos]
    · intro hminimum price charge hpolicy hok
      rw [htotal hminimum, h.quanta_of_charge hpolicy hok]
      exact (hcut.length_le policy.length_pos).trans
        (Int.add_le_add_right (le_max_right _ _) 1)

/-- The segments of a window are returned as they should be exactly if its datetimes, and the grid
instant after it, are ones in UTC and the prices in use can be multiplied. -/
theorem segmented_iff (h : Window started ended schedule policy) :
    Segmented started ended schedule policy ↔ Fits started ended schedule policy := by
  constructor
  · rintro ⟨segments, hsegments, -⟩
    obtain ⟨hstartRange, hfinishRange, hscheduleRange, hcases⟩ := h.segments_iff.mp hsegments
    refine ⟨hstartRange, hfinishRange, hscheduleRange, fun hlt ↦ ?_, ?_⟩
    · cases hcases with
      | inl hempty => exact absurd hempty.1 hlt.ne'
      | inr hwindow => exact hwindow.2.1
    · intro instant hgrid hstart hfinish period hperiod
      cases hcases with
      | inl hempty => omega
      | inr hwindow =>
        obtain ⟨-, -, pieces, hcut, hpieces⟩ := hwindow
        obtain ⟨piece, hpiece, rfl⟩ := hcut.exists_start policy.length_pos hgrid hstart hfinish
        obtain ⟨segment, hsegment⟩ := exists_of_mapM_eq_ok hpieces hpiece
        obtain ⟨hfirst, hsecond⟩ := range_of_piece hstartRange hfinishRange hcut hpiece
        obtain ⟨hproper, hshort, -, -⟩ := hcut.bounds policy.length_pos piece hpiece
        obtain ⟨-, other, -, hother, -, hcharged⟩ :=
          (segmentOf_eq_ok h hfirst hsecond hproper hshort).mp hsegment
        obtain rfl := Option.some.inj (hperiod.symm.trans hother)
        exact charge_eq_ok.mp ⟨_, hcharged⟩
  · intro hfits
    suffices hreturned : ∃ segments, calculateUsageSegments started ended schedule = .ok segments by
      obtain ⟨segments, hsegments⟩ := hreturned
      exact ⟨segments, hsegments, h.segmentedAs hsegments⟩
    rcases h.ordered.eq_or_lt with heq | hlt
    · exact ⟨[], h.segments_iff.mpr ⟨hfits.started_range, hfits.ended_range, hfits.schedule_range,
        .inl ⟨heq.symm, rfl⟩⟩⟩
    · obtain ⟨boundaries, hboundaries⟩ := gridBoundaries_isOk policy.quantum_pos hlt
        hfits.started_range (hfits.next_range hlt)
      have hcut := (gridBoundaries_cut policy.quantum_pos hlt hboundaries).1
      have hpieces : ∀ piece ∈ pairwise (started.instant :: boundaries ++ [ended.instant]),
          ∃ segment, segmentOf (stepsOf schedule) piece = .ok segment := by
        intro piece hpiece
        obtain ⟨hfirst, hsecond⟩ :=
          range_of_piece hfits.started_range hfits.ended_range hcut hpiece
        obtain ⟨hproper, hshort, hstart, hfinish⟩ := hcut.bounds policy.length_pos piece hpiece
        obtain ⟨period, hmem, hperiod⟩ := h.exists_effective hstart
        obtain ⟨charge, hcharge⟩ := charge_eq_ok.mpr (hfits.multiplies piece.1
          (hcut.grid piece hpiece).1 hstart (hproper.trans_le hfinish) period hperiod)
        refine ⟨⟨piece.1, piece.2, charge.quanta, charge.providerCost, charge.customerCharge⟩,
          (segmentOf_eq_ok h hfirst hsecond hproper hshort).mpr
            ⟨rfl, period, hmem, hperiod, ?_, hcharge⟩⟩
        rw [calculateUsageCharge_utc hfirst hsecond hproper.le, h.policy_eq period hmem,
          quanta_of_cell (by omega) hshort]
        exact hcharge
      obtain ⟨segments, hsegments⟩ := mapM_eq_ok_of_forall hpieces
      exact ⟨segments, h.segments_iff.mpr ⟨hfits.started_range, hfits.ended_range,
        hfits.schedule_range, .inr ⟨hlt, hfits.next_range hlt, _, hcut, hsegments⟩⟩⟩

end Windows

/-! ### A quantum longer than the calendar -/

/-- An amount in euros. -/
def euros (coefficient : ℕ) : Money where
  amount := .number ⟨false, coefficient, -2⟩
  currency := "EUR"
  currency_length := rfl
  currency_upper := by decide +kernel

/-- The price of a quantum, in force since the epoch. -/
def flatSchedule (policy : BillingPolicy) : List PricedPeriod :=
  [⟨.utc 0, ⟨euros 100, euros 150, policy⟩⟩]

/-- A window in 2024 from half past midnight to a quarter past two. -/
def windowStart : Moment := .utc 1704069000000000

def windowEnd : Moment := .utc 1704075300000000

theorem window_flat (policy : BillingPolicy) :
    Window windowStart windowEnd (flatSchedule policy) policy where
  started_aware := rfl
  ended_aware := rfl
  ordered := by decide
  schedule_aware := by simp [flatSchedule, Moment.utc, Moment.naive]
  ascending := List.pairwise_singleton _ _
  policy_eq := by simp [flatSchedule]
  covers := ⟨_, List.mem_singleton.mpr rfl, (by decide : (0 : ℤ) - 0 ≤ windowStart.instant)⟩

/-- The window is segmented by the hour. -/
theorem segmented_hourly : Segmented windowStart windowEnd (flatSchedule {}) {} := by
  refine (segmented_iff (window_flat {})).mpr ⟨by decide, by decide, ?_, fun _ ↦ by decide, ?_⟩
  · intro period hperiod
    rw [List.mem_singleton.mp hperiod]
    decide
  · intro instant _ _ _ period hperiod
    have hmem := (List.mem_filter.mp (List.mem_of_getLast? hperiod)).1
    rw [List.mem_singleton.mp hmem]
    exact ⟨⟨.number ⟨false, 100, -2⟩, by decide +kernel⟩, ⟨.number ⟨false, 150, -2⟩, by decide +kernel⟩⟩

/-- A quantum of ten thousand years. -/
def longPolicy : BillingPolicy where
  quantumSeconds := 315569520000

/-- The same window is charged as one quantum of ten thousand years, but it has no segments. -/
theorem not_segmented_long :
    Window windowStart windowEnd (flatSchedule longPolicy) longPolicy ∧
      calculateUsageCharge windowStart windowEnd ⟨euros 100, euros 150, longPolicy⟩ =
        .ok ⟨1, euros 100, euros 150⟩ ∧
      ¬ Segmented windowStart windowEnd (flatSchedule longPolicy) longPolicy := by
  refine ⟨window_flat longPolicy, rfl, ?_⟩
  rintro ⟨segments, hsegments, -⟩
  have hraised : calculateUsageSegments windowStart windowEnd (flatSchedule longPolicy) =
      raise .overflowError "date value out of range" := rfl
  rw [hraised] at hsegments
  exact raise_ne_ok hsegments

end CloudPlatform.Billing.Usage
