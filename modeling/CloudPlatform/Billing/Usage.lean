import CloudPlatform.Core.Casing
import CloudPlatform.Core.Cells
import CloudPlatform.Core.Lists
import CloudPlatform.Pricing.Domain

/-!
# Usage in quanta

The charge of a usage window and its segments. A window is cut at the instants of the UTC grid of its
quantum inside it; every segment costs the price of the last period that is effective at its start.
`gridBoundaries_cut` says that the loop over the grid cuts the window, `gridBoundaries_isOk` that it
computes the first grid instant that is not before the end, which must be a `datetime` too.
-/

namespace CloudPlatform.Billing.Usage

open Calendar (InRange Moment maxInstant second)
open Cells (Cut)
open Decimals (Decimal)
open Pricing (defaultContext)

/-! ### Money -/

/-- A `Decimal`: a finite number, an infinite one or none. -/
inductive Amount
  | number (value : Decimal)
  | infinity (negative : Bool)
  | nan (signaling : Bool)
  deriving DecidableEq

/-- `amount * quanta`. -/
def Amount.times : Amount → ℤ → Result Amount
  | .number value, quanta => do
    return .number (← Fx.arithmetic (defaultContext.multiply value (Fx.decimalOfInt quanta)))
  | .infinity negative, quanta =>
    if quanta = 0 then raise .decimalInvalidOperation "InvalidOperation"
    else .ok (.infinity (negative != decide (quanta < 0)))
  | .nan signaling, _ =>
    if signaling then raise .decimalInvalidOperation "InvalidOperation" else .ok (.nan false)

/-- An amount in a currency of three letters. -/
structure Money where
  amount : Amount
  currency : String
  currency_length : currency.length = 3
  currency_upper : upper currency = currency

theorem length_upper (value : String) : (upper value).length = value.length := by
  rw [upper, String.length_ofList, List.length_map, String.length_toList]

/-- `Money(amount, currency)`. -/
def Money.construct (amount : Amount) (currency : String) : Result Money :=
  if h : currency.length = 3 then
    .ok ⟨amount, upper currency, (length_upper currency).trans h, upper_upper currency⟩
  else raise .valueError "currency must be an ISO-like 3-letter code"

/-- `Money(price.amount * quanta, price.currency)`. -/
def Money.times (price : Money) (quanta : ℤ) : Result Money := do
  Money.construct (← price.amount.times quanta) price.currency

/-- A price multiplies exactly if its amount does; the currency stays. -/
theorem Money.times_eq_ok {price charge : Money} {quanta : ℤ} : price.times quanta = .ok charge ↔
      price.amount.times quanta = .ok charge.amount ∧ charge.currency = price.currency := by
  have hconstruct : ∀ amount, Money.construct amount price.currency =
      .ok { price with amount := amount } := by
    intro amount
    rw [Money.construct, dif_pos price.currency_length]
    simp only [price.currency_upper]
  constructor
  · intro h
    obtain ⟨amount, hamount, h⟩ := bind_eq_ok.mp h
    rw [hconstruct] at h
    rw [← Except.ok.inj h]
    exact ⟨hamount, rfl⟩
  · rintro ⟨hamount, hcurrency⟩
    rw [Money.times, hamount, ok_bind, hconstruct]
    cases charge
    cases hcurrency
    rfl

/-! ### Prices and charges -/

/-- `BillingPolicy`. -/
structure BillingPolicy where
  quantumSeconds : ℤ := 3600
  minimumQuanta : ℤ := 1
  quantum_pos : 0 < quantumSeconds := by decide
  minimum_nonneg : 0 ≤ minimumQuanta := by decide

/-- `PriceSnapshot`. -/
structure PriceSnapshot where
  providerCostPerQuantum : Money
  customerPricePerQuantum : Money
  policy : BillingPolicy

/-- `UsageCharge`. -/
structure UsageCharge where
  quanta : ℤ
  providerCost : Money
  customerCharge : Money

/-- A quantum in microseconds. -/
def BillingPolicy.length (policy : BillingPolicy) : ℤ :=
  policy.quantumSeconds * second

theorem BillingPolicy.length_pos (policy : BillingPolicy) : 0 < policy.length :=
  mul_pos policy.quantum_pos (by decide)

/-- The quanta of a duration: begun ones count, and the minimum. -/
def BillingPolicy.quanta (policy : BillingPolicy) (elapsed : ℤ) : ℤ :=
  max policy.minimumQuanta (-(-elapsed / policy.length))

/-- `value.astimezone(UTC)` of an aware datetime, as its instant. -/
def toUtc (moment : Moment) : Result ℤ :=
  if InRange moment.instant then .ok moment.instant
  else raise .overflowError "date value out of range"

/-- The charge of a number of quanta. -/
def PriceSnapshot.charge (price : PriceSnapshot) (quanta : ℤ) : Result UsageCharge := do
  return {
    quanta := quanta
    providerCost := ← price.providerCostPerQuantum.times quanta
    customerCharge := ← price.customerPricePerQuantum.times quanta }

/-- The charge between two readings of one clock. -/
def chargeBetween (start finish : ℤ) (price : PriceSnapshot) : Result UsageCharge := do
  rejectIf (finish < start) .valueError "ended_at cannot be before started_at"
  price.charge (price.policy.quanta (finish - start))

/-- `calculate_usage_charge`. -/
def calculateUsageCharge (startedAt endedAt : Moment) (price : PriceSnapshot) : Result UsageCharge :=
  match startedAt.offset, endedAt.offset with
  | some _, some _ => do chargeBetween (← toUtc startedAt) (← toUtc endedAt) price
  | none, none => chargeBetween startedAt.wall endedAt.wall price
  | _, _ => raise .typeError "can't compare offset-naive and offset-aware datetimes"

/-! ### Segments -/

/-- `PricedPeriod`. -/
structure PricedPeriod where
  effectiveFrom : Moment
  price : PriceSnapshot

/-- `UsageSegment`, in UTC. -/
structure UsageSegment where
  start : ℤ
  finish : ℤ
  quanta : ℤ
  providerCost : Money
  customerCharge : Money

/-- `itertools.pairwise`. -/
def pairwise {α : Type} (xs : List α) : List (α × α) :=
  xs.zip xs.tail

/-- `instant + timedelta(seconds=seconds)` in UTC. -/
def addSeconds (instant seconds : ℤ) : Result ℤ :=
  match (Moment.utc instant).plusSeconds seconds with
  | some moment => .ok moment.wall
  | none => raise .overflowError "date value out of range"

/-- The `while` loop over the grid. It ends before the fuel of `gridBoundaries` does, since every round
goes on by a quantum. -/
def boundariesFrom (finish quantumSeconds : ℤ) : ℕ → ℤ → Result (List ℤ)
  | 0, _ => .ok []
  | fuel + 1, boundary =>
    if boundary < finish then do
      let following ← addSeconds boundary quantumSeconds
      return boundary :: (← boundariesFrom finish quantumSeconds fuel following)
    else .ok []

/-- `_grid_boundaries`; the epoch is the instant zero. -/
def gridBoundaries (start finish quantumSeconds : ℤ) : Result (List ℤ) := do
  let boundary ← addSeconds 0 ((start / second / quantumSeconds + 1) * quantumSeconds)
  boundariesFrom finish quantumSeconds (finish - boundary).toNat boundary

/-- The loop of `_price_at`. -/
def priceLoop (instant : ℤ) : Option PriceSnapshot → List (ℤ × PriceSnapshot) → Option PriceSnapshot
  | price, [] => price
  | price, period :: rest =>
    if period.1 ≤ instant then priceLoop instant (some period.2) rest else price

/-- `_price_at`. -/
def priceAt (periods : List (ℤ × PriceSnapshot)) (instant : ℤ) : Result PriceSnapshot :=
  match priceLoop instant none periods with
  | some price => .ok price
  | none => raise .valueError "no priced period covers the window start"

/-- The segment between two cut points. -/
def segmentOf (periods : List (ℤ × PriceSnapshot)) (cut : ℤ × ℤ) : Result UsageSegment := do
  let price ← priceAt periods cut.1
  let charge ← calculateUsageCharge (.utc cut.1) (.utc cut.2) price
  return ⟨cut.1, cut.2, charge.quanta, charge.providerCost, charge.customerCharge⟩

/-- The segments of a window that is not empty. -/
def segmentsBetween (periods : List (ℤ × PriceSnapshot)) (quantumSeconds start finish : ℤ) :
    Result (List UsageSegment) := do
  let boundaries ← gridBoundaries start finish quantumSeconds
  ((pairwise (start :: boundaries ++ [finish])).filter fun cut ↦ cut.1 < cut.2).mapM
    (segmentOf periods)

/-- `calculate_usage_segments`. -/
def calculateUsageSegments (startedAt endedAt : Moment) (schedule : List PricedPeriod) :
    Result (List UsageSegment) := do
  rejectIf startedAt.naive .valueError "started_at must be timezone-aware"
  rejectIf endedAt.naive .valueError "ended_at must be timezone-aware"
  let start ← toUtc startedAt
  let finish ← toUtc endedAt
  rejectIf (finish < start) .valueError "ended_at cannot be before started_at"
  match schedule with
  | [] => raise .valueError "schedule must have at least one priced period"
  | first :: _ =>
    schedule.forM fun period ↦ rejectIf period.effectiveFrom.naive .valueError
      "PricedPeriod.effective_from must be timezone-aware"
    let periods ← schedule.mapM fun period ↦ do return (← toUtc period.effectiveFrom, period.price)
    rejectIf ((pairwise periods).any fun both ↦ both.2.1 < both.1.1) .valueError
      "schedule must be ascending by effective_from"
    if finish = start then return []
    segmentsBetween periods first.price.policy.quantumSeconds start finish

/-! ### The loop over the grid -/

/-- A sum with a number of seconds is computed exactly if it is an instant of a `datetime`. -/
theorem addSeconds_eq {instant : ℤ} (h : InRange instant) (seconds : ℤ) :
    addSeconds instant seconds =
      if InRange (instant + seconds * second) then .ok (instant + seconds * second)
      else raise .overflowError "date value out of range" := by
  have hplus : (Moment.utc instant).plusSeconds seconds =
      if InRange (instant + seconds * second) then some (.utc (instant + seconds * second))
      else none := by
    unfold Moment.plusSeconds
    by_cases hsum : InRange (instant + seconds * second)
    · have hshort : ¬ (seconds * second < -Calendar.Moment.maxDays * Calendar.day ∨
          (Calendar.Moment.maxDays + 1) * Calendar.day ≤ seconds * second) := by
        simp only [InRange, Calendar.minInstant, maxInstant] at h hsum
        simp only [Calendar.Moment.maxDays, Calendar.day, Calendar.hour, second] at hsum ⊢
        omega
      rw [if_pos hsum]
      exact (if_neg hshort).trans (if_pos hsum)
    · rw [if_neg hsum]
      exact ite_eq_left_iff.mpr fun _ ↦ if_neg hsum
  unfold addSeconds
  rw [hplus]
  by_cases hsum : InRange (instant + seconds * second)
  · rw [if_pos hsum, if_pos hsum]
    rfl
  · rw [if_neg hsum, if_neg hsum]

section Grid

variable {start finish quantumSeconds : ℤ} (hquantum : 0 < quantumSeconds)

include hquantum

/-- The loop cuts what lies between a point and the end, and computes the first multiple that is not
before the end. -/
theorem boundariesFrom_cut (fuel : ℕ) : ∀ (start : ℤ) (boundaries : List ℤ), start < finish →
    InRange (Cells.next (quantumSeconds * second) start) →
    (finish - Cells.next (quantumSeconds * second) start).toNat ≤ fuel →
    boundariesFrom finish quantumSeconds fuel (Cells.next (quantumSeconds * second) start) =
      .ok boundaries →
    Cut (quantumSeconds * second) start finish (pairwise (start :: boundaries ++ [finish])) ∧
      InRange (Cells.atLeast (quantumSeconds * second) finish) := by
  have hlength : 0 < quantumSeconds * second := mul_pos hquantum (by decide)
  have hlast : ∀ start, start < finish → InRange (Cells.next (quantumSeconds * second) start) →
      ¬ Cells.next (quantumSeconds * second) start < finish →
      Cut (quantumSeconds * second) start finish (pairwise (start :: [] ++ [finish])) ∧
        InRange (Cells.atLeast (quantumSeconds * second) finish) := by
    intro start hlt hrange hend
    rw [not_lt] at hend
    exact ⟨.last hlt hend, by rwa [Cells.atLeast_eq_next hlength hlt hend]⟩
  induction fuel with
  | zero =>
    intro start boundaries hlt hrange hfuel h
    obtain rfl := Except.ok.inj h
    exact hlast start hlt hrange (by omega)
  | succ fuel ih =>
    intro start boundaries hlt hrange hfuel h
    rw [boundariesFrom] at h
    by_cases hbefore : Cells.next (quantumSeconds * second) start < finish
    · rw [if_pos hbefore, addSeconds_eq hrange] at h
      have hnext := Cells.next_of_dvd (Cells.dvd_next (quantumSeconds * second) start)
      rw [← hnext] at h
      by_cases hfollowing : InRange
          (Cells.next (quantumSeconds * second) (Cells.next (quantumSeconds * second) start))
      · rw [if_pos hfollowing, ok_bind] at h
        obtain ⟨rest, hrest, h⟩ := bind_eq_ok.mp h
        obtain rfl := pure_eq_ok.mp h
        obtain ⟨hcut, hend⟩ := ih _ rest hbefore hfollowing (by omega) hrest
        exact ⟨.step hbefore hcut, hend⟩
      · rw [if_neg hfollowing] at h
        exact absurd h raise_ne_ok
    · rw [if_neg hbefore] at h
      obtain rfl := Except.ok.inj h
      exact hlast start hlt hrange hbefore

theorem boundariesFrom_isOk (hend : InRange (Cells.atLeast (quantumSeconds * second) finish))
    (fuel : ℕ) : ∀ start : ℤ, InRange (Cells.next (quantumSeconds * second) start) →
    ∃ boundaries, boundariesFrom finish quantumSeconds fuel
      (Cells.next (quantumSeconds * second) start) = .ok boundaries := by
  have hlength : 0 < quantumSeconds * second := mul_pos hquantum (by decide)
  induction fuel with
  | zero => exact fun start _ ↦ ⟨[], rfl⟩
  | succ fuel ih =>
    intro start hrange
    rw [boundariesFrom]
    by_cases hbefore : Cells.next (quantumSeconds * second) start < finish
    · have hnext := Cells.next_of_dvd (Cells.dvd_next (quantumSeconds * second) start)
      -- The next multiple is not beyond the first one that is not before the end.
      have hle : Cells.next (quantumSeconds * second) (Cells.next (quantumSeconds * second) start) ≤
          Cells.atLeast (quantumSeconds * second) finish :=
        Cells.next_le_of_dvd hlength (Cells.dvd_atLeast _ finish)
          (hbefore.trans_le (Cells.le_atLeast hlength finish))
      have hlt := Cells.lt_next hlength (Cells.next (quantumSeconds * second) start)
      have hfollowing : InRange
          (Cells.next (quantumSeconds * second) (Cells.next (quantumSeconds * second) start)) :=
        ⟨hrange.1.trans hlt.le, hle.trans hend.2⟩
      obtain ⟨rest, hrest⟩ := ih _ hfollowing
      rw [if_pos hbefore, addSeconds_eq hrange, ← hnext, if_pos hfollowing, ok_bind, hrest]
      exact ⟨_, rfl⟩
    · rw [if_neg hbefore]
      exact ⟨[], rfl⟩

omit hquantum in
theorem firstBoundary_eq (start quantumSeconds : ℤ) :
    0 + (start / second / quantumSeconds + 1) * quantumSeconds * second =
      Cells.next (quantumSeconds * second) start := by
  rw [Cells.next, zero_add, mul_assoc, Int.ediv_ediv_of_nonneg (by decide), mul_comm second]

/-- The grid cuts a window that is not empty. -/
theorem gridBoundaries_cut (hlt : start < finish) {boundaries : List ℤ}
    (h : gridBoundaries start finish quantumSeconds = .ok boundaries) :
    Cut (quantumSeconds * second) start finish (pairwise (start :: boundaries ++ [finish])) ∧
      InRange (Cells.atLeast (quantumSeconds * second) finish) := by
  unfold gridBoundaries at h
  rw [addSeconds_eq (by decide), firstBoundary_eq] at h
  by_cases hrange : InRange (Cells.next (quantumSeconds * second) start)
  · rw [if_pos hrange, ok_bind] at h
    exact boundariesFrom_cut hquantum _ start boundaries hlt hrange le_rfl h
  · rw [if_neg hrange] at h
    exact absurd h raise_ne_ok

theorem gridBoundaries_isOk (hlt : start < finish) (hstart : InRange start)
    (hend : InRange (Cells.atLeast (quantumSeconds * second) finish)) :
    ∃ boundaries, gridBoundaries start finish quantumSeconds = .ok boundaries := by
  have hlength : 0 < quantumSeconds * second := mul_pos hquantum (by decide)
  have hrange : InRange (Cells.next (quantumSeconds * second) start) :=
    ⟨hstart.1.trans (Cells.lt_next hlength start).le,
      (Cells.next_le_of_dvd hlength (Cells.dvd_atLeast _ finish)
        (hlt.trans_le (Cells.le_atLeast hlength finish))).trans hend.2⟩
  unfold gridBoundaries
  rw [addSeconds_eq (by decide), firstBoundary_eq, if_pos hrange, ok_bind]
  exact boundariesFrom_isOk hquantum hend _ start hrange

end Grid

end CloudPlatform.Billing.Usage
