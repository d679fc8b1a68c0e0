import CloudPlatform.Core.Dictionaries
import CloudPlatform.Core.ExactSums
import CloudPlatform.Core.Lists
import CloudPlatform.Fx.Domain

/-!
# The margin report

What the settled periods of a window brought in and what they cost. Revenues are whole minor units; costs
are exact decimals that are added up one by one, each in a context that is sized by the cost at hand, and
rounded up once at the end. `Tallied` says what the totals are after so many periods when no addition was
rounded.
-/

namespace CloudPlatform.Billing.Margins

open Decimals
open Dictionaries
open Fx (arithmetic majorToMinor)

/-! ### Periods and reports -/

/-- A settled period, with its exact provider cost if that is known. -/
structure AccrualPeriod where
  serverId : Uuid
  idempotencyKey : String
  periodStart : ℤ
  quanta : ℤ := 1
  sellingMinor : ℤ
  currency : String
  costCurrency : Option String := none
  sellingCurrency : Option String := none
  costAmount : Option Decimal := none
  sellingMinor_pos : 0 < sellingMinor := by decide
  currency_audited : (currencyExponents.lookup currency).isSome := by decide
  costCurrency_audited : ∀ code ∈ costCurrency, (currencyExponents.lookup code).isSome := by decide
  costAmount_nonneg : ∀ cost ∈ costAmount, cost.negativeValue = false := by decide

namespace AccrualPeriod

/-- `cost_currency or currency`. -/
def costSide (period : AccrualPeriod) : String :=
  if truthy period.costCurrency then textOf period.costCurrency else period.currency

/-- `selling_currency or currency`. -/
def sellingSide (period : AccrualPeriod) : String :=
  if truthy period.sellingCurrency then textOf period.sellingCurrency else period.currency

end AccrualPeriod

/-- `MarginAnomaly`. -/
structure MarginAnomaly where
  serverId : Uuid
  idempotencyKey : String
  periodStart : ℤ
  reason : String

/-- `ServerMargin`. -/
structure ServerMargin where
  serverId : Uuid
  quanta : ℤ
  revenueMinor : ℤ
  costMinor : ℤ
  revenueCurrency : String
  costCurrency : String

/-- `MarginReport`. -/
structure MarginReport where
  start : ℤ
  finish : ℤ
  periods : ℕ
  quanta : ℤ
  revenues : List (String × ℤ)
  costs : List (String × ℤ)
  perServer : List (Uuid × ServerMargin)
  anomalies : List MarginAnomaly

namespace MarginReport

/-- `first == second`; dictionaries are equal whatever the order of their keys. -/
structure Same (first second : MarginReport) : Prop where
  start : first.start = second.start
  finish : first.finish = second.finish
  periods : first.periods = second.periods
  quanta : first.quanta = second.quanta
  revenues : ∀ currency, first.revenues.lookup currency = second.revenues.lookup currency
  costs : ∀ currency, first.costs.lookup currency = second.costs.lookup currency
  perServer : ∀ server, first.perServer.lookup server = second.perServer.lookup server
  anomalies : first.anomalies = second.anomalies

end MarginReport

/-! ### The report -/

/-- The context of an addition, sized by the cost that is added. -/
def itemContext (cost : Decimal) : Context where
  precision := max 50 (numDigits cost.coefficient + 30)

/-- The totals of one server. -/
structure ServerState where
  quanta : ℤ := 0
  revenue : ℤ := 0
  cost : Decimal := .ofNat 0
  revenueCurrency : String
  costCurrency : String
  mixed : Bool := false

/-- The totals of the window. -/
structure Totals where
  revenues : List (String × ℤ) := []
  exactCosts : List (String × Decimal) := []
  perServer : List (Uuid × ServerState) := []
  anomalies : List MarginAnomaly := []
  quanta : ℤ := 0

/-- An anomaly of a period. -/
def anomalyOf (period : AccrualPeriod) (reason : String) : MarginAnomaly where
  serverId := period.serverId
  idempotencyKey := period.idempotencyKey
  periodStart := period.periodStart
  reason := reason

def costUnknown (period : AccrualPeriod) : MarginAnomaly :=
  anomalyOf period "COST_UNKNOWN: exact native cost is missing"

def currencyMismatch (period : AccrualPeriod) : MarginAnomaly :=
  anomalyOf period ("CURRENCY_MISMATCH: cost " ++ period.costSide ++ " != selling " ++
    period.sellingSide)

def negativeMargin (period : AccrualPeriod) (cost : Decimal) : MarginAnomaly :=
  anomalyOf period ("NEGATIVE_MARGIN: exact cost " ++ cost.text ++ " " ++ period.costSide ++
    " >= revenue " ++ intText period.sellingMinor ++ " " ++ period.sellingSide)

/-- The anomaly of a period whose two sides are compared. -/
def compared (period : AccrualPeriod) : Result (List MarginAnomaly) :=
  if period.costSide ≠ period.sellingSide then .ok [currencyMismatch period]
  else
    match period.costAmount with
    | none => .ok []
    | some cost => do
      let exponent ← currencyExponent period.costSide
      let exactCostMinor ← arithmetic ((itemContext cost).multiply cost (.ofNat (10 ^ exponent)))
      return if (period.sellingMinor : ℚ) ≤ exactCostMinor.toRat then [negativeMargin period cost]
        else []

/-- `total + cost_amount`, and the total itself without a cost. -/
def plusCost (total : Decimal) : Option Decimal → Result Decimal
  | none => .ok total
  | some cost => arithmetic ((itemContext cost).add total cost)

/-- The totals of a server with one more period. -/
def ServerState.next (state : ServerState) (period : AccrualPeriod) (cost : Decimal) : ServerState where
  quanta := state.quanta + period.quanta
  revenue := state.revenue + period.sellingMinor
  cost := cost
  revenueCurrency := period.sellingSide
  costCurrency := period.costSide
  mixed := state.mixed || state.revenueCurrency ≠ period.sellingSide ||
    state.costCurrency ≠ period.costSide

/-- The totals of the window with one more period: its currency's new cost total, its server's new cost
total, and what the comparison of its sides found. -/
def Totals.next (totals : Totals) (period : AccrualPeriod) (total cost : Decimal)
    (found : List MarginAnomaly) : Totals where
  revenues := assign totals.revenues period.sellingSide
    ((totals.revenues.lookup period.sellingSide).getD 0 + period.sellingMinor)
  exactCosts := if period.costAmount.isSome then assign totals.exactCosts period.costSide total
    else totals.exactCosts
  perServer := assign totals.perServer period.serverId (((totals.perServer.lookup period.serverId).getD
    { revenueCurrency := period.sellingSide, costCurrency := period.costSide }).next period cost)
  anomalies := totals.anomalies ++
    (if period.costAmount.isSome then [] else [costUnknown period]) ++ found
  quanta := totals.quanta + period.quanta

/-- One period of the report. -/
def addPeriod (totals : Totals) (period : AccrualPeriod) : Result Totals := do
  let total ← plusCost ((totals.exactCosts.lookup period.costSide).getD (.ofNat 0)) period.costAmount
  let state := (totals.perServer.lookup period.serverId).getD
    { revenueCurrency := period.sellingSide, costCurrency := period.costSide }
  let cost ← plusCost state.cost period.costAmount
  let found ← compared period
  return totals.next period total cost found

/-- A total as it is shown. -/
def costOf (entry : String × Decimal) : Result (String × ℤ) := do
  return (entry.1, ← majorToMinor entry.2 entry.1 .charge)

/-- `set(first) == set(second)`. -/
def sameKeys {α β : Type} (first : List (String × α)) (second : List (String × β)) : Bool :=
  (first.map (·.1)).all (· ∈ second.map (·.1)) && (second.map (·.1)).all (· ∈ first.map (·.1))

/-- `", ".join(sorted(set(first) | set(second)))`. -/
def currenciesOf {α β : Type} (first : List (String × α)) (second : List (String × β)) : String :=
  ", ".intercalate (((first.map (·.1) ++ second.map (·.1)).dedup).insertionSort (· ≤ ·))

def zeroUuid : Uuid :=
  ⟨"00000000-0000-0000-0000-000000000000", .refl true⟩

/-- The anomaly of a window that mixes currencies. -/
def mixedCurrency (start : ℤ) (currencies : String) : MarginAnomaly where
  serverId := zeroUuid
  idempotencyKey := "window"
  periodStart := start
  reason := "MIXED_CURRENCY: window mixes " ++ currencies

/-- The cost of a server as it is shown: nothing of one that mixes currencies. -/
def costDisplay (state : ServerState) : Result ℤ :=
  if state.mixed || state.cost.coefficient = 0 then .ok 0
  else majorToMinor state.cost state.costCurrency .charge

/-- The margin of one server. -/
def marginOf (entry : Uuid × ServerState) : Result (Uuid × ServerMargin) := do
  let costMinor ← costDisplay entry.2
  return (entry.1, {
    serverId := entry.1
    quanta := entry.2.quanta
    revenueMinor := entry.2.revenue
    costMinor := costMinor
    revenueCurrency := entry.2.revenueCurrency
    costCurrency := if entry.2.mixed then "MIXED" else entry.2.costCurrency })

/-- The order of `(period_start, reason)`. -/
def reportOrder (first second : MarginAnomaly) : Prop :=
  first.periodStart < second.periodStart ∨
    first.periodStart = second.periodStart ∧ first.reason ≤ second.reason

instance : DecidableRel reportOrder := fun first second ↦
  inferInstanceAs (Decidable (first.periodStart < second.periodStart ∨
    first.periodStart = second.periodStart ∧ first.reason ≤ second.reason))

/-- `report`, over the periods of the window. -/
def report (start finish : ℤ) (periods : List AccrualPeriod) : Result MarginReport := do
  rejectIf (finish ≤ start) .valueError "end must be after start"
  let totals ← periods.foldlM addPeriod {}
  let costs ← totals.exactCosts.mapM costOf
  let mixed : Bool := 1 < totals.revenues.length || 1 < costs.length ||
    !sameKeys totals.revenues costs
  let perServer ← totals.perServer.mapM marginOf
  let anomalies := totals.anomalies ++
    if mixed then [mixedCurrency start (currenciesOf totals.revenues costs)] else []
  return {
    start := start
    finish := finish
    periods := periods.length
    quanta := totals.quanta
    revenues := totals.revenues
    costs := costs
    perServer := perServer
    anomalies := anomalies.insertionSort reportOrder }

end CloudPlatform.Billing.Margins
