import Mathlib.Data.Rat.Defs
import CloudPlatform.Compute.Domain
import CloudPlatform.Core.Calendar
import CloudPlatform.Wallets.Domain

/-!
# Price snapshots and settled periods

The immutable price of a server with its margin rule, and the business record of one settled period.
A period is paid under a ledger key made of the server and the whole second in which the period
starts; its entry also says in words which minutes it covers.
-/

namespace CloudPlatform.Billing

open Calendar (second)

/-- The greatest signed 64-bit integer. -/
def maxInt64 : ℤ := 9223372036854775807

/-! ### Pricing -/

/-- A margin rule: its pattern, and the optional monthly cap. -/
structure MarginRule where
  provider : String
  plan : String
  location : String
  monthlyCapMinor : Option ℤ := none
  deriving DecidableEq

/-- The provider cost side of an offer; `providerRateExact` is the exact native rate. -/
structure OfferCost where
  costMinor : ℤ
  currency : String
  providerRateExact : Option ℚ := none
  deriving DecidableEq

/-- The immutable price of one server. -/
structure ServerPriceSnapshot where
  serverId : Uuid
  offer : OfferCost
  sellingMinor : ℤ
  rule : MarginRule
  sellingCurrency : String
  deriving DecidableEq

/-- `_rule_key`. -/
def ruleKey (rule : MarginRule) : String :=
  strip rule.provider ++ "|" ++ strip rule.plan ++ "|" ++ strip rule.location

/-- `CURRENCY_EXPONENTS`. -/
def currencyExponents : List (String × ℕ) :=
  [("IRT", 0), ("IRR", 0), ("JPY", 0), ("KRW", 0), ("EUR", 2), ("GBP", 2), ("SGD", 2), ("AUD", 2),
    ("CAD", 2), ("USD", 2)]

/-- `currency_exponent`; a code that is no currency code is not in the table either. -/
def currencyExponent (currency : String) : Result ℕ :=
  match currencyExponents.lookup (upper (strip currency)) with
  | some exponent => .ok exponent
  | none => raise .fxUnsupportedCurrency
      s!"minor-unit exponent is not audited for currency '{upper (strip currency)}'"

/-- `minor_to_major`. -/
def minorToMajor (amountMinor : ℤ) (currency : String) : Result ℚ := do
  rejectIf (¬ (-2 ^ 63 ≤ amountMinor ∧ amountMinor ≤ maxInt64)) .valueError
    "amount_minor must be a signed 64-bit integer"
  let exponent ← currencyExponent currency
  return (amountMinor : ℚ) / (10 ^ exponent : ℕ)

/-- `_exact_cost_amount` of one quantum. -/
def exactCostAmount (snapshot : ServerPriceSnapshot) : Result ℚ :=
  match snapshot.offer.providerRateExact with
  | some rate => .ok rate
  | none =>
    if strip snapshot.offer.currency = snapshot.sellingCurrency then
      minorToMajor snapshot.offer.costMinor (strip snapshot.offer.currency)
    else raise .valueError
      ("exact provider rate is required for cross-currency financial accrual; refusing " ++
        "to reconstruct it from rounded minor units")

/-! ### Settled periods -/

/-- One settled quantum of usage. -/
structure AccrualPeriod where
  serverId : Uuid
  walletId : Uuid
  periodStart : ℤ
  periodEnd : ℤ
  sellingMinor : ℤ
  idempotencyKey : String
  quanta : ℤ := 1
  costMinor : ℤ := 0
  currency : String
  costCurrency : String
  sellingCurrency : String
  costAmount : Option ℚ := none
  ruleKey : Option String := none

/-- The checks and normalizations of `AccrualPeriod.__post_init__`. -/
def AccrualPeriod.validated (period : AccrualPeriod) : Result AccrualPeriod := do
  rejectIf (period.sellingMinor ≤ 0 || maxInt64 < period.sellingMinor) .valueError
    "selling_minor is outside signed int64 bounds"
  rejectIf (period.costMinor < 0 || maxInt64 < period.costMinor) .valueError
    "cost_minor is outside signed int64 bounds"
  rejectIf (period.quanta ≤ 0 || maxInt64 < period.quanta) .valueError
    "quanta is outside signed int64 bounds"
  rejectIf (period.periodEnd ≤ period.periodStart) .valueError
    "period_end must be after period_start"
  let code := upper (strip period.currency)
  rejectIf (currencyExponents.lookup code).isNone .valueError
    "currency must be an audited ISO code"
  rejectIf (currencyExponents.lookup (upper (strip period.costCurrency))).isNone .valueError
    "cost_currency must be an audited ISO code"
  rejectIf (currencyExponents.lookup (upper (strip period.sellingCurrency))).isNone .valueError
    "selling_currency must be an audited ISO code"
  rejectIf (period.costAmount.any (· < 0)) .valueError
    "cost_amount must be a non-negative finite Decimal"
  rejectIf (period.ruleKey.any (strip · = "")) .valueError
    "rule_key must be a non-empty string when supplied"
  return { period with
    currency := code
    costCurrency := upper (strip period.costCurrency)
    sellingCurrency := upper (strip period.sellingCurrency)
    ruleKey := period.ruleKey.map strip }

/-- A record that passes the checks has a price. -/
theorem AccrualPeriod.sellingMinor_pos {period checked : AccrualPeriod}
    (h : period.validated = .ok checked) : 0 < checked.sellingMinor := by
  obtain ⟨hprice, hrest⟩ := rejectIf_bind_eq_ok.mp h
  iterate 8 obtain ⟨-, hrest⟩ := rejectIf_bind_eq_ok.mp hrest
  rw [← pure_eq_ok.mp hrest]
  simp only [Bool.or_eq_false_iff, decide_eq_false_iff_not, not_le] at hprice
  exact hprice.1

/-- `_accrual_matches`: every immutable fact, not merely the key. -/
def accrualMatches (actual expected : AccrualPeriod) : Bool :=
  actual.serverId = expected.serverId ∧ actual.walletId = expected.walletId ∧
    actual.periodStart = expected.periodStart ∧ actual.periodEnd = expected.periodEnd ∧
    actual.sellingMinor = expected.sellingMinor ∧ actual.quanta = expected.quanta ∧
    actual.costMinor = expected.costMinor ∧ actual.currency = expected.currency ∧
    actual.costCurrency = expected.costCurrency ∧
    actual.sellingCurrency = expected.sellingCurrency ∧
    actual.ruleKey.getD "" = expected.ruleKey.getD "" ∧ actual.costAmount = expected.costAmount

/-- `accrual_charge_key`; the timestamp is truncated to the whole second. -/
def accrualChargeKey (serverId : Uuid) (periodStart : ℤ) : String :=
  "accrual:" ++ serverId.text ++ ":" ++ toString (periodStart.tdiv second)

/-- The description of the ledger entry of a period. -/
def usageDescription (periodStart periodEnd : ℤ) : String :=
  "usage " ++ Calendar.dateText periodStart ++ " " ++ Calendar.clockText periodStart ++ " to " ++
    Calendar.clockText periodEnd ++ " UTC"

variable {start other : ℤ}

theorem accrualChargeKey_inj {first second' : Uuid}
    (h : accrualChargeKey first start = accrualChargeKey second' other) :
    first = second' ∧ start.tdiv second = other.tdiv second := by
  have hchars := congrArg String.toList h
  simp only [accrualChargeKey, String.toList_append, List.append_assoc,
    List.append_cancel_left_eq] at hchars
  obtain ⟨hid, htime⟩ := List.append_inj hchars (by rw [Uuid.length_text, Uuid.length_text])
  refine ⟨Uuid.text_injective (String.toList_injective hid), ?_⟩
  exact toString_injective (String.toList_injective (List.append_cancel_left htime))

/-- The last second before the epoch and the first one after it have the same key, but lie on
different days. -/
theorem usageDescription_ne (hstart : -second < start ∧ start < 0)
    (hother : 0 ≤ other ∧ other < second) (finish finish' : ℤ) :
    usageDescription start finish ≠ usageDescription other finish' := by
  have hbefore : Calendar.dateText start = "1969-12-31" := by
    have hday : Calendar.dayOf start = Calendar.dayOf (-1) := by
      simp only [Calendar.dayOf, Calendar.day, Calendar.hour, second] at hstart ⊢
      omega
    rw [Calendar.dateText, hday]
    decide +kernel
  have hafter : Calendar.dateText other = "1970-01-01" := by
    have hday : Calendar.dayOf other = Calendar.dayOf 0 := by
      simp only [Calendar.dayOf, Calendar.day, Calendar.hour, second] at hother ⊢
      omega
    rw [Calendar.dateText, hday]
    decide +kernel
  intro h
  have hchars := congrArg String.toList h
  simp [usageDescription, hbefore, hafter] at hchars

/-- The seconds of two instants with the same whole-second timestamp are less than one apart, but
for the seconds on the two sides of the epoch. -/
theorem near_of_tdiv_eq (h : start.tdiv second = other.tdiv second) :
    (start - other < second ∧ other - start < second) ∨
      (-second < start ∧ start < 0) ∧ (0 ≤ other ∧ other < second) ∨
      (-second < other ∧ other < 0) ∧ (0 ≤ start ∧ start < second) := by
  have htrunc (t : ℤ) : t.tdiv second = if 0 ≤ t then t / second else -(-t / second) := by
    split
    · rename_i hsign
      exact Int.tdiv_eq_ediv_of_nonneg hsign
    · rename_i hsign
      rw [← Int.neg_tdiv_neg t second, Int.tdiv_neg, Int.tdiv_eq_ediv_of_nonneg (by omega)]
  rw [htrunc, htrunc] at h
  simp only [second] at h ⊢
  split at h <;> split at h <;> omega

/-- The key and the description of a charge determine its server and, to the second, when its
period starts. -/
theorem charge_determines {first second' : Uuid} {start other finish finish' : ℤ}
    (hkey : accrualChargeKey first start = accrualChargeKey second' other)
    (hdescription : usageDescription start finish = usageDescription other finish') :
    first = second' ∧ start - other < second ∧ other - start < second := by
  obtain ⟨hid, htime⟩ := accrualChargeKey_inj hkey
  refine ⟨hid, ?_⟩
  rcases near_of_tdiv_eq htime with hnear | ⟨hstart, hother⟩ | ⟨hother, hstart⟩
  · exact hnear
  · exact absurd hdescription (usageDescription_ne hstart hother _ _)
  · exact absurd hdescription.symm (usageDescription_ne hother hstart _ _)

/-- The description of a charge determines the day on which its period starts. -/
theorem dayOf_of_usageDescription {start other finish finish' : ℤ}
    (hstart : Calendar.InRange start) (hother : Calendar.InRange other)
    (h : usageDescription start finish = usageDescription other finish') :
    Calendar.dayOf start = Calendar.dayOf other := by
  have hchars := congrArg String.toList h
  simp only [usageDescription, String.toList_append, List.append_assoc,
    List.append_cancel_left_eq] at hchars
  obtain ⟨hdate, -⟩ := List.append_inj hchars
    (by rw [Calendar.length_dateText, Calendar.length_dateText])
  exact Calendar.dateText_injective hstart hother (String.toList_injective hdate)

/-- A charge key has no white space at its ends. -/
theorem strip_accrualChargeKey (serverId : Uuid) (start : ℤ) :
    strip (accrualChargeKey serverId start) = accrualChargeKey serverId start := by
  apply strip_eq_self
  · intro c hc
    simp [accrualChargeKey] at hc
    subst hc
    decide
  · obtain ⟨last, hlast, hdigit⟩ := isDigit_last_toString (start.tdiv second)
    intro c hc
    rw [accrualChargeKey, String.toList_append, List.getLast?_append, hlast, Option.some_or] at hc
    obtain rfl := Option.some.inj hc
    exact isSpace_of_isDigit hdigit

/-- The idempotency key of the hold that a checkout creates. -/
def createHoldKey (idempotencyKey : String) : String :=
  "server-create:" ++ idempotencyKey

/-- `instant + timedelta(seconds=seconds)`. -/
def addSeconds (instant seconds : ℤ) : Result ℤ := do
  let sum := instant + seconds * second
  rejectIf (¬ Calendar.InRange sum) .overflowError "date value out of range"
  return sum

theorem addSeconds_eq_ok {instant seconds sum : ℤ} (h : addSeconds instant seconds = .ok sum) :
    sum = instant + seconds * second := by
  obtain ⟨-, hdone⟩ := rejectIf_bind_eq_ok.mp h
  exact (pure_eq_ok.mp hdone).symm

theorem addSeconds_inRange {instant seconds sum : ℤ} (h : addSeconds instant seconds = .ok sum) :
    Calendar.InRange sum := by
  obtain ⟨hrange, hdone⟩ := rejectIf_bind_eq_ok.mp h
  rw [← pure_eq_ok.mp hdone]
  exact not_not.mp (of_decide_eq_false hrange)

end CloudPlatform.Billing
