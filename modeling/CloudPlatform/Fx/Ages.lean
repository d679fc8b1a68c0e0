import CloudPlatform.Billing.Usage
import CloudPlatform.Fx.Snapshots

/-!
# Ages of quotes

The decimal arithmetic of the resolvers, and the age of a quote in seconds. A difference of two
datetimes has fewer digits than the working precision, so `secondsOf` loses nothing of it.
-/

namespace CloudPlatform.Fx

open Billing.Usage (addSeconds addSeconds_eq)
open Calendar (InRange Moment second)
open Decimals

/-- What `datetime.now(UTC)` can show. -/
abbrev Instant := {instant : ℤ // InRange instant}

/-- `_decimal_mul`. -/
def decimalMul (left right : Decimal) : Result Decimal :=
  arithmetic (workingContext.multiply left right)

/-- `_decimal_div`. -/
def decimalDiv (numerator denominator : Decimal) : Result Decimal :=
  arithmetic (workingContext.divide numerator denominator)

/-- `timedelta(seconds=seconds)`, in microseconds. -/
def timedelta (seconds : ℤ) : Result ℤ := do
  rejectIf (seconds * second < -Moment.maxDays * Calendar.day ||
      (Moment.maxDays + 1) * Calendar.day ≤ seconds * second) .overflowError
    "days must have magnitude <= 999999999"
  return seconds * second

theorem timedelta_eq_ok {seconds length : ℤ} (h : timedelta seconds = .ok length) :
    length = seconds * second := by
  obtain ⟨-, h⟩ := rejectIf_bind_eq_ok.mp h
  exact (pure_eq_ok.mp h).symm

/-- The seconds of a `timedelta`, from its microseconds. -/
def secondsOf (microseconds : ℤ) : Result Decimal :=
  decimalDiv (decimalOfInt microseconds) (.ofNat 1000000)

theorem toRat_decimalOfInt (value : ℤ) : (decimalOfInt value).toRat = value := by
  have hpow : (10 : ℚ) ^ (decimalOfInt value).exponent = 1 := zpow_zero 10
  rw [Decimal.toRat, hpow, mul_one, Decimal.signed]
  by_cases hsign : value < 0
  · have hnegative : (decimalOfInt value).negative = true := decide_eq_true hsign
    rw [if_pos hnegative]
    simp [decimalOfInt, abs_of_neg hsign]
  · have hnegative : (decimalOfInt value).negative = false := decide_eq_false hsign
    rw [if_neg (by simp [hnegative])]
    simp [decimalOfInt, abs_of_nonneg (not_lt.mp hsign)]

/-- A number of microseconds that the precision can hold. -/
theorem secondsOf_eq {microseconds : ℤ} (h : numDigits microseconds.natAbs ≤ 512) :
    ∃ seconds, secondsOf microseconds = .ok seconds ∧ seconds.toRat = microseconds / 1000000 := by
  have hmillion : Decimal.ofNat 1000000 = .ofNat (10 ^ 6) := rfl
  have hcoefficient : ((decimalOfInt microseconds).overPow 6).coefficient ≤ microseconds.natAbs :=
    coefficient_overPow_le (decimalOfInt microseconds) 6
  have hdigits : numDigits ((decimalOfInt microseconds).overPow 6).coefficient ≤ 512 :=
    (numDigits_mono hcoefficient).trans h
  have hlow : (0 : ℤ) - (6 : ℕ) ≤ ((decimalOfInt microseconds).overPow 6).exponent :=
    le_exponent_overPow (decimalOfInt microseconds) 6
  have hhigh : ((decimalOfInt microseconds).overPow 6).exponent ≤ 0 :=
    exponent_overPow_le (decimalOfInt microseconds) 6
  have hmax : workingContext.emax = 999999 := rfl
  have htiny : workingContext.etiny = -1000510 := rfl
  obtain ⟨seconds, hfix⟩ : ∃ seconds,
      workingContext.fix ((decimalOfInt microseconds).overPow 6) = .ok seconds :=
    fix_isOk (by decide) (by rw [hmax]; omega)
  refine ⟨seconds, ?_, ?_⟩
  · rw [secondsOf, decimalDiv, hmillion, divide_pow workingContext (decimalOfInt microseconds) 6 h,
      hfix]
    rfl
  · rw [eq_of_fix hfix hdigits (by omega) (fun _ ↦ by omega), toRat_overPow, toRat_decimalOfInt]
    norm_num

theorem addSeconds_eq_ok {instant seconds sum : ℤ} (h : InRange instant)
    (hsum : addSeconds instant seconds = .ok sum) :
    sum = instant + seconds * second ∧ InRange sum := by
  rw [addSeconds_eq h] at hsum
  by_cases hrange : InRange (instant + seconds * second)
  · rw [if_pos hrange] at hsum
    obtain rfl := Except.ok.inj hsum
    exact ⟨rfl, hrange⟩
  · rw [if_neg hrange] at hsum
    exact absurd hsum raise_ne_ok

theorem lt_of_addSeconds {seconds sum : ℤ} (hseconds : 0 < seconds) (now : Instant)
    (hsum : addSeconds now.val seconds = .ok sum) : now.val < sum := by
  obtain ⟨rfl, -⟩ := addSeconds_eq_ok now.property hsum
  simp only [second]
  omega

/-- The first instant of the date of an instant. -/
theorem midnight_range (now : Instant) : InRange (Calendar.midnight (Calendar.dayOf now.val)) := by
  have hnow := now.property
  simp only [InRange, Calendar.minInstant, Calendar.maxInstant] at hnow ⊢
  simp only [Calendar.midnight, Calendar.dayOf, Calendar.day, Calendar.hour, second]
  omega

/-- The digits of a difference of two datetimes. -/
theorem numDigits_sub_le {first other : ℤ} (hfirst : InRange first) (hother : InRange other) :
    numDigits (first - other).natAbs ≤ 512 := by
  refine (numDigits_le (k := 18) (by norm_num) ?_).trans (by norm_num)
  simp only [InRange, Calendar.minInstant, Calendar.maxInstant] at hfirst hother
  omega

end CloudPlatform.Fx
