import Mathlib.Order.SuccPred.IntervalSucc
import Mathlib.Algebra.Order.SuccPred
import CloudPlatform.Core.Python

/-!
# UTC instants and the civil calendar

An aware `datetime` is its number of microseconds since the epoch. The date of an instant is found
as `datetime` finds it, by cycles of 400, 100, 4 and 1 years; months are also counted in one line,
twelve to a year, and `firstDay` gives the day each begins. `monthStart` and `nextMonth` enclose
exactly the instants of one month (`mem_month_iff`). `isoformat` writes an instant as the text that
`parseIsoDatetime` reads.
-/

namespace CloudPlatform

namespace Calendar

/-- Microseconds of a second. -/
def second : ℤ := 1000000

/-- Microseconds of an hour. -/
def hour : ℤ := 3600 * second

/-- Microseconds of a day. -/
def day : ℤ := 24 * hour

def isLeap (year : ℤ) : Bool :=
  year % 4 = 0 ∧ (year % 100 ≠ 0 ∨ year % 400 = 0)

/-- The days before the first of January of a year, from the first of January of year 1. -/
def daysBeforeYear (year : ℤ) : ℤ :=
  365 * (year - 1) + (year - 1) / 4 - (year - 1) / 100 + (year - 1) / 400

/-- The days of a year before one of its months; month 13 gives the length of the year. -/
def daysBeforeMonth (leap : Bool) (month : ℕ) : ℕ :=
  [0, 31, 59, 90, 120, 151, 181, 212, 243, 273, 304, 334].getD (month - 1) 365 +
    if leap && 2 < month then 1 else 0

/-- The year of a day, counted from the first of January of year 1. -/
def yearOf (days : ℤ) : ℤ :=
  let n400 := days / 146097
  let n100 := days % 146097 / 36524
  let n4 := days % 146097 % 36524 / 1461
  let n1 := days % 146097 % 36524 % 1461 / 365
  let year := 400 * n400 + 100 * n100 + 4 * n4 + n1 + 1
  -- the last day of a leap cycle is the 366th of its last year
  if n1 = 4 ∨ n100 = 4 then year - 1 else year

/-- The month of a day of a year: an estimate that is right or one too late. -/
def monthOf (leap : Bool) (dayOfYear : ℕ) : ℕ :=
  let month := (dayOfYear + 50) / 32
  if dayOfYear < daysBeforeMonth leap month then month - 1 else month

theorem daysBeforeYear_succ (year : ℤ) :
    daysBeforeYear (year + 1) = daysBeforeYear year + 365 + if isLeap year then 1 else 0 := by
  unfold daysBeforeYear isLeap
  split <;> rename_i h <;> simp only [decide_eq_true_eq] at h <;> omega

/-- The days before a year, by its place in the cycles. -/
theorem daysBeforeYear_cycles {n400 n100 n4 n1 : ℤ} (h100 : 0 ≤ n100 ∧ n100 ≤ 3)
    (h4 : 0 ≤ n4 ∧ n4 ≤ 24) (h1 : 0 ≤ n1 ∧ n1 ≤ 3) :
    daysBeforeYear (400 * n400 + 100 * n100 + 4 * n4 + n1 + 1) =
      146097 * n400 + 36524 * n100 + 1461 * n4 + 365 * n1 := by
  have hfour : (400 * n400 + 100 * n100 + 4 * n4 + n1) / 4 = 100 * n400 + 25 * n100 + n4 := by
    omega
  have hcentury : (400 * n400 + 100 * n100 + 4 * n4 + n1) / 100 = 4 * n400 + n100 := by omega
  have hcycle : (400 * n400 + 100 * n100 + 4 * n4 + n1) / 400 = n400 := by omega
  have hyear (year : ℤ) : daysBeforeYear (year + 1) = 365 * year + year / 4 - year / 100 +
      year / 400 := by rw [daysBeforeYear]; simp only [Int.add_sub_cancel]
  rw [hyear, hfour, hcentury, hcycle]
  omega

/-- A year of the cycles is a leap year: the fourth, but of a century only the last. -/
theorem isLeap_cycles {n400 n100 n4 n1 : ℤ} (h4 : 0 ≤ n4 ∧ n4 ≤ 24) (h1 : n1 = 3) (h : n4 ≠ 24 ∨ n100 = 3) :
    isLeap (400 * n400 + 100 * n100 + 4 * n4 + n1 + 1) = true := by
  rw [isLeap, decide_eq_true_eq]
  omega

variable (days : ℤ)

/-- A day lies in its year. -/
theorem yearOf_spec :
    daysBeforeYear (yearOf days) ≤ days ∧ days < daysBeforeYear (yearOf days + 1) := by
  rw [daysBeforeYear_succ]
  unfold yearOf
  simp only
  generalize h400 : days / 146097 = n400
  generalize h100 : days % 146097 / 36524 = n100
  generalize h4 : days % 146097 % 36524 / 1461 = n4
  generalize h1 : days % 146097 % 36524 % 1461 / 365 = n1
  split
  · rename_i hlast
    by_cases hcentury : n100 = 4
    · have hyear : 400 * n400 + 100 * n100 + 4 * n4 + n1 + 1 - 1 =
          400 * n400 + 100 * 3 + 4 * 24 + 3 + 1 := by omega
      rw [hyear, daysBeforeYear_cycles (by omega) (by omega) (by omega),
        if_pos (isLeap_cycles (by omega) rfl (by omega))]
      omega
    · have hyear : 400 * n400 + 100 * n100 + 4 * n4 + n1 + 1 - 1 =
          400 * n400 + 100 * n100 + 4 * n4 + 3 + 1 := by omega
      rw [hyear, daysBeforeYear_cycles (by omega) (by omega) (by omega),
        if_pos (isLeap_cycles (by omega) rfl (by omega))]
      omega
  · rw [daysBeforeYear_cycles (by omega) (by omega) (by omega)]
    split <;> omega

/-- A day of a year lies in its month. -/
theorem monthOf_spec : ∀ leap : Bool, ∀ dayOfYear < 365 + leap.toNat,
    1 ≤ monthOf leap dayOfYear ∧ monthOf leap dayOfYear ≤ 12 ∧
      daysBeforeMonth leap (monthOf leap dayOfYear) ≤ dayOfYear ∧
      dayOfYear < daysBeforeMonth leap (monthOf leap dayOfYear + 1) := by
  decide +kernel

theorem daysBeforeMonth_thirteen (leap : Bool) :
    (daysBeforeMonth leap 13 : ℤ) = 365 + if leap then 1 else 0 := by
  cases leap <;> rfl

/-! ### Months in one line -/

/-- The first day of a month, the months counted twelve to a year. -/
def firstDay (index : ℤ) : ℤ :=
  daysBeforeYear (index / 12) + daysBeforeMonth (isLeap (index / 12)) ((index % 12).toNat + 1)

/-- The day of its year of a day. -/
def dayOfYear (days : ℤ) : ℕ :=
  (days - daysBeforeYear (yearOf days)).toNat

/-- The month of its year of a day. -/
def monthOfYear (days : ℤ) : ℕ :=
  monthOf (isLeap (yearOf days)) (dayOfYear days)

/-- The month of a day. -/
def monthIndex (days : ℤ) : ℤ :=
  12 * yearOf days + monthOfYear days - 1

theorem firstDay_of_month {year : ℤ} {month : ℕ} (h : 1 ≤ month ∧ month ≤ 12) :
    firstDay (12 * year + month - 1) =
      daysBeforeYear year + daysBeforeMonth (isLeap year) month := by
  have hyear : (12 * year + month - 1) / 12 = year := by omega
  have hmonth : ((12 * year + month - 1) % 12).toNat + 1 = month := by omega
  rw [firstDay, hyear, hmonth]

/-- The month after the twelfth begins the next year. -/
theorem firstDay_of_month_succ {year : ℤ} {month : ℕ} (h : 1 ≤ month ∧ month ≤ 12) :
    firstDay (12 * year + month) =
      daysBeforeYear year + daysBeforeMonth (isLeap year) (month + 1) := by
  by_cases hlast : month = 12
  · have hindex : 12 * year + (month : ℤ) = 12 * (year + 1) + (1 : ℕ) - 1 := by omega
    rw [hindex, firstDay_of_month (by omega), daysBeforeYear_succ, hlast, daysBeforeMonth_thirteen]
    simp [daysBeforeMonth]
    omega
  · have hindex : 12 * year + (month : ℤ) = 12 * year + (month + 1 : ℕ) - 1 := by omega
    rw [hindex, firstDay_of_month (by omega)]

theorem dayOfYear_spec : (dayOfYear days : ℤ) = days - daysBeforeYear (yearOf days) ∧
      dayOfYear days < 365 + (isLeap (yearOf days)).toNat := by
  obtain ⟨hyear, hnext⟩ := yearOf_spec days
  rw [daysBeforeYear_succ] at hnext
  unfold dayOfYear
  cases hleap : isLeap (yearOf days) with
  | false => simp [hleap] at hnext ⊢; omega
  | true => simp [hleap] at hnext ⊢; omega

/-- A day lies in its month. -/
theorem monthIndex_spec :
    firstDay (monthIndex days) ≤ days ∧ days < firstDay (monthIndex days + 1) := by
  obtain ⟨hday, hlt⟩ := dayOfYear_spec days
  obtain ⟨hone, htwelve, hstart, hend⟩ := monthOf_spec (isLeap (yearOf days)) _ hlt
  rw [monthIndex, Int.sub_add_cancel, monthOfYear, firstDay_of_month ⟨hone, htwelve⟩,
    firstDay_of_month_succ ⟨hone, htwelve⟩]
  omega

/-! ### Instants -/

/-- The day of an instant, from the first of January of year 1. -/
def dayOf (instant : ℤ) : ℤ :=
  instant / day + 719162

/-- The first instant of a day. -/
def midnight (days : ℤ) : ℤ :=
  (days - 719162) * day

/-- The first instant of a date. -/
def dateStart (year : ℤ) (month : ℕ) : ℤ :=
  midnight (daysBeforeYear year + daysBeforeMonth (isLeap year) month)

/-- `month_start_utc`: the first instant of the UTC calendar month that contains the instant. -/
def monthStart (instant : ℤ) : ℤ :=
  dateStart (yearOf (dayOf instant)) (monthOfYear (dayOf instant))

/-- The start of the month after the one that starts at the instant. -/
def nextMonth (start : ℤ) : ℤ :=
  let year := yearOf (dayOf start)
  let month := monthOfYear (dayOf start)
  if month = 12 then dateStart (year + 1) 1 else dateStart year (month + 1)

theorem monthOfYear_mem : 1 ≤ monthOfYear days ∧ monthOfYear days ≤ 12 := by
  obtain ⟨-, hlt⟩ := dayOfYear_spec days
  obtain ⟨hone, htwelve, -⟩ := monthOf_spec (isLeap (yearOf days)) _ hlt
  exact ⟨hone, htwelve⟩

theorem dayOf_midnight : dayOf (midnight days) = days := by
  simp only [dayOf, midnight, day, hour, second]
  omega

/-! ### Texts -/

/-- The last decimal digits of a number, as many as the width. -/
def digits : ℕ → ℕ → List Char
  | 0, _ => []
  | width + 1, n => digits width (n / 10) ++ [(n % 10).digitChar]

/-- A number padded with zeros to a width. -/
def pad (width n : ℕ) : String :=
  String.ofList (digits width n)

/-- The day of its month of a day. -/
def dayOfMonth (days : ℤ) : ℕ :=
  dayOfYear days - daysBeforeMonth (isLeap (yearOf days)) (monthOfYear days) + 1

/-- `%Y-%m-%d`. -/
def dateText (instant : ℤ) : String :=
  let days := dayOf instant
  s!"{pad 4 (yearOf days).toNat}-{pad 2 (monthOfYear days)}-{pad 2 (dayOfMonth days)}"

/-- `%H:%M`. -/
def clockText (instant : ℤ) : String :=
  let minutes := (instant % day / (60 * second)).toNat
  s!"{pad 2 (minutes / 60)}:{pad 2 (minutes % 60)}"

/-- `isoformat` of an aware UTC datetime. -/
def isoformat (instant : ℤ) : String :=
  let seconds := (instant % (60 * second) / second).toNat
  let micros := (instant % second).toNat
  let fraction := if micros = 0 then "" else "." ++ pad 6 micros
  s!"{dateText instant}T{clockText instant}:{pad 2 seconds}{fraction}+00:00"

example : isoformat 1709251199000001 = "2024-02-29T23:59:59.000001+00:00" := by decide +kernel

/-- A number of fixed width at the front of a text, and the rest. -/
def readNumber (width : ℕ) (text : List Char) : Option (ℕ × List Char) :=
  let taken := text.take width
  if taken.length = width ∧ taken.all Char.isDigit then
    some (taken.foldl (fun n c ↦ 10 * n + (c.toNat - 48)) 0, text.drop width)
  else none

/-- The text past one expected character. -/
def readChar (expected : Char) : List Char → Option (List Char)
  | c :: rest => if c = expected then some rest else none
  | [] => none

/-- The seconds, with a fraction of at most six digits, as microseconds. -/
def readSeconds (text : List Char) : Option (ℤ × List Char) := do
  let (seconds, rest) ← readNumber 2 text
  match rest with
  | '.' :: fraction =>
    let width := min 6 (fraction.takeWhile Char.isDigit).length
    let (value, rest) ← readNumber width fraction
    if width = 0 then none else some (seconds * second + value * 10 ^ (6 - width), rest)
  | rest => some (seconds * second, rest)

/-- The UTC offset at the end of a text; a text without one is taken as UTC. -/
def readOffset : List Char → Option ℤ
  | [] => some 0
  | sign :: rest => do
    let (hours, rest) ← readNumber 2 rest
    let rest ← readChar ':' rest
    let (minutes, rest) ← readNumber 2 rest
    if rest ≠ [] then none
    else if sign = '+' then some (hours * hour + minutes * 60 * second)
    else if sign = '-' then some (-(hours * hour + minutes * 60 * second))
    else none

/-- `_parse_iso_datetime`, for the extended calendar format. -/
def parseIsoDatetime (value : Option String) : Option ℤ := do
  let text := (value.getD "").toList.flatMap fun c ↦ if c = 'Z' then "+00:00".toList else [c]
  let (year, rest) ← readNumber 4 text
  let rest ← readChar '-' rest
  let (month, rest) ← readNumber 2 rest
  let rest ← readChar '-' rest
  let (dayNumber, rest) ← readNumber 2 rest
  let start := dateStart year month + (dayNumber - 1) * day
  if year = 0 ∨ month = 0 ∨ 12 < month ∨ dayNumber = 0 ∨
      dateStart (year + month / 12) (month % 12 + 1) ≤ start then none
  else match rest with
    | [] => some start
    | _ :: rest => do
      let (hours, rest) ← readNumber 2 rest
      let rest ← readChar ':' rest
      let (minutes, rest) ← readNumber 2 rest
      let (seconds, rest) ← match rest with
        | ':' :: rest => readSeconds rest
        | rest => some (0, rest)
      let offset ← readOffset rest
      if 24 ≤ hours ∨ 60 ≤ minutes ∨ 60 * second ≤ seconds then none
      else some (start + hours * hour + minutes * 60 * second + seconds - offset)

example : parseIsoDatetime (some "2024-02-29T23:59:59.000001Z") = some 1709251199000001 := by
  decide +kernel

@[simp] theorem length_digits (width n : ℕ) : (digits width n).length = width := by
  induction width generalizing n with
  | zero => rfl
  | succ width ih => rw [digits, List.length_append, ih, List.length_singleton]

theorem digitChar_injective {m n : ℕ} (hm : m < 10) (hn : n < 10)
    (h : m.digitChar = n.digitChar) : m = n := by
  have hcode := congrArg Char.toNat h
  rw [Nat.toNat_digitChar_of_lt_ten hm, Nat.toNat_digitChar_of_lt_ten hn] at hcode
  omega

/-- Numbers that fit the width are determined by their digits. -/
theorem digits_injective {width m n : ℕ} (hm : m < 10 ^ width) (hn : n < 10 ^ width)
    (h : digits width m = digits width n) : m = n := by
  induction width generalizing m n with
  | zero => omega
  | succ width ih =>
    obtain ⟨hinit, hlast⟩ := List.append_inj h (by rw [length_digits, length_digits])
    have htens := ih (by rw [pow_succ] at hm; omega) (by rw [pow_succ] at hn; omega) hinit
    have hones := digitChar_injective (Nat.mod_lt m (by decide)) (Nat.mod_lt n (by decide))
      (List.singleton_inj.mp hlast)
    omega

/-! ### The range of `datetime` -/

/-- The least and the greatest instant of a `datetime`. -/
def minInstant : ℤ := -62135596800000000

def maxInstant : ℤ := 253402300799999999

/-- The instant is one of a `datetime`. -/
def InRange (instant : ℤ) : Prop :=
  minInstant ≤ instant ∧ instant ≤ maxInstant

instance (instant : ℤ) : Decidable (InRange instant) :=
  inferInstanceAs (Decidable (_ ∧ _))

theorem yearOf_range {instant : ℤ} (h : InRange instant) :
    0 ≤ yearOf (dayOf instant) ∧ yearOf (dayOf instant) < 10000 := by
  obtain ⟨hstart, hend⟩ := yearOf_spec (dayOf instant)
  simp only [InRange, minInstant, maxInstant] at h
  simp only [dayOf, day, hour, second, daysBeforeYear] at hstart hend ⊢
  omega

theorem daysBeforeMonth_succ_le : ∀ leap : Bool, ∀ month < 13,
    daysBeforeMonth leap (month + 1) ≤ daysBeforeMonth leap month + 31 := by
  decide

theorem dayOfMonth_lt : dayOfMonth days < 100 := by
  obtain ⟨-, hlt⟩ := dayOfYear_spec days
  obtain ⟨-, htwelve, -, hend⟩ := monthOf_spec (isLeap (yearOf days)) _ hlt
  have hlength := daysBeforeMonth_succ_le (isLeap (yearOf days)) (monthOfYear days)
    (by rw [monthOfYear]; omega)
  rw [← monthOfYear] at hend
  unfold dayOfMonth
  omega

/-- A day can be read back from its date. -/
theorem day_of_date : days = daysBeforeYear (yearOf days) +
      daysBeforeMonth (isLeap (yearOf days)) (monthOfYear days) + dayOfMonth days - 1 := by
  obtain ⟨hday, hlt⟩ := dayOfYear_spec days
  obtain ⟨-, -, hstart, -⟩ := monthOf_spec (isLeap (yearOf days)) _ hlt
  rw [← monthOfYear] at hstart
  unfold dayOfMonth
  omega

theorem toList_dateText (instant : ℤ) : (dateText instant).toList =
    digits 4 (yearOf (dayOf instant)).toNat ++ '-' :: (digits 2 (monthOfYear (dayOf instant)) ++
      '-' :: digits 2 (dayOfMonth (dayOf instant))) := by
  simp [dateText, pad, toString]

/-- The text of a date determines the day. -/
theorem dateText_injective {first other : ℤ} (hfirst : InRange first) (hother : InRange other)
    (h : dateText first = dateText other) : dayOf first = dayOf other := by
  have hchars := congrArg String.toList h
  rw [toList_dateText, toList_dateText] at hchars
  obtain ⟨hyear, hrest⟩ := List.append_inj hchars (by rw [length_digits, length_digits])
  obtain ⟨hmonth, hday⟩ := List.append_inj (List.cons.inj hrest).2
    (by rw [length_digits, length_digits])
  have hyearFirst := yearOf_range hfirst
  have hyearOther := yearOf_range hother
  have hyear : yearOf (dayOf first) = yearOf (dayOf other) := by
    have hnat := digits_injective (by omega) (by omega) hyear
    omega
  have hmonth : monthOfYear (dayOf first) = monthOfYear (dayOf other) :=
    digits_injective (by have := monthOfYear_mem (dayOf first); omega)
      (by have := monthOfYear_mem (dayOf other); omega) hmonth
  have hday : dayOfMonth (dayOf first) = dayOfMonth (dayOf other) :=
    digits_injective (dayOfMonth_lt _) (dayOfMonth_lt _) (List.cons.inj hday).2
  rw [day_of_date (dayOf first), day_of_date (dayOf other), hyear, hmonth, hday]

theorem length_dateText (instant : ℤ) : (dateText instant).toList.length = 10 := by
  simp [toList_dateText]

/-- Instants of one day lie in one month. -/
theorem monthStart_of_dayOf {first other : ℤ} (h : dayOf first = dayOf other) :
    monthStart first = monthStart other := by
  rw [monthStart, monthStart, h]

end Calendar

end CloudPlatform
