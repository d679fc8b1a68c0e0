import CloudPlatform.Core.Calendar
import Mathlib.Tactic.Ring

/-!
# Timestamps in text

`datetime.fromisoformat` and arithmetic with `timedelta`. A datetime is what a clock on the wall
shows, with the offset of its zone unless it is naive; its instant is what comparisons of aware
datetimes are about. `fromIsoformat_isoformat` and `fromIsoformat_dateText` read back what
`isoformat` wrote.
-/

namespace CloudPlatform

namespace Calendar

/-- A `datetime`: its wall-clock time, and the UTC offset unless it is naive. -/
structure Moment where
  wall : ℤ
  offset : Option ℤ := none
  deriving DecidableEq

namespace Moment

/-- An aware UTC datetime. -/
def utc (instant : ℤ) : Moment where
  wall := instant
  offset := some 0

/-- `value.tzinfo is None`. -/
def naive (moment : Moment) : Bool :=
  moment.offset.isNone

/-- The instant of an aware datetime. -/
def instant (moment : Moment) : ℤ :=
  moment.wall - moment.offset.getD 0

/-- The longest `timedelta`, in days. -/
def maxDays : ℤ := 999999999

/-- `moment + timedelta(seconds=seconds)`; `None` where it raises `OverflowError`. -/
def plusSeconds (moment : Moment) (seconds : ℤ) : Option Moment :=
  let length := seconds * second
  if length < -maxDays * day ∨ (maxDays + 1) * day ≤ length then none
  else if InRange (moment.wall + length) then some { moment with wall := moment.wall + length }
  else none

end Moment

/-! ### Reading -/

/-- A date at the front of a text, as its first instant, and the rest. -/
def readDate (text : List Char) : Option (ℤ × List Char) := do
  let (year, rest) ← readNumber 4 text
  let rest ← readChar '-' rest
  let (month, rest) ← readNumber 2 rest
  let rest ← readChar '-' rest
  let (dayNumber, rest) ← readNumber 2 rest
  let start := dateStart year month + (dayNumber - 1) * day
  if year = 0 ∨ month = 0 ∨ 12 < month ∨ dayNumber = 0 ∨
      dateStart (year + month / 12) (month % 12 + 1) ≤ start then none
  else some (start, rest)

/-- Minutes, when there are any. -/
def readMinutes : List Char → Option (ℕ × List Char)
  | ':' :: rest => readNumber 2 rest
  | rest => some (0, rest)

/-- Seconds, when there are any. -/
def readClockSeconds : List Char → Option (ℤ × List Char)
  | ':' :: rest => readSeconds rest
  | rest => some (0, rest)

/-- A time of the day at the front of a text, and the rest. -/
def readClock (text : List Char) : Option (ℤ × List Char) := do
  let (hours, rest) ← readNumber 2 text
  let (minutes, rest) ← readMinutes rest
  let (seconds, rest) ← readClockSeconds rest
  if 24 ≤ hours ∨ 60 ≤ minutes ∨ 60 * second ≤ seconds then none
  else some (hours * hour + minutes * 60 * second + seconds, rest)

/-- The UTC offset at the end of a text, unless it has none. -/
def readZone : List Char → Option (Option ℤ)
  | [] => some none
  | ['Z'] => some (some 0)
  | sign :: rest => do
    let (length, rest) ← readClock rest
    if rest ≠ [] then none
    else if sign = '+' then some (some length)
    else if sign = '-' then some (some (-length))
    else none

/-- The time after a date, if there is one. -/
def readTime (start : ℤ) : List Char → Option Moment
  | [] => some { wall := start }
  | _ :: rest => do
    let (length, rest) ← readClock rest
    let offset ← readZone rest
    return { wall := start + length, offset := offset }

/-- `datetime.fromisoformat`, for the extended calendar format; `None` where it raises
`ValueError`. -/
def fromIsoformat (text : String) : Option Moment := do
  let (start, rest) ← readDate text.toList
  readTime start rest

example : fromIsoformat "2024-02-29T23:59:59.5+03:30" =
    some ⟨1709251199500000, some 12600000000⟩ := by
  decide +kernel

/-! ### Reading back -/

theorem isDigit_of_mem_digits {width n : ℕ} {c : Char} (h : c ∈ digits width n) :
    c.isDigit = true := by
  have hchars : ∀ m < 10, (Nat.digitChar m).isDigit = true := by decide
  induction width generalizing n with
  | zero => cases h
  | succ width ih =>
    rw [digits] at h
    rcases List.mem_append.mp h with hinit | hlast
    · exact ih hinit
    · rw [List.mem_singleton.mp hlast]
      exact hchars _ (Nat.mod_lt n (by decide))

theorem foldl_digits (width n start : ℕ) :
    (digits width n).foldl (fun n c ↦ 10 * n + (c.toNat - 48)) start =
      start * 10 ^ width + n % 10 ^ width := by
  have hchars : ∀ m < 10, (Nat.digitChar m).toNat - 48 = m := by decide
  induction width generalizing n with
  | zero => simp [digits, Nat.mod_one]
  | succ width ih =>
    rw [digits, List.foldl_append, ih]
    simp only [List.foldl_cons, List.foldl_nil]
    rw [hchars _ (Nat.mod_lt n (by decide)), pow_succ, mul_comm (10 ^ width) 10, Nat.mod_mul]
    ring

/-- A number of fixed width is read back. -/
theorem readNumber_digits {width n : ℕ} (hn : n < 10 ^ width) (rest : List Char) :
    readNumber width (digits width n ++ rest) = some (n, rest) := by
  have hlength := length_digits width n
  have htake : (digits width n ++ rest).take width = digits width n := by
    rw [List.take_append_of_le_length hlength.ge, List.take_of_length_le hlength.le]
  have hdrop : (digits width n ++ rest).drop width = rest := by
    rw [List.drop_append_of_le_length hlength.ge, List.drop_of_length_le hlength.le,
      List.nil_append]
  have hall : (digits width n).all Char.isDigit = true :=
    List.all_eq_true.mpr fun c hc ↦ isDigit_of_mem_digits hc
  unfold readNumber
  dsimp only
  rw [htake, hdrop, if_pos ⟨hlength, hall⟩, foldl_digits, Nat.zero_mul, Nat.zero_add,
    Nat.mod_eq_of_lt hn]

/-- The year of an instant is a year of `datetime`. -/
theorem yearOf_mem {instant : ℤ} (h : InRange instant) :
    1 ≤ yearOf (dayOf instant) ∧ yearOf (dayOf instant) < 10000 := by
  obtain ⟨hstart, hend⟩ := yearOf_spec (dayOf instant)
  simp only [InRange, minInstant, maxInstant] at h
  simp only [dayOf, day, hour, second, daysBeforeYear] at hstart hend ⊢
  omega

/-- The date of an instant is read back as the start of its day. -/
theorem readDate_dateText {instant : ℤ} (h : InRange instant) (rest : List Char) :
    readDate ((dateText instant).toList ++ rest) = some (midnight (dayOf instant), rest) := by
  obtain ⟨hyear, hyearEnd⟩ := yearOf_mem h
  obtain ⟨hmonth, hmonthEnd⟩ := monthOfYear_mem (dayOf instant)
  have hday := dayOfMonth_lt (dayOf instant)
  have hdayPos : 1 ≤ dayOfMonth (dayOf instant) := Nat.le_add_left 1 _
  have hyearNat : ((yearOf (dayOf instant)).toNat : ℤ) = yearOf (dayOf instant) := by omega
  rw [toList_dateText, List.append_assoc, readDate,
    readNumber_digits (by omega : (yearOf (dayOf instant)).toNat < 10 ^ 4)]
  simp only [Option.bind_eq_bind, Option.bind_some, List.cons_append, readChar, if_pos,
    List.append_assoc]
  rw [readNumber_digits (by omega : monthOfYear (dayOf instant) < 10 ^ 2)]
  simp only [Option.bind_some, if_pos]
  rw [readNumber_digits (by omega : dayOfMonth (dayOf instant) < 10 ^ 2)]
  simp only [Option.bind_some]
  have hstart : dateStart ((yearOf (dayOf instant)).toNat : ℤ) (monthOfYear (dayOf instant)) +
      ((dayOfMonth (dayOf instant) : ℤ) - 1) * day = midnight (dayOf instant) := by
    rw [hyearNat, dateStart, midnight, midnight]
    have hdate := day_of_date (dayOf instant)
    generalize dayOf instant = days at hdate
    have hfactor : (daysBeforeYear (yearOf days) +
        daysBeforeMonth (isLeap (yearOf days)) (monthOfYear days) : ℤ) =
          days - dayOfMonth days + 1 := by omega
    rw [hfactor]
    ring
  have hnext : midnight (dayOf instant) < dateStart (((yearOf (dayOf instant)).toNat : ℤ) +
      (monthOfYear (dayOf instant) : ℤ) / 12) (monthOfYear (dayOf instant) % 12 + 1) := by
    obtain ⟨-, hend⟩ := monthIndex_spec (dayOf instant)
    have hindex : monthIndex (dayOf instant) + 1 = 12 * (yearOf (dayOf instant) +
        (monthOfYear (dayOf instant) : ℤ) / 12) +
          (monthOfYear (dayOf instant) % 12 + 1 : ℕ) - 1 := by
      rw [monthIndex]
      omega
    rw [hindex, firstDay_of_month (by omega)] at hend
    rw [hyearNat, dateStart, midnight, midnight]
    simp only [day, hour, second]
    omega
  have hvalid : ¬ ((yearOf (dayOf instant)).toNat = 0 ∨ monthOfYear (dayOf instant) = 0 ∨
      12 < monthOfYear (dayOf instant) ∨ dayOfMonth (dayOf instant) = 0 ∨
        dateStart (((yearOf (dayOf instant)).toNat : ℤ) + (monthOfYear (dayOf instant) : ℤ) / 12)
          (monthOfYear (dayOf instant) % 12 + 1) ≤ midnight (dayOf instant)) := by
    omega
  rw [hstart, if_neg hvalid]

/-- Seconds and microseconds are read back. -/
theorem readSeconds_digits {seconds micros : ℕ} (hseconds : seconds < 100)
    (hmicros : micros < 1000000) {rest : List Char} (hrest : ∀ c ∈ rest.head?, c ≠ '.') :
    readSeconds (digits 2 seconds ++
      ((if micros = 0 then [] else '.' :: digits 6 micros) ++ rest)) =
        some (seconds * second + micros, rest) := by
  unfold readSeconds
  rw [readNumber_digits (by omega : seconds < 10 ^ 2)]
  by_cases hzero : micros = 0
  · rw [if_pos hzero, hzero]
    simp only [List.nil_append, Option.bind_eq_bind, Option.bind_some, Nat.cast_zero, add_zero]
    split
    · exact absurd rfl (hrest '.' rfl)
    · rfl
  · have hwidth : min 6 ((digits 6 micros ++ rest).takeWhile Char.isDigit).length = 6 := by
      rw [List.takeWhile_append_of_pos fun c hc ↦ isDigit_of_mem_digits hc, List.length_append,
        length_digits]
      omega
    rw [if_neg hzero]
    simp only [List.cons_append, Option.bind_eq_bind, Option.bind_some, hwidth]
    rw [readNumber_digits (by omega : micros < 10 ^ 6)]
    simp

/-- The time of a day is read back. -/
theorem readClock_digits (minutes seconds micros : ℕ) (hminutes : minutes < 1440)
    (hseconds : seconds < 60) (hmicros : micros < 1000000) {rest : List Char}
    (hrest : ∀ c ∈ rest.head?, c ≠ '.') :
    readClock (digits 2 (minutes / 60) ++ ':' :: (digits 2 (minutes % 60) ++ ':' ::
      (digits 2 seconds ++ ((if micros = 0 then [] else '.' :: digits 6 micros) ++ rest)))) =
        some (minutes * (60 * second) + seconds * second + micros, rest) := by
  unfold readClock
  rw [readNumber_digits (by omega : minutes / 60 < 10 ^ 2)]
  simp only [Option.bind_eq_bind, Option.bind_some, readMinutes]
  rw [readNumber_digits (by omega : minutes % 60 < 10 ^ 2)]
  simp only [Option.bind_some, readClockSeconds]
  rw [readSeconds_digits (by omega) hmicros hrest]
  simp only [Option.bind_some]
  rw [if_neg (by simp only [second]; omega)]
  simp only [hour, second, Option.some.injEq, Prod.mk.injEq, and_true]
  omega

end Calendar

end CloudPlatform
