import CloudPlatform.Core.Timestamps

/-!
# Timestamps with any offset

`isoformat` of a datetime with the UTC offset of its zone, which may have seconds and microseconds of
its own. `fromIsoformat_moment` reads back every datetime.
-/

namespace CloudPlatform.Calendar

/-- Seconds, with their fraction if there is one. -/
def secondsChars (seconds micros : ℕ) : List Char :=
  digits 2 seconds ++ if micros = 0 then [] else '.' :: digits 6 micros

/-- The time of a day. -/
def clockChars (length : ℕ) : List Char :=
  digits 2 (length / 60000000 / 60) ++ ':' :: (digits 2 (length / 60000000 % 60) ++ ':' ::
    secondsChars (length % 60000000 / 1000000) (length % 1000000))

/-- The length of an offset; its seconds are left out where there are none. -/
def offsetClockChars (length : ℕ) : List Char :=
  digits 2 (length / 60000000 / 60) ++ ':' :: (digits 2 (length / 60000000 % 60) ++
    if length % 60000000 = 0 then []
    else ':' :: secondsChars (length % 60000000 / 1000000) (length % 1000000))

/-- A UTC offset. -/
def offsetChars (offset : ℤ) : List Char :=
  (if offset < 0 then '-' else '+') :: offsetClockChars offset.natAbs

namespace Moment

/-- The characters of `isoformat`. -/
def chars (moment : Moment) : List Char :=
  (dateText moment.wall).toList ++ 'T' :: (clockChars (moment.wall % day).toNat ++
    match moment.offset with
    | some offset => offsetChars offset
    | none => [])

/-- `moment.isoformat()`. -/
def isoformat (moment : Moment) : String :=
  String.ofList moment.chars

end Moment

example : (⟨1709251199500000, some (-12630000001)⟩ : Moment).isoformat =
    "2024-02-29T23:59:59.500000-03:30:30.000001" := by
  decide +kernel

/-! ### Reading back -/

theorem readClock_clockChars {length : ℕ} (h : (length : ℤ) < day) {rest : List Char}
    (hrest : ∀ c ∈ rest.head?, c ≠ '.') :
    readClock (clockChars length ++ rest) = some ((length : ℤ), rest) := by
  simp only [day, hour, second] at h
  have hclock := readClock_digits (length / 60000000) (length % 60000000 / 1000000)
    (length % 1000000) (by omega) (by omega) (by omega) hrest
  simp only [clockChars, secondsChars, List.append_assoc, List.cons_append]
  rw [hclock]
  simp only [second, Option.some.injEq, Prod.mk.injEq, and_true]
  omega

/-- The length of an offset is read back. -/
theorem readClock_offsetClockChars {length : ℕ} (h : (length : ℤ) < day) :
    readClock (offsetClockChars length) = some ((length : ℤ), []) := by
  by_cases hwhole : length % 60000000 = 0
  · simp only [day, hour, second] at h
    have hminutes : offsetClockChars length = digits 2 (length / 60000000 / 60) ++ ':' ::
        (digits 2 (length / 60000000 % 60) ++ []) := by
      rw [offsetClockChars, if_pos hwhole]
    rw [hminutes, readClock,
      readNumber_digits (by omega : length / 60000000 / 60 < 10 ^ 2)]
    simp only [Option.bind_eq_bind, Option.bind_some, readMinutes]
    rw [readNumber_digits (by omega : length / 60000000 % 60 < 10 ^ 2)]
    simp only [Option.bind_some, readClockSeconds]
    rw [if_neg (by simp only [second]; omega)]
    simp only [hour, second, Option.some.injEq, Prod.mk.injEq, and_true]
    omega
  · have hclock : offsetClockChars length = clockChars length ++ [] := by
      rw [offsetClockChars, if_neg hwhole, List.append_nil]
      rfl
    rw [hclock]
    exact readClock_clockChars h (by simp)

theorem readZone_offsetChars {offset : ℤ} (h : |offset| < day) :
    readZone (offsetChars offset) = some (some offset) := by
  have hlength : (offset.natAbs : ℤ) < day := by rwa [Int.natCast_natAbs]
  have hclock := readClock_offsetClockChars hlength
  have hzone : ∀ sign : Char, sign ≠ 'Z' → readZone (sign :: offsetClockChars offset.natAbs) =
      if sign = '+' then some (some (offset.natAbs : ℤ))
      else if sign = '-' then some (some (-(offset.natAbs : ℤ))) else none := by
    intro sign hsign
    rw [readZone, hclock]
    · rfl
    · exact fun hz ↦ absurd hz hsign
  unfold offsetChars
  by_cases hneg : offset < 0
  · rw [if_pos hneg, hzone '-' (by decide), if_neg (by decide), if_pos rfl]
    exact congrArg (fun length ↦ some (some length)) (by omega)
  · rw [if_neg hneg, hzone '+' (by decide), if_pos rfl]
    exact congrArg (fun length ↦ some (some length)) (by omega)

/-- A datetime is read back from its text. -/
theorem fromIsoformat_moment {moment : Moment} (hwall : InRange moment.wall)
    (hoffset : ∀ offset ∈ moment.offset, |offset| < day) :
    fromIsoformat moment.isoformat = some moment := by
  obtain ⟨wall, offset⟩ := moment
  have hday : ((wall % day).toNat : ℤ) = wall % day :=
    Int.toNat_of_nonneg (Int.emod_nonneg _ (by decide))
  have hlength : ((wall % day).toNat : ℤ) < day := by
    rw [hday]
    exact Int.emod_lt_of_pos _ (by decide)
  have hstart : midnight (dayOf wall) + wall % day = wall := by
    simp only [midnight, dayOf, day, hour, second]
    omega
  rw [fromIsoformat, Moment.isoformat, String.toList_ofList, Moment.chars, readDate_dateText hwall]
  simp only [Option.bind_eq_bind, Option.bind_some, readTime]
  cases offset with
  | none =>
    rw [readClock_clockChars hlength (by simp)]
    simp only [Option.bind_some, readZone, hday, hstart]
    rfl
  | some offset =>
    have hhead : ∀ c ∈ (offsetChars offset).head?, c ≠ '.' := by
      intro c hc
      rw [← Option.some.inj hc]
      split_ifs <;> decide
    rw [readClock_clockChars hlength hhead]
    simp only [Option.bind_some, readZone_offsetChars (hoffset offset rfl), hday, hstart]
    rfl

end CloudPlatform.Calendar
