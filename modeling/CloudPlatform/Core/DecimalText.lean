import CloudPlatform.Core.Decimals
import CloudPlatform.Core.Python
import Mathlib.Data.Nat.Digits.Lemmas

/-!
# Texts of numbers

`Decimal(text)`, `int(text)` and the texts that `str` gives to decimals. Reading accepts every
spelling that Python accepts, in decimal digits of any script; `parse_text` and `parseInt_toString`
say that it reads back what `str` wrote, with the same coefficient and the same exponent.
-/

namespace CloudPlatform.Decimals

/-! ### Digits -/

/-- The zeros of the decimal digits of Unicode; each script has its ten digits in a row. -/
def scriptZeros : List ℕ :=
  [0x30, 0x660, 0x6F0, 0x7C0, 0x966, 0x9E6, 0xA66, 0xAE6, 0xB66, 0xBE6, 0xC66, 0xCE6, 0xD66, 0xDE6,
    0xE50, 0xED0, 0xF20, 0x1040, 0x1090, 0x17E0, 0x1810, 0x1946, 0x19D0, 0x1A80, 0x1A90, 0x1B50,
    0x1BB0, 0x1C40, 0x1C50, 0xA620, 0xA8D0, 0xA900, 0xA9D0, 0xA9F0, 0xAA50, 0xABF0, 0xFF10,
    0x104A0, 0x10D30, 0x11066, 0x110F0, 0x11136, 0x111D0, 0x112F0, 0x11450, 0x114D0, 0x11650,
    0x116C0, 0x11730, 0x118E0, 0x11950, 0x11C50, 0x11D50, 0x11DA0, 0x11F50, 0x16A60, 0x16AC0,
    0x16B50, 0x1D7CE, 0x1D7D8, 0x1D7E2, 0x1D7EC, 0x1D7F6, 0x1E140, 0x1E2F0, 0x1E4F0, 0x1E950,
    0x1FBF0]

/-- The value of a decimal digit. -/
def digitOf (c : Char) : Option ℕ :=
  (scriptZeros.find? fun first ↦ first ≤ c.toNat && c.toNat < first + 10).map (c.toNat - ·)

/-- The digits at the front of a text, and the rest. -/
def spanDigits : List Char → List ℕ × List Char
  | [] => ([], [])
  | c :: rest =>
    match digitOf c with
    | some digit => (digit :: (spanDigits rest).1, (spanDigits rest).2)
    | none => ([], c :: rest)

/-- The number that digits write. -/
def valueOf (digits : List ℕ) : ℕ :=
  Nat.ofDigits 10 digits.reverse

/-- The digits of a number; zero has one. -/
def digitsOf (n : ℕ) : List ℕ :=
  if n = 0 then [0] else (Nat.digits 10 n).reverse

def charsOf (digits : List ℕ) : List Char :=
  digits.map Nat.digitChar

/-- The sign at the front of a text, and the rest. -/
def spanSign : List Char → Bool × List Char
  | '-' :: rest => (true, rest)
  | '+' :: rest => (false, rest)
  | rest => (false, rest)

theorem digitOf_digitChar : ∀ digit < 10, digitOf (Nat.digitChar digit) = some digit := by
  decide

theorem spanDigits_charsOf {digits : List ℕ} (h : ∀ digit ∈ digits, digit < 10) {rest : List Char}
    (hrest : ∀ c ∈ rest.head?, digitOf c = none) :
    spanDigits (charsOf digits ++ rest) = (digits, rest) := by
  induction digits with
  | nil =>
    cases rest with
    | nil => rfl
    | cons c rest =>
      change spanDigits (c :: rest) = _
      rw [spanDigits, hrest c rfl]
  | cons digit digits ih =>
    obtain ⟨hdigit, hdigits⟩ := List.forall_mem_cons.mp h
    change spanDigits (Nat.digitChar digit :: (charsOf digits ++ rest)) = _
    rw [spanDigits, digitOf_digitChar digit hdigit, ih hdigits]

theorem lt_ten_of_mem_digitsOf {n digit : ℕ} (h : digit ∈ digitsOf n) : digit < 10 := by
  unfold digitsOf at h
  split at h
  · rw [List.mem_singleton.mp h]
    decide
  · exact Nat.digits_lt_base (by decide) (List.mem_reverse.mp h)

@[simp] theorem valueOf_digitsOf (n : ℕ) : valueOf (digitsOf n) = n := by
  unfold digitsOf valueOf
  by_cases hn : n = 0
  · rw [if_pos hn, hn]
    rfl
  · rw [if_neg hn, List.reverse_reverse, Nat.ofDigits_digits]

theorem length_digitsOf (n : ℕ) : (digitsOf n).length = numDigits n := by
  unfold digitsOf numDigits
  by_cases hn : n = 0
  · rw [if_pos hn, hn]
    simp
  · rw [if_neg hn, List.length_reverse, Nat.length_digits 10 n (by decide) hn]

theorem valueOf_zeros_append (zeros : ℕ) (digits : List ℕ) :
    valueOf (List.replicate zeros 0 ++ digits) = valueOf digits := by
  unfold valueOf
  rw [List.reverse_append, Nat.ofDigits_append, List.reverse_replicate]
  have hzeros : Nat.ofDigits 10 (List.replicate zeros 0) = 0 := by
    induction zeros with
    | zero => rfl
    | succ zeros ih => rw [List.replicate_succ, Nat.ofDigits_cons, ih]
  rw [hzeros]
  simp

/-! ### Decimals -/

/-- What `Decimal(text)` can be. -/
inductive Datum
  | number (value : Decimal)
  | infinity (negative : Bool)
  | nan
  deriving DecidableEq

/-- The exponent at the end of a text. -/
def readExponent : List Char → Option ℤ
  | [] => some 0
  | mark :: rest =>
    let signed := spanSign rest
    let digits := spanDigits signed.2
    if mark ∈ ['e', 'E'] ∧ digits.1 ≠ [] ∧ digits.2 = [] then
      some (if signed.1 then -(valueOf digits.1) else valueOf digits.1)
    else none

/-- The fraction after the point, if there is one, and the rest. -/
def spanFraction : List Char → List ℕ × List Char
  | '.' :: rest => spanDigits rest
  | rest => ([], rest)

/-- A number without its sign. -/
def readMagnitude (negative : Bool) (chars : List Char) : Option Decimal :=
  let whole := spanDigits chars
  let fraction := spanFraction whole.2
  if whole.1 = [] ∧ fraction.1 = [] then none
  else (readExponent fraction.2).map fun exponent ↦
    ⟨negative, valueOf (whole.1 ++ fraction.1), exponent - fraction.1.length⟩

/-- `Infinity` and `NaN`, the latter with digits of a diagnosis. -/
def readSpecial (negative : Bool) (chars : List Char) : Option Datum :=
  let word := chars.map Char.toLower
  if word = "inf".toList ∨ word = "infinity".toList then some (.infinity negative)
  else if word.take 3 = "nan".toList ∧ (spanDigits (word.drop 3)).2 = [] then some .nan
  else if word.take 4 = "snan".toList ∧ (spanDigits (word.drop 4)).2 = [] then some .nan
  else none

/-- `Decimal(text)`; `None` where it raises `InvalidOperation`. -/
def parseDecimal (text : String) : Option Datum :=
  let signed := spanSign ((strip text).toList.filter (· ≠ '_'))
  match readMagnitude signed.1 signed.2 with
  | some value => some (.number value)
  | none => readSpecial signed.1 signed.2

/-- `"%+d" % value`. -/
def signedText (value : ℤ) : List Char :=
  (if value < 0 then '-' else '+') :: charsOf (digitsOf value.natAbs)

/-- The characters of `str(value)`: with an exponent unless the number is short enough without. -/
def Decimal.chars (value : Decimal) : List Char :=
  let digits := digitsOf value.coefficient
  let left := value.exponent + digits.length
  let place := if value.exponent ≤ 0 ∧ -6 < left then left else 1
  let whole := if place ≤ 0 then [0]
    else digits.take place.toNat ++ List.replicate (place.toNat - digits.length) 0
  let fraction := if place ≤ 0 then List.replicate (-place).toNat 0 ++ digits
    else digits.drop place.toNat
  (if value.negative then ['-'] else []) ++ charsOf whole ++
    (if fraction = [] then [] else '.' :: charsOf fraction) ++
      if left = place then [] else 'E' :: signedText (left - place)

/-- `str(value)`. -/
def Decimal.text (value : Decimal) : String :=
  String.ofList value.chars

example : (⟨false, 105, -1⟩ : Decimal).text = "10.5" := by decide +kernel

example : (⟨true, 105, -9⟩ : Decimal).text = "-1.05E-7" := by decide +kernel

/-! ### Reading back -/

section Reading

theorem readExponent_signedText (value : ℤ) :
    readExponent ('E' :: signedText value) = some value := by
  have hend : ∀ c ∈ ([] : List Char).head?, digitOf c = none := by simp
  have hdigits := spanDigits_charsOf
    (fun digit hdigit ↦ lt_ten_of_mem_digitsOf (n := value.natAbs) hdigit) hend
  rw [List.append_nil] at hdigits
  have hne : digitsOf value.natAbs ≠ [] := by
    intro hnil
    have hlength := length_digitsOf value.natAbs
    rw [hnil] at hlength
    exact absurd hlength.symm (numDigits_pos _).ne'
  unfold readExponent signedText
  by_cases hneg : value < 0
  · rw [if_pos hneg]
    simp only [spanSign, hdigits, valueOf_digitsOf]
    rw [if_pos ⟨by decide, hne, trivial⟩, if_pos trivial]
    exact congrArg some (by omega)
  · rw [if_neg hneg]
    simp only [spanSign, hdigits, valueOf_digitsOf]
    rw [if_pos ⟨by decide, hne, trivial⟩, if_neg Bool.false_ne_true]
    exact congrArg some (by omega)

/-- Whole digits, a fraction unless it is empty, and an exponent are read as such. -/
theorem readMagnitude_layout (negative : Bool) {whole fraction : List ℕ} {suffix : List Char}
    {exponent : ℤ} (hwhole : whole ≠ []) (hdigits : ∀ digit ∈ whole ++ fraction, digit < 10)
    (hsuffix : readExponent suffix = some exponent)
    (hhead : ∀ c ∈ suffix.head?, digitOf c = none ∧ c ≠ '.') :
    readMagnitude negative (charsOf whole ++
      ((if fraction = [] then [] else '.' :: charsOf fraction) ++ suffix)) =
        some ⟨negative, valueOf (whole ++ fraction), exponent - fraction.length⟩ := by
  obtain ⟨hwholeDigits, hfractionDigits⟩ := List.forall_mem_append.mp hdigits
  by_cases hfraction : fraction = []
  · subst hfraction
    have hspan : spanFraction suffix = ([], suffix) := by
      unfold spanFraction
      split
      · exact absurd rfl (hhead '.' rfl).2
      · rfl
    unfold readMagnitude
    rw [if_pos rfl, List.nil_append, spanDigits_charsOf hwholeDigits fun c hc ↦ (hhead c hc).1]
    simp only [hspan, hwhole, false_and, if_false, hsuffix, Option.map_some]
  · have hdot : ∀ c ∈ (('.' :: charsOf fraction) ++ suffix).head?, digitOf c = none := by
      intro c hc
      obtain rfl : '.' = c := Option.some.inj hc
      decide
    unfold readMagnitude
    rw [if_neg hfraction, spanDigits_charsOf hwholeDigits hdot]
    simp only [List.cons_append, spanFraction]
    rw [spanDigits_charsOf hfractionDigits fun c hc ↦ (hhead c hc).1]
    simp only [hwhole, false_and, if_false, hsuffix, Option.map_some]

variable (value : Decimal)

/-- The characters of a decimal after its sign are read as its magnitude. -/
theorem readMagnitude_chars : ∃ body, value.chars = (if value.negative then ['-'] else []) ++ body ∧
      (∃ digit < 10, body.head? = some (Nat.digitChar digit)) ∧
      readMagnitude value.negative body = some value := by
  unfold Decimal.chars
  dsimp only
  generalize hdigits : digitsOf value.coefficient = digits
  generalize hplace : (if value.exponent ≤ 0 ∧ -6 < value.exponent + digits.length then
    value.exponent + digits.length else 1) = place
  have hlength : 0 < digits.length := by
    rw [← hdigits, length_digitsOf]
    exact numDigits_pos _
  have hten : ∀ digit ∈ digits, digit < 10 := by
    intro digit hdigit
    rw [← hdigits] at hdigit
    exact lt_ten_of_mem_digitsOf hdigit
  have hvalue : valueOf digits = value.coefficient := by
    rw [← hdigits, valueOf_digitsOf]
  -- The point stands within the digits, or before them.
  have hwithin : place ≤ digits.length := by
    rw [← hplace]
    split <;> omega
  have hsuffix : readExponent (if value.exponent + digits.length = place then []
      else 'E' :: signedText (value.exponent + digits.length - place)) =
        some (value.exponent + digits.length - place) := by
    split
    · rename_i heq
      rw [heq, sub_self]
      rfl
    · exact readExponent_signedText _
  have hhead : ∀ c ∈ (if value.exponent + digits.length = place then []
      else 'E' :: signedText (value.exponent + digits.length - place)).head?,
        digitOf c = none ∧ c ≠ '.' := by
    intro c hc
    split at hc
    · cases hc
    · obtain rfl : 'E' = c := Option.some.inj hc
      decide
  generalize (if value.exponent + digits.length = place then []
      else 'E' :: signedText (value.exponent + digits.length - place)) = suffix at hsuffix hhead
  by_cases hpoint : place ≤ 0
  · rw [if_pos hpoint, if_pos hpoint]
    refine ⟨_, by rw [List.append_assoc, List.append_assoc], ⟨0, by decide, rfl⟩, ?_⟩
    rw [readMagnitude_layout value.negative (List.cons_ne_nil 0 []) ?_ hsuffix hhead]
    · have hzeros : valueOf ([0] ++ (List.replicate (-place).toNat 0 ++ digits)) =
          value.coefficient := by
        have happend := valueOf_zeros_append ((-place).toNat + 1) digits
        rw [List.replicate_succ] at happend
        exact happend.trans hvalue
      have hexponent : value.exponent + digits.length - place -
          (List.replicate (-place).toNat 0 ++ digits).length = value.exponent := by
        rw [List.length_append, List.length_replicate]
        push_cast
        omega
      rw [hzeros, hexponent]
    · refine List.forall_mem_append.mpr ⟨by decide, List.forall_mem_append.mpr ⟨?_, hten⟩⟩
      intro digit hdigit
      rw [List.eq_of_mem_replicate hdigit]
      decide
  · obtain ⟨n, hn⟩ : ∃ n : ℕ, place = n + 1 := ⟨(place - 1).toNat, by omega⟩
    have hcut : digits.length ≤ place.toNat ∨ place.toNat < digits.length := le_or_gt _ _
    have hnone : place.toNat - digits.length = 0 := by omega
    rw [if_neg hpoint, if_neg hpoint, hnone, List.replicate_zero, List.append_nil]
    have htake : digits.take place.toNat ≠ [] := by
      intro hnil
      have htakeLength := congrArg List.length hnil
      rw [List.length_take, List.length_nil] at htakeLength
      omega
    refine ⟨_, by rw [List.append_assoc, List.append_assoc], ?_, ?_⟩
    · obtain ⟨digit, rest, hcons⟩ := List.exists_cons_of_ne_nil htake
      refine ⟨digit, hten digit (List.mem_of_mem_take (hcons ▸ List.mem_cons_self)), ?_⟩
      rw [hcons]
      rfl
    · rw [readMagnitude_layout value.negative htake ?_ hsuffix hhead, List.take_append_drop, hvalue]
      · have hexponent : value.exponent + digits.length - place -
            (digits.drop place.toNat).length = value.exponent := by
          rw [List.length_drop]
          omega
        rw [hexponent]
      · rw [List.take_append_drop]
        exact hten

/-- A character of the text of a number. -/
def isNumberChar (c : Char) : Bool :=
  c.isDigit || c ∈ ['-', '+', '.', 'E']

theorem isSpace_of_isNumberChar {c : Char} (h : isNumberChar c = true) :
    isSpace c = false ∧ c ≠ '_' := by
  rcases Bool.or_eq_true_iff.mp h with hdigit | hmark
  · refine ⟨isSpace_of_isDigit hdigit, ?_⟩
    rintro rfl
    cases hdigit
  · have hmarks : ∀ mark ∈ ['-', '+', '.', 'E'], isSpace mark = false ∧ mark ≠ '_' :=
      forall_mem_of_all (by decide)
    exact hmarks c (decide_eq_true_iff.mp hmark)

theorem isNumberChar_charsOf {digits : List ℕ} (h : ∀ digit ∈ digits, digit < 10) :
    ∀ c ∈ charsOf digits, isNumberChar c = true := by
  intro c hc
  obtain ⟨digit, hdigit, rfl⟩ := List.mem_map.mp hc
  have hchars : ∀ digit < 10, isNumberChar (Nat.digitChar digit) = true := by decide
  exact hchars digit (h digit hdigit)

theorem isNumberChar_signedText (value : ℤ) : ∀ c ∈ signedText value, isNumberChar c = true := by
  unfold signedText
  refine List.forall_mem_cons.mpr ⟨?_, isNumberChar_charsOf fun digit ↦ lt_ten_of_mem_digitsOf⟩
  split <;> decide

theorem isNumberChar_chars : ∀ c ∈ value.chars, isNumberChar c = true := by
  have hten : ∀ digit ∈ digitsOf value.coefficient, digit < 10 :=
    fun digit ↦ lt_ten_of_mem_digitsOf
  have hzeros (n : ℕ) : ∀ digit ∈ List.replicate n 0, digit < 10 := by
    intro digit hdigit
    rw [List.eq_of_mem_replicate hdigit]
    decide
  unfold Decimal.chars
  dsimp only
  generalize (if value.exponent ≤ 0 ∧ -6 < value.exponent + (digitsOf value.coefficient).length then
    value.exponent + (digitsOf value.coefficient).length else 1) = place
  have hwhole : ∀ digit ∈ (if place ≤ 0 then [0]
      else (digitsOf value.coefficient).take place.toNat ++
        List.replicate (place.toNat - (digitsOf value.coefficient).length) 0), digit < 10 := by
    split
    · exact List.forall_mem_singleton.mpr (by decide)
    · exact List.forall_mem_append.mpr
        ⟨fun digit hdigit ↦ hten digit (List.mem_of_mem_take hdigit), hzeros _⟩
  have hfraction : ∀ digit ∈ (if place ≤ 0 then List.replicate (-place).toNat 0 ++
      digitsOf value.coefficient else (digitsOf value.coefficient).drop place.toNat),
        digit < 10 := by
    split
    · exact List.forall_mem_append.mpr ⟨hzeros _, hten⟩
    · exact fun digit hdigit ↦ hten digit (List.mem_of_mem_drop hdigit)
  generalize (if place ≤ 0 then List.replicate (-place).toNat 0 ++ digitsOf value.coefficient
    else (digitsOf value.coefficient).drop place.toNat) = fraction at hfraction
  refine List.forall_mem_append.mpr ⟨List.forall_mem_append.mpr
    ⟨List.forall_mem_append.mpr ⟨?_, isNumberChar_charsOf hwhole⟩, ?_⟩, ?_⟩
  · split
    · exact List.forall_mem_singleton.mpr (by decide)
    · exact fun c hc ↦ absurd hc List.not_mem_nil
  · split
    · exact fun c hc ↦ absurd hc List.not_mem_nil
    · exact List.forall_mem_cons.mpr ⟨by decide, isNumberChar_charsOf hfraction⟩
  · split
    · exact fun c hc ↦ absurd hc List.not_mem_nil
    · exact List.forall_mem_cons.mpr ⟨by decide, isNumberChar_signedText _⟩

/-- A text of such characters is not stripped, and has no underscores. -/
theorem filter_strip_of_isNumberChar {chars : List Char} (h : ∀ c ∈ chars, isNumberChar c = true) :
    (strip (String.ofList chars)).toList.filter (· ≠ '_') = chars := by
  have hspaces : strip (String.ofList chars) = String.ofList chars := by
    refine strip_eq_self (fun c hc ↦ ?_) fun c hc ↦ ?_
    · rw [String.toList_ofList] at hc
      exact (isSpace_of_isNumberChar (h c (List.mem_of_mem_head? hc))).1
    · rw [String.toList_ofList] at hc
      exact (isSpace_of_isNumberChar (h c (List.mem_of_mem_getLast? hc))).1
  rw [hspaces, String.toList_ofList, List.filter_eq_self]
  intro c hc
  simpa using (isSpace_of_isNumberChar (h c hc)).2

/-- Digits have no sign before them. -/
theorem spanSign_digitChar : ∀ digit < 10, ∀ rest,
    spanSign (Nat.digitChar digit :: rest) = (false, Nat.digitChar digit :: rest) := by
  intro digit hdigit rest
  have hmarks : ∀ digit < 10, Nat.digitChar digit ≠ '-' ∧ Nat.digitChar digit ≠ '+' := by decide
  unfold spanSign
  split
  · rename_i heq
    exact absurd (List.cons.inj heq).1 (hmarks digit hdigit).1
  · rename_i heq
    exact absurd (List.cons.inj heq).1 (hmarks digit hdigit).2
  · rfl

theorem spanSign_charsOf {digits : List ℕ} (h : ∀ digit ∈ digits, digit < 10) :
    spanSign (charsOf digits) = (false, charsOf digits) := by
  cases digits with
  | nil => rfl
  | cons digit rest => exact spanSign_digitChar digit (h digit List.mem_cons_self) _

/-- `Decimal(str(value))` is the value, with its coefficient and its exponent. -/
@[simp] theorem parseDecimal_text : parseDecimal value.text = some (.number value) := by
  obtain ⟨body, hchars, ⟨digit, hdigit, hhead⟩, hmagnitude⟩ := readMagnitude_chars value
  have hsign : spanSign value.chars = (value.negative, body) := by
    rw [hchars]
    cases hnegative : value.negative with
    | true => rfl
    | false =>
      cases body with
      | nil => cases hhead
      | cons c rest =>
        obtain rfl : c = Nat.digitChar digit := Option.some.inj hhead
        exact spanSign_digitChar digit hdigit rest
  rw [parseDecimal, Decimal.text, filter_strip_of_isNumberChar (isNumberChar_chars value), hsign,
    hmagnitude]

end Reading

/-! ### Integers -/

/-- Digits with single underscores between them. -/
def integerDigits : List Char → Option (List ℕ)
  | [] => none
  | [c] => (digitOf c).map ([·])
  | c :: '_' :: rest => do return (← digitOf c) :: (← integerDigits rest)
  | c :: rest => do return (← digitOf c) :: (← integerDigits rest)

/-- `int(text)`; `None` where it raises `ValueError`. -/
def parseInt (text : String) : Option ℤ :=
  let signed := spanSign (strip text).toList
  (integerDigits signed.2).map fun digits ↦
    if signed.1 then -(valueOf digits) else valueOf digits

/-- `str(value)`. -/
def intText (value : ℤ) : String :=
  String.ofList ((if value < 0 then ['-'] else []) ++ charsOf (digitsOf value.natAbs))

theorem integerDigits_charsOf {digits : List ℕ} (h : ∀ digit ∈ digits, digit < 10)
    (hne : digits ≠ []) : integerDigits (charsOf digits) = some digits := by
  induction digits with
  | nil => exact absurd rfl hne
  | cons digit rest ih =>
    obtain ⟨hdigit, hrest⟩ := List.forall_mem_cons.mp h
    cases rest with
    | nil =>
      change (digitOf (Nat.digitChar digit)).map ([·]) = _
      rw [digitOf_digitChar digit hdigit]
      rfl
    | cons next others =>
      have hmark : ∀ digit < 10, Nat.digitChar digit ≠ '_' := by decide
      have hstep : integerDigits (charsOf (digit :: next :: others)) =
          (do return (← digitOf (Nat.digitChar digit)) ::
            (← integerDigits (charsOf (next :: others)))) := by
        change integerDigits (Nat.digitChar digit :: Nat.digitChar next :: charsOf others) = _
        rw [integerDigits]
        · rfl
        · exact fun hnil ↦ List.cons_ne_nil _ _ hnil
        · exact fun rest hcons ↦ hmark next (hrest next List.mem_cons_self) (List.cons.inj hcons).1
      rw [hstep, digitOf_digitChar digit hdigit, ih hrest (List.cons_ne_nil _ _)]
      rfl

/-- `int(str(value))` is the value. -/
@[simp] theorem parseInt_intText (value : ℤ) : parseInt (intText value) = some value := by
  have hten : ∀ digit ∈ digitsOf value.natAbs, digit < 10 := fun digit ↦ lt_ten_of_mem_digitsOf
  have hne : digitsOf value.natAbs ≠ [] := by
    intro hnil
    have hlength := length_digitsOf value.natAbs
    rw [hnil] at hlength
    exact absurd hlength.symm (numDigits_pos _).ne'
  have hread := integerDigits_charsOf hten hne
  have hspaces : strip (intText value) = intText value := by
    have hchars : ∀ c ∈ (if value < 0 then ['-'] else []) ++ charsOf (digitsOf value.natAbs),
        isSpace c = false := by
      refine List.forall_mem_append.mpr ⟨?_, fun c hc ↦ ?_⟩
      · split
        · exact List.forall_mem_singleton.mpr (by decide)
        · exact fun c hc ↦ absurd hc List.not_mem_nil
      · exact (isSpace_of_isNumberChar (isNumberChar_charsOf hten c hc)).1
    refine strip_eq_self (fun c hc ↦ ?_) fun c hc ↦ ?_
    · rw [intText, String.toList_ofList] at hc
      exact hchars c (List.mem_of_mem_head? hc)
    · rw [intText, String.toList_ofList] at hc
      exact hchars c (List.mem_of_mem_getLast? hc)
  rw [parseInt, hspaces, intText, String.toList_ofList]
  by_cases hneg : value < 0
  · rw [if_pos hneg]
    simp only [List.singleton_append, spanSign, hread, Option.map_some, if_true, valueOf_digitsOf]
    exact congrArg some (by omega)
  · rw [if_neg hneg, List.nil_append, spanSign_charsOf hten]
    simp only [hread, Option.map_some, Bool.false_eq_true, if_false, valueOf_digitsOf]
    exact congrArg some (by omega)

end CloudPlatform.Decimals
