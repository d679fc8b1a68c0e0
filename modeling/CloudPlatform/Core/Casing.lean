import Mathlib.Data.List.Induction
import CloudPlatform.Core.Python

/-!
# Upper case

`upper` of the vocabulary is exact for the letters of ASCII. `CaseMapping` is the full mapping of
the Unicode standard as a parameter: what the models rely on are its laws, and `asciiCasing` is the
instance that evaluates.
-/

namespace CloudPlatform

/-! ### The letters of ASCII -/

/-- A letter in upper case: no letter of the lower case, and white space only if it was. -/
theorem toUpper_spec (c : Char) :
    c.toUpper.toUpper = c.toUpper ∧ isSpace c.toUpper = isSpace c := by
  by_cases hletter : 'a'.val ≤ c.val ∧ c.val ≤ 'z'.val
  · have hlow : 97 ≤ c.toNat := hletter.1
    have hhigh : c.toNat ≤ 122 := hletter.2
    have hupper : c.toUpper.toNat = c.toNat - 32 := by
      rw [show c.toUpper = _ from dif_pos hletter]
      simp
      omega
    constructor
    · refine dif_neg ?_
      rintro ⟨hagain, -⟩
      have : 97 ≤ c.toUpper.toNat := hagain
      omega
    · rw [isSpace, isSpace, hupper]
      simp only [List.mem_cons, List.not_mem_nil, or_false, decide_eq_decide]
      omega
  · have hsame : c.toUpper = c := dif_neg hletter
    rw [hsame]
    exact ⟨hsame, rfl⟩

variable (value : String)

/-- The upper case of a text is stripped as the text is. -/
theorem strip_upper : strip (upper value) = upper (strip value) := by
  have hdrop : ∀ chars : List Char, (chars.map Char.toUpper).dropWhile isSpace =
      (chars.dropWhile isSpace).map Char.toUpper := by
    intro chars
    rw [List.dropWhile_map]
    exact congrArg (fun test ↦ (chars.dropWhile test).map Char.toUpper)
      (funext fun c ↦ (toUpper_spec c).2)
  rw [strip, upper, String.toList_ofList, hdrop, ← List.map_reverse, hdrop, ← List.map_reverse,
    upper, strip, String.toList_ofList]

theorem upper_upper : upper (upper value) = upper value := by
  rw [upper, upper, String.toList_ofList, List.map_map]
  exact congrArg (fun f ↦ String.ofList (value.toList.map f)) (funext fun c ↦ (toUpper_spec c).1)

/-- A currency code is normalized once. -/
theorem upper_strip_upper_strip : upper (strip (upper (strip value))) = upper (strip value) := by
  rw [strip_upper, strip_strip, upper_upper]

/-! ### The mapping of Unicode -/

/-- The full upper case mapping of Unicode, one character at a time: mapping twice maps once, and
white space stays apart from the rest. -/
structure CaseMapping where
  upperChar : Char → List Char
  nonempty : ∀ c, upperChar c ≠ []
  idempotent : ∀ c, (upperChar c).flatMap upperChar = upperChar c
  keepsSpace : ∀ c, ∀ mapped ∈ upperChar c, isSpace mapped = isSpace c

/-- The mapping of the letters of ASCII. -/
def asciiCasing : CaseMapping where
  upperChar c := [c.toUpper]
  nonempty _ := List.cons_ne_nil _ _
  idempotent c := by rw [List.flatMap_singleton, (toUpper_spec c).1]
  keepsSpace c mapped hmapped := by
    rw [List.mem_singleton.mp hmapped]
    exact (toUpper_spec c).2

namespace CaseMapping

variable (mapping : CaseMapping)

/-- `value.upper()`. -/
def upper (value : String) : String :=
  String.ofList (value.toList.flatMap mapping.upperChar)

variable (value : String)

theorem upper_upper : mapping.upper (mapping.upper value) = mapping.upper value := by
  rw [upper, upper, String.toList_ofList, List.flatMap_assoc]
  exact congrArg (fun f ↦ String.ofList (value.toList.flatMap f)) (funext mapping.idempotent)

/-- The first character of the mapped text is mapped from the first. -/
theorem isSpace_head_flatMap {chars : List Char} (h : ∀ c ∈ chars.head?, isSpace c = false) :
    ∀ c ∈ (chars.flatMap mapping.upperChar).head?, isSpace c = false := by
  intro mapped hmapped
  cases chars with
  | nil => cases hmapped
  | cons c rest =>
    rw [List.flatMap_cons, List.head?_append_of_ne_nil _ (mapping.nonempty c)] at hmapped
    rw [mapping.keepsSpace c mapped (List.mem_of_mem_head? hmapped)]
    exact h c rfl

theorem isSpace_getLast_flatMap {chars : List Char} (h : ∀ c ∈ chars.getLast?, isSpace c = false) :
    ∀ c ∈ (chars.flatMap mapping.upperChar).getLast?, isSpace c = false := by
  intro mapped hmapped
  cases chars using List.reverseRecOn with
  | nil => cases hmapped
  | append_singleton rest c =>
    rw [List.flatMap_append, List.flatMap_singleton,
      List.getLast?_append_of_ne_nil _ (mapping.nonempty c)] at hmapped
    rw [mapping.keepsSpace c mapped (List.mem_of_mem_getLast? hmapped)]
    exact h c (by rw [List.getLast?_append, List.getLast?_singleton]; rfl)

/-- The upper case of a text without white space at its ends has none either. -/
theorem strip_upper_strip : strip (mapping.upper (strip value)) = mapping.upper (strip value) := by
  refine strip_eq_self ?_ ?_
  · rw [upper, String.toList_ofList]
    exact mapping.isSpace_head_flatMap (isSpace_head_strip value)
  · rw [upper, String.toList_ofList]
    exact mapping.isSpace_getLast_flatMap (isSpace_getLast_strip value)

/-- A normalised text is normalised. -/
theorem upper_strip_upper_strip :
    mapping.upper (strip (mapping.upper (strip value))) = mapping.upper (strip value) := by
  rw [strip_upper_strip, upper_upper]

end CaseMapping

end CloudPlatform
