import Mathlib.Data.List.Basic
import Mathlib.Tactic.Common

/-!
# The texts of JSON objects

What a JSON writer in its compact ASCII form makes of strings and of objects. A written character
can be read back whatever follows it (`readChar_escape`), so strings and objects of strings are told
apart by their texts (`quoted_append_inj`, `textMembers_append_inj`).
-/

namespace JsonText

/-! ### Characters -/

/-- The four hexadecimal digits of a code unit. -/
def hexUnit (unit : ℕ) : List Char :=
  [unit / 4096, unit / 256, unit / 16, unit].map fun digits ↦ Nat.digitChar (digits % 16)

/-- The letters of the short escapes. -/
def shortEscapes : List (Char × Char) :=
  [('"', '"'), ('\\', '\\'), ('\n', 'n'), ('\r', 'r'), ('\t', 't'), ('\x0c', 'f'), ('\x08', 'b')]

/-- A character of a string: printable ASCII as it is, the rest by its UTF-16 code units. -/
def escape (c : Char) : List Char :=
  match shortEscapes.lookup c with
  | some letter => ['\\', letter]
  | none =>
    let point := c.toNat
    if 0x20 ≤ point ∧ point ≤ 0x7E then [c]
    else if point < 0x10000 then '\\' :: 'u' :: hexUnit point
    else '\\' :: 'u' :: hexUnit (0xD800 + (point - 0x10000) / 0x400) ++
      '\\' :: 'u' :: hexUnit (0xDC00 + (point - 0x10000) % 0x400)

/-- The value of a hexadecimal digit. -/
def digitValue (c : Char) : ℕ :=
  ((List.range 16).find? fun digit ↦ Nat.digitChar digit = c).getD 0

def unitValue (a b c d : Char) : ℕ :=
  ((digitValue a * 16 + digitValue b) * 16 + digitValue c) * 16 + digitValue d

/-- Whether a code unit is the first of a pair. -/
def IsHigh (unit : ℕ) : Prop :=
  0xD800 ≤ unit ∧ unit < 0xDC00

instance decidableIsHigh (unit : ℕ) : Decidable (IsHigh unit) :=
  inferInstanceAs (Decidable (_ ∧ _))

/-- An escaped code unit, and what follows it. -/
def readUnit : List Char → Option (ℕ × List Char)
  | '\\' :: 'u' :: a :: b :: c :: d :: rest => some (unitValue a b c d, rest)
  | _ => none

/-- The first character of the inside of a string, and what follows it. -/
def readChar (chars : List Char) : Option (Char × List Char) :=
  match readUnit chars with
  | some (unit, rest) =>
    if IsHigh unit then
      (readUnit rest).map fun low ↦
        (Char.ofNat (0x10000 + (unit - 0xD800) * 0x400 + (low.1 - 0xDC00)), low.2)
    else some (Char.ofNat unit, rest)
  | none =>
    match chars with
    | '\\' :: letter :: rest => (shortEscapes.find? (·.2 = letter)).map fun pair ↦ (pair.1, rest)
    | c :: rest => some (c, rest)
    | [] => none

theorem digitValue_digitChar : ∀ digit < 16, digitValue (Nat.digitChar digit) = digit := by
  decide +kernel

theorem readUnit_hexUnit {unit : ℕ} (h : unit < 0x10000) (rest : List Char) :
    readUnit ('\\' :: 'u' :: hexUnit unit ++ rest) = some (unit, rest) := by
  change some (unitValue _ _ _ _, rest) = _
  rw [unitValue, digitValue_digitChar _ (Nat.mod_lt _ (by decide)),
    digitValue_digitChar _ (Nat.mod_lt _ (by decide)),
    digitValue_digitChar _ (Nat.mod_lt _ (by decide)),
    digitValue_digitChar _ (Nat.mod_lt _ (by decide))]
  exact congrArg (fun value ↦ some (value, rest)) (by omega)

theorem readUnit_of_ne {c : Char} (h : c ≠ '\\') (rest : List Char) :
    readUnit (c :: rest) = none := by
  unfold readUnit
  split
  · rename_i heq
    exact absurd (List.cons.inj heq).1 h
  · rfl

variable (c : Char)

theorem not_isHigh_toNat : ¬ IsHigh c.toNat := by
  rintro ⟨hlow, hhigh⟩
  have hvalid := c.valid
  rcases hvalid with h | h
  · have hlt : c.toNat < 0xD800 := h
    omega
  · have hlt : 0xDFFF < c.toNat := h.1
    omega

theorem toNat_lt : c.toNat < 0x110000 := by
  rcases c.valid with h | h
  · have hlt : c.toNat < 0xD800 := h
    omega
  · exact h.2

/-- What a written character is read back as, whatever follows. -/
theorem readChar_escape (rest : List Char) : readChar (escape c ++ rest) = some (c, rest) := by
  unfold escape
  cases hshort : shortEscapes.lookup c with
  | some letter =>
    have hmem : (c, letter) ∈ shortEscapes := by
      obtain ⟨before, after, hsplit, -⟩ := List.lookup_eq_some_iff.mp hshort
      rw [hsplit]
      simp
    simp only [shortEscapes, List.mem_cons, List.not_mem_nil, or_false, Prod.mk.injEq] at hmem
    rcases hmem with ⟨rfl, rfl⟩ | ⟨rfl, rfl⟩ | ⟨rfl, rfl⟩ | ⟨rfl, rfl⟩ | ⟨rfl, rfl⟩ | ⟨rfl, rfl⟩ |
      ⟨rfl, rfl⟩ <;> rfl
  | none =>
    dsimp only
    by_cases hplain : 0x20 ≤ c.toNat ∧ c.toNat ≤ 0x7E
    · rw [if_pos hplain]
      have hslash : c ≠ '\\' := by
        rintro rfl
        exact absurd hshort (by decide)
      unfold readChar
      rw [List.singleton_append, readUnit_of_ne hslash]
      dsimp only
      split
      · rename_i heq
        exact absurd (List.cons.inj heq).1 hslash
      · rename_i heq
        obtain ⟨rfl, rfl⟩ := List.cons.inj heq
        rfl
      · rename_i heq
        cases heq
    · rw [if_neg hplain]
      by_cases hbmp : c.toNat < 0x10000
      · unfold readChar
        rw [if_pos hbmp, readUnit_hexUnit hbmp]
        dsimp only
        rw [if_neg (not_isHigh_toNat c), Char.ofNat_toNat]
      · rw [if_neg hbmp]
        have hpoint := toNat_lt c
        generalize hhigh : 0xD800 + (c.toNat - 0x10000) / 0x400 = high
        generalize hlow : 0xDC00 + (c.toNat - 0x10000) % 0x400 = low
        have hback : 0x10000 + (high - 0xD800) * 0x400 + (low - 0xDC00) = c.toNat := by omega
        have hpair : IsHigh high := ⟨by omega, by omega⟩
        unfold readChar
        rw [List.append_assoc, readUnit_hexUnit (by omega)]
        dsimp only
        rw [if_pos hpair, readUnit_hexUnit (by omega), Option.map_some, hback, Char.ofNat_toNat]

/-- No written character begins with the quote that ends a string. -/
theorem escape_eq_cons : ∃ first rest, escape c = first :: rest ∧ first ≠ '"' := by
  unfold escape
  cases hshort : shortEscapes.lookup c with
  | some letter => exact ⟨_, _, rfl, by decide⟩
  | none =>
    dsimp only
    by_cases hplain : 0x20 ≤ c.toNat ∧ c.toNat ≤ 0x7E
    · rw [if_pos hplain]
      refine ⟨_, _, rfl, ?_⟩
      rintro rfl
      exact absurd hshort (by decide)
    · rw [if_neg hplain]
      by_cases hbmp : c.toNat < 0x10000
      · rw [if_pos hbmp]
        exact ⟨_, _, rfl, by decide⟩
      · rw [if_neg hbmp]
        exact ⟨_, _, rfl, by decide⟩

/-! ### Strings -/

/-- A string in its quotes. -/
def quoted (text : String) : List Char :=
  '"' :: text.toList.flatMap escape ++ ['"']

variable {x y : List Char}

theorem flatMap_escape_inj {first second : List Char} :
    first.flatMap escape ++ '"' :: x = second.flatMap escape ++ '"' :: y →
      first = second ∧ x = y := by
  induction first generalizing second with
  | nil =>
    cases second with
    | nil => exact fun h ↦ ⟨rfl, (List.cons.inj h).2⟩
    | cons c rest =>
      intro h
      obtain ⟨head, tail, hescape, hne⟩ := escape_eq_cons c
      rw [List.flatMap_cons, hescape] at h
      exact absurd (List.cons.inj h).1.symm hne
  | cons c rest ih =>
    intro h
    cases second with
    | nil =>
      obtain ⟨head, tail, hescape, hne⟩ := escape_eq_cons c
      rw [List.flatMap_cons, hescape] at h
      exact absurd (List.cons.inj h).1 hne
    | cons d others =>
      rw [List.flatMap_cons, List.flatMap_cons, List.append_assoc, List.append_assoc] at h
      have hread := congrArg readChar h
      rw [readChar_escape, readChar_escape, Option.some_inj, Prod.mk.injEq] at hread
      obtain ⟨hrest, hxy⟩ := ih hread.2
      exact ⟨by rw [hread.1, hrest], hxy⟩

/-- Quoted strings are told apart, whatever follows them. -/
theorem quoted_append_inj {first second : String} (h : quoted first ++ x = quoted second ++ y) :
    first = second ∧ x = y := by
  simp only [quoted, List.cons_append, List.append_assoc] at h
  obtain ⟨hchars, hxy⟩ := flatMap_escape_inj (List.cons.inj h).2
  exact ⟨String.toList_injective hchars, hxy⟩

/-! ### Objects -/

/-- The members of an object, whose values are given by their texts. -/
def members : List (String × List Char) → List Char
  | [] => []
  | [(key, value)] => quoted key ++ ':' :: value
  | (key, value) :: rest => quoted key ++ ':' :: value ++ ',' :: members rest

/-- An object in its braces. -/
def object (fields : List (String × List Char)) : List Char :=
  '\x7b' :: members fields ++ ['\x7d']

/-- The members of an object of strings. -/
def textMembers (fields : List (String × String)) : List Char :=
  members (fields.map fun field ↦ (field.1, quoted field.2))

theorem textMembers_cons (field : String × String) (rest : List (String × String)) :
    textMembers (field :: rest) = quoted field.1 ++ ':' :: (quoted field.2 ++
      if rest = [] then [] else ',' :: textMembers rest) := by
  cases rest with
  | nil => simp [textMembers, members]
  | cons next others =>
    simp [textMembers, members]

/-- Objects of strings are told apart, whatever follows them. -/
theorem textMembers_append_inj {first second : List (String × String)} :
    textMembers first ++ '\x7d' :: x = textMembers second ++ '\x7d' :: y →
      first = second ∧ x = y := by
  induction first generalizing second with
  | nil =>
    cases second with
    | nil => exact fun h ↦ ⟨rfl, (List.cons.inj h).2⟩
    | cons field rest =>
      intro h
      rw [textMembers_cons, quoted] at h
      exact absurd (List.cons.inj h).1 (by decide)
  | cons field rest ih =>
    intro h
    cases second with
    | nil =>
      rw [textMembers_cons, quoted] at h
      exact absurd (List.cons.inj h).1 (by decide)
    | cons other others =>
      rw [textMembers_cons, textMembers_cons, List.append_assoc, List.append_assoc] at h
      obtain ⟨hkey, hvalue⟩ := quoted_append_inj h
      rw [List.cons_append, List.cons_append, List.append_assoc, List.append_assoc] at hvalue
      obtain ⟨hfield, htail⟩ := quoted_append_inj (List.cons.inj hvalue).2
      by_cases hrest : rest = []
      · by_cases hothers : others = []
        · rw [if_pos hrest, if_pos hothers] at htail
          exact ⟨by rw [Prod.ext hkey hfield, hrest, hothers], (List.cons.inj htail).2⟩
        · rw [if_pos hrest, if_neg hothers] at htail
          exact absurd (List.cons.inj htail).1 (by decide)
      · by_cases hothers : others = []
        · rw [if_neg hrest, if_pos hothers] at htail
          exact absurd (List.cons.inj htail).1 (by decide)
        · rw [if_neg hrest, if_neg hothers] at htail
          obtain ⟨hsame, hxy⟩ := ih (List.cons.inj htail).2
          exact ⟨by rw [Prod.ext hkey hfield, hsame], hxy⟩

/-! ### ASCII -/

/-- Only ASCII characters. -/
def Ascii (chars : List Char) : Prop :=
  ∀ c ∈ chars, c.toNat < 128

theorem ascii_of_all {chars : List Char} (h : (chars.all fun c ↦ c.toNat < 128) = true) :
    Ascii chars :=
  fun c hc ↦ of_decide_eq_true (List.all_eq_true.mp h c hc)

theorem ascii_append {first second : List Char} (hfirst : Ascii first) (hsecond : Ascii second) :
    Ascii (first ++ second) := fun c hc ↦
  (List.mem_append.mp hc).elim (hfirst c) (hsecond c)

theorem ascii_hexUnit (unit : ℕ) : Ascii (hexUnit unit) := by
  have hdigit : ∀ digit < 16, (Nat.digitChar digit).toNat < 128 := by decide
  intro c hc
  obtain ⟨digits, -, rfl⟩ := List.mem_map.mp hc
  exact hdigit _ (Nat.mod_lt _ (by decide))

theorem ascii_escape (c : Char) : Ascii (escape c) := by
  have hslash : Ascii ['\\', 'u'] := ascii_of_all (by decide)
  unfold escape
  cases hshort : shortEscapes.lookup c with
  | some letter =>
    obtain ⟨before, after, hsplit, -⟩ := List.lookup_eq_some_iff.mp hshort
    have hmem : letter ∈ shortEscapes.map (·.2) := by
      rw [hsplit]
      simp
    have hletters : Ascii (shortEscapes.map (·.2)) := ascii_of_all (by decide)
    have hmark : Ascii ['\\'] := ascii_of_all (by decide)
    exact ascii_append hmark fun d hd ↦ List.mem_singleton.mp hd ▸ hletters letter hmem
  | none =>
    dsimp only
    by_cases hplain : 0x20 ≤ c.toNat ∧ c.toNat ≤ 0x7E
    · rw [if_pos hplain]
      intro d hd
      rw [List.mem_singleton.mp hd]
      omega
    · rw [if_neg hplain]
      by_cases hbmp : c.toNat < 0x10000
      · rw [if_pos hbmp]
        exact ascii_append hslash (ascii_hexUnit _)
      · rw [if_neg hbmp]
        exact ascii_append (ascii_append hslash (ascii_hexUnit _))
          (ascii_append hslash (ascii_hexUnit _))

theorem ascii_quoted (text : String) : Ascii (quoted text) := by
  have hquote : Ascii ['"'] := ascii_of_all (by decide)
  have hchars : Ascii (text.toList.flatMap escape) := fun c hc ↦ by
    obtain ⟨written, -, hmem⟩ := List.mem_flatMap.mp hc
    exact ascii_escape written c hmem
  exact ascii_append (ascii_append hquote hchars) hquote

theorem ascii_members {fields : List (String × List Char)} :
    (∀ field ∈ fields, Ascii field.2) → Ascii (members fields) := by
  have hmark : ∀ mark : Char, mark.toNat < 128 → Ascii [mark] := fun mark h c hc ↦ by
    rwa [List.mem_singleton.mp hc]
  fun_induction members fields with
  | case1 => exact fun _ ↦ fun c hc ↦ absurd hc List.not_mem_nil
  | case2 key value =>
    intro h
    exact ascii_append (ascii_quoted key)
      (ascii_append (hmark ':' (by decide)) (h _ List.mem_cons_self))
  | case3 key value rest _ ih =>
    intro h
    have hhead := ascii_append (ascii_quoted key)
      (ascii_append (hmark ':' (by decide)) (h _ List.mem_cons_self))
    have htail := ih fun field hfield ↦ h field (List.mem_cons_of_mem _ hfield)
    exact ascii_append hhead (ascii_append (hmark ',' (by decide)) htail)

theorem ascii_object {fields : List (String × List Char)} (h : ∀ field ∈ fields, Ascii field.2) :
    Ascii (object fields) := by
  have hbraces : Ascii ['\x7b'] ∧ Ascii ['\x7d'] :=
    ⟨ascii_of_all (by decide), ascii_of_all (by decide)⟩
  exact ascii_append (ascii_append hbraces.1 (ascii_members h)) hbraces.2

end JsonText
