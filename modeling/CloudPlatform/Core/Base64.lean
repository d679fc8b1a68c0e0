import Mathlib.Data.List.Basic
import Mathlib.Tactic.Common

/-!
# Base64

The URL-safe base64 of a byte string, in groups of three bytes and four characters, with the padding
of the last group. `decode_encode` says that decoding reads back the bytes.
-/

namespace Base64

/-- The digits of the URL-safe alphabet. -/
def alphabet : List Char :=
  "ABCDEFGHIJKLMNOPQRSTUVWXYZabcdefghijklmnopqrstuvwxyz0123456789-_".toList

def charOf (sextet : ℕ) : Char :=
  alphabet.getD sextet 'A'

def sextetOf (c : Char) : Option ℕ :=
  if c ∈ alphabet then some (alphabet.idxOf c) else none

/-- `urlsafe_b64encode`. -/
def encode : List ℕ → List Char
  | [] => []
  | [a] => [charOf (a / 4), charOf (a % 4 * 16), '=', '=']
  | [a, b] => [charOf (a / 4), charOf (a % 4 * 16 + b / 16), charOf (b % 16 * 4), '=']
  | a :: b :: c :: rest =>
    charOf (a / 4) :: charOf (a % 4 * 16 + b / 16) :: charOf (b % 16 * 4 + c / 64) ::
      charOf (c % 64) :: encode rest

/-- `b64decode` with the URL-safe alphabet, validating; `none` where it raises. -/
def decode : List Char → Option (List ℕ)
  | [] => some []
  | [w, x, '=', '='] => do
    let w ← sextetOf w
    let x ← sextetOf x
    return [w * 4 + x / 16]
  | [w, x, y, '='] => do
    let w ← sextetOf w
    let x ← sextetOf x
    let y ← sextetOf y
    return [w * 4 + x / 16, x % 16 * 16 + y / 4]
  | w :: x :: y :: z :: rest => do
    let w ← sextetOf w
    let x ← sextetOf x
    let y ← sextetOf y
    let z ← sextetOf z
    let bytes ← decode rest
    return [w * 4 + x / 16, x % 16 * 16 + y / 4, y % 4 * 64 + z] ++ bytes
  | _ => none

theorem sextetOf_charOf : ∀ sextet < 64, sextetOf (charOf sextet) = some sextet := by
  decide +kernel

theorem charOf_ne_pad : ∀ sextet < 64, charOf sextet ≠ '=' := by
  decide +kernel

theorem charOf_mem : ∀ sextet < 64, charOf sextet ∈ alphabet := by
  decide +kernel

variable (bytes : List ℕ)

/-- Decoding reads back the bytes. -/
theorem decode_encode (h : ∀ byte ∈ bytes, byte < 256) : decode (encode bytes) = some bytes := by
  fun_induction encode bytes with
  | case1 => rw [decode]
  | case2 a =>
    have ha : a < 256 := h a (by simp)
    have hfirst := sextetOf_charOf (a / 4) (by omega)
    have hsecond := sextetOf_charOf (a % 4 * 16) (by omega)
    have hvalue : a / 4 * 4 + a % 4 * 16 / 16 = a := by omega
    rw [decode, hfirst, hsecond]
    simp only [Option.bind_eq_bind, Option.bind_some, Option.pure_def, hvalue]
  | case3 a b =>
    have ha : a < 256 := h a (by simp)
    have hb : b < 256 := h b (by simp)
    have hfirst := sextetOf_charOf (a / 4) (by omega)
    have hsecond := sextetOf_charOf (a % 4 * 16 + b / 16) (by omega)
    have hthird := sextetOf_charOf (b % 16 * 4) (by omega)
    have hpad := charOf_ne_pad (b % 16 * 4) (by omega)
    have ha' : a / 4 * 4 + (a % 4 * 16 + b / 16) / 16 = a := by omega
    have hb' : (a % 4 * 16 + b / 16) % 16 * 16 + b % 16 * 4 / 4 = b := by omega
    rw [decode, hfirst, hsecond, hthird]
    · simp only [Option.bind_eq_bind, Option.bind_some, Option.pure_def, ha', hb']
    · exact hpad
  | case4 a b c rest ih =>
    have ha : a < 256 := h a (by simp)
    have hb : b < 256 := h b (by simp)
    have hc : c < 256 := h c (by simp)
    have hfirst := sextetOf_charOf (a / 4) (by omega)
    have hsecond := sextetOf_charOf (a % 4 * 16 + b / 16) (by omega)
    have hthird := sextetOf_charOf (b % 16 * 4 + c / 64) (by omega)
    have hfourth := sextetOf_charOf (c % 64) (by omega)
    have hpad := charOf_ne_pad (c % 64) (by omega)
    have ha' : a / 4 * 4 + (a % 4 * 16 + b / 16) / 16 = a := by omega
    have hb' : (a % 4 * 16 + b / 16) % 16 * 16 + (b % 16 * 4 + c / 64) / 4 = b := by omega
    have hc' : (b % 16 * 4 + c / 64) % 4 * 64 + c % 64 = c := by omega
    rw [decode, hfirst, hsecond, hthird, hfourth, ih fun byte hbyte ↦ h byte (by simp [hbyte])]
    · simp only [Option.bind_eq_bind, Option.bind_some, Option.pure_def, ha', hb', hc']
      rfl
    · exact fun _ hlast ↦ absurd hlast hpad
    · exact fun hlast ↦ absurd hlast hpad

/-- One byte more than whole groups: digits of the alphabet, and two characters of padding. -/
theorem encode_of_length (groups : ℕ) : ∀ bytes : List ℕ, bytes.length = 3 * groups + 1 →
    (∀ byte ∈ bytes, byte < 256) → ∃ digits : List Char, encode bytes = digits ++ ['=', '='] ∧
      digits.length = 4 * groups + 2 ∧ ∀ c ∈ digits, c ∈ alphabet := by
  induction groups with
  | zero =>
    intro bytes hlength h
    obtain ⟨a, rfl⟩ := List.length_eq_one_iff.mp hlength
    have ha : a < 256 := h a (by simp)
    refine ⟨[charOf (a / 4), charOf (a % 4 * 16)], rfl, rfl, ?_⟩
    simp only [List.forall_mem_cons]
    exact ⟨charOf_mem _ (by omega), charOf_mem _ (by omega), fun c hc ↦ absurd hc List.not_mem_nil⟩
  | succ groups ih =>
    intro bytes hlength h
    obtain ⟨a, b, c, rest, rfl⟩ : ∃ a b c rest, bytes = a :: b :: c :: rest := by
      match bytes, hlength with
      | a :: b :: c :: rest, _ => exact ⟨a, b, c, rest, rfl⟩
    have ha : a < 256 := h a (by simp)
    have hb : b < 256 := h b (by simp)
    have hc : c < 256 := h c (by simp)
    have hrest : rest.length = 3 * groups + 1 := by
      simp only [List.length_cons] at hlength
      omega
    obtain ⟨digits, hencode, hcount, hdigits⟩ :=
      ih rest hrest fun byte hbyte ↦ h byte (by simp [hbyte])
    refine ⟨charOf (a / 4) :: charOf (a % 4 * 16 + b / 16) :: charOf (b % 16 * 4 + c / 64) ::
      charOf (c % 64) :: digits, ?_, ?_, ?_⟩
    · rw [encode, hencode]
      · rfl
    · simp only [List.length_cons, hcount]
      omega
    · simp only [List.forall_mem_cons]
      exact ⟨charOf_mem _ (by omega), charOf_mem _ (by omega), charOf_mem _ (by omega),
        charOf_mem _ (by omega), hdigits⟩

theorem pad_not_mem : '=' ∉ alphabet := by
  decide +kernel

/-! ### Texts without padding -/

/-- The base64 of bytes without its padding. -/
def unpadded (bytes : List ℕ) : List Char :=
  ((encode bytes).reverse.dropWhile (· = '=')).reverse

/-- The padding is put back. -/
def padded (digits : List Char) : List Char :=
  digits ++ List.replicate ((4 - digits.length % 4) % 4) '='

theorem charOf_mem_alphabet (sextet : ℕ) : charOf sextet ∈ alphabet := by
  rw [charOf, List.getD_eq_getElem?_getD]
  cases h : alphabet[sextet]? with
  | none => decide +kernel
  | some c => exact List.mem_of_getElem? h

/-- Digits of the alphabet, and the padding to whole groups. -/
theorem encode_eq_append : ∃ digits pads, encode bytes =
    digits ++ List.replicate pads '=' ∧ (∀ c ∈ digits, c ∈ alphabet) ∧
      pads = (4 - digits.length % 4) % 4 := by
  fun_induction encode bytes with
  | case1 => exact ⟨[], 0, rfl, fun _ h ↦ absurd h List.not_mem_nil, rfl⟩
  | case2 a =>
    refine ⟨[charOf (a / 4), charOf (a % 4 * 16)], 2, rfl, ?_, rfl⟩
    simp only [List.forall_mem_cons, charOf_mem_alphabet, true_and]
    exact fun _ h ↦ absurd h List.not_mem_nil
  | case3 a b =>
    refine ⟨[charOf (a / 4), charOf (a % 4 * 16 + b / 16), charOf (b % 16 * 4)], 1, rfl, ?_, rfl⟩
    simp only [List.forall_mem_cons, charOf_mem_alphabet, true_and]
    exact fun _ h ↦ absurd h List.not_mem_nil
  | case4 a b c rest ih =>
    obtain ⟨digits, pads, hencode, hdigits, hpads⟩ := ih
    refine ⟨charOf (a / 4) :: charOf (a % 4 * 16 + b / 16) :: charOf (b % 16 * 4 + c / 64) ::
      charOf (c % 64) :: digits, pads, ?_, ?_, ?_⟩
    · rw [hencode]
      rfl
    · simp only [List.forall_mem_cons, charOf_mem_alphabet, true_and]
      exact hdigits
    · simp only [List.length_cons]
      omega

theorem unpadded_eq : (∀ c ∈ unpadded bytes, c ∈ alphabet) ∧
    encode bytes = padded (unpadded bytes) := by
  obtain ⟨digits, pads, hencode, hdigits, hpads⟩ := encode_eq_append bytes
  have hstrip : unpadded bytes = digits := by
    have hdrop : (List.replicate pads '=').dropWhile (· = '=') = [] := by
      simp
    have hkeep : digits.reverse.dropWhile (· = '=') = digits.reverse := by
      cases hreverse : digits.reverse with
      | nil => rfl
      | cons c rest =>
        have hmem : c ∈ digits := List.mem_reverse.mp (hreverse ▸ List.mem_cons_self)
        have hne : c ≠ '=' := fun heq ↦ pad_not_mem (heq ▸ hdigits c hmem)
        rw [List.dropWhile_cons_of_neg (by simpa using hne)]
    rw [unpadded, hencode, List.reverse_append, List.reverse_replicate, List.dropWhile_append,
      hdrop]
    rw [if_pos List.isEmpty_nil, hkeep, List.reverse_reverse]
  rw [hstrip]
  exact ⟨hdigits, by rw [padded, ← hpads, hencode]⟩

end Base64
