import CloudPlatform.Core.Base64
import CloudPlatform.Core.Python

/-!
# Offer references

The bytes of a UUID, and the compact reference of an offer in a callback: the bytes as base64
without padding. An argument that spells a UUID is read as one, any other as a reference;
`resolveOfferIdArg_encodeOfferRef` and `resolveOfferIdArg_text` read both back.
-/

namespace CloudPlatform

/-! ### The bytes of a UUID -/

def hexAlphabet : List Char :=
  "0123456789abcdef".toList

def hexChar (nibble : ℕ) : Char :=
  hexAlphabet.getD nibble '0'

def hexValue (c : Char) : ℕ :=
  hexAlphabet.idxOf c

/-- The bytes that hexadecimal digits spell. -/
def bytesOfHex : List Char → List ℕ
  | high :: low :: rest => (hexValue high * 16 + hexValue low) :: bytesOfHex rest
  | _ => []

/-- `bytes.hex()`. -/
def hexOfBytes (bytes : List ℕ) : List Char :=
  bytes.flatMap fun byte ↦ [hexChar (byte / 16), hexChar (byte % 16)]

/-- The digits of a UUID, without hyphens. -/
def Uuid.digits (uuid : Uuid) : List Char :=
  uuid.text.toList.filter (· ≠ '-')

/-- `uuid.bytes`. -/
def Uuid.bytes (uuid : Uuid) : List ℕ :=
  bytesOfHex uuid.digits

/-- `UUID(bytes=raw)`; `none` where it raises. -/
def Uuid.ofBytes (raw : List ℕ) : Option Uuid :=
  if h : raw.length = 16 ∧ isCanonicalUuid (hyphenate (hexOfBytes raw)) = true then
    some ⟨hyphenate (hexOfBytes raw), h.2⟩
  else none

variable {c : Char}

theorem mem_hexAlphabet (h : isHexDigit c = true) : c ∈ hexAlphabet := by
  have hascii : ∀ n < 128, isHexDigit (Char.ofNat n) = true → Char.ofNat n ∈ hexAlphabet := by
    decide +kernel
  have hlt : c.toNat < 128 := by
    simp only [isHexDigit, Char.isDigit, Bool.or_eq_true, Bool.and_eq_true, decide_eq_true_eq] at h
    change c.val.toNat < 128
    rcases h with ⟨-, hle⟩ | ⟨-, hle⟩
    · exact (UInt32.le_iff_toNat_le.mp hle).trans_lt (by decide)
    · exact (UInt32.le_iff_toNat_le.mp hle).trans_lt (by decide)
  have hchar : Char.ofNat c.toNat = c := Char.ofNat_toNat c
  rw [← hchar] at h ⊢
  exact hascii c.toNat hlt h

theorem hexValue_lt (h : isHexDigit c = true) : hexValue c < 16 :=
  List.idxOf_lt_length_of_mem (mem_hexAlphabet h)

theorem hexChar_hexValue (h : isHexDigit c = true) : hexChar (hexValue c) = c := by
  have hlt : hexAlphabet.idxOf c < hexAlphabet.length :=
    List.idxOf_lt_length_of_mem (mem_hexAlphabet h)
  rw [hexChar, hexValue, List.getD_eq_getElem?_getD, List.getElem?_eq_getElem hlt,
    List.getElem_idxOf]
  rfl

variable (digits : List Char) (uuid : Uuid)

theorem lt_of_mem_bytesOfHex (h : ∀ c ∈ digits, isHexDigit c = true) :
    ∀ byte ∈ bytesOfHex digits, byte < 256 := by
  fun_induction bytesOfHex digits with
  | case1 high low rest ih =>
    have hhigh := hexValue_lt (h high (by simp))
    have hlow := hexValue_lt (h low (by simp))
    intro byte hbyte
    cases List.mem_cons.mp hbyte with
    | inl heq => omega
    | inr hrest => exact ih (fun c hc ↦ h c (by simp [hc])) byte hrest
  | case2 => exact fun _ hbyte ↦ absurd hbyte List.not_mem_nil

/-- The bytes that digits spell are written as these digits. -/
theorem hexOfBytes_bytesOfHex (h : ∀ c ∈ digits, isHexDigit c = true) (heven : 2 ∣ digits.length) :
    hexOfBytes (bytesOfHex digits) = digits := by
  fun_induction bytesOfHex digits with
  | case1 high low rest ih =>
    have hhigh := h high (by simp)
    have hlow := h low (by simp)
    have hvalue := hexValue_lt hlow
    have hrest : 2 ∣ rest.length := by
      simp only [List.length_cons] at heven
      omega
    have hdiv : (hexValue high * 16 + hexValue low) / 16 = hexValue high := by omega
    have hmod : (hexValue high * 16 + hexValue low) % 16 = hexValue low := by omega
    rw [hexOfBytes, List.flatMap_cons, hdiv, hmod, hexChar_hexValue hhigh, hexChar_hexValue hlow]
    exact congrArg (high :: low :: ·) (ih (fun c hc ↦ h c (by simp [hc])) hrest)
  | case2 digits hshort =>
    cases digits with
    | nil => rfl
    | cons first rest =>
      cases rest with
      | nil =>
        simp only [List.length_cons, List.length_nil] at heven
        omega
      | cons second rest => exact absurd rfl (hshort first second rest)

theorem length_bytesOfHex : (bytesOfHex digits).length = digits.length / 2 := by
  fun_induction bytesOfHex digits with
  | case1 high low rest ih =>
    simp only [List.length_cons, ih]
    omega
  | case2 digits hshort =>
    cases digits with
    | nil => rfl
    | cons first rest =>
      cases rest with
      | nil => simp
      | cons second rest => exact absurd rfl (hshort first second rest)

/-- The groups of a canonical text. -/
theorem Uuid.exists_groups : ∃ a b c d e : List Char,
    uuid.text.toList = a ++ '-' :: (b ++ '-' :: (c ++ '-' :: (d ++ '-' :: e))) ∧
      a.length = 8 ∧ b.length = 4 ∧ c.length = 4 ∧ d.length = 4 ∧ e.length = 12 ∧
      ∀ digit ∈ a ++ b ++ c ++ d ++ e, isHexDigit digit = true := by
  have hcanonical := uuid.canonical
  rw [isCanonicalUuid, Bool.and_eq_true, decide_eq_true_eq, List.all_eq_true] at hcanonical
  obtain ⟨hlength, hall⟩ := hcanonical
  generalize uuid.text.toList = chars at hlength hall
  have hat (i : ℕ) (hi : i < chars.length) :
      (if i ∈ [8, 13, 18, 23] then chars[i] == '-' else isHexDigit chars[i]) = true :=
    hall (chars[i], i) (List.mem_zipIdx_iff_getElem?.mpr (List.getElem?_eq_getElem hi))
  have hgroup (first count : ℕ) (hbound : first + count ≤ 36)
      (hdigits : ∀ i, first ≤ i → i < first + count → i ∉ [8, 13, 18, 23]) :
      ∀ digit ∈ (chars.drop first).take count, isHexDigit digit = true := by
    intro digit hdigit
    obtain ⟨i, hi, rfl⟩ := List.mem_iff_getElem.mp hdigit
    rw [List.length_take, List.length_drop] at hi
    have h := hat (first + i) (by omega)
    rw [if_neg (hdigits (first + i) (by omega) (by omega))] at h
    rwa [List.getElem_take, List.getElem_drop]
  have hsplit (first count : ℕ) (hmem : first + count ∈ [8, 13, 18, 23]) :
      chars.drop first =
        (chars.drop first).take count ++ '-' :: chars.drop (first + count + 1) := by
    have hlast : first + count < chars.length := by
      simp only [List.mem_cons, List.not_mem_nil, or_false] at hmem
      omega
    have hhyphen := hat (first + count) hlast
    rw [if_pos hmem, beq_iff_eq] at hhyphen
    rw [← hhyphen, ← List.drop_eq_getElem_cons hlast, ← List.drop_drop, List.take_append_drop]
  refine ⟨chars.take 8, (chars.drop 9).take 4, (chars.drop 14).take 4, (chars.drop 19).take 4,
    chars.drop 24, ?_, ?_, ?_, ?_, ?_, ?_, ?_⟩
  · have hfirst : chars = chars.take 8 ++ '-' :: chars.drop 9 := hsplit 0 8 (by decide)
    rw [← hsplit 19 4 (by decide), ← hsplit 14 4 (by decide), ← hsplit 9 4 (by decide), ← hfirst]
  · simp [hlength]
  · simp [hlength]
  · simp [hlength]
  · simp [hlength]
  · simp [hlength]
  · have hnot : ∀ first count : ℕ, (first, count) ∈ [(0, 8), (9, 4), (14, 4), (19, 4), (24, 12)] →
        ∀ i, first ≤ i → i < first + count → i ∉ [8, 13, 18, 23] := by
      intro first count hmem i hle hlt
      simp only [List.mem_cons, Prod.mk.injEq, List.not_mem_nil, or_false] at hmem ⊢
      omega
    have htail : chars.drop 24 = (chars.drop 24).take 12 := by
      rw [List.take_of_length_le (by simp [hlength])]
    rw [htail]
    simp only [List.forall_mem_append]
    exact ⟨⟨⟨⟨hgroup 0 8 (by omega) (hnot 0 8 (by simp)),
      hgroup 9 4 (by omega) (hnot 9 4 (by simp))⟩,
      hgroup 14 4 (by omega) (hnot 14 4 (by simp))⟩, hgroup 19 4 (by omega) (hnot 19 4 (by simp))⟩,
      hgroup 24 12 (by omega) (hnot 24 12 (by simp))⟩

theorem ne_hyphen_of_isHexDigit (h : isHexDigit c = true) : c ≠ '-' := by
  rintro rfl
  exact absurd h (by decide)

/-- The digits of a UUID: 32 hexadecimal digits that its text groups. -/
theorem Uuid.digits_spec : uuid.digits.length = 32 ∧
    (∀ digit ∈ uuid.digits, isHexDigit digit = true) ∧ hyphenate uuid.digits = uuid.text := by
  obtain ⟨a, b, c, d, e, htext, ha, hb, hc, hd, he, hdigits⟩ := uuid.exists_groups
  have hfilter (group : List Char) (hgroup : ∀ digit ∈ group, isHexDigit digit = true) :
      group.filter (· ≠ '-') = group :=
    List.filter_eq_self.mpr fun digit hdigit ↦
      decide_eq_true (ne_hyphen_of_isHexDigit (hgroup digit hdigit))
  simp only [List.forall_mem_append] at hdigits
  obtain ⟨⟨⟨⟨hda, hdb⟩, hdc⟩, hdd⟩, hde⟩ := hdigits
  have heq : uuid.digits = a ++ (b ++ (c ++ (d ++ e))) := by
    rw [Uuid.digits, htext]
    simp only [List.filter_append, List.filter_cons_of_neg (p := fun c : Char ↦ decide (c ≠ '-'))
      (a := '-') (by simp), hfilter a hda, hfilter b hdb, hfilter c hdc, hfilter d hdd,
      hfilter e hde]
  refine ⟨?_, ?_, ?_⟩
  · rw [heq]
    simp [ha, hb, hc, hd, he]
  · rw [heq]
    simp only [List.forall_mem_append]
    exact ⟨hda, hdb, hdc, hdd, hde⟩
  · rw [heq, hyphenate]
    have hwhole : uuid.text = String.ofList uuid.text.toList := (String.ofList_toList).symm
    rw [hwhole, htext]
    congr 1
    have hnil (group : List Char) (count : ℕ) (h : group.length ≤ count) :
        group.drop count = [] := List.drop_of_length_le h
    simp [List.drop_append, ha, hb, hc, hd, hnil a 12, hnil a 16, hnil a 20,
      hnil b 8, hnil b 12, hnil c 8]

/-- The bytes of a UUID are its own. -/
@[simp] theorem Uuid.ofBytes_bytes : Uuid.ofBytes uuid.bytes = some uuid := by
  obtain ⟨hlength, hhex, htext⟩ := uuid.digits_spec
  have hdigits : hexOfBytes uuid.bytes = uuid.digits :=
    hexOfBytes_bytesOfHex uuid.digits hhex (by omega)
  have hbytes : uuid.bytes.length = 16 := by
    rw [Uuid.bytes, length_bytesOfHex, hlength]
  have htext' : hyphenate (hexOfBytes uuid.bytes) = uuid.text := by rw [hdigits, htext]
  have hcanonical : isCanonicalUuid (hyphenate (hexOfBytes uuid.bytes)) = true := by
    rw [htext']
    exact uuid.canonical
  rw [Uuid.ofBytes, dif_pos ⟨hbytes, hcanonical⟩]
  exact congrArg some (Uuid.text_injective htext')

theorem Uuid.length_bytes : uuid.bytes.length = 16 := by
  rw [Uuid.bytes, length_bytesOfHex, uuid.digits_spec.1]

theorem Uuid.lt_of_mem_bytes : ∀ byte ∈ uuid.bytes, byte < 256 :=
  lt_of_mem_bytesOfHex uuid.digits uuid.digits_spec.2.1

namespace Navigation

/-! ### Compact references -/

/-- `OFFER_REF_LEN`. -/
def offerRefLen : ℕ := 22

/-- `encode_offer_ref`. -/
def encodeOfferRef (offerId : Uuid) : String :=
  String.ofList ((Base64.encode offerId.bytes).reverse.dropWhile (· = '=')).reverse

/-- `_OFFER_REF_RE`. -/
def isOfferRef (token : String) : Bool :=
  token.toList.length = offerRefLen && token.toList.all (· ∈ Base64.alphabet)

/-- `decode_offer_ref`. -/
def decodeOfferRef (token : String) : Result Uuid :=
  if isOfferRef token then
    match (Base64.decode (token.toList ++ ['=', '='])).bind Uuid.ofBytes with
    | some offerId => .ok offerId
    | none => raise .callback s!"invalid offer reference: '{token}'"
  else raise .callback s!"invalid offer reference: '{token}'"

/-- `resolve_offer_id_arg`. -/
def resolveOfferIdArg (arg : String) : Result Uuid :=
  match Uuid.parse arg with
  | some offerId => .ok offerId
  | none => decodeOfferRef arg

/-- The full text of an offer's id resolves to it. -/
theorem resolveOfferIdArg_text (offerId : Uuid) : resolveOfferIdArg offerId.text = .ok offerId := by
  rw [resolveOfferIdArg, Uuid.parse_text]

/-- The compact reference of an offer resolves to it. -/
theorem resolveOfferIdArg_encodeOfferRef (offerId : Uuid) :
    resolveOfferIdArg (encodeOfferRef offerId) = .ok offerId := by
  obtain ⟨digits, hencode, hlength, hdigits⟩ :=
    Base64.encode_of_length 5 offerId.bytes offerId.length_bytes offerId.lt_of_mem_bytes
  have hbare : (encodeOfferRef offerId).toList = digits := by
    have hkept : digits.reverse.dropWhile (· = '=') = digits.reverse := by
      refine List.dropWhile_eq_self_iff.mpr fun hpos hpad ↦ ?_
      have hmem := hdigits _ (List.mem_reverse.mp (List.getElem_mem hpos))
      rw [decide_eq_true_eq] at hpad
      exact Base64.pad_not_mem (hpad ▸ hmem)
    rw [encodeOfferRef, String.toList_ofList, hencode, List.reverse_append]
    change (digits.reverse.dropWhile (· = '=')).reverse = digits
    rw [hkept, List.reverse_reverse]
  have hnone : Uuid.parse (encodeOfferRef offerId) = none :=
    Uuid.parse_eq_none (by rw [hbare, hlength]; decide)
  have href : isOfferRef (encodeOfferRef offerId) = true := by
    rw [isOfferRef, hbare, hlength, Bool.and_eq_true, List.all_eq_true]
    exact ⟨rfl, fun c hc ↦ decide_eq_true (hdigits c hc)⟩
  rw [resolveOfferIdArg, hnone]
  change decodeOfferRef (encodeOfferRef offerId) = _
  rw [decodeOfferRef, if_pos href, hbare, ← hencode,
    Base64.decode_encode _ offerId.lt_of_mem_bytes, Option.bind_some, Uuid.ofBytes_bytes]

end Navigation

end CloudPlatform
