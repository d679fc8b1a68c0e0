import CloudPlatform.Navigation.OfferReference

/-!
# Signed callbacks

The wire form of a callback: its version, its fields under the aliases of its screen or its route,
and a signature of the canonical key. Decoding inverts the aliases before it checks the signature.
`CarriedBack` is what a codec owes its callbacks, and `carriedBack_iff` says that the codec gives it
to every callback whose screen and route are not spelled like an alias.
-/

namespace CloudPlatform.Navigation

def callbackVersion : String := "v1"

/-- `_SIGNATURE_LEN`. -/
def signatureLen : ℕ := 16

/-- `_SCREEN_WIRE_ALIASES`. -/
def screenWireAliases : List (String × String) :=
  [("product_locations", "pl"), ("plan_detail", "pland"), ("cloud_detail", "cdet"),
    ("cloud_confirm", "cc"), ("cloud_families", "cfam"), ("cloud_plans", "cp"),
    ("loc_cities", "lc"), ("loc_halls", "lh")]

/-- `_WIRE_SCREEN_CANONICAL`. -/
def wireScreenCanonical : List (String × String) :=
  screenWireAliases.map Prod.swap

/-- The flow and the screen of a callback. -/
abbrev Route := String × String

/-- `_ROUTE_WIRE_ALIASES`. -/
def routeWireAliases : List (Route × Route) :=
  [(("recharge", "start"), ("r", "s")), (("recharge", "go"), ("r", "g"))]

/-- `_WIRE_ROUTE_CANONICAL`. -/
def wireRouteCanonical : List (Route × Route) :=
  routeWireAliases.map Prod.swap

/-- The route as it travels. -/
def wireRoute (route : Route) : Route :=
  (routeWireAliases.lookup route).getD
    (route.1, (screenWireAliases.lookup route.2).getD route.2)

/-- The route that a wire route stands for. -/
def canonicalRoute (wire : Route) : Route :=
  (wireRouteCanonical.lookup wire).getD
    (wire.1, (wireScreenCanonical.lookup wire.2).getD wire.2)

/-- `separator.join(fields)`. -/
def joinFields (separator : Char) (fields : List String) : String :=
  String.ofList ([separator].intercalate (fields.map String.toList))

/-- `text.split(separator)`. -/
def splitFields (separator : Char) (text : String) : List String :=
  (text.toList.splitOn separator).map String.ofList

/-- `_CALLBACK_FIELD`: at least one character, and only these. -/
def isField (field : String) : Bool :=
  field ≠ "" && field.toList.all fun c ↦ c.isAlphanum || c ∈ ['.', '_', '-']

/-- A decoded, verified callback. -/
structure Callback where
  flow : String
  screen : String
  args : List String := []
  deriving DecidableEq

namespace Callback

/-- The fields of a callback under a route. -/
def fields (route : Route) (args : List String) : List String :=
  route.1 :: route.2 :: args

def route (callback : Callback) : Route :=
  (callback.flow, callback.screen)

/-- `Callback.key`. -/
def key (callback : Callback) : String :=
  joinFields ':' (fields callback.route callback.args)

end Callback

section Codec

/- The hexadecimal HMAC-SHA256 of a message under a key. -/
variable (hmac : String → String → String) (signingKey : String)

/-- `_sign`. -/
def sign (key : String) : String :=
  String.ofList ((hmac signingKey key).toList.take signatureLen)

/-- The signed text of a callback under a route. -/
def textUnder (route : Route) (callback : Callback) : String :=
  joinFields '|' [callbackVersion, joinFields ':' (Callback.fields route callback.args),
    sign hmac signingKey callback.key]

/-- The callback raises if one of its fields is not well formed. -/
def checkFields (fields : List String) : Result Unit :=
  match fields.find? fun field ↦ !isField field with
  | some field => raise .callback s!"invalid callback field: '{field}'"
  | none => .ok ()

/-- `encode_callback`. -/
def encodeCallback (callback : Callback) : Result String := do
  rejectIf (signingKey = "") .valueError "signing_key must not be empty"
  checkFields (Callback.fields callback.route callback.args)
  return textUnder hmac signingKey (wireRoute callback.route) callback

/-- `ensure_telegram_callback_size`: at most 64 bytes. -/
def ensureTelegramCallbackSize (encoded : String) : Result String := do
  rejectIf (64 < encoded.utf8ByteSize) .callback
    s!"telegram callback_data exceeds 64 bytes (got {encoded.utf8ByteSize}): '{encoded}'"
  return encoded

/-- `encode_telegram_callback`. -/
def encodeTelegramCallback (callback : Callback) : Result String := do
  ensureTelegramCallbackSize (← encodeCallback hmac signingKey callback)

/-- The fields of the key that a text carries, and its signature. -/
def readParts (data : String) : Result (List String × String) :=
  match splitFields '|' data with
  | [version, wireKey, signature] => do
    rejectIf (version ≠ callbackVersion) .callback "unsupported callback version"
    return (splitFields ':' wireKey, signature)
  | _ => raise .callback "malformed callback"

/-- The callback that the fields of a key stand for. -/
def readFields : List String → Result Callback
  | wireFlow :: wireScreen :: args => do
    let route := canonicalRoute (wireFlow, wireScreen)
    checkFields (Callback.fields route args)
    return ⟨route.1, route.2, args⟩
  | _ => raise .callback "callback needs flow and screen"

/-- `decode_callback`. Strings that are not ASCII cannot be compared in constant time. -/
def decodeCallback (data : String) : Result Callback := do
  rejectIf (signingKey = "") .valueError "signing_key must not be empty"
  let parts ← readParts data
  let callback ← readFields parts.1
  let expected := sign hmac signingKey callback.key
  rejectIf (!(parts.2 ++ expected).toList.all (·.toNat < 128)) .typeError
    "comparing strings with non-ASCII characters is not supported"
  rejectIf (parts.2 ≠ expected) .callback "callback signature mismatch"
  return callback

end Codec

/-! ### Aliases -/

/-- A route that is spelled like the alias of another. -/
def reserved (route : Route) : Bool :=
  wireRouteCanonical.any (·.1 = route) || wireScreenCanonical.any (·.1 = route.2)

section Lookup

variable {α β : Type} [BEq α] [LawfulBEq α] {table : List (α × β)} {key : α}

theorem mem_of_lookup {value : β} (h : table.lookup key = some value) : (key, value) ∈ table := by
  obtain ⟨before, after, rfl, -⟩ := List.lookup_eq_some_iff.mp h
  exact List.mem_append_right _ List.mem_cons_self

theorem lookup_eq_none (h : ∀ entry ∈ table, entry.1 ≠ key) : table.lookup key = none :=
  List.lookup_eq_none_iff.mpr fun entry hentry ↦ bne_iff_ne.mpr (h entry hentry).symm

theorem ne_of_lookup_eq_none (h : table.lookup key = none) : ∀ entry ∈ table, entry.1 ≠ key :=
  fun entry hentry ↦ (bne_iff_ne.mp (List.lookup_eq_none_iff.mp h entry hentry)).symm

end Lookup

variable {route : Route}

theorem reserved_eq_false : reserved route = false ↔
    (∀ entry ∈ wireRouteCanonical, entry.1 ≠ route) ∧
      ∀ entry ∈ wireScreenCanonical, entry.1 ≠ route.2 := by
  simp [reserved]

/-- A route and its alias stand for each other, and the route is not spelled like an alias. -/
theorem route_alias : ∀ entry ∈ routeWireAliases, canonicalRoute entry.2 = entry.1 ∧
    wireRoute entry.1 = entry.2 ∧ reserved entry.1 = false ∧ entry.1 ≠ entry.2 := by
  decide +kernel

/-- A screen and its alias stand for each other, and no route has an alias with either. -/
theorem screen_alias : ∀ entry ∈ screenWireAliases,
    wireScreenCanonical.lookup entry.2 = some entry.1 ∧
      screenWireAliases.lookup entry.1 = some entry.2 ∧ entry.1 ≠ entry.2 ∧
      (∀ other ∈ wireRouteCanonical, other.1.2 ≠ entry.2 ∧ other.1.2 ≠ entry.1) ∧
      (∀ other ∈ routeWireAliases, other.1.2 ≠ entry.1) ∧
      ∀ other ∈ wireScreenCanonical, other.1 ≠ entry.1 := by
  decide +kernel

theorem mem_routeWireAliases {wire route : Route} (h : (wire, route) ∈ wireRouteCanonical) :
    (route, wire) ∈ routeWireAliases := by
  obtain ⟨entry, hentry, heq⟩ := List.mem_map.mp h
  rw [← Prod.swap_swap entry, heq] at hentry
  exact hentry

theorem mem_screenWireAliases {wire screen : String} (h : (wire, screen) ∈ wireScreenCanonical) :
    (screen, wire) ∈ screenWireAliases := by
  obtain ⟨entry, hentry, heq⟩ := List.mem_map.mp h
  rw [← Prod.swap_swap entry, heq] at hentry
  exact hentry

theorem canonicalRoute_screen {flow screen wire : String} (h : (screen, wire) ∈ screenWireAliases) :
    canonicalRoute (flow, wire) = (flow, screen) := by
  obtain ⟨hscreen, -, -, hroutes, -⟩ := screen_alias _ h
  have hnone : wireRouteCanonical.lookup (flow, wire) = none :=
    lookup_eq_none fun other hother heq ↦
      (hroutes other hother).1 (congrArg Prod.snd heq : other.1.2 = wire)
  simp only [canonicalRoute, hnone, hscreen, Option.getD_none, Option.getD_some]

theorem wireRoute_screen {flow screen wire : String} (h : (screen, wire) ∈ screenWireAliases) :
    wireRoute (flow, screen) = (flow, wire) := by
  obtain ⟨-, hlookup, -, -, hroutes, -⟩ := screen_alias _ h
  have hnone : routeWireAliases.lookup (flow, screen) = none :=
    lookup_eq_none fun other hother heq ↦
      hroutes other hother (congrArg Prod.snd heq : other.1.2 = screen)
  simp only [wireRoute, hnone, hlookup, Option.getD_none, Option.getD_some]

/-- A route that is not spelled like an alias stands for itself, and no other does. -/
theorem canonicalRoute_eq_self_iff : canonicalRoute route = route ↔ reserved route = false := by
  rw [reserved_eq_false]
  constructor
  · intro h
    cases hroute : wireRouteCanonical.lookup route with
    | some canonical =>
      obtain ⟨-, -, -, hne⟩ := route_alias _ (mem_routeWireAliases (mem_of_lookup hroute))
      simp only [canonicalRoute, hroute, Option.getD_some] at h
      exact absurd h hne
    | none =>
      cases hscreen : wireScreenCanonical.lookup route.2 with
      | some canonical =>
        obtain ⟨-, -, hne, -⟩ := screen_alias _ (mem_screenWireAliases (mem_of_lookup hscreen))
        simp only [canonicalRoute, hroute, hscreen, Option.getD_none, Option.getD_some] at h
        exact absurd (congrArg Prod.snd h) hne
      | none => exact ⟨ne_of_lookup_eq_none hroute, ne_of_lookup_eq_none hscreen⟩
  · rintro ⟨hroutes, hscreens⟩
    simp only [canonicalRoute, lookup_eq_none hroutes, lookup_eq_none hscreens, Option.getD_none]

/-- Only a route that is spelled like an alias is read as another one. -/
theorem canonicalRoute_wireRoute_iff (route : Route) :
    canonicalRoute (wireRoute route) = route ↔ reserved route = false := by
  cases hroute : routeWireAliases.lookup route with
  | some wire =>
    obtain ⟨hcanonical, -, hfree, -⟩ := route_alias _ (mem_of_lookup hroute)
    simp only [wireRoute, hroute, Option.getD_some]
    exact iff_of_true hcanonical hfree
  | none =>
    cases hscreen : screenWireAliases.lookup route.2 with
    | some wire =>
      have hentry := mem_of_lookup hscreen
      obtain ⟨-, -, -, hroutes, -, hscreens⟩ := screen_alias _ hentry
      simp only [wireRoute, hroute, hscreen, Option.getD_none, Option.getD_some]
      exact iff_of_true (canonicalRoute_screen hentry) (reserved_eq_false.mpr
        ⟨fun other hother heq ↦ (hroutes other hother).2
          (congrArg Prod.snd heq : other.1.2 = route.2), hscreens⟩)
    | none =>
      simp only [wireRoute, hroute, hscreen, Option.getD_none]
      exact canonicalRoute_eq_self_iff

/-- A route travels as itself or under its alias. -/
theorem eq_or_eq_wireRoute (wire : Route) :
    wire = canonicalRoute wire ∨ wire = wireRoute (canonicalRoute wire) := by
  cases hroute : wireRouteCanonical.lookup wire with
  | some canonical =>
    obtain ⟨-, hwire, -⟩ := route_alias _ (mem_routeWireAliases (mem_of_lookup hroute))
    simp only [canonicalRoute, hroute, Option.getD_some]
    exact Or.inr hwire.symm
  | none =>
    cases hscreen : wireScreenCanonical.lookup wire.2 with
    | some canonical =>
      simp only [canonicalRoute, hroute, hscreen, Option.getD_none, Option.getD_some]
      exact Or.inr (wireRoute_screen (mem_screenWireAliases (mem_of_lookup hscreen))).symm
    | none =>
      left
      simp only [canonicalRoute, hroute, hscreen, Option.getD_none]

/-! ### Fields -/

theorem splitFields_joinFields {separator : Char} {fields : List String} (hne : fields ≠ [])
    (h : ∀ field ∈ fields, separator ∉ field.toList) :
    splitFields separator (joinFields separator fields) = fields := by
  rw [splitFields, joinFields, String.toList_ofList, List.splitOn_intercalate]
  · simp
  · simpa using h
  · simpa using hne

theorem joinFields_splitFields (separator : Char) (text : String) :
    joinFields separator (splitFields separator text) = text := by
  rw [splitFields, joinFields, List.map_map]
  have hid : String.toList ∘ String.ofList = id := by
    ext chars
    simp
  rw [hid, List.map_id, List.intercalate_splitOn, String.ofList_toList]

theorem not_mem_joinFields {separator c : Char} (hc : c ≠ separator) {fields : List String}
    (h : ∀ field ∈ fields, c ∉ field.toList) : c ∉ (joinFields separator fields).toList := by
  rw [joinFields, String.toList_ofList, List.intercalate]
  intro hmem
  obtain ⟨chars, hchars, hin⟩ := List.mem_flatten.mp hmem
  have hpiece : ∀ (pieces : List (List Char)), chars ∈ pieces.intersperse [separator] →
      chars = [separator] ∨ chars ∈ pieces := by
    intro pieces
    fun_induction List.intersperse [separator] pieces with
    | case1 => exact fun h ↦ Or.inr h
    | case2 piece => exact fun h ↦ Or.inr h
    | case3 piece rest hrest ih =>
      intro h
      rw [List.mem_cons, List.mem_cons] at h
      rcases h with rfl | rfl | h
      · exact Or.inr List.mem_cons_self
      · exact Or.inl rfl
      · exact (ih h).imp_right (List.mem_cons_of_mem _)
  cases hpiece _ hchars with
  | inl heq =>
    rw [heq] at hin
    exact hc (List.mem_singleton.mp hin)
  | inr hmem =>
    obtain ⟨field, hfield, rfl⟩ := List.mem_map.mp hmem
    exact h field hfield hin

theorem checkFields_eq_ok {fields : List String} :
    checkFields fields = .ok () ↔ ∀ field ∈ fields, isField field = true := by
  cases hfind : fields.find? fun field ↦ !isField field with
  | some field =>
    have hbad := List.find?_some hfind
    simp only [checkFields, hfind]
    refine iff_of_false raise_ne_ok fun h ↦ ?_
    rw [h field (List.mem_of_find?_eq_some hfind)] at hbad
    exact Bool.false_ne_true hbad
  | none =>
    simp only [checkFields, hfind, true_iff]
    intro field hfield
    simpa using List.find?_eq_none.mp hfind field hfield

/-- The separators are no characters of a field. -/
theorem not_mem_of_isField {field : String} (h : isField field = true) :
    ':' ∉ field.toList ∧ '|' ∉ field.toList := by
  rw [isField, Bool.and_eq_true, List.all_eq_true] at h
  exact ⟨fun hmem ↦ absurd (h.2 _ hmem) (by decide), fun hmem ↦ absurd (h.2 _ hmem) (by decide)⟩

/-- An alias is a field. -/
theorem isField_alias : (∀ entry ∈ routeWireAliases, isField entry.1.1 = true ∧
    isField entry.1.2 = true ∧ isField entry.2.1 = true ∧ isField entry.2.2 = true) ∧
      ∀ entry ∈ screenWireAliases, isField entry.1 = true ∧ isField entry.2 = true := by
  decide +kernel

theorem isField_wireRoute (h : isField route.1 = true ∧ isField route.2 = true) :
    isField (wireRoute route).1 = true ∧ isField (wireRoute route).2 = true := by
  cases hroute : routeWireAliases.lookup route with
  | some wire =>
    simp only [wireRoute, hroute, Option.getD_some]
    exact (isField_alias.1 _ (mem_of_lookup hroute)).2.2
  | none =>
    cases hscreen : screenWireAliases.lookup route.2 with
    | some wire =>
      simp only [wireRoute, hroute, hscreen, Option.getD_none, Option.getD_some]
      exact ⟨h.1, (isField_alias.2 _ (mem_of_lookup hscreen)).2⟩
    | none =>
      simp only [wireRoute, hroute, hscreen, Option.getD_none]
      exact h

theorem isField_canonicalRoute {wire : Route} (h : isField wire.1 = true ∧ isField wire.2 = true) :
    isField (canonicalRoute wire).1 = true ∧ isField (canonicalRoute wire).2 = true := by
  cases hroute : wireRouteCanonical.lookup wire with
  | some canonical =>
    have hfields := isField_alias.1 _ (mem_routeWireAliases (mem_of_lookup hroute))
    simp only [canonicalRoute, hroute, Option.getD_some]
    exact ⟨hfields.1, hfields.2.1⟩
  | none =>
    cases hscreen : wireScreenCanonical.lookup wire.2 with
    | some canonical =>
      simp only [canonicalRoute, hroute, hscreen, Option.getD_none, Option.getD_some]
      exact ⟨h.1, (isField_alias.2 _ (mem_screenWireAliases (mem_of_lookup hscreen))).1⟩
    | none =>
      simp only [canonicalRoute, hroute, hscreen, Option.getD_none]
      exact h

/-! ### The codec -/

namespace Callback

variable {callback other : Callback}

/-- Every field is well formed. -/
def WellFormed (callback : Callback) : Prop :=
  (isField callback.flow = true ∧ isField callback.screen = true) ∧
    ∀ arg ∈ callback.args, isField arg = true

/-- The callback that the wire form is read as, up to the signature. -/
def readAs (wire : Route) (callback : Callback) : Callback where
  flow := (canonicalRoute wire).1
  screen := (canonicalRoute wire).2
  args := callback.args

variable {args : List String}

theorem wellFormed_iff :
    checkFields (fields route args) = .ok () ↔ WellFormed ⟨route.1, route.2, args⟩ := by
  rw [checkFields_eq_ok, fields, List.forall_mem_cons, List.forall_mem_cons, WellFormed, and_assoc]

theorem WellFormed.isField (h : WellFormed ⟨route.1, route.2, args⟩) :
    ∀ field ∈ fields route args, isField field = true :=
  checkFields_eq_ok.mp (wellFormed_iff.mpr h)

theorem splitFields_fields (h : WellFormed ⟨route.1, route.2, args⟩) :
    splitFields ':' (joinFields ':' (fields route args)) = fields route args :=
  splitFields_joinFields (List.cons_ne_nil _ _) fun field hfield ↦
    (not_mem_of_isField (h.isField field hfield)).1

/-- The key of a callback determines it. -/
theorem eq_of_key_eq (hfirst : callback.WellFormed) (hsecond : other.WellFormed)
    (h : callback.key = other.key) : callback = other := by
  have hfields := congrArg (splitFields ':') h
  rw [key, key, splitFields_fields hfirst, splitFields_fields hsecond] at hfields
  simp only [fields, route, List.cons.injEq] at hfields
  obtain ⟨hflow, hscreen, hargs⟩ := hfields
  rcases callback with ⟨flow, screen, args⟩
  rcases other with ⟨flow', screen', args'⟩
  rw [Callback.mk.injEq]
  exact ⟨hflow, hscreen, hargs⟩

end Callback

section

variable {hmac : String → String → String} {signingKey : String} {signed : Set String}

/-- What the codec relies on: digests in hexadecimal, and no two signed keys with one truncated
signature. -/
structure Signs (hmac : String → String → String) (signingKey : String) (signed : Set String) :
    Prop where
  hex : ∀ key, ∀ c ∈ (hmac signingKey key).toList, isHexDigit c = true
  injective : Set.InjOn (sign hmac signingKey) signed

theorem Signs.isHexDigit_sign (h : Signs hmac signingKey signed) (key : String) :
    ∀ c ∈ (sign hmac signingKey key).toList, isHexDigit c = true := by
  intro c hc
  rw [sign, String.toList_ofList] at hc
  exact h.hex key c (List.mem_of_mem_take hc)

variable {callback : Callback} {wire : String}

theorem encodeCallback_eq_ok : encodeCallback hmac signingKey callback = .ok wire ↔
    signingKey ≠ "" ∧ callback.WellFormed ∧
      wire = textUnder hmac signingKey (wireRoute callback.route) callback := by
  constructor
  · intro h
    obtain ⟨hkey, h⟩ := rejectIf_bind_eq_ok.mp h
    obtain ⟨⟨⟩, hfields, h⟩ := bind_eq_ok.mp h
    exact ⟨of_decide_eq_false hkey, Callback.wellFormed_iff.mp hfields, (pure_eq_ok.mp h).symm⟩
  · rintro ⟨hkey, hfields, rfl⟩
    have hchecked : checkFields (Callback.fields callback.route callback.args) = .ok () :=
      Callback.wellFormed_iff.mpr hfields
    rw [encodeCallback, rejectIf_bind (decide_eq_false hkey), hchecked]
    rfl

/-- The parts of a signed text. -/
theorem readParts_textUnder (h : Signs hmac signingKey signed) {route : Route}
    (hroute : Callback.WellFormed ⟨route.1, route.2, callback.args⟩) :
    readParts (textUnder hmac signingKey route callback) =
      .ok (Callback.fields route callback.args, sign hmac signingKey callback.key) := by
  have hbars : ∀ part ∈ [callbackVersion, joinFields ':' (Callback.fields route callback.args),
      sign hmac signingKey callback.key], '|' ∉ part.toList := by
    simp only [List.forall_mem_cons]
    have hmark : '|' ∉ callbackVersion.toList := by decide +kernel
    refine ⟨hmark, not_mem_joinFields (by decide) fun field hfield ↦
      (not_mem_of_isField (hroute.isField field hfield)).2, fun hmem ↦ ?_,
      fun part hpart ↦ absurd hpart List.not_mem_nil⟩
    exact absurd (h.isHexDigit_sign _ _ hmem) (by decide)
  have hversion : decide (callbackVersion ≠ callbackVersion) = false :=
    decide_eq_false (not_not_intro rfl)
  simp only [readParts, textUnder, splitFields_joinFields (List.cons_ne_nil _ _) hbars,
    Callback.splitFields_fields hroute]
  rw [rejectIf_bind hversion]
  rfl

theorem toNat_lt_of_isHexDigit {c : Char} (h : isHexDigit c = true) : c.toNat < 128 := by
  have hmem := mem_hexAlphabet h
  have hall : ∀ digit ∈ hexAlphabet, digit.toNat < 128 :=
    forall_mem_of_all (by decide +kernel)
  exact hall c hmem

/-- A signed text is read as the callback that its route stands for, if the signature is that
callback's. -/
theorem decodeCallback_textUnder (h : Signs hmac signingKey signed) (hkey : signingKey ≠ "")
    {route : Route} (hroute : Callback.WellFormed ⟨route.1, route.2, callback.args⟩) :
    decodeCallback hmac signingKey (textUnder hmac signingKey route callback) =
      if sign hmac signingKey callback.key = sign hmac signingKey (callback.readAs route).key then
        .ok (callback.readAs route) else raise .callback "callback signature mismatch" := by
  have hcanonical : checkFields (Callback.fields (canonicalRoute route) callback.args) = .ok () :=
    Callback.wellFormed_iff.mpr ⟨isField_canonicalRoute hroute.1, hroute.2⟩
  have hread : readFields (Callback.fields route callback.args) = .ok (callback.readAs route) := by
    change (do checkFields (Callback.fields (canonicalRoute route) callback.args); _) = _
    rw [hcanonical]
    rfl
  have hascii : ((sign hmac signingKey callback.key ++
      sign hmac signingKey (callback.readAs route).key).toList.all (·.toNat < 128)) = true := by
    rw [List.all_eq_true]
    intro c hc
    rw [String.toList_append, List.mem_append] at hc
    exact decide_eq_true (hc.elim (fun hc ↦ toNat_lt_of_isHexDigit (h.isHexDigit_sign _ c hc))
      fun hc ↦ toNat_lt_of_isHexDigit (h.isHexDigit_sign _ c hc))
  rw [decodeCallback, rejectIf_bind (decide_eq_false hkey), readParts_textUnder h hroute, ok_bind,
    hread, ok_bind]
  simp only [hascii, Bool.not_true]
  rw [rejectIf_bind rfl]
  by_cases hsame : sign hmac signingKey callback.key =
      sign hmac signingKey (callback.readAs route).key
  · rw [if_pos hsame, rejectIf_bind (by simpa using hsame)]
    rfl
  · rw [if_neg hsame, rejectIf, if_pos (by simpa using hsame)]
    rfl

/-- What is decoded was signed as the callback, under some route that stands for it. -/
theorem form_of_decodeCallback {data : String}
    (h : decodeCallback hmac signingKey data = .ok callback) :
    ∃ route, canonicalRoute route = callback.route ∧
      data = textUnder hmac signingKey route callback := by
  obtain ⟨-, h⟩ := rejectIf_bind_eq_ok.mp h
  obtain ⟨parts, hparts, h⟩ := bind_eq_ok.mp h
  obtain ⟨read, hread, h⟩ := bind_eq_ok.mp h
  obtain ⟨-, h⟩ := rejectIf_bind_eq_ok.mp h
  obtain ⟨hsign, h⟩ := rejectIf_bind_eq_ok.mp h
  obtain rfl := pure_eq_ok.mp h
  obtain ⟨wireFields, signature⟩ := parts
  have hsign' : signature = sign hmac signingKey read.key := by simpa using hsign
  have hdata : data = joinFields '|' [callbackVersion, joinFields ':' wireFields, signature] := by
    rw [readParts] at hparts
    split at hparts
    · next version wireKey signed hsplit =>
      obtain ⟨hversion, hpair⟩ := rejectIf_bind_eq_ok.mp hparts
      obtain ⟨rfl, rfl⟩ := Prod.mk.inj (pure_eq_ok.mp hpair)
      have hversion' : version = callbackVersion := by simpa using hversion
      rw [joinFields_splitFields, ← hversion', ← hsplit, joinFields_splitFields]
    · exact absurd hparts raise_ne_ok
  cases wireFields with
  | nil => exact absurd hread raise_ne_ok
  | cons wireFlow rest =>
    cases rest with
    | nil => exact absurd hread raise_ne_ok
    | cons wireScreen args =>
      obtain ⟨⟨⟩, -, hread⟩ := bind_eq_ok.mp hread
      obtain rfl := pure_eq_ok.mp hread
      generalize hroute : canonicalRoute (wireFlow, wireScreen) = route at hsign' ⊢
      refine ⟨(wireFlow, wireScreen), hroute, ?_⟩
      rw [hdata, hsign', textUnder]
      rfl

/-- Signing is undone by reading exactly for the routes that are not spelled like an alias. -/
theorem decodeCallback_encodeCallback_iff (h : Signs hmac signingKey signed)
    (haccepted : encodeCallback hmac signingKey callback = .ok wire) :
    decodeCallback hmac signingKey wire = .ok callback ↔ reserved callback.route = false := by
  obtain ⟨hsigning, hfields, rfl⟩ := encodeCallback_eq_ok.mp haccepted
  have hwire : Callback.WellFormed
      ⟨(wireRoute callback.route).1, (wireRoute callback.route).2, callback.args⟩ :=
    ⟨isField_wireRoute hfields.1, hfields.2⟩
  rw [decodeCallback_textUnder h hsigning hwire, ← canonicalRoute_wireRoute_iff]
  constructor
  · intro hdecoded
    by_cases hsame : sign hmac signingKey callback.key =
        sign hmac signingKey (callback.readAs (wireRoute callback.route)).key
    · rw [if_pos hsame, Except.ok.injEq] at hdecoded
      exact congrArg Callback.route hdecoded
    · rw [if_neg hsame] at hdecoded
      exact absurd hdecoded raise_ne_ok
  · intro hroute
    have hself : callback.readAs (wireRoute callback.route) = callback := by
      rw [Callback.readAs, hroute]
      rfl
    rw [hself, if_pos rfl]

/-! ### Callbacks are carried back -/

/-- What a codec owes a callback that it accepts: decoding returns it, no other callback has its
wire form, only its aliased and its literal form are decoded as it; and the references of offers
resolve. -/
structure CarriedBack (hmac : String → String → String) (signingKey : String) (signed : Set String)
    (callback : Callback) : Prop where
  returned : ∀ wire, encodeCallback hmac signingKey callback = .ok wire →
    decodeCallback hmac signingKey wire = .ok callback
  unique : ∀ other, other.key ∈ signed → ∀ wire,
    encodeCallback hmac signingKey callback = .ok wire →
      encodeCallback hmac signingKey other = .ok wire → other = callback
  form : ∀ data, decodeCallback hmac signingKey data = .ok callback →
    data = textUnder hmac signingKey (wireRoute callback.route) callback ∨
      data = textUnder hmac signingKey callback.route callback
  reference : ∀ offerId : Uuid, resolveOfferIdArg (encodeOfferRef offerId) = .ok offerId ∧
    resolveOfferIdArg offerId.text = .ok offerId

/-- Two callbacks with one wire form are one callback. -/
theorem eq_of_encodeCallback_eq (h : Signs hmac signingKey signed) {other : Callback}
    (hkey : callback.key ∈ signed) (hother : other.key ∈ signed)
    (hfirst : encodeCallback hmac signingKey callback = .ok wire)
    (hsecond : encodeCallback hmac signingKey other = .ok wire) : other = callback := by
  obtain ⟨-, hfields, hform⟩ := encodeCallback_eq_ok.mp hfirst
  obtain ⟨-, hfields', hform'⟩ := encodeCallback_eq_ok.mp hsecond
  have hsplit : ∀ sent : Callback, sent.WellFormed →
      readParts (textUnder hmac signingKey (wireRoute sent.route) sent) =
        .ok (Callback.fields (wireRoute sent.route) sent.args, sign hmac signingKey sent.key) :=
    fun _ hsent ↦ readParts_textUnder h ⟨isField_wireRoute hsent.1, hsent.2⟩
  have hparts := hsplit callback hfields
  have hparts' := hsplit other hfields'
  rw [← hform] at hparts
  rw [← hform', hparts] at hparts'
  have hsign := congrArg Prod.snd (Except.ok.inj hparts')
  exact Callback.eq_of_key_eq hfields' hfields (h.injective hother hkey hsign.symm)

/-- An accepted callback is carried back exactly if its route is not spelled like an alias. -/
theorem carriedBack_iff (h : Signs hmac signingKey signed)
    (haccepted : encodeCallback hmac signingKey callback = .ok wire)
    (hkey : callback.key ∈ signed) :
    CarriedBack hmac signingKey signed callback ↔ reserved callback.route = false := by
  constructor
  · intro hcarried
    exact (decodeCallback_encodeCallback_iff h haccepted).mp
      (hcarried.returned wire haccepted)
  · intro hfree
    refine ⟨fun other hother ↦ ?_, fun other hother text hfirst hsecond ↦ ?_, fun data hdata ↦ ?_,
      fun offerId ↦ ⟨resolveOfferIdArg_encodeOfferRef offerId, resolveOfferIdArg_text offerId⟩⟩
    · exact (decodeCallback_encodeCallback_iff h hother).mpr hfree
    · exact eq_of_encodeCallback_eq h hkey hother hfirst hsecond
    · obtain ⟨route, hroute, rfl⟩ := form_of_decodeCallback hdata
      rw [← hroute]
      exact (eq_or_eq_wireRoute route).symm.imp
        (fun hwire ↦ congrArg (textUnder hmac signingKey · callback) hwire)
        fun hwire ↦ congrArg (textUnder hmac signingKey · callback) hwire

end

/-! ### A screen that is spelled like an alias -/

/-- The digests of three keys under the key "secret". -/
def secretDigest (_ message : String) : String :=
  if message = "store:pl" then "333567db48eb1caa059086a6078ced9206b118ad36beea2f7e3df747665ba432"
  else if message = "store:product_locations" then
    "35492dfc4db517f682409a62e3c06394fb14ae35a431bde49416b30da3ce1398"
  else "daff686a2fe39682f90fb33c137b87d3b5178f8ebedfac326541226be366ed0a"

theorem signs_secretDigest :
    Signs secretDigest "secret" {"buy:plans", "store:pl", "store:product_locations"} := by
  constructor
  · intro key
    have hdigits : ∀ digest ∈ ["333567db48eb1caa059086a6078ced9206b118ad36beea2f7e3df747665ba432",
        "35492dfc4db517f682409a62e3c06394fb14ae35a431bde49416b30da3ce1398",
        "daff686a2fe39682f90fb33c137b87d3b5178f8ebedfac326541226be366ed0a"],
        digest.toList.all isHexDigit = true :=
      forall_mem_of_all (by decide +kernel)
    refine List.all_eq_true.mp (hdigits _ ?_)
    unfold secretDigest
    split_ifs <;> simp
  · have hsigned : ({"buy:plans", "store:pl", "store:product_locations"} : Set String) =
        {key | key ∈ ["buy:plans", "store:pl", "store:product_locations"]} := by
      ext key
      rw [Set.mem_ofPred_eq, List.mem_cons, List.mem_cons, List.mem_singleton]
      rfl
    have hinjective : ∀ first ∈ ["buy:plans", "store:pl", "store:product_locations"],
        ∀ second ∈ ["buy:plans", "store:pl", "store:product_locations"],
          sign secretDigest "secret" first = sign secretDigest "secret" second →
            first = second := by decide +kernel
    rw [hsigned]
    exact fun first hfirst second hsecond ↦ hinjective first hfirst second hsecond

theorem buyPlans_carriedBack : CarriedBack secretDigest "secret"
    {"buy:plans", "store:pl", "store:product_locations"} ⟨"buy", "plans", []⟩ :=
  have hkey : (⟨"buy", "plans", []⟩ : Callback).key = "buy:plans" := by decide +kernel
  have haccepted : encodeCallback secretDigest "secret" ⟨"buy", "plans", []⟩ =
      .ok "v1|buy:plans|daff686a2fe39682" := by decide +kernel
  (carriedBack_iff signs_secretDigest haccepted (Or.inl hkey)).mpr (by decide +kernel)

/-- A screen named like an alias is encoded, and its wire form is rejected. -/
theorem storePl_lost : ¬ CarriedBack secretDigest "secret"
    {"buy:plans", "store:pl", "store:product_locations"} ⟨"store", "pl", []⟩ := by
  intro hcarried
  have hlost : decodeCallback secretDigest "secret" "v1|store:pl|333567db48eb1caa" ≠
      .ok ⟨"store", "pl", []⟩ := by decide +kernel
  exact hlost (hcarried.returned _ (by decide +kernel))

end CloudPlatform.Navigation
