import Golavo.Lib.Json

/-! # JSON schemas

The part of the JSON Schema language a closed record format needs: typed scalars with bounds, texts
with a test (a pattern, a length, a format), enumerations, arrays, objects without additional
properties, and alternatives. `Schema.accepts` decides whether a value conforms. -/

namespace Golavo.Lib

/-- A schema. -/
inductive Schema where
  /-- `{"type": "null"}`. -/
  | null
  /-- `{"type": "boolean"}`. -/
  | boolean
  /-- `{"type": "number"}`, within optional bounds. -/
  | number (minimum maximum : Option Decimal)
  /-- `{"type": "integer"}`, with an optional lower bound. -/
  | integer (minimum : Option Decimal)
  /-- `{"type": "string"}`, with a test on the text. -/
  | string (test : String → Bool)
  /-- `{"enum": [...]}` and `{"const": ...}`. -/
  | enum (values : List Json)
  /-- `{"type": "array"}` of conforming items. -/
  | array (minItems : Nat) (items : Schema)
  /-- `{"type": "object", "additionalProperties": false}`. -/
  | object (required : List String) (properties : List (String × Schema))
  /-- `{"oneOf": [...]}`: exactly one alternative accepts. -/
  | oneOf (alternatives : List Schema)

namespace Json

/-- The number a value is, if it is one; a boolean is not. -/
def number? : Json → Option Decimal
  | .int z => some (.ofScaled z 0)
  | .float d => some d
  | _ => none

/-- The text a value is, if it is one. -/
def text? : Json → Option String
  | .str s => some s
  | _ => none

end Json

namespace Schema

/-- Whether a number lies within optional bounds. -/
def inRange (minimum maximum : Option Decimal) (d : Decimal) : Bool :=
  minimum.all (· ≤ d) && maximum.all (d ≤ ·)

mutual

/-- Whether a value conforms to a schema. -/
def accepts : Schema → Json → Bool
  | .null, j => j = .null
  | .boolean, j => j = .bool true || j = .bool false
  | .number minimum maximum, j => j.number?.any (inRange minimum maximum)
  | .integer minimum, j => j.number?.any fun d => d.places = 0 && inRange minimum none d
  | .string test, j => j.text?.any test
  | .enum values, j => values.contains j
  | .array minItems items, .arr xs => minItems ≤ xs.length && xs.all (accepts items)
  | .array _ _, _ => false
  | .object required properties, .obj fields =>
      required.all (fun key => (Fields.getField key fields).isSome) &&
        fields.all fun field => acceptsProperty properties field.1 field.2
  | .object _ _, _ => false
  | .oneOf alternatives, j => acceptsCount alternatives j = 1

/-- Whether a property is one of those listed, and its value conforms. -/
def acceptsProperty : List (String × Schema) → String → Json → Bool
  | [], _, _ => false
  | (name, schema) :: rest, key, value =>
      if name = key then accepts schema value else acceptsProperty rest key value

/-- How many of the alternatives accept. -/
def acceptsCount : List Schema → Json → Nat
  | [], _ => 0
  | schema :: rest, j => (if accepts schema j then 1 else 0) + acceptsCount rest j

end

attribute [local simp] accepts acceptsProperty acceptsCount

/-! ## Objects -/

variable {required : List String} {properties : List (String × Schema)}

/-- A property conforms when its value does to the schema listed for it. -/
theorem acceptsProperty_iff {key : String} {value : Json} :
    acceptsProperty properties key value = true ↔
      ∃ schema, Fields.getField key properties = some schema ∧ accepts schema value = true := by
  induction properties with
  | nil => simp [acceptsProperty, Fields.getField]
  | cons property rest ih =>
      obtain ⟨name, schema⟩ := property
      by_cases h : name = key
      · simp [acceptsProperty, Fields.getField, h]
      · simpa [acceptsProperty, Fields.getField, h] using ih

theorem acceptsProperty_of_listed {key : String} {schema : Schema} {value : Json}
    (hlisted : Fields.getField key properties = some schema) (h : accepts schema value = true) :
    acceptsProperty properties key value = true :=
  acceptsProperty_iff.mpr ⟨schema, hlisted, h⟩

theorem accepts_object {fields : List (String × Json)} :
    accepts (.object required properties) (.obj fields) = true ↔
      (∀ key ∈ required, (Fields.getField key fields).isSome = true) ∧
        ∀ field ∈ fields, acceptsProperty properties field.1 field.2 = true := by
  simp only [accepts, Bool.and_eq_true, List.all_eq_true]

/-- What conforms to an object schema is an object. -/
theorem isObj_of_accepts {j : Json} (h : accepts (.object required properties) j = true) :
    j.isObj = true := by
  cases j with
  | obj fields => rfl
  | _ => simp [accepts] at h

/-- A conforming object holds every required property. -/
theorem get_of_required {j : Json} (h : accepts (.object required properties) j = true)
    {key : String} (hkey : key ∈ required) : ∃ value, j.get key = some value := by
  cases j with
  | obj fields => exact Option.isSome_iff_exists.mp ((accepts_object.mp h).1 key hkey)
  | _ => simp [accepts] at h

/-- Every property a conforming object holds conforms. -/
theorem acceptsProperty_of_get {j value : Json}
    (h : accepts (.object required properties) j = true) {key : String}
    (hget : j.get key = some value) : acceptsProperty properties key value = true := by
  cases j with
  | obj fields => exact (accepts_object.mp h).2 _ (Fields.mem_of_getField hget)
  | _ => simp [accepts] at h

/-- Putting a conforming value under a listed property keeps an object conforming. -/
theorem accepts_set {j value : Json} (h : accepts (.object required properties) j = true)
    {key : String} (hvalue : acceptsProperty properties key value = true) :
    accepts (.object required properties) (j.set key value) = true := by
  cases j with
  | obj fields =>
      obtain ⟨hreq, hall⟩ := accepts_object.mp h
      refine accepts_object.mpr ⟨fun k hk => ?_, fun field hfield => ?_⟩
      · by_cases hkey : k = key
        · simp [hkey]
        · rw [Fields.getField_setField_ne hkey]
          exact hreq k hk
      · rcases Fields.mem_setField hfield with rfl | hmem
        · exact hvalue
        · exact hall field hmem
  | _ => simp [accepts] at h

/-- Changing a property in a way that keeps it conforming keeps an object conforming. -/
theorem accepts_update {j : Json} (h : accepts (.object required properties) j = true)
    {key : String} {f : Json → Json}
    (hf : ∀ value, j.get key = some value → acceptsProperty properties key value = true →
      acceptsProperty properties key (f value) = true) :
    accepts (.object required properties) (j.update key f) = true := by
  cases hget : j.get key with
  | none => rwa [Json.update, hget]
  | some value =>
      rw [Json.update, hget]
      exact accepts_set h (hf value hget (acceptsProperty_of_get h hget))

/-- An object made from conforming fields, none required missing, conforms. -/
theorem accepts_mk {fields : List (String × Json)}
    (hfields : fields.Forall fun field => acceptsProperty properties field.1 field.2 = true)
    (hrequired : ∀ key ∈ required, key ∈ fields.map Prod.fst) :
    accepts (.object required properties) (Json.mk fields) = true := by
  rw [List.forall_iff_forall_mem] at hfields
  refine accepts_object.mpr ⟨fun key hkey => ?_, fun field hfield => hfields _ (Json.mem_mk hfield)⟩
  have hget := Json.get_mk fields key
  rw [Json.mk, Json.get] at hget
  rw [hget, Option.isSome_iff_ne_none, Ne, Fields.getField_eq_none, not_not, List.map_reverse,
    List.mem_reverse]
  exact hrequired key hkey


/-! ## Scalars -/

@[simp] theorem accepts_string {test : String → Bool} {s : String} :
    accepts (.string test) (.str s) = test s := by
  simp [accepts, Json.text?]

@[simp] theorem accepts_float {minimum maximum : Option Decimal} {d : Decimal} :
    accepts (.number minimum maximum) (.float d) = inRange minimum maximum d := by
  simp [accepts, Json.number?]

/-- An array of images conforms when there are enough of them and each conforms. -/
theorem accepts_map {α : Type} {minItems : Nat} {items : Schema} {f : α → Json} {xs : List α} :
    accepts (.array minItems items) (.arr (xs.map f)) = true ↔
      minItems ≤ xs.length ∧ ∀ x ∈ xs, accepts items (f x) = true := by
  simp [accepts]

theorem inRange_iff {lo hi d : Decimal} :
    inRange (some lo) (some hi) d = true ↔ lo.toRat ≤ d.toRat ∧ d.toRat ≤ hi.toRat := by
  simp [inRange, Decimal.le_iff]

theorem inRange_min_iff {lo d : Decimal} :
    inRange (some lo) none d = true ↔ lo.toRat ≤ d.toRat := by
  simp [inRange, Decimal.le_iff]

/-- An alternative between null and objects accepts null. -/
theorem accepts_nullOr_null :
    accepts (.oneOf [.null, .object required properties]) .null = true := by
  simp [accepts, acceptsCount]

/-- An alternative between null and objects accepts the objects its second schema does. -/
theorem accepts_nullOr_of_accepts {j : Json}
    (h : accepts (.object required properties) j = true) :
    accepts (.oneOf [.null, .object required properties]) j = true := by
  have hne : j ≠ .null := by
    rintro rfl
    simp [accepts] at h
  simp [accepts, acceptsCount, hne, h]

/-- What an alternative between null and objects accepts is null or one of those objects. -/
theorem accepts_nullOr {j : Json}
    (h : accepts (.oneOf [.null, .object required properties]) j = true) :
    j = .null ∨ accepts (.object required properties) j = true := by
  by_cases hnull : j = .null
  · exact .inl hnull
  · refine .inr (by_contra fun hno => ?_)
    simp [accepts, acceptsCount, hnull, hno] at h

end Schema

end Golavo.Lib
