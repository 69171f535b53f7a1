import Golavo.Lib.Decimal
import Golavo.Lib.Fields

/-! # JSON values

A JSON value as a program that reads and writes documents sees it. Whole numbers and decimals stay
apart, since a written `1` and a written `1.0` are different bytes. An object is kept as its fields
in key order, each key once (`Json.WF`), so the order a dictionary was filled in is not part of a
value and equal objects are equal lists. -/

namespace Golavo.Lib

open Fields

/-- A JSON value. -/
inductive Json where
  | null
  | bool (b : Bool)
  | int (z : Int)
  | float (d : Decimal)
  | str (s : String)
  | arr (items : List Json)
  | obj (fields : List (String × Json))
  deriving Repr

namespace Json

/-! ## Decidable equality -/

mutual

/-- Structural equality. -/
protected def beq : Json → Json → Bool
  | .null, .null => true
  | .bool a, .bool b => a == b
  | .int a, .int b => a == b
  | .float a, .float b => a == b
  | .str a, .str b => a == b
  | .arr a, .arr b => Json.beqItems a b
  | .obj a, .obj b => Json.beqFields a b
  | _, _ => false

protected def beqItems : List Json → List Json → Bool
  | [], [] => true
  | x :: xs, y :: ys => Json.beq x y && Json.beqItems xs ys
  | _, _ => false

protected def beqFields : List (String × Json) → List (String × Json) → Bool
  | [], [] => true
  | (k, x) :: xs, (l, y) :: ys => k == l && Json.beq x y && Json.beqFields xs ys
  | _, _ => false

end

mutual

theorem beq_iff : ∀ a b : Json, Json.beq a b = true ↔ a = b
  | .null, b => by cases b <;> simp [Json.beq]
  | .bool _, b => by cases b <;> simp [Json.beq]
  | .int _, b => by cases b <;> simp [Json.beq]
  | .float _, b => by cases b <;> simp [Json.beq]
  | .str _, b => by cases b <;> simp [Json.beq]
  | .arr xs, b => by
      cases b <;> simp [Json.beq]
      exact beqItems_iff xs _
  | .obj xs, b => by
      cases b <;> simp [Json.beq]
      exact beqFields_iff xs _

theorem beqItems_iff : ∀ a b : List Json, Json.beqItems a b = true ↔ a = b
  | [], b => by cases b <;> simp [Json.beqItems]
  | x :: xs, b => by
      cases b with
      | nil => simp [Json.beqItems]
      | cons y ys => simp [Json.beqItems, beq_iff x y, beqItems_iff xs ys]

theorem beqFields_iff : ∀ a b : List (String × Json), Json.beqFields a b = true ↔ a = b
  | [], b => by cases b <;> simp [Json.beqFields]
  | (k, x) :: xs, b => by
      cases b with
      | nil => simp [Json.beqFields]
      | cons y ys =>
          obtain ⟨l, y⟩ := y
          simp [Json.beqFields, beq_iff x y, beqFields_iff xs ys, and_assoc]

end

instance : DecidableEq Json := fun a b => decidable_of_iff _ (beq_iff a b)

/-! ## Well-formed values -/

mutual

/-- Every object inside the value has its keys in strictly increasing order. -/
def WF : Json → Prop
  | .arr items => WFItems items
  | .obj fields => KeysSorted fields ∧ WFFields fields
  | _ => True

def WFItems : List Json → Prop
  | [] => True
  | x :: xs => WF x ∧ WFItems xs

def WFFields : List (String × Json) → Prop
  | [] => True
  | (_, x) :: xs => WF x ∧ WFFields xs

end

theorem wfItems_iff {items : List Json} : WFItems items ↔ ∀ x ∈ items, WF x := by
  induction items with
  | nil => simp [WFItems]
  | cons x xs ih => simp [WFItems, ih]

theorem wfFields_iff {fields : List (String × Json)} :
    WFFields fields ↔ ∀ field ∈ fields, WF field.2 := by
  induction fields with
  | nil => simp [WFFields]
  | cons field rest ih =>
      obtain ⟨k, v⟩ := field
      simp [WFFields, ih]

@[simp] theorem wf_null : WF .null := trivial
@[simp] theorem wf_bool (b : Bool) : WF (.bool b) := trivial
@[simp] theorem wf_int (z : Int) : WF (.int z) := trivial
@[simp] theorem wf_float (d : Decimal) : WF (.float d) := trivial
@[simp] theorem wf_str (s : String) : WF (.str s) := trivial

@[simp] theorem wf_arr {items : List Json} : WF (.arr items) ↔ ∀ x ∈ items, WF x := by
  rw [WF, wfItems_iff]

theorem wf_obj {fields : List (String × Json)} :
    WF (.obj fields) ↔ KeysSorted fields ∧ ∀ field ∈ fields, WF field.2 := by
  rw [WF, wfFields_iff]

/-! ## Reading and rebuilding objects -/

/-- The value under a key of an object (`value.get(key)`). -/
def get : Json → String → Option Json
  | .obj fields, key => getField key fields
  | _, _ => none

/-- The object with a value put under a key; anything else unchanged. -/
def set : Json → String → Json → Json
  | .obj fields, key, value => .obj (setField key value fields)
  | other, _, _ => other

/-- The object without a key (`value.pop(key, None)`). -/
def erase : Json → String → Json
  | .obj fields, key => .obj (eraseField key fields)
  | other, _ => other

/-- The object with the value under a key, where there is one, changed by `f`. -/
def update (j : Json) (key : String) (f : Json → Json) : Json :=
  match j.get key with
  | some value => j.set key (f value)
  | none => j

/-- The object with the given fields. -/
def mk (fields : List (String × Json)) : Json :=
  .obj (fields.foldl (fun acc field => setField field.1 field.2 acc) [])

/-- Whether the value counts as true (`bool(value)`). -/
def truthy : Json → Bool
  | .null => false
  | .bool b => b
  | .int z => z ≠ 0
  | .float d => d ≠ 0
  | .str s => s ≠ ""
  | .arr items => !items.isEmpty
  | .obj fields => !fields.isEmpty

/-- Whether the value is an object. -/
def isObj : Json → Bool
  | .obj _ => true
  | _ => false

@[simp] theorem get_set_self {j : Json} (h : j.isObj = true) (key : String) (value : Json) :
    (j.set key value).get key = some value := by
  cases j <;> simp_all [isObj, set, get]

theorem get_set_ne {key other : String} (hne : other ≠ key) (value : Json) (j : Json) :
    (j.set key value).get other = j.get other := by
  cases j <;> simp [set, get, getField_setField_ne hne]

@[simp] theorem get_erase_self (key : String) (j : Json) : (j.erase key).get key = none := by
  cases j <;> simp [erase, get]

theorem get_erase_ne {key other : String} (hne : other ≠ key) (j : Json) :
    (j.erase key).get other = j.get other := by
  cases j <;> simp [erase, get, getField_eraseField_ne hne]

@[simp] theorem isObj_set (key : String) (value : Json) (j : Json) :
    (j.set key value).isObj = j.isObj := by
  cases j <;> rfl

@[simp] theorem isObj_erase (key : String) (j : Json) : (j.erase key).isObj = j.isObj := by
  cases j <;> rfl

@[simp] theorem isObj_update (key : String) (f : Json → Json) (j : Json) :
    (j.update key f).isObj = j.isObj := by
  unfold update
  split <;> simp

theorem isObj_of_get {key : String} {j value : Json} (h : j.get key = some value) :
    j.isObj = true := by
  cases j <;> simp_all [get, isObj]

theorem get_update_self (key : String) (f : Json → Json) (j : Json) :
    (j.update key f).get key = (j.get key).map f := by
  unfold update
  cases h : j.get key with
  | none => simpa using h
  | some value => simp [isObj_of_get h]

theorem get_update_ne {key other : String} (hne : other ≠ key) (f : Json → Json) (j : Json) :
    (j.update key f).get other = j.get other := by
  unfold update
  split
  · exact get_set_ne hne _ _
  · rfl

theorem wf_get {j value : Json} (h : j.WF) {key : String} (hget : j.get key = some value) :
    value.WF := by
  cases j with
  | obj fields => exact (wf_obj.mp h).2 _ (mem_of_getField hget)
  | _ => simp [get] at hget

theorem wf_set {j value : Json} (hj : j.WF) (hv : value.WF) (key : String) :
    (j.set key value).WF := by
  cases j with
  | obj fields =>
      obtain ⟨hsorted, hall⟩ := wf_obj.mp hj
      refine wf_obj.mpr ⟨keysSorted_setField hsorted key value, fun field hfield => ?_⟩
      rcases mem_setField hfield with rfl | hmem
      · exact hv
      · exact hall field hmem
  | _ => exact hj

theorem wf_erase {j : Json} (hj : j.WF) (key : String) : (j.erase key).WF := by
  cases j with
  | obj fields =>
      obtain ⟨hsorted, hall⟩ := wf_obj.mp hj
      exact wf_obj.mpr ⟨keysSorted_eraseField hsorted key,
        fun field hfield => hall field (List.mem_filter.mp hfield).1⟩
  | _ => exact hj

theorem wf_update {j : Json} (hj : j.WF) (key : String) {f : Json → Json}
    (hf : ∀ value, value.WF → (f value).WF) : (j.update key f).WF := by
  unfold update
  split
  · rename_i value hget
    exact wf_set hj (hf value (wf_get hj hget)) key
  · exact hj

theorem wf_mk {fields : List (String × Json)} (h : ∀ field ∈ fields, WF field.2) :
    (mk fields).WF := by
  suffices ∀ acc : List (String × Json), WF (.obj acc) →
      WF (.obj (fields.foldl (fun acc field => setField field.1 field.2 acc) acc)) from
    this [] (by simp [wf_obj])
  induction fields with
  | nil => exact fun acc hacc => hacc
  | cons field rest ih =>
      intro acc hacc
      refine ih (fun f hf => h f (List.mem_cons_of_mem _ hf)) _ ?_
      exact wf_set hacc (h field List.mem_cons_self) field.1

/-- Of the fields an object is made from, the last under a key is the one it holds. -/
theorem get_mk (fields : List (String × Json)) (key : String) :
    (mk fields).get key = getField key fields.reverse := by
  rw [mk, get, getField_foldl_setField, List.append_nil]

theorem mem_mk {fields : List (String × Json)} {field : String × Json}
    (h : field ∈ fields.foldl (fun acc field => setField field.1 field.2 acc) []) :
    field ∈ fields := by
  suffices ∀ acc : List (String × Json),
      field ∈ fields.foldl (fun acc field => setField field.1 field.2 acc) acc →
        field ∈ fields ∨ field ∈ acc by simpa using this [] h
  clear h
  induction fields with
  | nil => exact fun acc hacc => .inr hacc
  | cons head rest ih =>
      intro acc hacc
      rcases ih _ hacc with hmem | hmem
      · exact .inl (List.mem_cons_of_mem _ hmem)
      · rcases mem_setField hmem with rfl | hmem
        · exact .inl List.mem_cons_self
        · exact .inr hmem

@[simp] theorem isObj_mk (fields : List (String × Json)) : (mk fields).isObj = true := rfl

/-- Well-formed objects are determined by what they hold under each key. -/
theorem obj_ext {a b : Json} (ha : a.WF) (hb : b.WF) (hao : a.isObj = true) (hbo : b.isObj = true)
    (h : ∀ key, a.get key = b.get key) : a = b := by
  cases a with
  | obj fa =>
      cases b with
      | obj fb => exact congrArg Json.obj (fields_ext (wf_obj.mp ha).1 (wf_obj.mp hb).1 h)
      | _ => simp [isObj] at hbo
  | _ => simp [isObj] at hao

/-- A later value under a key replaces an earlier one. -/
@[simp] theorem set_set (j : Json) (key : String) (a b : Json) :
    (j.set key a).set key b = j.set key b := by
  cases j <;> simp [set, setField_setField]

/-- Dropping a key undoes putting a value under it. -/
@[simp] theorem erase_set (j : Json) (key : String) (value : Json) :
    (j.set key value).erase key = j.erase key := by
  cases j <;> simp [set, erase, eraseField_setField]

/-- Dropping a key that is not there changes nothing. -/
theorem erase_eq_self {j : Json} {key : String} (h : j.get key = none) : j.erase key = j := by
  cases j with
  | obj fields =>
      rw [erase, eraseField, List.filter_eq_self.mpr]
      intro field hfield
      have hkey := getField_eq_none.mp h
      rw [decide_eq_true_eq]
      rintro rfl
      exact hkey (List.mem_map_of_mem (f := Prod.fst) hfield)
  | _ => rfl

/-- Two changes under one key are one. -/
theorem update_update (j : Json) (key : String) (f g : Json → Json) :
    (j.update key f).update key g = j.update key (g ∘ f) := by
  unfold update
  cases h : j.get key with
  | none => simp [h]
  | some value => simp [isObj_of_get h]

/-- Objects that hold the same under each key are equal, and so are equal non-objects. -/
theorem ext_of_get {a b : Json} (ha : a.WF) (hb : b.WF) (hobj : a.isObj = b.isObj)
    (hother : a.isObj = false → a = b) (h : ∀ key, a.get key = b.get key) : a = b := by
  cases hao : a.isObj with
  | false => exact hother hao
  | true => exact obj_ext ha hb hao (hobj ▸ hao) h

theorem update_of_not_isObj {j : Json} (h : j.isObj = false) (key : String) (f : Json → Json) :
    j.update key f = j := by
  cases j <;> first | rfl | simp [isObj] at h

theorem erase_of_not_isObj {j : Json} (h : j.isObj = false) (key : String) : j.erase key = j := by
  cases j <;> first | rfl | simp [isObj] at h

/-- A change that leaves the value under its key as it is leaves the object as it is. -/
theorem update_eq_self {j : Json} (hj : j.WF) {key : String} {f : Json → Json}
    (h : ∀ value, j.get key = some value → f value = value) : j.update key f = j := by
  cases hget : j.get key with
  | none => rw [update, hget]
  | some value =>
      have hupdate : j.update key f = j.set key value := by
        simp only [update, hget, h value hget]
      have hobj := isObj_of_get hget
      rw [hupdate]
      refine obj_ext (wf_set hj (wf_get hj hget) key) hj (by simpa using hobj) hobj fun k => ?_
      by_cases hk : k = key
      · rw [hk, get_set_self hobj, hget]
      · exact get_set_ne hk _ _

/-- Changes under different keys commute. -/
theorem update_comm {j : Json} (hj : j.WF) {k l : String} (hne : k ≠ l) {f g : Json → Json}
    (hf : ∀ value, value.WF → (f value).WF) (hg : ∀ value, value.WF → (g value).WF) :
    (j.update k f).update l g = (j.update l g).update k f := by
  refine ext_of_get (wf_update (wf_update hj k hf) l hg) (wf_update (wf_update hj l hg) k hf)
    (by simp) (fun hobj => ?_) fun key => ?_
  · have hj' : j.isObj = false := by simpa using hobj
    simp only [update_of_not_isObj hj']
  · by_cases hk : key = k
    · subst hk
      rw [get_update_ne hne, get_update_self, get_update_self, get_update_ne hne]
    · by_cases hl : key = l
      · subst hl
        rw [get_update_self, get_update_ne hk, get_update_ne hk, get_update_self]
      · rw [get_update_ne hl, get_update_ne hk, get_update_ne hk, get_update_ne hl]

/-- Dropping a key commutes with a change under another. -/
theorem erase_update_comm {j : Json} (hj : j.WF) {k l : String} (hne : k ≠ l) {g : Json → Json}
    (hg : ∀ value, value.WF → (g value).WF) :
    (j.update l g).erase k = (j.erase k).update l g := by
  refine ext_of_get (wf_erase (wf_update hj l hg) k) (wf_update (wf_erase hj k) l hg)
    (by simp) (fun hobj => ?_) fun key => ?_
  · have hj' : j.isObj = false := by simpa using hobj
    rw [update_of_not_isObj hj', erase_of_not_isObj hj', update_of_not_isObj hj']
  · by_cases hk : key = k
    · subst hk
      rw [get_erase_self, get_update_ne hne, get_erase_self]
    · by_cases hl : key = l
      · subst hl
        rw [get_erase_ne hk, get_update_self, get_update_self, get_erase_ne hk]
      · rw [get_erase_ne hk, get_update_ne hl, get_update_ne hl, get_erase_ne hk]

/-- Putting a value under a key commutes with a change under another. -/
theorem set_update_comm {j value : Json} (hj : j.WF) (hv : value.WF) {k l : String} (hne : k ≠ l)
    {g : Json → Json} (hg : ∀ value, value.WF → (g value).WF) :
    (j.update l g).set k value = (j.set k value).update l g := by
  refine ext_of_get (wf_set (wf_update hj l hg) hv k) (wf_update (wf_set hj hv k) l hg)
    (by simp) (fun hobj => ?_) fun key => ?_
  · have hj' : j.isObj = false := by simpa using hobj
    have hset : ∀ a : Json, a.isObj = false → a.set k value = a := fun a ha => by
      cases a <;> first | rfl | simp [isObj] at ha
    rw [update_of_not_isObj hj', hset j hj', update_of_not_isObj hj']
  · cases hobj : j.isObj with
    | false =>
        have hset : j.set k value = j := by cases j <;> first | rfl | simp [isObj] at hobj
        rw [update_of_not_isObj hobj, hset, update_of_not_isObj hobj]
    | true =>
        by_cases hk : key = k
        · subst hk
          rw [get_set_self (by simpa using hobj), get_update_ne hne, get_set_self hobj]
        · by_cases hl : key = l
          · subst hl
            rw [get_set_ne hk, get_update_self, get_update_self, get_set_ne hk]
          · rw [get_set_ne hk, get_update_ne hl, get_update_ne hl, get_set_ne hk]

end Json

end Golavo.Lib
