import Mathlib.Data.String.Basic
import Mathlib.Data.List.Sort

/-! # Sorted field lists

A finite map from names to values, kept as a list of fields in strictly increasing order of their
names: such lists are equal as soon as they hold the same under each name (`fields_ext`). -/

namespace Golavo.Lib.Fields

variable {α : Type}

/-- The value under a key. -/
def getField (key : String) : List (String × α) → Option α
  | [] => none
  | (k, v) :: rest => if k = key then some v else getField key rest

/-- Put a value under a key, in key order. -/
def setField (key : String) (value : α) : List (String × α) → List (String × α)
  | [] => [(key, value)]
  | (k, v) :: rest =>
      if key < k then (key, value) :: (k, v) :: rest
      else if k = key then (key, value) :: rest
      else (k, v) :: setField key value rest

/-- Drop a key. -/
def eraseField (key : String) (fields : List (String × α)) : List (String × α) :=
  fields.filter fun field => field.1 ≠ key

/-- The keys of a field list, in strictly increasing order. -/
def KeysSorted (fields : List (String × α)) : Prop :=
  (fields.map Prod.fst).Pairwise (· < ·)

@[simp] theorem keysSorted_nil : KeysSorted ([] : List (String × α)) := List.Pairwise.nil

theorem keysSorted_cons {k : String} {v : α} {rest : List (String × α)} :
    KeysSorted ((k, v) :: rest) ↔ (∀ l ∈ rest.map Prod.fst, k < l) ∧ KeysSorted rest := by
  simp [KeysSorted]

theorem getField_eq_none {key : String} {fields : List (String × α)} :
    getField key fields = none ↔ key ∉ fields.map Prod.fst := by
  induction fields with
  | nil => simp [getField]
  | cons field rest ih =>
      obtain ⟨k, v⟩ := field
      by_cases h : k = key
      · simp [getField, h]
      · simp [getField, h, ih, Ne.symm h]

theorem mem_of_getField {key : String} {value : α} {fields : List (String × α)}
    (h : getField key fields = some value) : (key, value) ∈ fields := by
  induction fields with
  | nil => simp [getField] at h
  | cons field rest ih =>
      obtain ⟨k, v⟩ := field
      by_cases hk : k = key
      · simp only [getField, hk, if_true, Option.some.injEq] at h
        simp [hk, h]
      · simp only [getField, hk, if_false] at h
        exact List.mem_cons_of_mem _ (ih h)

@[simp] theorem getField_setField_self (key : String) (value : α)
    (fields : List (String × α)) : getField key (setField key value fields) = some value := by
  induction fields with
  | nil => simp [setField, getField]
  | cons field rest ih =>
      obtain ⟨k, v⟩ := field
      by_cases h1 : key < k
      · simp [setField, h1, getField]
      · by_cases h2 : k = key
        · simp [setField, h2, getField]
        · simp [setField, h1, h2, getField, ih]

theorem getField_setField_ne {key other : String} (hne : other ≠ key) (value : α)
    (fields : List (String × α)) :
    getField other (setField key value fields) = getField other fields := by
  induction fields with
  | nil => simp [setField, getField, Ne.symm hne]
  | cons field rest ih =>
      obtain ⟨k, v⟩ := field
      by_cases h1 : key < k
      · simp [setField, h1, getField, Ne.symm hne]
      · by_cases h2 : k = key
        · subst h2
          simp [setField, getField, Ne.symm hne]
        · by_cases h3 : k = other
          · rw [setField, if_neg h1, if_neg h2]
            simp [getField, h3]
          · simp [setField, h1, h2, getField, h3, ih]

theorem eraseField_cons (key k : String) (v : α) (rest : List (String × α)) :
    eraseField key ((k, v) :: rest) =
      if k ≠ key then (k, v) :: eraseField key rest else eraseField key rest := by
  simp [eraseField, List.filter_cons]

@[simp] theorem getField_eraseField_self (key : String) (fields : List (String × α)) :
    getField key (eraseField key fields) = none := by
  rw [getField_eq_none]
  simp [eraseField]

theorem getField_eraseField_ne {key other : String} (hne : other ≠ key)
    (fields : List (String × α)) :
    getField other (eraseField key fields) = getField other fields := by
  induction fields with
  | nil => rfl
  | cons field rest ih =>
      obtain ⟨k, v⟩ := field
      rw [eraseField_cons]
      by_cases h : k = key
      · subst h
        simp [getField, Ne.symm hne, ih]
      · by_cases ho : k = other
        · rw [if_pos h]
          simp [getField, ho]
        · simp [h, getField, ho, ih]

theorem mem_keys_setField {key l : String} {value : α} {fields : List (String × α)} :
    l ∈ (setField key value fields).map Prod.fst ↔ l = key ∨ l ∈ fields.map Prod.fst := by
  induction fields with
  | nil => simp [setField]
  | cons field rest ih =>
      obtain ⟨k, v⟩ := field
      by_cases h1 : key < k
      · simp [setField, h1]
      · by_cases h2 : k = key
        · simp [setField, h2]
        · simp only [setField, h1, h2, if_false, List.map_cons, List.mem_cons, ih]
          tauto

theorem keysSorted_setField {fields : List (String × α)} (h : KeysSorted fields) (key : String)
    (value : α) : KeysSorted (setField key value fields) := by
  induction fields with
  | nil => simp [setField, KeysSorted]
  | cons field rest ih =>
      obtain ⟨k, v⟩ := field
      obtain ⟨hlt, hrest⟩ := keysSorted_cons.mp h
      by_cases h1 : key < k
      · rw [setField, if_pos h1, keysSorted_cons]
        refine ⟨fun l hl => ?_, h⟩
        rcases List.mem_cons.mp hl with rfl | hl
        · exact h1
        · exact h1.trans (hlt l hl)
      · rw [setField, if_neg h1]
        by_cases h2 : k = key
        · rw [if_pos h2, keysSorted_cons]
          exact ⟨h2 ▸ hlt, hrest⟩
        · rw [if_neg h2, keysSorted_cons]
          refine ⟨fun l hl => ?_, ih hrest⟩
          rcases mem_keys_setField.mp hl with rfl | hl
          · exact lt_of_le_of_ne (not_lt.mp h1) h2
          · exact hlt l hl

theorem keysSorted_eraseField {fields : List (String × α)} (h : KeysSorted fields)
    (key : String) : KeysSorted (eraseField key fields) := by
  unfold KeysSorted eraseField at *
  exact List.Pairwise.sublist (List.Sublist.map _ List.filter_sublist) h

/-- Field lists in key order are determined by what they hold under each key. -/
theorem fields_ext {a b : List (String × α)} (ha : KeysSorted a) (hb : KeysSorted b)
    (h : ∀ key, getField key a = getField key b) : a = b := by
  induction a generalizing b with
  | nil =>
      cases b with
      | nil => rfl
      | cons field rest =>
          have := h field.1
          simp [getField] at this
  | cons field rest ih =>
      obtain ⟨k, v⟩ := field
      cases b with
      | nil =>
          have := h k
          simp [getField] at this
      | cons field' rest' =>
          obtain ⟨l, w⟩ := field'
          obtain ⟨hk, hrest⟩ := keysSorted_cons.mp ha
          obtain ⟨hl, hrest'⟩ := keysSorted_cons.mp hb
          have hkl : k = l := by
            by_contra hne
            have h1 : k ∈ rest'.map Prod.fst := by
              by_contra hmem
              have := h k
              simp [getField, Ne.symm hne, getField_eq_none.mpr hmem] at this
            have h2 : l ∈ rest.map Prod.fst := by
              by_contra hmem
              have := h l
              simp [getField, hne, getField_eq_none.mpr hmem] at this
            exact absurd (hk l h2) (not_lt.mpr (hl k h1).le)
          subst hkl
          have hv : v = w := by simpa [getField] using h k
          subst hv
          congr 1
          refine ih hrest hrest' fun key => ?_
          by_cases hkey : k = key
          · subst hkey
            have h1 : getField k rest = none :=
              getField_eq_none.mpr fun hmem => absurd (hk k hmem) (lt_irrefl k)
            have h2 : getField k rest' = none :=
              getField_eq_none.mpr fun hmem => absurd (hl k hmem) (lt_irrefl k)
            rw [h1, h2]
          · simpa [getField, hkey] using h key

theorem mem_setField {key : String} {value : α} {fields : List (String × α)}
    {field : String × α} (h : field ∈ setField key value fields) :
    field = (key, value) ∨ field ∈ fields := by
  induction fields with
  | nil => exact .inl (List.mem_singleton.mp h)
  | cons head rest ih =>
      obtain ⟨k, v⟩ := head
      unfold setField at h
      split_ifs at h with h1 h2
      · exact List.mem_cons.mp h
      · rcases List.mem_cons.mp h with h | h
        · exact .inl h
        · exact .inr (List.mem_cons_of_mem _ h)
      · rcases List.mem_cons.mp h with h | h
        · exact .inr (List.mem_cons.mpr (.inl h))
        · exact (ih h).imp_right (List.mem_cons_of_mem _)

theorem getField_foldl_setField (key : String) (fields acc : List (String × α)) :
    getField key (fields.foldl (fun acc field => setField field.1 field.2 acc) acc) =
      getField key (fields.reverse ++ acc) := by
  induction fields generalizing acc with
  | nil => rfl
  | cons field rest ih =>
      obtain ⟨k, v⟩ := field
      rw [List.foldl_cons, ih, List.reverse_cons, List.append_assoc, List.singleton_append]
      induction rest.reverse with
      | nil =>
          by_cases hk : k = key
          · simp [getField, hk]
          · simp [getField, hk, getField_setField_ne (Ne.symm hk)]
      | cons head tail ihtail => simp only [List.cons_append, getField, ihtail]

theorem setField_setField (key : String) (a b : α) (fields : List (String × α)) :
    setField key b (setField key a fields) = setField key b fields := by
  induction fields with
  | nil => simp [setField]
  | cons field rest ih =>
      obtain ⟨k, v⟩ := field
      by_cases h1 : key < k
      · simp [setField, h1]
      · by_cases h2 : k = key
        · subst h2
          simp [setField]
        · simp [setField, h1, h2, ih]

theorem eraseField_setField (key : String) (value : α) (fields : List (String × α)) :
    eraseField key (setField key value fields) = eraseField key fields := by
  induction fields with
  | nil => simp [setField, eraseField]
  | cons field rest ih =>
      obtain ⟨k, v⟩ := field
      by_cases h1 : key < k
      · rw [setField, if_pos h1, eraseField_cons]
        simp
      · by_cases h2 : k = key
        · rw [setField, if_neg h1, if_pos h2, eraseField_cons, eraseField_cons]
          simp [h2]
        · rw [setField, if_neg h1, if_neg h2, eraseField_cons, eraseField_cons, ih]

/-- A key above all the others goes to the end. -/
theorem setField_append {key : String} {value : α} {acc : List (String × α)}
    (h : ∀ l ∈ acc.map Prod.fst, l < key) : setField key value acc = acc ++ [(key, value)] := by
  induction acc with
  | nil => rfl
  | cons field rest ih =>
      obtain ⟨k, v⟩ := field
      have hk : k < key := h k (by simp)
      rw [setField, if_neg (not_lt.mpr hk.le), if_neg hk.ne,
        ih fun l hl => h l (List.mem_cons_of_mem _ hl), List.cons_append]

end Golavo.Lib.Fields
