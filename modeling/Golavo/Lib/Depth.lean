import Golavo.Lib.Json

/-! # Nesting

How deep a JSON value nests, counting the value itself, and the exact key sets of its objects. -/

namespace Golavo.Lib.Json

open Fields

mutual

/-- The number of levels of a value. -/
def depth : Json → Nat
  | .arr items => depthItems items + 1
  | .obj fields => depthFields fields + 1
  | _ => 1

def depthItems : List Json → Nat
  | [] => 0
  | x :: xs => max (depth x) (depthItems xs)

def depthFields : List (String × Json) → Nat
  | [] => 0
  | (_, x) :: xs => max (depth x) (depthFields xs)

end

@[simp] theorem depth_null : depth .null = 1 := rfl
@[simp] theorem depth_bool (b : Bool) : depth (.bool b) = 1 := rfl
@[simp] theorem depth_int (z : Int) : depth (.int z) = 1 := rfl
@[simp] theorem depth_float (d : Decimal) : depth (.float d) = 1 := rfl
@[simp] theorem depth_str (s : String) : depth (.str s) = 1 := rfl

theorem depthItems_le {items : List Json} {n : Nat} (h : ∀ x ∈ items, depth x ≤ n) :
    depthItems items ≤ n := by
  induction items with
  | nil => exact Nat.zero_le _
  | cons x xs ih =>
      exact max_le (h x List.mem_cons_self) (ih fun y hy => h y (List.mem_cons_of_mem _ hy))

theorem depthFields_le {fields : List (String × Json)} {n : Nat}
    (h : ∀ field ∈ fields, depth field.2 ≤ n) : depthFields fields ≤ n := by
  induction fields with
  | nil => exact Nat.zero_le _
  | cons field rest ih =>
      exact max_le (h field List.mem_cons_self) (ih fun g hg => h g (List.mem_cons_of_mem _ hg))

/-- A list nests one level deeper than its items. -/
theorem depth_arr_le {items : List Json} {n : Nat} (h : ∀ x ∈ items, depth x ≤ n) :
    depth (.arr items) ≤ n + 1 :=
  Nat.succ_le_succ (depthItems_le h)

/-- An object nests one level deeper than its fields. -/
theorem depth_mk_le {fields : List (String × Json)} {n : Nat}
    (h : ∀ field ∈ fields, depth field.2 ≤ n) : depth (mk fields) ≤ n + 1 :=
  Nat.succ_le_succ (depthFields_le fun field hfield => h field (mem_mk hfield))

/-! ## Key sets -/

/-- Whether a value is an object with exactly the given keys. -/
def hasExactly (j : Json) (keys : List String) : Bool :=
  j.isObj && keys.all (fun key => (j.get key).isSome) &&
    match j with
    | .obj fields => fields.all (·.1 ∈ keys)
    | _ => false

/-- An object made from fields has the keys of the fields. -/
theorem hasExactly_mk {fields : List (String × Json)} {keys : List String}
    (hin : ∀ field ∈ fields, field.1 ∈ keys) (hall : ∀ key ∈ keys, key ∈ fields.map Prod.fst) :
    (mk fields).hasExactly keys = true := by
  have hget : ∀ key ∈ keys, ((mk fields).get key).isSome = true := by
    intro key hkey
    rw [get_mk, Option.isSome_iff_ne_none, ne_eq, getField_eq_none, not_not, List.map_reverse,
      List.mem_reverse]
    exact hall key hkey
  have hkeys : ∀ field ∈ fields.foldl (fun acc field => setField field.1 field.2 acc) [],
      field.1 ∈ keys := fun field hfield => hin field (mem_mk hfield)
  simp only [hasExactly, isObj_mk, Bool.true_and, Bool.and_eq_true, List.all_eq_true]
  exact ⟨hget, by simpa [mk] using hkeys⟩

theorem isObj_of_hasExactly {j : Json} {keys : List String} (h : j.hasExactly keys = true) :
    j.isObj = true := by
  simp only [hasExactly, Bool.and_eq_true] at h
  exact h.1.1

/-- Every key of the set holds a value. -/
theorem get_of_hasExactly {j : Json} {keys : List String} (h : j.hasExactly keys = true)
    {key : String} (hkey : key ∈ keys) : ∃ value, j.get key = some value := by
  simp only [hasExactly, Bool.and_eq_true, List.all_eq_true] at h
  exact Option.isSome_iff_exists.mp (h.1.2 key hkey)

end Golavo.Lib.Json
