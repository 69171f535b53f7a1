import Mathlib.Data.List.Nodup

/-! # Tables

An insertion-ordered dictionary: entries listed in the order their keys were first put, each under a
key of its own that the entry itself carries. Putting an entry replaces the one under its key in
place, or appends it. -/

namespace Golavo.Lib

/-- A dictionary of entries by their keys, in insertion order. -/
structure Table (α : Type) {κ : Type} (key : α → κ) where
  entries : List α
  nodup : (entries.map key).Nodup

namespace Table

variable {α κ : Type} {key : α → κ}

/-- A table without entries. -/
def empty : Table α key := ⟨[], List.nodup_nil⟩

/-- Tables with the same entries are equal. -/
theorem ext_entries {t u : Table α key} (h : t.entries = u.entries) : t = u := by
  cases t
  cases u
  cases h
  rfl

/-- The entries a test keeps. -/
def keep (t : Table α key) (p : α → Bool) : Table α key :=
  ⟨t.entries.filter p, t.nodup.sublist (List.filter_sublist.map key)⟩

@[simp] theorem mem_keep {t : Table α key} {p : α → Bool} {a : α} :
    a ∈ (t.keep p).entries ↔ a ∈ t.entries ∧ p a = true := List.mem_filter

section Keyed

variable [DecidableEq κ]

/-- The entry under a key. -/
def get? (t : Table α key) (k : κ) : Option α := t.entries.find? fun a => key a = k

/-- An entry is found under its own key. -/
theorem get?_eq_some_iff {t : Table α key} {k : κ} {a : α} :
    t.get? k = some a ↔ a ∈ t.entries ∧ key a = k := by
  constructor
  · intro h
    have hkey := List.find?_some h
    exact ⟨List.mem_of_find?_eq_some h, by simpa using hkey⟩
  · rintro ⟨hmem, rfl⟩
    cases hfind : t.get? (key a) with
    | none =>
        have := List.find?_eq_none.mp hfind a hmem
        simp at this
    | some b =>
        have hkey := List.find?_some hfind
        exact congrArg some (List.inj_on_of_nodup_map t.nodup (List.mem_of_find?_eq_some hfind) hmem
          (by simpa using hkey))

theorem get?_eq_none_iff {t : Table α key} {k : κ} : t.get? k = none ↔ k ∉ t.entries.map key := by
  rw [get?, List.find?_eq_none, List.mem_map]
  constructor
  · rintro h ⟨a, ha, hk⟩
    exact h a ha (by simpa using hk)
  · intro h a ha hk
    exact h ⟨a, ha, by simpa using hk⟩

/-- The entries after one is put: it replaces the one under its key, or comes last. -/
def putEntries (key : α → κ) (entries : List α) (a : α) : List α :=
  if key a ∈ entries.map key then entries.map fun b => if key b = key a then a else b
  else entries ++ [a]

theorem map_key_putEntries (entries : List α) (a : α) :
    (putEntries key entries a).map key =
      if key a ∈ entries.map key then entries.map key else entries.map key ++ [key a] := by
  unfold putEntries
  split_ifs with h
  · rw [List.map_map]
    refine List.map_congr_left fun b _ => ?_
    by_cases hb : key b = key a
    · simp [hb]
    · simp [hb]
  · rw [List.map_append, List.map_singleton]

/-- Put an entry under its key. -/
def put (t : Table α key) (a : α) : Table α key where
  entries := putEntries key t.entries a
  nodup := by
    rw [map_key_putEntries]
    split_ifs with h
    · exact t.nodup
    · exact List.nodup_append.mpr ⟨t.nodup, List.nodup_singleton _, fun k hk l hl =>
        (List.mem_singleton.mp hl) ▸ fun heq => h (heq ▸ hk)⟩

/-- The entries of a table an entry was put in. -/
theorem mem_put {t : Table α key} {a b : α} :
    b ∈ (t.put a).entries ↔ b = a ∨ (b ∈ t.entries ∧ key b ≠ key a) := by
  show b ∈ putEntries key t.entries a ↔ _
  unfold putEntries
  split_ifs with h
  · obtain ⟨c, hc, hkey⟩ := List.mem_map.mp h
    rw [List.mem_map]
    constructor
    · rintro ⟨d, hd, rfl⟩
      by_cases hdk : key d = key a
      · exact .inl (if_pos hdk)
      · rw [if_neg hdk]
        exact .inr ⟨hd, hdk⟩
    · rintro (rfl | ⟨hb, hne⟩)
      · exact ⟨c, hc, if_pos hkey⟩
      · exact ⟨b, hb, if_neg hne⟩
  · rw [List.mem_append, List.mem_singleton]
    constructor
    · rintro (hb | rfl)
      · exact .inr ⟨hb, fun heq => h (heq ▸ List.mem_map_of_mem hb)⟩
      · exact .inl rfl
    · rintro (rfl | ⟨hb, -⟩)
      · exact .inr rfl
      · exact .inl hb

@[simp] theorem get?_put_self (t : Table α key) (a : α) : (t.put a).get? (key a) = some a :=
  get?_eq_some_iff.mpr ⟨mem_put.mpr (.inl rfl), rfl⟩

theorem get?_put_ne {k : κ} {a : α} (h : k ≠ key a) (t : Table α key) :
    (t.put a).get? k = t.get? k := by
  ext b
  rw [get?_eq_some_iff, get?_eq_some_iff, mem_put]
  constructor
  · rintro ⟨rfl | ⟨hb, -⟩, hk⟩
    · exact absurd hk.symm h
    · exact ⟨hb, hk⟩
  · rintro ⟨hb, rfl⟩
    exact ⟨.inr ⟨hb, h⟩, rfl⟩

/-- A table keeps its size or grows by the entry put. -/
theorem keys_put (t : Table α key) (a : α) :
    (t.put a).entries.map key =
      if key a ∈ t.entries.map key then t.entries.map key else t.entries.map key ++ [key a] :=
  map_key_putEntries _ _

/-- The table without the entry under a key. -/
def erase (t : Table α key) (k : κ) : Table α key := t.keep fun a => key a ≠ k

theorem mem_erase {t : Table α key} {k : κ} {a : α} :
    a ∈ (t.erase k).entries ↔ a ∈ t.entries ∧ key a ≠ k := by
  rw [erase, mem_keep, decide_eq_true_eq]

end Keyed

end Table

end Golavo.Lib
