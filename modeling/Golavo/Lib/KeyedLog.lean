import Mathlib.Data.List.Nodup

/-! # Keyed logs

A log that only grows and holds each **key** at most once: an item whose key is there already is
ignored. When the keys of the items are distinct, exactly those whose keys are new are appended. -/

namespace Golavo.Lib

section KeyedLog

variable {α κ : Type} [DecidableEq κ] {key : α → κ}

/-- Append an item, unless its key is in the log. -/
def insertNew (key : α → κ) (log : List α) (a : α) : List α :=
  if key a ∈ log.map key then log else log ++ [a]

/-- Append items in order, each unless its key is in the log by then. -/
def insertAllNew (key : α → κ) (log items : List α) : List α := items.foldl (insertNew key) log

@[simp] theorem insertAllNew_nil (log : List α) : insertAllNew key log [] = log := rfl

@[simp] theorem insertAllNew_cons (log items : List α) (a : α) :
    insertAllNew key log (a :: items) = insertAllNew key (insertNew key log a) items := rfl

theorem insertAllNew_append (log items items' : List α) :
    insertAllNew key log (items ++ items') = insertAllNew key (insertAllNew key log items) items' :=
  List.foldl_append

/-- An insertion leaves the log as it was or appends the item. -/
theorem insertNew_cases (key : α → κ) (log : List α) (a : α) :
    (key a ∈ log.map key ∧ insertNew key log a = log) ∨
      (key a ∉ log.map key ∧ insertNew key log a = log ++ [a]) := by
  by_cases h : key a ∈ log.map key
  · exact .inl ⟨h, if_pos h⟩
  · exact .inr ⟨h, if_neg h⟩

/-- After an insertion the key is in the log. -/
theorem key_mem_insertNew (key : α → κ) (log : List α) (a : α) :
    key a ∈ (insertNew key log a).map key := by
  rcases insertNew_cases key log a with ⟨h, heq⟩ | ⟨-, heq⟩
  · rw [heq]
    exact h
  · rw [heq, List.map_append]
    exact List.mem_append_right _ (List.mem_singleton_self _)

/-- A log is a prefix of what it becomes. -/
theorem prefix_insertAllNew (key : α → κ) (log items : List α) :
    log <+: insertAllNew key log items := by
  induction items generalizing log with
  | nil => exact List.prefix_refl _
  | cons a rest ih =>
      refine List.IsPrefix.trans ?_ (ih (insertNew key log a))
      rcases insertNew_cases key log a with ⟨-, heq⟩ | ⟨-, heq⟩
      · exact ⟨[], by rw [heq, List.append_nil]⟩
      · rw [heq]
        exact List.prefix_append _ _

/-- Every item's key is in the log once all are inserted. -/
theorem key_mem_insertAllNew {log items : List α} {a : α} (h : a ∈ items) :
    key a ∈ (insertAllNew key log items).map key := by
  induction items generalizing log with
  | nil => cases h
  | cons b rest ih =>
      rcases List.mem_cons.mp h with rfl | h
      · exact List.map_subset key (prefix_insertAllNew key (insertNew key log a) rest).subset
          (key_mem_insertNew key log a)
      · exact ih h

/-- Every item of the log was there or is one of those inserted. -/
theorem mem_insertAllNew {log items : List α} {a : α} (h : a ∈ insertAllNew key log items) :
    a ∈ log ∨ a ∈ items := by
  induction items generalizing log with
  | nil => exact .inl h
  | cons b rest ih =>
      rcases ih h with hmem | hmem
      · rcases insertNew_cases key log b with ⟨-, heq⟩ | ⟨-, heq⟩
        · rw [heq] at hmem
          exact .inl hmem
        · rw [heq] at hmem
          rcases List.mem_append.mp hmem with hmem | hmem
          · exact .inl hmem
          · exact .inr (List.mem_singleton.mp hmem ▸ List.mem_cons_self)
      · exact .inr (List.mem_cons_of_mem _ hmem)

/-- The keys stay distinct. -/
theorem nodup_insertAllNew {log : List α} (items : List α) (h : (log.map key).Nodup) :
    ((insertAllNew key log items).map key).Nodup := by
  induction items generalizing log with
  | nil => exact h
  | cons a rest ih =>
      refine ih ?_
      rcases insertNew_cases key log a with ⟨-, heq⟩ | ⟨hnew, heq⟩
      · rw [heq]
        exact h
      · rw [heq, List.map_append, List.map_singleton]
        exact List.nodup_append.mpr ⟨h, List.nodup_singleton _, fun x hx y hy hxy =>
          hnew (List.mem_singleton.mp hy ▸ hxy ▸ hx)⟩

/-- **Items with distinct keys**: exactly those whose keys are new are appended, in order. -/
theorem insertAllNew_eq {log items : List α} (h : (items.map key).Nodup) :
    insertAllNew key log items = log ++ items.filter fun a => key a ∉ log.map key := by
  induction items generalizing log with
  | nil => simp
  | cons a rest ih =>
      rw [List.map_cons, List.nodup_cons] at h
      rw [insertAllNew_cons, ih h.2]
      rcases insertNew_cases key log a with ⟨hmem, heq⟩ | ⟨hnew, heq⟩
      · rw [heq, List.filter_cons_of_neg (by simpa using hmem)]
      · have hrest : rest.filter (fun b => key b ∉ (log ++ [a]).map key) =
            rest.filter fun b => key b ∉ log.map key := by
          refine List.filter_congr fun b hb => ?_
          have hne : key b ≠ key a := fun heq => h.1 (heq ▸ List.mem_map_of_mem hb)
          simp [hne]
        rw [heq, hrest, List.filter_cons_of_pos (by simpa using hnew), List.append_assoc,
          List.singleton_append]

/-- Nothing is appended when every key is there. -/
theorem insertAllNew_of_mem {log items : List α} (h : ∀ a ∈ items, key a ∈ log.map key) :
    insertAllNew key log items = log := by
  induction items with
  | nil => rfl
  | cons a rest ih =>
      rw [insertAllNew_cons, insertNew, if_pos (h a List.mem_cons_self)]
      exact ih fun b hb => h b (List.mem_cons_of_mem _ hb)

end KeyedLog

end Golavo.Lib
