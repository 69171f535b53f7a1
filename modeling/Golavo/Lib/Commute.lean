import Mathlib.Data.List.Perm.Basic

/-! # Runs whose steps commute

A fold over two orders of the same items comes to the same where the items that do not commute stand in
one order in both. -/

namespace Golavo.Lib

variable {α β : Type} {f : β → α → β}

/-- An item that commutes with those before it can be taken first. -/
theorem foldl_swap {a : α} {before : List α} (h : ∀ b ∈ before, ∀ x, f (f x b) a = f (f x a) b)
    (rest : List α) (x : β) : (before ++ a :: rest).foldl f x = (a :: (before ++ rest)).foldl f x := by
  induction before generalizing x with
  | nil => rfl
  | cons b before ih =>
      rw [List.cons_append, List.foldl_cons, ih fun c hc => h c (List.mem_cons_of_mem _ hc),
        List.foldl_cons, h b List.mem_cons_self]
      rfl

/-- **Two orders of the same items come to the same** where the items that depend on each other stand
in one order: one that orders no two items both ways. -/
theorem foldl_eq_of_ordered {depend before : α → α → Prop}
    (hsymm : ∀ {a b}, depend a b → depend b a) (hasymm : ∀ {a b}, before a b → ¬ before b a)
    (hcommute : ∀ {a b}, ¬ depend a b → ∀ x, f (f x b) a = f (f x a) b) {l₁ l₂ : List α}
    (hperm : l₁.Perm l₂) (h₁ : l₁.Pairwise fun a b => depend a b → before a b)
    (h₂ : l₂.Pairwise fun a b => depend a b → before a b) (x : β) :
    l₁.foldl f x = l₂.foldl f x := by
  induction l₁ generalizing l₂ x with
  | nil => rw [List.nil_perm.mp hperm]
  | cons a rest ih =>
      obtain ⟨init, tail, rfl⟩ := List.append_of_mem (hperm.subset List.mem_cons_self)
      rw [List.pairwise_cons] at h₁
      have hinit : ∀ b ∈ init, ∀ x, f (f x b) a = f (f x a) b := by
        intro b hb
        refine hcommute fun hdepend => ?_
        have hba : before b a :=
          (List.pairwise_append.mp h₂).2.2 b hb a List.mem_cons_self (hsymm hdepend)
        have hmem : b ∈ a :: rest := hperm.mem_iff.mpr (List.mem_append_left _ hb)
        rcases List.mem_cons.mp hmem with rfl | hrest
        · exact hasymm hba hba
        · exact hasymm hba (h₁.1 b hrest hdepend)
      have hperm' : rest.Perm (init ++ tail) :=
        (List.perm_cons a).mp (hperm.trans List.perm_middle)
      have hpair' : (init ++ tail).Pairwise fun a b => depend a b → before a b :=
        h₂.sublist (List.Sublist.append_left (List.sublist_cons_self a tail) init)
      rw [foldl_swap hinit, List.foldl_cons, List.foldl_cons, ih hperm' h₁.2 hpair']

end Golavo.Lib
