import Mathlib.Logic.Basic
import Mathlib.Tactic.SplitIfs

/-! # Fallible steps

Small steps of a computation that may fail, and what follows when the whole of it goes through. -/

namespace Golavo.Lib

variable {ε ε' α β : Type}

/-- Fail when a condition holds. -/
def failIf (c : Prop) [Decidable c] (e : ε) : Except ε Unit := if c then .error e else .ok ()

/-- A value, or the failure its absence is. -/
def orFail (e : ε) : Option α → Except ε α
  | some a => .ok a
  | none => .error e

/-- Report a step's failure as another's. -/
def wrapError (f : ε → ε') : Except ε α → Except ε' α
  | .ok a => .ok a
  | .error e => .error (f e)

@[simp] theorem failIf_ok_iff {c : Prop} [Decidable c] {e : ε} {u : Unit} :
    failIf c e = .ok u ↔ ¬ c := by
  unfold failIf
  split_ifs with h
  · simp [h]
  · simp [h]

@[simp] theorem orFail_ok_iff {e : ε} {o : Option α} {a : α} : orFail e o = .ok a ↔ o = some a := by
  cases o <;> simp [orFail]

@[simp] theorem wrapError_ok_iff {f : ε → ε'} {x : Except ε α} {a : α} :
    wrapError f x = .ok a ↔ x = .ok a := by
  cases x <;> simp [wrapError]

theorem toOption_eq_some {x : Except ε α} {a : α} : x.toOption = some a ↔ x = .ok a := by
  cases x <;> simp [Except.toOption]

/-- A computation goes through when its first step does and the rest does after it. -/
theorem bind_ok_iff {x : Except ε α} {f : α → Except ε β} {b : β} :
    x >>= f = .ok b ↔ ∃ a, x = .ok a ∧ f a = .ok b := by
  cases x <;> simp [bind, Except.bind]

/-- A computation whose first step is a check goes through when the check does and the rest does. -/
theorem check_bind_ok_iff {x : Except ε Unit} {f : Unit → Except ε β} {b : β} :
    x >>= f = .ok b ↔ x = .ok () ∧ f () = .ok b := by
  rw [bind_ok_iff]
  exact ⟨fun ⟨_, h⟩ => h, fun h => ⟨(), h⟩⟩

/-- A check of every item goes through when each of them does. -/
theorem forM_ok_iff {f : α → Except ε Unit} {items : List α} :
    items.forM f = .ok () ↔ ∀ a ∈ items, f a = .ok () := by
  induction items with
  | nil => simp [pure, Except.pure]
  | cons a rest ih =>
      rw [List.forall_mem_cons, ← ih]
      exact check_bind_ok_iff

end Golavo.Lib
