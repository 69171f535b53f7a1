import Mathlib.Logic.Basic
import Mathlib.Tactic.SplitIfs

/-! # Computations that keep a state and may raise

A computation runs in a state, changes it and returns or raises; what it did before it raised stays
done. It **keeps** a property that holds afterwards, returned or raised, wherever it held before,
and **ensures** one that holds wherever it returns. Both are proved along the text of a
computation. -/

namespace Golavo.Lib

/-- A computation in a state, which may raise. -/
abbrev Effect (σ ε α : Type) : Type := ExceptT ε (StateM σ) α

namespace Effect

variable {σ ε α β : Type}

/-- What a computation returns or raises from a state, and the state it leaves. -/
def eval (m : Effect σ ε α) (s : σ) : Except ε α × σ := m.run.run s

/-- One step: what it returns or raises from a state, and the state it leaves. -/
def step (f : σ → Except ε α × σ) : Effect σ ε α := ExceptT.mk (StateT.mk f)

/-- Change the state. -/
def change (f : σ → σ) : Effect σ ε Unit := modify f

@[simp] theorem eval_pure (a : α) (s : σ) : eval (pure a : Effect σ ε α) s = (.ok a, s) := rfl

@[simp] theorem eval_throw (e : ε) (s : σ) : eval (throw e : Effect σ ε α) s = (.error e, s) := rfl

@[simp] theorem eval_step (f : σ → Except ε α × σ) (s : σ) : eval (step f) s = f s := rfl

@[simp] theorem eval_change (f : σ → σ) (s : σ) :
    eval (change f : Effect σ ε Unit) s = (.ok (), f s) := rfl

theorem eval_bind (m : Effect σ ε α) (f : α → Effect σ ε β) (s : σ) :
    eval (m >>= f) s = match eval m s with
      | (.ok a, s') => eval (f a) s'
      | (.error e, s') => (.error e, s') := by
  unfold eval
  rw [ExceptT.run_bind, StateT.run_bind]
  rcases m.run.run s with ⟨x, s'⟩
  cases x <;> rfl

theorem eval_tryCatch (m : Effect σ ε α) (h : ε → Effect σ ε α) (s : σ) :
    eval (tryCatch m h) s = match eval m s with
      | (.ok a, s') => (.ok a, s')
      | (.error e, s') => eval (h e) s' := by
  unfold eval
  change StateT.run (ExceptT.tryCatch m h) s = _
  rw [ExceptT.tryCatch, ExceptT.mk, StateT.run_bind]
  change (m.run.run s >>= _) = _
  rcases m.run.run s with ⟨x, s'⟩
  cases x <;> rfl

/-- A computation keeps a property, whether it returns or raises. -/
def Keeps (P : σ → Prop) (m : Effect σ ε α) : Prop := ∀ s, P s → P (m.eval s).2

/-- Where a computation returns, a property holds. -/
def Ensures (P : σ → Prop) (m : Effect σ ε α) : Prop := ∀ s a s', m.eval s = (.ok a, s') → P s'

section Rules

variable {P : σ → Prop}

theorem Keeps.pure (a : α) : Keeps P (Pure.pure a : Effect σ ε α) := fun _ h => h

theorem Keeps.throw (e : ε) : Keeps P (MonadExcept.throw e : Effect σ ε α) := fun _ h => h

theorem Keeps.change {f : σ → σ} (h : ∀ s, P s → P (f s)) :
    Keeps P (Effect.change f : Effect σ ε Unit) := h

theorem Keeps.bind {m : Effect σ ε α} {f : α → Effect σ ε β} (hm : Keeps P m)
    (hf : ∀ a, Keeps P (f a)) : Keeps P (m >>= f) := by
  intro s hs
  have hm := hm s hs
  rw [eval_bind]
  rcases hrun : m.eval s with ⟨x, s'⟩
  rw [hrun] at hm
  cases x with
  | ok a => exact hf a s' hm
  | error e => exact hm

theorem Keeps.tryCatch {m : Effect σ ε α} {h : ε → Effect σ ε α} (hm : Keeps P m)
    (hh : ∀ e, Keeps P (h e)) : Keeps P (MonadExcept.tryCatch m h) := by
  intro s hs
  have hm := hm s hs
  rw [eval_tryCatch]
  rcases hrun : m.eval s with ⟨x, s'⟩
  rw [hrun] at hm
  cases x with
  | ok a => exact hm
  | error e => exact hh e s' hm

theorem Keeps.ite {c : Prop} [Decidable c] {m n : Effect σ ε α} (hm : Keeps P m)
    (hn : Keeps P n) : Keeps P (if c then m else n) := by
  split_ifs
  · exact hm
  · exact hn

theorem Keeps.forM {items : List β} {f : β → Effect σ ε PUnit} (h : ∀ b, Keeps P (f b)) :
    Keeps P (items.forM f) := by
  induction items with
  | nil => exact Keeps.pure _
  | cons b rest ih => exact Keeps.bind (h b) fun _ => ih

/-- What the rest of a computation ensures. -/
theorem Ensures.bind {m : Effect σ ε α} {f : α → Effect σ ε β} (hf : ∀ a, Ensures P (f a)) :
    Ensures P (m >>= f) := by
  intro s b s' h
  rw [eval_bind] at h
  rcases hrun : m.eval s with ⟨x, t⟩
  rw [hrun] at h
  cases x with
  | ok a => exact hf a t b s' h
  | error e => cases congrArg Prod.fst h

/-- What is ensured once and kept by the rest. -/
theorem Ensures.bind_keeps {m : Effect σ ε α} {f : α → Effect σ ε β} (hm : Ensures P m)
    (hf : ∀ a, Keeps P (f a)) : Ensures P (m >>= f) := by
  intro s b s' h
  rw [eval_bind] at h
  rcases hrun : m.eval s with ⟨x, t⟩
  rw [hrun] at h
  cases x with
  | ok a =>
      have hkept := hf a t (hm s a t hrun)
      simp only [h] at hkept
      exact hkept
  | error e => cases congrArg Prod.fst h

theorem Ensures.throw (e : ε) : Ensures P (MonadExcept.throw e : Effect σ ε α) := by
  intro s a s' h
  cases congrArg Prod.fst h

theorem Ensures.change {f : σ → σ} (h : ∀ s, P (f s)) :
    Ensures P (Effect.change f : Effect σ ε Unit) := by
  intro s a s' hrun
  rw [← (Prod.mk.inj hrun).2]
  exact h s

theorem Ensures.ite {c : Prop} [Decidable c] {m n : Effect σ ε α} (hm : Ensures P m)
    (hn : Ensures P n) : Ensures P (if c then m else n) := by
  split_ifs
  · exact hm
  · exact hn

end Rules

end Effect

end Golavo.Lib
