import Mathlib.Data.List.Basic
import Mathlib.Tactic.SplitIfs

/-! # Crashes

A **script** is the sequence of file-system calls an operation makes from a given state, each with
its effect and with what the handlers around it do if it raises. A process may be killed between any
two calls, or one call may raise; either way the state left is a function of the place. -/

namespace Golavo.Lib

variable {σ : Type}

/-- A file-system call: its effect, and the effects of the handlers that run if it raises. -/
structure FsCall (σ : Type) where
  effect : σ → σ
  onError : List (σ → σ)

/-- Apply effects one after another. -/
def applyAll (effects : List (σ → σ)) (s : σ) : σ := effects.foldl (fun s f => f s) s

/-- The state after a whole script. -/
def completed (script : List (FsCall σ)) (s : σ) : σ := applyAll (script.map FsCall.effect) s

/-- The state left when the process is killed after `k` calls. -/
def killedAfter (k : Nat) (script : List (FsCall σ)) (s : σ) : σ := completed (script.take k) s

/-- The state left when call `k` raises and the handlers around it have run. -/
def failedAt (k : Nat) (script : List (FsCall σ)) (s : σ) : σ :=
  match script[k]? with
  | some call => applyAll call.onError (killedAfter k script s)
  | none => completed script s

@[simp] theorem applyAll_nil (s : σ) : applyAll [] s = s := rfl

@[simp] theorem applyAll_cons (f : σ → σ) (effects : List (σ → σ)) (s : σ) :
    applyAll (f :: effects) s = applyAll effects (f s) := rfl

@[simp] theorem completed_nil (s : σ) : completed [] s = s := rfl

@[simp] theorem completed_cons (call : FsCall σ) (script : List (FsCall σ)) (s : σ) :
    completed (call :: script) s = completed script (call.effect s) := rfl

@[simp] theorem completed_append (a b : List (FsCall σ)) (s : σ) :
    completed (a ++ b) s = completed b (completed a s) := by
  simp [completed, applyAll, List.foldl_append]

/-- A kill within the first of two scripts leaves what it leaves there; a later one falls in the
second. -/
theorem killedAfter_append (k : Nat) (a b : List (FsCall σ)) (s : σ) :
    killedAfter k (a ++ b) s =
      if k ≤ a.length then killedAfter k a s else killedAfter (k - a.length) b (completed a s) := by
  unfold killedAfter
  rw [List.take_append]
  split_ifs with h
  · simp [Nat.sub_eq_zero_of_le h]
  · rw [List.take_of_length_le (by omega), completed_append]

/-- A kill after the last call leaves the finished state. -/
theorem killedAfter_of_length_le {k : Nat} {script : List (FsCall σ)} (h : script.length ≤ k)
    (s : σ) : killedAfter k script s = completed script s := by
  rw [killedAfter, List.take_of_length_le h]

/-- A failure within the first of two scripts leaves what it leaves there; a later one falls in the
second. -/
theorem failedAt_append (k : Nat) (a b : List (FsCall σ)) (s : σ) :
    failedAt k (a ++ b) s =
      if k < a.length then failedAt k a s else failedAt (k - a.length) b (completed a s) := by
  unfold failedAt
  split_ifs with h
  · rw [List.getElem?_append_left h, killedAfter_append, if_pos (Nat.le_of_lt h)]
    rw [List.getElem?_eq_getElem h]
  · have hle : a.length ≤ k := by omega
    rw [List.getElem?_append_right hle, completed_append]
    have hkilled : killedAfter k (a ++ b) s = killedAfter (k - a.length) b (completed a s) := by
      rw [killedAfter_append]
      split_ifs with h'
      · have heq : k = a.length := Nat.le_antisymm h' hle
        rw [heq, Nat.sub_self, killedAfter_of_length_le (Nat.le_refl _)]
        rfl
      · rfl
    rw [hkilled]

/-- **What every effect keeps holds after a kill anywhere.** -/
theorem killedAfter_invariant {P : σ → Prop} {script : List (FsCall σ)}
    (h : ∀ call ∈ script, ∀ s, P s → P (call.effect s)) (k : Nat) {s : σ} (hs : P s) :
    P (killedAfter k script s) := by
  have hall : ∀ calls : List (FsCall σ), (∀ call ∈ calls, ∀ s, P s → P (call.effect s)) →
      ∀ s, P s → P (completed calls s) := by
    intro calls
    induction calls with
    | nil => exact fun _ _ hs => hs
    | cons call rest ih =>
        intro hcalls s hs
        exact ih (fun c hc => hcalls c (List.mem_cons_of_mem _ hc)) _
          (hcalls call List.mem_cons_self s hs)
  exact hall _ (fun call hcall => h call (List.mem_of_mem_take hcall)) s hs

/-! ## Every cut -/

/-- A condition that holds wherever a script is cut off. -/
def Throughout (P : σ → Prop) (script : List (FsCall σ)) (s : σ) : Prop :=
  ∀ k, P (killedAfter k script s)

theorem throughout_nil {P : σ → Prop} {s : σ} (h : P s) : Throughout P [] s := fun k => by
  rw [killedAfter, List.take_nil]
  exact h

theorem Throughout.completed {P : σ → Prop} {script : List (FsCall σ)} {s : σ}
    (h : Throughout P script s) : P (completed script s) := by
  rw [← killedAfter_of_length_le (Nat.le_refl script.length)]
  exact h _

theorem Throughout.append {P : σ → Prop} {a b : List (FsCall σ)} {s : σ} (ha : Throughout P a s)
    (hb : Throughout P b (Lib.completed a s)) : Throughout P (a ++ b) s := by
  intro k
  rw [killedAfter_append]
  split_ifs with hk
  · exact ha k
  · exact hb (k - a.length)

/-- A script that shows all of its change or none. -/
structure Atomic (f : σ → σ) (script : List (FsCall σ)) : Prop where
  killed : ∀ k s, killedAfter k script s = s ∨ killedAfter k script s = f s
  completed : ∀ s, completed script s = f s

theorem Atomic.throughout {P : σ → Prop} {f : σ → σ} {script : List (FsCall σ)} {s : σ}
    (h : Atomic f script) (hs : P s) (hf : P (f s)) : Throughout P script s := by
  intro k
  rcases h.killed k s with heq | heq
  · rw [heq]
    exact hs
  · rw [heq]
    exact hf

theorem completed_quiet {script : List (FsCall σ)} (h : ∀ call ∈ script, call.effect = id) (s : σ) :
    completed script s = s := by
  induction script with
  | nil => rfl
  | cons call rest ih =>
      rw [completed_cons, h call List.mem_cons_self]
      exact ih fun c hc => h c (List.mem_cons_of_mem _ hc)

/-- One call that changes something, among calls that do not. -/
theorem atomic_of_quiet {a b : List (FsCall σ)} (ha : ∀ call ∈ a, call.effect = id)
    (hb : ∀ call ∈ b, call.effect = id) (call : FsCall σ) : Atomic call.effect (a ++ call :: b) := by
  have htake : ∀ {script : List (FsCall σ)}, (∀ call ∈ script, call.effect = id) → ∀ k s,
      killedAfter k script s = s := fun h k s =>
    completed_quiet (fun c hc => h c (List.mem_of_mem_take hc)) s
  constructor
  · intro k s
    rw [killedAfter_append, htake ha, completed_quiet ha]
    split_ifs with hk
    · exact .inl rfl
    · obtain ⟨n, hn⟩ : ∃ n, k - a.length = n + 1 := ⟨k - a.length - 1, by omega⟩
      rw [hn]
      exact .inr (htake hb n _)
  · intro s
    rw [completed_append, completed_quiet ha, completed_cons, completed_quiet hb]

/-- A script that leads from one state to another by states that satisfy `P`. -/
structure Passes (P : σ → Prop) (script : List (FsCall σ)) (s s' : σ) : Prop where
  throughout : Throughout P script s
  completed : completed script s = s'

theorem Passes.append {P : σ → Prop} {a b : List (FsCall σ)} {s m s' : σ} (ha : Passes P a s m)
    (hb : Passes P b m s') : Passes P (a ++ b) s s' where
  throughout := ha.throughout.append (ha.completed.symm ▸ hb.throughout)
  completed := by rw [completed_append, ha.completed, hb.completed]

theorem Passes.mono {P Q : σ → Prop} {script : List (FsCall σ)} {s s' : σ} (h : Passes P script s s')
    (hPQ : ∀ s, P s → Q s) : Passes Q script s s' where
  throughout k := hPQ _ (h.throughout k)
  completed := h.completed

/-- Where a script leads satisfies `P`. -/
theorem Passes.reached {P : σ → Prop} {script : List (FsCall σ)} {s s' : σ}
    (h : Passes P script s s') : P s' := by
  rw [← h.completed]
  exact h.throughout.completed

theorem Atomic.passes {P : σ → Prop} {f : σ → σ} {script : List (FsCall σ)} {s : σ}
    (h : Atomic f script) (hs : P s) (hf : P (f s)) : Passes P script s (f s) where
  throughout := h.throughout hs hf
  completed := h.completed s

end Golavo.Lib
