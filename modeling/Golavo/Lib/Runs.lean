import Mathlib.Data.List.Forall2

/-! # Runs

A system that takes one action after another, the states it **reaches** when every action is allowed
where it is taken, and folds and fallible maps over lists as runs of one step. -/

namespace Golavo.Lib

/-- The states reached from a start by allowed actions. -/
inductive Reaches {σ α : Type} (init : σ → Prop) (allowed : σ → α → Prop) (step : σ → α → σ) :
    σ → Prop where
  | start {s : σ} : init s → Reaches init allowed step s
  | next {s : σ} {a : α} : Reaches init allowed step s → allowed s a →
      Reaches init allowed step (step s a)

section Reaches

variable {σ α : Type} {init : σ → Prop} {allowed : σ → α → Prop} {step : σ → α → σ}

/-- **The invariant rule**: what holds at the start and is kept by every allowed action holds of
every state reached. -/
theorem Reaches.invariant {inv : σ → Prop} {s : σ} (h : Reaches init allowed step s)
    (hinit : ∀ s, init s → inv s) (hstep : ∀ s a, inv s → allowed s a → inv (step s a)) :
    inv s := by
  induction h with
  | start hs => exact hinit _ hs
  | next _ ha ih => exact hstep _ _ ih ha

/-- Whether every action of a run is allowed where it is taken. -/
def RunAllowed (allowed : σ → α → Prop) (step : σ → α → σ) : σ → List α → Prop
  | _, [] => True
  | s, a :: rest => allowed s a ∧ RunAllowed allowed step (step s a) rest

instance RunAllowed.decidable [∀ s a, Decidable (allowed s a)] :
    (s : σ) → (actions : List α) → Decidable (RunAllowed allowed step s actions)
  | _, [] => isTrue trivial
  | s, a :: rest =>
      have := RunAllowed.decidable (step s a) rest
      inferInstanceAs (Decidable (allowed s a ∧ RunAllowed allowed step (step s a) rest))

/-- A run of allowed actions leads to a state reached. -/
theorem Reaches.run {s : σ} {actions : List α} (h : Reaches init allowed step s)
    (hrun : RunAllowed allowed step s actions) :
    Reaches init allowed step (actions.foldl step s) := by
  induction actions generalizing s with
  | nil => exact h
  | cons a rest ih => exact ih (h.next hrun.1) hrun.2

/-- Two laws that agree where an invariant holds, which one of them keeps, hold of the same runs. -/
theorem RunAllowed.congr {P Q : σ → α → Prop} {inv : σ → Prop}
    (hagree : ∀ s a, inv s → (P s a ↔ Q s a)) (hkeep : ∀ s a, inv s → Q s a → inv (step s a))
    {s : σ} (hs : inv s) (actions : List α) :
    RunAllowed P step s actions ↔ RunAllowed Q step s actions := by
  induction actions generalizing s with
  | nil => exact Iff.rfl
  | cons a rest ih =>
      simp only [RunAllowed]
      rw [hagree s a hs]
      exact and_congr_right fun ha => ih (hkeep s a hs ha)

/-- A state reached under more allowed actions. -/
theorem Reaches.mono {allowed' : σ → α → Prop} {s : σ} (h : Reaches init allowed step s)
    (hle : ∀ s a, allowed s a → allowed' s a) : Reaches init allowed' step s := by
  induction h with
  | start hs => exact .start hs
  | next _ ha ih => exact .next ih (hle _ _ ha)

end Reaches

/-- **The fold rule**: a property of the state and the items still to come that every item keeps
holds when none is left. -/
theorem foldl_invariant {σ α : Type} {f : σ → α → σ} {inv : List α → σ → Prop}
    (hstep : ∀ a rest s, inv (a :: rest) s → inv rest (f s a)) (items : List α) {s : σ}
    (h : inv items s) : inv [] (items.foldl f s) := by
  induction items generalizing s with
  | nil => exact h
  | cons a rest ih => exact ih (hstep a rest s h)

/-- A fold that keeps one of the two items it compares picks an item. -/
theorem foldl_pick_mem {α : Type} {f : α → α → α} (hf : ∀ a b, f a b = a ∨ f a b = b)
    (items : List α) (first : α) : items.foldl f first ∈ first :: items := by
  induction items generalizing first with
  | nil => exact List.mem_cons_self
  | cons a rest ih =>
      rcases hf first a with h | h
      · have := ih first
        rw [List.foldl_cons, h]
        rcases List.mem_cons.mp this with heq | hmem
        · rw [heq]
          exact List.mem_cons_self
        · exact List.mem_cons_of_mem _ (List.mem_cons_of_mem _ hmem)
      · rw [List.foldl_cons, h]
        exact List.mem_cons_of_mem _ (ih a)

/-! ## Fallible maps -/

section MapM

variable {α β ε : Type}

/-- A map that may be missing gives the list of what each item gives. -/
theorem mapM_eq_some_iff {f : α → Option β} {items : List α} {results : List β} :
    items.mapM f = some results ↔ List.Forall₂ (fun a b => f a = some b) items results := by
  induction items generalizing results with
  | nil => simp [eq_comm]
  | cons a rest ih =>
      rw [List.mapM_cons]
      cases ha : f a with
      | none => cases results <;> simp [ha]
      | some c =>
          cases hrest : rest.mapM f with
          | none => cases results <;> simp [← ih, hrest]
          | some cs => cases results <;> simp [← ih, hrest, ha]

/-- A map that each result remembers its item of. -/
theorem map_eq_of_mapM_eq_some {f : α → Option β} {g : β → α} (h : ∀ a b, f a = some b → g b = a)
    {items : List α} {results : List β} (hmap : items.mapM f = some results) :
    results.map g = items := by
  have hall := mapM_eq_some_iff.mp hmap
  clear hmap
  induction hall with
  | nil => rfl
  | cons hb _ ih => rw [List.map_cons, ih, h _ _ hb]

/-- A map that may fail gives the list of what each item gives. -/
theorem mapM_eq_ok_iff {f : α → Except ε β} {items : List α} {results : List β} :
    items.mapM f = .ok results ↔ List.Forall₂ (fun a b => f a = .ok b) items results := by
  induction items generalizing results with
  | nil => simp [pure, Except.pure, eq_comm]
  | cons a rest ih =>
      rw [List.mapM_cons]
      cases ha : f a with
      | error e => cases results <;> simp [ha, bind, Except.bind]
      | ok c =>
          cases hrest : rest.mapM f with
          | error e => cases results <;> simp [bind, Except.bind, ← ih, hrest]
          | ok cs => cases results <;> simp [bind, Except.bind, pure, Except.pure, ha, ← ih, hrest]

/-- Items that each give something give a list of results. -/
theorem exists_forall₂ {R : α → β → Prop} {items : List α} (h : ∀ a ∈ items, ∃ b, R a b) :
    ∃ results, List.Forall₂ R items results := by
  induction items with
  | nil => exact ⟨[], .nil⟩
  | cons a rest ih =>
      obtain ⟨b, hb⟩ := h a List.mem_cons_self
      obtain ⟨results, hresults⟩ := ih fun x hx => h x (List.mem_cons_of_mem _ hx)
      exact ⟨b :: results, .cons hb hresults⟩

/-- A map that may fail goes through exactly when each item does. -/
theorem exists_mapM_ok_iff {f : α → Except ε β} {items : List α} :
    (∃ results, items.mapM f = .ok results) ↔ ∀ a ∈ items, ∃ b, f a = .ok b := by
  constructor
  · rintro ⟨results, h⟩ a ha
    obtain ⟨i, hi, rfl⟩ := List.mem_iff_getElem.mp ha
    have hall := mapM_eq_ok_iff.mp h
    exact ⟨_, (List.forall₂_iff_get.mp hall).2 i hi (hall.length_eq ▸ hi)⟩
  · intro h
    obtain ⟨results, hresults⟩ := exists_forall₂ h
    exact ⟨results, mapM_eq_ok_iff.mpr hresults⟩

/-- Every result comes from an item. -/
theorem exists_of_mem_results {R : α → β → Prop} {items : List α} {results : List β}
    (h : List.Forall₂ R items results) {b : β} (hb : b ∈ results) : ∃ a ∈ items, R a b := by
  induction h with
  | nil => cases hb
  | @cons a _ rest _ hab _ ih =>
      rcases List.mem_cons.mp hb with rfl | hb
      · exact ⟨a, List.mem_cons_self, hab⟩
      · obtain ⟨a', ha', hab'⟩ := ih hb
        exact ⟨a', List.mem_cons_of_mem _ ha', hab'⟩

/-- Every item gives a result. -/
theorem exists_of_mem_items {R : α → β → Prop} {items : List α} {results : List β}
    (h : List.Forall₂ R items results) {a : α} (ha : a ∈ items) : ∃ b ∈ results, R a b :=
  exists_of_mem_results h.flip ha

/-- Every result of a map is what some item gives. -/
theorem exists_of_mapM_eq_ok {f : α → Except ε β} {items : List α} {results : List β}
    (h : items.mapM f = .ok results) {b : β} (hb : b ∈ results) : ∃ a ∈ items, f a = .ok b :=
  exists_of_mem_results (mapM_eq_ok_iff.mp h) hb

/-- The results of a map that may be missing are what its items give. -/
theorem mem_of_mapM_eq_some {f : α → Option β} {items : List α} {results : List β}
    (h : items.mapM f = some results) {b : β} : b ∈ results ↔ ∃ a ∈ items, f a = some b := by
  have hall := mapM_eq_some_iff.mp h
  constructor
  · exact exists_of_mem_results hall
  · rintro ⟨a, ha, hb⟩
    obtain ⟨b', hb', heq⟩ := exists_of_mem_items hall ha
    rwa [Option.some.inj (hb.symm.trans heq)]

/-- Items any two of which are apart give results any two of which are. -/
theorem forall₂_pairwise {R : α → β → Prop} {apart : α → α → Prop} {apart' : β → β → Prop}
    {items : List α} {results : List β} (h : List.Forall₂ R items results)
    (hitems : items.Pairwise apart)
    (himp : ∀ a a' b b', R a b → R a' b' → apart a a' → apart' b b') :
    results.Pairwise apart' := by
  induction h with
  | nil => exact .nil
  | @cons a b rest results hab hrest ih =>
      obtain ⟨hfirst, hitems⟩ := List.pairwise_cons.mp hitems
      refine List.pairwise_cons.mpr ⟨fun b' hb' => ?_, ih hitems⟩
      obtain ⟨i, hi, rfl⟩ := List.mem_iff_getElem.mp hb'
      have hi' : i < rest.length := hrest.length_eq ▸ hi
      exact himp a _ b _ hab ((List.forall₂_iff_get.mp hrest).2 i hi' hi)
        (hfirst _ (List.getElem_mem hi'))

end MapM

end Golavo.Lib
