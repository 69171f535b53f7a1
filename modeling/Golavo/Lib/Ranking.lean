import Mathlib.Data.List.Sort
import Mathlib.Order.Basic

/-! # Ranking by criteria

Items are ranked by a list of criteria: the first that tells two items apart decides, the larger value
first, and where none does the items' own order. A list sorted so is sorted by every **prefix** of the
criteria; by further criteria it is sorted exactly when the items' own order happens to agree with
them (`pairwise_not_ahead_iff`). -/

namespace Golavo.Lib.Ranking

variable {α β : Type*}

/-- No criterion tells two items apart. -/
def Level (criteria : List (α → β)) (a b : α) : Prop := ∀ c ∈ criteria, c a = c b

instance [DecidableEq β] (criteria : List (α → β)) (a b : α) : Decidable (Level criteria a b) :=
  inferInstanceAs (Decidable (∀ c ∈ criteria, c a = c b))

theorem Level.symm {criteria : List (α → β)} {a b : α} (h : Level criteria a b) :
    Level criteria b a := fun c hc => (h c hc).symm

theorem Level.trans {criteria : List (α → β)} {a b c : α} (h : Level criteria a b)
    (h' : Level criteria b c) : Level criteria a c := fun f hf => (h f hf).trans (h' f hf)

@[simp] theorem level_cons {c : α → β} {criteria : List (α → β)} {a b : α} :
    Level (c :: criteria) a b ↔ c a = c b ∧ Level criteria a b := List.forall_mem_cons

theorem level_append {cs ds : List (α → β)} {a b : α} :
    Level (cs ++ ds) a b ↔ Level cs a b ∧ Level ds a b := List.forall_mem_append

section Order

variable [LinearOrder β]

/-- The first criterion that tells two items apart is larger for the first of them. -/
def Ahead : List (α → β) → α → α → Prop
  | [], _, _ => False
  | c :: criteria, a, b => c b < c a ∨ c a = c b ∧ Ahead criteria a b

instance decidableAhead : (criteria : List (α → β)) → (a b : α) → Decidable (Ahead criteria a b)
  | [], _, _ => isFalse id
  | c :: criteria, a, b =>
      have := decidableAhead criteria a b
      inferInstanceAs (Decidable (c b < c a ∨ c a = c b ∧ Ahead criteria a b))

variable {cs ds : List (α → β)} {a b c : α}

theorem ahead_append : Ahead (cs ++ ds) a b ↔ Ahead cs a b ∨ Level cs a b ∧ Ahead ds a b := by
  induction cs with
  | nil =>
      constructor
      · exact fun h => .inr ⟨fun _ hc => absurd hc List.not_mem_nil, h⟩
      · rintro (h | ⟨-, h⟩)
        · exact h.elim
        · exact h
  | cons f cs ih =>
      rw [List.cons_append, Ahead, Ahead, ih, level_cons, and_or_left, or_assoc, and_assoc]

/-- Of two items one is ahead, or no criterion tells them apart. -/
theorem ahead_trichotomy (cs : List (α → β)) (a b : α) :
    Ahead cs a b ∨ Level cs a b ∨ Ahead cs b a := by
  induction cs with
  | nil => exact .inr (.inl fun _ hc => absurd hc List.not_mem_nil)
  | cons f cs ih =>
      rcases lt_trichotomy (f a) (f b) with h | h | h
      · exact .inr (.inr (.inl h))
      · rcases ih with hahead | hlevel | hahead
        · exact .inl (.inr ⟨h, hahead⟩)
        · exact .inr (.inl (level_cons.mpr ⟨h, hlevel⟩))
        · exact .inr (.inr (.inr ⟨h.symm, hahead⟩))
      · exact .inl (.inl h)

theorem Ahead.not_level (h : Ahead cs a b) : ¬ Level cs a b := by
  induction cs with
  | nil => exact h.elim
  | cons f cs ih =>
      rw [level_cons]
      rintro ⟨heq, hlevel⟩
      rcases h with hlt | ⟨-, h⟩
      · exact absurd heq hlt.ne'
      · exact ih h hlevel

theorem Ahead.asymm (h : Ahead cs a b) : ¬ Ahead cs b a := by
  induction cs with
  | nil => exact h.elim
  | cons f cs ih =>
      rintro (hlt | ⟨heq, h'⟩)
      · rcases h with hlt' | ⟨heq', -⟩
        · exact lt_asymm hlt hlt'
        · exact absurd heq' hlt.ne
      · rcases h with hlt' | ⟨-, h⟩
        · exact absurd heq hlt'.ne
        · exact ih h h'

/-- An item level with one that is ahead is ahead as well. -/
theorem Ahead.of_level (hlevel : Level cs a b) (h : Ahead cs b c) : Ahead cs a c := by
  induction cs with
  | nil => exact h
  | cons f cs ih =>
      rw [level_cons] at hlevel
      rcases h with hlt | ⟨heq, h⟩
      · exact .inl (hlevel.1 ▸ hlt)
      · exact .inr ⟨hlevel.1.trans heq, ih hlevel.2 h⟩

theorem Ahead.level (h : Ahead cs a b) (hlevel : Level cs b c) : Ahead cs a c := by
  induction cs with
  | nil => exact h
  | cons f cs ih =>
      rw [level_cons] at hlevel
      rcases h with hlt | ⟨heq, h⟩
      · exact .inl (hlevel.1 ▸ hlt)
      · exact .inr ⟨heq.trans hlevel.1, ih h hlevel.2⟩

theorem Ahead.trans (h : Ahead cs a b) (h' : Ahead cs b c) : Ahead cs a c := by
  induction cs with
  | nil => exact h
  | cons f cs ih =>
      rcases h with hlt | ⟨heq, h⟩
      · rcases h' with hlt' | ⟨heq', -⟩
        · exact .inl (hlt'.trans hlt)
        · exact .inl (heq' ▸ hlt)
      · rcases h' with hlt' | ⟨heq', h'⟩
        · exact .inl (heq ▸ hlt')
        · exact .inr ⟨heq.trans heq', ih h h'⟩

/-! ## Sorting -/

variable [LinearOrder α]

/-- The order of a sort by the criteria and then by the items themselves. -/
def Precedes (criteria : List (α → β)) (a b : α) : Prop :=
  Ahead criteria a b ∨ Level criteria a b ∧ a ≤ b

instance (criteria : List (α → β)) (a b : α) : Decidable (Precedes criteria a b) :=
  inferInstanceAs (Decidable (Ahead criteria a b ∨ Level criteria a b ∧ a ≤ b))

/-- Sort items by criteria, and by themselves where no criterion tells them apart. -/
def rank (criteria : List (α → β)) (items : List α) : List α :=
  items.insertionSort (Precedes criteria)

instance (criteria : List (α → β)) : Std.Total (Precedes criteria) where
  total a b := by
    rcases ahead_trichotomy criteria a b with h | h | h
    · exact .inl (.inl h)
    · exact (le_total a b).imp (fun hab => .inr ⟨h, hab⟩) fun hba => .inr ⟨h.symm, hba⟩
    · exact .inr (.inl h)

instance (criteria : List (α → β)) : IsTrans α (Precedes criteria) where
  trans a b c := by
    rintro (h | ⟨h, hab⟩) (h' | ⟨h', hbc⟩)
    · exact .inl (h.trans h')
    · exact .inl (h.level h')
    · exact .inl (.of_level h h')
    · exact .inr ⟨h.trans h', hab.trans hbc⟩

theorem perm_rank (criteria : List (α → β)) (items : List α) :
    (rank criteria items).Perm items := List.perm_insertionSort _ _

theorem pairwise_rank (criteria : List (α → β)) (items : List α) :
    (rank criteria items).Pairwise (Precedes criteria) := List.pairwise_insertionSort _ _

/-- **Items are ranked the same however they are listed.** -/
theorem rank_eq_of_perm (criteria : List (α → β)) {items items' : List α} (h : items.Perm items') :
    rank criteria items = rank criteria items' := by
  refine List.Perm.eq_of_pairwise (fun a b _ _ hab hba => ?_) (pairwise_rank criteria items)
    (pairwise_rank criteria items')
    (((perm_rank criteria items).trans h).trans (perm_rank criteria items').symm)
  rcases hab with hab | ⟨hlevel, hab⟩
  · rcases hba with hba | ⟨hlevel, -⟩
    · exact absurd hba hab.asymm
    · exact absurd hlevel.symm hab.not_level
  · rcases hba with hba | ⟨-, hba⟩
    · exact absurd hlevel.symm hba.not_level
    · exact le_antisymm hab hba

/-- A sort by criteria is one by every prefix of them. -/
theorem Precedes.not_ahead (h : Precedes (cs ++ ds) a b) : ¬ Ahead cs b a := by
  rcases h with h | ⟨h, -⟩
  · rcases ahead_append.mp h with h | ⟨h, -⟩
    · exact h.asymm
    · exact fun h' => h'.not_level h.symm
  · exact fun h' => h'.not_level (level_append.mp h).1.symm

/-- **A ranking is one by further criteria** exactly when these never favour the later of two items
level on the criteria it was sorted by. -/
theorem pairwise_not_ahead_iff {items : List α} :
    ((rank cs items).Pairwise fun a b => ¬ Ahead (cs ++ ds) b a) ↔
      ∀ a ∈ items, ∀ b ∈ items, a < b → Level cs a b → ¬ Ahead ds b a := by
  constructor
  · intro h a ha b hb hlt hlevel hahead
    have ha := (perm_rank cs items).mem_iff.mpr ha
    have hb := (perm_rank cs items).mem_iff.mpr hb
    obtain ⟨i, hi, rfl⟩ := List.mem_iff_getElem.mp ha
    obtain ⟨j, hj, rfl⟩ := List.mem_iff_getElem.mp hb
    rcases lt_trichotomy i j with hij | rfl | hij
    · exact List.pairwise_iff_getElem.mp h i j hi hj hij
        (ahead_append.mpr (.inr ⟨hlevel.symm, hahead⟩))
    · exact lt_irrefl _ hlt
    · rcases List.pairwise_iff_getElem.mp (pairwise_rank cs items) j i hj hi hij with h' | ⟨-, hle⟩
      · exact h'.not_level hlevel.symm
      · exact absurd hlt (not_lt.mpr hle)
  · intro h
    refine (pairwise_rank cs items).imp_of_mem fun {a b} ha hb hprec hahead => ?_
    have ha := (perm_rank cs items).mem_iff.mp ha
    have hb := (perm_rank cs items).mem_iff.mp hb
    rcases ahead_append.mp hahead with hcs | ⟨hlevel, hds⟩
    · rcases hprec with h' | ⟨h', -⟩
      · exact h'.asymm hcs
      · exact hcs.not_level h'.symm
    · rcases hprec with h' | ⟨-, hle⟩
      · exact h'.not_level hlevel.symm
      · rcases lt_or_eq_of_le hle with hlt | rfl
        · exact h a ha b hb hlt hlevel.symm hds
        · exact hds.asymm hds

end Order

end Golavo.Lib.Ranking
