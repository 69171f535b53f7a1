import Mathlib.Data.List.Sort

/-! # Stable sorting

Insertion sort keeps the order of the items it cannot tell apart. A sorted list is determined by its
**classes**, the items that cannot be told apart from each one, in their order; so sorting again after
sorting the other way round, and filtering before or after, change nothing. -/

namespace Golavo.Lib

variable {α : Type} (r : α → α → Prop) [DecidableRel r]

/-- Whether an order cannot tell an item from another. -/
def sameRank (a b : α) : Bool := decide (r a b) && decide (r b a)

theorem sameRank_iff {a b : α} : sameRank r a b = true ↔ r a b ∧ r b a := by
  rw [sameRank, Bool.and_eq_true, decide_eq_true_iff, decide_eq_true_iff]

/-- An item has its own rank. -/
theorem sameRank_self [Std.Total r] (a : α) : sameRank r a a = true :=
  (sameRank_iff r).mpr ⟨(Std.Total.total a a).elim id id, (Std.Total.total a a).elim id id⟩

section

variable [IsTrans α r]

/-- An item inserted comes before the others of its class. -/
theorem filter_orderedInsert (a b : α) (l : List α) :
    (l.orderedInsert r b).filter (sameRank r a) = (b :: l).filter (sameRank r a) := by
  induction l with
  | nil => rfl
  | cons c t ih =>
      rw [List.orderedInsert_cons]
      split_ifs with hbc
      · rfl
      · rw [List.filter_cons, ih, List.filter_cons, List.filter_cons, List.filter_cons]
        split_ifs with hc hb
        · -- both of the class of `a`, so `b` could have been put before `c`
          exact absurd (IsTrans.trans _ _ _ ((sameRank_iff r).mp hb).2 ((sameRank_iff r).mp hc).1) hbc
        · rfl
        · rfl
        · rfl

/-- **Insertion sort keeps every class.** -/
theorem filter_insertionSort (a : α) (l : List α) :
    (l.insertionSort r).filter (sameRank r a) = l.filter (sameRank r a) := by
  induction l with
  | nil => rfl
  | cons b t ih =>
      rw [List.insertionSort_cons, filter_orderedInsert, List.filter_cons, List.filter_cons, ih]

end

variable [Std.Total r]

/-- **A sorted list is determined by its classes.** -/
theorem eq_of_classes {l₁ l₂ : List α} (h₁ : l₁.Pairwise r) (h₂ : l₂.Pairwise r)
    (hclass : ∀ a, l₁.filter (sameRank r a) = l₂.filter (sameRank r a)) : l₁ = l₂ := by
  induction l₁ generalizing l₂ with
  | nil =>
      cases l₂ with
      | nil => rfl
      | cons b t =>
          have := hclass b
          rw [List.filter_nil, List.filter_cons_of_pos (sameRank_self r b)] at this
          cases this
  | cons a t₁ ih =>
      cases l₂ with
      | nil =>
          have := hclass a
          rw [List.filter_nil, List.filter_cons_of_pos (sameRank_self r a)] at this
          cases this
      | cons b t₂ =>
          have ha : a ∈ b :: t₂ := by
            have hmem : a ∈ (a :: t₁).filter (sameRank r a) :=
              List.mem_filter.mpr ⟨List.mem_cons_self, sameRank_self r a⟩
            rw [hclass a] at hmem
            exact (List.mem_filter.mp hmem).1
          have hb : b ∈ a :: t₁ := by
            have hmem : b ∈ (b :: t₂).filter (sameRank r b) :=
              List.mem_filter.mpr ⟨List.mem_cons_self, sameRank_self r b⟩
            rw [← hclass b] at hmem
            exact (List.mem_filter.mp hmem).1
          have hba : r b a := by
            rcases List.mem_cons.mp ha with rfl | hmem
            · exact ((sameRank_iff r).mp (sameRank_self r a)).1
            · exact List.rel_of_pairwise_cons h₂ hmem
          have hab : r a b := by
            rcases List.mem_cons.mp hb with rfl | hmem
            · exact ((sameRank_iff r).mp (sameRank_self r b)).1
            · exact List.rel_of_pairwise_cons h₁ hmem
          -- the heads have one rank, so they are the first of one class
          have hheads : a = b := by
            have := hclass a
            rw [List.filter_cons_of_pos (sameRank_self r a),
              List.filter_cons_of_pos ((sameRank_iff r).mpr ⟨hab, hba⟩)] at this
            exact (List.cons.inj this).1
          subst hheads
          refine congrArg (a :: ·) (ih (List.Pairwise.of_cons h₁) (List.Pairwise.of_cons h₂) ?_)
          intro c
          have := hclass c
          rw [List.filter_cons, List.filter_cons] at this
          split_ifs at this
          · exact (List.cons.inj this).2
          · exact this

variable [IsTrans α r]

/-- **Sorting after sorting the other way round is sorting.** -/
theorem insertionSort_insertionSort {s : α → α → Prop} [DecidableRel s] [Std.Total s] [IsTrans α s]
    (hs : ∀ a b, s a b ↔ r b a) (l : List α) :
    (l.insertionSort s).insertionSort r = l.insertionSort r := by
  refine eq_of_classes r (List.pairwise_insertionSort r _) (List.pairwise_insertionSort r _) ?_
  intro a
  have hrank : sameRank s a = sameRank r a := by
    funext b
    rw [sameRank, sameRank, Bool.and_comm]
    congr 1 <;> exact decide_eq_decide.mpr (hs _ _)
  rw [filter_insertionSort, filter_insertionSort, ← hrank, filter_insertionSort]

/-- **Filtering before or after sorting is the same.** -/
theorem filter_insertionSort_comm (p : α → Bool) (l : List α) :
    (l.filter p).insertionSort r = (l.insertionSort r).filter p := by
  refine eq_of_classes r (List.pairwise_insertionSort r _)
    ((List.pairwise_insertionSort r l).filter _) fun a => ?_
  rw [filter_insertionSort, List.filter_comm, ← filter_insertionSort, List.filter_comm]

/-- An item inserted before those it is not after, and in front of its class, keeps the order. -/
theorem pairwise_orderedInsert {s : α → α → Prop} {a : α} {l : List α}
    (h : l.Pairwise fun b c => r b c ∧ (r c b → s b c)) (ha : ∀ b ∈ l, s a b) :
    (l.orderedInsert r a).Pairwise fun b c => r b c ∧ (r c b → s b c) := by
  induction l with
  | nil => simp
  | cons b t ih =>
      rw [List.pairwise_cons] at h
      rw [List.forall_mem_cons] at ha
      rw [List.orderedInsert_cons]
      split_ifs with hab
      · refine List.pairwise_cons.mpr ⟨fun c hc => ?_, List.pairwise_cons.mpr h⟩
        rcases List.mem_cons.mp hc with rfl | hc
        · exact ⟨hab, fun _ => ha.1⟩
        · exact ⟨IsTrans.trans _ _ _ hab (h.1 c hc).1, fun _ => ha.2 c hc⟩
      · refine List.pairwise_cons.mpr ⟨fun c hc => ?_, ih h.2 ha.2⟩
        rcases (List.mem_orderedInsert r).mp hc with rfl | hc
        · exact ⟨(Std.Total.total c b).resolve_left hab, fun hcb => absurd hcb hab⟩
        · exact h.1 c hc

/-- **Insertion sort keeps the order of items it cannot tell apart.** -/
theorem insertionSort_stable {s : α → α → Prop} {l : List α} (h : l.Pairwise s) :
    (l.insertionSort r).Pairwise fun a b => r a b ∧ (r b a → s a b) := by
  induction l with
  | nil => simp
  | cons a t ih =>
      rw [List.pairwise_cons] at h
      rw [List.insertionSort_cons]
      exact pairwise_orderedInsert r (ih h.2) fun b hb => h.1 b ((List.mem_insertionSort r).mp hb)

end Golavo.Lib
