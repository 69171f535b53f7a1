import Mathlib.Algebra.Order.BigOperators.Group.List
import Mathlib.Algebra.Order.Monoid.Unbundled.Basic
import Mathlib.Algebra.Order.Group.Unbundled.Basic
import Mathlib.Algebra.Ring.Defs

/-! # Sampling by the inverse distribution function

A finite distribution is sampled by searching its running totals for a uniform draw. On
**nonnegative weights that sum to one** the search ends on the one entry the draw falls into, and
that entry has weight (`selects_iff`, `exists_weight_of_selects`). -/

namespace Golavo.Lib.InverseCdf

variable {K : Type*}

/-! ## Running totals and their search -/

/-- The running totals of a list of weights. -/
def cumsum [Zero K] [Add K] (weights : List K) : List K := (weights.scanl (· + ·) 0).tail

/-- Replace the last running total by one. -/
def clampLast [One K] (cdf : List K) : List K := cdf.dropLast ++ [1]

/-- The first index whose running total passes a draw. -/
def searchRight [LE K] [DecidableLE K] (cdf : List K) (u : K) : Nat :=
  (cdf.takeWhile (· ≤ u)).length

/-- The index a draw falls on: its running total passes the draw and the one before does not. -/
structure Selects [LE K] [LT K] (cdf : List K) (u : K) (k : Nat) : Prop where
  before : ∀ j c, j + 1 = k → cdf[j]? = some c → c ≤ u
  beyond : ∃ c, cdf[k]? = some c ∧ u < c

section Monoid

variable [AddMonoid K]

theorem getElem?_cumsum (weights : List K) (k : Nat) :
    (cumsum weights)[k]? =
      if k < weights.length then some (weights.take (k + 1)).sum else none := by
  rw [cumsum, List.getElem?_tail, List.getElem?_scanl, List.sum_eq_foldl]
  simp only [Nat.succ_le_iff]

@[simp] theorem length_cumsum (weights : List K) : (cumsum weights).length = weights.length := by
  rw [cumsum, List.length_tail, List.length_scanl, Nat.add_sub_cancel]

theorem getElem_cumsum {weights : List K} {k : Nat} (h : k < (cumsum weights).length) :
    (cumsum weights)[k] = (weights.take (k + 1)).sum := by
  rw [← Option.some.injEq, ← List.getElem?_eq_getElem h, getElem?_cumsum,
    if_pos (length_cumsum weights ▸ h)]

end Monoid

/-- Running totals that end in one are clamped already. -/
theorem clampLast_cumsum [AddMonoid K] [One K] {weights : List K} (hne : weights ≠ [])
    (hsum : weights.sum = 1) : clampLast (cumsum weights) = cumsum weights := by
  have hpos : 0 < weights.length := List.length_pos_iff.mpr hne
  have hlast : (cumsum weights).getLast? = some 1 := by
    rw [List.getLast?_eq_getElem?, length_cumsum, getElem?_cumsum, if_pos (by omega),
      List.take_of_length_le (by omega), hsum]
  rw [clampLast, ← List.dropLast_append_getLast? 1 hlast]
  simp only [List.dropLast_concat]

/-! ## The search -/

section Order

variable [LinearOrder K]

/-- Where some entry passes the draw, the search ends on an index the draw falls on. -/
theorem selects_searchRight {cdf : List K} {u : K} (h : ∃ c ∈ cdf, u < c) :
    Selects cdf u (searchRight cdf u) := by
  induction cdf with
  | nil =>
      obtain ⟨c, hc, -⟩ := h
      exact absurd hc List.not_mem_nil
  | cons a cdf ih =>
      rw [searchRight, List.takeWhile_cons]
      split_ifs with ha
      · rw [decide_eq_true_iff] at ha
        obtain ⟨c, hc, hu⟩ := h
        obtain rfl | hc := List.mem_cons.mp hc
        · exact absurd hu (not_lt.mpr ha)
        · obtain ⟨hbefore, hbeyond⟩ := ih ⟨c, hc, hu⟩
          refine ⟨fun j c hj hget => ?_, hbeyond⟩
          cases j with
          | zero => exact Option.some.inj hget ▸ ha
          | succ j => exact hbefore j c (Nat.succ.inj hj) hget
      · rw [decide_eq_true_iff, not_le] at ha
        exact ⟨fun j _ hj => absurd hj (Nat.succ_ne_zero j), a, rfl, ha⟩

/-- Running totals that do not fall select at most one index. -/
theorem Selects.le_of_pairwise {cdf : List K} {u : K} {k k' : Nat}
    (hsorted : cdf.Pairwise (· ≤ ·)) (h : Selects cdf u k) (h' : Selects cdf u k') : k' ≤ k := by
  by_contra hlt
  obtain ⟨c, hc, hu⟩ := h.beyond
  obtain ⟨c', hc', -⟩ := h'.beyond
  obtain ⟨hlen', -⟩ := List.getElem?_eq_some_iff.mp hc'
  have hle : cdf[k' - 1] ≤ u :=
    h'.before (k' - 1) _ (by omega) (List.getElem?_eq_getElem (by omega))
  obtain ⟨hlen, rfl⟩ := List.getElem?_eq_some_iff.mp hc
  have hck : cdf[k] ≤ cdf[k' - 1] := by
    rcases Nat.lt_or_ge k (k' - 1) with hk | hk
    · exact List.pairwise_iff_getElem.mp hsorted _ _ _ _ hk
    · exact le_of_eq (by congr 1; omega)
  exact absurd (hu.trans_le (hck.trans hle)) (lt_irrefl u)

end Order

section OrderedMonoid

variable [AddCommMonoid K] [LinearOrder K] [AddLeftMono K]

/-- Nonnegative weights have running totals that do not fall. -/
theorem pairwise_cumsum {weights : List K} (h : ∀ w ∈ weights, 0 ≤ w) :
    (cumsum weights).Pairwise (· ≤ ·) := by
  rw [List.pairwise_iff_getElem]
  intro i j hi hj hij
  rw [getElem_cumsum hi, getElem_cumsum hj]
  exact List.Sublist.sum_le_sum (List.take_sublist_take_left (by omega))
    fun w hw => h w (List.mem_of_mem_take hw)

end OrderedMonoid

/-! ## Distributions -/

section Distribution

variable [Ring K] [LinearOrder K] [AddLeftMono K] {weights : List K} {u : K} {k : Nat}

/-- An index that is selected has weight. -/
theorem exists_weight_of_selects (hu : 0 ≤ u) (h : Selects (cumsum weights) u k) :
    ∃ w, weights[k]? = some w ∧ 0 < w := by
  obtain ⟨c, hc, hbeyond⟩ := h.beyond
  rw [getElem?_cumsum] at hc
  split_ifs at hc with hk
  obtain rfl := Option.some.inj hc
  refine ⟨weights[k], List.getElem?_eq_getElem hk, ?_⟩
  rw [List.take_succ_eq_append_getElem hk, List.sum_append, List.sum_singleton] at hbeyond
  have hinitial : (weights.take k).sum ≤ u := by
    cases k with
    | zero => exact hu
    | succ j => exact h.before j _ rfl (by rw [getElem?_cumsum, if_pos (by omega)])
  exact pos_of_lt_add_right (hinitial.trans_lt hbeyond)

/-- **The search finds the one index a draw falls on.** -/
theorem selects_iff (hnonneg : ∀ w ∈ weights, 0 ≤ w) (hsum : weights.sum = 1)
    (hne : weights ≠ []) (hu : u < 1) :
    Selects (clampLast (cumsum weights)) u k ↔
      k = searchRight (clampLast (cumsum weights)) u := by
  have hlast : Selects (clampLast (cumsum weights)) u
      (searchRight (clampLast (cumsum weights)) u) :=
    selects_searchRight ⟨1, List.mem_append_right _ (List.mem_singleton_self 1), hu⟩
  constructor
  · intro h
    rw [clampLast_cumsum hne hsum] at h hlast ⊢
    have hsorted := pairwise_cumsum hnonneg
    exact le_antisymm (hlast.le_of_pairwise hsorted h) (h.le_of_pairwise hsorted hlast)
  · rintro rfl
    exact hlast

end Distribution

end Golavo.Lib.InverseCdf
