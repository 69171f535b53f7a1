import Mathlib.Algebra.BigOperators.Ring.List
import Mathlib.Algebra.Order.BigOperators.Group.List
import Mathlib.Algebra.Order.Floor.Ring
import Mathlib.Data.List.Count
import Mathlib.Tactic.Linarith

/-! # Apportionment by largest remainders

A whole total is divided among items by exact shares: every share is rounded down, and the units left
over go one each to the items with the largest **remainders**. On shares that sum to the total the
result sums to it as well (`sum_apportion`), no item is a unit or more off its share
(`abs_apportion_sub_lt`), whole shares are kept (`apportion_eq_of_whole`) and a larger share never gets
less (`apportion_le_apportion`). -/

namespace Golavo.Lib.Apportion

variable {α K : Type*} [Field K] [LinearOrder K] [FloorRing K]

/-! ## Units left over -/

/-- The units left over when every share is rounded down. -/
def leftOver (share : α → K) (total : Int) (items : List α) : Int :=
  total - (items.map fun a => ⌊share a⌋).sum

/-- Items in the order of their remainders, with shares that sum to the total. -/
structure Ordered (share : α → K) (total : Int) (order : List α) : Prop where
  nodup : order.Nodup
  sorted : order.Pairwise fun a b => Int.fract (share b) ≤ Int.fract (share a)
  sum : (order.map share).sum = total

variable [IsStrictOrderedRing K] {share : α → K} {total : Int} {order : List α}

/-- What is left over is the sum of the remainders. -/
theorem Ordered.leftOver_eq (h : Ordered share total order) :
    (leftOver share total order : K) = (order.map fun a => Int.fract (share a)).sum := by
  have hsplit : (order.map share).sum = ((order.map fun a => ⌊share a⌋).sum : Int) +
      (order.map fun a => Int.fract (share a)).sum := by
    clear h
    induction order with
    | nil => simp
    | cons a order ih =>
        simp only [List.map_cons, List.sum_cons, ih, Int.cast_add]
        linarith only [Int.floor_add_fract (share a)]
  rw [leftOver, Int.cast_sub, ← h.sum, hsplit, add_sub_cancel_left]

theorem Ordered.leftOver_nonneg (h : Ordered share total order) :
    0 ≤ leftOver share total order := by
  have hsum : (0 : K) ≤ leftOver share total order := by
    rw [h.leftOver_eq]
    refine List.sum_nonneg fun x hx => ?_
    obtain ⟨a, -, rfl⟩ := List.mem_map.mp hx
    exact Int.fract_nonneg _
  exact_mod_cast hsum

/-- Remainders sum to at most their number. -/
theorem sum_fract_le (items : List α) :
    (items.map fun a => Int.fract (share a)).sum ≤ (items.length : K) := by
  induction items with
  | nil => simp
  | cons a items ih =>
      rw [List.map_cons, List.sum_cons, List.length_cons, Nat.cast_succ, add_comm]
      exact add_le_add ih (Int.fract_lt_one _).le

theorem Ordered.leftOver_le (h : Ordered share total order) :
    leftOver share total order ≤ order.length := by
  have hle : (leftOver share total order : K) ≤ order.length := h.leftOver_eq ▸ sum_fract_le order
  exact_mod_cast hle

/-- **Every unit left over goes to an item with a remainder.** -/
theorem Ordered.fract_pos (h : Ordered share total order) {a : α}
    (ha : a ∈ order.take (leftOver share total order).toNat) : 0 < Int.fract (share a) := by
  obtain ⟨before, after, hsplit⟩ := List.append_of_mem ha
  by_contra hzero
  have hzero : Int.fract (share a) = 0 := le_antisymm (not_lt.mp hzero) (Int.fract_nonneg _)
  -- the items from `a` on have no remainders, so those before it would have to make up for all
  obtain ⟨rest, hrest⟩ : ∃ rest, order = before ++ a :: rest :=
    ⟨after ++ order.drop (leftOver share total order).toNat, by
      rw [← List.cons_append, ← List.append_assoc, ← hsplit, List.take_append_drop]⟩
  have hsorted := h.sorted
  rw [hrest, List.pairwise_append, List.pairwise_cons] at hsorted
  have htail : ((a :: rest).map fun b => Int.fract (share b)).sum = 0 := by
    refine List.sum_eq_zero fun x hx => ?_
    obtain ⟨b, hb, rfl⟩ := List.mem_map.mp hx
    rcases List.mem_cons.mp hb with rfl | hb
    · exact hzero
    · exact le_antisymm (hzero ▸ hsorted.2.1.1 b hb) (Int.fract_nonneg _)
  have hsum : (leftOver share total order : K) ≤ before.length := by
    rw [h.leftOver_eq, hrest, List.map_append, List.sum_append, htail, add_zero]
    exact sum_fract_le before
  have hle : leftOver share total order ≤ before.length := by exact_mod_cast hsum
  have hlength := congrArg List.length hsplit
  rw [List.length_take, List.length_append, List.length_cons] at hlength
  omega

/-! ## What the items get -/

variable [DecidableEq α]

/-- What an item gets: its share rounded down, and one of the units left over where it is among the
first in `order`. -/
def apportion (share : α → K) (total : Int) (order : List α) (a : α) : Int :=
  ⌊share a⌋ + if a ∈ order.take (leftOver share total order).toNat then 1 else 0

/-- **The shares given sum to the total.** -/
theorem Ordered.sum_apportion (h : Ordered share total order) :
    (order.map (apportion share total order)).sum = total := by
  have hsum : (order.map (apportion share total order)).sum = (order.map fun a => ⌊share a⌋).sum +
      (order.map fun a =>
        if a ∈ order.take (leftOver share total order).toNat then (1 : Int) else 0).sum :=
    List.sum_map_add
  have hcount : ∀ n ≤ order.length,
      (order.map fun a => if a ∈ order.take n then (1 : Int) else 0).sum = n := by
    intro n hn
    have hsplit := List.take_append_drop n order
    have hnodup := h.nodup
    rw [← hsplit, List.nodup_append] at hnodup
    conv_lhs => rw [← hsplit]
    rw [List.map_append, List.sum_append, List.take_append_drop,
      List.map_congr_left (g := fun _ => (1 : Int)) fun a ha => if_pos ha,
      List.map_congr_left (l := order.drop n) (g := fun _ => (0 : Int)) fun a ha =>
        if_neg fun ha' => hnodup.2.2 a ha' a ha rfl]
    simp [hn]
  have hle := h.leftOver_le
  have hnonneg := h.leftOver_nonneg
  rw [hsum, hcount _ (by omega), Int.toNat_of_nonneg hnonneg, leftOver, add_sub_cancel]

/-- **No item is a unit or more off its share.** -/
theorem Ordered.abs_apportion_sub_lt (h : Ordered share total order) (a : α) :
    |(apportion share total order a : K) - share a| < 1 := by
  have hfloor := Int.floor_add_fract (share a)
  have hlt := Int.fract_lt_one (share a)
  have hnonneg := Int.fract_nonneg (share a)
  rw [apportion, abs_lt]
  split_ifs with ha
  · have hpos := h.fract_pos ha
    push_cast
    constructor <;> linarith
  · push_cast
    constructor <;> linarith

/-- A whole share is kept. -/
theorem Ordered.apportion_eq_of_whole (h : Ordered share total order) {a : α} {z : Int}
    (hz : share a = z) : apportion share total order a = z := by
  rw [apportion, if_neg fun ha => ?_, hz, Int.floor_intCast, add_zero]
  have hpos := h.fract_pos ha
  rw [hz, Int.fract_intCast] at hpos
  exact lt_irrefl _ hpos

/-- **A larger share never gets less.** -/
theorem Ordered.apportion_le_apportion (h : Ordered share total order) {a b : α} (hb : b ∈ order)
    (hlt : share a < share b) : apportion share total order a ≤ apportion share total order b := by
  have hone : ∀ c, apportion share total order c ≤ ⌊share c⌋ + 1 := fun c => by
    rw [apportion]
    split_ifs <;> omega
  have hfloor : ∀ c, ⌊share c⌋ ≤ apportion share total order c := fun c => by
    rw [apportion]
    split_ifs <;> omega
  rcases lt_or_eq_of_le (Int.floor_le_floor hlt.le) with hless | hsame
  · exact (hone a).trans (Int.add_one_le_iff.mpr hless |>.trans (hfloor b))
  · -- of equal whole parts, `b` has the larger remainder, so it comes before `a`
    have hfract : Int.fract (share a) < Int.fract (share b) := by
      rw [Int.fract, Int.fract, hsame]
      exact sub_lt_sub_right hlt _
    rw [apportion, apportion, hsame]
    by_cases ha : a ∈ order.take (leftOver share total order).toNat
    · rw [if_pos ha, if_pos]
      by_contra hnot
      have hdrop : b ∈ order.drop (leftOver share total order).toNat := by
        rw [← List.take_append_drop (leftOver share total order).toNat order] at hb
        exact (List.mem_append.mp hb).resolve_left hnot
      have hsorted := h.sorted
      rw [← List.take_append_drop (leftOver share total order).toNat order,
        List.pairwise_append] at hsorted
      exact absurd (hsorted.2.2 a ha b hdrop) (not_le.mpr hfract)
    · rw [if_neg ha]
      split_ifs <;> omega

/-- Shares between two whole numbers stay there. -/
theorem Ordered.apportion_mem (h : Ordered share total order) {a : α} {low high : Int}
    (hlow : (low : K) ≤ share a) (hhigh : share a ≤ high) :
    low ≤ apportion share total order a ∧ apportion share total order a ≤ high := by
  have hfloor : low ≤ ⌊share a⌋ := Int.le_floor.mpr hlow
  rw [apportion]
  split_ifs with ha
  · have hlt : (⌊share a⌋ : K) < high := by
      linarith [h.fract_pos ha, Int.floor_add_fract (share a)]
    have hlt : ⌊share a⌋ < high := by exact_mod_cast hlt
    omega
  · have hle : ⌊share a⌋ ≤ high := Int.floor_le_iff.mpr (hhigh.trans_lt (by linarith))
    omega

end Golavo.Lib.Apportion
