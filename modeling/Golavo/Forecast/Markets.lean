import Golavo.Forecast.ScoreMatrix
import Mathlib.Algebra.Order.BigOperators.Ring.Finset
import Mathlib.Order.Interval.Finset.Nat

/-! # Derived markets

What a reader can compute from a stored score matrix alone: the totals of a match in bands, and the
chance of more goals than a line. Every cell beyond the grid has more goals than the grid's side, so
these are marginals of the whole joint matrix, up to the rounding of the numbers stored
(`total_goals_marginals`). -/

namespace Golavo.Forecast

open Golavo.Lib (Decimal)

/-! ## The stored record at any cap -/

/-- The rounded probability of one outcome beyond the displayed grid. -/
def tailBeyond (resolution : Nat) (mass : Nat → Nat → Decimal) (n : Nat) (o : Outcome) : Decimal :=
  (sumCells resolution (fun i j => Outcome.ofScore i j = o && (n < i || n < j)) mass).round
    gridPrecision

/-- The rounded grid of the displayed scorelines. -/
def gridUpTo (mass : Nat → Nat → Decimal) (n : Nat) : List (List Decimal) :=
  (List.range (n + 1)).map fun i => (List.range (n + 1)).map fun j => (mass i j).round gridPrecision

/-- Turn any matrix into the stored record at a display cap (`build_score_matrix`); a cap beyond the
matrix has no grid. -/
def scoreMatrixOf (resolution : Nat) (mass : Nat → Nat → Decimal) (n : Nat) : Option ScoreMatrix :=
  if n ≤ resolution then
    let grid := gridUpTo mass n
    let tail : Triple := ⟨tailBeyond resolution mass n .home, tailBeyond resolution mass n .draw,
      tailBeyond resolution mass n .away⟩
    let tailProbability := (tail.home + tail.draw + tail.away).round gridPrecision
    let best := bestCell n grid
    some
      { maxGoals := n
        resolution := resolution
        grid := grid
        tail := tail
        tailProbability := tailProbability
        mostLikelyHome := best.2.1
        mostLikelyAway := best.2.2
        mostLikelyProbability := best.1
        totalProbability := ((grid.map List.sum).sum + tailProbability).round gridPrecision }
  else none

/-- A joint matrix is stored at the display cap. -/
theorem scoreMatrixOf_joint (m : JointMatrix) :
    scoreMatrixOf m.resolution m.mass displayN = some (buildScoreMatrix m) := by
  have hgrid : gridUpTo m.mass displayN = gridOf m displayN := by
    rw [gridUpTo, gridOf]
  have htail : ∀ o, tailBeyond m.resolution m.mass displayN o = tailOf m displayN o := by
    intro o
    rw [tailBeyond, tailOf]
  simp only [scoreMatrixOf, if_pos m.displayed, hgrid, htail, buildScoreMatrix]

/-! ## The markets -/

/-- The totals of a match in bands: `0, …, N` one by one, and everything above together. -/
structure TotalBands where
  upTo : List Decimal
  plus : Decimal
  deriving DecidableEq, Repr

/-- Count a cell of the grid in its band. -/
def TotalBands.count (n : Nat) (grid : List (List Decimal)) (b : TotalBands) (c : Nat × Nat) :
    TotalBands :=
  let total := c.1 + c.2
  let value := gridAt grid c.1 c.2
  if total ≤ n then
    { b with upTo := b.upTo.set total ((b.upTo.getD total 0 + value).round gridPrecision) }
  else { b with plus := (b.plus + value).round gridPrecision }

/-- The distribution of total goals in bands (`total_goals_bands`). -/
def totalGoalsBands (s : ScoreMatrix) : TotalBands :=
  let b := (cells s.maxGoals).foldl (TotalBands.count s.maxGoals s.grid)
    ⟨List.replicate (s.maxGoals + 1) 0, s.tailProbability⟩
  { b with plus := b.plus.round gridPrecision }

/-- The chances of more goals than a line, and of not more. -/
structure OverUnder where
  line : ℚ
  overLine : Decimal
  underLine : Decimal
  deriving DecidableEq, Repr

/-- The chances on both sides of a line (`total_goals_over_under`), which must be one the stored grid
can tell apart. -/
def totalGoalsOverUnder (s : ScoreMatrix) (line : ℚ) : Option OverUnder :=
  if 0 < line ∧ line < s.maxGoals + 1 then
    let sides := (cells s.maxGoals).foldl (fun acc c =>
      let value := gridAt s.grid c.1 c.2
      if line < (c.1 + c.2 : Nat) then (acc.1 + value, acc.2) else (acc.1, acc.2 + value))
        (s.tailProbability, 0)
    some ⟨line, sides.1.round gridPrecision, sides.2.round gridPrecision⟩
  else none

/-! ## Sums over scorelines -/

open Finset in
/-- A sum over selected scorelines, as a sum over a finite set. -/
theorem sumCells_eq (n : Nat) (p : Nat → Nat → Bool) (f : Nat → Nat → Decimal) :
    sumCells n p f =
      ∑ c ∈ (range (n + 1) ×ˢ range (n + 1)).filter (fun c => p c.1 c.2), f c.1 c.2 := by
  refine Decimal.toRat_injective ((toRat_sumCells n p f).trans ?_)
  exact (map_sum Decimal.toRatHom _ _).symm

theorem mem_cells {n : Nat} {c : Nat × Nat} : c ∈ cells n ↔ c.1 ≤ n ∧ c.2 ≤ n := by
  obtain ⟨i, j⟩ := c
  rw [cells, List.pair_mem_product, List.mem_range, List.mem_range, Nat.lt_succ_iff, Nat.lt_succ_iff]

/-- Sums over the grid read the grid only. -/
theorem sumCells_congr {n : Nat} {p : Nat → Nat → Bool} {f g : Nat → Nat → Decimal}
    (h : ∀ i ≤ n, ∀ j ≤ n, p i j = true → f i j = g i j) : sumCells n p f = sumCells n p g := by
  unfold sumCells
  congr 1
  refine List.map_congr_left fun c hc => ?_
  obtain ⟨hmem, hp⟩ := List.mem_filter.mp hc
  exact h _ (mem_cells.mp hmem).1 _ (mem_cells.mp hmem).2 hp

open Finset in
/-- A sum split by a second test. -/
theorem sumCells_split (n : Nat) (p q : Nat → Nat → Bool) (f : Nat → Nat → Decimal) :
    sumCells n p f =
      sumCells n (fun i j => p i j && q i j) f + sumCells n (fun i j => p i j && !q i j) f := by
  simp only [sumCells_eq]
  rw [← sum_filter_add_sum_filter_not _ (fun c : Nat × Nat => q c.1 c.2 = true), filter_filter,
    filter_filter]
  congr 1
  · exact sum_congr (filter_congr fun c _ => by simp) fun _ _ => rfl
  · exact sum_congr (filter_congr fun c _ => by simp) fun _ _ => rfl

/-- Cells that hold nothing selected. -/
theorem sumCells_eq_zero {n : Nat} {p : Nat → Nat → Bool} {f : Nat → Nat → Decimal}
    (h : ∀ i ≤ n, ∀ j ≤ n, p i j = false) : sumCells n p f = 0 := by
  have hnil : (cells n).filter (fun c => p c.1 c.2) = [] := by
    rw [List.filter_eq_nil_iff]
    intro c hc
    rw [h _ (mem_cells.mp hc).1 _ (mem_cells.mp hc).2]
    exact Bool.false_ne_true
  rw [sumCells, hnil]
  rfl

open Finset in
/-- What a matrix holds within a cap. -/
theorem sumCells_within {n resolution : Nat} (h : n ≤ resolution) (p : Nat → Nat → Bool)
    (f : Nat → Nat → Decimal) :
    sumCells resolution (fun i j => p i j && (i ≤ n && j ≤ n)) f = sumCells n p f := by
  simp only [sumCells_eq]
  refine sum_congr ?_ fun _ _ => rfl
  ext ⟨i, j⟩
  simp only [mem_filter, mem_product, mem_range, Bool.and_eq_true, decide_eq_true_eq]
  exact ⟨fun ⟨_, hp, hi, hj⟩ => ⟨⟨by omega, by omega⟩, hp⟩,
    fun ⟨⟨hi, hj⟩, hp⟩ => ⟨⟨by omega, by omega⟩, hp, by omega, by omega⟩⟩

/-- The rounding of a sum's terms moves it by at most half a unit for each. -/
theorem abs_sumCells_round_sub (n : Nat) (p : Nat → Nat → Bool) (f : Nat → Nat → Decimal) :
    |(sumCells n p fun i j => (f i j).round gridPrecision).toRat - (sumCells n p f).toRat| ≤
      (cells n).countP (fun c => p c.1 c.2) * (1 / 2 / 10 ^ gridPrecision) := by
  have hnodup : ((cells n).filter fun c => p c.1 c.2).Nodup :=
    List.Nodup.filter _ (List.Nodup.product List.nodup_range List.nodup_range)
  have hset : ((cells n).filter fun c => p c.1 c.2).toFinset =
      (Finset.range (n + 1) ×ˢ Finset.range (n + 1)).filter (fun c => p c.1 c.2) := by
    ext c
    simp only [List.mem_toFinset, List.mem_filter, mem_cells, Finset.mem_filter, Finset.mem_product,
      Finset.mem_range, Nat.lt_succ_iff]
  have hcard : (cells n).countP (fun c => p c.1 c.2) =
      ((Finset.range (n + 1) ×ˢ Finset.range (n + 1)).filter (fun c => p c.1 c.2)).card := by
    rw [← hset, List.toFinset_card_of_nodup hnodup, List.countP_eq_length_filter]
  rw [toRat_sumCells, toRat_sumCells, hcard]
  exact abs_sum_round_sub _ (fun c : Nat × Nat => f c.1 c.2) _

/-! ## What the markets add up -/

theorem gridAt_gridUpTo {mass : Nat → Nat → Decimal} {n i j : Nat} (hi : i ≤ n) (hj : j ≤ n) :
    gridAt (gridUpTo mass n) i j = (mass i j).round gridPrecision := by
  simp [gridAt, gridUpTo, Nat.lt_succ_of_le hi, Nat.lt_succ_of_le hj]

/-- **What counting comes to**, of numbers with nine places: the rounding on the way changes nothing. -/
theorem foldl_count {n : Nat} {grid : List (List Decimal)} {cs : List (Nat × Nat)}
    (hcs : ∀ c ∈ cs, (gridAt grid c.1 c.2).HasPlaces gridPrecision) {b : TotalBands}
    (hlen : b.upTo.length = n + 1) (hb : ∀ t, (b.upTo.getD t 0).HasPlaces gridPrecision)
    (hplus : b.plus.HasPlaces gridPrecision) :
    (cs.foldl (TotalBands.count n grid) b).upTo.length = n + 1 ∧
      (∀ t ≤ n, (cs.foldl (TotalBands.count n grid) b).upTo.getD t 0 =
        b.upTo.getD t 0 + ((cs.filter fun c => c.1 + c.2 = t).map fun c => gridAt grid c.1 c.2).sum) ∧
      (cs.foldl (TotalBands.count n grid) b).plus =
        b.plus + ((cs.filter fun c => n < c.1 + c.2).map fun c => gridAt grid c.1 c.2).sum := by
  induction cs generalizing b with
  | nil =>
      refine ⟨hlen, fun t _ => ?_, ?_⟩
      · exact (add_zero _).symm
      · exact (add_zero _).symm
  | cons c cs ih =>
      rw [List.forall_mem_cons] at hcs
      rw [List.foldl_cons]
      by_cases htotal : c.1 + c.2 ≤ n
      · have hround : (b.upTo.getD (c.1 + c.2) 0 + gridAt grid c.1 c.2).round gridPrecision =
            b.upTo.getD (c.1 + c.2) 0 + gridAt grid c.1 c.2 := ((hb _).add hcs.1).round_eq
        have hcount : TotalBands.count n grid b c = ⟨b.upTo.set (c.1 + c.2)
            (b.upTo.getD (c.1 + c.2) 0 + gridAt grid c.1 c.2), b.plus⟩ := by
          rw [TotalBands.count, if_pos htotal, hround]
        have hget : ∀ t, (b.upTo.set (c.1 + c.2)
            (b.upTo.getD (c.1 + c.2) 0 + gridAt grid c.1 c.2)).getD t 0 =
              if c.1 + c.2 = t then b.upTo.getD t 0 + gridAt grid c.1 c.2 else b.upTo.getD t 0 := by
          intro t
          by_cases ht : c.1 + c.2 = t
          · subst ht
            have hlt : c.1 + c.2 < b.upTo.length := by omega
            simp [List.getD, hlt]
          · simp [List.getD, ht]
        rw [hcount]
        obtain ⟨hlen', hbands, hplus'⟩ := @ih hcs.2 ⟨b.upTo.set (c.1 + c.2)
            (b.upTo.getD (c.1 + c.2) 0 + gridAt grid c.1 c.2), b.plus⟩
          (by rw [List.length_set, hlen]) (fun t => by
            rw [hget]
            split_ifs
            · exact (hb t).add hcs.1
            · exact hb t) hplus
        refine ⟨hlen', fun t ht => ?_, ?_⟩
        · rw [hbands t ht, hget, List.filter_cons]
          by_cases heq : c.1 + c.2 = t
          · simp [heq, add_assoc]
          · simp [heq]
        · rw [hplus', List.filter_cons_of_neg (by simpa using htotal)]
      · have hround : (b.plus + gridAt grid c.1 c.2).round gridPrecision =
            b.plus + gridAt grid c.1 c.2 := (hplus.add hcs.1).round_eq
        have hcount : TotalBands.count n grid b c = ⟨b.upTo, b.plus + gridAt grid c.1 c.2⟩ := by
          rw [TotalBands.count, if_neg htotal, hround]
        rw [hcount]
        obtain ⟨hlen', hbands, hplus'⟩ := @ih hcs.2 ⟨b.upTo, b.plus + gridAt grid c.1 c.2⟩ hlen hb
          (hplus.add hcs.1)
        refine ⟨hlen', fun t ht => ?_, ?_⟩
        · rw [hbands t ht, List.filter_cons_of_neg (by simp; omega)]
        · rw [hplus', List.filter_cons_of_pos (by simpa using htotal), List.map_cons, List.sum_cons,
            add_assoc]

/-- What adding up both sides of a line comes to. -/
theorem foldl_sides (line : ℚ) (f : Nat → Nat → Decimal) (cs : List (Nat × Nat))
    (acc : Decimal × Decimal) :
    cs.foldl (fun acc c => if line < (c.1 + c.2 : Nat) then (acc.1 + f c.1 c.2, acc.2)
        else (acc.1, acc.2 + f c.1 c.2)) acc =
      (acc.1 + ((cs.filter fun c => line < (c.1 + c.2 : Nat)).map fun c => f c.1 c.2).sum,
        acc.2 + ((cs.filter fun c => !decide (line < (c.1 + c.2 : Nat))).map fun c => f c.1 c.2).sum) := by
  induction cs generalizing acc with
  | nil => simp
  | cons c cs ih =>
      rw [List.foldl_cons, ih]
      by_cases h : line < (c.1 + c.2 : Nat)
      · rw [if_pos h, List.filter_cons_of_pos (by simpa using h),
          List.filter_cons_of_neg (by simpa using h), List.map_cons, List.sum_cons, add_assoc]
      · rw [if_neg h, List.filter_cons_of_neg (by simpa using h),
          List.filter_cons_of_pos (by simpa using h), List.map_cons, List.sum_cons, add_assoc]

/-! ## The record and the joint matrix -/

section Record

variable {resolution n : Nat} {mass : Nat → Nat → Decimal} {s : ScoreMatrix}

/-- The stored number of a cell. -/
def storedCell (mass : Nat → Nat → Decimal) (i j : Nat) : Decimal := (mass i j).round gridPrecision

/-- The stored numbers of the tail, added up. -/
def storedTail (resolution : Nat) (mass : Nat → Nat → Decimal) (n : Nat) : Decimal :=
  tailBeyond resolution mass n .home + tailBeyond resolution mass n .draw +
    tailBeyond resolution mass n .away

theorem hasPlaces_storedTail : (storedTail resolution mass n).HasPlaces gridPrecision :=
  ((Decimal.hasPlaces_round _ _).add (Decimal.hasPlaces_round _ _)).add (Decimal.hasPlaces_round _ _)

theorem hasPlaces_sumCells {k : Nat} {p : Nat → Nat → Bool} :
    (sumCells k p (storedCell mass)).HasPlaces gridPrecision := by
  refine Decimal.HasPlaces.sum fun d hd => ?_
  obtain ⟨c, -, rfl⟩ := List.mem_map.mp hd
  exact Decimal.hasPlaces_round _ _

theorem sum_gridUpTo : ((gridUpTo mass n).map List.sum).sum =
    sumCells n (fun _ _ => true) (storedCell mass) := by
  have hflat : (gridUpTo mass n).flatten = (cells n).map fun c => storedCell mass c.1 c.2 := by
    simp only [gridUpTo, cells, List.product, List.map_flatMap, List.map_map]
    rfl
  rw [← List.sum_flatten, hflat, sumCells, List.filter_true]

/-- What is stored of a matrix. -/
theorem scoreMatrixOf_some (h : scoreMatrixOf resolution mass n = some s) :
    n ≤ resolution ∧ s.maxGoals = n ∧ s.grid = gridUpTo mass n ∧
      s.tailProbability = storedTail resolution mass n ∧
        s.totalProbability =
          sumCells n (fun _ _ => true) (storedCell mass) + storedTail resolution mass n := by
  unfold scoreMatrixOf at h
  split_ifs at h with hle
  obtain rfl := Option.some.inj h
  have htail : (tailBeyond resolution mass n .home + tailBeyond resolution mass n .draw +
      tailBeyond resolution mass n .away).round gridPrecision = storedTail resolution mass n :=
    hasPlaces_storedTail.round_eq
  refine ⟨hle, rfl, rfl, htail, ?_⟩
  simp only [htail, sum_gridUpTo]
  exact (hasPlaces_sumCells.add hasPlaces_storedTail).round_eq

/-- The chance that the total of a match is one of some. -/
def jointTotals (resolution : Nat) (mass : Nat → Nat → Decimal) (p : Nat → Bool) : Decimal :=
  sumCells resolution (fun i j => p (i + j)) mass

/-- The mass beyond the grid. -/
def beyond (resolution : Nat) (mass : Nat → Nat → Decimal) (n : Nat) : Decimal :=
  sumCells resolution (fun i j => n < i || n < j) mass

/-- Totals that the grid holds whole. -/
theorem jointTotals_within (hle : n ≤ resolution) {p : Nat → Bool} (hp : ∀ t, n < t → p t = false) :
    jointTotals resolution mass p = sumCells n (fun i j => p (i + j)) mass := by
  have hnone : sumCells resolution (fun i j => p (i + j) && !(i ≤ n && j ≤ n)) mass = 0 := by
    refine sumCells_eq_zero fun i _ j _ => ?_
    by_cases hcell : i ≤ n ∧ j ≤ n
    · simp [hcell]
    · rw [hp (i + j) (by omega), Bool.false_and]
  rw [jointTotals, sumCells_split _ _ (fun i j => i ≤ n && j ≤ n), hnone, add_zero,
    sumCells_within hle]

/-- Totals that everything beyond the grid is among. -/
theorem jointTotals_beyond (hle : n ≤ resolution) {p : Nat → Bool} (hp : ∀ t, n < t → p t = true) :
    jointTotals resolution mass p =
      sumCells n (fun i j => p (i + j)) mass + beyond resolution mass n := by
  have hbeyond : sumCells resolution (fun i j => p (i + j) && !(i ≤ n && j ≤ n)) mass =
      beyond resolution mass n := by
    unfold beyond
    congr 1
    funext i j
    by_cases hcell : i ≤ n ∧ j ≤ n
    · simp [hcell, not_lt.mpr hcell.1, not_lt.mpr hcell.2]
    · rw [hp (i + j) (by omega), Bool.true_and, Bool.not_and]
      congr 1
      · rw [← decide_not, decide_eq_decide, not_le]
      · rw [← decide_not, decide_eq_decide, not_le]
  rw [jointTotals, sumCells_split _ _ (fun i j => i ≤ n && j ≤ n), hbeyond, sumCells_within hle]

/-- The three outcomes make up the mass beyond the grid. -/
theorem beyond_eq : beyond resolution mass n =
    sumCells resolution (fun i j => Outcome.ofScore i j = .home && (n < i || n < j)) mass +
      sumCells resolution (fun i j => Outcome.ofScore i j = .draw && (n < i || n < j)) mass +
      sumCells resolution (fun i j => Outcome.ofScore i j = .away && (n < i || n < j)) mass := by
  unfold beyond
  rw [sumCells_split _ _ (fun i j => Outcome.ofScore i j = .home),
    sumCells_split _ (fun i j => (n < i || n < j) && !decide (Outcome.ofScore i j = .home))
      (fun i j => Outcome.ofScore i j = .draw), ← add_assoc]
  congr 1
  · congr 1
    · exact congrArg (sumCells resolution · mass) (funext₂ fun i j => Bool.and_comm _ _)
    · refine congrArg (sumCells resolution · mass) (funext₂ fun i j => ?_)
      cases Outcome.ofScore i j <;> simp
  · refine congrArg (sumCells resolution · mass) (funext₂ fun i j => ?_)
    cases Outcome.ofScore i j <;> simp

/-- Half a unit in the last stored place. -/
def halfUnit : ℚ := 1 / 2 / 10 ^ gridPrecision

theorem abs_storedTail_sub :
    |(storedTail resolution mass n).toRat - (beyond resolution mass n).toRat| ≤ 3 * halfUnit := by
  have htail := fun o => abs_le.mp (Decimal.abs_round_sub gridPrecision
    (sumCells resolution (fun i j => Outcome.ofScore i j = o && (n < i || n < j)) mass))
  have hhome := htail .home
  have hdraw := htail .draw
  have haway := htail .away
  rw [beyond_eq, abs_le]
  simp only [storedTail, tailBeyond, halfUnit, Decimal.toRat_add]
  constructor
  · linarith [hhome.1, hdraw.1, haway.1]
  · linarith [hhome.2, hdraw.2, haway.2]

/-- How many cells of the grid have a total among some. -/
def cellsWith (n : Nat) (p : Nat → Bool) : Nat := (cells n).countP fun c => p (c.1 + c.2)

/-- A number that is the chance of some totals, but for the rounding of what is stored of it: of the
cells with these totals, or of these and the three parts of the tail. -/
structure IsMarginal (resolution : Nat) (mass : Nat → Nat → Decimal) (n : Nat) (p : Nat → Bool)
    (tailed : Bool) (d : Decimal) : Prop where
  stored : d = sumCells n (fun i j => p (i + j)) (storedCell mass) +
    if tailed then storedTail resolution mass n else 0
  joint : jointTotals resolution mass p = sumCells n (fun i j => p (i + j)) mass +
    if tailed then beyond resolution mass n else 0
  near : |d.toRat - (jointTotals resolution mass p).toRat| ≤
    (cellsWith n p + if tailed then 3 else 0) * halfUnit

/-- Stored cells are the chance of totals the grid holds whole. -/
theorem isMarginal_within (hle : n ≤ resolution) {p : Nat → Bool} (hp : ∀ t, n < t → p t = false) :
    IsMarginal resolution mass n p false (sumCells n (fun i j => p (i + j)) (storedCell mass)) where
  stored := (add_zero _).symm
  joint := (jointTotals_within hle hp).trans (add_zero _).symm
  near := by
    rw [jointTotals_within hle hp, if_neg Bool.false_ne_true, add_zero]
    exact abs_sumCells_round_sub n (fun i j => p (i + j)) mass

/-- Stored cells and the stored tail are the chance of totals that everything beyond the grid is
among. -/
theorem isMarginal_beyond (hle : n ≤ resolution) {p : Nat → Bool} (hp : ∀ t, n < t → p t = true) :
    IsMarginal resolution mass n p true
      (sumCells n (fun i j => p (i + j)) (storedCell mass) + storedTail resolution mass n) where
  stored := rfl
  joint := jointTotals_beyond hle hp
  near := by
    have hcells := abs_le.mp (abs_sumCells_round_sub n (fun i j => p (i + j)) mass)
    have htail := abs_le.mp (@abs_storedTail_sub resolution n mass)
    rw [jointTotals_beyond hle hp, Decimal.toRat_add, Decimal.toRat_add, abs_le, if_pos rfl, add_mul]
    change -(cellsWith n p * halfUnit) ≤ (sumCells n _ (storedCell mass)).toRat - _ ∧
      (sumCells n _ (storedCell mass)).toRat - _ ≤ cellsWith n p * halfUnit at hcells
    constructor
    · linarith [hcells.1, htail.1]
    · linarith [hcells.2, htail.2]

/-- The bands of a stored matrix. -/
theorem totalGoalsBands_eq (h : scoreMatrixOf resolution mass n = some s) :
    (totalGoalsBands s).upTo.length = n + 1 ∧
      (∀ t ≤ n, (totalGoalsBands s).upTo.getD t 0 =
        sumCells n (fun i j => i + j = t) (storedCell mass)) ∧
      (totalGoalsBands s).plus =
        sumCells n (fun i j => n < i + j) (storedCell mass) + storedTail resolution mass n := by
  obtain ⟨-, hmax, hgrid, htail, -⟩ := scoreMatrixOf_some h
  have hcell : ∀ c ∈ cells n, gridAt (gridUpTo mass n) c.1 c.2 = storedCell mass c.1 c.2 :=
    fun c hc => gridAt_gridUpTo (mem_cells.mp hc).1 (mem_cells.mp hc).2
  have hsum : ∀ p : Nat × Nat → Bool, (((cells n).filter p).map fun c =>
      gridAt (gridUpTo mass n) c.1 c.2) = ((cells n).filter p).map fun c => storedCell mass c.1 c.2 :=
    fun p => List.map_congr_left fun c hc => hcell c (List.mem_filter.mp hc).1
  have hzero : ∀ t, (List.replicate (n + 1) (0 : Decimal)).getD t 0 = 0 := by
    intro t
    by_cases ht : t < n + 1
    · simp [List.getD, ht]
    · simp [List.getD, ht]
  obtain ⟨hlen, hbands, hplus⟩ := @foldl_count n (gridUpTo mass n) (cells n)
    (fun c hc => by rw [hcell c hc]; exact Decimal.hasPlaces_round _ _)
    ⟨List.replicate (n + 1) 0, storedTail resolution mass n⟩ (List.length_replicate ..)
    (fun t => by rw [hzero]; exact Decimal.hasPlaces_zero _) hasPlaces_storedTail
  unfold totalGoalsBands
  rw [hmax, hgrid, htail]
  refine ⟨hlen, fun t ht => ?_, ?_⟩
  · refine (hbands t ht).trans ?_
    rw [hzero, zero_add, hsum]
    rfl
  · have hround := (@hasPlaces_sumCells mass n fun i j => n < i + j).add (@hasPlaces_storedTail resolution n mass)
    refine (congrArg (Decimal.round gridPrecision) hplus).trans ?_
    rw [hsum, add_comm]
    exact hround.round_eq

/-- Both sides of a line of a stored matrix. -/
theorem totalGoalsOverUnder_eq (h : scoreMatrixOf resolution mass n = some s) {line : ℚ}
    (hline : 0 < line ∧ line < n + 1) : totalGoalsOverUnder s line = some ⟨line,
      sumCells n (fun i j => line < (i + j : Nat)) (storedCell mass) + storedTail resolution mass n,
      sumCells n (fun i j => !decide (line < (i + j : Nat))) (storedCell mass)⟩ := by
  obtain ⟨-, hmax, hgrid, htail, -⟩ := scoreMatrixOf_some h
  have hsum : ∀ p : Nat × Nat → Bool, (((cells n).filter p).map fun c =>
      gridAt (gridUpTo mass n) c.1 c.2) = ((cells n).filter p).map fun c => storedCell mass c.1 c.2 :=
    fun p => List.map_congr_left fun c hc =>
      gridAt_gridUpTo (mem_cells.mp (List.mem_filter.mp hc).1).1 (mem_cells.mp (List.mem_filter.mp hc).1).2
  have hover := (@hasPlaces_sumCells mass n fun i j => line < (i + j : Nat)).add (@hasPlaces_storedTail resolution n mass)
  have hunder := @hasPlaces_sumCells mass n
    fun i j => !decide (line < (i + j : Nat))
  have habove : storedTail resolution mass n + (((cells n).filter fun c =>
      line < (c.1 + c.2 : Nat)).map fun c => storedCell mass c.1 c.2).sum =
        sumCells n (fun i j => line < (i + j : Nat)) (storedCell mass) +
          storedTail resolution mass n := add_comm _ _
  have hbelow : 0 + (((cells n).filter fun c =>
      !decide (line < (c.1 + c.2 : Nat))).map fun c => storedCell mass c.1 c.2).sum =
        sumCells n (fun i j => !decide (line < (i + j : Nat))) (storedCell mass) := zero_add _
  simp only [totalGoalsOverUnder, hmax, hgrid, htail, if_pos hline, foldl_sides, hsum, habove,
    hbelow, hover.round_eq, hunder.round_eq]

/-- Both sides of a line add up to everything stored. -/
theorem sumCells_sides (line : ℚ) : sumCells n (fun i j => line < (i + j : Nat)) (storedCell mass) +
    storedTail resolution mass n +
      sumCells n (fun i j => !decide (line < (i + j : Nat))) (storedCell mass) =
        sumCells n (fun _ _ => true) (storedCell mass) + storedTail resolution mass n := by
  rw [sumCells_split n (fun _ _ => true) (fun i j => line < (i + j : Nat)), add_right_comm]
  simp only [Bool.true_and]

open Finset in
/-- The cells above a half-goal line are those of the bands above it and those above every band. -/
theorem sumCells_above {k : Nat} (hk : k ≤ n) {line : ℚ} (hline : line = k + 1 / 2) :
    sumCells n (fun i j => line < (i + j : Nat)) (storedCell mass) =
      ∑ t ∈ Ioc k n, sumCells n (fun i j => i + j = t) (storedCell mass) +
        sumCells n (fun i j => n < i + j) (storedCell mass) := by
  have habove : ∀ t : Nat, line < t ↔ k < t := by
    intro t
    rw [hline]
    constructor
    · intro h
      have hlt : (k : ℚ) < t := by linarith
      exact_mod_cast hlt
    · intro h
      have hle : (k : ℚ) + 1 ≤ t := by exact_mod_cast h
      linarith
  rw [sumCells_split n _ (fun i j => i + j ≤ n)]
  congr 1
  · simp only [sumCells_eq]
    rw [← sum_fiberwise_of_maps_to (t := Ioc k n) (g := fun c : Nat × Nat => c.1 + c.2)]
    · refine sum_congr rfl fun t ht => ?_
      rw [filter_filter]
      refine sum_congr (filter_congr fun c _ => ?_) fun _ _ => rfl
      rw [mem_Ioc] at ht
      simp only [habove, Bool.and_eq_true, decide_eq_true_eq]
      omega
    · intro c hc
      simp only [mem_filter, habove, Bool.and_eq_true, decide_eq_true_eq] at hc
      exact mem_Ioc.mpr hc.2
  · refine congrArg (sumCells n · (storedCell mass)) (funext₂ fun i j => ?_)
    have hline' := habove (i + j)
    by_cases h : n < i + j
    · have hlt : line < (i + j : Nat) := hline'.mpr (by omega)
      simp only [hlt, h, not_le.mpr h, decide_true, decide_false, Bool.not_false, Bool.and_self]
    · simp only [h, not_lt.mp h, decide_true, decide_false, Bool.not_true, Bool.and_false]

/-- The bands of a stored matrix are marginals. -/
theorem isMarginal_bands (h : scoreMatrixOf resolution mass n = some s) :
    (totalGoalsBands s).upTo.length = n + 1 ∧
      (∀ t ≤ n, IsMarginal resolution mass n (· = t) false ((totalGoalsBands s).upTo.getD t 0)) ∧
      IsMarginal resolution mass n (n < ·) true (totalGoalsBands s).plus := by
  obtain ⟨hle, -, -, -, -⟩ := scoreMatrixOf_some h
  obtain ⟨hlen, hbands, hplus⟩ := totalGoalsBands_eq h
  refine ⟨hlen, fun t ht => ?_, ?_⟩
  · rw [hbands t ht]
    exact isMarginal_within hle fun u hu => decide_eq_false (by omega)
  · rw [hplus]
    exact isMarginal_beyond hle fun u hu => decide_eq_true hu

/-- The chances on both sides of a line. -/
structure IsSplit (resolution : Nat) (mass : Nat → Nat → Decimal) (n : Nat) (s : ScoreMatrix)
    (line : ℚ) (ou : OverUnder) : Prop where
  line_eq : ou.line = line
  above : IsMarginal resolution mass n (fun t => line < t) true ou.overLine
  below : IsMarginal resolution mass n (fun t => !decide (line < t)) false ou.underLine
  total : ou.overLine + ou.underLine = s.totalProbability
  bands : ∀ k ≤ n, line = k + 1 / 2 → ou.overLine =
    ∑ t ∈ Finset.Ioc k n, (totalGoalsBands s).upTo.getD t 0 + (totalGoalsBands s).plus

/-- Both sides of a line of a stored matrix are marginals. -/
theorem isSplit_overUnder (h : scoreMatrixOf resolution mass n = some s) {line : ℚ}
    (hlt : line < n + 1) : IsSplit resolution mass n s line ⟨line,
      sumCells n (fun i j => line < (i + j : Nat)) (storedCell mass) + storedTail resolution mass n,
      sumCells n (fun i j => !decide (line < (i + j : Nat))) (storedCell mass)⟩ := by
  obtain ⟨hle, -, -, -, htotal⟩ := scoreMatrixOf_some h
  obtain ⟨-, hbands, hplus⟩ := totalGoalsBands_eq h
  have htail : ∀ t : Nat, n < t → decide (line < (t : ℚ)) = true := by
    intro t ht
    have hcast : (n : ℚ) + 1 ≤ t := by exact_mod_cast ht
    exact decide_eq_true (hlt.trans_le hcast)
  refine ⟨rfl, ?_, ?_, ?_, fun k hk hline => ?_⟩
  · exact isMarginal_beyond hle htail
  · exact isMarginal_within hle fun t ht => by simp only [htail t ht, Bool.not_true]
  · rw [htotal]
    exact sumCells_sides line
  · have hsum : ∑ t ∈ Finset.Ioc k n, (totalGoalsBands s).upTo.getD t 0 =
        ∑ t ∈ Finset.Ioc k n, sumCells n (fun i j => i + j = t) (storedCell mass) :=
      Finset.sum_congr rfl fun t ht => hbands t (Finset.mem_Ioc.mp ht).2
    rw [sumCells_above hk hline, hplus, hsum, add_assoc]

end Record

/-- **Derived markets are marginals of the joint matrix**, for every matrix that is stored and every
line. The bands are the chances of the totals `0, …, N` and of all above, and both sides of a line the
chances of more and of not more goals, each but for the rounding of the numbers stored; the two sides
add up to the stored total, and the bands above a half-goal line to its upper side. A line the grid
cannot tell apart is refused. -/
theorem total_goals_marginals {resolution n : Nat} {mass : Nat → Nat → Decimal} {s : ScoreMatrix}
    (h : scoreMatrixOf resolution mass n = some s) :
    (totalGoalsBands s).upTo.length = n + 1 ∧
      (∀ t ≤ n, IsMarginal resolution mass n (· = t) false ((totalGoalsBands s).upTo.getD t 0)) ∧
      IsMarginal resolution mass n (n < ·) true (totalGoalsBands s).plus ∧
      ∀ line : ℚ, (¬ (0 < line ∧ line < n + 1) → totalGoalsOverUnder s line = none) ∧
        (0 < line → line < n + 1 → ∃ ou, totalGoalsOverUnder s line = some ou ∧
          IsSplit resolution mass n s line ou) := by
  obtain ⟨-, hmax, -, -, -⟩ := scoreMatrixOf_some h
  obtain ⟨hlen, hbands, hplus⟩ := isMarginal_bands h
  refine ⟨hlen, hbands, hplus, fun line => ⟨fun hline => ?_, fun hpos hlt => ?_⟩⟩
  · rw [totalGoalsOverUnder, hmax, if_neg hline]
  · exact ⟨_, totalGoalsOverUnder_eq h ⟨hpos, hlt⟩, isSplit_overUnder h hlt⟩

/-- Four equal scorelines, of which the goalless one is stored. -/
theorem total_goals_marginals_quarters : ∃ s, scoreMatrixOf 1 (fun _ _ => .ofScaled 25 2) 0 = some s ∧
    IsMarginal 1 (fun _ _ => .ofScaled 25 2) 0 (0 < ·) true (totalGoalsBands s).plus :=
  ⟨_, if_pos (Nat.zero_le 1), (total_goals_marginals (if_pos (Nat.zero_le 1))).2.2.1⟩

end Golavo.Forecast
