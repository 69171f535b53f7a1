import Golavo.Lib.Json
import Mathlib.Algebra.BigOperators.Group.Finset.Sigma
import Mathlib.Algebra.Order.BigOperators.Group.Finset
import Mathlib.Data.List.ProdSigma

/-! # The exact-score grid

The goal families fit a joint distribution over scorelines. `build_score_matrix` stores it as a grid
of the first eight goals a side, a **tail** decomposed by outcome, and the likeliest scoreline;
`stored_coherence_violations` checks from the stored numbers alone that they still imply the sealed
1X2 probabilities. The main result: what is built from a distribution is coherent with
probabilities near its own (`buildScoreMatrix_coherent`). -/

namespace Golavo.Forecast

open Golavo.Lib (Decimal Json)

/-! ## Outcomes -/

/-- The three results of a match. -/
inductive Outcome where
  | home
  | draw
  | away
  deriving DecidableEq, Repr

/-- The key an outcome has in a record. -/
def Outcome.key : Outcome → String
  | .home => "home"
  | .draw => "draw"
  | .away => "away"

/-- The outcomes in the order every record lists them. -/
def Outcome.all : List Outcome := [.home, .draw, .away]

/-- The outcome of a scoreline. -/
def Outcome.ofScore (i j : Nat) : Outcome := if j < i then .home else if i = j then .draw else .away

/-- One decimal an outcome. -/
structure Triple where
  home : Decimal
  draw : Decimal
  away : Decimal
  deriving DecidableEq, Repr

/-- The entry of an outcome. -/
def Triple.at (t : Triple) : Outcome → Decimal
  | .home => t.home
  | .draw => t.draw
  | .away => t.away

/-! ## Joint distributions -/

/-- The scorelines up to `n` goals a side, row by row. -/
def cells (n : Nat) : List (Nat × Nat) := (List.range (n + 1)).product (List.range (n + 1))

/-- The sum of a quantity over the scorelines a test selects. -/
def sumCells (n : Nat) (p : Nat → Nat → Bool) (f : Nat → Nat → Decimal) : Decimal :=
  (((cells n).filter fun c => p c.1 c.2).map fun c => f c.1 c.2).sum

/-- The concrete scorelines displayed, a side. -/
def displayN : Nat := 7

/-- A normalised joint score distribution, resolved beyond what is displayed. -/
structure JointMatrix where
  resolution : Nat
  mass : Nat → Nat → Decimal
  displayed : displayN ≤ resolution
  nonneg : ∀ i j, 0 ≤ (mass i j).toRat
  total : (sumCells resolution (fun _ _ => true) mass).toRat = 1

/-- The joint distribution of a fitted family: the scoring rates are clipped to at most five goals a
side, so a goalless draw keeps a visible probability. -/
structure GoalMatrix extends JointMatrix where
  goalless : 1 / 10 ^ 6 ≤ (mass 0 0).toRat

instance : Coe GoalMatrix JointMatrix := ⟨GoalMatrix.toJointMatrix⟩

namespace JointMatrix

variable (m : JointMatrix)

/-- The probability of one outcome. -/
def outcomeMass (o : Outcome) : Decimal :=
  sumCells m.resolution (fun i j => Outcome.ofScore i j = o) m.mass

/-- The win probabilities a joint matrix implies (`outcome_probabilities`). -/
def outcomeProbabilities : Triple :=
  ⟨m.outcomeMass .home, m.outcomeMass .draw, m.outcomeMass .away⟩

/-- The mean goals of each side a joint matrix implies (`expected_goals`). -/
def expectedGoals : Decimal × Decimal :=
  (sumCells m.resolution (fun _ _ => true) fun i j => .ofScaled i 0 * m.mass i j,
    sumCells m.resolution (fun _ _ => true) fun i j => .ofScaled j 0 * m.mass i j)

end JointMatrix

/-! ## The stored record -/

/-- The stored cell precision. -/
def gridPrecision : Nat := 9

/-- How far the stored marginals may be from the sealed probabilities. -/
def probTolerance : Decimal := .ofScaled 1 5

/-- How far a matrix mean may be from the sealed expected goals. -/
def goalsTolerance : Decimal := .ofScaled 1 4

/-- The `score_matrix` object of an artifact. -/
structure ScoreMatrix where
  maxGoals : Nat
  resolution : Nat
  grid : List (List Decimal)
  tail : Triple
  tailProbability : Decimal
  mostLikelyHome : Nat
  mostLikelyAway : Nat
  mostLikelyProbability : Decimal
  totalProbability : Decimal
  deriving DecidableEq, Repr

/-- `grid[i][j]`. -/
def gridAt (grid : List (List Decimal)) (i j : Nat) : Decimal := (grid.getD i []).getD j 0

/-- Whether a cell beats another: a higher probability, then fewer home goals, then fewer away
goals. -/
def beats (a b : Decimal × Nat × Nat) : Bool :=
  b.1 < a.1 || (a.1 = b.1 && (a.2.1 < b.2.1 || (a.2.1 = b.2.1 && a.2.2 < b.2.2)))

/-- The likeliest scoreline of a grid, with its probability. -/
def bestCell (n : Nat) (grid : List (List Decimal)) : Decimal × Nat × Nat :=
  (cells n).foldl (fun best c =>
    let cell := (gridAt grid c.1 c.2, c.1, c.2)
    if beats cell best then cell else best) (gridAt grid 0 0, 0, 0)

/-- The rounded probability of one outcome beyond the displayed grid. -/
def tailOf (m : JointMatrix) (n : Nat) (o : Outcome) : Decimal :=
  (sumCells m.resolution (fun i j => Outcome.ofScore i j = o && (n < i || n < j)) m.mass).round
    gridPrecision

/-- The rounded grid of the displayed scorelines. -/
def gridOf (m : JointMatrix) (n : Nat) : List (List Decimal) :=
  (List.range (n + 1)).map fun i => (List.range (n + 1)).map fun j =>
    (m.mass i j).round gridPrecision

/-- Turn a joint matrix into the stored record (`build_score_matrix`): the same distribution
re-bucketed. -/
def buildScoreMatrix (m : JointMatrix) : ScoreMatrix :=
  let n := displayN
  let grid := gridOf m n
  let tail : Triple := ⟨tailOf m n .home, tailOf m n .draw, tailOf m n .away⟩
  let tailProbability := (tail.home + tail.draw + tail.away).round gridPrecision
  let best := bestCell n grid
  { maxGoals := n
    resolution := m.resolution
    grid := grid
    tail := tail
    tailProbability := tailProbability
    mostLikelyHome := best.2.1
    mostLikelyAway := best.2.2
    mostLikelyProbability := best.1
    totalProbability := ((grid.map List.sum).sum + tailProbability).round gridPrecision }

/-- One probability rebuilt from the stored grid and tail alone. -/
def storedMarginal (s : ScoreMatrix) (o : Outcome) : Decimal :=
  sumCells s.maxGoals (fun i j => Outcome.ofScore i j = o) (gridAt s.grid) + s.tail.at o

/-- What can be wrong with a stored score matrix. -/
inductive Violation where
  | gridShape (n : Nat)
  | tailDecomposition (sum probability : Decimal)
  | notNormalised (total : Decimal)
  | totalDisagrees
  | marginal (o : Outcome) (got want : Decimal)
  | notArgmax
  | mostLikelyDisagrees
  | matrixMarginal (o : Outcome) (got want : Decimal)
  | expectedGoals (got want : Decimal)
  deriving DecidableEq, Repr

/-- The violation, where two numbers differ by more than a tolerance. -/
def violationUnless (tolerance got want : Decimal) (v : Violation) : List Violation :=
  if tolerance < (got - want).abs then [v] else []

/-- The coherence problems of the stored record alone (`stored_coherence_violations`). -/
def storedCoherenceViolations (s : ScoreMatrix) (probs : Triple) : List Violation :=
  if s.grid.length ≠ s.maxGoals + 1 ∨ ∃ row ∈ s.grid, row.length ≠ s.maxGoals + 1 then
    [.gridShape (s.maxGoals + 1)]
  else
    let tailSum := s.tail.home + s.tail.draw + s.tail.away
    let total := s.grid.flatten.sum + s.tailProbability
    let best := bestCell s.maxGoals s.grid
    violationUnless probTolerance tailSum s.tailProbability
        (.tailDecomposition tailSum s.tailProbability) ++
      violationUnless probTolerance total 1 (.notNormalised total) ++
      violationUnless probTolerance s.totalProbability total .totalDisagrees ++
      Outcome.all.flatMap (fun o => violationUnless probTolerance (storedMarginal s o) (probs.at o)
        (.marginal o (storedMarginal s o) (probs.at o))) ++
      if (s.mostLikelyHome, s.mostLikelyAway) ≠ best.2 then [.notArgmax]
      else violationUnless probTolerance s.mostLikelyProbability best.1 .mostLikelyDisagrees

/-- The seal-time check (`assert_model_coherent`): the fitted matrix reproduces the probabilities
and the expected goals, and the stored record is coherent. -/
def modelViolations (m : JointMatrix) (s : ScoreMatrix) (probs : Triple)
    (goals : Decimal × Decimal) : List Violation :=
  Outcome.all.flatMap (fun o => violationUnless probTolerance (m.outcomeMass o) (probs.at o)
      (.matrixMarginal o (m.outcomeMass o) (probs.at o))) ++
    violationUnless goalsTolerance m.expectedGoals.1 goals.1
      (.expectedGoals m.expectedGoals.1 goals.1) ++
    violationUnless goalsTolerance m.expectedGoals.2 goals.2
      (.expectedGoals m.expectedGoals.2 goals.2) ++
    storedCoherenceViolations s probs

theorem violationUnless_eq_nil {tolerance got want : Decimal} {v : Violation} :
    violationUnless tolerance got want v = [] ↔
      |got.toRat - want.toRat| ≤ tolerance.toRat := by
  unfold violationUnless
  split_ifs with h
  · rw [Decimal.lt_iff] at h
    simpa using h
  · rw [Decimal.lt_iff] at h
    simpa using h

/-! ## Sums over scorelines -/

open Finset in
/-- A sum over selected scorelines, as a sum over a finite set. -/
theorem toRat_sumCells (n : Nat) (p : Nat → Nat → Bool) (f : Nat → Nat → Decimal) :
    (sumCells n p f).toRat =
      ∑ c ∈ (range (n + 1) ×ˢ range (n + 1)).filter (fun c => p c.1 c.2), (f c.1 c.2).toRat := by
  have hnodup : ((cells n).filter fun c => p c.1 c.2).Nodup :=
    List.Nodup.filter _ (List.Nodup.product List.nodup_range List.nodup_range)
  have hset : ((cells n).filter fun c => p c.1 c.2).toFinset =
      (range (n + 1) ×ˢ range (n + 1)).filter (fun c => p c.1 c.2) := by
    ext ⟨i, j⟩
    have hmem : (i, j) ∈ cells n ↔ i < n + 1 ∧ j < n + 1 := by
      rw [cells, List.pair_mem_product, List.mem_range, List.mem_range]
    simp [hmem]
  rw [sumCells, Decimal.toRat_sum, List.map_map, ← hset, List.sum_toFinset _ hnodup]
  rfl

/-- Rounding every term of a sum moves it by at most half a unit a term. -/
theorem abs_sum_round_sub {ι : Type} (s : Finset ι) (f : ι → Decimal) (k : Nat) :
    |∑ i ∈ s, ((f i).round k).toRat - ∑ i ∈ s, (f i).toRat| ≤ s.card * (1 / 2 / 10 ^ k) := by
  rw [← Finset.sum_sub_distrib]
  calc |∑ i ∈ s, (((f i).round k).toRat - (f i).toRat)|
      ≤ ∑ i ∈ s, |((f i).round k).toRat - (f i).toRat| := Finset.abs_sum_le_sum_abs _ _
    _ ≤ ∑ _i ∈ s, (1 / 2 / 10 ^ k : ℚ) :=
        Finset.sum_le_sum fun i _ => Decimal.abs_round_sub k (f i)
    _ = s.card * (1 / 2 / 10 ^ k) := by rw [Finset.sum_const, nsmul_eq_mul]

/-! ## What is built is coherent -/

section Coherence

variable (m : JointMatrix)

theorem gridAt_gridOf {n i j : Nat} (hi : i < n + 1) (hj : j < n + 1) :
    gridAt (gridOf m n) i j = (m.mass i j).round gridPrecision := by
  simp [gridAt, gridOf, hi, hj]

open Finset in
/-- An outcome's probability, split at the displayed grid. -/
theorem outcomeMass_split (o : Outcome) :
    (m.outcomeMass o).toRat =
      ∑ c ∈ (range (displayN + 1) ×ˢ range (displayN + 1)).filter
        (fun c => Outcome.ofScore c.1 c.2 = o), (m.mass c.1 c.2).toRat +
      (sumCells m.resolution
        (fun i j => Outcome.ofScore i j = o && (displayN < i || displayN < j)) m.mass).toRat := by
  have hle := m.displayed
  rw [JointMatrix.outcomeMass, toRat_sumCells, toRat_sumCells,
    ← Finset.sum_filter_add_sum_filter_not _ (fun c : Nat × Nat => c.1 ≤ displayN ∧ c.2 ≤ displayN)]
  congr 1
  · refine Finset.sum_congr ?_ fun _ _ => rfl
    ext ⟨i, j⟩
    simp only [mem_filter, mem_product, mem_range, decide_eq_true_eq]
    exact ⟨fun ⟨⟨_, ho⟩, hi, hj⟩ => ⟨⟨by omega, by omega⟩, ho⟩,
      fun ⟨⟨hi, hj⟩, ho⟩ => ⟨⟨⟨by omega, by omega⟩, ho⟩, by omega, by omega⟩⟩
  · refine Finset.sum_congr ?_ fun _ _ => rfl
    ext ⟨i, j⟩
    simp only [mem_filter, mem_product, mem_range, decide_eq_true_eq, Bool.and_eq_true,
      Bool.or_eq_true, and_assoc]
    refine and_congr_right fun _ => and_congr_right fun _ => and_congr_right fun _ => ?_
    rw [not_and_or, not_le, not_le]

/-- The displayed part of a stored marginal is the rounded grid's. -/
theorem storedMarginal_eq (o : Outcome) :
    (storedMarginal (buildScoreMatrix m) o).toRat =
      ∑ c ∈ (Finset.range (displayN + 1) ×ˢ Finset.range (displayN + 1)).filter
        (fun c => Outcome.ofScore c.1 c.2 = o), ((m.mass c.1 c.2).round gridPrecision).toRat +
      (tailOf m displayN o).toRat := by
  have htail : (buildScoreMatrix m).tail.at o = tailOf m displayN o := by cases o <;> rfl
  rw [storedMarginal, Decimal.toRat_add, htail, toRat_sumCells]
  congr 1
  have hset : (Finset.range ((buildScoreMatrix m).maxGoals + 1) ×ˢ
      Finset.range ((buildScoreMatrix m).maxGoals + 1)).filter
        (fun c : Nat × Nat => decide (Outcome.ofScore c.1 c.2 = o) = true) =
      (Finset.range (displayN + 1) ×ˢ Finset.range (displayN + 1)).filter
        (fun c => Outcome.ofScore c.1 c.2 = o) := by
    ext c
    simp [buildScoreMatrix]
  rw [hset]
  refine Finset.sum_congr rfl fun c hc => ?_
  simp only [Finset.mem_filter, Finset.mem_product, Finset.mem_range] at hc
  show (gridAt (gridOf m displayN) c.1 c.2).toRat = _
  rw [gridAt_gridOf m hc.1.1 hc.1.2]

/-- The displayed scorelines of one outcome. -/
def displayedCells (o : Outcome) : Finset (Nat × Nat) :=
  (Finset.range (displayN + 1) ×ˢ Finset.range (displayN + 1)).filter
    fun c => Outcome.ofScore c.1 c.2 = o

/-- A stored marginal is off by at most half a unit for each of its cells, and one for the tail. -/
theorem abs_storedMarginal_sub_card (o : Outcome) :
    |(storedMarginal (buildScoreMatrix m) o).toRat - (m.outcomeMass o).toRat| ≤
      ((displayedCells o).card + 1) * (1 / 2 / 10 ^ gridPrecision) := by
  rw [storedMarginal_eq, outcomeMass_split]
  have hgrid := abs_sum_round_sub (displayedCells o) (fun c => m.mass c.1 c.2) gridPrecision
  have htail := Decimal.abs_round_sub gridPrecision (sumCells m.resolution
    (fun i j => Outcome.ofScore i j = o && (displayN < i || displayN < j)) m.mass)
  simp only [displayedCells] at hgrid ⊢
  rw [abs_le] at hgrid htail ⊢
  simp only [tailOf]
  constructor
  · linarith [hgrid.1, htail.1]
  · linarith [hgrid.2, htail.2]

/-- **A stored marginal is within rounding of the model's**: half a unit for each of at most 64
cells, and one for the tail. -/
theorem abs_storedMarginal_sub (o : Outcome) :
    |(storedMarginal (buildScoreMatrix m) o).toRat - (m.outcomeMass o).toRat| ≤
      65 * (1 / 2 / 10 ^ gridPrecision) := by
  have hcard : ((displayedCells o).card : ℚ) ≤ 64 := by
    have := Finset.card_filter_le (Finset.range (displayN + 1) ×ˢ Finset.range (displayN + 1))
      (fun c => Outcome.ofScore c.1 c.2 = o)
    rw [Finset.card_product, Finset.card_range] at this
    exact_mod_cast this
  have hunit : (0 : ℚ) ≤ 1 / 2 / 10 ^ gridPrecision := by positivity
  exact (abs_storedMarginal_sub_card m o).trans
    (mul_le_mul_of_nonneg_right (by linarith) hunit)

theorem hasPlaces_tail (n : Nat) (o : Outcome) : (tailOf m n o).HasPlaces gridPrecision :=
  Decimal.hasPlaces_round _ _

/-- The tail's three parts have nine places, so their rounded sum is their sum. -/
theorem tailProbability_eq :
    (buildScoreMatrix m).tailProbability =
      tailOf m displayN .home + tailOf m displayN .draw + tailOf m displayN .away :=
  (((hasPlaces_tail m _ _).add (hasPlaces_tail m _ _)).add (hasPlaces_tail m _ _)).round_eq

theorem totalProbability_eq :
    (buildScoreMatrix m).totalProbability =
      (buildScoreMatrix m).grid.flatten.sum + (buildScoreMatrix m).tailProbability := by
  have hrows : ∀ d ∈ (gridOf m displayN).map List.sum, d.HasPlaces gridPrecision := by
    intro d hd
    obtain ⟨row, hrow, rfl⟩ := List.mem_map.mp hd
    obtain ⟨i, -, rfl⟩ := List.mem_map.mp hrow
    refine Decimal.HasPlaces.sum fun x hx => ?_
    obtain ⟨j, -, rfl⟩ := List.mem_map.mp hx
    exact Decimal.hasPlaces_round _ _
  have htail : (buildScoreMatrix m).tailProbability.HasPlaces gridPrecision :=
    Decimal.hasPlaces_round _ _
  have hround := ((Decimal.HasPlaces.sum hrows).add htail).round_eq
  rw [List.sum_flatten]
  exact hround

open Finset in
/-- The whole grid is the sum of its three outcomes' parts. -/
theorem toRat_grid_sum :
    ((buildScoreMatrix m).grid.flatten.sum).toRat =
      ∑ c ∈ range (displayN + 1) ×ˢ range (displayN + 1),
        ((m.mass c.1 c.2).round gridPrecision).toRat := by
  have hgrid : (buildScoreMatrix m).grid.flatten =
      (cells displayN).map fun c => (m.mass c.1 c.2).round gridPrecision := by
    simp only [buildScoreMatrix, gridOf, cells, List.product, List.map_flatMap, List.map_map]
    rfl
  have hall := toRat_sumCells displayN (fun _ _ => true)
    fun i j => (m.mass i j).round gridPrecision
  simp only [filter_true] at hall
  rw [hgrid, ← hall, sumCells, List.filter_true]

open Finset in
theorem sum_outcomes {s : Finset (Nat × Nat)} (f : Nat × Nat → ℚ) :
    ∑ c ∈ s, f c = ∑ c ∈ s.filter (fun c => Outcome.ofScore c.1 c.2 = .home), f c +
      ∑ c ∈ s.filter (fun c => Outcome.ofScore c.1 c.2 = .draw), f c +
      ∑ c ∈ s.filter (fun c => Outcome.ofScore c.1 c.2 = .away), f c := by
  rw [← Finset.sum_filter_add_sum_filter_not s (fun c => Outcome.ofScore c.1 c.2 = .home), add_assoc]
  congr 1
  rw [← Finset.sum_filter_add_sum_filter_not _ (fun c : Nat × Nat => Outcome.ofScore c.1 c.2 = .draw),
    Finset.filter_filter, Finset.filter_filter]
  congr 1
  · refine Finset.sum_congr (Finset.filter_congr fun c _ => ?_) fun _ _ => rfl
    cases Outcome.ofScore c.1 c.2 <;> decide
  · refine Finset.sum_congr (Finset.filter_congr fun c _ => ?_) fun _ _ => rfl
    cases Outcome.ofScore c.1 c.2 <;> decide

/-- The three outcomes of a joint matrix exhaust it. -/
theorem outcomeMass_total :
    (m.outcomeMass .home).toRat + (m.outcomeMass .draw).toRat + (m.outcomeMass .away).toRat = 1 := by
  have h := m.total
  rw [toRat_sumCells, sum_outcomes] at h
  simpa only [JointMatrix.outcomeMass, toRat_sumCells, decide_eq_true_eq, Finset.filter_true]
    using h

/-- Grid and tail sum to the three stored marginals. -/
theorem toRat_total :
    ((buildScoreMatrix m).grid.flatten.sum + (buildScoreMatrix m).tailProbability).toRat =
      (storedMarginal (buildScoreMatrix m) .home).toRat +
        (storedMarginal (buildScoreMatrix m) .draw).toRat +
        (storedMarginal (buildScoreMatrix m) .away).toRat := by
  rw [Decimal.toRat_add, toRat_grid_sum, sum_outcomes, tailProbability_eq, storedMarginal_eq,
    storedMarginal_eq, storedMarginal_eq, Decimal.toRat_add, Decimal.toRat_add]
  ring

/-- **The record keeps the mass**, but for half a unit for each of the 64 cells and the three parts of
the tail. -/
theorem abs_total_sub_one :
    |((buildScoreMatrix m).grid.flatten.sum + (buildScoreMatrix m).tailProbability).toRat - 1| ≤
      67 * (1 / 2 / 10 ^ gridPrecision) := by
  have hhome := abs_le.mp (abs_storedMarginal_sub_card m .home)
  have hdraw := abs_le.mp (abs_storedMarginal_sub_card m .draw)
  have haway := abs_le.mp (abs_storedMarginal_sub_card m .away)
  have hcards : (displayedCells .home).card = 28 ∧ (displayedCells .draw).card = 8 ∧
      (displayedCells .away).card = 28 := by decide
  have hone := outcomeMass_total m
  rw [hcards.1] at hhome
  rw [hcards.2.1] at hdraw
  rw [hcards.2.2] at haway
  push_cast at hhome hdraw haway
  rw [toRat_total, abs_le]
  constructor
  · linarith [hhome.1, hdraw.1, haway.1]
  · linarith [hhome.2, hdraw.2, haway.2]

/-- **What is built from a distribution is coherent** with any probabilities within two millionths
of the distribution's own. -/
theorem buildScoreMatrix_coherent {probs : Triple}
    (h : ∀ o, |(m.outcomeMass o).toRat - (probs.at o).toRat| ≤ 2 / 10 ^ 6) :
    storedCoherenceViolations (buildScoreMatrix m) probs = [] := by
  have hshape : ¬ ((buildScoreMatrix m).grid.length ≠ (buildScoreMatrix m).maxGoals + 1 ∨
      ∃ row ∈ (buildScoreMatrix m).grid, row.length ≠ (buildScoreMatrix m).maxGoals + 1) := by
    rintro (hlen | ⟨row, hrow, hlen⟩)
    · exact hlen (by simp [buildScoreMatrix, gridOf])
    · obtain ⟨i, -, rfl⟩ := List.mem_map.mp hrow
      exact hlen (by simp [buildScoreMatrix])
  have htol : probTolerance.toRat = 1 / 10 ^ 5 := by
    rw [probTolerance, Decimal.toRat_ofScaled]
    norm_num
  have hprec : (1 / 2 / 10 ^ gridPrecision : ℚ) = 1 / 2 / 10 ^ 9 := rfl
  have hmarginal : ∀ o, |(storedMarginal (buildScoreMatrix m) o).toRat - (m.outcomeMass o).toRat| ≤
      65 * (1 / 2 / 10 ^ 9) := fun o => abs_storedMarginal_sub m o
  have hbest : ((buildScoreMatrix m).mostLikelyHome, (buildScoreMatrix m).mostLikelyAway) =
      (bestCell (buildScoreMatrix m).maxGoals (buildScoreMatrix m).grid).2 := by
    simp only [buildScoreMatrix]
  rw [storedCoherenceViolations, if_neg hshape]
  simp only [List.append_eq_nil_iff, violationUnless_eq_nil, List.flatMap_eq_nil_iff, htol]
  refine ⟨⟨⟨⟨?_, ?_⟩, ?_⟩, fun o _ => ?_⟩, ?_⟩
  · have htail : (buildScoreMatrix m).tail.home + (buildScoreMatrix m).tail.draw +
        (buildScoreMatrix m).tail.away = (buildScoreMatrix m).tailProbability :=
      (tailProbability_eq m).symm
    rw [htail, sub_self, abs_zero]
    positivity
  · rw [Decimal.toRat_one]
    refine (abs_total_sub_one m).trans ?_
    rw [hprec]
    norm_num
  · rw [totalProbability_eq, sub_self, abs_zero]
    positivity
  · have hstored := abs_le.mp (hmarginal o)
    have hnear := abs_le.mp (h o)
    rw [abs_le]
    constructor
    · linarith [hstored.1, hnear.1]
    · linarith [hstored.2, hnear.2]
  · rw [if_neg (not_not.mpr hbest), violationUnless_eq_nil]
    have hprob : (buildScoreMatrix m).mostLikelyProbability =
        (bestCell (buildScoreMatrix m).maxGoals (buildScoreMatrix m).grid).1 := by
      simp only [buildScoreMatrix]
    rw [hprob, sub_self, abs_zero, htol]
    positivity

/-! ## What is built is in range -/

theorem outcomeMass_nonneg (o : Outcome) : 0 ≤ (m.outcomeMass o).toRat := by
  rw [JointMatrix.outcomeMass, toRat_sumCells]
  exact Finset.sum_nonneg fun c _ => m.nonneg _ _

open Finset in
theorem mass_le_one {i j : Nat} (hi : i ≤ m.resolution) (hj : j ≤ m.resolution) :
    (m.mass i j).toRat ≤ 1 := by
  have h := m.total
  rw [toRat_sumCells] at h
  rw [← h]
  refine Finset.single_le_sum (f := fun c : Nat × Nat => (m.mass c.1 c.2).toRat)
    (fun c _ => m.nonneg _ _) (a := (i, j)) ?_
  simp only [mem_filter, mem_product, mem_range, and_true]
  omega

/-- The mass beyond the displayed grid, in one outcome. -/
def tailMass (m : JointMatrix) (o : Outcome) : ℚ :=
  (sumCells m.resolution
    (fun i j => Outcome.ofScore i j = o && (displayN < i || displayN < j)) m.mass).toRat

theorem tailMass_nonneg (o : Outcome) : 0 ≤ tailMass m o := by
  rw [tailMass, toRat_sumCells]
  exact Finset.sum_nonneg fun c _ => m.nonneg _ _

open Finset in
/-- The goalless draw is displayed, so the tail never holds everything. -/
theorem tailMass_total (m : GoalMatrix) :
    tailMass m .home + tailMass m .draw + tailMass m .away ≤ 1 - 1 / 10 ^ 6 := by
  have hone := outcomeMass_total m
  have hhome := outcomeMass_split m .home
  have hdraw := outcomeMass_split m .draw
  have haway := outcomeMass_split m .away
  have hnonneg : ∀ o, 0 ≤ ∑ c ∈ (range (displayN + 1) ×ˢ range (displayN + 1)).filter
      (fun c => Outcome.ofScore c.1 c.2 = o), (m.mass c.1 c.2).toRat := fun o =>
    Finset.sum_nonneg fun c _ => m.nonneg _ _
  have hgoalless : 1 / 10 ^ 6 ≤ ∑ c ∈ (range (displayN + 1) ×ˢ range (displayN + 1)).filter
      (fun c => Outcome.ofScore c.1 c.2 = .draw), (m.mass c.1 c.2).toRat := by
    refine m.goalless.trans (Finset.single_le_sum
      (f := fun c : Nat × Nat => (m.mass c.1 c.2).toRat) (fun c _ => m.nonneg _ _)
      (a := (0, 0)) (by decide))
  have h1 := hnonneg .home
  have h2 := hnonneg .away
  simp only [tailMass]
  linarith

theorem abs_tailOf_sub (o : Outcome) :
    |(tailOf m displayN o).toRat - tailMass m o| ≤ 1 / 2 / 10 ^ 9 :=
  Decimal.abs_round_sub gridPrecision _

theorem tailOf_nonneg (o : Outcome) : 0 ≤ (tailOf m displayN o).toRat :=
  Decimal.round_nonneg (tailMass_nonneg m o) _

/-- The stored tail and its parts are probabilities. -/
theorem tailProbability_le_one (m : GoalMatrix) :
    (tailOf m displayN .home).toRat + (tailOf m displayN .draw).toRat +
      (tailOf m displayN .away).toRat ≤ 1 := by
  have hhome := abs_le.mp (abs_tailOf_sub m .home)
  have hdraw := abs_le.mp (abs_tailOf_sub m .draw)
  have haway := abs_le.mp (abs_tailOf_sub m .away)
  have htotal := tailMass_total m
  linarith [hhome.2, hdraw.2, haway.2]

/-- Every stored cell is a probability. -/
theorem gridAt_mem_unit {i j : Nat} (hi : i < displayN + 1) (hj : j < displayN + 1) :
    0 ≤ (gridAt (gridOf m displayN) i j).toRat ∧ (gridAt (gridOf m displayN) i j).toRat ≤ 1 := by
  have hle := m.displayed
  rw [gridAt_gridOf m hi hj]
  exact ⟨Decimal.round_nonneg (m.nonneg i j) _,
    Decimal.round_le_one (mass_le_one m (by omega) (by omega)) _⟩

end Coherence

/-- The likeliest cell is a cell of the grid. -/
theorem bestCell_spec (n : Nat) (grid : List (List Decimal)) :
    ∃ i j, i < n + 1 ∧ j < n + 1 ∧ bestCell n grid = (gridAt grid i j, i, j) := by
  suffices ∀ (cs : List (Nat × Nat)) (best : Decimal × Nat × Nat),
      (∀ c ∈ cs, c.1 < n + 1 ∧ c.2 < n + 1) →
      (∃ i j, i < n + 1 ∧ j < n + 1 ∧ best = (gridAt grid i j, i, j)) →
      ∃ i j, i < n + 1 ∧ j < n + 1 ∧ cs.foldl (fun best c =>
        let cell := (gridAt grid c.1 c.2, c.1, c.2)
        if beats cell best then cell else best) best = (gridAt grid i j, i, j) by
    refine this (cells n) _ (fun c hc => ?_) ⟨0, 0, by omega, by omega, rfl⟩
    obtain ⟨i, j⟩ := c
    rw [cells, List.pair_mem_product, List.mem_range, List.mem_range] at hc
    exact hc
  intro cs
  induction cs with
  | nil => exact fun best _ hbest => hbest
  | cons c cs ih =>
      intro best hcs hbest
      refine ih _ (fun x hx => hcs x (List.mem_cons_of_mem _ hx)) ?_
      obtain ⟨hi, hj⟩ := hcs c List.mem_cons_self
      dsimp only
      split_ifs
      · exact ⟨c.1, c.2, hi, hj, rfl⟩
      · exact hbest

end Golavo.Forecast
