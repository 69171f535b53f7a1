import Golavo.Forecast.ScoreMatrix
import Golavo.Lib.InverseCdf
import Mathlib.Algebra.BigOperators.Group.Finset.Piecewise
import Mathlib.Algebra.BigOperators.Ring.List
import Mathlib.Algebra.Order.Field.Basic

/-! # Conditional scorelines

A voice that publishes only a 1X2 triple borrows the score shape of the goal model: each outcome's
region of the matrix is scaled to the voice's probability, or the whole probability is put on one
scoreline where the region has no mass. A scoreline is then sampled from the flattened matrix. The
main result: **the voice's triple is preserved and no impossible scoreline is sampled**
(`conditional_scorelines`). -/

namespace Golavo.Outlook

open Golavo.Forecast (Outcome cells)
open Golavo.Lib.InverseCdf (cumsum clampLast searchRight Selects selects_iff
  exists_weight_of_selects clampLast_cumsum)

section Definitions

variable {K : Type*} [Field K] [LinearOrder K]

/-! ## The matrix of a voice -/

/-- The scoreline an outcome gets where the matrix has no mass for it. -/
def fallback : Outcome → Nat × Nat
  | .home => (1, 0)
  | .draw => (0, 0)
  | .away => (0, 1)

/-- The sum of a matrix of `n + 1` rows and columns. -/
def totalMass (n : Nat) (matrix : Nat → Nat → K) : K :=
  ((cells n).map fun c => matrix c.1 c.2).sum

/-- A matrix inside one outcome's region, and zero elsewhere. -/
def shaped (matrix : Nat → Nat → K) (o : Outcome) (i j : Nat) : K :=
  if Outcome.ofScore i j = o then matrix i j else 0

/-- What one outcome adds to the combined matrix. -/
def outcomeShare (n : Nat) (matrix : Nat → Nat → K) (probability : K) (o : Outcome) (i j : Nat) :
    K :=
  if 0 < totalMass n (shaped matrix o) then
    probability * shaped matrix o i j / totalMass n (shaped matrix o)
  else if (i, j) = fallback o then probability else 0

/-- The 1X2 mass of a voice in the score shape of a matrix, before it is normalised. -/
def combined (n : Nat) (matrix : Nat → Nat → K) (probs : Outcome → K) (i j : Nat) : K :=
  (Outcome.all.map fun o => outcomeShare n matrix (probs o) o i j).sum

/-- Preserve a voice's 1X2 mass while borrowing only the score shape
(`_conditional_score_matrix`). -/
def conditionalScoreMatrix (n : Nat) (matrix : Nat → Nat → K) (probs : Outcome → K) (i j : Nat) :
    K :=
  combined n matrix probs i j / totalMass n (combined n matrix probs)

/-! ## Sampling -/

/-- The running totals of a flattened matrix, the last one set to one. -/
def scoreCdf (n : Nat) (matrix : Nat → Nat → K) : List K :=
  clampLast (cumsum ((cells n).map fun c => matrix c.1 c.2))

/-- The scoreline a draw selects from a matrix (`_sample_scores`). -/
def sampleScore (n : Nat) (matrix : Nat → Nat → K) (u : K) : Nat × Nat :=
  let sampled := searchRight (scoreCdf n matrix) u
  (sampled / (n + 1), sampled % (n + 1))

end Definitions

/-! ## Cells of a matrix -/

theorem mem_cells {n i j : Nat} : (i, j) ∈ cells n ↔ i ≤ n ∧ j ≤ n := by
  rw [cells, List.pair_mem_product, List.mem_range, List.mem_range, Nat.lt_succ_iff,
    Nat.lt_succ_iff]

theorem nodup_cells (n : Nat) : (cells n).Nodup := List.nodup_range.product List.nodup_range

/-- The rows of a grid one after the other. -/
theorem product_range (m w : Nat) (hw : 0 < w) :
    (List.range m).product (List.range w) =
      (List.range (m * w)).map fun k => (k / w, k % w) := by
  induction m with
  | zero => rw [Nat.zero_mul]; rfl
  | succ m ih =>
      have hrow : ([m] : List Nat).product (List.range w) =
          (List.range w).map fun j => ((m * w + j) / w, (m * w + j) % w) := by
        rw [List.product, List.flatMap_singleton]
        refine List.map_congr_left fun j hj => ?_
        rw [List.mem_range] at hj
        rw [Nat.mul_comm m w, Nat.mul_add_div hw, Nat.div_eq_of_lt hj, Nat.add_zero,
          Nat.mul_add_mod, Nat.mod_eq_of_lt hj]
      rw [List.range_succ, Nat.succ_mul, List.range_add, List.map_append, List.map_map, ← ih]
      show ((List.range m) ++ [m]).flatMap _ = _
      rw [List.flatMap_append]
      exact congrArg _ hrow

/-- The flat index of a cell counts the rows before it. -/
theorem getElem?_cells {n k : Nat} {c : Nat × Nat} (h : (cells n)[k]? = some c) :
    c = (k / (n + 1), k % (n + 1)) := by
  rw [cells, product_range _ _ (Nat.succ_pos n), List.getElem?_map, Option.map_eq_some_iff] at h
  obtain ⟨j, hj, rfl⟩ := h
  obtain ⟨-, rfl⟩ := List.getElem?_eq_some_iff.mp hj
  rw [List.getElem_range]

/-! ## What a voice's matrix keeps -/

section Totals

variable {K : Type*} [Field K] {n : Nat}

theorem totalMass_congr {f g : Nat → Nat → K} (h : ∀ c ∈ cells n, f c.1 c.2 = g c.1 c.2) :
    totalMass n f = totalMass n g :=
  congrArg List.sum (List.map_congr_left h)

theorem totalMass_div (f : Nat → Nat → K) (d : K) :
    (totalMass n fun i j => f i j / d) = totalMass n f / d := by
  simp only [totalMass, div_eq_mul_inv]
  exact List.sum_map_mul_right _ _ _

theorem totalMass_mul_div (f : Nat → Nat → K) (p d : K) :
    (totalMass n fun i j => p * f i j / d) = p * totalMass n f / d := by
  rw [totalMass_div]
  congr 1
  exact List.sum_map_mul_left _ _ _

theorem totalMass_zero : (totalMass n fun _ _ => (0 : K)) = 0 :=
  List.sum_eq_zero fun x hx => by
    obtain ⟨_, -, rfl⟩ := List.mem_map.mp hx
    rfl

/-- A matrix with one entry. -/
theorem totalMass_single {c : Nat × Nat} (hc : c ∈ cells n) (p : K) :
    (totalMass n fun i j => if (i, j) = c then p else 0) = p := by
  have hsum : (totalMass n fun i j => if (i, j) = c then p else 0) =
      ∑ d ∈ (cells n).toFinset, if d = c then p else 0 :=
    (List.sum_toFinset _ (nodup_cells n)).symm
  rw [hsum, Finset.sum_ite_eq', if_pos (List.mem_toFinset.mpr hc)]

theorem totalMass_outcomes (f : Outcome → Nat → Nat → K) :
    (totalMass n fun i j => (Outcome.all.map fun o => f o i j).sum) =
      (Outcome.all.map fun o => totalMass n (f o)).sum := by
  simp only [totalMass, Outcome.all, List.map_cons, List.map_nil, List.sum_cons, List.sum_nil,
    add_zero, List.sum_map_add]

/-- The regions partition the matrix. -/
theorem totalMass_eq_regions (f : Nat → Nat → K) :
    totalMass n f = (Outcome.all.map fun o => totalMass n (shaped f o)).sum := by
  rw [← totalMass_outcomes]
  refine totalMass_congr fun c _ => ?_
  simp only [Outcome.all, List.map_cons, List.map_nil, List.sum_cons, List.sum_nil, shaped]
  cases Outcome.ofScore c.1 c.2 <;> simp

end Totals

theorem fallback_mem {n : Nat} (hn : 1 ≤ n) (o : Outcome) : fallback o ∈ cells n := by
  cases o <;> exact mem_cells.mpr (by omega)

@[simp] theorem ofScore_fallback (o : Outcome) :
    Outcome.ofScore (fallback o).1 (fallback o).2 = o := by
  cases o <;> rfl

section Conditional

variable {K : Type*} [Field K] [LinearOrder K] {n : Nat} {matrix : Nat → Nat → K}
  {probs : Outcome → K}

/-- The share of an outcome is its probability, also where its region has no mass. -/
theorem totalMass_outcomeShare (hn : 1 ≤ n) (p : K) (o : Outcome) :
    totalMass n (outcomeShare n matrix p o) = p := by
  unfold outcomeShare
  split_ifs with h
  · rw [totalMass_mul_div, mul_div_cancel_right₀ p h.ne']
  · exact totalMass_single (fallback_mem hn o) p

/-- A share stays inside its own region. -/
theorem shaped_outcomeShare (p : K) (o o' : Outcome) :
    shaped (outcomeShare n matrix p o) o' =
      if o = o' then outcomeShare n matrix p o else fun _ _ => 0 := by
  funext i j
  have houtside : Outcome.ofScore i j ≠ o → outcomeShare n matrix p o i j = 0 := by
    intro hne
    unfold outcomeShare
    split_ifs with h hfall
    · rw [shaped, if_neg hne, mul_zero, zero_div]
    · exact absurd (by rw [← ofScore_fallback o, ← hfall]) hne
    · rfl
  rw [shaped]
  by_cases ho : Outcome.ofScore i j = o
  · subst ho
    split_ifs <;> rfl
  · rw [houtside ho, ite_self]
    split_ifs
    · exact (houtside ho).symm
    · rfl

/-- The mass a combined matrix has in a region is the probability of the outcome. -/
theorem totalMass_shaped_combined (hn : 1 ≤ n) (o : Outcome) :
    totalMass n (shaped (combined n matrix probs) o) = probs o := by
  have hshaped : ∀ c ∈ cells n, shaped (combined n matrix probs) o c.1 c.2 =
      (Outcome.all.map fun o' => shaped (outcomeShare n matrix (probs o') o') o c.1 c.2).sum := by
    intro c _
    simp only [shaped, combined, Outcome.all, List.map_cons, List.map_nil, List.sum_cons,
      List.sum_nil]
    split_ifs <;> simp
  rw [totalMass_congr (g := fun i j =>
    (Outcome.all.map fun o' => shaped (outcomeShare n matrix (probs o') o') o i j).sum) hshaped,
    totalMass_outcomes]
  have hshare : ∀ o', totalMass n (shaped (outcomeShare n matrix (probs o') o') o) =
      if o' = o then probs o' else 0 := by
    intro o'
    rw [shaped_outcomeShare]
    split_ifs with h
    · exact totalMass_outcomeShare hn (probs o') o'
    · exact totalMass_zero
  simp only [hshare, Outcome.all, List.map_cons, List.map_nil, List.sum_cons, List.sum_nil]
  cases o <;> simp

/-- A triple that sums to one needs no normalising. -/
theorem conditionalScoreMatrix_eq (hn : 1 ≤ n)
    (hsum : probs .home + probs .draw + probs .away = 1) :
    conditionalScoreMatrix n matrix probs = combined n matrix probs := by
  have htotal : totalMass n (combined n matrix probs) = 1 := by
    rw [totalMass_eq_regions]
    simp only [totalMass_shaped_combined hn, Outcome.all, List.map_cons, List.map_nil,
      List.sum_cons, List.sum_nil, add_zero]
    rw [← add_assoc, hsum]
  funext i j
  rw [conditionalScoreMatrix, htotal, div_one]

variable [IsStrictOrderedRing K]

theorem combined_nonneg (hmatrix : ∀ c ∈ cells n, 0 ≤ matrix c.1 c.2) (hprobs : ∀ o, 0 ≤ probs o)
    {i j : Nat} (hc : (i, j) ∈ cells n) : 0 ≤ combined n matrix probs i j := by
  refine List.sum_nonneg fun x hx => ?_
  obtain ⟨o, -, rfl⟩ := List.mem_map.mp hx
  unfold outcomeShare
  split_ifs with h
  · refine div_nonneg (mul_nonneg (hprobs o) ?_) h.le
    rw [shaped]
    split_ifs
    · exact hmatrix (i, j) hc
    · exact le_rfl
  · exact hprobs o
  · exact le_rfl

/-- **A draw selects one possible scoreline of the matrix.** -/
theorem sampleScore_spec (hmatrix : ∀ c ∈ cells n, 0 ≤ matrix c.1 c.2)
    (htotal : totalMass n matrix = 1) {u : K} (hu : 0 ≤ u) (hu' : u < 1) :
    sampleScore n matrix u ∈ cells n ∧
      0 < matrix (sampleScore n matrix u).1 (sampleScore n matrix u).2 ∧
      ∀ k, Selects (scoreCdf n matrix) u k ↔
        k = (sampleScore n matrix u).1 * (n + 1) + (sampleScore n matrix u).2 := by
  have hnonneg : ∀ w ∈ (cells n).map fun c => matrix c.1 c.2, 0 ≤ w := by
    intro w hw
    obtain ⟨c, hc, rfl⟩ := List.mem_map.mp hw
    exact hmatrix c hc
  have hne : ((cells n).map fun c => matrix c.1 c.2) ≠ [] :=
    List.ne_nil_of_mem (List.mem_map_of_mem (mem_cells.mpr ⟨Nat.zero_le n, Nat.zero_le n⟩))
  have hselects : ∀ k, Selects (scoreCdf n matrix) u k ↔ k = searchRight (scoreCdf n matrix) u :=
    fun k => selects_iff hnonneg htotal hne hu'
  have hsampled := (hselects _).mpr rfl
  rw [scoreCdf, clampLast_cumsum hne htotal] at hsampled
  obtain ⟨w, hw, hpos⟩ := exists_weight_of_selects hu hsampled
  rw [← clampLast_cumsum hne htotal, ← scoreCdf, List.getElem?_map, Option.map_eq_some_iff] at hw
  obtain ⟨c, hc, rfl⟩ := hw
  have hmem := List.mem_of_getElem? hc
  obtain rfl := getElem?_cells hc
  refine ⟨hmem, hpos, fun k => ?_⟩
  rw [hselects, sampleScore, Nat.div_add_mod']

end Conditional

/-- **Conditional scorelines**: the matrix of a voice is a distribution with exactly the voice's 1X2
masses, and from any distribution a draw selects one scoreline of the matrix that has mass. -/
theorem conditional_scorelines {K : Type*} [Field K] [LinearOrder K] [IsStrictOrderedRing K]
    {n : Nat} (hn : 1 ≤ n) (matrix : Nat → Nat → K)
    (hmatrix : ∀ i j, i ≤ n → j ≤ n → 0 ≤ matrix i j) :
    (∀ probs : Outcome → K, (∀ o, 0 ≤ probs o) →
      probs .home + probs .draw + probs .away = 1 →
      (∀ i j, i ≤ n → j ≤ n → 0 ≤ conditionalScoreMatrix n matrix probs i j) ∧
      totalMass n (conditionalScoreMatrix n matrix probs) = 1 ∧
      ∀ o, totalMass n (shaped (conditionalScoreMatrix n matrix probs) o) = probs o) ∧
    (totalMass n matrix = 1 → ∀ u, 0 ≤ u → u < 1 →
      ((sampleScore n matrix u).1 ≤ n ∧ (sampleScore n matrix u).2 ≤ n) ∧
      0 < matrix (sampleScore n matrix u).1 (sampleScore n matrix u).2 ∧
      ∀ k, Selects (scoreCdf n matrix) u k ↔
        k = (sampleScore n matrix u).1 * (n + 1) + (sampleScore n matrix u).2) := by
  have hcells : ∀ c ∈ cells n, 0 ≤ matrix c.1 c.2 := fun c hc =>
    hmatrix c.1 c.2 (mem_cells.mp hc).1 (mem_cells.mp hc).2
  constructor
  · intro probs hprobs hsum
    rw [conditionalScoreMatrix_eq hn hsum]
    refine ⟨fun i j hi hj => combined_nonneg hcells hprobs (mem_cells.mpr ⟨hi, hj⟩), ?_,
      totalMass_shaped_combined hn⟩
    rw [totalMass_eq_regions]
    simp only [totalMass_shaped_combined hn, Outcome.all, List.map_cons, List.map_nil,
      List.sum_cons, List.sum_nil, add_zero]
    rw [← add_assoc, hsum]
  · intro htotal u hu hu'
    obtain ⟨hmem, hpos, hselects⟩ := sampleScore_spec hcells htotal hu hu'
    exact ⟨mem_cells.mp hmem, hpos, hselects⟩

/-- A goalless matrix: home and away wins have no mass of their own. -/
theorem conditional_scorelines_goalless :
    totalMass 1 (conditionalScoreMatrix 1 (fun i j => if (i, j) = (0, 0) then (1 : ℚ) else 0)
      (fun o => if o = .draw then 1 / 2 else 1 / 4)) = 1 ∧
    0 < (fun i j => if (i, j) = (0, 0) then (1 : ℚ) else 0)
      (sampleScore 1 (fun i j => if (i, j) = (0, 0) then (1 : ℚ) else 0) (1 / 2)).1
      (sampleScore 1 (fun i j => if (i, j) = (0, 0) then (1 : ℚ) else 0) (1 / 2)).2 := by
  have hspec := conditional_scorelines (n := 1) le_rfl
    (fun i j => if (i, j) = (0, 0) then (1 : ℚ) else 0)
    (fun i j _ _ => by show (0 : ℚ) ≤ if _ then _ else _; split_ifs <;> norm_num)
  refine ⟨(hspec.1 _ (fun o => ?_) ?_).2.1, (hspec.2 ?_ (1 / 2) ?_ ?_).2.1⟩
  · split_ifs <;> norm_num
  · decide +kernel
  · decide +kernel
  · norm_num
  · norm_num

end Golavo.Outlook
