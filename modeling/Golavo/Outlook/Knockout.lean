import Golavo.Outlook.ScoreSampling
import Mathlib.Tactic.FieldSimp
import Mathlib.Tactic.Linarith
import Mathlib.Tactic.Positivity

/-! # Who advances

The probability that a team advances in a knockout match on neutral ground, from a fitted ratings or
goal model: its regulation win, and its regulation draw times what it makes of extra time. The goal
families build a matrix of scorelines from two scoring rates; the ratings model has none and falls back
on its own regulation. The main result: **whichever team is named first, the two probabilities sum to
one** (`VoiceModel.advance_complementary`). -/

namespace Golavo.Outlook

open Golavo.Forecast (Outcome cells)

/-! ## Predictions -/

/-- What the models take from their numeric libraries, and what they rely on of it. -/
structure Numerics (K : Type*) [Field K] [LinearOrder K] where
  exp : K → K
  sqrt : K → K
  /-- The Poisson probability of a count at a rate. -/
  pmf : Nat → K → K
  exp_pos : ∀ x, 0 < exp x
  exp_neg : ∀ x, exp (-x) = (exp x)⁻¹
  pmf_pos : ∀ k rate, 0 < rate → 0 < pmf k rate
  pmf_zero_pos : ∀ rate, 0 ≤ rate → 0 < pmf 0 rate

section Definitions

variable {K : Type*} [Field K] [LinearOrder K]

/-- Bring a value between two bounds. -/
def clip (low high x : K) : K := min high (max low x)

/-- Probabilities bounded away from zero that sum to one (`_normalise`). -/
def normalise (values : Outcome → K) (o : Outcome) : K :=
  max (values o) (1 / 10 ^ 12) / (Outcome.all.map fun o => max (values o) (1 / 10 ^ 12)).sum

/-- A fitted ratings model. -/
structure EloModel (K : Type*) where
  homeAdvantage : K
  scale : K
  threshold : K
  ratings : String → Option K

/-- The rating a team starts from. -/
def eloInitial : K := 1500

/-- The logistic function. -/
def logistic (num : Numerics K) (x : K) : K := 1 / (1 + num.exp (-x))

/-- The prediction of a ratings model (`EloOrdinalLogitModel.predict`). -/
def EloModel.predict (num : Numerics K) (m : EloModel K) (home away : String) (neutral : Bool) :
    Outcome → K :=
  let advantage := if neutral then 0 else m.homeAdvantage
  let strength := ((m.ratings home).getD eloInitial - (m.ratings away).getD eloInitial + advantage) /
    m.scale
  let cdfAway := logistic num (-m.threshold - strength)
  let cdfDraw := logistic num (m.threshold - strength)
  normalise fun
    | .home => 1 - cdfDraw
    | .draw => cdfDraw - cdfAway
    | .away => cdfAway

/-- The families that model goals. -/
inductive PoissonFamily where
  | poissonIndependent
  | dixonColes
  | bivariatePoisson
  | contextualDixonColes
  deriving DecidableEq, Repr

/-- Whether a family carries the low-score correction. -/
def PoissonFamily.isDixonColes : PoissonFamily → Bool
  | .dixonColes => true
  | .contextualDixonColes => true
  | _ => false

/-- A fitted goal model; the edges are the contextual family's. -/
structure PoissonModel (K : Type*) [Field K] [LinearOrder K] where
  family : PoissonFamily
  rho : K
  baseHome : K
  baseAway : K
  attack : String → Option K
  defence : String → Option K
  shared : K
  shared_nonneg : 0 ≤ shared
  homeAttackEdge : String → Option K
  homeDefenceEdge : String → Option K
  /-- The edge of an ordinary rest. -/
  normalRestEdge : Option K

namespace PoissonModel

/-- The scoring rates of a fixture (`PoissonModel._rates`). -/
def baseRates (num : Numerics K) (m : PoissonModel K) (home away : String) (neutral : Bool) :
    K × K :=
  let base := num.sqrt (m.baseHome * m.baseAway)
  let homeBase := if neutral then base else m.baseHome
  let awayBase := if neutral then base else m.baseAway
  (clip (15 / 100) 5 (homeBase * (m.attack home).getD 1 * (m.defence away).getD 1),
    clip (15 / 100) 5 (awayBase * (m.attack away).getD 1 * (m.defence home).getD 1))

/-- The scoring rates with the contextual corrections, for an ordinary rest on both sides
(`ContextualDixonColesModel._rates`). -/
def contextualRates (num : Numerics K) (m : PoissonModel K) (home away : String)
    (neutral : Bool) : K × K :=
  let base := m.baseRates num home away neutral
  let homeRate := if neutral then base.1 else base.1 * (m.homeAttackEdge home).getD 1
  let awayRate := if neutral then base.2 else base.2 * (m.homeDefenceEdge home).getD 1
  (clip (15 / 100) 5 (homeRate * m.normalRestEdge.getD 1),
    clip (15 / 100) 5 (awayRate * m.normalRestEdge.getD 1))

/-- The scoring rates a model of any family settles on. -/
def rates (num : Numerics K) (m : PoissonModel K) (home away : String) (neutral : Bool) : K × K :=
  if m.family = .contextualDixonColes then m.contextualRates num home away neutral
  else m.baseRates num home away neutral

/-- The goals a side a matrix is resolved to. -/
def resolution : Nat := 20

/-- The joint distribution of two independent counts. -/
def independent (num : Numerics K) (homeRate awayRate : K) (i j : Nat) : K :=
  num.pmf i homeRate * num.pmf j awayRate

/-- The joint distribution of two counts with a common part. -/
def bivariate (num : Numerics K) (m : PoissonModel K) (homeRate awayRate : K) (i j : Nat) : K :=
  let shared := min m.shared (min (homeRate * (4 / 10)) (awayRate * (4 / 10)))
  ((List.range (min i j + 1)).map fun common =>
    num.pmf common shared * num.pmf (i - common) (max (homeRate - shared) (1 / 10 ^ 9)) *
      num.pmf (j - common) (max (awayRate - shared) (1 / 10 ^ 9))).sum

/-- The low-score correction. -/
def correction (m : PoissonModel K) (homeRate awayRate : K) : Nat → Nat → K
  | 0, 0 => 1 - homeRate * awayRate * m.rho
  | 0, 1 => 1 + homeRate * m.rho
  | 1, 0 => 1 + awayRate * m.rho
  | 1, 1 => 1 - m.rho
  | _, _ => 1

/-- The mass of a scoreline before it is normalised. -/
def rawMass (num : Numerics K) (m : PoissonModel K) (homeRate awayRate : K) (i j : Nat) : K :=
  let mass := if m.family = .bivariatePoisson then m.bivariate num homeRate awayRate i j
    else independent num homeRate awayRate i j
  max (if m.family.isDixonColes then mass * m.correction homeRate awayRate i j else mass) 0

/-- The joint matrix of two scoring rates (`_matrix`). -/
def matrix (num : Numerics K) (m : PoissonModel K) (homeRate awayRate : K) (i j : Nat) : K :=
  m.rawMass num homeRate awayRate i j / totalMass resolution (m.rawMass num homeRate awayRate)

/-- The prediction of two scoring rates (`_prediction`). -/
def prediction (num : Numerics K) (m : PoissonModel K) (rates : K × K) : Outcome → K :=
  normalise fun o => totalMass resolution (shaped (m.matrix num rates.1 rates.2) o)

/-- The prediction of a fixture (`predict`). -/
def predict (num : Numerics K) (m : PoissonModel K) (home away : String) (neutral : Bool) :
    Outcome → K :=
  m.prediction num (m.rates num home away neutral)

/-- The prediction of a fraction of a match (`predict_duration`). -/
def predictDuration (num : Numerics K) (m : PoissonModel K) (home away : String)
    (neutral : Bool) (fraction : K) : Outcome → K :=
  let rates := m.rates num home away neutral
  m.prediction num (rates.1 * fraction, rates.2 * fraction)

end PoissonModel

/-- A fitted voice. -/
inductive VoiceModel (K : Type*) [Field K] [LinearOrder K] where
  | elo (m : EloModel K)
  | poisson (m : PoissonModel K)

/-- The regulation prediction of a voice. -/
def VoiceModel.predict (num : Numerics K) (home away : String) (neutral : Bool) :
    VoiceModel K → Outcome → K
  | .elo m => m.predict num home away neutral
  | .poisson m => m.predict num home away neutral

/-- Two shares of their sum (`_normalise_pair`). -/
def normalisePair (home away : K) : K × K :=
  let total := home + away
  if total ≤ 0 then (1 / 2, 1 / 2) else (home / total, away / total)

/-- The probability that the team named first advances beyond a regulation draw: by 30 minutes of the
same goal process and an even shootout, or by its share of the decided regulation. -/
def VoiceModel.beyond90 (num : Numerics K) (home away : String) : VoiceModel K → K
  | .poisson m =>
      let extraTime := m.predictDuration num home away true (1 / 3)
      extraTime .home + 1 / 2 * extraTime .draw
  | .elo m =>
      let regulation := m.predict num home away true
      (normalisePair (regulation .home) (regulation .away)).1

/-- The probability that the team named first advances (`knockout_advance_probability`). -/
def knockoutAdvanceProbability (num : Numerics K) (model : VoiceModel K) (home away : String) : K :=
  let regulation := model.predict num home away true
  min 1 (max 0 (regulation .home + regulation .draw * model.beyond90 num home away))

end Definitions

/-! ## Exchanging the teams -/

/-- An outcome seen from the other side. -/
def exchanged : Outcome → Outcome
  | .home => .away
  | .draw => .draw
  | .away => .home

theorem ofScore_exchanged (i j : Nat) : Outcome.ofScore j i = exchanged (Outcome.ofScore i j) := by
  unfold Outcome.ofScore
  rcases lt_trichotomy i j with h | rfl | h
  · rw [if_pos h, if_neg h.asymm, if_neg h.ne]
    rfl
  · rw [if_neg (lt_irrefl i), if_pos rfl]
    rfl
  · rw [if_neg h.asymm, if_neg h.ne, if_pos h]
    rfl

theorem exchanged_exchanged (o : Outcome) : exchanged (exchanged o) = o := by
  cases o <;> rfl

section Exchange

variable {K : Type*} [Field K]

/-- A matrix and its transpose have the same sum. -/
theorem totalMass_transpose (n : Nat) (f : Nat → Nat → K) :
    totalMass n (fun i j => f j i) = totalMass n f := by
  have hperm : ((cells n).map Prod.swap).Perm (cells n) := by
    refine (List.perm_ext_iff_of_nodup ((nodup_cells n).map Prod.swap_injective)
      (nodup_cells n)).mpr fun c => ?_
    obtain ⟨i, j⟩ := c
    rw [List.mem_map, mem_cells]
    constructor
    · rintro ⟨⟨a, b⟩, hmem, heq⟩
      obtain ⟨rfl, rfl⟩ := Prod.mk.inj heq
      exact (mem_cells.mp hmem).symm
    · exact fun h => ⟨(j, i), mem_cells.mpr h.symm, rfl⟩
  have h := (hperm.map fun c => f c.1 c.2).sum_eq
  rw [List.map_map] at h
  exact h

/-- The region of an outcome in a transposed matrix is that of the exchanged one. -/
theorem totalMass_shaped_transpose {n : Nat} {f g : Nat → Nat → K} (h : ∀ i j, g i j = f j i)
    (o : Outcome) : totalMass n (shaped g o) = totalMass n (shaped f (exchanged o)) := by
  rw [← totalMass_transpose n (shaped f (exchanged o))]
  congr 1
  funext i j
  rw [shaped, shaped, h, ofScore_exchanged i j]
  cases Outcome.ofScore i j <;> cases o <;> rfl

variable [LinearOrder K]

theorem normalise_exchanged {p q : Outcome → K} (h : ∀ o, q o = p (exchanged o)) (o : Outcome) :
    normalise q o = normalise p (exchanged o) := by
  unfold normalise
  rw [h o]
  congr 1
  simp only [Outcome.all, List.map_cons, List.map_nil, List.sum_cons, List.sum_nil, add_zero, h,
    exchanged]
  ac_rfl

/-- **A goal model's matrix transposes with its rates**, the low-score correction included. -/
theorem PoissonModel.rawMass_exchanged (num : Numerics K) (m : PoissonModel K)
    (homeRate awayRate : K) (i j : Nat) :
    m.rawMass num awayRate homeRate i j = m.rawMass num homeRate awayRate j i := by
  have hindependent : independent num awayRate homeRate i j =
      independent num homeRate awayRate j i := mul_comm _ _
  have hbivariate : m.bivariate num awayRate homeRate i j =
      m.bivariate num homeRate awayRate j i := by
    unfold bivariate
    rw [min_comm (awayRate * _), Nat.min_comm i j]
    refine congrArg List.sum (List.map_congr_left fun common _ => ?_)
    exact mul_right_comm _ _ _
  have hcorrection : m.correction awayRate homeRate i j =
      m.correction homeRate awayRate j i := by
    rcases i with _ | _ | i <;> rcases j with _ | _ | j <;> try rfl
    rw [correction, correction, mul_comm awayRate]
  rw [rawMass, rawMass, hindependent, hbivariate, hcorrection]

theorem PoissonModel.prediction_exchanged (num : Numerics K) (m : PoissonModel K) (rates : K × K)
    (o : Outcome) : m.prediction num rates.swap o = m.prediction num rates (exchanged o) := by
  refine normalise_exchanged (fun o => totalMass_shaped_transpose (fun i j => ?_) o) o
  rw [matrix, matrix, rawMass_exchanged]
  congr 1
  rw [← totalMass_transpose]
  congr 1
  funext i j
  exact rawMass_exchanged num m _ _ j i

/-- **Neutral ground exchanges the rates**, the contextual corrections included. -/
theorem PoissonModel.rates_exchanged (num : Numerics K) (m : PoissonModel K) (home away : String) :
    m.rates num away home true = (m.rates num home away true).swap := by
  unfold rates contextualRates baseRates
  simp only [if_true]
  split_ifs <;> rfl

theorem VoiceModel.exists_predict (num : Numerics K) (model : VoiceModel K) (home away : String) :
    ∃ p, model.predict num home away true = normalise p := by
  cases model with
  | elo m => exact ⟨_, rfl⟩
  | poisson m => exact ⟨_, rfl⟩

theorem PoissonModel.rawMass_nonneg (num : Numerics K) (m : PoissonModel K)
    (homeRate awayRate : K) (i j : Nat) : 0 ≤ m.rawMass num homeRate awayRate i j :=
  le_max_right _ _

variable [IsStrictOrderedRing K]

theorem logistic_neg (num : Numerics K) (x : K) : logistic num (-x) = 1 - logistic num x := by
  have hpos := num.exp_pos x
  have hne : num.exp x ≠ 0 := hpos.ne'
  have hsum : 1 + num.exp x ≠ 0 := (by positivity : 0 < 1 + num.exp x).ne'
  rw [logistic, logistic, neg_neg, num.exp_neg]
  field_simp
  ring

/-- **Neutral ground exchanges a ratings prediction.** -/
theorem EloModel.predict_exchanged (num : Numerics K) (m : EloModel K) (home away : String)
    (o : Outcome) :
    m.predict num away home true o = m.predict num home away true (exchanged o) := by
  have hstrength : ((m.ratings away).getD eloInitial - (m.ratings home).getD eloInitial + 0) /
      m.scale = -(((m.ratings home).getD eloInitial - (m.ratings away).getD eloInitial + 0) /
        m.scale) := by
    rw [add_zero, add_zero, ← neg_sub, neg_div]
  unfold predict
  refine normalise_exchanged (fun o => ?_) o
  simp only [if_true]
  rw [hstrength]
  generalize ((m.ratings home).getD eloInitial - (m.ratings away).getD eloInitial + 0) /
    m.scale = strength
  have hlower : logistic num (-m.threshold - -strength) =
      1 - logistic num (m.threshold - strength) := by
    rw [← logistic_neg]
    congr 1
    ring
  have hupper : logistic num (m.threshold - -strength) =
      1 - logistic num (-m.threshold - strength) := by
    rw [← logistic_neg]
    congr 1
    ring
  cases o <;> simp only [exchanged, hlower, hupper] <;> ring

/-! ## Distributions -/

/-- **A goal model's matrix is a distribution**: at positive rates there is mass to normalise. -/
theorem PoissonModel.totalMass_matrix (num : Numerics K) (m : PoissonModel K)
    {homeRate awayRate : K} (hhome : 0 < homeRate) (haway : 0 < awayRate) :
    totalMass resolution (m.matrix num homeRate awayRate) = 1 := by
  -- one scoreline the low-score correction does not touch, or the goalless one of the common counts
  obtain ⟨i, j, hcell, hpos⟩ : ∃ i j, (i, j) ∈ cells resolution ∧
      0 < m.rawMass num homeRate awayRate i j := by
    by_cases hfamily : m.family = .bivariatePoisson
    · refine ⟨0, 0, mem_cells.mpr ⟨Nat.zero_le _, Nat.zero_le _⟩, lt_max_of_lt_left ?_⟩
      have hshared : 0 ≤ min m.shared (min (homeRate * (4 / 10)) (awayRate * (4 / 10))) :=
        le_min m.shared_nonneg (le_min (by positivity) (by positivity))
      have hrate : ∀ x : K, 0 ≤ max x (1 / 10 ^ 9) := fun x => le_max_of_le_right (by positivity)
      have hmass : 0 < m.bivariate num homeRate awayRate 0 0 := by
        rw [bivariate, Nat.min_self, List.range_one, List.map_singleton, List.sum_singleton]
        exact mul_pos (mul_pos (num.pmf_zero_pos _ hshared) (num.pmf_zero_pos _ (hrate _)))
          (num.pmf_zero_pos _ (hrate _))
      have hplain : PoissonFamily.bivariatePoisson.isDixonColes = false := rfl
      rw [hfamily, if_pos rfl, hplain, if_neg Bool.false_ne_true]
      exact hmass
    · refine ⟨2, 2, mem_cells.mpr ⟨by decide, by decide⟩, lt_max_of_lt_left ?_⟩
      have hmass : 0 < independent num homeRate awayRate 2 2 :=
        mul_pos (num.pmf_pos _ _ hhome) (num.pmf_pos _ _ haway)
      rw [if_neg hfamily]
      split_ifs
      · have hone : m.correction homeRate awayRate 2 2 = 1 := rfl
        rw [hone, mul_one]
        exact hmass
      · exact hmass
  have htotal : 0 < totalMass resolution (m.rawMass num homeRate awayRate) := by
    refine hpos.trans_le (List.single_le_sum (fun x hx => ?_) _
      (List.mem_map.mpr ⟨(i, j), hcell, rfl⟩))
    obtain ⟨c, -, rfl⟩ := List.mem_map.mp hx
    exact m.rawMass_nonneg num homeRate awayRate c.1 c.2
  unfold matrix
  rw [totalMass_div, div_self htotal.ne']

/-! ## Complementarity -/

theorem normalise_denominator_pos (p : Outcome → K) :
    0 < (Outcome.all.map fun o => max (p o) (1 / 10 ^ 12)).sum := by
  refine List.sum_pos _ (fun x hx => ?_) (by simp [Outcome.all])
  obtain ⟨o, -, rfl⟩ := List.mem_map.mp hx
  exact lt_max_of_lt_right (by positivity)

theorem normalise_pos (p : Outcome → K) (o : Outcome) : 0 < normalise p o :=
  div_pos (lt_max_of_lt_right (by positivity)) (normalise_denominator_pos p)

theorem normalise_sum (p : Outcome → K) :
    normalise p .home + normalise p .draw + normalise p .away = 1 := by
  have hpos := normalise_denominator_pos p
  unfold normalise
  rw [← add_div, ← add_div, div_eq_one_iff_eq hpos.ne']
  simp only [Outcome.all, List.map_cons, List.map_nil, List.sum_cons, List.sum_nil]
  ring

theorem VoiceModel.predict_exchanged (num : Numerics K) (model : VoiceModel K)
    (home away : String) (o : Outcome) :
    model.predict num away home true o = model.predict num home away true (exchanged o) := by
  cases model with
  | elo m => exact m.predict_exchanged num home away o
  | poisson m =>
      show m.prediction num (m.rates num away home true) o = _
      rw [m.rates_exchanged]
      exact m.prediction_exchanged num _ o

/-- **Beyond a draw the chances are complementary**, on both branches. -/
theorem VoiceModel.beyond90_exchanged (num : Numerics K) (model : VoiceModel K)
    (home away : String) : (0 ≤ model.beyond90 num home away ∧ model.beyond90 num home away ≤ 1) ∧
      model.beyond90 num away home = 1 - model.beyond90 num home away := by
  cases model with
  | elo m =>
      have hexchanged := m.predict_exchanged num home away
      have hpos : ∀ o, 0 < m.predict num home away true o := normalise_pos _
      have htotal : 0 < m.predict num home away true .home + m.predict num home away true .away :=
        add_pos (hpos _) (hpos _)
      simp only [beyond90, normalisePair, hexchanged, exchanged]
      rw [if_neg (not_le.mpr htotal), add_comm (m.predict num home away true .away),
        if_neg (not_le.mpr htotal)]
      refine ⟨⟨(div_pos (hpos _) htotal).le, (div_le_one htotal).mpr ?_⟩, ?_⟩
      · exact le_add_of_nonneg_right (hpos _).le
      · rw [eq_sub_iff_add_eq, ← add_div, add_comm, div_self htotal.ne']
  | poisson m =>
      have hexchanged : ∀ o, m.predictDuration num away home true (1 / 3) o =
          m.predictDuration num home away true (1 / 3) (exchanged o) := fun o => by
        unfold PoissonModel.predictDuration
        rw [m.rates_exchanged]
        exact m.prediction_exchanged num (_, _) o
      obtain ⟨p, hp⟩ : ∃ p, m.predictDuration num home away true (1 / 3) = normalise p :=
        ⟨_, rfl⟩
      have hpos : ∀ o, 0 < m.predictDuration num home away true (1 / 3) o :=
        hp ▸ normalise_pos p
      have hsum : m.predictDuration num home away true (1 / 3) .home +
          m.predictDuration num home away true (1 / 3) .draw +
          m.predictDuration num home away true (1 / 3) .away = 1 := hp ▸ normalise_sum p
      simp only [beyond90, hexchanged, exchanged]
      have hh := hpos .home
      have hd := hpos .draw
      have ha := hpos .away
      refine ⟨⟨by positivity, by linarith⟩, by linarith⟩

/-- **On neutral ground exactly one of two teams advances**: the probabilities sum to one whichever
is named first, for the ratings model and for every goal family. -/
theorem VoiceModel.advance_complementary (num : Numerics K) (model : VoiceModel K)
    (home away : String) :
    knockoutAdvanceProbability num model home away +
      knockoutAdvanceProbability num model away home = 1 := by
  obtain ⟨p, hp⟩ := model.exists_predict num home away
  obtain ⟨⟨hlow, hhigh⟩, hbeyond⟩ := model.beyond90_exchanged num home away
  have hexchanged := model.predict_exchanged num home away
  have hpos : ∀ o, 0 < model.predict num home away true o := hp ▸ normalise_pos p
  have hsum : model.predict num home away true .home + model.predict num home away true .draw +
      model.predict num home away true .away = 1 := hp ▸ normalise_sum p
  have hh := hpos .home
  have hd := hpos .draw
  have ha := hpos .away
  have hless : model.predict num home away true .draw * model.beyond90 num home away ≤
      model.predict num home away true .draw := mul_le_of_le_one_right hd.le hhigh
  have hnonneg : 0 ≤ model.predict num home away true .draw * model.beyond90 num home away :=
    mul_nonneg hd.le hlow
  simp only [knockoutAdvanceProbability, hexchanged, exchanged, hbeyond, mul_sub, mul_one]
  rw [max_eq_right (by linarith), max_eq_right (by linarith), min_eq_right (by linarith),
    min_eq_right (by linarith)]
  linarith

end Exchange

end Golavo.Outlook
