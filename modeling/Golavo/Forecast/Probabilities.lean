import Golavo.Forecast.ScoreMatrix

/-! # Canonical probabilities

A published triple has six decimals and sums to exactly one: every entry is rounded and the **drift**
that leaves goes on the largest. The result stays within `[0, 1]`, is close to the original and is its
own canonical form. -/

namespace Golavo.Forecast

open Golavo.Lib (Decimal)

/-! ## Rounding with drift correction -/

/-- The decimals a written probability has. -/
def probPlaces : Nat := 6

/-- The outcome of the largest entry, the first of equal ones. -/
def largest (t : Triple) : Outcome :=
  if t.draw ≤ t.home ∧ t.away ≤ t.home then .home else if t.away ≤ t.draw then .draw else .away

/-- Replace one entry of a triple. -/
def replace (t : Triple) (o : Outcome) (value : Decimal) : Triple :=
  match o with
  | .home => { t with home := value }
  | .draw => { t with draw := value }
  | .away => { t with away := value }

/-- The sum of a triple. -/
def tripleSum (t : Triple) : Decimal := t.home + t.draw + t.away

/-- Round every entry to six decimals. -/
def roundTriple (t : Triple) : Triple :=
  ⟨t.home.round probPlaces, t.draw.round probPlaces, t.away.round probPlaces⟩

/-- Round to six decimals and put the drift on the largest entry. -/
def canonicalProbs (t : Triple) : Triple :=
  let rounded := roundTriple t
  let drift := (1 - tripleSum rounded).round probPlaces
  let o := largest rounded
  replace rounded o ((rounded.at o + drift).round probPlaces)

@[simp] theorem at_replace_self (t : Triple) (o : Outcome) (value : Decimal) :
    (replace t o value).at o = value := by
  cases o <;> rfl

theorem at_replace_ne {o other : Outcome} (h : other ≠ o) (t : Triple) (value : Decimal) :
    (replace t o value).at other = t.at other := by
  cases o <;> cases other <;> first | rfl | exact absurd rfl h

@[simp] theorem replace_at (t : Triple) (o : Outcome) : replace t o (t.at o) = t := by
  cases o <;> rfl

theorem tripleSum_replace (t : Triple) (o : Outcome) (value : Decimal) :
    (tripleSum (replace t o value)).toRat =
      (tripleSum t).toRat + (value.toRat - (t.at o).toRat) := by
  cases o <;> simp only [tripleSum, replace, Triple.at, Decimal.toRat_add] <;> ring

theorem at_roundTriple (t : Triple) (o : Outcome) :
    (roundTriple t).at o = (t.at o).round probPlaces := by
  cases o <;> rfl

theorem triple_ext {s t : Triple} (h : ∀ o, s.at o = t.at o) : s = t := by
  cases s
  cases t
  have hhome := h .home
  have hdraw := h .draw
  have haway := h .away
  simp only [Triple.at] at hhome hdraw haway
  rw [hhome, hdraw, haway]

/-- Every entry of a rounded triple has six places, and so do its sum and its drift. -/
theorem hasPlaces_roundTriple (t : Triple) (o : Outcome) :
    ((roundTriple t).at o).HasPlaces probPlaces := by
  rw [at_roundTriple]
  exact Decimal.hasPlaces_round _ _

theorem hasPlaces_drift (t : Triple) :
    ((1 : Decimal) - tripleSum (roundTriple t)).HasPlaces probPlaces :=
  (Decimal.hasPlaces_one _).sub
    (((hasPlaces_roundTriple t .home).add (hasPlaces_roundTriple t .draw)).add
      (hasPlaces_roundTriple t .away))

/-- The two later roundings change nothing: drift and corrected entry have six places already. -/
theorem canonicalProbs_eq (t : Triple) :
    canonicalProbs t = replace (roundTriple t) (largest (roundTriple t))
      ((roundTriple t).at (largest (roundTriple t)) + (1 - tripleSum (roundTriple t))) := by
  rw [canonicalProbs, (hasPlaces_drift t).round_eq,
    ((hasPlaces_roundTriple t _).add (hasPlaces_drift t)).round_eq]

/-- **The written triple sums to exactly one.** -/
theorem canonicalProbs_sum (t : Triple) : (tripleSum (canonicalProbs t)).toRat = 1 := by
  rw [canonicalProbs_eq, tripleSum_replace, Decimal.toRat_add, Decimal.toRat_sub,
    Decimal.toRat_one]
  ring

theorem hasPlaces_canonicalProbs (t : Triple) (o : Outcome) :
    ((canonicalProbs t).at o).HasPlaces probPlaces := by
  rw [canonicalProbs_eq]
  by_cases h : o = largest (roundTriple t)
  · subst h
    rw [at_replace_self]
    exact (hasPlaces_roundTriple t _).add (hasPlaces_drift t)
  · rw [at_replace_ne h]
    exact hasPlaces_roundTriple t o

/-- A triple of six places that sums to one is its own canonical form. -/
theorem canonicalProbs_of_fixed {t : Triple} (hplaces : ∀ o, (t.at o).HasPlaces probPlaces)
    (hsum : (tripleSum t).toRat = 1) : canonicalProbs t = t := by
  have hround : roundTriple t = t := triple_ext fun o => by
    rw [at_roundTriple, (hplaces o).round_eq]
  have hdrift : (1 : Decimal) - tripleSum t = 0 := Decimal.toRat_injective (by simp [hsum])
  rw [canonicalProbs_eq, hround, hdrift, add_zero, replace_at]

/-- **Canonicalising twice is canonicalising once**, for any triple at all. -/
@[simp] theorem canonicalProbs_idem (t : Triple) :
    canonicalProbs (canonicalProbs t) = canonicalProbs t :=
  canonicalProbs_of_fixed (hasPlaces_canonicalProbs t) (canonicalProbs_sum t)

/-! ## Distributions -/

/-- A nonnegative triple that sums to one. -/
structure Distribution (t : Triple) : Prop where
  nonneg : ∀ o, 0 ≤ (t.at o).toRat
  sum_one : (tripleSum t).toRat = 1

namespace Distribution

variable {t : Triple}

theorem le_one (h : Distribution t) (o : Outcome) : (t.at o).toRat ≤ 1 := by
  have hsum := h.sum_one
  have hhome := h.nonneg .home
  have hdraw := h.nonneg .draw
  have haway := h.nonneg .away
  simp only [tripleSum, Decimal.toRat_add, Triple.at] at hsum hhome hdraw haway
  cases o <;> simp only [Triple.at] <;> linarith

theorem mem_unit (h : Distribution t) (o : Outcome) : 0 ≤ (t.at o).toRat ∧ (t.at o).toRat ≤ 1 :=
  ⟨h.nonneg o, h.le_one o⟩

/-- Rounding a distribution loses or gains at most a unit and a half of the last place. -/
theorem abs_drift_le (h : Distribution t) :
    |((1 : Decimal) - tripleSum (roundTriple t)).toRat| ≤ 3 / 2 / 10 ^ 6 := by
  have hhome := abs_le.mp (Decimal.abs_round_sub probPlaces t.home)
  have hdraw := abs_le.mp (Decimal.abs_round_sub probPlaces t.draw)
  have haway := abs_le.mp (Decimal.abs_round_sub probPlaces t.away)
  have hsum := h.sum_one
  simp only [probPlaces] at hhome hdraw haway
  simp only [tripleSum, roundTriple, Decimal.toRat_sub, Decimal.toRat_one, Decimal.toRat_add,
    probPlaces] at hsum ⊢
  rw [abs_le]
  constructor
  · linarith [hhome.2, hdraw.2, haway.2]
  · linarith [hhome.1, hdraw.1, haway.1]

/-- **The written triple is near the original.** -/
theorem abs_canonicalProbs_sub (h : Distribution t) (o : Outcome) :
    |((canonicalProbs t).at o).toRat - (t.at o).toRat| ≤ 2 / 10 ^ 6 := by
  have hround := abs_le.mp (Decimal.abs_round_sub probPlaces (t.at o))
  have hdrift := abs_le.mp h.abs_drift_le
  simp only [probPlaces] at hround
  rw [canonicalProbs_eq]
  by_cases ho : o = largest (roundTriple t)
  · rw [← ho, at_replace_self, Decimal.toRat_add, at_roundTriple, abs_le, probPlaces]
    constructor
    · linarith [hround.1, hdrift.1]
    · linarith [hround.2, hdrift.2]
  · rw [at_replace_ne ho, at_roundTriple, abs_le, probPlaces]
    constructor
    · linarith [hround.1]
    · linarith [hround.2]

/-- The largest entry is at least every other. -/
theorem le_largest (s : Triple) (o : Outcome) : (s.at o).toRat ≤ (s.at (largest s)).toRat := by
  have htotal : ∀ a b : Decimal, ¬ a ≤ b → b ≤ a := fun a b hab => by
    rw [Decimal.le_iff] at hab ⊢
    exact (not_le.mp hab).le
  unfold largest
  rw [← Decimal.le_iff]
  split_ifs with h1 h2
  · cases o
    · exact Decimal.le_iff.mpr le_rfl
    · exact h1.1
    · exact h1.2
  · cases o
    · by_cases hd : s.draw ≤ s.home
      · have ha : s.home ≤ s.away := htotal _ _ fun ha => h1 ⟨hd, ha⟩
        rw [Decimal.le_iff] at *
        exact ha.trans h2
      · exact htotal _ _ hd
    · exact Decimal.le_iff.mpr le_rfl
    · exact h2
  · have hda : s.draw ≤ s.away := htotal _ _ h2
    cases o
    · by_cases ha : s.away ≤ s.home
      · have hd : ¬ s.draw ≤ s.home := fun hd => h1 ⟨hd, ha⟩
        rw [Decimal.le_iff] at *
        exact (htotal _ _ (by rwa [Decimal.le_iff]) |> Decimal.le_iff.mp).trans hda
      · exact htotal _ _ ha
    · exact hda
    · exact Decimal.le_iff.mpr le_rfl

/-- **The written triple is a distribution**: every entry stays within `[0, 1]`. -/
theorem canonical (h : Distribution t) : Distribution (canonicalProbs t) where
  sum_one := canonicalProbs_sum t
  nonneg o := by
    rw [canonicalProbs_eq]
    by_cases ho : o = largest (roundTriple t)
    · -- the largest of three entries that nearly sum to one absorbs any drift
      have hdrift := abs_le.mp h.abs_drift_le
      have hhome := le_largest (roundTriple t) .home
      have hdraw := le_largest (roundTriple t) .draw
      have haway := le_largest (roundTriple t) .away
      rw [← ho, at_replace_self, Decimal.toRat_add]
      rw [← ho] at hhome hdraw haway
      have hsum : ((1 : Decimal) - tripleSum (roundTriple t)).toRat =
          1 - (((roundTriple t).at .home).toRat + ((roundTriple t).at .draw).toRat +
            ((roundTriple t).at .away).toRat) := by
        simp [tripleSum, Triple.at]
      linarith [hdrift.1, hdrift.2]
    · rw [at_replace_ne ho, at_roundTriple]
      exact Decimal.round_nonneg (h.nonneg o) _

end Distribution

/-- The outcomes of a joint matrix are a distribution. -/
theorem JointMatrix.distribution (m : JointMatrix) : Distribution m.outcomeProbabilities where
  nonneg o := by
    cases o
    · exact outcomeMass_nonneg m .home
    · exact outcomeMass_nonneg m .draw
    · exact outcomeMass_nonneg m .away
  sum_one := by
    simpa [tripleSum, JointMatrix.outcomeProbabilities, Decimal.toRat_add] using outcomeMass_total m

/-- The written probabilities of a joint matrix are near its own. -/
theorem JointMatrix.abs_outcomeMass_sub (m : JointMatrix) (o : Outcome) :
    |(m.outcomeMass o).toRat - ((canonicalProbs m.outcomeProbabilities).at o).toRat| ≤
      2 / 10 ^ 6 := by
  have hat : m.outcomeProbabilities.at o = m.outcomeMass o := by cases o <;> rfl
  rw [abs_sub_comm, ← hat]
  exact m.distribution.abs_canonicalProbs_sub o

/-- All mass on a goalless draw. -/
def goallessMatrix : JointMatrix where
  resolution := 7
  mass i j := if i = 0 ∧ j = 0 then 1 else 0
  displayed := by decide
  nonneg i j := by split_ifs <;> simp
  total := by decide +kernel

end Golavo.Forecast
