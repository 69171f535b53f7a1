import Golavo.Lib.Ranking
import Golavo.Outlook.Knockout
import Mathlib.Algebra.Order.Floor.Ring
import Mathlib.Analysis.Real.Sqrt
import Mathlib.Analysis.SpecialFunctions.Exp
import Mathlib.Data.Rat.Floor
import Mathlib.Tactic.Ring

/-! # Four-team brackets

Two semifinals, a final and a third-place match are enumerated exactly from the probability that the
team named first advances. What is returned is rounded to nine places. The main result: **before that
rounding the bracket is conserved**, and with complementary probabilities the order of its teams does
not matter (`bracket_conserved`). -/

namespace Golavo.Outlook

open Golavo.Lib.Ranking (rank rank_eq_of_perm)

/-! ## Enumeration -/

/-- What is reported of a team. -/
inductive Metric where
  | reachFinal
  | reachThirdPlaceMatch
  | champion
  | third
  deriving DecidableEq, Repr

/-- Why a bracket is refused. -/
inductive BracketError where
  | notDistinct
  | outOfRange
  deriving DecidableEq, Repr

section Definitions

variable {K : Type*} [Field K]

/-- The amounts the paths through a bracket add, in their order. -/
def pathEntries (advance : String → String → K) (one two : String × String) :
    List (String × Metric × K) :=
  let pOne := advance one.1 one.2
  let pTwo := advance two.1 two.2
  [(one.1, one.2, pOne), (one.2, one.1, 1 - pOne)].flatMap fun (finalistOne, thirdOne, pathOne) =>
    [(finalistOne, .reachFinal, pathOne), (thirdOne, .reachThirdPlaceMatch, pathOne)] ++
    [(two.1, two.2, pTwo), (two.2, two.1, 1 - pTwo)].flatMap fun (finalistTwo, thirdTwo, pathTwo) =>
      let path := pathOne * pathTwo
      let finalHome := advance finalistOne finalistTwo
      let thirdHome := advance thirdOne thirdTwo
      [(finalistOne, .champion, path * finalHome), (finalistTwo, .champion, path * (1 - finalHome)),
        (thirdOne, .third, path * thirdHome), (thirdTwo, .third, path * (1 - thirdHome))]

/-- What the paths add for a team. -/
def added (entries : List (String × Metric × K)) (team : String) (metric : Metric) : K :=
  ((entries.filter fun entry => entry.1 = team && entry.2.1 = metric).map (·.2.2)).sum

/-- The totals of a bracket: the second semifinal's reach is stamped after the enumeration. -/
def bracketTotals (advance : String → String → K) (one two : String × String) (team : String)
    (metric : Metric) : K :=
  let pTwo := advance two.1 two.2
  match metric with
  | .reachFinal =>
      if team = two.1 then pTwo else if team = two.2 then 1 - pTwo
      else added (pathEntries advance one two) team .reachFinal
  | .reachThirdPlaceMatch =>
      if team = two.1 then 1 - pTwo else if team = two.2 then pTwo
      else added (pathEntries advance one two) team .reachThirdPlaceMatch
  | metric => added (pathEntries advance one two) team metric

/-- The teams of a bracket. -/
def bracketTeams (one two : String × String) : List String := [one.1, one.2, two.1, two.2]

variable [LinearOrder K] [FloorRing K]

/-- The nearest whole number, a tie to the even one. -/
def halfEven (x : K) : Int :=
  if Int.fract x < 1 / (2 : ℕ) then ⌊x⌋
  else if 1 / (2 : ℕ) < Int.fract x then ⌊x⌋ + 1
  else if ⌊x⌋ % 2 = 0 then ⌊x⌋ else ⌊x⌋ + 1

/-- Round to nine places. -/
def roundNine (x : K) : K := halfEven (x * (10 : ℕ) ^ 9) / (10 : ℕ) ^ 9

/-- The rows of a bracket: the totals rounded, the likeliest champion first. -/
def bracketRows (advance : String → String → K) (one two : String × String) :
    List (String × (Metric → K)) :=
  let rounded := fun team metric => roundNine (bracketTotals advance one two team metric)
  (rank [fun team => rounded team .champion] (bracketTeams one two)).map fun team =>
    (team, rounded team)

/-- Exactly enumerate a four-team bracket (`enumerate_four_team_bracket`). -/
def enumerateFourTeamBracket (advance : String → String → K) (one two : String × String) :
    Except BracketError (List (String × (Metric → K))) :=
  if (bracketTeams one two).dedup.length ≠ 4 then .error .notDistinct
  else if ¬ ((0 ≤ advance one.1 one.2 ∧ advance one.1 one.2 ≤ 1) ∧
    0 ≤ advance two.1 two.2 ∧ advance two.1 two.2 ≤ 1) then .error .outOfRange
  else .ok (bracketRows advance one two)

/-- What the totals of a bracket owe: one champion and one third, two finalists and two in the
third-place match, each team in one of the two and never likelier to win a match than to reach it. -/
structure Conserved (teams : List String) (totals : String → Metric → K) : Prop where
  champion : (teams.map fun team => totals team .champion).sum = 1
  third : (teams.map fun team => totals team .third).sum = 1
  reachFinal : (teams.map fun team => totals team .reachFinal).sum = 2
  reachThird : (teams.map fun team => totals team .reachThirdPlaceMatch).sum = 2
  reach : ∀ team ∈ teams, totals team .reachFinal + totals team .reachThirdPlaceMatch = 1
  champion_le : ∀ team ∈ teams, totals team .champion ≤ totals team .reachFinal
  third_le : ∀ team ∈ teams, totals team .third ≤ totals team .reachThirdPlaceMatch

end Definitions

/-! ## Totals -/

section Totals

variable {K : Type*} [Field K] {advance : String → String → K} {a b c d : String}

/-- Four distinct teams. -/
def Distinct (a b c d : String) : Prop :=
  a ≠ b ∧ a ≠ c ∧ a ≠ d ∧ b ≠ c ∧ b ≠ d ∧ c ≠ d

/-- **The reach of every team**, of the first semifinal along the paths and of the second as
stamped. -/
theorem reach_eq (h : Distinct a b c d) :
    bracketTotals advance (a, b) (c, d) a .reachFinal = advance a b ∧
    bracketTotals advance (a, b) (c, d) b .reachFinal = 1 - advance a b ∧
    bracketTotals advance (a, b) (c, d) c .reachFinal = advance c d ∧
    bracketTotals advance (a, b) (c, d) d .reachFinal = 1 - advance c d ∧
    bracketTotals advance (a, b) (c, d) a .reachThirdPlaceMatch = 1 - advance a b ∧
    bracketTotals advance (a, b) (c, d) b .reachThirdPlaceMatch = advance a b ∧
    bracketTotals advance (a, b) (c, d) c .reachThirdPlaceMatch = 1 - advance c d ∧
    bracketTotals advance (a, b) (c, d) d .reachThirdPlaceMatch = advance c d := by
  obtain ⟨hab, hac, had, hbc, hbd, hcd⟩ := h
  simp [bracketTotals, added, pathEntries, hab, hac, had, hbc, hbd, hab.symm, hcd.symm]

/-- **The chances of every team to be champion**: to reach the final and to win it against either
opponent. -/
theorem champion_eq (h : Distinct a b c d) :
    bracketTotals advance (a, b) (c, d) a .champion =
      advance a b * (advance c d * advance a c + (1 - advance c d) * advance a d) ∧
    bracketTotals advance (a, b) (c, d) b .champion =
      (1 - advance a b) * (advance c d * advance b c + (1 - advance c d) * advance b d) ∧
    bracketTotals advance (a, b) (c, d) c .champion =
      advance c d * (advance a b * (1 - advance a c) + (1 - advance a b) * (1 - advance b c)) ∧
    bracketTotals advance (a, b) (c, d) d .champion = (1 - advance c d) *
      (advance a b * (1 - advance a d) + (1 - advance a b) * (1 - advance b d)) := by
  obtain ⟨hab, hac, had, hbc, hbd, hcd⟩ := h
  refine ⟨?_, ?_, ?_, ?_⟩ <;>
    simp [bracketTotals, added, pathEntries, hab, hac, had, hbc, hbd, hcd, hab.symm, hac.symm,
      had.symm, hbc.symm, hbd.symm, hcd.symm] <;> ring

/-- The chances of every team to be third, the same way around the semifinals' losers. -/
theorem third_eq (h : Distinct a b c d) :
    bracketTotals advance (a, b) (c, d) a .third =
      (1 - advance a b) * ((1 - advance c d) * advance a c + advance c d * advance a d) ∧
    bracketTotals advance (a, b) (c, d) b .third =
      advance a b * ((1 - advance c d) * advance b c + advance c d * advance b d) ∧
    bracketTotals advance (a, b) (c, d) c .third = (1 - advance c d) *
      ((1 - advance a b) * (1 - advance a c) + advance a b * (1 - advance b c)) ∧
    bracketTotals advance (a, b) (c, d) d .third =
      advance c d * ((1 - advance a b) * (1 - advance a d) + advance a b * (1 - advance b d)) := by
  obtain ⟨hab, hac, had, hbc, hbd, hcd⟩ := h
  refine ⟨?_, ?_, ?_, ?_⟩ <;>
    simp [bracketTotals, added, pathEntries, hab, hac, had, hbc, hbd, hcd, hab.symm, hac.symm,
      had.symm, hbc.symm, hbd.symm, hcd.symm] <;> ring

/-- Nothing is added for any other team. -/
theorem bracketTotals_other {one two : String × String} {team : String}
    (h : team ∉ bracketTeams one two) (metric : Metric) :
    bracketTotals advance one two team metric = 0 := by
  simp only [bracketTeams, List.mem_cons, List.not_mem_nil, or_false, not_or] at h
  obtain ⟨h1, h2, h3, h4⟩ := h
  cases metric <;>
    simp [bracketTotals, added, pathEntries, h3, h4, Ne.symm h1, Ne.symm h2, Ne.symm h3, Ne.symm h4]

/-- Brackets of the same teams agree once they agree on these. -/
theorem bracketTotals_ext {one two one' two' : String × String}
    (hteams : ∀ team, team ∈ bracketTeams one' two' ↔ team ∈ bracketTeams one two)
    (h : ∀ team ∈ bracketTeams one two, ∀ metric,
      bracketTotals advance one' two' team metric = bracketTotals advance one two team metric) :
    bracketTotals advance one' two' = bracketTotals advance one two := by
  funext team metric
  by_cases hmem : team ∈ bracketTeams one two
  · exact h team hmem metric
  · rw [bracketTotals_other hmem, bracketTotals_other fun hmem' => hmem ((hteams team).mp hmem')]

theorem perm_swap (a b c d : String) :
    (bracketTeams (c, d) (a, b)).Perm (bracketTeams (a, b) (c, d)) :=
  @List.perm_append_comm _ [c, d] [a, b]

theorem perm_flip (a b c d : String) :
    (bracketTeams (b, a) (c, d)).Perm (bracketTeams (a, b) (c, d)) := List.Perm.swap _ _ _

/-- **With complementary chances the semifinals may be listed either way.** -/
theorem bracketTotals_swap (h : Distinct a b c d)
    (hcomplementary : ∀ x y, x ≠ y → advance x y + advance y x = 1) :
    bracketTotals advance (c, d) (a, b) = bracketTotals advance (a, b) (c, d) := by
  have hother : Distinct c d a b := by
    obtain ⟨hab, hac, had, hbc, hbd, hcd⟩ := h
    exact ⟨hcd, hac.symm, hbc.symm, had.symm, hbd.symm, hab⟩
  have hca : advance c a = 1 - advance a c := eq_sub_of_add_eq (hcomplementary c a hother.2.1)
  have hcb : advance c b = 1 - advance b c := eq_sub_of_add_eq (hcomplementary c b hother.2.2.1)
  have hda : advance d a = 1 - advance a d := eq_sub_of_add_eq (hcomplementary d a hother.2.2.2.1)
  have hdb : advance d b = 1 - advance b d := eq_sub_of_add_eq (hcomplementary d b hother.2.2.2.2.1)
  obtain ⟨ra, rb, rc, rd, ta, tb, tc, td⟩ := @reach_eq K _ advance a b c d h
  obtain ⟨ra', rb', rc', rd', ta', tb', tc', td'⟩ := @reach_eq K _ advance c d a b hother
  obtain ⟨ca, cb, cc, cd⟩ := @champion_eq K _ advance a b c d h
  obtain ⟨ca', cb', cc', cd'⟩ := @champion_eq K _ advance c d a b hother
  obtain ⟨sa, sb, sc, sd⟩ := @third_eq K _ advance a b c d h
  obtain ⟨sa', sb', sc', sd'⟩ := @third_eq K _ advance c d a b hother
  refine bracketTotals_ext (fun _ => (perm_swap a b c d).mem_iff) fun team hmem metric => ?_
  simp only [bracketTeams, List.mem_cons, List.not_mem_nil, or_false] at hmem
  rcases hmem with rfl | rfl | rfl | rfl <;> cases metric
  all_goals simp only [ra, rb, rc, rd, ta, tb, tc, td, ra', rb', rc', rd', ta', tb', tc', td', ca,
    cb, cc, cd, ca', cb', cc', cd', sa, sb, sc, sd, sa', sb', sc', sd', hca, hcb, hda, hdb]
  all_goals ring

/-- With complementary chances either team of a semifinal may be named first. -/
theorem bracketTotals_flip (h : Distinct a b c d)
    (hcomplementary : ∀ x y, x ≠ y → advance x y + advance y x = 1) :
    bracketTotals advance (b, a) (c, d) = bracketTotals advance (a, b) (c, d) := by
  have hother : Distinct b a c d := by
    obtain ⟨hab, hac, had, hbc, hbd, hcd⟩ := h
    exact ⟨hab.symm, hbc, hbd, hac, had, hcd⟩
  have hba : advance b a = 1 - advance a b := eq_sub_of_add_eq (hcomplementary b a hother.1)
  obtain ⟨ra, rb, rc, rd, ta, tb, tc, td⟩ := @reach_eq K _ advance a b c d h
  obtain ⟨ra', rb', rc', rd', ta', tb', tc', td'⟩ := @reach_eq K _ advance b a c d hother
  obtain ⟨ca, cb, cc, cd⟩ := @champion_eq K _ advance a b c d h
  obtain ⟨ca', cb', cc', cd'⟩ := @champion_eq K _ advance b a c d hother
  obtain ⟨sa, sb, sc, sd⟩ := @third_eq K _ advance a b c d h
  obtain ⟨sa', sb', sc', sd'⟩ := @third_eq K _ advance b a c d hother
  refine bracketTotals_ext (fun _ => (perm_flip a b c d).mem_iff) fun team hmem metric => ?_
  simp only [bracketTeams, List.mem_cons, List.not_mem_nil, or_false] at hmem
  rcases hmem with rfl | rfl | rfl | rfl <;> cases metric
  all_goals simp only [ra, rb, rc, rd, ta, tb, tc, td, ra', rb', rc', rd', ta', tb', tc', td', ca,
    cb, cc, cd, ca', cb', cc', cd', sa, sb, sc, sd, sa', sb', sc', sd', hba]
  all_goals ring

end Totals

/-! ## Conservation -/

section Conservation

variable {K : Type*} [Field K] [LinearOrder K] {advance : String → String → K} {a b c d : String}

/-- A mean of two chances is at most one. -/
theorem mean_le_one [IsStrictOrderedRing K] {p x y : K} (hp : 0 ≤ p ∧ p ≤ 1) (hx : x ≤ 1)
    (hy : y ≤ 1) : p * x + (1 - p) * y ≤ 1 := by
  have hpx : p * x ≤ p := mul_le_of_le_one_right hp.1 hx
  have hpy : (1 - p) * y ≤ 1 - p := mul_le_of_le_one_right (by linarith) hy
  linarith

/-- **The totals of a bracket are conserved.** -/
theorem conserved_bracketTotals [IsStrictOrderedRing K] (h : Distinct a b c d)
    (hadvance : ∀ x y, 0 ≤ advance x y ∧ advance x y ≤ 1) :
    Conserved (bracketTeams (a, b) (c, d)) (bracketTotals advance (a, b) (c, d)) := by
  obtain ⟨ra, rb, rc, rd, ta, tb, tc, td⟩ := @reach_eq K _ advance a b c d h
  obtain ⟨ca, cb, cc, cd⟩ := @champion_eq K _ advance a b c d h
  obtain ⟨sa, sb, sc, sd⟩ := @third_eq K _ advance a b c d h
  have hp := hadvance a b
  have hq := hadvance c d
  have hp' : 0 ≤ 1 - advance a b ∧ 1 - advance a b ≤ 1 := ⟨by linarith, by linarith⟩
  have hq' : 0 ≤ 1 - advance c d ∧ 1 - advance c d ≤ 1 := ⟨by linarith, by linarith⟩
  have hone : ∀ x y, advance x y ≤ 1 := fun x y => (hadvance x y).2
  have hless : ∀ x y, 1 - advance x y ≤ 1 := fun x y => by linarith [(hadvance x y).1]
  -- the chances of the first semifinal's loser are the means over the second's, the other way round
  have hflip : ∀ p x y : K, (1 - p) * x + p * y = p * y + (1 - p) * x := fun p x y => add_comm _ _
  constructor
  · simp only [bracketTeams, List.map_cons, List.map_nil, List.sum_cons, List.sum_nil, ca, cb, cc, cd]
    ring
  · simp only [bracketTeams, List.map_cons, List.map_nil, List.sum_cons, List.sum_nil, sa, sb, sc, sd]
    ring
  · simp only [bracketTeams, List.map_cons, List.map_nil, List.sum_cons, List.sum_nil, ra, rb, rc, rd]
    ring
  · simp only [bracketTeams, List.map_cons, List.map_nil, List.sum_cons, List.sum_nil, ta, tb, tc, td]
    ring
  · simp only [bracketTeams, List.forall_mem_cons, ra, rb, rc, rd, ta, tb, tc, td]
    exact ⟨by ring, by ring, by ring, by ring, fun _ h => absurd h List.not_mem_nil⟩
  · simp only [bracketTeams, List.forall_mem_cons, ra, rb, rc, rd, ca, cb, cc, cd]
    exact ⟨mul_le_of_le_one_right hp.1 (mean_le_one hq (hone _ _) (hone _ _)),
      mul_le_of_le_one_right hp'.1 (mean_le_one hq (hone _ _) (hone _ _)),
      mul_le_of_le_one_right hq.1 (mean_le_one hp (hless _ _) (hless _ _)),
      mul_le_of_le_one_right hq'.1 (mean_le_one hp (hless _ _) (hless _ _)),
      fun _ h => absurd h List.not_mem_nil⟩
  · simp only [bracketTeams, List.forall_mem_cons, ta, tb, tc, td, sa, sb, sc, sd, hflip]
    exact ⟨mul_le_of_le_one_right hp'.1 (mean_le_one hq (hone _ _) (hone _ _)),
      mul_le_of_le_one_right hp.1 (mean_le_one hq (hone _ _) (hone _ _)),
      mul_le_of_le_one_right hq'.1 (mean_le_one hp (hless _ _) (hless _ _)),
      mul_le_of_le_one_right hq.1 (mean_le_one hp (hless _ _) (hless _ _)),
      fun _ h => absurd h List.not_mem_nil⟩

variable [FloorRing K]

/-- Brackets with the same totals and teams have the same rows. -/
theorem bracketRows_congr {one two one' two' : String × String}
    (hteams : (bracketTeams one' two').Perm (bracketTeams one two))
    (h : bracketTotals advance one' two' = bracketTotals advance one two) :
    bracketRows advance one' two' = bracketRows advance one two := by
  unfold bracketRows
  rw [h]
  dsimp only
  rw [rank_eq_of_perm _ hteams]

/-- A bracket of distinct teams with chances between zero and one is enumerated. -/
theorem enumerate_eq (h : Distinct a b c d)
    (hadvance : ∀ x y, 0 ≤ advance x y ∧ advance x y ≤ 1) :
    enumerateFourTeamBracket advance (a, b) (c, d) = .ok (bracketRows advance (a, b) (c, d)) := by
  have hnodup : (bracketTeams (a, b) (c, d)).Nodup := by
    obtain ⟨hab, hac, had, hbc, hbd, hcd⟩ := h
    simp [bracketTeams, hab, hac, had, hbc, hbd, hcd]
  have hlength : (bracketTeams (a, b) (c, d)).length = 4 := rfl
  rw [enumerateFourTeamBracket, hnodup.dedup, hlength, if_neg (not_not.mpr rfl),
    if_neg (not_not.mpr ⟨hadvance _ _, hadvance _ _⟩)]

end Conservation

/-- **Brackets are conserved**: for any four teams and any chances between zero and one the rows are
the rounded totals of a conserved bracket, which with complementary chances does not depend on how the
semifinals and the pairs are listed; and the chances of every fitted voice are complementary. -/
theorem bracket_conserved {K : Type*} [Field K] [LinearOrder K] [IsStrictOrderedRing K]
    [FloorRing K] (num : Numerics K) :
    (∀ (a b c d : String) (advance : String → String → K), Distinct a b c d →
      (∀ x y, 0 ≤ advance x y ∧ advance x y ≤ 1) →
      enumerateFourTeamBracket advance (a, b) (c, d) = .ok (bracketRows advance (a, b) (c, d)) ∧
      Conserved (bracketTeams (a, b) (c, d)) (bracketTotals advance (a, b) (c, d)) ∧
      ((∀ x y, x ≠ y → advance x y + advance y x = 1) →
        (bracketTotals advance (c, d) (a, b) = bracketTotals advance (a, b) (c, d) ∧
          bracketTotals advance (b, a) (c, d) = bracketTotals advance (a, b) (c, d) ∧
          bracketTotals advance (a, b) (d, c) = bracketTotals advance (a, b) (c, d)) ∧
        bracketRows advance (c, d) (a, b) = bracketRows advance (a, b) (c, d) ∧
        bracketRows advance (b, a) (c, d) = bracketRows advance (a, b) (c, d) ∧
        bracketRows advance (a, b) (d, c) = bracketRows advance (a, b) (c, d))) ∧
    ∀ (model : VoiceModel K) (home away : String),
      knockoutAdvanceProbability num model home away +
        knockoutAdvanceProbability num model away home = 1 := by
  refine ⟨fun a b c d advance hdistinct hadvance => ⟨enumerate_eq hdistinct hadvance,
    conserved_bracketTotals hdistinct hadvance, fun hcomplementary => ?_⟩,
    fun model => model.advance_complementary num⟩
  have hswap := bracketTotals_swap hdistinct hcomplementary
  have hflip := bracketTotals_flip hdistinct hcomplementary
  -- the second pair is flipped by swapping, flipping and swapping back
  obtain ⟨hab, hac, had, hbc, hbd, hcd⟩ := hdistinct
  have hswapped : Distinct c d a b := ⟨hcd, hac.symm, hbc.symm, had.symm, hbd.symm, hab⟩
  have hflipped : Distinct d c a b := ⟨hcd.symm, had.symm, hbd.symm, hac.symm, hbc.symm, hab⟩
  have hsecond : bracketTotals advance (a, b) (d, c) = bracketTotals advance (a, b) (c, d) :=
    (bracketTotals_swap hflipped hcomplementary).trans
      ((bracketTotals_flip hswapped hcomplementary).trans hswap)
  have hperm : (bracketTeams (a, b) (d, c)).Perm (bracketTeams (a, b) (c, d)) :=
    (perm_swap d c a b).trans ((perm_flip c d a b).trans (perm_swap a b c d))
  exact ⟨⟨hswap, hflip, hsecond⟩, bracketRows_congr (perm_swap a b c d) hswap,
    bracketRows_congr (perm_flip a b c d) hflip, bracketRows_congr hperm hsecond⟩

/-- Thirds: the rounded chances of the champions do not sum to one. -/
def thirds (x y : String) : ℚ :=
  if x = "A" ∧ y = "B" then 1 else if x = "C" ∧ y = "D" then 1 / 2 else 1 / 3

theorem bracket_rounded : (∀ x y, 0 ≤ thirds x y ∧ thirds x y ≤ 1) ∧
    ∃ rows, enumerateFourTeamBracket thirds ("A", "B") ("C", "D") = .ok rows ∧
      (rows.map fun row => row.2 .champion).sum = 999999999 / 1000000000 := by
  have hbounds : ∀ x y, 0 ≤ thirds x y ∧ thirds x y ≤ 1 := fun x y => by
    unfold thirds
    split_ifs <;> norm_num
  refine ⟨hbounds, bracketRows thirds ("A", "B") ("C", "D"), enumerate_eq ?_ hbounds, ?_⟩
  · unfold Distinct
    decide
  · decide +kernel

/-- The real functions. -/
noncomputable def realNumerics : Numerics ℝ where
  exp := Real.exp
  sqrt := Real.sqrt
  pmf k rate := Real.exp (-rate) * rate ^ k / k.factorial
  exp_pos := Real.exp_pos
  exp_neg := Real.exp_neg
  pmf_pos k rate h := by positivity
  pmf_zero_pos rate _ := by positivity

/-- A Dixon-Coles fit that knows no team. -/
noncomputable def plainFit : PoissonModel ℝ where
  family := .dixonColes
  rho := (-8 / 100 : ℚ)
  baseHome := (14 / 10 : ℚ)
  baseAway := (11 / 10 : ℚ)
  attack _ := none
  defence _ := none
  shared := (8 / 100 : ℚ)
  shared_nonneg := by norm_num
  homeAttackEdge _ := none
  homeDefenceEdge _ := none
  normalRestEdge := none

theorem bracket_conserved_real :
    knockoutAdvanceProbability realNumerics (.poisson plainFit) "A" "B" +
        knockoutAdvanceProbability realNumerics (.poisson plainFit) "B" "A" = 1 ∧
      Conserved ["A", "B", "C", "D"]
        (bracketTotals (fun _ _ => (1 / 2 : ℝ)) ("A", "B") ("C", "D")) := by
  obtain ⟨hbracket, hvoice⟩ := bracket_conserved realNumerics
  refine ⟨hvoice (.poisson plainFit) "A" "B",
    (hbracket "A" "B" "C" "D" (fun _ _ => 1 / 2) ?_ ?_).2.1⟩
  · unfold Distinct
    decide
  · exact fun _ _ => ⟨by norm_num, by norm_num⟩

end Golavo.Outlook
