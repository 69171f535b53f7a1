import Golavo.Lib.Ranking
import Golavo.Outlook.Schedule

/-! # The order of a league table

`standings_table` ranks the clubs of a table by their league's rule. A rule **declares** its criteria
in order, head to head among them: the points, goal difference and goals among exactly the clubs still
level there, once they have all met. The main result: a rule that compares head to head on points is
ranked as declared, the others exactly when no club level with another before head to head is ahead
of it there and behind it in the alphabet (`standings_respect_iff`). -/

namespace Golavo.Outlook

open Golavo.Lib.Ranking (Level Ahead Precedes rank perm_rank pairwise_rank ahead_append
  ahead_trichotomy pairwise_not_ahead_iff)

/-! ## Ranking -/

/-- Goals for less goals against. -/
def Tally.goalDifference (t : Tally) : Int := t.goalsFor - t.goalsAgainst

/-- What the overall key reads for a criterion after the first: nothing for points and head to
head. -/
def keyCriterion (tallies : Tallies) : Criterion → List (String → Int)
  | .goalDifference => [fun team => (tallies team).goalDifference]
  | .goalsFor => [fun team => (tallies team).goalsFor]
  | .wins => [fun team => (tallies team).wins]
  | .points => []
  | .headToHead => []

/-- The overall key, before the name (`_overall_key`; negated there, so that more comes first). -/
def overallCriteria (rule : LeagueRule) (tallies : Tallies) : List (String → Int) :=
  (fun team => (tallies team).points) :: (rule.primary.drop 1).flatMap (keyCriterion tallies)

/-- The points, goal difference and goals of a table. -/
def headCriteria (mini : Tallies) : List (String → Int) :=
  [fun team => (mini team).points, fun team => (mini team).goalDifference,
    fun team => (mini team).goalsFor]

/-- The key inside a group level on points: its own table, then the whole one. -/
def groupCriteria (mini tallies : Tallies) : List (String → Int) :=
  headCriteria mini ++ [fun team => (tallies team).goalDifference,
    fun team => (tallies team).goalsFor, fun team => (tallies team).wins]

/-- The completed fixtures between clubs of a group. -/
def scopedFixtures (schedule : List Fixture) (group : List String) : List Fixture :=
  schedule.filter fun f => (recordedResult f).isSome && f.homeTeam.any (· ∈ group) &&
    f.awayTeam.any (· ∈ group)

/-- The table of a group's own fixtures (`_mini_table`). -/
def miniTable (schedule : List Fixture) (group : List String) : Tallies :=
  recordedTallies (scopedFixtures schedule group)

/-- Whether every club of a group has been at home to every other (`_head_to_head_complete`). -/
def headToHeadComplete (schedule : List Fixture) (group : List String) : Bool :=
  group.length < 2 ||
    ((scopedFixtures schedule group).map fun f =>
      (Fixture.nameText f.homeTeam, Fixture.nameText f.awayTeam)).dedup.length =
      group.length * (group.length - 1)

/-- The clubs on one number of points. -/
def pointsGroup (tallies : Tallies) (teams : List String) (points : Int) : List String :=
  teams.filter fun team => (tallies team).points = points

/-- Rank a group by its own table where that is `complete`, by the whole one elsewhere. -/
def rankGroup (complete : List String → Bool) (mini : List String → Tallies) (rule : LeagueRule)
    (tallies : Tallies) (group : List String) : List String :=
  if group.length = 1 || !complete group then rank (overallCriteria rule tallies) group
  else rank (groupCriteria (mini group) tallies) group

/-- The groups of a table, the most points first. -/
def pointsGroups (tallies : Tallies) (teams : List String) : List (List String) :=
  ((teams.map fun team => (tallies team).points).dedup.insertionSort (· ≥ ·)).map
    (pointsGroup tallies teams)

/-- Head to head as the first tie-break (`_rank_with_head_to_head`). -/
def rankWithHeadToHead (schedule : List Fixture) (rule : LeagueRule) (tallies : Tallies)
    (teams : List String) : List String :=
  (pointsGroups tallies teams).flatMap
    (rankGroup (headToHeadComplete schedule) (miniTable schedule) rule tallies)

/-- The clubs of a table: those asked for, and those of the completed results. -/
def tableTeams (schedule : List Fixture) (teams : List String) : List String :=
  (teams ++ (schedule.filter fun f => (recordedResult f).isSome).flatMap fun f =>
    [Fixture.nameText f.homeTeam, Fixture.nameText f.awayTeam]).dedup

/-- The tallies of a table: points are docked in a named season only. -/
def tableTallies (schedule : List Fixture) (competitionId : String) : Option String → Tallies
  | some season => standingsTable schedule competitionId season
  | none => recordedTallies schedule

/-- The clubs of a table in its order (`standings_table`). -/
def standingsOrder (rule : LeagueRule) (schedule : List Fixture) (season : Option String)
    (teams : List String) : List String :=
  let tallies := tableTallies schedule rule.competitionId season
  if rule.headToHeadOnPoints then
    rankWithHeadToHead schedule rule tallies (tableTeams schedule teams)
  else rank (overallCriteria rule tallies) (tableTeams schedule teams)

/-! ## What a rule declares -/

/-- A declared criterion but head to head. -/
def plainCriterion (tallies : Tallies) : Criterion → List (String → Int)
  | .points => [fun team => (tallies team).points]
  | .goalDifference => [fun team => (tallies team).goalDifference]
  | .goalsFor => [fun team => (tallies team).goalsFor]
  | .wins => [fun team => (tallies team).wins]
  | .headToHead => []

/-- The criteria declared before head to head. -/
def beforeHeadToHead (rule : LeagueRule) (tallies : Tallies) : List (String → Int) :=
  (rule.primary.takeWhile (· ≠ .headToHead)).flatMap (plainCriterion tallies)

/-- The clubs still level with a club when its rule comes to head to head. -/
def levelGroup (rule : LeagueRule) (tallies : Tallies) (teams : List String) (team : String) :
    List String :=
  teams.filter fun other => Level (beforeHeadToHead rule tallies) other team

/-- A club's head to head: its tally among the clubs still level with it, once they have all met. -/
def headToHead (rule : LeagueRule) (schedule : List Fixture) (tallies : Tallies)
    (teams : List String) (team : String) : Tally :=
  let group := levelGroup rule tallies teams team
  if headToHeadComplete schedule group then miniTable schedule group team else 0

/-- The criteria a rule declares, in their order. -/
def declaredCriteria (rule : LeagueRule) (schedule : List Fixture) (tallies : Tallies)
    (teams : List String) : List (String → Int) :=
  rule.primary.flatMap fun criterion =>
    if criterion = .headToHead then headCriteria (headToHead rule schedule tallies teams)
    else plainCriterion tallies criterion

/-- A table in an order that respects its rule: no club is ahead of an earlier one by the declared
criteria, and of two clubs level before head to head and told apart by it the better one there comes
first. -/
structure RespectsRule (rule : LeagueRule) (schedule : List Fixture) (tallies : Tallies)
    (teams order : List String) : Prop where
  sorted : order.Pairwise fun a b => ¬ Ahead (declaredCriteria rule schedule tallies teams) b a
  decisive : order.Pairwise fun a b => Level (beforeHeadToHead rule tallies) a b →
    ¬ Level (headCriteria (headToHead rule schedule tallies teams)) a b →
    Ahead (headCriteria (headToHead rule schedule tallies teams)) a b

/-- No club level with another before head to head is ahead of it there and behind it in the
alphabet. -/
def NamesFollow (rule : LeagueRule) (schedule : List Fixture) (tallies : Tallies)
    (teams : List String) : Prop :=
  ∀ a ∈ teams, ∀ b ∈ teams, a < b → Level (beforeHeadToHead rule tallies) a b →
    ¬ Ahead (headCriteria (headToHead rule schedule tallies teams)) b a

/-! ## Groups -/

section Groups

variable {complete : List String → Bool} {mini : List String → Tallies} {rule : LeagueRule}
  {tallies : Tallies} {teams : List String}

theorem perm_rankGroup (group : List String) :
    (rankGroup complete mini rule tallies group).Perm group := by
  unfold rankGroup
  split_ifs
  · exact perm_rank _ _
  · exact perm_rank _ _

theorem mem_pointsGroup {points : Int} {team : String} :
    team ∈ pointsGroup tallies teams points ↔ team ∈ teams ∧ (tallies team).points = points := by
  rw [pointsGroup, List.mem_filter, decide_eq_true_iff]

/-- What holds inside every group and of clubs with more points than the others holds of the whole
ranking. -/
theorem pairwise_groups {r : String → String → Prop} {f : List String → List String}
    (hf : ∀ group, (f group).Perm group)
    (hpoints : ∀ a ∈ teams, ∀ b ∈ teams, (tallies b).points < (tallies a).points → r a b)
    (hgroup : ∀ points, (f (pointsGroup tallies teams points)).Pairwise r) :
    ((pointsGroups tallies teams).flatMap f).Pairwise r := by
  rw [pointsGroups, List.flatMap_map, List.pairwise_flatMap]
  refine ⟨fun points _ => hgroup points, ?_⟩
  have hsorted := List.pairwise_insertionSort (· ≥ ·)
    (teams.map fun team => (tallies team).points).dedup
  have hnodup := ((List.perm_insertionSort (· ≥ ·) _).nodup_iff).mpr
    (List.nodup_dedup (teams.map fun team => (tallies team).points))
  refine (hsorted.and hnodup).imp fun {p q} hpq a ha b hb => ?_
  have ha := mem_pointsGroup.mp ((hf _).mem_iff.mp ha)
  have hb := mem_pointsGroup.mp ((hf _).mem_iff.mp hb)
  refine hpoints a ha.1 b hb.1 ?_
  rw [ha.2, hb.2]
  exact lt_of_le_of_ne hpq.1 (Ne.symm hpq.2)

/-- **Ranking by groups reorders the clubs.** -/
theorem perm_groups {f : List String → List String} (hf : ∀ group, (f group).Perm group)
    (hteams : teams.Nodup) : ((pointsGroups tallies teams).flatMap f).Perm teams := by
  refine (List.perm_ext_iff_of_nodup ?_ hteams).mpr fun team => ?_
  · refine pairwise_groups hf (fun a _ b _ hlt => ?_) fun points => ?_
    · rintro rfl
      exact lt_irrefl _ hlt
    · exact ((hf _).nodup_iff).mpr (hteams.filter _)
  · rw [pointsGroups, List.flatMap_map, List.mem_flatMap]
    constructor
    · rintro ⟨points, -, hmem⟩
      exact (mem_pointsGroup.mp ((hf _).mem_iff.mp hmem)).1
    · intro hmem
      refine ⟨(tallies team).points, ?_, (hf _).mem_iff.mpr (mem_pointsGroup.mpr ⟨hmem, rfl⟩)⟩
      rw [List.mem_insertionSort, List.mem_dedup]
      exact List.mem_map_of_mem hmem

end Groups

/-! ## Rules -/

section Rules

variable {rule : LeagueRule} {schedule : List Fixture} {tallies : Tallies} {teams : List String}

/-- Every league declares head to head. -/
theorem headToHead_mem (hrule : rule ∈ leagueRules) : .headToHead ∈ rule.primary := by
  revert rule
  decide

/-- The declared criteria: those before head to head, head to head, and those after it. -/
theorem declaredCriteria_eq (hrule : rule ∈ leagueRules) : ∃ after,
    declaredCriteria rule schedule tallies teams = beforeHeadToHead rule tallies ++
      (headCriteria (headToHead rule schedule tallies teams) ++ after) := by
  rw [leagueRules] at hrule
  simp only [List.mem_cons, List.not_mem_nil, or_false] at hrule
  rcases hrule with rfl | rfl | rfl | rfl | rfl <;> exact ⟨_, rfl⟩

/-- A table sorted as declared decides level clubs by their head to head. -/
theorem respectsRule_iff (hrule : rule ∈ leagueRules) {order : List String} :
    RespectsRule rule schedule tallies teams order ↔
      order.Pairwise fun a b => ¬ Ahead (declaredCriteria rule schedule tallies teams) b a := by
  refine ⟨fun h => h.sorted, fun h => ⟨h, h.imp fun {a b} hab hlevel hdecisive => ?_⟩⟩
  obtain ⟨after, hafter⟩ := @declaredCriteria_eq rule schedule tallies teams hrule
  rw [hafter, ahead_append, ahead_append] at hab
  rcases ahead_trichotomy (headCriteria (headToHead rule schedule tallies teams)) a b with h | h | h
  · exact h
  · exact absurd h hdecisive
  · exact absurd (.inr ⟨hlevel.symm, .inl h⟩) hab

/-- Head-to-head criteria read two clubs' own tallies only. -/
theorem ahead_head_congr {t u : Tallies} {a b : String} (ha : t a = u a) (hb : t b = u b)
    (criteria : List (String → Int)) :
    Ahead (headCriteria t ++ criteria) b a ↔ Ahead (headCriteria u ++ criteria) b a := by
  simp only [headCriteria, List.cons_append, List.nil_append, Ahead, ha, hb]

/-- Clubs level on points have one group. -/
theorem levelGroup_eq (hprimary : rule.primary = [.points, .headToHead, .goalDifference, .goalsFor])
    {points : Int} {team : String} (h : (tallies team).points = points) :
    levelGroup rule tallies teams team = pointsGroup tallies teams points := by
  refine List.filter_congr fun other _ => ?_
  rw [decide_eq_decide, beforeHeadToHead, hprimary]
  exact ⟨fun hlevel => (hlevel _ List.mem_cons_self).trans h, fun hother criterion hcriterion => by
    obtain rfl := List.mem_singleton.mp hcriterion
    exact hother.trans h.symm⟩

/-- **Groups level on points are ranked as declared.** -/
theorem pairwise_rankWithHeadToHead
    (hprimary : rule.primary = [.points, .headToHead, .goalDifference, .goalsFor]) :
    (rankWithHeadToHead schedule rule tallies teams).Pairwise fun a b =>
      ¬ Ahead (declaredCriteria rule schedule tallies teams) b a := by
  have hdeclared : declaredCriteria rule schedule tallies teams =
      (fun team => (tallies team).points) ::
        (headCriteria (headToHead rule schedule tallies teams) ++
          [fun team => (tallies team).goalDifference, fun team => (tallies team).goalsFor]) := by
    rw [declaredCriteria, hprimary]
    rfl
  have hoverall : overallCriteria rule tallies =
      [fun team => (tallies team).points, fun team => (tallies team).goalDifference,
        fun team => (tallies team).goalsFor] ++ [] := by
    rw [overallCriteria, hprimary]
    rfl
  rw [hdeclared]
  refine pairwise_groups perm_rankGroup (fun a _ b _ hlt => ?_) fun points => ?_
  · exact Ahead.asymm (.inl hlt)
  · have hhead : ∀ team ∈ pointsGroup tallies teams points,
        headToHead rule schedule tallies teams team =
          if headToHeadComplete schedule (pointsGroup tallies teams points) then
            miniTable schedule (pointsGroup tallies teams points) team else 0 := fun team hteam => by
      rw [headToHead, levelGroup_eq hprimary (mem_pointsGroup.mp hteam).2]
    have hlevel : ∀ a ∈ pointsGroup tallies teams points, ∀ b ∈ pointsGroup tallies teams points,
        (tallies a).points = (tallies b).points := fun a ha b hb =>
      (mem_pointsGroup.mp ha).2.trans (mem_pointsGroup.mp hb).2.symm
    unfold rankGroup
    split_ifs with hplain
    · rw [Bool.or_eq_true, decide_eq_true_iff, Bool.not_eq_true'] at hplain
      rcases hplain with hone | hincomplete
      · obtain ⟨team, hteam⟩ :=
          List.length_eq_one_iff.mp ((perm_rank (overallCriteria rule tallies) _).length_eq.trans hone)
        rw [hteam]
        exact List.pairwise_singleton _ _
      · -- no head to head, so the group is ranked by what is declared around it
        refine (pairwise_rank _ _).imp_of_mem fun {a b} ha hb hprec hahead => ?_
        have ha := (perm_rank _ _).mem_iff.mp ha
        have hb := (perm_rank _ _).mem_iff.mp hb
        rw [hoverall] at hprec
        refine hprec.not_ahead (.inr ⟨hlevel b hb a ha, ?_⟩)
        rcases hahead with hlt | ⟨-, hahead⟩
        · exact absurd (hlevel a ha b hb) hlt.ne
        · have hnone := hhead a ha
          have hnone' := hhead b hb
          rw [hincomplete] at hnone hnone'
          rw [ahead_head_congr (u := fun _ => 0) hnone hnone'] at hahead
          simpa [headCriteria, Ahead] using hahead
    · rw [Bool.or_eq_true, decide_eq_true_iff, Bool.not_eq_true', not_or,
        Bool.not_eq_false] at hplain
      refine (pairwise_rank _ _).imp_of_mem fun {a b} ha hb hprec hahead => ?_
      have ha := (perm_rank _ _).mem_iff.mp ha
      have hb := (perm_rank _ _).mem_iff.mp hb
      have hmini := hhead a ha
      have hmini' := hhead b hb
      rw [hplain.2] at hmini hmini'
      rcases hahead with hlt | ⟨-, hahead⟩
      · exact absurd (hlevel a ha b hb) hlt.ne
      · rw [ahead_head_congr hmini hmini'] at hahead
        -- the group's key is the declared one, with the wins behind it
        have hprec : Precedes ((headCriteria (miniTable schedule
            (pointsGroup tallies teams points)) ++ [fun team => (tallies team).goalDifference,
              fun team => (tallies team).goalsFor]) ++ [fun team => (tallies team).wins]) a b := hprec
        exact hprec.not_ahead hahead

/-- A rule declares head to head right after the points, or last. -/
theorem primary_of_mem (hrule : rule ∈ leagueRules) :
    rule.headToHeadOnPoints = true ∧
        rule.primary = [.points, .headToHead, .goalDifference, .goalsFor] ∨
      rule.headToHeadOnPoints = false ∧
        (rule.primary = [.points, .goalDifference, .goalsFor, .headToHead] ∨
          rule.primary = [.points, .goalDifference, .goalsFor, .wins, .headToHead]) := by
  revert rule
  decide

/-- A rule with head to head last sorts by everything before it. -/
theorem criteria_of_last (h : rule.primary = [.points, .goalDifference, .goalsFor, .headToHead] ∨
      rule.primary = [.points, .goalDifference, .goalsFor, .wins, .headToHead]) :
    overallCriteria rule tallies = beforeHeadToHead rule tallies ∧
      declaredCriteria rule schedule tallies teams = beforeHeadToHead rule tallies ++
        headCriteria (headToHead rule schedule tallies teams) := by
  rcases h with h | h
  · rw [overallCriteria, beforeHeadToHead, declaredCriteria, h]
    exact ⟨rfl, rfl⟩
  · rw [overallCriteria, beforeHeadToHead, declaredCriteria, h]
    exact ⟨rfl, rfl⟩

end Rules

/-- **The declared order is kept exactly when** head to head is compared on points, or no club level
with another before head to head is ahead of it there and behind it in the alphabet. -/
theorem standings_respect_iff {competitionId : String} {rule : LeagueRule}
    (hrule : leagueRule competitionId = some rule) (schedule : List Fixture)
    (season : Option String) (teams : List String) :
    RespectsRule rule schedule (tableTallies schedule competitionId season)
        (tableTeams schedule teams) (standingsOrder rule schedule season teams) ↔
      rule.headToHeadOnPoints = true ∨
        NamesFollow rule schedule (tableTallies schedule competitionId season)
          (tableTeams schedule teams) := by
  have hmem : rule ∈ leagueRules := List.mem_of_find?_eq_some hrule
  have hid : rule.competitionId = competitionId := by simpa using List.find?_some hrule
  subst hid
  rw [respectsRule_iff hmem, standingsOrder]
  rcases primary_of_mem hmem with ⟨hpoints, hprimary⟩ | ⟨hpoints, hprimary⟩
  · rw [hpoints, if_pos rfl]
    exact iff_of_true (pairwise_rankWithHeadToHead hprimary) (.inl rfl)
  · obtain ⟨hoverall, hdeclared⟩ := @criteria_of_last rule schedule
      (tableTallies schedule rule.competitionId season) (tableTeams schedule teams) hprimary
    rw [hpoints, if_neg Bool.false_ne_true, hoverall, hdeclared, pairwise_not_ahead_iff,
      or_iff_right Bool.false_ne_true]
    rfl

/-! ## Three clubs -/

/-- England's rule. -/
def premierLeague : LeagueRule where
  competitionId := "england-premier-league"
  sourceName := "English Premier League"
  ruleId := "england-2024.1"
  expectedTeams := 20
  championsLeagueSlots := 4
  relegationSlots := 3
  primary := [.points, .goalDifference, .goalsFor, .headToHead]

/-- A completed fixture. -/
def playedFixture (home away : String) (homeScore awayScore : Int) : Fixture :=
  { matchId := none, kickoffUtc := none, date := none, homeTeam := some home, awayTeam := some away,
    homeScore := some homeScore, awayScore := some awayScore, isComplete := some true,
    competition := some "English Premier League" }

/-- A double round robin: B beats A and draws with it, and both end on four points and one goal to
two. -/
def threeClubs : List Fixture :=
  [playedFixture "A" "B" 0 0, playedFixture "B" "A" 1 0, playedFixture "A" "C" 1 0,
    playedFixture "C" "A" 1 0, playedFixture "B" "C" 0 1, playedFixture "C" "B" 1 0]

/-- A is listed before B all the same. -/
theorem standings_disrespect : ∃ rule, leagueRule "england-premier-league" = some rule ∧
    ¬ RespectsRule rule threeClubs (tableTallies threeClubs "england-premier-league" none)
      (tableTeams threeClubs []) (standingsOrder rule threeClubs none []) := by
  refine ⟨premierLeague, by decide +kernel, fun h => absurd h.decisive ?_⟩
  decide +kernel

theorem standings_respect_iff_threeClubs :
    RespectsRule premierLeague threeClubs
        (tableTallies threeClubs "england-premier-league" none) (tableTeams threeClubs [])
        (standingsOrder premierLeague threeClubs none []) ↔
      premierLeague.headToHeadOnPoints = true ∨
        NamesFollow premierLeague threeClubs
          (tableTallies threeClubs "england-premier-league" none) (tableTeams threeClubs []) :=
  standings_respect_iff (by decide +kernel) threeClubs none []

end Golavo.Outlook
