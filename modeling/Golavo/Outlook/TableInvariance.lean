import Golavo.Outlook.Standings
import Mathlib.Algebra.BigOperators.Group.List.Basic
import Mathlib.Data.List.Perm.Basic

/-! # What a league table depends on

A table reads its fixtures as a bag of results: the order they are listed in, and the order the
clubs are asked for in, changes neither a tally nor a place (`standingsOrder_perm`). Every goal
scored is one conceded, and every result is worth three points or two (`standings_conserved`). -/

namespace Golavo.Outlook

open Golavo.Lib.Ranking (rank perm_rank rank_eq_of_perm)

/-! ## The same clubs, listed differently -/

section Groups

variable {rule : LeagueRule} {tallies : Tallies} {teams teams' : List String}

/-- The numbers of points of a table, the most first, do not depend on how its clubs are listed. -/
theorem sortedPoints_perm (h : teams.Perm teams') :
    (teams.map fun team => (tallies team).points).dedup.insertionSort (· ≥ ·) =
      (teams'.map fun team => (tallies team).points).dedup.insertionSort (· ≥ ·) := by
  have hsorted := (List.perm_insertionSort (· ≥ ·) _).trans ((h.map fun team =>
    (tallies team).points).dedup.trans (List.perm_insertionSort (· ≥ ·) _).symm)
  exact hsorted.eq_of_pairwise' (List.pairwise_insertionSort _ _) (List.pairwise_insertionSort _ _)

/-- **Groups that are ranked alike make rankings that are alike**, however the clubs are listed. -/
theorem flatMap_pointsGroups {f f' : List String → List String} (h : teams.Perm teams')
    (hf : ∀ points, f (pointsGroup tallies teams points) = f' (pointsGroup tallies teams' points)) :
    (pointsGroups tallies teams).flatMap f = (pointsGroups tallies teams').flatMap f' := by
  rw [pointsGroups, pointsGroups, sortedPoints_perm h, List.flatMap_map, List.flatMap_map]
  congr 1
  funext points
  exact hf points

theorem perm_pointsGroup (h : teams.Perm teams') (points : Int) :
    (pointsGroup tallies teams points).Perm (pointsGroup tallies teams' points) := h.filter _

/-- A group is ranked alike wherever its own table is, and is complete alike where it matters. -/
theorem rankGroup_congr {complete complete' : List String → Bool}
    {mini mini' : List String → Tallies} {group group' : List String} (h : group.Perm group')
    (hcomplete : group'.length ≠ 1 → complete group = complete' group')
    (hmini : mini group = mini' group') :
    rankGroup complete mini rule tallies group = rankGroup complete' mini' rule tallies group' := by
  unfold rankGroup
  rw [h.length_eq, hmini]
  by_cases hone : group'.length = 1
  · simp only [hone, decide_true, Bool.true_or, if_true]
    exact rank_eq_of_perm _ h
  · rw [hcomplete hone]
    split_ifs
    · exact rank_eq_of_perm _ h
    · exact rank_eq_of_perm _ h

end Groups

/-! ## The same results, listed differently -/

section Results

variable {schedule schedule' : List Fixture} {group group' : List String}

/-- What a club's recorded results add up to. -/
theorem recordedTallies_apply (schedule : List Fixture) (team : String) :
    recordedTallies schedule team = (schedule.map (recordedWorth team)).sum := by
  -- a table of no season docks nobody
  have h := standingsTable_apply schedule "" "" team
  have hzero : (⟨pointAdjustment "" "" team, 0, 0, 0⟩ : Tally) = 0 := rfl
  rwa [standingsTable, hzero, add_zero, add_zero] at h

/-- **A tally does not depend on the order of the results.** -/
theorem recordedTallies_perm (h : schedule.Perm schedule') :
    recordedTallies schedule = recordedTallies schedule' := by
  funext team
  rw [recordedTallies_apply, recordedTallies_apply]
  exact (h.map _).sum_eq

theorem tableTallies_perm (h : schedule.Perm schedule') (competitionId : String)
    (season : Option String) :
    tableTallies schedule competitionId season = tableTallies schedule' competitionId season := by
  cases season with
  | none => exact recordedTallies_perm h
  | some season =>
      funext team
      show recordedTallies schedule team + _ = recordedTallies schedule' team + _
      rw [recordedTallies_perm h]

/-- The fixtures of a group depend on who is in it. -/
theorem scopedFixtures_congr (h : ∀ team, team ∈ group ↔ team ∈ group') :
    scopedFixtures schedule group = scopedFixtures schedule group' := by
  have hany (name : Option String) : name.any (· ∈ group) = name.any (· ∈ group') := by
    cases name with
    | none => rfl
    | some name => exact decide_eq_decide.mpr (h name)
  refine List.filter_congr fun f _ => ?_
  rw [hany, hany]

theorem miniTable_perm (hs : schedule.Perm schedule') (hg : group.Perm group') :
    miniTable schedule group = miniTable schedule' group' := by
  rw [miniTable, miniTable, scopedFixtures_congr fun team => hg.mem_iff]
  exact recordedTallies_perm (hs.filter _)

theorem headToHeadComplete_perm (hs : schedule.Perm schedule') (hg : group.Perm group') :
    headToHeadComplete schedule group = headToHeadComplete schedule' group' := by
  have hpairs := ((hs.filter fun f => (recordedResult f).isSome &&
    f.homeTeam.any (· ∈ group') && f.awayTeam.any (· ∈ group')).map fun f =>
      (Fixture.nameText f.homeTeam, Fixture.nameText f.awayTeam)).dedup.length_eq
  rw [headToHeadComplete, headToHeadComplete, scopedFixtures_congr fun team => hg.mem_iff,
    hg.length_eq]
  unfold scopedFixtures
  rw [hpairs]

theorem perm_tableTeams {teams teams' : List String} (hs : schedule.Perm schedule')
    (ht : teams.Perm teams') : (tableTeams schedule teams).Perm (tableTeams schedule' teams') :=
  (ht.append ((hs.filter _).flatMap_right _)).dedup

/-- **A league table does not depend on the order of its rows**, of the fixtures or of the clubs
asked for. -/
theorem standingsOrder_perm (rule : LeagueRule) (season : Option String)
    {schedule schedule' : List Fixture} {teams teams' : List String}
    (hs : schedule.Perm schedule') (ht : teams.Perm teams') :
    standingsOrder rule schedule season teams = standingsOrder rule schedule' season teams' := by
  have hteams := perm_tableTeams hs ht
  unfold standingsOrder
  rw [tableTallies_perm hs]
  split_ifs
  · refine flatMap_pointsGroups hteams fun points => ?_
    have hgroup := @perm_pointsGroup (tableTallies schedule' rule.competitionId season) _ _ hteams
      points
    exact rankGroup_congr hgroup (fun _ => headToHeadComplete_perm hs hgroup)
      (miniTable_perm hs hgroup)
  · exact rank_eq_of_perm _ hteams

end Results

/-- Three clubs' fixtures, read backwards. -/
theorem standingsOrder_perm_threeClubs : standingsOrder premierLeague threeClubs none ["C", "A"] =
    standingsOrder premierLeague threeClubs.reverse none ["A", "C"] :=
  standingsOrder_perm premierLeague none (List.reverse_perm threeClubs).symm
    (List.Perm.swap "A" "C" [])

/-! ## What a table conserves -/

/-- What a result hands out in all: three points for a win, two for a draw. -/
def pointsOf (score : Int × Int) : Int := if score.1 = score.2 then 2 else 3

/-- The results of a table. -/
def results (schedule : List Fixture) : List (Int × Int) := schedule.filterMap recordedResult

/-- The totals of a table over all its clubs. -/
structure TableConserved (competitionId season : String) (schedule : List Fixture)
    (clubs : List String) (tallies : Tallies) : Prop where
  goals : (clubs.map fun team => (tallies team).goalsFor).sum =
    (clubs.map fun team => (tallies team).goalsAgainst).sum
  scored : (clubs.map fun team => (tallies team).goalsFor).sum =
    ((results schedule).map fun score => score.1 + score.2).sum
  points : (clubs.map fun team => (tallies team).points).sum =
    ((results schedule).map pointsOf).sum +
      (clubs.map (pointAdjustment competitionId season)).sum
  wins : (clubs.map fun team => (tallies team).wins).sum =
    ((results schedule).filter fun score => score.1 ≠ score.2).length

section Totals

variable {clubs : List String} {schedule : List Fixture}

/-- The totals of some tallies, field by field. -/
theorem sum_tallies (tallies : Tallies) (clubs : List String) :
    (clubs.map tallies).sum =
      ⟨(clubs.map fun team => (tallies team).points).sum,
        (clubs.map fun team => (tallies team).goalsFor).sum,
        (clubs.map fun team => (tallies team).goalsAgainst).sum,
        (clubs.map fun team => (tallies team).wins).sum⟩ := by
  induction clubs with
  | nil => rfl
  | cons team clubs ih => simp only [List.map_cons, List.sum_cons, ih, Tally.add_def]

/-- One club's share, among clubs that are told apart. -/
theorem sum_single (hclubs : clubs.Nodup) {club : String} (h : club ∈ clubs) (t : Tally) :
    (clubs.map fun team => if team = club then t else 0).sum = t := by
  rw [← List.sum_toFinset _ hclubs, Finset.sum_ite_eq' , if_pos (List.mem_toFinset.mpr h)]

/-- What both sides get for a result. -/
def bothSides (score : Int × Int) : Tally :=
  Tally.side score.1 score.2 + Tally.side score.2 score.1

/-- Both sides get three points for a decided result, one each for a draw, and a win if any. -/
theorem bothSides_eq (score : Int × Int) : bothSides score =
    ⟨pointsOf score, score.1 + score.2, score.1 + score.2,
      if score.1 ≠ score.2 then 1 else 0⟩ := by
  unfold bothSides pointsOf Tally.side
  rw [Tally.add_def]
  rcases lt_trichotomy score.1 score.2 with h | h | h
  · rw [if_neg h.not_gt, if_neg h.ne, if_pos h, if_neg h.ne, if_pos h.ne]
    simp [h, h.not_gt, add_comm]
  · simp [h]
  · rw [if_pos h, if_neg h.not_gt, if_neg h.ne, if_neg h.ne', if_pos h.ne']
    simp [h, h.not_gt, add_comm]

/-- **What the clubs of a table have in all** is what its results hand out to both sides. -/
theorem sum_recordedTallies (hclubs : clubs.Nodup)
    (hnames : ∀ f ∈ schedule, (recordedResult f).isSome = true →
      Fixture.nameText f.homeTeam ∈ clubs ∧ Fixture.nameText f.awayTeam ∈ clubs) :
    (clubs.map (recordedTallies schedule)).sum = ((results schedule).map bothSides).sum := by
  have happly : recordedTallies schedule = fun team => (schedule.map (recordedWorth team)).sum :=
    funext (recordedTallies_apply schedule)
  rw [happly]
  clear happly
  induction schedule with
  | nil =>
      refine List.sum_eq_zero fun t ht => ?_
      obtain ⟨team, -, rfl⟩ := List.mem_map.mp ht
      rfl
  | cons f schedule ih =>
      obtain ⟨hf, hrest⟩ := List.forall_mem_cons.mp hnames
      simp only [List.map_cons, List.sum_cons, List.sum_map_add, ih hrest, results,
        List.filterMap_cons, recordedWorth]
      cases hresult : recordedResult f with
      | none => simp
      | some score =>
          obtain ⟨hhome, haway⟩ := hf (by rw [hresult]; rfl)
          simp only [Tally.worth, List.sum_map_add, sum_single hclubs hhome,
            sum_single hclubs haway, List.map_cons, List.sum_cons]
          rfl

end Totals

/-- The totals that results hand out. -/
theorem sum_bothSides (scores : List (Int × Int)) : (scores.map bothSides).sum =
    ⟨(scores.map pointsOf).sum, (scores.map fun score => score.1 + score.2).sum,
      (scores.map fun score => score.1 + score.2).sum,
      (scores.filter fun score => score.1 ≠ score.2).length⟩ := by
  induction scores with
  | nil => rfl
  | cons score scores ih =>
      simp only [List.map_cons, List.sum_cons, ih, bothSides_eq, Tally.add_def, List.filter_cons]
      by_cases h : score.1 = score.2
      · simp [h]
      · simp [h, add_comm]

/-- **A league table conserves goals, points and wins**: goals scored are goals conceded, and the
points are those of the results with what its clubs were docked. -/
theorem standings_conserved (schedule : List Fixture) (competitionId season : String)
    (teams : List String) :
    TableConserved competitionId season schedule (tableTeams schedule teams)
      (standingsTable schedule competitionId season) := by
  have hnames : ∀ f ∈ schedule, (recordedResult f).isSome = true →
      Fixture.nameText f.homeTeam ∈ tableTeams schedule teams ∧
        Fixture.nameText f.awayTeam ∈ tableTeams schedule teams := by
    intro f hf hresult
    have hscope : f ∈ schedule.filter fun f => (recordedResult f).isSome :=
      List.mem_filter.mpr ⟨hf, hresult⟩
    constructor
    · exact List.mem_dedup.mpr (List.mem_append_right _ (List.mem_flatMap.mpr
        ⟨f, hscope, List.mem_cons_self⟩))
    · exact List.mem_dedup.mpr (List.mem_append_right _ (List.mem_flatMap.mpr
        ⟨f, hscope, List.mem_cons_of_mem _ List.mem_cons_self⟩))
  have htotal := sum_recordedTallies (List.nodup_dedup _) hnames
  rw [sum_tallies, sum_bothSides, Tally.mk.injEq] at htotal
  obtain ⟨hpoints, hfor, hagainst, hwins⟩ := htotal
  -- docking changes points only
  have hdocked (team : String) : standingsTable schedule competitionId season team =
      ⟨(recordedTallies schedule team).points + pointAdjustment competitionId season team,
        (recordedTallies schedule team).goalsFor, (recordedTallies schedule team).goalsAgainst,
        (recordedTallies schedule team).wins⟩ := by
    rw [standingsTable, Tally.add_def]
    simp only [add_zero]
  exact {
    goals := by simp only [hdocked, tableTeams] at hfor hagainst ⊢; rw [hfor, hagainst]
    scored := by simp only [hdocked, tableTeams] at hfor ⊢; exact hfor
    points := by simp only [hdocked, tableTeams, List.sum_map_add] at hpoints ⊢; rw [hpoints]
    wins := by simp only [hdocked, tableTeams] at hwins ⊢; exact hwins }

end Golavo.Outlook
