import Golavo.Lib.Calendar
import Golavo.Lib.Check
import Golavo.Time
import Mathlib.Algebra.BigOperators.Group.List.Basic
import Mathlib.Data.List.Dedup
import Mathlib.Data.List.Sort

/-! # Season schedules

The rows of the index frame a domestic outlook reads, the **certificate** that a season's schedule is
a whole double round robin, the fixtures it still lists, and the league table of its recorded
results. -/

namespace Golavo.Outlook

open Golavo.Lib (failIf)
open Golavo.Lib.Calendar (CivilDate civilOfDays)

/-! ## Fixtures -/

/-- A row of the index frame, as the outlook reads it; instants as `pd.to_datetime(..., utc=True)`
reads them, a blank cell as `none`. -/
structure Fixture where
  matchId : Option String
  kickoffUtc : Option Int
  date : Option Int
  homeTeam : Option String
  awayTeam : Option String
  homeScore : Option Int := none
  awayScore : Option Int := none
  isComplete : Option Bool := some false
  trainingEligible : Option Bool := none
  competition : Option String
  deriving DecidableEq, Repr

namespace Fixture

/-- `is_complete` with blanks read as false. -/
def complete (f : Fixture) : Bool := f.isComplete.getD false

/-- Whether both scores are there. -/
def scored (f : Fixture) : Bool := f.homeScore.isSome && f.awayScore.isSome

/-- Whether a fixture kicks off after an instant; a blank kickoff does not. -/
def after (asOf : Int) (f : Fixture) : Bool := f.kickoffUtc.any (asOf < ·)

/-- Whether a fixture kicked off before an instant; a blank kickoff did not. -/
def before (asOf : Int) (f : Fixture) : Bool := f.kickoffUtc.any (· < asOf)

/-- A club's name as text. -/
def nameText (name : Option String) : String := name.getD "<NA>"

end Fixture

/-- A frame of fixtures, in row order. -/
structure Frame where
  /-- Whether it has the training override. -/
  trainingEligible : Bool := false
  rows : List Fixture
  deriving Repr

/-- The season an instant falls in, from July to June (`football_season`); a blank instant has no
year and no month. -/
def footballSeason : Option Int → String
  | some t =>
      let c := civilOfDays (utcDay t)
      let start := if 7 ≤ c.month then c.year else c.year - 1
      let next := (toString (start + 1)).toList
      toString start ++ "-" ++ String.ofList (next.drop (next.length - 2))
  | none => "nan-an"

/-! ## Leagues -/

/-- A criterion a table is ranked by. -/
inductive Criterion where
  | points
  | goalDifference
  | goalsFor
  | wins
  | headToHead
  deriving DecidableEq, Repr

/-- A place two level teams play off for. -/
inductive PlayoffBoundary where
  | title
  | lastRelegationPlace
  deriving DecidableEq, Repr

/-- A league's rule. -/
structure LeagueRule where
  competitionId : String
  sourceName : String
  ruleId : String
  expectedTeams : Nat
  championsLeagueSlots : Nat
  relegationSlots : Nat
  /-- The criteria the table is ranked by, as declared. -/
  primary : List Criterion
  headToHeadOnPoints : Bool := false
  playoffBoundaries : List PlayoffBoundary := []
  deriving DecidableEq, Repr

/-- `LEAGUE_RULES`. -/
def leagueRules : List LeagueRule :=
  [{ competitionId := "england-premier-league"
     sourceName := "English Premier League"
     ruleId := "england-2024.1"
     expectedTeams := 20
     championsLeagueSlots := 4
     relegationSlots := 3
     primary := [.points, .goalDifference, .goalsFor, .headToHead] },
    { competitionId := "spain-la-liga"
      sourceName := "La Liga"
      ruleId := "spain-2024.1"
      expectedTeams := 20
      championsLeagueSlots := 4
      relegationSlots := 3
      primary := [.points, .headToHead, .goalDifference, .goalsFor]
      headToHeadOnPoints := true },
    { competitionId := "germany-bundesliga"
      sourceName := "Bundesliga"
      ruleId := "germany-2024.1"
      expectedTeams := 18
      championsLeagueSlots := 4
      relegationSlots := 2
      primary := [.points, .goalDifference, .goalsFor, .wins, .headToHead] },
    { competitionId := "italy-serie-a"
      sourceName := "Serie A"
      ruleId := "italy-2024.1"
      expectedTeams := 20
      championsLeagueSlots := 4
      relegationSlots := 3
      primary := [.points, .headToHead, .goalDifference, .goalsFor]
      headToHeadOnPoints := true
      playoffBoundaries := [.title, .lastRelegationPlace] },
    { competitionId := "france-ligue-1"
      sourceName := "Ligue 1"
      ruleId := "france-2024.1"
      expectedTeams := 18
      championsLeagueSlots := 4
      relegationSlots := 2
      primary := [.points, .goalDifference, .goalsFor, .headToHead] }]

/-- The rule of a competition, if there is a verified one (`league_rule`). -/
def leagueRule (competitionId : String) : Option LeagueRule :=
  leagueRules.find? (·.competitionId = competitionId)

/-- The points a club was docked in a season (`POINT_ADJUSTMENTS`). -/
def pointAdjustment (competitionId season team : String) : Int :=
  match competitionId, season, team with
  | "england-premier-league", "2023-24", "Everton" => -8
  | "england-premier-league", "2023-24", "Nottingham Forest" => -4
  | "france-ligue-1", "2023-24", "Montpellier" => -1
  | _, _, _ => 0

/-! ## The certificate -/

/-- What a schedule was found to be. -/
structure Certificate where
  expectedTeams : Nat
  teams : List String
  expectedMatches : Nat
  observedMatches : Nat
  uniqueOrderedPairs : Nat
  duplicateOrderedPairs : Nat
  selfFixtures : Nat
  incompleteFixtures : Nat
  pastResultGaps : Nat
  futureCompletedResults : Nat
  completeFixtureList : Bool
  deriving DecidableEq, Repr

/-- The ordered pairs of a schedule's clubs: blank names are dropped from either side first. -/
def orderedPairs (schedule : List Fixture) : List (String × String) :=
  (schedule.filterMap Fixture.homeTeam).zip (schedule.filterMap Fixture.awayTeam)

/-- The clubs of a schedule. -/
def teamsOf (schedule : List Fixture) : List String :=
  (schedule.filterMap Fixture.homeTeam ++ schedule.filterMap Fixture.awayTeam).dedup.insertionSort
    (· ≤ ·)

/-- Prove whether a double round robin is structurally complete (`certify_schedule`). -/
def certifySchedule (schedule : List Fixture) (expectedTeams : Nat) (asOf : Int) : Certificate :=
  let teams := teamsOf schedule
  let pairs := orderedPairs schedule
  let unique := pairs.dedup.length
  let selfFixtures := pairs.countP fun p => p.1 = p.2
  let expected := expectedTeams * (expectedTeams - 1)
  let done : Fixture → Bool := fun f => f.complete && f.scored
  { expectedTeams := expectedTeams
    teams := teams
    expectedMatches := expected
    observedMatches := schedule.length
    uniqueOrderedPairs := unique
    duplicateOrderedPairs := pairs.length - unique
    selfFixtures := selfFixtures
    incompleteFixtures := schedule.countP fun f => !done f
    pastResultGaps := schedule.countP fun f => !done f && f.before asOf
    futureCompletedResults := schedule.countP fun f => done f && f.after asOf
    completeFixtureList := teams.length = expectedTeams ∧ schedule.length = expected ∧
      unique = expected ∧ pairs.length - unique = 0 ∧ selfFixtures = 0 }

/-- The fixtures a schedule still lists (`_remaining_fixtures`). -/
def remainingFixtures (schedule : List Fixture) (asOf : Int) : List Fixture :=
  schedule.filter fun f => !f.complete && f.after asOf

/-! ## The table -/

/-- Points, goals and wins. -/
@[ext] structure Tally where
  points : Int
  goalsFor : Int
  goalsAgainst : Int
  wins : Int
  deriving DecidableEq, Repr

namespace Tally

instance : Zero Tally := ⟨⟨0, 0, 0, 0⟩⟩

instance : Add Tally :=
  ⟨fun a b => ⟨a.points + b.points, a.goalsFor + b.goalsFor, a.goalsAgainst + b.goalsAgainst,
    a.wins + b.wins⟩⟩

theorem add_def (a b : Tally) :
    a + b = ⟨a.points + b.points, a.goalsFor + b.goalsFor, a.goalsAgainst + b.goalsAgainst,
      a.wins + b.wins⟩ := rfl

theorem zero_def : (0 : Tally) = ⟨0, 0, 0, 0⟩ := rfl

instance : AddCommMonoid Tally where
  add_assoc a b c := by simp only [add_def, add_assoc]
  zero_add a := by simp only [add_def, zero_def, zero_add]
  add_zero a := by simp only [add_def, zero_def, add_zero]
  add_comm a b := by
    simp only [add_def]
    exact Tally.ext (add_comm _ _) (add_comm _ _) (add_comm _ _) (add_comm _ _)
  nsmul := nsmulRec

/-- What scoring `scored` and conceding `conceded` goals is worth. -/
def side (scored conceded : Int) : Tally :=
  { points := if conceded < scored then 3 else if scored = conceded then 1 else 0
    goalsFor := scored
    goalsAgainst := conceded
    wins := if conceded < scored then 1 else 0 }

/-- What a result is worth to a club. -/
def worth (home away : String) (score : Int × Int) (team : String) : Tally :=
  (if team = home then side score.1 score.2 else 0) +
    if team = away then side score.2 score.1 else 0

end Tally

/-- Tallies by club. -/
abbrev Tallies := String → Tally

/-- Enter one result for both its clubs (`_apply`, `_apply_scores`). -/
def applyScore (tallies : Tallies) (home away : String) (score : Int × Int) : Tallies :=
  let tallies := Function.update tallies home (tallies home + Tally.side score.1 score.2)
  Function.update tallies away (tallies away + Tally.side score.2 score.1)

/-- Entering a result adds what it is worth. -/
theorem applyScore_apply (tallies : Tallies) (home away : String) (score : Int × Int)
    (team : String) :
    applyScore tallies home away score team =
      tallies team + Tally.worth home away score team := by
  unfold applyScore Tally.worth
  by_cases ha : team = away
  · subst ha
    rw [Function.update_self, if_pos rfl]
    by_cases hh : team = home
    · subst hh
      rw [Function.update_self, if_pos rfl, add_assoc]
    · rw [Function.update_of_ne hh, if_neg hh, zero_add]
  · rw [Function.update_of_ne ha, if_neg ha, add_zero]
    by_cases hh : team = home
    · subst hh
      rw [Function.update_self, if_pos rfl]
    · rw [Function.update_of_ne hh, if_neg hh, add_zero]

/-- The recorded result of a fixture that is complete and has both scores. -/
def recordedResult (f : Fixture) : Option (Int × Int) :=
  match f.complete, f.homeScore, f.awayScore with
  | true, some h, some a => some (h, a)
  | _, _, _ => none

/-- The points, goals and wins of every club, from the completed results only. -/
def recordedTallies (schedule : List Fixture) : Tallies :=
  schedule.foldl (fun table f =>
    match recordedResult f with
    | some score =>
        applyScore table (Fixture.nameText f.homeTeam) (Fixture.nameText f.awayTeam) score
    | none => table) fun _ => 0

/-- The tallies of a season, with what a club was docked (`standings_table`, before its
ranking). -/
def standingsTable (schedule : List Fixture) (competitionId season : String) : Tallies :=
  fun team => recordedTallies schedule team + ⟨pointAdjustment competitionId season team, 0, 0, 0⟩

/-- What the recorded result of a fixture is worth to a club. -/
def recordedWorth (team : String) (f : Fixture) : Tally :=
  match recordedResult f with
  | some score => Tally.worth (Fixture.nameText f.homeTeam) (Fixture.nameText f.awayTeam) score team
  | none => 0

/-- **The table counts every recorded result once.** -/
theorem standingsTable_apply (schedule : List Fixture) (competitionId season team : String) :
    standingsTable schedule competitionId season team =
      (schedule.map (recordedWorth team)).sum +
        ⟨pointAdjustment competitionId season team, 0, 0, 0⟩ := by
  suffices ∀ table : Tallies, (schedule.foldl (fun table f =>
      match recordedResult f with
      | some score =>
          applyScore table (Fixture.nameText f.homeTeam) (Fixture.nameText f.awayTeam) score
      | none => table) table) team = table team + (schedule.map (recordedWorth team)).sum by
    simp only [standingsTable, recordedTallies, this, zero_add]
  induction schedule with
  | nil => exact fun table => (add_zero _).symm
  | cons f schedule ih =>
      intro table
      rw [List.foldl_cons, ih, List.map_cons, List.sum_cons, ← add_assoc, recordedWorth]
      cases recordedResult f with
      | none => simp only [add_zero]
      | some score => simp only [applyScore_apply]

end Golavo.Outlook
