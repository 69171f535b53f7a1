import Golavo.Facts.Render
import Golavo.Ingest.MatchTable
import Mathlib.Data.Int.ConditionallyCompleteOrder
import Mathlib.Data.List.Sort
import Mathlib.Order.WithBot

/-! # Views of the match history

What the fact templates read: a team's completed matches from its own perspective and the meetings of
two teams, oldest first; and what they propose, a **candidate** fact. -/

namespace Golavo.Facts

open Golavo.Ingest (MatchRow)
open Golavo.Lib (Json)

/-! ## The context -/

/-- A goal of a pack's goalscorers. -/
structure GoalRow where
  date : Option Stamp
  homeTeam : Option String
  awayTeam : Option String
  team : Option String
  scorer : Option String
  minute : Option String
  ownGoal : Bool
  penalty : Bool
  deriving DecidableEq, Repr

/-- A penalty shootout of a pack. -/
structure ShootoutRow where
  date : Option Stamp
  homeTeam : Option String
  awayTeam : Option String
  winner : Option String
  firstShooter : Option String
  deriving DecidableEq, Repr

/-- The snapshot a template computes against (`TemplateContext`), whose matches are the completed ones
up to the horizon. -/
structure TemplateContext where
  rows : List MatchRow
  homeTeam : String
  awayTeam : String
  competition : String
  neutral : Bool
  asOf : Int
  kickoff : Int
  sourceIds : List String
  goalscorers : Option (List GoalRow) := none
  shootouts : Option (List ShootoutRow) := none

/-- A proposed fact, before the guardrails accept or suppress it (`Candidate`). -/
structure Candidate where
  subject : String
  text : String
  values : List (String × Json)
  numbers : List FactNumber
  sampleN : Int
  denominator : Int
  firstDate : Option Stamp
  lastDate : Option Stamp
  specificity : ℚ
  baseRate : Option ℚ := none
  /-- The sources of its own it names (`extra["source_ids"]`). -/
  sourceIds : Option (List String) := none

/-! ## Perspectives -/

inductive MatchResult where
  | win
  | draw
  | loss
  deriving DecidableEq, Repr

/-- A completed match from one team's perspective. -/
structure PerspectiveRow where
  date : Option Stamp
  opponent : String
  isHome : Bool
  gf : Int
  ga : Int
  htGf : Option Int
  htGa : Option Int
  result : MatchResult
  neutral : Bool
  tournament : String
  deriving DecidableEq, Repr

/-- A date in sorting order, where a blank one comes last. -/
def dateKey (date : Option Stamp) : WithTop Int :=
  match date with
  | some d => d.toUtc
  | none => ⊤

/-- The goals of a completed match, home first. -/
def scoreOf (r : MatchRow) : Except FactError (Int × Int) :=
  match r.homeScore, r.awayScore with
  | some home, some away => .ok (home, away)
  | _, _ => .error .blankScore

/-- A match from a team's perspective. -/
def perspectiveOf (team : String) (r : MatchRow) : Except FactError PerspectiveRow := do
  let score ← scoreOf r
  let isHome := r.homeTeam = team
  let gf := if isHome then score.1 else score.2
  let ga := if isHome then score.2 else score.1
  return {
    date := r.date
    opponent := if isHome then r.awayTeam else r.homeTeam
    isHome := isHome
    gf := gf
    ga := ga
    htGf := if isHome then r.htHomeScore else r.htAwayScore
    htGa := if isHome then r.htAwayScore else r.htHomeScore
    result := if gf > ga then .win else if gf = ga then .draw else .loss
    neutral := r.neutral.getD false
    tournament := r.tournament }

/-- A team's matches from its own perspective, oldest first (`team_perspective`). -/
def teamPerspective (rows : List MatchRow) (team : String) :
    Except FactError (List PerspectiveRow) := do
  let selected ← (rows.filter fun r => r.homeTeam = team || r.awayTeam = team).mapM
    (perspectiveOf team)
  return selected.insertionSort fun a b => dateKey a.date ≤ dateKey b.date

/-- The meetings of two teams in either orientation, oldest first (`head_to_head`). -/
def headToHead (rows : List MatchRow) (home away : String) : List MatchRow :=
  (rows.filter fun r => (r.homeTeam = home && r.awayTeam = away) ||
    (r.homeTeam = away && r.awayTeam = home)).insertionSort
      fun a b => dateKey a.date ≤ dateKey b.date

/-- How many flags at the end are set (`trailing_run`). -/
def trailingRun (flags : List Bool) : Nat := (flags.reverse.takeWhile id).length

/-- A score in the range of a specificity (`clamp_unit`). -/
def clampUnit (value : ℚ) : ℚ := min 1 (max 0 value)

/-- How many rows satisfy a condition. -/
def tally {α : Type} (p : α → Bool) (rows : List α) : Int := rows.countP p

/-- The earliest and the latest of some dates, blank ones left out (`min`, `max`). -/
def earliest (dates : List (Option Stamp)) : Option Stamp :=
  ((dates.filterMap id).insertionSort fun a b => a.toUtc ≤ b.toUtc).head?

def latest (dates : List (Option Stamp)) : Option Stamp :=
  ((dates.filterMap id).insertionSort fun a b => a.toUtc ≤ b.toUtc).getLast?

end Golavo.Facts
