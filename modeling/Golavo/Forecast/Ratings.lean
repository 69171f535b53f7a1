import Golavo.Forecast.RestDays
import Golavo.Ingest.Snapshot
import Golavo.Lib.Check
import Golavo.Lib.Directory
import Golavo.Lib.Calendar
import Mathlib.Algebra.Order.Field.Basic

/-! # Ratings

Golavo's own Elo table. `elo_trajectory` replays the completed matches up to an instant in one
chronological pass and notes every club's rating at the month ends it passes; the forecast model's
`fit` replays its training rows by calendar date. Ratings are exact numbers, and the two functions of
the interpreter's mathematics are parameters. -/

namespace Golavo.Forecast

open Golavo.Lib (Directory orFail)
open Golavo.Ingest (MatchRow MatchTable IngestError assertNoFutureRows)

/-! ## The update -/

/-- The functions on numbers the update and the table call. -/
structure EloHost (R : Type) where
  /-- `math.log1p` of a goal difference. -/
  log1p : Nat → R
  /-- `10.0 ** x`. -/
  pow10 : R → R
  /-- `round(x, 1)`. -/
  round1 : R → R

variable {R : Type} [Field R] [LinearOrder R] (host : EloHost R)

/-- A club's rating before its first match. -/
def eloInitial : R := (1500 : ℕ)

def eloKFactor : R := 28

def eloHomeAdvantage : R := 60

/-- What the home team's rating gains from one match (`elo_match_delta`). -/
def eloMatchDelta (kFactor homeAdvantage home away : R) (homeScore awayScore : Int)
    (neutral : Bool) : R :=
  let advantage := if neutral then 0 else homeAdvantage
  let expected := 1 / (1 + host.pow10 (-((home + advantage) - away) / 400))
  let actual : R := if homeScore > awayScore then 1 else if homeScore = awayScore then 1 / (2 : ℕ) else 0
  let multiplier := max 1 (host.log1p (homeScore - awayScore).natAbs)
  kFactor * multiplier * (actual - expected)

/-- Clubs with their ratings. -/
abbrev RatingTable (R : Type) : Type := Directory R

/-- A club's rating. -/
def ratingOf (ratings : RatingTable R) (team : String) : R := (ratings.read team).getD eloInitial

/-- What a replay raises. -/
inductive RatingError where
  /-- A blank cell where a match has its scores or its ground. -/
  | blankCell
  | ingest (e : IngestError)
  deriving DecidableEq, Repr

/-- The ratings after one match. -/
def rateMatch (kFactor homeAdvantage : R) (ratings : RatingTable R) (r : MatchRow) :
    Except RatingError (RatingTable R) := do
  let homeScore ← orFail .blankCell r.homeScore
  let awayScore ← orFail .blankCell r.awayScore
  let neutral ← orFail .blankCell r.neutral
  let home := ratingOf ratings r.homeTeam
  let away := ratingOf ratings r.awayTeam
  let delta := eloMatchDelta host kFactor homeAdvantage home away homeScore awayScore neutral
  return (ratings.write r.homeTeam (home + delta)).write r.awayTeam (away - delta)

/-- The ratings after some matches. -/
def rateAll (kFactor homeAdvantage : R) (rows : List MatchRow)
    (ratings : Except RatingError (RatingTable R)) : Except RatingError (RatingTable R) :=
  rows.foldl (fun ratings r => ratings >>= fun table =>
    rateMatch host kFactor homeAdvantage table r) ratings

/-! ## The model's fit -/

/-- The rows in the order of their dates. -/
def byDate (rows : List MatchRow) : List MatchRow :=
  rows.insertionSort fun a b => scheduleKey true a ≤ scheduleKey true b

/-- The ratings the forecast model fits (`EloOrdinalLogitModel.fit`). -/
def fitRatings (kFactor homeAdvantage : R) (t : MatchTable) (cutoff : Int) :
    Except RatingError (RatingTable R) := do
  Lib.wrapError .ingest (assertNoFutureRows t cutoff)
  rateAll host kFactor homeAdvantage (byDate t.rows) (.ok .empty)

/-! ## The pass -/

/-- Whether a row counts as of an instant: it is complete and not later. -/
def counted (t : MatchTable) (asOf : Int) (r : MatchRow) : Bool := r.complete && t.orderedBy asOf r

/-- The completed matches at or before an instant, each with its own (`completed_view`). -/
def completedView (t : MatchTable) (asOf : Int) : List (MatchRow × Int) :=
  (t.rows.filter (counted t asOf)).filterMap fun r => (t.orderInstant r).map fun i => (r, i)

/-- What the pass sorts by: the instant, then the teams, then the match id. -/
def replayKey (p : MatchRow × Int) : Int ×ₗ String ×ₗ String ×ₗ WithTop String :=
  toLex (p.2, toLex (p.1.homeTeam, toLex (p.1.awayTeam, blankLast p.1.matchId)))

/-- The counted matches in the order of the pass. -/
def replayOrder (t : MatchTable) (asOf : Int) : List (MatchRow × Int) :=
  (completedView t asOf).insertionSort fun a b => replayKey a ≤ replayKey b

/-- The first day of a day's month. -/
def monthStart (d : Int) : Int := d - ((Lib.Calendar.civilOfDays d).day - 1)

/-- The last seconds of so many months before a month's first day, the latest first. -/
def monthEndsBefore : Nat → Int → List Int
  | 0, _ => []
  | n + 1, start => (midnight start - secondNs) :: monthEndsBefore n (monthStart (start - 1))

/-- Eleven prior month ends, then the anchor itself (`month_end_checkpoints`). -/
def monthEndCheckpoints (anchor : Int) : List Int :=
  (monthEndsBefore 11 (monthStart (utcDay anchor))).reverse ++ [anchor]

/-- What the pass carries: the ratings, the matches and the last one of each club, the ratings at the
checkpoints passed, and the checkpoints ahead. -/
structure Replay (R : Type) where
  ratings : RatingTable R
  counts : Directory Nat
  lastSeen : Directory Int
  snapshots : List (RatingTable R)
  pending : List Int

/-- Note the ratings at every checkpoint before an instant. -/
def Replay.pass (w : Replay R) (instant : Int) : Replay R :=
  { w with
    snapshots := w.snapshots ++ (w.pending.takeWhile (· < instant)).map fun _ => w.ratings
    pending := w.pending.dropWhile (· < instant) }

/-- Count a match for a club. -/
def Replay.see (w : Replay R) (team : String) (instant : Int) : Replay R :=
  { w with
    counts := w.counts.write team ((w.counts.read team).getD 0 + 1)
    lastSeen := w.lastSeen.write team instant }

/-- Go through one match. -/
def Replay.visit (w : Replay R) (p : MatchRow × Int) : Except RatingError (Replay R) := do
  let w := w.pass p.2
  let ratings ← rateMatch host eloKFactor eloHomeAdvantage w.ratings p.1
  return { (w.see p.1.homeTeam p.2).see p.1.awayTeam p.2 with ratings := ratings }

/-- Note the ratings at the checkpoints that are left. -/
def Replay.finish (w : Replay R) : Replay R :=
  { w with
    snapshots := w.snapshots ++ w.pending.map fun _ => w.ratings
    pending := [] }

/-- The pass before the first match. -/
def Replay.start (checkpoints : List Int) : Replay R := ⟨.empty, .empty, .empty, [], checkpoints⟩

/-- The pass over some matches, with its checkpoints. -/
def replay (rows : List (MatchRow × Int)) (checkpoints : List Int) :
    Except RatingError (Replay R) := do
  let w : Replay R ← rows.foldl (fun w p => w >>= fun w => w.visit host p)
    (.ok (Replay.start checkpoints))
  return w.finish

/-! ## The table -/

/-- A club's line of the table. -/
structure RatedTeam (R : Type) where
  rank : Nat
  team : String
  rating : R
  matchesPlayed : Nat
  /-- The day of its last match. -/
  lastMatchDate : Int
  /-- Its rating at each checkpoint. -/
  history : List (Int × R)

/-- The table; its constants are left out. -/
structure EloTable (R : Type) where
  asOfUtc : Int
  scope : String
  matchesCounted : Nat
  dataThroughUtc : Option Int
  teams : List (RatedTeam R)

/-- Whether a club stands above another: by its rating, then by its name. -/
def ratedAbove (a b : String × R) : Prop := b.2 < a.2 ∨ a.2 = b.2 ∧ a.1 ≤ b.1

instance : DecidableRel (ratedAbove (R := R)) :=
  fun a b => inferInstanceAs (Decidable (b.2 < a.2 ∨ a.2 = b.2 ∧ a.1 ≤ b.1))

/-- The lines of the table. -/
def ratedTeams (w : Replay R) (checkpoints : List Int) (topN : Int) : List (RatedTeam R) :=
  ((w.ratings.files.insertionSort ratedAbove).take topN.toNat).zipIdx.map fun p =>
    { rank := p.2 + 1
      team := p.1.1
      rating := host.round1 p.1.2
      matchesPlayed := (w.counts.read p.1.1).getD 0
      lastMatchDate := utcDay ((w.lastSeen.read p.1.1).getD 0)
      history := checkpoints.zip (w.snapshots.map fun s => host.round1 (ratingOf s p.1.1)) }

/-- The Elo table as of an instant, with each top club's history (`elo_trajectory`). -/
def eloTrajectory (t : MatchTable) (asOf topN : Int) (scope : String) :
    Except RatingError (EloTable R) :=
  let ordered := replayOrder t asOf
  match (ordered.map Prod.snd).max? with
  | none => .ok ⟨asOf, scope, 0, none, []⟩
  | some anchor => do
      let checkpoints := monthEndCheckpoints anchor
      let w ← replay host ordered checkpoints
      return ⟨asOf, scope, ordered.length, some anchor, ratedTeams host w checkpoints topN⟩

end Golavo.Forecast
