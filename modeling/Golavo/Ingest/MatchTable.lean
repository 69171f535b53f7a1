import Golavo.Time
import Mathlib.Data.List.MinMax

/-! # Match tables

The canonical match table every loader produces and every read consumes: one **row** a fixture, and
the **columns** a frame carries beside the ones every loader guarantees. A pack's own frame has
neither source nor competition columns; the search index has all of them. A cell a frame may leave
blank is an `Option`. -/

namespace Golavo.Ingest

/-- Where each group of a row's fields came from, as the search index records it. -/
structure FieldProvenance where
  /-- Source of the fixture's identity. -/
  identitySourceId : Option String := none
  /-- Source of the published result. -/
  resultSourceId : Option String := none
  /-- Source of the kickoff instant. -/
  kickoffSourceId : Option String := none
  /-- Source of the venue. -/
  venueSourceId : Option String := none
  /-- Source the row trains under; blank when it must not train. -/
  trainingSourceId : Option String := none
  /-- The key the fixture has upstream. -/
  upstreamFixtureKey : Option String := none
  deriving DecidableEq, Repr

/-- One row of a match table. -/
structure MatchRow where
  matchId : Option String
  date : Option Stamp
  kickoffUtc : Option Stamp := none
  kickoffPrecision : String := "day"
  homeTeam : String
  awayTeam : String
  homeNorm : String := ""
  awayNorm : String := ""
  homeScore : Option Int := none
  awayScore : Option Int := none
  isComplete : Option Bool := none
  tournament : String := ""
  competition : Option String := none
  city : Option String := none
  country : Option String := none
  neutral : Option Bool := none
  sourceId : Option String := none
  sourceKind : Option String := none
  provenance : FieldProvenance := {}
  trainingEligible : Option Bool := none
  htHomeScore : Option Int := none
  htAwayScore : Option Int := none
  deriving DecidableEq, Repr

/-- Which of the optional columns a frame carries. -/
structure TableColumns where
  kickoffUtc : Bool := true
  trainingEligible : Bool := false
  sourceId : Bool := false
  competition : Bool := false
  deriving DecidableEq, Repr

/-- A frame of fixtures, in row order. -/
structure MatchTable where
  columns : TableColumns
  rows : List MatchRow
  deriving DecidableEq, Repr

namespace MatchRow

/-- `is_complete` with blanks read as false. -/
def complete (r : MatchRow) : Bool := r.isComplete.getD false

/-- The row's `match_id` rendered as text (`str(match_row["match_id"])`). -/
def matchIdText (r : MatchRow) : String := r.matchId.getD "<NA>"

/-- Whether the row's `match_id` is present and differs from `id`: a blank id compares as blank, and
a blank mask cell selects nothing. -/
def hasOtherId (id : String) (r : MatchRow) : Bool := r.matchId.any (· != id)

@[simp] theorem hasOtherId_iff {id : String} {r : MatchRow} :
    r.hasOtherId id = true ↔ ∃ i, r.matchId = some i ∧ i ≠ id := by
  simp [hasOtherId, Option.any_eq_true]

end MatchRow

namespace MatchTable

/-- The most precise instant a row can be ordered by (`order_instants`): the kickoff where the frame
has one, else the midnight of the calendar day. -/
def orderInstant (t : MatchTable) (r : MatchRow) : Option Int :=
  if t.columns.kickoffUtc then
    match r.kickoffUtc with
    | some kickoff => some kickoff.toUtc
    | none => r.date.map Stamp.toUtc
  else r.date.map Stamp.toUtc

/-- Whether a row's order instant is at or before a cutoff; a row without one is not. -/
def orderedBy (t : MatchTable) (cutoff : Int) (r : MatchRow) : Bool :=
  (t.orderInstant r).any (· ≤ cutoff)

/-- Whether a row may train: its override where the frame has the column, else its completeness. -/
def eligible (t : MatchTable) (r : MatchRow) : Bool :=
  if t.columns.trainingEligible then r.trainingEligible.getD false else r.complete

/-- Keep the rows a predicate selects. -/
def select (t : MatchTable) (p : MatchRow → Bool) : MatchTable := { t with rows := t.rows.filter p }

@[simp] theorem select_columns (t : MatchTable) (p : MatchRow → Bool) :
    (t.select p).columns = t.columns := rfl

@[simp] theorem select_rows (t : MatchTable) (p : MatchRow → Bool) :
    (t.select p).rows = t.rows.filter p := rfl

/-- The order instant of a row is read off the columns and the row alone. -/
@[simp] theorem orderInstant_select (t : MatchTable) (p : MatchRow → Bool) (r : MatchRow) :
    (t.select p).orderInstant r = t.orderInstant r := rfl

@[simp] theorem orderedBy_select (t : MatchTable) (p : MatchRow → Bool) (cutoff : Int)
    (r : MatchRow) : (t.select p).orderedBy cutoff r = t.orderedBy cutoff r := rfl

@[simp] theorem eligible_select (t : MatchTable) (p : MatchRow → Bool) (r : MatchRow) :
    (t.select p).eligible r = t.eligible r := rfl

theorem orderedBy_iff {t : MatchTable} {cutoff : Int} {r : MatchRow} :
    t.orderedBy cutoff r = true ↔ ∃ i, t.orderInstant r = some i ∧ i ≤ cutoff := by
  simp [orderedBy, Option.any_eq_true]

/-- A row ordered by an instant is ordered by every later one. -/
theorem orderedBy_mono {t : MatchTable} {early late : Int} (hle : early ≤ late) {r : MatchRow}
    (h : t.orderedBy early r = true) : t.orderedBy late r = true := by
  obtain ⟨i, hi, hie⟩ := orderedBy_iff.mp h
  exact orderedBy_iff.mpr ⟨i, hi, hie.trans hle⟩

end MatchTable

end Golavo.Ingest
