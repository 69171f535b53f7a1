import Golavo.Forecast.Probabilities
import Golavo.Ingest.MatchTable
import Golavo.Lib.Json
import Mathlib.Data.Finset.Dedup

/-! # Predictions

What a fitted family answers for one fixture, and the families themselves as a parameter: fitting is
a function of the **set** of training rows and the cutoff, whatever order the rows come in. -/

namespace Golavo.Forecast

open Golavo.Lib (Decimal Json)
open Golavo.Ingest (MatchRow)

/-- One prediction: probabilities, and for the families that model goals the two scoring rates and
the joint matrix the probabilities are read from. -/
structure Prediction where
  probs : Triple
  expectedGoals : Option (Decimal × Decimal)
  params : List (String × Json)
  matrix : Option GoalMatrix
  distribution : Distribution probs
  rates_nonneg : ∀ goals ∈ expectedGoals, 0 ≤ goals.1.toRat ∧ 0 ≤ goals.2.toRat
  params_wf : ∀ field ∈ params, field.2.WF
  /-- Matrix and probabilities come from one distribution. -/
  outcomes : ∀ m ∈ matrix, m.outcomeProbabilities = probs

/-- What fitting reads of a training row. -/
structure FitRow where
  matchId : Option String
  date : Option Stamp
  kickoffUtc : Option Stamp
  homeTeam : String
  awayTeam : String
  homeScore : Option Int
  awayScore : Option Int
  neutral : Option Bool
  deriving DecidableEq, Repr

/-- The part of a row fitting reads. -/
def fitRow (r : MatchRow) : FitRow :=
  ⟨r.matchId, r.date, r.kickoffUtc, r.homeTeam, r.awayTeam, r.homeScore, r.awayScore, r.neutral⟩

/-- The set of rows a family is fitted on. -/
def fitSet (rows : List MatchRow) : Finset FitRow := (rows.map fitRow).toFinset

/-- The model families: `fit_model(family, rows, cutoff).predict(home, away, neutral)`. -/
structure Engine where
  predict (family : String) (rows : Finset FitRow) (cutoffUtc : Int) (homeTeam awayTeam : String)
    (neutral : Bool) : Prediction

end Golavo.Forecast
