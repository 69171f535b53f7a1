import Golavo.Clock
import Mathlib.Data.List.Perm.Basic
import Mathlib.Data.String.Basic

/-! # Weather captures

`weather.refresh` fetches a forecast for the hour of a fixture's kickoff and stores it as a file of
the match, named by the time it was fetched. `weather_context_for` shows the capture whose fetch time
is the greatest text, if that text stands before the text of the kickoff it was fetched for. -/

namespace Golavo.Weather

/-! ## Clock readings and kickoffs -/

/-- A `datetime` in UTC: an instant in whole microseconds, of years 1 to 9999. -/
structure Moment where
  micros : Int
  writable : WritableInstant (1000 * micros)

/-- `_iso` of a moment. -/
def Moment.text (m : Moment) : String := isoText (1000 * m.micros)

/-- The hour a moment lies in. -/
def Moment.hour (m : Moment) : Int := m.micros / 3600000000

instance : DecidableEq Moment := fun a b =>
  decidable_of_iff (a.micros = b.micros) ⟨fun h => by cases a; cases b; cases h; rfl, congrArg _⟩

theorem Moment.eq_of_micros {a b : Moment} (h : a.micros = b.micros) : a = b := by
  cases a
  cases b
  cases h
  rfl

/-- Moments with one text are the same. -/
theorem Moment.eq_of_text {a b : Moment} (h : a.text = b.text) : a = b := by
  have hread := readStamp_isoText a.writable
  rw [show isoText (1000 * a.micros) = isoText (1000 * b.micros) from h,
    readStamp_isoText b.writable] at hread
  have hmicros := (Stamp.aware.inj (Option.some.inj hread)).1
  refine Moment.eq_of_micros ?_
  unfold wholeMicros at hmicros
  omega

/-! ## Fetching -/

/-- What the provider forecasts for an hour. -/
structure HourlyForecast where
  temperature : Lib.Decimal
  precipitation : Lib.Decimal
  precipitationProbability : Int
  windSpeed : Lib.Decimal
  weatherCode : Int
  deriving DecidableEq

/-- A stored reading: when it was fetched, the kickoff it was fetched for, and the forecast for the
hour of that kickoff. -/
structure Reading where
  fetchedAt : Moment
  kickoff : Moment
  forecast : HourlyForecast
  deriving DecidableEq

/-- The hours of a provider's answer, each with its forecast where that is complete; no answer at all
is one that could not be fetched or read. -/
abbrev Answer := Option (List (Int × Option HourlyForecast))

/-- `fetch_forecast`: the first row of the kickoff's hour. -/
def fetchForecast (answer : Answer) (kickoff fetchedAt : Moment) : Option Reading := do
  let hourly ← answer
  let row ← hourly.find? (·.1 = kickoff.hour)
  let forecast ← row.2
  return ⟨fetchedAt, kickoff, forecast⟩

/-- Why a refresh does not go through (`WeatherRefreshError`). -/
inductive WeatherRefreshError where
  | matchNotFound
  | kickoffUnknown
  | kickoffPassed
  | locationUnresolved
  | fetchFailed
  deriving DecidableEq, Repr

def WeatherRefreshError.status : WeatherRefreshError → Nat
  | .matchNotFound => 404
  | .fetchFailed => 502
  | _ => 422

def WeatherRefreshError.reasonCode : WeatherRefreshError → String
  | .matchNotFound => "match_not_found"
  | .kickoffUnknown => "kickoff_unknown"
  | .kickoffPassed => "kickoff_passed"
  | .locationUnresolved => "location_unresolved"
  | .fetchFailed => "fetch_failed"

/-- A fixture as a refresh sees it: its kickoff, where it reads as a timestamp, and whether its venue
has bundled coordinates. -/
structure Fixture where
  kickoff : Option Moment
  located : Bool

/-- The reading a refresh stores (`refresh`). -/
def refresh (fixture : Option Fixture) (now : Moment) (answer : Answer) :
    Except WeatherRefreshError Reading :=
  match fixture with
  | none => .error .matchNotFound
  | some fixture =>
      match fixture.kickoff with
      | none => .error .kickoffUnknown
      | some kickoff =>
          if kickoff.micros ≤ now.micros then .error .kickoffPassed
          else if !fixture.located then .error .locationUnresolved
          else
            match fetchForecast answer kickoff now with
            | none => .error .fetchFailed
            | some reading => .ok reading

/-! ## The store -/

/-- The name of a reading's file (`_SAFE_ID.sub("_", fetched_at)`). -/
def fileName (m : Moment) : List Char :=
  m.text.toList.map fun c => if c.isAlphanum || c ∈ ['_', '.', '-'] then c else '_'

/-- Write a reading to its file (`save_reading`). -/
def saveReading (captures : List Reading) (r : Reading) : List Reading :=
  captures.filter (fun c => fileName c.fetchedAt ≠ fileName r.fetchedAt) ++ [r]

/-- The order a directory is listed in. -/
structure Host where
  list : List Reading → List Reading
  perm : ∀ captures, (list captures).Perm captures

/-- Keep the later of two readings, by the texts of their fetch times. -/
def laterReading (latest : Option Reading) (r : Reading) : Option Reading :=
  match latest with
  | none => some r
  | some l => if l.fetchedAt.text < r.fetchedAt.text then some r else some l

/-- `load_latest`. -/
def loadLatest (host : Host) (captures : List Reading) : Option Reading :=
  (host.list captures).foldl laterReading none

/-! ## The display -/

inductive BlockedReason where
  | noLeakageSafeHistoricalForecastSource
  | noPreKickoffCapture
  deriving DecidableEq, Repr

def BlockedReason.code : BlockedReason → String
  | .noLeakageSafeHistoricalForecastSource => "no_leakage_safe_historical_forecast_source"
  | .noPreKickoffCapture => "no_pre_kickoff_capture"

/-- The weather block of a match. -/
inductive WeatherContext where
  | blocked (reason : BlockedReason)
  | forecast (reading : Reading)
  deriving DecidableEq

/-- `weather_context_for`. -/
def weatherContextFor (host : Host) (captures : List Reading) : WeatherContext :=
  match loadLatest host captures with
  | none => .blocked .noLeakageSafeHistoricalForecastSource
  | some reading =>
      if reading.kickoff.text ≤ reading.fetchedAt.text then .blocked .noPreKickoffCapture
      else .forecast reading

end Golavo.Weather
