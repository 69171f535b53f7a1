import Golavo.Clock
import Golavo.Follows.Store
import Golavo.Ingest.MatchIndex

/-! # The runtime international pack

A refresh joins the international results with the World Cup schedule. The pack it writes is the
results' own: its manifest names their source, and `field_provenance.csv` says for each World Cup
fixture which of the two sources supplied what and which key the fixture has upstream. -/

namespace Golavo.Refresh

open Golavo.Ingest
open Golavo.Follows (martj42 worldcup)

/-! ## The schedule -/

/-- A listing of the World Cup document. -/
structure Listing where
  /-- The match number as text, where the listing has one. -/
  num : Option String
  team1 : Option String
  team2 : Option String
  date : Option String
  /-- The day of `date` and the instant its clock names, where both can be read. -/
  kickoff : Option (Int × Int)
  deriving DecidableEq, Repr

/-- An unresolved knockout slot: `W101` or `L102` (`is_placeholder`). -/
def isPlaceholder (u : Unicode) (team : String) : Bool :=
  match u.strip team.toList with
  | c :: d :: digits => (c = 'W' || c = 'L') && (d :: digits).all u.isDecimal
  | _ => false

/-- A fixture of the schedule. -/
structure Fixture where
  day : Int
  homeTeam : String
  awayTeam : String
  kickoff : Int
  deriving DecidableEq, Repr

/-- The fixture of a listing: both teams are known and its kickoff can be read. -/
def Listing.fixture (u : Unicode) (l : Listing) : Option Fixture :=
  match l.team1, l.team2, l.date, l.kickoff with
  | some home, some away, some _, some (day, kickoff) =>
      if isPlaceholder u home || isPlaceholder u away then none
      else some ⟨day, home, away, kickoff⟩
  | _, _, _, _ => none

/-- The order of the parsed schedule: by kickoff, then by teams. -/
def Fixture.before (a b : Fixture) : Bool :=
  a.kickoff < b.kickoff || (a.kickoff = b.kickoff &&
    (a.homeTeam < b.homeTeam || (a.homeTeam = b.homeTeam && a.awayTeam ≤ b.awayTeam)))

/-- The schedule's fixtures (`parse_worldcup`). -/
def parseWorldcup (u : Unicode) (doc : List Listing) : List Fixture :=
  (doc.filterMap (Listing.fixture u)).insertionSort (Fixture.before · ·)

/-! ## Fixture keys -/

/-- A day and two folded teams, as the refresh compares fixtures. -/
abbrev Key : Type := String × String × String

/-- The key of a fixture by its day. -/
def dayKey (u : Unicode) (day : Int) (home away : String) : Key :=
  (dayText day, u.normalize home, u.normalize away)

/-- The number a listing gives its fixture; the text of its date is compared as it stands. -/
def Listing.numbered (u : Unicode) (l : Listing) : Option (Key × String) :=
  match l.team1, l.team2, l.date with
  | some home, some away, some date =>
      if home = "" ∨ away = "" ∨ date = "" ∨ isPlaceholder u home ∨ isPlaceholder u away then none
      else some ((date, u.normalize home, u.normalize away), l.num.getD "unknown")
  | _, _, _ => none

/-- The number of a fixture: the last listing's, or `unknown` where none has its key. -/
def fixtureNumber (u : Unicode) (doc : List Listing) (f : Fixture) : String :=
  ((doc.filterMap (Listing.numbered u)).reverse.lookup
    (dayKey u f.day f.homeTeam f.awayTeam)).getD "unknown"

/-- The key a fixture has upstream. -/
def upstreamFixtureKey (number : String) : String := worldcup ++ ":2026:" ++ number

/-! ## The pack -/

/-- Whether the results hold a fixture, and whether with a score; the last row decides. -/
def inResults (u : Unicode) (reference : List SourceRow) (f : Fixture) : Option Bool :=
  (reference.map fun s => (dayKey u s.date s.homeTeam s.awayTeam, s.scored)).reverse.lookup
    (dayKey u f.day f.homeTeam f.awayTeam)

/-- A fixture's row of `field_provenance.csv`. -/
def provenanceRow (u : Unicode) (doc : List Listing) (reference : List SourceRow) (f : Fixture) :
    ProvenanceRow :=
  let held := inResults u reference f
  let complete := held.getD false
  { date := f.day
    homeTeam := f.homeTeam
    awayTeam := f.awayTeam
    fields :=
      { identitySourceId := some (if held.isSome then martj42 else worldcup)
        resultSourceId := if complete then some martj42 else none
        kickoffSourceId := some worldcup
        venueSourceId := some worldcup
        trainingSourceId := if complete then some martj42 else none
        upstreamFixtureKey := some (upstreamFixtureKey (fixtureNumber u doc f)) }
    trainingEligible := some (if complete then "true" else "false") }

/-- The columns of `field_provenance.csv`. -/
def provenanceColumns : List String :=
  ["date", "home_team", "away_team", "identity_source_id", "result_source_id", "kickoff_source_id",
    "venue_source_id", "training_source_id", "upstream_fixture_key", "training_eligible"]

/-- The provenance of the World Cup's fixtures. -/
def provenanceSheet (u : Unicode) (doc : List Listing) (reference : List SourceRow) :
    ProvenanceSheet where
  columns := provenanceColumns
  rows := (parseWorldcup u doc).map (provenanceRow u doc reference)

/-- The exact kickoffs of the World Cup's fixtures (`kickoff_overlay`). -/
def kickoffOverlay (u : Unicode) (doc : List Listing) : List KickoffRow :=
  (parseWorldcup u doc).map fun f =>
    ⟨f.day, f.homeTeam, f.awayTeam, "FIFA World Cup", some f.kickoff⟩

/-- What a refresh knows of the two sources. -/
structure Revisions where
  martjRef : String
  martjCommittedAt : String
  worldcupRef : String
  worldcupCommittedAt : String
  retrievedAtUtc : String
  deriving DecidableEq, Repr

/-- The pack a refresh writes (`build_international_runtime_pack`): the rows are those its loader
reads from the results with the World Cup's missing fixtures appended. -/
def internationalRuntimePack (u : Unicode) (rev : Revisions) (doc : List Listing)
    (reference rows : List SourceRow) : Pack where
  manifest :=
    { sourceId := martj42
      upstreamRef := rev.martjRef
      url := "https://github.com/martj42/international_results"
      retrievedAtUtc := rev.retrievedAtUtc
      upstreamCommittedAtUtc := some rev.martjCommittedAt
      license := "CC0-1.0"
      files := ["CC0-1.0.txt", "field_provenance.csv", "former_names.csv", "goalscorers.csv",
        "kickoffs.csv", "results.csv", "shootouts.csv"]
      coSources := [
        { sourceId := worldcup
          url := "https://github.com/openfootball/worldcup.json"
          upstreamRef := rev.worldcupRef
          retrievedAtUtc := rev.retrievedAtUtc
          upstreamCommittedAtUtc := some rev.worldcupCommittedAt
          license := "CC0-1.0" }] }
  rows := rows
  kickoffs := some (kickoffOverlay u doc)
  provenance := some (provenanceSheet u doc reference)

/-! ## Its keys -/

/-- Fixture keys tell fixtures apart exactly as their numbers do. -/
theorem upstreamFixtureKey_inj {a b : String} :
    upstreamFixtureKey a = upstreamFixtureKey b ↔ a = b := by
  constructor
  · intro h
    have htext := congrArg String.toList h
    simp only [upstreamFixtureKey, String.toList_append] at htext
    exact String.toList_inj.mp (List.append_cancel_left htext)
  · rintro rfl
    rfl

/-- The key of a fixture's row. -/
theorem key_provenanceRow (u : Unicode) (doc : List Listing) (reference : List SourceRow)
    (f : Fixture) : (provenanceRow u doc reference f).fields.upstreamFixtureKey =
      some (upstreamFixtureKey (fixtureNumber u doc f)) := rfl

/-- Whether the fixtures of a generation have keys of their own. -/
def DistinctKeys (u : Unicode) (doc : List Listing) (reference : List SourceRow) : Prop :=
  (parseWorldcup u doc).Pairwise fun a b =>
    (provenanceRow u doc reference a).fields.upstreamFixtureKey ≠
      (provenanceRow u doc reference b).fields.upstreamFixtureKey

/-- **The fixtures have keys of their own exactly when they have numbers of their own**: a fixture
without a number is numbered `unknown`. -/
theorem distinctKeys_iff (u : Unicode) (doc : List Listing) (reference : List SourceRow) :
    DistinctKeys u doc reference ↔
      (parseWorldcup u doc).Pairwise fun a b => fixtureNumber u doc a ≠ fixtureNumber u doc b := by
  unfold DistinctKeys
  simp only [key_provenanceRow, ne_eq, Option.some.injEq, upstreamFixtureKey_inj]

end Golavo.Refresh
