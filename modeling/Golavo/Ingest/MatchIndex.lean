import Golavo.Ingest.Pack
import Mathlib.Data.List.Sort

/-! # The match index

`build_match_index` folds packs into one search index: a license gate, each pack's own rows with the
source columns and field provenance attached, a collision check on `match_id`, and one sort by
kickoff and id. A `field_provenance.csv` may override a row's sources and whether it may train. -/

namespace Golavo.Ingest

/-! ## Field provenance -/

/-- The provenance of a single-source pack's row: its own source throughout, where there is
something to attribute. -/
def defaultProvenance (sourceId : String) (r : MatchRow) : FieldProvenance :=
  { identitySourceId := some sourceId
    resultSourceId := if r.complete then some sourceId else none
    kickoffSourceId := some sourceId
    venueSourceId := if r.city.isSome || r.country.isSome then some sourceId else none
    trainingSourceId := if r.complete then some sourceId else none
    upstreamFixtureKey := r.matchId.map fun id => sourceId ++ ":" ++ id }

/-- The first co-source the manifest names: it supplied the exact kickoffs. -/
def kickoffCoSource (m : Manifest) : Option String :=
  (m.coSources.map CoSource.sourceId).find? (· ≠ "")

/-- A row with its default provenance; an exact kickoff is the co-source's. -/
def withDefaultProvenance (m : Manifest) (r : MatchRow) : MatchRow :=
  let base := defaultProvenance m.sourceId r
  { r with
    provenance := match kickoffCoSource m with
      | some co =>
          if r.kickoffPrecision = "exact" then { base with kickoffSourceId := some co } else base
      | none => base
    trainingEligible := some r.complete }

/-- An override of one cell: only where the sheet has the column and the cell is not blank. -/
def overrideCell (columns : List String) (name : String) (cell current : Option String) :
    Option String :=
  if name ∈ columns then
    match cell with
    | some text => if text = "" then current else some text
    | none => current
  else current

/-- Override a row's six provenance cells. -/
def overrideProvenance (columns : List String) (cells current : FieldProvenance) :
    FieldProvenance :=
  { identitySourceId := overrideCell columns "identity_source_id" cells.identitySourceId
      current.identitySourceId
    resultSourceId := overrideCell columns "result_source_id" cells.resultSourceId
      current.resultSourceId
    kickoffSourceId := overrideCell columns "kickoff_source_id" cells.kickoffSourceId
      current.kickoffSourceId
    venueSourceId := overrideCell columns "venue_source_id" cells.venueSourceId
      current.venueSourceId
    trainingSourceId := overrideCell columns "training_source_id" cells.trainingSourceId
      current.trainingSourceId
    upstreamFixtureKey := overrideCell columns "upstream_fixture_key" cells.upstreamFixtureKey
      current.upstreamFixtureKey }

/-- Parse a `training_eligible` cell, in any case and with white space around it. -/
def parseEligible (u : Unicode) (cell : String) : Option Bool :=
  let text := String.ofList ((u.strip cell.toList).map Char.toLower)
  if text = "true" ∨ text = "1" then some true
  else if text = "false" ∨ text = "0" then some false
  else none

/-- The provenance row a fixture key names. -/
def ProvenanceSheet.lookup (u : Unicode) (sheet : ProvenanceSheet) (key : FixtureKeyString) :
    Option ProvenanceRow :=
  sheet.rows.find? fun o => fixtureKeyString u o.date o.homeTeam o.awayTeam [] = key

/-- The `training_eligible` cell a sheet holds for a row, blank where the row is not named. -/
def ProvenanceSheet.eligibleCell (u : Unicode) (sheet : ProvenanceSheet) (r : MatchRow) :
    Option String :=
  ((r.fixtureKeyString u []).bind (sheet.lookup u)).bind ProvenanceRow.trainingEligible

/-- Apply a sheet to one row. -/
def overrideRow (u : Unicode) (sheet : ProvenanceSheet) (r : MatchRow) : MatchRow :=
  let provenance := match (r.fixtureKeyString u []).bind (sheet.lookup u) with
    | some o => overrideProvenance sheet.columns o.fields r.provenance
    | none => r.provenance
  if "training_eligible" ∈ sheet.columns then
    let eligible := match (sheet.eligibleCell u r).bind (parseEligible u) with
      | some value => some value
      | none => r.trainingEligible
    { r with
      provenance :=
        if eligible = some true then provenance else { provenance with trainingSourceId := none }
      trainingEligible := eligible }
  else { r with provenance := provenance }

/-- The identity columns every provenance sheet must have. -/
def requiredProvenanceColumns : List String := ["away_team", "date", "home_team"]

/-- Attach field-group provenance, with the pack's per-fixture overrides
(`_add_field_provenance`). -/
def addFieldProvenance (u : Unicode) (p : Pack) (rows : List MatchRow) :
    Except PackError (List MatchRow) :=
  let result := rows.map (withDefaultProvenance p.manifest)
  match p.provenance with
  | none => .ok result
  | some sheet =>
      let missing := requiredProvenanceColumns.filter (· ∉ sheet.columns)
      if missing ≠ [] then .error (.missingProvenanceColumns missing)
      else if ¬ (sheet.rows.map fun o =>
          fixtureKeyString u o.date o.homeTeam o.awayTeam []).Nodup then
        .error .duplicateProvenance
      else if "training_eligible" ∈ sheet.columns ∧ ∃ r ∈ result, ∃ cell ∈ sheet.eligibleCell u r,
          parseEligible u cell = none then
        .error .invalidTrainingEligible
      else .ok (result.map (overrideRow u sheet))

/-! ## The index -/

/-- The licenses cleared for redistribution inside the committed index. -/
def clearedLicenses : List String := ["CC0-1.0"]

/-- Whether a source is the international one, whose history crosses competitions. -/
def sourceKind (sourceId : String) : String :=
  if "martj42".toList.isPrefixOf sourceId.toList then "international" else "club"

/-- Attach the index's source columns to a row. -/
def withSourceColumns (u : Unicode) (sourceId : String) (r : MatchRow) : MatchRow :=
  { r with
    competition := some r.tournament
    sourceId := some sourceId
    sourceKind := some (sourceKind sourceId)
    homeNorm := u.normalize r.homeTeam
    awayNorm := u.normalize r.awayTeam }

/-- One pack's rows as the index holds them. -/
def packIndexRows (u : Unicode) (p : Pack) : Except PackError (List MatchRow) := do
  if p.manifest.license ∉ clearedLicenses then
    throw (.licenseNotCleared p.manifest.license)
  let frame ← loadMatches u p
  addFieldProvenance u p (frame.rows.map (withSourceColumns u p.manifest.sourceId))

/-- The order of the index: by kickoff, blank ones last, then by id. -/
def indexBefore (a b : MatchRow) : Bool :=
  match a.kickoffUtc, b.kickoffUtc with
  | some ka, some kb =>
      ka.toUtc < kb.toUtc || (ka.toUtc = kb.toUtc && a.matchIdText ≤ b.matchIdText)
  | some _, none => true
  | none, some _ => false
  | none, none => a.matchIdText ≤ b.matchIdText

/-- The columns of the index. -/
def indexColumns : TableColumns :=
  { kickoffUtc := true, trainingEligible := true, sourceId := true, competition := true }

/-- The ids a list holds more than once. -/
def duplicatedIds (ids : List (Option String)) : List String :=
  (ids.filter fun id => 1 < ids.count id).reduceOption

/-- Fold packs into the match index (`build_match_index`). -/
def buildMatchIndex (u : Unicode) (packs : List Pack) : Except PackError MatchTable := do
  let frames ← packs.mapM (packIndexRows u)
  let rows := frames.flatten
  let ids := rows.map MatchRow.matchId
  if ¬ ids.Nodup then throw (.matchIdCollision (duplicatedIds ids))
  return ⟨indexColumns, rows.insertionSort (indexBefore · ·)⟩

end Golavo.Ingest
