import Golavo.Identity
import Golavo.Ingest.MatchTable
import Golavo.Lib.Json

/-! # Source packs

A **pack** is what a validated pack directory holds: its manifest, the rows its source loader
parsed, and two optional overlays, `kickoffs.csv` and `field_provenance.csv`. `load_matches` gives
every row the day-precision kickoff its date supports and splices on the exact kickoffs the pack
ships. -/

namespace Golavo.Ingest

open Golavo.Lib (Json)

/-- A second source a pack draws fixtures or kickoffs from. -/
structure CoSource where
  sourceId : String
  url : String := ""
  upstreamRef : String
  retrievedAtUtc : String
  upstreamCommittedAtUtc : Option String := none
  sha256 : String := ""
  license : String
  deriving DecidableEq, Repr

/-- A pack's manifest, with the digest of its own bytes. -/
structure Manifest where
  sourceId : String
  upstreamRef : String
  url : String := ""
  retrievedAtUtc : String
  upstreamCommittedAtUtc : Option String := none
  license : String
  /-- The names of the declared files. -/
  files : List String := []
  coSources : List CoSource := []
  sha256 : String := ""
  deriving DecidableEq, Repr

/-- A row of the frame a source loader parses, before any kickoff is attached. -/
structure SourceRow where
  matchId : String
  date : Int
  homeTeam : String
  awayTeam : String
  homeScore : Option Nat := none
  awayScore : Option Nat := none
  tournament : String
  city : Option String := none
  country : Option String := none
  neutral : Bool := false
  htHomeScore : Option Nat := none
  htAwayScore : Option Nat := none
  deriving DecidableEq, Repr

/-- A row of `kickoffs.csv`. -/
structure KickoffRow where
  date : Int
  homeTeam : String
  awayTeam : String
  tournament : String
  kickoffUtc : Option Int
  deriving DecidableEq, Repr

/-- A row of `field_provenance.csv`: its identity and its cells, blank or as text. -/
structure ProvenanceRow where
  date : Int
  homeTeam : String
  awayTeam : String
  fields : FieldProvenance := {}
  trainingEligible : Option String := none
  deriving DecidableEq, Repr

/-- `field_provenance.csv`: the columns its header names, and its rows. -/
structure ProvenanceSheet where
  columns : List String
  rows : List ProvenanceRow
  deriving DecidableEq, Repr

/-- A validated pack directory. -/
structure Pack where
  manifest : Manifest
  rows : List SourceRow
  kickoffs : Option (List KickoffRow) := none
  provenance : Option ProvenanceSheet := none
  deriving DecidableEq, Repr

/-- What makes loading or indexing a pack fail. -/
inductive PackError where
  /-- `kickoffs.csv` is present but not declared in the manifest. -/
  | undeclaredKickoffs
  /-- The license is not cleared for the bundled match index. -/
  | licenseNotCleared (license : String)
  /-- `field_provenance.csv` misses identity columns. -/
  | missingProvenanceColumns (missing : List String)
  /-- `field_provenance.csv` names one fixture twice. -/
  | duplicateProvenance
  /-- `field_provenance.csv` holds an invalid `training_eligible` value. -/
  | invalidTrainingEligible
  /-- Two packs carry one `match_id`. -/
  | matchIdCollision (ids : List String)
  deriving DecidableEq, Repr

/-! ## Snapshot descriptors -/

/-- The descriptor of a snapshot, as an artifact records it. -/
def descriptor (sourceId url upstreamRef retrieved sha256 license : String)
    (committed : Option String) : Json :=
  Json.mk ([("snapshot_id", .str ("sp_" ++ String.ofList (upstreamRef.toList.take 12))),
      ("source_id", .str sourceId), ("url", .str url), ("upstream_ref", .str upstreamRef),
      ("retrieved_at_utc", .str retrieved), ("sha256", .str sha256), ("license", .str license)] ++
    match committed with
    | some text => if text = "" then [] else [("upstream_committed_at_utc", .str text)]
    | none => [])

/-- The canonical artifact descriptor of a pack (`snapshot_descriptor`). -/
def snapshotDescriptor (m : Manifest) : Json :=
  descriptor m.sourceId m.url m.upstreamRef m.retrievedAtUtc m.sha256 m.license
    m.upstreamCommittedAtUtc

/-- The descriptors of a pack's declared co-sources (`co_source_descriptors`). -/
def coSourceDescriptors (m : Manifest) : List Json :=
  m.coSources.map fun s => descriptor s.sourceId s.url s.upstreamRef s.retrievedAtUtc s.sha256
    s.license s.upstreamCommittedAtUtc

/-! ## Loading -/

namespace SourceRow

/-- Whether both scores are present. -/
def scored (s : SourceRow) : Bool := s.homeScore.isSome && s.awayScore.isSome

/-- Declare a day-precision kickoff and derive completeness (`with_day_precision_kickoff`): the
date's midnight UTC is the only honest instant of a date-only source. -/
def withDayPrecisionKickoff (s : SourceRow) : MatchRow :=
  { matchId := some s.matchId
    date := some (.naive (midnight s.date))
    kickoffUtc := some (.aware (midnight s.date) 0)
    kickoffPrecision := "day"
    homeTeam := s.homeTeam
    awayTeam := s.awayTeam
    homeScore := s.homeScore.map Int.ofNat
    awayScore := s.awayScore.map Int.ofNat
    isComplete := some s.scored
    tournament := s.tournament
    city := s.city
    country := s.country
    neutral := some s.neutral
    htHomeScore := s.htHomeScore.map Int.ofNat
    htAwayScore := s.htAwayScore.map Int.ofNat }

end SourceRow

namespace MatchRow

/-- The calendar day of the row's `date` column. -/
def fixtureDay (r : MatchRow) : Option Int := r.date.map fun stamp => utcDay stamp.toUtc

/-- The row's fixture key, pipe-joined, with the given scope. -/
def fixtureKeyString (u : Unicode) (r : MatchRow) (scope : List String) :
    Option FixtureKeyString :=
  r.fixtureDay.map fun day => Golavo.fixtureKeyString u day r.homeTeam r.awayTeam scope

end MatchRow

/-- The kickoff an overlay gives a key: a later row of the file replaces an earlier one. -/
def overlayKickoff (u : Unicode) (overlay : List KickoffRow) (key : FixtureKeyString) :
    Option (Option Int) :=
  (overlay.filter fun k =>
    fixtureKeyString u k.date k.homeTeam k.awayTeam [k.tournament] = key).getLast?.map
      KickoffRow.kickoffUtc

/-- Replace a row's kickoff by the overlay's, where it has one. -/
def exactKickoff (u : Unicode) (overlay : List KickoffRow) (r : MatchRow) : MatchRow :=
  match (r.fixtureKeyString u [r.tournament]).bind (overlayKickoff u overlay) with
  | some kickoff =>
      { r with kickoffUtc := kickoff.map (Stamp.aware · 0), kickoffPrecision := "exact" }
  | none => r

/-- Splice the pack's exact kickoffs onto a frame (`apply_exact_kickoffs`). A file the manifest does
not declare must never move a seal window. -/
def applyExactKickoffs (u : Unicode) (p : Pack) (frame : MatchTable) :
    Except PackError MatchTable :=
  match p.kickoffs with
  | none => .ok frame
  | some overlay =>
      if "kickoffs.csv" ∈ p.manifest.files then
        .ok { frame with rows := frame.rows.map (exactKickoff u overlay) }
      else .error .undeclaredKickoffs

/-- Load a pack into the canonical match table (`load_matches`). -/
def loadMatches (u : Unicode) (p : Pack) : Except PackError MatchTable :=
  applyExactKickoffs u p ⟨{}, p.rows.map SourceRow.withDayPrecisionKickoff⟩

/-- A row as loading leaves it. -/
def loadedRow (u : Unicode) (p : Pack) (s : SourceRow) : MatchRow :=
  match p.kickoffs with
  | none => s.withDayPrecisionKickoff
  | some overlay => exactKickoff u overlay s.withDayPrecisionKickoff

/-- A loaded frame is its rows loaded one by one, under the columns every loader guarantees. -/
theorem loadMatches_ok {u : Unicode} {p : Pack} {frame : MatchTable}
    (h : loadMatches u p = .ok frame) : frame = ⟨{}, p.rows.map (loadedRow u p)⟩ := by
  unfold loadMatches applyExactKickoffs at h
  unfold loadedRow
  cases hk : p.kickoffs with
  | none =>
      rw [hk] at h
      exact (Except.ok.inj h).symm
  | some overlay =>
      simp only [hk] at h
      split_ifs at h
      rw [← Except.ok.inj h]
      simp

/-! ## What the overlay leaves alone -/

section Loaded

variable (u : Unicode) (overlay : List KickoffRow) (r : MatchRow)

/-- The overlay changes nothing but the kickoff and its precision. -/
theorem exactKickoff_eq : ∃ kickoff precision,
    exactKickoff u overlay r = { r with kickoffUtc := kickoff, kickoffPrecision := precision } := by
  unfold exactKickoff
  split
  · exact ⟨_, _, rfl⟩
  · exact ⟨r.kickoffUtc, r.kickoffPrecision, rfl⟩

end Loaded

/-- Loading leaves a row as its source has it, kickoff and precision apart. -/
theorem loadedRow_eq (u : Unicode) (p : Pack) (s : SourceRow) : ∃ kickoff precision,
    loadedRow u p s =
      { s.withDayPrecisionKickoff with kickoffUtc := kickoff, kickoffPrecision := precision } := by
  unfold loadedRow
  split
  · exact ⟨s.withDayPrecisionKickoff.kickoffUtc, s.withDayPrecisionKickoff.kickoffPrecision, rfl⟩
  · exact exactKickoff_eq u _ _

section LoadedFields

variable (u : Unicode) (p : Pack) (s : SourceRow)

@[simp] theorem loadedRow_matchId : (loadedRow u p s).matchId = some s.matchId := by
  obtain ⟨_, _, h⟩ := loadedRow_eq u p s
  rw [h]
  rfl

@[simp] theorem loadedRow_date : (loadedRow u p s).date = some (.naive (midnight s.date)) := by
  obtain ⟨_, _, h⟩ := loadedRow_eq u p s
  rw [h]
  rfl

@[simp] theorem loadedRow_homeTeam : (loadedRow u p s).homeTeam = s.homeTeam := by
  obtain ⟨_, _, h⟩ := loadedRow_eq u p s
  rw [h]
  rfl

@[simp] theorem loadedRow_awayTeam : (loadedRow u p s).awayTeam = s.awayTeam := by
  obtain ⟨_, _, h⟩ := loadedRow_eq u p s
  rw [h]
  rfl

@[simp] theorem loadedRow_tournament : (loadedRow u p s).tournament = s.tournament := by
  obtain ⟨_, _, h⟩ := loadedRow_eq u p s
  rw [h]
  rfl

@[simp] theorem loadedRow_isComplete : (loadedRow u p s).isComplete = some s.scored := by
  obtain ⟨_, _, h⟩ := loadedRow_eq u p s
  rw [h]
  rfl

@[simp] theorem loadedRow_neutral : (loadedRow u p s).neutral = some s.neutral := by
  obtain ⟨_, _, h⟩ := loadedRow_eq u p s
  rw [h]
  rfl

@[simp] theorem loadedRow_sourceId : (loadedRow u p s).sourceId = none := by
  obtain ⟨_, _, h⟩ := loadedRow_eq u p s
  rw [h]
  rfl

@[simp] theorem loadedRow_complete : (loadedRow u p s).complete = s.scored := by
  simp [MatchRow.complete]

end LoadedFields

/-! ## What a pack can hold -/

/-- What validating a pack promises of its cells: identities are not blank, and every day and kickoff
is one a frame can hold. -/
structure Pack.Representable (p : Pack) : Prop where
  named : ∀ s ∈ p.rows, s.matchId ≠ "" ∧ s.tournament ≠ "" ∧ s.homeTeam ≠ "" ∧ s.awayTeam ≠ ""
  dates : ∀ s ∈ p.rows, NanosecondInstant (midnight s.date)
  kickoffs : ∀ overlay ∈ p.kickoffs, ∀ k ∈ overlay, ∀ t ∈ k.kickoffUtc, NanosecondInstant t

/-- The kickoff of a loaded row is one a frame can hold. -/
theorem Pack.Representable.kickoff {p : Pack} (h : p.Representable) (u : Unicode) {s : SourceRow}
    (hs : s ∈ p.rows) {k : Stamp} (hk : (loadedRow u p s).kickoffUtc = some k) :
    NanosecondInstant k.toUtc := by
  have hday : ∀ k', s.withDayPrecisionKickoff.kickoffUtc = some k' →
      NanosecondInstant k'.toUtc := by
    intro k' hk'
    rw [← Option.some.inj hk', Stamp.toUtc_aware, sub_zero]
    exact h.dates s hs
  unfold loadedRow at hk
  split at hk
  · exact hday k hk
  · rename_i overlay hoverlay
    unfold exactKickoff at hk
    split at hk
    · rename_i kickoff hkickoff
      obtain ⟨key, -, hkey⟩ := Option.bind_eq_some_iff.mp hkickoff
      obtain ⟨row, hrow, rfl⟩ := Option.map_eq_some_iff.mp hkey
      obtain ⟨t, ht, rfl⟩ := Option.map_eq_some_iff.mp hk
      rw [Stamp.toUtc_aware, sub_zero]
      exact h.kickoffs overlay hoverlay row (List.mem_of_mem_filter (List.mem_of_getLast? hrow)) t ht
    · exact hday k hk

end Golavo.Ingest
