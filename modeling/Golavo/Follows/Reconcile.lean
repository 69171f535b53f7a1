import Golavo.Follows.Service

/-! # Reconciliation

Reconciling compares every active subscription with the index: by its match id, or, for a source with
stable keys, by its fixture key under whatever match id it has now. What changed becomes events, and
the subscription is moved to the fixture found. It is one transaction: if any row is refused, nothing
is kept. -/

namespace Golavo.Follows

open Golavo.Lib (Json failIf)
open Golavo.Ledger (Runtime)

/-! ## Lookups -/

/-- The index's row with a match id, the first if there are several (`_match_lookup`). -/
def matchLookup (frame : List IndexMatch) (matchId : String) : Option IndexMatch :=
  frame.find? (·.matchId = matchId)

/-- The index's only row of a source with a fixture key (`_upstream_lookup`). -/
def upstreamLookup (frame : List IndexMatch) (sourceId key : String) : Option IndexMatch :=
  match frame.filter fun m => m.sourceId = some sourceId ∧ m.upstreamFixtureKey = some key with
  | [m] => some m
  | _ => none

/-- Where a subscription's fixture was found. -/
inductive Lookup where
  | byMatchId (m : IndexMatch)
  | repointed (m : IndexMatch)
  | unresolved
  deriving DecidableEq

/-- Look a subscription's fixture up. -/
def lookup (frame : List IndexMatch) (row : FollowRow) : Lookup :=
  match matchLookup frame row.canonicalMatchId with
  | some m => .byMatchId m
  | none =>
      match row.upstreamFixtureKey with
      | some key =>
          if row.identitySourceId ∈ stableUpstreamKeySources ∧ key ≠ "" then
            match upstreamLookup frame row.identitySourceId key with
            | some m => .repointed m
            | none => .unresolved
          else .unresolved
      | none => .unresolved

/-! ## What changed -/

/-- What one reconciliation is given. -/
structure ReconcileRequest where
  frame : List IndexMatch
  indexFingerprint : String
  generationId : Option String
  sources : SourceTable
  /-- The artifacts that have a successor in the ledger. -/
  resolvedArtifacts : List String
  now : Int
  generationCommit : Option Bool
  order : ScanOrder

/-- A field of a snapshot, null where it has none. -/
def field (snapshot : Json) (key : String) : Json := (snapshot.get key).getD .null

/-- The source behind a group of a snapshot's fields (`_source_details`). -/
def detailSource (snapshot : Json) (group : String) : String :=
  match (snapshot.get "provenance").bind (·.get group) with
  | some (.str source) => source
  | _ => ((snapshot.get "source_id").bind Json.text?).getD ""

/-- A draft with the source behind a group of fields and what is known of it. -/
def draftOf (req : ReconcileRequest) (type : EventType) (snapshot : Json) (group : String) :
    EventDraft :=
  let source := detailSource snapshot group
  let status := req.sources.status source
  { eventType := type
    sourceId := source
    sourceRef := orText status.activeRef status.observedRef
    sourceCheckedAtUtc := status.lastCheckedAtUtc
    generationId := req.generationId }

/-- The event of a fixture that is not found. -/
def unresolvedDraft (req : ReconcileRequest) (row : FollowRow) : EventDraft :=
  { draftOf req .identityUnresolved row.currentSnapshot "identity" with
    before := some (.mk [("match_id", .str row.canonicalMatchId)])
    conflict := some (.mk [("reason", .str "no exact stable source identity")]) }

/-- The event of a fixture found under another match id. -/
def repointDraft (req : ReconcileRequest) (row : FollowRow) (current : Snapshot) : EventDraft :=
  { draftOf req .matchRepointed current.json "identity" with
    before := some (.mk [("match_id", .str row.canonicalMatchId)])
    after := some (.mk [("match_id", .str current.fixture.matchId)]) }

/-- The fields of a snapshot that an event compares. -/
def fieldsOf (snapshot : Json) (keys : List String) : Json :=
  .mk (keys.map fun key => (key, field snapshot key))

/-- What is compared: the event, the group of fields its source is read from, and the fields. -/
def comparisons : List (EventType × String × List String) :=
  [(.kickoffChanged, "kickoff", ["kickoff_utc", "kickoff_precision"]),
    (.venueChanged, "venue", ["city", "country"]),
    (.scorePublished, "result", ["home_score", "away_score", "is_complete"])]

/-- Whether a fixture has a result: complete, with both scores. -/
def IndexMatch.hasResult (m : IndexMatch) : Bool :=
  m.isComplete && m.homeScore.isSome && m.awayScore.isSome

/-- The events of what differs from the snapshot before. -/
def comparisonEvents (req : ReconcileRequest) (previous : Json) (current : Snapshot) :
    List EventDraft :=
  comparisons.filterMap fun c =>
    let before := fieldsOf previous c.2.2
    let after := fieldsOf current.json c.2.2
    if before = after ∨ (c.1 = .scorePublished ∧ current.fixture.hasResult = false) then none
    else some { draftOf req c.1 current.json c.2.1 with
      before := some before
      after := some after
      effectiveAtUtc := if c.1 = .kickoffChanged then current.fixture.kickoffUtc else none }

/-- The state of a subscription's data and the event its source's health makes. -/
def healthOf (req : ReconcileRequest) (row : FollowRow) (current : Snapshot) :
    DataState × Option EventType :=
  match (req.sources.status current.sourceId).health with
  | some "conflict" => (.sourceConflict, some .sourceConflict)
  | some "offline" | some "backoff" | some "invalid" | some "unavailable" =>
      (.sourceUnavailable, some .sourceUnavailable)
  | _ => (current.dataState,
      if row.dataState = .sourceConflict ∨ row.dataState = .sourceUnavailable then
        some .sourceRecovered
      else none)

/-- The event of a source's health. -/
def healthEvents (req : ReconcileRequest) (row : FollowRow) (current : Snapshot) :
    List EventDraft :=
  match healthOf req row current with
  | (state, some type) =>
      [{ draftOf req type current.json "identity" with
        before := some (.mk [("data_state", .str row.dataState.name)])
        after := some (.mk [("data_state", .str state.name)]) }]
  | (_, none) => []

/-- The seals linked to a fixture that no artifact resolves yet, sorted. -/
def pendingSeals (req : ReconcileRequest) (m : IndexMatch) : List String :=
  ((m.forecasts.filter fun f => (f.status = "sealed" ∨ f.status = "abstained") ∧ f.artifactId ≠ "" ∧
    f.artifactId ∉ req.resolvedArtifacts).map ForecastLink.artifactId).insertionSort (· ≤ ·)

/-- What a settlement would settle. -/
def availability (req : ReconcileRequest) (m : IndexMatch) : Json :=
  .mk [("sealed_artifact_ids", .arr ((pendingSeals req m).map Json.str)),
    ("home_score", nullable .int m.homeScore), ("away_score", nullable .int m.awayScore)]

/-- The event of a result that pending seals can be settled with, unless the store has it. -/
def settlementEvents (req : ReconcileRequest) (db : FollowDb) (row : FollowRow)
    (current : Snapshot) : List EventDraft :=
  let after := availability req current.fixture
  if (healthOf req row current).1 = .completed ∧ pendingSeals req current.fixture ≠ [] ∧
      ¬ db.events.any fun e => e.followId = row.followId && e.eventType = .settlementAvailable &&
        e.after = some after then
    [{ draftOf req .settlementAvailable current.json "result" with after := some after }]
  else []

/-! ## One subscription -/

/-- A subscription whose fixture is not found. -/
def unresolvedRow (req : ReconcileRequest) (row : FollowRow) : FollowRow :=
  { row with
    resolutionState := .identityUnresolved
    dataState := .stale
    lastGenerationId := req.generationId
    lastIndexFingerprint := some req.indexFingerprint
    lastObservedAtUtc := some req.now
    updatedAtUtc := req.now }

/-- A subscription moved to the fixture found. -/
def resolvedRow (req : ReconcileRequest) (row : FollowRow) (current : Snapshot) : FollowRow :=
  { row with
    canonicalMatchId := current.fixture.matchId
    resolutionState := .resolved
    dataState := (healthOf req row current).1
    identitySourceId := current.sourceId
    upstreamFixtureKey := current.fixture.upstreamFixtureKey
    currentSnapshot := current.json
    lastGenerationId := req.generationId
    lastIndexFingerprint := some req.indexFingerprint
    lastObservedAtUtc := some req.now
    updatedAtUtc := req.now }

/-- Record what changed of a fixture found and move the subscription to it. -/
def settleRow (rt : Runtime) (req : ReconcileRequest) (row : FollowRow) (db : FollowDb)
    (current : Snapshot) : Except FollowFailure FollowDb :=
  let db := db.insertEvents rt row.followId req.now
    (comparisonEvents req row.currentSnapshot current ++ healthEvents req row current)
  (db.insertEvents rt row.followId req.now (settlementEvents req db row current)).updateMatch
    (resolvedRow req row current)

/-- Reconcile one subscription. -/
def reconcileRow (rt : Runtime) (req : ReconcileRequest) (db : FollowDb) (row : FollowRow) :
    Except FollowFailure FollowDb :=
  match lookup req.frame row with
  | .unresolved =>
      (db.insertEvent rt row.followId req.now (unresolvedDraft req row)).updateMatch
        (unresolvedRow req row)
  | .byMatchId m => do
      let current ← snapshot m
      settleRow rt req row db current
  | .repointed m => do
      let current ← snapshot m
      -- it was found under another id, so the id did change
      let db := (db.insertEvent rt row.followId req.now (repointDraft req row current)).recordIdentity
        row.followId .matchId (some current.fixture.matchId) current.sourceId req.now
      settleRow rt req row db current

/-- Reconcile every active subscription with the index (`reconcile`). -/
def reconcile (rt : Runtime) (db : FollowDb) (req : ReconcileRequest) :
    Except FollowFailure FollowDb := do
  let db' ← (req.order.scan db.active).foldlM (reconcileRow rt req) db
  requireGeneration req.generationCommit
  return db'

end Golavo.Follows
