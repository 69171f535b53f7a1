import Golavo.Follows.Store
import Mathlib.Data.List.Sort

/-! # The follow service

The operations on the follow store, each one transaction: following and unfollowing, notifications,
and the events that source checks, conflicts and settlements leave. -/

namespace Golavo.Follows

open Golavo.Lib (Json failIf orFail)
open Golavo.Ledger (Runtime)

/-- The order in which a query that names none delivers its rows. -/
structure ScanOrder where
  scan : List FollowRow → List FollowRow
  perm : ∀ rows, (scan rows).Perm rows

/-- Rows in the order they were inserted. -/
def ScanOrder.insertion : ScanOrder := ⟨id, fun _ => .refl _⟩

/-- Where a generation check stands when an operation is about to be committed. -/
def requireGeneration (commit : Option Bool) : Except FollowFailure Unit :=
  failIf (commit = some false) .indexGenerationChanged

/-! ## Following -/

/-- The subscription a follow finds: of those for the match, the one created last. -/
def FollowDb.existing (db : FollowDb) (order : ScanOrder) (matchId : String) : Option FollowRow :=
  ((order.scan (db.followedMatches.filter (·.canonicalMatchId = matchId))).insertionSort
    (fun a b => b.createdAtUtc ≤ a.createdAtUtc)).head?

/-- What a follow call carries besides the fixture. -/
structure FollowRequest where
  fixture : IndexMatch
  sourceRef : Option String
  sourceCheckedAtUtc : Option String
  generationId : Option String
  indexFingerprint : Option String
  /-- The id a new subscription gets. -/
  newId : String
  now : Int
  /-- What the generation check says, where there is one. -/
  generationCommit : Option Bool
  order : ScanOrder

/-- The state of a fixture's data when it is followed. -/
def Snapshot.dataState (s : Snapshot) : DataState :=
  if s.fixture.isComplete then .completed else .current

/-- A subscription followed again. -/
def refollowed (s : Snapshot) (req : FollowRequest) (old : FollowRow) : FollowRow :=
  { old with
    subscriptionState := .active
    resolutionState := .resolved
    dataState := s.dataState
    currentSnapshot := s.json
    identitySourceId := s.sourceId
    upstreamFixtureKey := s.fixture.upstreamFixtureKey
    lastGenerationId := req.generationId
    lastIndexFingerprint := req.indexFingerprint
    updatedAtUtc := req.now
    unfollowedAtUtc := none
    lastObservedAtUtc := some req.now }

/-- A new subscription. -/
def newFollow (s : Snapshot) (req : FollowRequest) : FollowRow where
  followId := req.newId
  subscriptionState := .active
  resolutionState := .resolved
  dataState := s.dataState
  canonicalMatchId := s.fixture.matchId
  identitySourceId := s.sourceId
  upstreamFixtureKey := s.fixture.upstreamFixtureKey
  initialSnapshot := s.json
  currentSnapshot := s.json
  lastGenerationId := req.generationId
  lastIndexFingerprint := req.indexFingerprint
  createdAtUtc := req.now
  updatedAtUtc := req.now
  unfollowedAtUtc := none
  lastObservedAtUtc := some req.now

/-- Record the identities a fixture was followed under. -/
def FollowDb.recordIdentities (db : FollowDb) (followId : String) (s : Snapshot) (now : Int) :
    FollowDb :=
  let db := db.recordIdentity followId .matchId (some s.fixture.matchId) s.sourceId now
  if s.sourceId ∈ stableUpstreamKeySources then
    db.recordIdentity followId .upstreamFixtureKey s.fixture.upstreamFixtureKey s.sourceId now
  else db

/-- The event of a follow. -/
def followDraft (type : EventType) (s : Snapshot) (req : FollowRequest) : EventDraft where
  eventType := type
  sourceId := s.sourceId
  sourceRef := req.sourceRef
  sourceCheckedAtUtc := req.sourceCheckedAtUtc
  generationId := req.generationId
  after := some s.json

/-- Follow a fixture (`follow_match`); the answer is the subscription's id and whether it was made or
woken. -/
def followMatch (rt : Runtime) (db : FollowDb) (req : FollowRequest) :
    Except FollowFailure (FollowDb × String × Bool) := do
  let s ← snapshot req.fixture
  match db.existing req.order s.fixture.matchId with
  | some old =>
      if old.isActive then do
        requireGeneration req.generationCommit
        return (db, old.followId, false)
      else do
        let db ← db.updateMatch (refollowed s req old)
        requireGeneration req.generationCommit
        return ((db.recordIdentities old.followId s req.now).insertEvent rt old.followId req.now
          (followDraft .refollowed s req), old.followId, true)
  | none => do
      let db ← db.insertMatch (newFollow s req)
      requireGeneration req.generationCommit
      return ((db.recordIdentities req.newId s req.now).insertEvent rt req.newId req.now
        (followDraft .followed s req), req.newId, true)

/-- The event of an unfollow. -/
def unfollowDraft (row : FollowRow) : EventDraft where
  eventType := .unfollowed
  sourceId := row.identitySourceId
  sourceRef := none
  sourceCheckedAtUtc := none
  generationId := row.lastGenerationId
  before := some row.currentSnapshot

/-- Stop following (`unfollow`); the history stays. -/
def unfollow (rt : Runtime) (db : FollowDb) (followId : String) (now : Int) :
    Except FollowFailure FollowDb := do
  let row ← orFail .followNotFound (db.find followId)
  if row.isActive then
    let db ← db.updateMatch { row with
      subscriptionState := .unfollowed, updatedAtUtc := now, unfollowedAtUtc := some now }
    return db.insertEvent rt followId now (unfollowDraft row)
  else return db

/-! ## Notifications -/

/-- Say whether notifications are wanted (`update_settings`). -/
def updateSettings (db : FollowDb) (optIn : Bool) : FollowDb :=
  { db with notificationsOptIn := some optIn }

/-- Mark events as read (`mark_read`): all of them, or those named. -/
def markRead (db : FollowDb) (eventIds : List String) (allEvents : Bool) (now : Int) :
    Except FollowFailure FollowDb := do
  failIf (allEvents = false ∧ eventIds = []) .invalidEventSelection
  return { db with events := db.events.map fun e =>
    if if allEvents then e.readAtUtc.isNone else e.eventId ∈ eventIds then
      { e with readAtUtc := some now } else e }

/-- The events a claim takes: the pending ones detected first, by id where that is equal. -/
def FollowDb.claimable (db : FollowDb) (limit : Nat) : List String :=
  let pending := db.events.filter (·.notificationStatus = .pending)
  let sorted := pending.insertionSort fun a b =>
    a.detectedAtUtc < b.detectedAtUtc ∨ (a.detectedAtUtc = b.detectedAtUtc ∧ a.eventId ≤ b.eventId)
  (sorted.take (max 1 (min limit 100))).map FollowEvent.eventId

/-- Claim pending notifications (`claim_notifications`); the answer is the ids claimed. -/
def claimNotifications (db : FollowDb) (limit : Nat) (batchId : String) (now : Int) :
    FollowDb × List String :=
  if db.notificationsOptIn = some true then
    let ids := db.claimable limit
    ({ db with events := db.events.map fun e =>
        if e.notificationStatus = .pending ∧ e.eventId ∈ ids then
          { e with
            notificationStatus := .claimed
            notificationBatchId := some batchId
            notificationUpdatedAtUtc := some now }
        else e }, ids)
  else (db, [])

/-- Report what became of a notification (`update_notification`). -/
def updateNotification (db : FollowDb) (eventId : String) (status : NotificationStatus)
    (error : Option String) (now : Int) : Except FollowFailure FollowDb := do
  failIf (status = .pending ∨ status = .claimed ∨ status = .notEligible) .invalidNotificationStatus
  failIf (eventId ∉ db.events.map FollowEvent.eventId) .followEventNotFound
  return { db with events := db.events.map fun e =>
    if e.eventId = eventId then
      { e with
        notificationStatus := status
        notificationUpdatedAtUtc := some now
        notificationError := error }
    else e }

/-- Remove the history (`remove_history`). -/
def removeHistory (_ : FollowDb) : FollowDb := emptyDb

/-! ## Source checks and settlements -/

/-- What is known of a source. -/
structure SourceStatus where
  health : Option String
  activeRef : Option String
  observedRef : Option String
  lastCheckedAtUtc : Option String
  deriving DecidableEq, Repr

/-- What is known of each source. -/
abbrev SourceTable := List (String × SourceStatus)

/-- A source's status; nothing is known of one the table does not list. -/
def SourceTable.status (sources : SourceTable) (sourceId : String) : SourceStatus :=
  (sources.lookup sourceId).getD ⟨none, none, none, none⟩

/-- The event of a source's newer revision. -/
def revisionDraft (row : FollowRow) (status : SourceStatus) (observed : String) : EventDraft where
  eventType := .sourceRevisionAvailable
  sourceId := row.identitySourceId
  sourceRef := some observed
  sourceCheckedAtUtc := status.lastCheckedAtUtc
  generationId := none
  before := some (.mk [("active_ref", nullable .str status.activeRef)])
  after := some (.mk [("observed_ref", .str observed)])

/-- The revision event of one subscription, if its source was checked and has moved. -/
def revisionEvents (selected : List String) (sources : SourceTable) (row : FollowRow) :
    List EventDraft :=
  let status := sources.status row.identitySourceId
  match status.observedRef with
  | some observed =>
      if row.identitySourceId ∈ selected ∧ observed ≠ "" ∧ status.observedRef ≠ status.activeRef then
        [revisionDraft row status observed]
      else []
  | none => []

/-- Record newer revisions (`record_source_revisions`). -/
def recordSourceRevisions (rt : Runtime) (db : FollowDb) (order : ScanOrder)
    (selected : List String) (sources : SourceTable) (now : Int) : FollowDb :=
  (order.scan db.active).foldl (fun db row =>
    db.insertEvents rt row.followId now (revisionEvents selected sources row)) db

/-- A quarantined candidate that conflicts with a followed fixture. -/
structure ConflictDetail where
  matchId : String
  /-- The whole of it, an object. -/
  detail : Json
  isObj : detail.isObj = true
  matchId_eq : detail.get "match_id" = some (.str matchId)

/-- The event of a conflict. -/
def conflictDraft (row : FollowRow) (status : SourceStatus) (c : ConflictDetail) : EventDraft where
  eventType := .sourceConflict
  sourceId := row.identitySourceId
  sourceRef := orText status.observedRef status.activeRef
  sourceCheckedAtUtc := status.lastCheckedAtUtc
  generationId := none
  before := some row.currentSnapshot
  conflict := some c.detail

/-- Record one conflict at the active subscription for its match. -/
def recordConflict (rt : Runtime) (sources : SourceTable) (now : Int) (db : FollowDb)
    (c : ConflictDetail) : Except FollowFailure FollowDb :=
  match db.active.find? (·.canonicalMatchId = c.matchId) with
  | none => .ok db
  | some row => (db.insertEvent rt row.followId now
      (conflictDraft row (sources.status row.identitySourceId) c)).updateMatch
        { row with
          dataState := .sourceConflict, updatedAtUtc := now, lastObservedAtUtc := some now }

/-- Record conflicts (`record_conflicts`). -/
def recordConflicts (rt : Runtime) (db : FollowDb) (details : List ConflictDetail)
    (sources : SourceTable) (now : Int) : Except FollowFailure FollowDb :=
  details.foldlM (recordConflict rt sources now) db

/-- A settlement the settlement service made. -/
structure SettledItem where
  sealedArtifactId : String
  scoredArtifactId : String
  homeTeam : String
  awayTeam : String
  sourceId : String
  /-- The service names an approved source and both artifacts. -/
  approved : sourceId ∈ approvedSourceIds
  sealed_ne : sealedArtifactId ≠ ""
  scored_ne : scoredArtifactId ≠ ""

/-- Whether a settlement is of the fixture a snapshot shows. -/
def SettledItem.matchesSnapshot (item : SettledItem) (snapshot : Json) : Bool :=
  snapshot.get "home_team" = some (.str item.homeTeam) &&
    snapshot.get "away_team" = some (.str item.awayTeam)

/-- The event of a settlement. -/
def settledDraft (row : FollowRow) (checkedAtUtc : Option String) (item : SettledItem) :
    EventDraft where
  eventType := .settlementRecorded
  sourceId := item.sourceId
  sourceRef := some item.scoredArtifactId
  sourceCheckedAtUtc := checkedAtUtc
  generationId := row.lastGenerationId
  after := some (.mk [("sealed_artifact_id", .str item.sealedArtifactId),
    ("scored_artifact_id", .str item.scoredArtifactId)])

/-- Record settlements at the subscriptions of their fixtures (`record_settlement_report`). -/
def recordSettlementReport (rt : Runtime) (db : FollowDb) (order : ScanOrder)
    (scored : List SettledItem) (checkedAtUtc : Option String) (now : Int) : FollowDb :=
  (order.scan db.active).foldl (fun db row => db.insertEvents rt row.followId now
    ((scored.filter (·.matchesSnapshot row.currentSnapshot)).map
      (settledDraft row checkedAtUtc))) db

end Golavo.Follows
