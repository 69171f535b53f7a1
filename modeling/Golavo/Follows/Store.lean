import Golavo.Ledger.Artifact
import Golavo.Lib.JsonText

/-! # The follow store

Followed matches are rows of a database: **subscriptions**, the source **identities** each was seen
under, and an append-only history of **events**. Only fixtures of approved sources enter it, and a
unique index keeps at most one active subscription per match. Snapshots and evidence are held by the
documents their texts read as, and a missing database as an empty one. -/

namespace Golavo.Follows

open Golavo.Lib (Json failIf orFail)
open Golavo.Ledger (Runtime)

def followSchemaVersion : String := "0.1.0"

/-! ## Sources -/

def martj42 : String := "martj42-international-results"

def worldcup : String := "openfootball-worldcup-json"

def football : String := "openfootball-football-json"

def domesticSourceIds : List String :=
  ["openfootball-england", "openfootball-deutschland", "openfootball-espana", "openfootball-italy",
    "openfootball-europe"]

def approvedSourceIds : List String := [martj42, worldcup, football] ++ domesticSourceIds

/-- The sources whose fixture keys survive a schedule edit. -/
def stableUpstreamKeySources : List String := [worldcup]

/-! ## Domains -/

inductive SubscriptionState where
  | active
  | unfollowed
  deriving DecidableEq, Repr

inductive ResolutionState where
  | resolved
  | identityUnresolved
  deriving DecidableEq, Repr

inductive DataState where
  | current
  | stale
  | sourceConflict
  | sourceUnavailable
  | completed
  deriving DecidableEq, Repr

def DataState.name : DataState → String
  | .current => "current"
  | .stale => "stale"
  | .sourceConflict => "source_conflict"
  | .sourceUnavailable => "source_unavailable"
  | .completed => "completed"

inductive IdentityKind where
  | matchId
  | upstreamFixtureKey
  deriving DecidableEq, Repr

inductive EventType where
  | followed
  | unfollowed
  | refollowed
  | matchRepointed
  | identityUnresolved
  | kickoffChanged
  | venueChanged
  | scorePublished
  | settlementAvailable
  | settlementRecorded
  | sourceRevisionAvailable
  | sourceConflict
  | sourceUnavailable
  | sourceRecovered
  deriving DecidableEq, Repr

def EventType.name : EventType → String
  | .followed => "followed"
  | .unfollowed => "unfollowed"
  | .refollowed => "refollowed"
  | .matchRepointed => "match_repointed"
  | .identityUnresolved => "identity_unresolved"
  | .kickoffChanged => "kickoff_changed"
  | .venueChanged => "venue_changed"
  | .scorePublished => "score_published"
  | .settlementAvailable => "settlement_available"
  | .settlementRecorded => "settlement_recorded"
  | .sourceRevisionAvailable => "source_revision_available"
  | .sourceConflict => "source_conflict"
  | .sourceUnavailable => "source_unavailable"
  | .sourceRecovered => "source_recovered"

/-- Whether an event may notify the user (`NOTIFIABLE_EVENTS`). -/
def EventType.notifiable : EventType → Bool
  | .followed | .unfollowed | .refollowed => false
  | _ => true

inductive NotificationStatus where
  | notEligible
  | pending
  | claimed
  | submitted
  | suppressedVisible
  | permissionDenied
  | failed
  deriving DecidableEq, Repr

/-! ## Fixtures -/

/-- A forecast linked to a fixture. -/
structure ForecastLink where
  artifactId : String
  status : String
  deriving DecidableEq, Repr

/-- A fixture as the match index shows it (`_row_to_dict`). -/
structure IndexMatch where
  matchId : String
  kickoffUtc : Option String
  kickoffPrecision : Option String
  homeTeam : Option String
  awayTeam : Option String
  homeScore : Option Int
  awayScore : Option Int
  competition : Option String
  country : Option String
  city : Option String
  neutral : Option Bool
  isComplete : Bool
  sourceKind : Option String
  sourceId : Option String
  upstreamFixtureKey : Option String
  /-- The source of each group of fields, by label. -/
  provenance : List (String × Option String)
  forecasts : List ForecastLink
  deriving DecidableEq, Repr

/-- A value, or null. -/
def nullable {α : Type} (f : α → Json) : Option α → Json
  | some a => f a
  | none => .null

/-- The fields a snapshot keeps of a fixture. -/
@[irreducible] def IndexMatch.snapshotJson (m : IndexMatch) : Json :=
  .mk [("match_id", .str m.matchId), ("kickoff_utc", nullable .str m.kickoffUtc),
    ("kickoff_precision", nullable .str m.kickoffPrecision),
    ("home_team", nullable .str m.homeTeam), ("away_team", nullable .str m.awayTeam),
    ("home_score", nullable .int m.homeScore), ("away_score", nullable .int m.awayScore),
    ("competition", nullable .str m.competition), ("country", nullable .str m.country),
    ("city", nullable .str m.city), ("neutral", nullable .bool m.neutral),
    ("is_complete", .bool m.isComplete), ("source_kind", nullable .str m.sourceKind),
    ("source_id", nullable .str m.sourceId),
    ("upstream_fixture_key", nullable .str m.upstreamFixtureKey),
    ("provenance", .mk (m.provenance.map fun p => (p.1, nullable .str p.2)))]

/-- What a follow operation fails with. -/
inductive FollowFailure where
  | unsupportedFollowSource
  | indexGenerationChanged
  | followNotFound
  | invalidEventSelection
  | invalidNotificationStatus
  | followEventNotFound
  /-- The database refuses a row: a key or the unique index is violated. -/
  | integrityError
  deriving DecidableEq, Repr

/-- The reason a failure reports; the database's own error has none. -/
def FollowFailure.reasonCode : FollowFailure → Option String
  | .unsupportedFollowSource => some "unsupported_follow_source"
  | .indexGenerationChanged => some "index_generation_changed"
  | .followNotFound => some "follow_not_found"
  | .invalidEventSelection => some "invalid_event_selection"
  | .invalidNotificationStatus => some "invalid_notification_status"
  | .followEventNotFound => some "follow_event_not_found"
  | .integrityError => none

/-- A fixture of an approved source. -/
structure Snapshot where
  fixture : IndexMatch
  sourceId : String
  source_eq : fixture.sourceId = some sourceId
  approved : sourceId ∈ approvedSourceIds

def Snapshot.json (s : Snapshot) : Json := s.fixture.snapshotJson

/-- Take a fixture's snapshot; its source must be approved (`_snapshot`). -/
def snapshot (m : IndexMatch) : Except FollowFailure Snapshot :=
  match h : m.sourceId with
  | some source =>
      if ha : source ∈ approvedSourceIds then .ok ⟨m, source, h, ha⟩
      else .error .unsupportedFollowSource
  | none => .error .unsupportedFollowSource

/-- A fixture's snapshot is taken exactly when its source is approved. -/
theorem snapshot_ok_iff {m : IndexMatch} {s : Snapshot} :
    snapshot m = .ok s ↔ s.fixture = m := by
  unfold snapshot
  constructor
  · intro h
    split at h
    · split_ifs at h
      rw [← Except.ok.inj h]
    · cases h
  · rintro rfl
    obtain ⟨fixture, source, heq, happroved⟩ := s
    dsimp only
    split
    · rename_i other hother
      obtain rfl := Option.some.inj (heq.symm.trans hother)
      rw [dif_pos happroved]
    · rename_i hnone
      cases heq.symm.trans hnone

/-! ## Rows -/

/-- A subscription. -/
structure FollowRow where
  followId : String
  subscriptionState : SubscriptionState
  resolutionState : ResolutionState
  dataState : DataState
  canonicalMatchId : String
  identitySourceId : String
  upstreamFixtureKey : Option String
  initialSnapshot : Json
  currentSnapshot : Json
  lastGenerationId : Option String
  lastIndexFingerprint : Option String
  createdAtUtc : Int
  updatedAtUtc : Int
  unfollowedAtUtc : Option Int
  lastObservedAtUtc : Option Int
  deriving DecidableEq, Repr

/-- An identity a subscription was seen under, with the source that first gave it. -/
structure IdentityRow where
  followId : String
  kind : IdentityKind
  value : String
  sourceId : String
  firstSeenAtUtc : Int
  lastSeenAtUtc : Int
  deriving DecidableEq, Repr

/-- An event of a subscription's history. -/
structure FollowEvent where
  eventId : String
  followId : String
  eventType : EventType
  detectedAtUtc : Int
  effectiveAtUtc : Option String
  sourceId : String
  sourceRef : Option String
  sourceCheckedAtUtc : Option String
  generationId : Option String
  before : Option Json
  after : Option Json
  conflict : Option Json
  readAtUtc : Option Int
  notificationStatus : NotificationStatus
  notificationBatchId : Option String
  notificationUpdatedAtUtc : Option Int
  notificationError : Option String
  deriving DecidableEq, Repr

/-- The follow database. -/
structure FollowDb where
  followedMatches : List FollowRow
  identities : List IdentityRow
  events : List FollowEvent
  /-- Whether the user wants notifications, once they said so. -/
  notificationsOptIn : Option Bool
  deriving DecidableEq, Repr

/-- A database nothing was written to. -/
def emptyDb : FollowDb := ⟨[], [], [], none⟩

def FollowRow.isActive (r : FollowRow) : Bool := r.subscriptionState = .active

/-- The active subscriptions. -/
def FollowDb.active (db : FollowDb) : List FollowRow := db.followedMatches.filter FollowRow.isActive

/-- Whether a row would be a second active subscription for its match
(`one_active_follow_per_match`). -/
def FollowDb.violatesActive (db : FollowDb) (r : FollowRow) : Bool :=
  r.isActive && db.active.any fun other =>
    other.followId ≠ r.followId && other.canonicalMatchId = r.canonicalMatchId

/-- Insert a subscription. -/
def FollowDb.insertMatch (db : FollowDb) (r : FollowRow) : Except FollowFailure FollowDb := do
  failIf (r.followId ∈ db.followedMatches.map FollowRow.followId) .integrityError
  failIf (db.violatesActive r) .integrityError
  return { db with followedMatches := db.followedMatches ++ [r] }

/-- Put a subscription in place of the one with its id. -/
def FollowDb.replaceMatch (db : FollowDb) (r : FollowRow) : FollowDb :=
  { db with followedMatches := db.followedMatches.map fun old => if old.followId = r.followId then r else old }

/-- Update a subscription. -/
def FollowDb.updateMatch (db : FollowDb) (r : FollowRow) : Except FollowFailure FollowDb := do
  failIf (db.violatesActive r) .integrityError
  return db.replaceMatch r

/-- The subscription with an id. -/
def FollowDb.find (db : FollowDb) (followId : String) : Option FollowRow :=
  db.followedMatches.find? (·.followId = followId)

/-- Record an identity, or when it was last seen; the source that first gave it stays (`_identity`). -/
def FollowDb.recordIdentity (db : FollowDb) (followId : String) (kind : IdentityKind)
    (value : Option String) (sourceId : String) (now : Int) : FollowDb :=
  match value with
  | none => db
  | some v =>
      if v = "" then db
      else if db.identities.any fun i => i.followId = followId && i.kind = kind && i.value = v then
        { db with identities := db.identities.map fun i =>
            if i.followId = followId && i.kind = kind && i.value = v then
              { i with lastSeenAtUtc := now } else i }
      else { db with identities := db.identities ++ [⟨followId, kind, v, sourceId, now, now⟩] }

/-! ## Events -/

/-- What an event is made from. -/
structure EventDraft where
  eventType : EventType
  sourceId : String
  sourceRef : Option String
  sourceCheckedAtUtc : Option String
  generationId : Option String
  before : Option Json := none
  after : Option Json := none
  conflict : Option Json := none
  effectiveAtUtc : Option String := none

/-- The canonical text of a value or of its absence. -/
def canonicalText (value : Option Json) : List Char := Json.dumps (value.getD .null)

/-- Python's `a or b` on optional texts: the first where it is not empty. -/
def orText (a b : Option String) : Option String :=
  match a with
  | some s => if s = "" then b else some s
  | none => b

/-- The id of an event: a digest of its content (`_event_id`). -/
def eventId (rt : Runtime) (followId : String) (d : EventDraft) : String :=
  "fe_" ++ rt.sha256 (List.intercalate ['\n']
    [followSchemaVersion.toList, followId.toList, d.eventType.name.toList, d.sourceId.toList,
      ((orText d.sourceRef (orText d.generationId (some "local"))).getD "").toList,
      canonicalText d.before, canonicalText d.after, canonicalText d.conflict])

/-- The event a draft becomes. -/
def EventDraft.toEvent (rt : Runtime) (db : FollowDb) (followId : String) (d : EventDraft)
    (now : Int) : FollowEvent where
  eventId := eventId rt followId d
  followId := followId
  eventType := d.eventType
  detectedAtUtc := now
  effectiveAtUtc := d.effectiveAtUtc
  sourceId := d.sourceId
  sourceRef := d.sourceRef
  sourceCheckedAtUtc := d.sourceCheckedAtUtc
  generationId := d.generationId
  before := d.before
  after := d.after
  conflict := d.conflict
  readAtUtc := none
  notificationStatus :=
    if d.eventType.notifiable ∧ db.notificationsOptIn = some true then .pending else .notEligible
  notificationBatchId := none
  notificationUpdatedAtUtc := none
  notificationError := none

/-- Append an event, unless one with its id is there (`_insert_event`). -/
def FollowDb.insertEvent (rt : Runtime) (db : FollowDb) (followId : String) (now : Int)
    (d : EventDraft) : FollowDb :=
  let e := d.toEvent rt db followId now
  if e.eventId ∈ db.events.map FollowEvent.eventId then db
  else { db with events := db.events ++ [e] }

/-- Append events in order. -/
def FollowDb.insertEvents (rt : Runtime) (db : FollowDb) (followId : String) (now : Int)
    (ds : List EventDraft) : FollowDb :=
  ds.foldl (fun db d => db.insertEvent rt followId now d) db

end Golavo.Follows
