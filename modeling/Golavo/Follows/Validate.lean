import Golavo.Follows.Store
import Golavo.Lib.Depth
import Golavo.Clock

/-! # Checking a follow database

What an archive demands of a follow database before it is exported or restored: references between
the tables, approved sources, snapshots of the right shape that agree with their rows and with a
recorded identity, and evidence of the shape its event needs. The domains of the enumerated columns
are the types of the rows. -/

namespace Golavo.Follows

open Golavo.Lib (Json failIf)

/-- What a check raises: a rejection with its message, or Python's refusal to hash a list or an
object. -/
inductive CheckError where
  | value (message : String)
  | unhashable
  deriving DecidableEq, Repr

/-! ## Values -/

def maxJsonDepth : Nat := 64

/-- Refuse a value that nests too deep (`_check_depth`). -/
def checkDepth (v : Json) : Except CheckError Unit :=
  failIf (maxJsonDepth < v.depth) (.value "JSON nesting exceeds 64 levels")

/-- Python cannot hash a list or an object. -/
def isUnhashable : Option Json → Bool
  | some (.arr _) | some (.obj _) => true
  | _ => false

def isText : Option Json → Bool
  | some (.str _) => true
  | _ => false

def isNonemptyText : Option Json → Bool
  | some (.str s) => s ≠ ""
  | _ => false

def isTextOrNull : Option Json → Bool
  | some .null => true
  | v => isText v

def isBoolean : Option Json → Bool
  | some (.bool _) => true
  | _ => false

def isBooleanOrNull : Option Json → Bool
  | some .null => true
  | v => isBoolean v

/-- A score: a whole number, not negative. -/
def isScore : Option Json → Bool
  | some (.int z) => 0 ≤ z
  | _ => false

def isScoreOrNull : Option Json → Bool
  | some .null => true
  | v => isScore v

/-- An approved source. -/
def isApproved : Option Json → Bool
  | some (.str s) => s ∈ approvedSourceIds
  | _ => false

/-- A timestamp with an offset, or null. -/
def isKickoff : Option Json → Bool
  | some .null => true
  | some (.str s) => match readStamp s with
      | some (.aware _ _) => true
      | _ => false
  | _ => false

/-- An object whose values are approved sources or null. -/
def isProvenance : Option Json → Bool
  | some (.obj fields) => fields.all fun f => f.2 = .null || isApproved (some f.2)
  | _ => false

/-! ## Snapshots -/

def snapshotFields : List String :=
  ["match_id", "kickoff_utc", "kickoff_precision", "home_team", "away_team", "home_score",
    "away_score", "competition", "country", "city", "neutral", "is_complete", "source_kind",
    "source_id", "upstream_fixture_key", "provenance"]

def snapshotTextFields : List String :=
  ["kickoff_precision", "home_team", "away_team", "competition", "country", "city", "source_kind",
    "upstream_fixture_key"]

def snapshotMessage : String := "follow history contains an invalid match snapshot"

/-- `_validate_snapshot`. -/
def validateSnapshot (v : Json) : Except CheckError Unit := do
  failIf (v.hasExactly snapshotFields = false) (.value snapshotMessage)
  failIf (isNonemptyText (v.get "match_id") = false) (.value snapshotMessage)
  failIf (isUnhashable (v.get "source_id") = true) .unhashable
  failIf (isApproved (v.get "source_id") = false) (.value snapshotMessage)
  failIf (isBoolean (v.get "is_complete") = false) (.value snapshotMessage)
  failIf (∃ key ∈ snapshotTextFields, isTextOrNull (v.get key) = false) (.value snapshotMessage)
  failIf (isKickoff (v.get "kickoff_utc") = false) (.value snapshotMessage)
  failIf (∃ key ∈ ["home_score", "away_score"], isScoreOrNull (v.get key) = false)
    (.value snapshotMessage)
  failIf (isBooleanOrNull (v.get "neutral") = false) (.value snapshotMessage)
  failIf (isProvenance (v.get "provenance") = false) (.value snapshotMessage)

/-- The text under a key, empty where there is none. -/
def textAt (v : Json) (key : String) : String := ((v.get key).bind Json.text?).getD ""

/-- The sources an identity is recorded under. -/
def sourcesOf (identities : List IdentityRow) (kind : IdentityKind) (value : String) :
    List String :=
  (identities.filter fun i => i.kind = kind ∧ i.value = value).map IdentityRow.sourceId

def identityMessage : String := "follow history snapshot does not match its recorded identity"

/-- `_snapshot_matches_follow_identity`. -/
def snapshotMatchesFollowIdentity (v : Json) (identities : List IdentityRow) :
    Except CheckError Unit := do
  let source := textAt v "source_id"
  failIf (source ∉ sourcesOf identities .matchId (textAt v "match_id")) (.value identityMessage)
  if source ∈ stableUpstreamKeySources ∧ v.get "upstream_fixture_key" ≠ some .null then
    failIf (source ∉ sourcesOf identities .upstreamFixtureKey (textAt v "upstream_fixture_key"))
      (.value identityMessage)

/-- A snapshot that is valid and of a recorded identity. -/
def validateIdentified (v : Json) (identities : List IdentityRow) : Except CheckError Unit := do
  validateSnapshot v
  snapshotMatchesFollowIdentity v identities

/-! ## Evidence -/

def evidenceMessage : String := "follow history contains invalid event evidence"

/-- `_require_shape`. -/
def requireShape (v : Json) (fields : List String) : Except CheckError Unit :=
  failIf (v.hasExactly fields = false) (.value evidenceMessage)

def evidenceIdentityMessage : String := "follow event evidence does not match its recorded identity"

/-- Evidence of a match id that is recorded for the subscription. -/
def validateKnownMatchId (v : Json) (identities : List IdentityRow) : Except CheckError Unit :=
  failIf (isText (v.get "match_id") = false ∨
      sourcesOf identities .matchId (textAt v "match_id") = [])
    (.value evidenceIdentityMessage)

/-- Evidence of a fixture that was not found. -/
def validateUnresolved (identities : List IdentityRow) (before after conflict : Json) :
    Except CheckError Unit := do
  requireShape before ["match_id"]
  requireShape conflict ["reason"]
  failIf (after ≠ .null ∨ isText (before.get "match_id") = false ∨
    conflict.get "reason" ≠ some (.str "no exact stable source identity")) (.value evidenceMessage)
  validateKnownMatchId before identities

/-- Evidence of a fixture found under another match id. -/
def validateRepointed (identities : List IdentityRow) (before after : Json) :
    Except CheckError Unit := do
  requireShape before ["match_id"]
  requireShape after ["match_id"]
  validateKnownMatchId before identities
  validateKnownMatchId after identities

/-- Evidence of changed fields, all of which pass a test. -/
def validateComparison (fields : List String) (test : Option Json → Bool) (before after : Json) :
    Except CheckError Unit := do
  requireShape before fields
  requireShape after fields
  failIf (∃ v ∈ [before, after], ∃ key ∈ fields, test (v.get key) = false) (.value evidenceMessage)

/-- Evidence of a published score. -/
def validateScore (before after : Json) : Except CheckError Unit := do
  requireShape before ["home_score", "away_score", "is_complete"]
  requireShape after ["home_score", "away_score", "is_complete"]
  failIf (∃ v ∈ [before, after], isScoreOrNull (v.get "home_score") = false ∨
    isScoreOrNull (v.get "away_score") = false ∨ isBoolean (v.get "is_complete") = false)
    (.value evidenceMessage)

def dataStateNames : List String :=
  ["current", "stale", "source_conflict", "source_unavailable", "completed"]

/-- Whether a value names a data state. -/
def isDataState : Option Json → Bool
  | some (.str s) => s ∈ dataStateNames
  | _ => false

/-- Evidence of a change of data state. -/
def validateHealth (before after : Json) : Except CheckError Unit := do
  requireShape before ["data_state"]
  requireShape after ["data_state"]
  failIf (isUnhashable (before.get "data_state") = true) .unhashable
  failIf (isDataState (before.get "data_state") = false) (.value evidenceMessage)
  failIf (isUnhashable (after.get "data_state") = true) .unhashable
  failIf (isDataState (after.get "data_state") = false) (.value evidenceMessage)

/-- Evidence of a newer revision. -/
def validateRevision (before after : Json) : Except CheckError Unit := do
  requireShape before ["active_ref"]
  requireShape after ["observed_ref"]
  failIf (isTextOrNull (before.get "active_ref") = false ∨
    isTextOrNull (after.get "observed_ref") = false) (.value evidenceMessage)

/-- A list of texts. -/
def isTextList : Option Json → Bool
  | some (.arr items) => items.all fun item => isText (some item)
  | _ => false

/-- Evidence of a result that pending seals can be settled with. -/
def validateAvailability (before after : Json) : Except CheckError Unit := do
  failIf (before ≠ .null) (.value evidenceMessage)
  requireShape after ["sealed_artifact_ids", "home_score", "away_score"]
  failIf (isTextList (after.get "sealed_artifact_ids") = false ∨
    isScore (after.get "home_score") = false ∨ isScore (after.get "away_score") = false)
    (.value evidenceMessage)

/-- Evidence of a settlement. -/
def validateSettled (before after : Json) : Except CheckError Unit := do
  failIf (before ≠ .null) (.value evidenceMessage)
  requireShape after ["sealed_artifact_id", "scored_artifact_id"]
  failIf (isNonemptyText (after.get "sealed_artifact_id") = false ∨
    isNonemptyText (after.get "scored_artifact_id") = false) (.value evidenceMessage)

/-- `_validate_event_evidence`: null where a column holds nothing. -/
def validateEventEvidence (identities : List IdentityRow) (type : EventType)
    (before after conflict : Json) : Except CheckError Unit :=
  match type with
  | .followed | .refollowed => do
      failIf (before ≠ .null ∨ conflict ≠ .null) (.value evidenceMessage)
      validateIdentified after identities
  | .unfollowed => do
      failIf (after ≠ .null ∨ conflict ≠ .null) (.value evidenceMessage)
      validateIdentified before identities
  | .identityUnresolved => validateUnresolved identities before after conflict
  | .sourceConflict =>
      if conflict ≠ .null then do
        failIf (after ≠ .null ∨ conflict.isObj = false) (.value evidenceMessage)
        validateIdentified before identities
      else validateHealth before after
  | type => do
      failIf (conflict ≠ .null) (.value evidenceMessage)
      match type with
      | .matchRepointed => validateRepointed identities before after
      | .kickoffChanged =>
          validateComparison ["kickoff_utc", "kickoff_precision"] isTextOrNull before after
      | .venueChanged => validateComparison ["city", "country"] isTextOrNull before after
      | .scorePublished => validateScore before after
      | .sourceRevisionAvailable => validateRevision before after
      | .settlementAvailable => validateAvailability before after
      | .settlementRecorded => validateSettled before after
      | _ => validateHealth before after

/-! ## The database -/

/-- The identities of one subscription. -/
def FollowDb.identitiesOf (db : FollowDb) (followId : String) : List IdentityRow :=
  db.identities.filter (·.followId = followId)

/-- Check one subscription. -/
def validateFollowRow (db : FollowDb) (r : FollowRow) : Except CheckError Unit := do
  checkDepth r.initialSnapshot
  validateSnapshot r.initialSnapshot
  checkDepth r.currentSnapshot
  validateSnapshot r.currentSnapshot
  snapshotMatchesFollowIdentity r.initialSnapshot (db.identitiesOf r.followId)
  snapshotMatchesFollowIdentity r.currentSnapshot (db.identitiesOf r.followId)
  failIf (r.currentSnapshot.get "match_id" ≠ some (.str r.canonicalMatchId) ∨
      r.currentSnapshot.get "source_id" ≠ some (.str r.identitySourceId) ∨
      r.currentSnapshot.get "upstream_fixture_key" ≠ some (nullable .str r.upstreamFixtureKey) ∨
      isApproved (r.initialSnapshot.get "source_id") = false)
    (.value "follow history snapshot identity does not match its row")

/-- Check one event. -/
def validateFollowEvent (db : FollowDb) (e : FollowEvent) : Except CheckError Unit := do
  checkDepth (e.before.getD .null)
  checkDepth (e.after.getD .null)
  checkDepth (e.conflict.getD .null)
  validateEventEvidence (db.identitiesOf e.followId) e.eventType (e.before.getD .null)
    (e.after.getD .null) (e.conflict.getD .null)

/-- Whether every row refers to a subscription there is. -/
def FollowDb.foreignKeysOk (db : FollowDb) : Bool :=
  (db.identities.all fun i => i.followId ∈ db.followedMatches.map FollowRow.followId) &&
    db.events.all fun e => e.followId ∈ db.followedMatches.map FollowRow.followId

/-- Whether every source named in a column is approved. -/
def FollowDb.sourcesOk (db : FollowDb) : Bool :=
  (db.followedMatches.all fun r => r.identitySourceId ∈ approvedSourceIds) &&
    (db.identities.all fun i => i.sourceId ∈ approvedSourceIds) &&
    db.events.all fun e => e.sourceId ∈ approvedSourceIds

/-- `_validate_follow_database`. -/
def validateFollowDatabase (db : FollowDb) : Except CheckError Unit := do
  failIf (db.foreignKeysOk = false)
    (.value "follow history failed its database integrity/version check")
  failIf (db.sourcesOk = false) (.value "follow history contains values outside its domain")
  db.followedMatches.forM (validateFollowRow db)
  db.events.forM (validateFollowEvent db)

end Golavo.Follows
