import Golavo.Picks.Record

/-! # Pick files

A pick as its file holds it: the schema `validate_user_pick` applies, and `verify_pick_integrity`,
which recomputes a locked pick's digest and content address. -/

namespace Golavo.Picks

open Golavo.Lib (Json Decimal Schema failIf orFail)
open Golavo.Ledger (Runtime anyText someText formatted nullOr onLine isHexChar isSha256Text)

/-! ## The schema -/

/-- The pattern `^pk_[a-f0-9]{20}$`. -/
def isPickIdText : String → Bool :=
  onLine fun s => s.take 3 = ['p', 'k', '_'] && (s.drop 3).length = 20 && (s.drop 3).all isHexChar

/-- `{"type": "integer", "minimum": 0, "maximum": 20}`: a float with a whole value counts. -/
def goalsSchema : Schema :=
  .enum ((List.range 21).flatMap fun n => [.int n, .float (.ofScaled n 0)])

def outcomeSchema : Schema := .enum [.str "home", .str "draw", .str "away"]

def scoreSchema : Schema :=
  .object ["home_goals", "away_goals"] [("home_goals", goalsSchema), ("away_goals", goalsSchema)]

def userCallSchema : Schema :=
  .object ["home_goals", "away_goals", "outcome"]
    [("home_goals", goalsSchema), ("away_goals", goalsSchema), ("outcome", outcomeSchema)]

/-- A rival of one capability: the schema's conditions leave one shape of call for each. -/
def rivalOfCapability (capability : Capability) (score outcome : Schema) : Schema :=
  .object ["family", "capability", "score_pick", "outcome_pick"]
    [("family", .enum (Ledger.frozenFamilies.map Json.str)),
      ("capability", .enum [.str capability.name]), ("score_pick", score),
      ("outcome_pick", outcome)]

def rivalSchema : Schema :=
  .oneOf [rivalOfCapability .score scoreSchema outcomeSchema,
    rivalOfCapability .outcomeOnly .null outcomeSchema, rivalOfCapability .abstained .null .null]

section Formats

variable (formats : String → String → Bool)

def matchSnapshotSchema : Schema :=
  .object ["match_id", "kickoff_utc", "kickoff_time_known", "home_team", "away_team", "home_norm",
      "away_norm", "competition"]
    [("match_id", someText), ("kickoff_utc", formatted formats "date-time"),
      ("kickoff_time_known", .boolean), ("home_team", someText), ("away_team", someText),
      ("home_norm", someText), ("away_norm", someText), ("competition", nullOr anyText)]

def fingerprintSchema : Schema :=
  .object ["index_fingerprint", "analysis_schema_version", "information_cutoff_utc"]
    [("index_fingerprint", someText), ("analysis_schema_version", someText),
      ("information_cutoff_utc", formatted formats "date-time")]

/-- A pick of one status, with the fields that depend on it. -/
def pickOfStatus (status : PickStatus) (pickId lockedAt payload : Schema) : Schema :=
  .object ["schema_version", "pick_id", "status", "match", "user_pick", "rivals",
      "analysis_fingerprint", "created_at_utc", "updated_at_utc", "lock_at_utc", "locked_at_utc",
      "payload_sha256"]
    [("schema_version", .enum [.str pickSchemaVersion]), ("pick_id", pickId),
      ("status", .enum [.str status.name]), ("match", matchSnapshotSchema formats),
      ("user_pick", userCallSchema), ("rivals", .array 0 rivalSchema),
      ("analysis_fingerprint", fingerprintSchema formats),
      ("created_at_utc", formatted formats "date-time"),
      ("updated_at_utc", formatted formats "date-time"),
      ("lock_at_utc", formatted formats "date-time"), ("locked_at_utc", lockedAt),
      ("payload_sha256", payload)]

/-- The schema of a pick, but for how many rivals it may list. -/
def userPickSchema : Schema :=
  .oneOf [pickOfStatus formats .draft .null .null .null,
    pickOfStatus formats .locked (.string isPickIdText) (formatted formats "date-time")
      (.string isSha256Text)]

end Formats

/-- `"maxItems": 5`. -/
def fewRivals (record : Json) : Bool :=
  match record.get "rivals" with
  | some (.arr rivals) => rivals.length ≤ 5
  | _ => true

/-- Whether a pick file's value conforms (`validate_user_pick`). -/
def acceptsUserPick (rt : Runtime) (record : Json) : Bool :=
  (userPickSchema rt.formats).accepts record && fewRivals record

/-! ## Integrity -/

/-- What makes a pick file unacceptable. -/
inductive PickFileError where
  /-- The schema rejects it. -/
  | schema
  | notLocked
  /-- Its stored digest is not its content's. -/
  | payloadMismatch
  /-- Its stored id is not its content's. -/
  | idMismatch
  /-- Its file's name is not its content's id. -/
  | fileMismatch
  /-- A draft's file is not named after its match. -/
  | draftPath
  deriving DecidableEq, Repr

/-- The digest of a pick without its own digest field (`pick_payload_sha256`). -/
def fileDigest (rt : Runtime) (record : Json) : String :=
  rt.sha256 (Json.dumps (record.erase "payload_sha256"))

/-- The content address of a pick (`pick_id`). -/
def fileAddress (rt : Runtime) (record : Json) : String :=
  "pk_" ++ String.ofList
    ((rt.sha256 (Json.dumps ((record.erase "pick_id").erase "payload_sha256"))).toList.take 20)

/-- `verify_pick_integrity`. -/
def verifyPickFile (rt : Runtime) (record : Json) (expectedId : String) :
    Except PickFileError Unit := do
  failIf (acceptsUserPick rt record = false) .schema
  failIf (record.get "status" ≠ some (.str PickStatus.locked.name)) .notLocked
  failIf (record.get "payload_sha256" ≠ some (.str (fileDigest rt record))) .payloadMismatch
  failIf (record.get "pick_id" ≠ some (.str (fileAddress rt record))) .idMismatch
  failIf (expectedId ≠ fileAddress rt record) .fileMismatch

/-- Check a draft's file against the match its name gives. -/
def verifyDraftFile (rt : Runtime) (record : Json) (matchId : String) :
    Except PickFileError Unit := do
  failIf (acceptsUserPick rt record = false) .schema
  failIf ((record.get "match").bind (·.get "match_id") ≠ some (.str matchId)) .draftPath

end Golavo.Picks
