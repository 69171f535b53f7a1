import Golavo.Ledger.SingleResolution
import Golavo.Lib.Interleave

/-! # Sealing a fixture on request

`seal_match` seals one indexed fixture in one family. A **gate** settles, from the clock, the index
and the packs alone, whether the fixture can be sealed now. Under one lock the ledger is then
scanned for a root seal of that fixture and family, and only where there is none is one computed,
written and read back. -/

namespace Golavo.Ledger

open Golavo.Lib (Json Pool Move failIf orFail wrapError bind_ok_iff wrapError_ok_iff)
open Golavo.Forecast (Engine)
open Golavo.Ingest (Pack MatchRow)

/-! ## Requests -/

/-- The families the route accepts. -/
def allowedFamilies : List String :=
  ["dixon_coles", "poisson_independent", "elo_ordlogit", "climatological"]

/-- The horizon every request is sealed for. -/
def defaultHorizon : String := "T-24h"

/-- The one international source a seal can be made from. -/
def internationalSourceId : String := "martj42-international-results"

/-- The packs there are: those refreshed at run time, those bundled, and the canonical one. -/
structure PackShelf where
  refreshedClub : String → Option Pack
  refreshed : Option Pack
  /-- The active bundled pack of a source, and of a competition where one is named. -/
  bundled : String → Option String → Option Pack
  canonical : Option Pack

/-- The one pack a fixture's seal must train from (`resolve_pack_dir`). -/
def resolvePackDir (packs : PackShelf) (sourceId sourceKind competition : Option String) :
    Option Pack :=
  if sourceKind = some "club" then
    match sourceId, competition with
    | some source, some league =>
        if source = "" ∨ league = "" then none
        else (packs.refreshedClub league).or (packs.bundled source (some league))
    | _, _ => none
  else if sourceKind ≠ some "international" then none
  else if sourceId ≠ some internationalSourceId then none
  else packs.refreshed.or ((packs.bundled internationalSourceId none).or packs.canonical)

/-- A request to seal a fixture, with what its process finds: the clock, the search index, the packs,
the models and the code's revision. -/
structure SealCall where
  matchId : String
  family : String
  now : Int
  index : List MatchRow
  packs : PackShelf
  engine : Engine
  code : CodeSha

/-- The clock, read once and in whole seconds. -/
def SealCall.resolvedNow (call : SealCall) : Int := wholeSeconds call.now

/-- What makes a request fail. -/
inductive SealFailure where
  /-- A typed refusal. -/
  | refused (statusCode : Nat) (reasonCode detail : String)
  /-- The sealer raised; the reason its message maps to. -/
  | rejected (reasonCode : String) (error : SealError ⊕ StoreError)
  /-- What was written cannot be read back. -/
  | unreadable (error : StoreError)

/-! ## The gate -/

/-- Whether a fixture can be sealed, and why not. -/
structure Eligibility where
  eligible : Bool
  reasonCode : String
  detail : String
  deriving DecidableEq

/-- Whether a fixture can be sealed now (`eligibility`). -/
def eligibility (packs : PackShelf) (now : Int) (fixture : MatchRow) : Eligibility :=
  if fixture.complete then
    ⟨false, "fixture_complete",
      "this fixture already has a result; a forward seal targets a scheduled fixture"⟩
  else if (fixture.sourceKind ≠ some "international" ∧ fixture.sourceKind ≠ some "club") ∨
      (fixture.sourceKind = some "international" ∧
        fixture.sourceId ≠ some internationalSourceId) then
    ⟨false, "unsupported_competition",
      "forward seals cover men\x27s senior internationals and the bundled domestic leagues"⟩
  else if (resolvePackDir packs fixture.sourceId fixture.sourceKind fixture.competition).isNone then
    ⟨false, "pack_unavailable",
      "the pinned data pack for this fixture is not available in this build"⟩
  else
    match fixture.kickoffUtc with
    | none => ⟨false, "no_kickoff", "this fixture has no usable kickoff time"⟩
    | some kickoff =>
        if wholeMicros kickoff.toUtc ≤ now then
          ⟨false, "kickoff_passed",
            "the seal window closes at kickoff (date-only source: 00:00 UTC on match day)"⟩
        else ⟨true, "eligible", "a local forecast can be sealed for this fixture"⟩

/-- The request the sealer is given for an indexed fixture. -/
def SealCall.request (call : SealCall) (fixture : MatchRow) (kickoff : Stamp) : SealRequest where
  date := dayPrefix (isoText kickoff.toUtc)
  homeTeam := fixture.homeTeam
  awayTeam := fixture.awayTeam
  asOfUtc := isoText call.resolvedNow
  horizon := defaultHorizon
  family := call.family
  matchId := some call.matchId

/-- What is settled before the lock is taken: the pack to train from and the sealer's request. -/
def SealCall.gate (call : SealCall) : Except SealFailure (Pack × SealRequest) := do
  failIf (call.family ∉ allowedFamilies) (.refused 422 "unsupported_family"
    ("family must be one of " ++ String.intercalate ", " allowedFamilies))
  let fixture ← orFail (.refused 404 "match_not_found" "no indexed match with that id")
    (call.index.find? fun r => r.matchId = some call.matchId)
  let verdict := eligibility call.packs call.resolvedNow fixture
  failIf (verdict.eligible = false)
    (.refused (if verdict.reasonCode = "pack_unavailable" then 503 else 422) verdict.reasonCode
      verdict.detail)
  -- an eligible fixture has both
  let kickoff ← orFail (.refused 422 "no_kickoff" "this fixture has no usable kickoff time")
    fixture.kickoffUtc
  let pack ← orFail (.refused 503 "pack_unavailable"
      "the pinned data pack for this fixture is not available in this build")
    (resolvePackDir call.packs fixture.sourceId fixture.sourceKind fixture.competition)
  return (pack, call.request fixture kickoff)

/-! ## Under the lock -/

/-- Whether an artifact is a root seal of a fixture in a family. -/
def isRootOf (matchId family : String) (artifact : Json) : Bool :=
  (artifact.get "match").bind (·.get "match_id") = some (.str matchId) &&
    (artifact.get "model").bind (·.get "family") = some (.str family) &&
    (statusOf artifact).any (· ∈ rootStatuses) &&
    (present (artifact.get "supersedes")).isNone

/-- A root seal already recorded for a fixture and family, or none (`_existing_seal`). -/
def existingSeal (rt : Runtime) (store : Store) (matchId family : String) :
    Except SealFailure (Option Json) := do
  let artifacts ← wrapError
    (fun _ => .refused 409 "artifact_integrity" "existing seal failed integrity verification")
    (loadLedger rt store)
  match artifacts.filter (isRootOf matchId family) with
  | _ :: _ :: _ => throw (.refused 409 "artifact_integrity"
      "multiple existing root seals violate the immutable seal history")
  | roots => return roots.head?

/-- The reason code of a seal the engine turned down (`_reason_for`). -/
def reasonFor : SealError → String
  | .alreadyPlayed => "fixture_complete"
  | .kickoffPassed => "kickoff_passed"
  | .snapshotInFuture => "snapshot_anchor"
  | .notOneMatch _ => "fixture_not_in_pack"
  | .unknownFamily _ => "unsupported_family"
  | _ => "seal_rejected"

/-- How a failure of the sealer is reported. -/
def failureOf (error : SealError ⊕ StoreError) : SealFailure :=
  match error with
  | .inl e => .rejected (reasonFor e) error
  | .inr (.collision _) => .rejected "artifact_collision" error
  | .inr _ => .rejected "seal_rejected" error

/-- What a request returns: whether it made the seal, and the seal (`_result_view`). -/
structure SealResult where
  created : Bool
  artifactId : Option String
  status : Option String
  family : Option Json
  abstained : Bool
  abstainReason : Option Json

/-- The view of an artifact. -/
def resultView (created : Bool) (artifact : Json) : SealResult where
  created := created
  artifactId := idOf artifact
  status := statusOf artifact
  family := (artifact.get "model").bind (·.get "family")
  abstained := (artifact.get "forecast").bind (·.get "abstained") = some (.bool true)
  abstainReason := (artifact.get "forecast").bind (·.get "abstain_reason")

/-- What happens under the lock: scan, and where there is no seal yet, compute, write and read
back. -/
def SealCall.underLock (rt : Runtime) (u : Unicode) (call : SealCall) (pack : Pack)
    (req : SealRequest) (store : Store) : Store × Except SealFailure SealResult :=
  match existingSeal rt store call.matchId call.family with
  | .error e => (store, .error e)
  | .ok (some artifact) => (store, .ok (resultView false artifact))
  | .ok none =>
      match sealForecast rt u call.engine call.code pack req store with
      | .error e => (store, .error (failureOf e))
      | .ok (stem, written) =>
          match loadVerifiedArtifact rt written stem with
          | .error e => (written, .error (.unreadable e))
          | .ok artifact => (written, .ok (resultView true artifact))

/-! ## Interleaved requests -/

/-- How far a request has come. -/
inductive SealPhase where
  | called (call : SealCall)
  /-- Past the gate, waiting for the lock. -/
  | waiting (call : SealCall) (pack : Pack) (req : SealRequest)

/-- A request that is over, and what it returned or raised. -/
structure SealReply where
  call : SealCall
  outcome : Except SealFailure SealResult

/-- The next step of a request (`seal_match`). -/
def sealMatch (rt : Runtime) (u : Unicode) (phase : SealPhase) (store : Store) :
    Store × (SealPhase ⊕ SealReply) :=
  match phase with
  | .called call =>
      match call.gate with
      | .error e => (store, .inr ⟨call, .error e⟩)
      | .ok (pack, req) => (store, .inl (.waiting call pack req))
  | .waiting call pack req =>
      let (written, outcome) := call.underLock rt u pack req store
      (written, .inr ⟨call, outcome⟩)

/-- Requests arrive at their first step. -/
def SealArrival : Move SealPhase → Prop
  | .arrive (.called _) => True
  | .arrive (.waiting _ _ _) => False
  | .advance _ => True

end Golavo.Ledger
