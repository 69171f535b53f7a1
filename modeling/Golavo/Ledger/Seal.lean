import Golavo.Clock
import Golavo.Forecast.Prediction
import Golavo.Ingest.Pack
import Golavo.Ingest.Snapshot
import Golavo.Ledger.Integrity
import Golavo.Lib.Check

/-! # Sealing a forecast

`build_forecast_artifact` computes a sealed artifact without writing it. **Planning** a seal enforces
every invariant up to the fit (the snapshot's anchor, one matching scheduled fixture, `as_of` before
kickoff, the leak-safe view, the abstain floor); the record is then assembled from the plan and the
prediction, and finalised. -/

namespace Golavo.Ledger

open Golavo.Lib (Decimal Json failIf orFail wrapError bind_ok_iff orFail_ok_iff failIf_ok_iff
  wrapError_ok_iff)
open Golavo.Ingest (MatchRow MatchTable Pack PackError IngestError TrainingView loadMatches
  leakSafeTrainingView snapshotDescriptor coSourceDescriptors)
open Golavo.Forecast (Triple Prediction Engine Violation fitSet buildScoreMatrix modelViolations)

/-! ## Constants -/

/-- The artifact schema the sealer writes. -/
def schemaVersion : String := "0.2.0"

/-- The package version. -/
def version : String := "0.20.0"

/-- The generator every artifact names. -/
def generator : String := "golavo-core/" ++ version

/-- The window, in days, in which a team's matches count. -/
def decayWindowDays : Int := 365 * 8

/-- The matches each side needs in the window. -/
def minTeamMatches : Nat := 10

/-! ## Requests and failures -/

/-- What a caller asks to be sealed. -/
structure SealRequest where
  date : String
  homeTeam : String
  awayTeam : String
  asOfUtc : String
  horizon : String := "T-24h"
  family : String := "elo_ordlogit"
  seed : Int := 20260710
  matchId : Option String := none
  deriving DecidableEq, Repr

/-- What makes a seal fail. -/
inductive SealError where
  | unknownFamily (family : String)
  /-- A timestamp is malformed or carries no offset. -/
  | badTimestamp
  /-- The snapshot's data state is later than `as_of`. -/
  | snapshotInFuture
  | pack (error : PackError)
  | badDate (text : String)
  /-- Not exactly one match was found. -/
  | notOneMatch (found : Nat)
  /-- The fixture already has a result. -/
  | alreadyPlayed
  /-- `as_of` is not before kickoff. -/
  | kickoffPassed
  | ingest (error : IngestError)
  /-- The score matrix is incoherent at seal time. -/
  | incoherent (violations : List Violation)
  | unreadable
  deriving DecidableEq

/-! ## Snapshots and fixtures -/

/-- `str` of a time: a text is itself, and anything else reads as its JSON. -/
def timeText : Json → String
  | .str text => text
  | other => String.ofList (Json.dumps other)

/-- The time a snapshot's data state verifiably existed (`snapshot_anchor_utc`): the upstream commit
time, else our own retrieval time. -/
def snapshotAnchorUtc (descriptor : Json) : Option String :=
  let committed := (descriptor.get "upstream_committed_at_utc").filter Json.truthy
  (committed.or (descriptor.get "retrieved_at_utc")).map timeText

/-- The latest anchor of some snapshots. -/
def latestAnchor (descriptors : List Json) : Option Int :=
  (descriptors.mapM fun d => (snapshotAnchorUtc d).bind parseUtc).bind List.max?

/-- Whether a row is the named fixture. -/
def isFixture (day : Int) (homeTeam awayTeam : String) (matchId : Option String) (r : MatchRow) :
    Bool :=
  r.date.any (·.toUtc = midnight day) && r.homeTeam = homeTeam && r.awayTeam = awayTeam &&
    matchId.all fun id => r.matchId = some id

/-- Find the one row of a fixture (`_find_match`). -/
def findMatch (frame : MatchTable) (date : String) (homeTeam awayTeam : String)
    (matchId : Option String) : Except SealError MatchRow := do
  let day ← orFail (.badDate date) (parseDay date)
  match frame.rows.filter (isFixture day homeTeam awayTeam matchId) with
  | [row] => return row
  | rows => throw (.notOneMatch rows.length)

/-- How many rows of the window ending at `anchor` a team played (`_team_counts`). -/
def teamCount (train : List MatchRow) (anchor : Int) (team : String) : Nat :=
  (train.filter fun r =>
    r.date.any (fun d => anchor - decayWindowDays * dayNs ≤ d.toUtc) &&
      (r.homeTeam = team || r.awayTeam = team)).length

/-! ## The plan -/

/-- Everything a seal has settled before a family is fitted. -/
structure SealPlan where
  row : MatchRow
  asOf : Int
  kickoff : Int
  /-- The cutoff the family is told, in whole seconds. -/
  cutoff : Int
  train : List MatchRow
  homeCount : Nat
  awayCount : Nat
  snapshots : List Json

namespace SealPlan

/-- The smaller of the two counts. -/
def minimumCount (p : SealPlan) : Nat := min p.homeCount p.awayCount

/-- Whether the history is below the floor. -/
def abstained (p : SealPlan) : Bool := p.minimumCount < minTeamMatches

end SealPlan

/-- Enforce every invariant of a seal up to the fit. -/
def planSeal (u : Unicode) (pack : Pack) (req : SealRequest) : Except SealError SealPlan := do
  failIf (req.family ∉ frozenFamilies) (.unknownFamily req.family)
  let asOf ← orFail .badTimestamp (parseUtc req.asOfUtc)
  let snapshots := snapshotDescriptor pack.manifest :: coSourceDescriptors pack.manifest
  let anchor ← orFail .badTimestamp (latestAnchor snapshots)
  failIf (asOf < anchor) .snapshotInFuture
  let frame ← wrapError .pack (loadMatches u pack)
  let row ← findMatch frame req.date req.homeTeam req.awayTeam req.matchId
  failIf row.complete .alreadyPlayed
  let stamp ← orFail (.ingest .noKickoffAnchor) row.kickoffUtc
  let kickoff := wholeMicros stamp.toUtc
  failIf (kickoff ≤ asOf) .kickoffPassed
  let view ← wrapError .ingest (leakSafeTrainingView frame row (some (.aware asOf 0)))
  return {
    row := row
    asOf := asOf
    kickoff := kickoff
    cutoff := wholeSeconds view.cutoffUtc
    train := view.rows
    homeCount := teamCount view.rows asOf req.homeTeam
    awayCount := teamCount view.rows asOf req.awayTeam
    snapshots := snapshots }

/-- The prediction of a plan; none when it abstains. -/
def planPrediction (engine : Engine) (req : SealRequest) (plan : SealPlan) : Option Prediction :=
  if plan.abstained then none
  else some (engine.predict req.family (fitSet plan.train) plan.cutoff req.homeTeam req.awayTeam
    (plan.row.neutral.getD false))

/-! ## The record -/

/-- An optional text. -/
def optText : Option String → Json
  | some s => .str s
  | none => .null

/-- The `match` block of a seal. -/
def matchBlock (req : SealRequest) (plan : SealPlan) : Json :=
  .mk [("match_id", .str plan.row.matchIdText), ("competition", .str plan.row.tournament),
    ("stage", .null), ("kickoff_utc", .str (isoText plan.kickoff)),
    ("home_team", .str req.homeTeam), ("away_team", .str req.awayTeam),
    ("neutral_venue", .bool (plan.row.neutral.getD false)), ("city", optText plan.row.city),
    ("country", optText plan.row.country)]

/-- The expected goals of a prediction, to six decimals. -/
def roundedGoals (goals : Decimal × Decimal) : Decimal × Decimal :=
  (goals.1.round 6, goals.2.round 6)

/-- Two expected goals. -/
def goalsJson (goals : Decimal × Decimal) : Json :=
  .mk [("home", .float goals.1), ("away", .float goals.2)]

/-- The expected goals a seal carries. -/
def goalsBlock (prediction : Option Prediction) : Json :=
  match prediction.bind Prediction.expectedGoals with
  | some goals => goalsJson (roundedGoals goals)
  | none => .null

/-- The probabilities a seal carries. -/
def probsBlock (prediction : Option Prediction) : Json :=
  match prediction with
  | some p => tripleJson p.probs
  | none => .null

/-- The score matrix a seal carries: only of a goal family. -/
def sealMatrix (prediction : Option Prediction) : Option Forecast.ScoreMatrix :=
  prediction.bind fun p =>
    if p.expectedGoals.isSome then p.matrix.map fun m => buildScoreMatrix m.toJointMatrix else none

/-- Why a seal abstains. -/
def abstainReason (req : SealRequest) (plan : SealPlan) : Json :=
  if plan.abstained then
    .str ("insufficient data: " ++ req.homeTeam ++ "=" ++ toString plan.homeCount ++ ", " ++
      req.awayTeam ++ "=" ++ toString plan.awayCount ++ "; require " ++
      toString minTeamMatches ++ " each")
  else .null

/-- How thin the history is. -/
def uncertainty (minimumCount : Nat) : String :=
  if minimumCount < 20 then "high" else if minimumCount < 40 then "medium" else "low"

/-- The `forecast` block of a seal. -/
def forecastBlock (req : SealRequest) (plan : SealPlan) (prediction : Option Prediction) : Json :=
  .mk ([("market", .str "1x2_regulation"), ("sealed_at_utc", .str (isoText plan.asOf)),
      ("horizon", .str req.horizon), ("probs", probsBlock prediction),
      ("expected_goals", goalsBlock prediction), ("abstained", .bool plan.abstained),
      ("abstain_reason", abstainReason req plan),
      ("uncertainty", .str (uncertainty plan.minimumCount))] ++
    match sealMatrix prediction with
    | some m => [("score_matrix", scoreMatrixJson m)]
    | none => [])

/-- The parameters a seal's hash commits to. -/
def sealParams (prediction : Option Prediction) : Json :=
  .mk (("minimum_team_matches", .int minTeamMatches) ::
    (prediction.map Prediction.params).getD [])

/-- `_params_hash`. -/
def paramsHash (rt : Runtime) (params : Json) : Option String :=
  (canonicalBytes (.mk [("params", params)])).map rt.sha256

/-- A revision of the code: 40 hexadecimal digits, or seven zeros. -/
structure CodeSha where
  text : String
  valid : isGitShaText text = true

/-- The `model` block of a seal. -/
def modelBlock (req : SealRequest) (code : CodeSha) (hash : String) : Json :=
  .mk [("model_id", .str (req.family ++ "_phase0")), ("family", .str req.family),
    ("version", .str version), ("params_hash", .str hash), ("code_git_sha", .str code.text),
    ("seed", .int req.seed)]

/-- The record of a seal, before it has an identity. -/
def sealRecord (req : SealRequest) (code : CodeSha) (plan : SealPlan)
    (prediction : Option Prediction) (hash : String) : Json :=
  .mk [("schema_version", .str schemaVersion), ("artifact_id", .str "fa_pending00"),
    ("status", .str (if plan.abstained then "abstained" else "sealed")), ("supersedes", .null),
    ("match", matchBlock req plan), ("forecast", forecastBlock req plan prediction),
    ("model", modelBlock req code hash),
    ("inputs", .mk [("training_cutoff_utc", .str (isoText plan.cutoff)),
      ("snapshots", .arr plan.snapshots)]),
    ("provenance", .mk [("created_at_utc", .str (isoText plan.asOf)),
      ("generator", .str generator), ("deterministic", .bool true),
      ("payload_sha256", .str (String.ofList (List.replicate 64 '0')))]),
    ("evaluation", .null)]

/-- What the seal-time coherence proof finds wrong with a prediction. -/
def sealViolations (prediction : Option Prediction) : List Violation :=
  match prediction with
  | some p =>
      match p.matrix, p.expectedGoals with
      | some m, some goals => modelViolations m (buildScoreMatrix m) p.probs (roundedGoals goals)
      | _, _ => []
  | none => []

/-- Compute a sealed artifact without writing it (`build_forecast_artifact`). -/
def buildForecastArtifact (rt : Runtime) (u : Unicode) (engine : Engine) (code : CodeSha)
    (pack : Pack) (req : SealRequest) : Except SealError Json := do
  let plan ← planSeal u pack req
  let prediction := planPrediction engine req plan
  failIf (sealViolations prediction ≠ []) (.incoherent (sealViolations prediction))
  let hash ← orFail .unreadable (paramsHash rt (sealParams prediction))
  orFail .unreadable (finalise rt (sealRecord req code plan prediction hash))

/-! ## What planning settles -/

/-- A fixture that was found is a row of the frame on that day, between those teams. -/
theorem findMatch_ok {frame : MatchTable} {date homeTeam awayTeam : String}
    {matchId : Option String} {row : MatchRow}
    (h : findMatch frame date homeTeam awayTeam matchId = .ok row) :
    ∃ day, parseDay date = some day ∧
      frame.rows.filter (isFixture day homeTeam awayTeam matchId) = [row] := by
  obtain ⟨day, hday, h⟩ := bind_ok_iff.mp h
  refine ⟨day, orFail_ok_iff.mp hday, ?_⟩
  split at h
  · rename_i r hrows
    rw [hrows, Except.ok.inj h]
  · simp [throw, throwThe, MonadExceptOf.throw] at h

/-- **What planning settles**: a scheduled fixture of the pack's frame, `as_of` between the
snapshots' anchor and kickoff, and the fixture's leak-safe view at `as_of`. -/
theorem planSeal_ok {u : Unicode} {pack : Pack} {req : SealRequest} {plan : SealPlan}
    (h : planSeal u pack req = .ok plan) :
    req.family ∈ frozenFamilies ∧ parseUtc req.asOfUtc = some plan.asOf ∧
      plan.snapshots = snapshotDescriptor pack.manifest :: coSourceDescriptors pack.manifest ∧
      (∃ anchor, latestAnchor plan.snapshots = some anchor ∧ anchor ≤ plan.asOf) ∧
      ∃ frame stamp view, loadMatches u pack = .ok frame ∧
        findMatch frame req.date req.homeTeam req.awayTeam req.matchId = .ok plan.row ∧
        plan.row.complete = false ∧ plan.row.kickoffUtc = some stamp ∧
        plan.kickoff = wholeMicros stamp.toUtc ∧ plan.asOf < plan.kickoff ∧
        leakSafeTrainingView frame plan.row (some (.aware plan.asOf 0)) = .ok view ∧
        plan.cutoff = wholeSeconds view.cutoffUtc ∧ plan.train = view.rows ∧
        plan.homeCount = teamCount view.rows plan.asOf req.homeTeam ∧
        plan.awayCount = teamCount view.rows plan.asOf req.awayTeam := by
  obtain ⟨_, hfamily, h⟩ := bind_ok_iff.mp h
  obtain ⟨asOf, hasOf, h⟩ := bind_ok_iff.mp h
  obtain ⟨anchor, hanchor, h⟩ := bind_ok_iff.mp h
  obtain ⟨_, hfuture, h⟩ := bind_ok_iff.mp h
  obtain ⟨frame, hframe, h⟩ := bind_ok_iff.mp h
  obtain ⟨row, hrow, h⟩ := bind_ok_iff.mp h
  obtain ⟨_, hcomplete, h⟩ := bind_ok_iff.mp h
  obtain ⟨stamp, hstamp, h⟩ := bind_ok_iff.mp h
  obtain ⟨_, hkickoff, h⟩ := bind_ok_iff.mp h
  obtain ⟨view, hview, h⟩ := bind_ok_iff.mp h
  obtain rfl := Except.ok.inj h
  simp only [failIf_ok_iff, orFail_ok_iff, wrapError_ok_iff, not_not, not_lt, not_le,
    Bool.not_eq_true] at hfamily hasOf hanchor hfuture hframe hcomplete hstamp hkickoff hview
  exact ⟨hfamily, hasOf, rfl, ⟨anchor, hanchor, hfuture⟩, frame, stamp, view, hframe, hrow,
    hcomplete, hstamp, rfl, hkickoff, hview, rfl, rfl, rfl, rfl⟩

end Golavo.Ledger
