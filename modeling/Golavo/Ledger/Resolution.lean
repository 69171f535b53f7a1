import Golavo.Ledger.Seal
import Golavo.Ledger.Store

/-! # Resolving a seal

A seal resolves by an immutable **successor**: scored from a strictly newer result observation, or
voided with a recorded reason. Both copy the seal, name it under `supersedes`, and are finalised and
written like any artifact. -/

namespace Golavo.Ledger

open Golavo.Lib (Decimal Json failIf orFail wrapError bind_ok_iff orFail_ok_iff failIf_ok_iff
  wrapError_ok_iff toOption_eq_some)
open Golavo.Ingest (Pack PackError loadMatches snapshotDescriptor)
open Golavo.Forecast (Outcome Triple)

/-- What makes a resolution fail. -/
inductive ResolveError where
  /-- Only a non-abstained sealed artifact can be scored. -/
  | notScoreable
  | badTimestamp
  /-- The result snapshot is not strictly newer than the seal's. -/
  | snapshotNotNewer
  | badGoals
  /-- The newer snapshot does not contain a completed result. -/
  | notCompleted
  /-- Only a sealed or abstained artifact can be voided. -/
  | notVoidable
  | emptyReason
  | pack (error : PackError)
  | lookup (error : SealError)
  | store (error : StoreError)
  | unreadable
  deriving DecidableEq

/-- The status of an artifact. -/
def statusOf (artifact : Json) : Option String := (artifact.get "status").bind Json.text?

/-- The id an artifact carries. -/
def idOf (artifact : Json) : Option String := (artifact.get "artifact_id").bind Json.text?

/-- A text of an artifact's `match` block. -/
def matchText (artifact : Json) (key : String) : Option String :=
  (artifact.get "match").bind fun block => (block.get key).bind Json.text?

/-- The snapshots an artifact rests on. -/
def snapshotsOf (artifact : Json) : Option (List Json) :=
  match (artifact.get "inputs").bind (·.get "snapshots") with
  | some (.arr items) => some items
  | _ => none

/-- Validate the terminal state and the temporal boundary of a scoring
(`_score_snapshot_anchor`). -/
def scoreSnapshotAnchor (sealed resultSnapshot : Json) : Except ResolveError Int := do
  failIf (statusOf sealed ≠ some "sealed" ∨ probsOf sealed = none) .notScoreable
  let old ← orFail .badTimestamp ((snapshotsOf sealed).bind latestAnchor)
  let new ← orFail .badTimestamp (latestAnchor [resultSnapshot])
  failIf (new ≤ old) .snapshotNotNewer
  return new

/-- The outcome of a score. -/
def outcomeOfGoals (homeGoals awayGoals : Int) : Outcome :=
  if awayGoals < homeGoals then .home else if homeGoals = awayGoals then .draw else .away

/-- The Brier score of a triple against an outcome. -/
def brier (probs : Triple) (o : Outcome) : Decimal :=
  let error (k : Outcome) : Decimal :=
    let d := probs.at k - (if k = o then 1 else 0)
    d * d
  error .home + error .draw + error .away

/-- The floor a probability has before its logarithm is taken. -/
def logFloor : Decimal := .ofScaled 1 12

/-- The evaluation of a result. -/
def evaluationBlock (rt : Runtime) (probs : Triple) (scoredAt : Int) (homeGoals awayGoals : Int) :
    Json :=
  let o := outcomeOfGoals homeGoals awayGoals
  let assigned := probs.at o
  let floored := if assigned < logFloor then logFloor else assigned
  .mk [("actual", .mk [("home_goals", .int homeGoals), ("away_goals", .int awayGoals),
      ("outcome", .str o.key)]),
    ("scored_at_utc", .str (isoText scoredAt)),
    ("metrics", .mk [("log_loss", .float ((rt.negLog floored).round 6)),
      ("brier", .float ((brier probs o).round 6)),
      ("prob_assigned_to_outcome", .float (assigned.round 6))])]

/-- Reset an artifact's provenance for a successor made at `created`. -/
def renewProvenance (artifact : Json) (created : Int) : Json :=
  artifact.update "provenance" fun p =>
    (p.set "created_at_utc" (.str (isoText created))).set "payload_sha256"
      (.str (String.ofList (List.replicate 64 '0')))

/-- The scored successor of a seal, before it has an identity. -/
def scoreRecord (rt : Runtime) (sealed resultSnapshot : Json) (id : Json) (probs : Triple)
    (snapshots : List Json) (newAnchor : Int) (homeGoals awayGoals : Int) : Json :=
  renewProvenance
    ((((sealed.set "status" (.str "scored")).set "supersedes" id).update "inputs"
      (·.set "snapshots" (.arr (snapshots ++ [resultSnapshot])))).set "evaluation"
        (evaluationBlock rt probs newAnchor homeGoals awayGoals)) newAnchor

/-- Append one scored successor from a trusted, newer result observation
(`_score_verified_seal`). -/
def scoreVerifiedSeal (rt : Runtime) (sealed resultSnapshot : Json) (homeGoals awayGoals : Int)
    (store : Store) : Except ResolveError (String × Store) := do
  let newAnchor ← scoreSnapshotAnchor sealed resultSnapshot
  failIf (homeGoals < 0 ∨ awayGoals < 0) .badGoals
  let probs ← orFail .unreadable ((probsOf sealed).bind tripleOf)
  let id ← orFail .unreadable (sealed.get "artifact_id")
  let snapshots ← orFail .unreadable (snapshotsOf sealed)
  let scored ← orFail .unreadable (finalise rt
    (scoreRecord rt sealed resultSnapshot id probs snapshots newAnchor homeGoals awayGoals))
  wrapError .store (writeArtifact rt scored store)

/-- Score a seal from one pinned trusted result payload (`score_forecast_result`). -/
def scoreForecastResult (rt : Runtime) (stem : String) (resultSnapshot : Json)
    (homeGoals awayGoals : Int) (store : Store) : Except ResolveError (String × Store) := do
  let sealed ← wrapError .store (loadVerifiedArtifact rt store stem)
  scoreVerifiedSeal rt sealed resultSnapshot homeGoals awayGoals store

/-- The completed result a newer snapshot holds for a seal's fixture, which is looked up by the day
its kickoff's text starts with. -/
def completedResult (u : Unicode) (sealed : Json) (newerPack : Pack) :
    Except ResolveError (Int × Int) := do
  let kickoff ← orFail .unreadable (matchText sealed "kickoff_utc")
  let homeTeam ← orFail .unreadable (matchText sealed "home_team")
  let awayTeam ← orFail .unreadable (matchText sealed "away_team")
  let matchId ← orFail .unreadable (matchText sealed "match_id")
  let frame ← wrapError .pack (loadMatches u newerPack)
  let actual ← wrapError .lookup
    (findMatch frame (dayPrefix kickoff) homeTeam awayTeam (some matchId))
  failIf (actual.complete = false) .notCompleted
  let homeGoals ← orFail .unreadable actual.homeScore
  let awayGoals ← orFail .unreadable actual.awayScore
  return (homeGoals, awayGoals)

/-- Score a seal from a newer snapshot (`score_forecast`). -/
def scoreForecast (rt : Runtime) (u : Unicode) (stem : String) (newerPack : Pack) (store : Store) :
    Except ResolveError (String × Store) := do
  let sealed ← wrapError .store (loadVerifiedArtifact rt store stem)
  let newer := snapshotDescriptor newerPack.manifest
  let _ ← scoreSnapshotAnchor sealed newer
  let (homeGoals, awayGoals) ← completedResult u sealed newerPack
  scoreVerifiedSeal rt sealed newer homeGoals awayGoals store

/-- The voided successor of a seal, before it has an identity. -/
def voidRecord (sealed id : Json) (voidedAt : Int) (reason : String) : Json :=
  renewProvenance (((sealed.set "status" (.str "voided")).set "supersedes" id).set "void_reason"
    (.str reason)) voidedAt

/-- Void a seal: an immutable successor, never a result (`void_forecast`). -/
def voidForecast (rt : Runtime) (u : Unicode) (stem voidedAtUtc reason : String) (store : Store) :
    Except ResolveError (String × Store) := do
  let sealed ← wrapError .store (loadVerifiedArtifact rt store stem)
  failIf (statusOf sealed ≠ some "sealed" ∧ statusOf sealed ≠ some "abstained") .notVoidable
  let text := String.ofList (u.strip reason.toList)
  failIf (text = "") .emptyReason
  let voidedAt ← orFail .badTimestamp (parseUtc voidedAtUtc)
  let id ← orFail .unreadable (sealed.get "artifact_id")
  let voided ← orFail .unreadable (finalise rt (voidRecord sealed id voidedAt text))
  wrapError .store (writeArtifact rt voided store)

/-! ## Verdicts -/

/-- How a seal resolves. -/
inductive Verdict where
  | scored (resultSnapshot : Json) (homeGoals awayGoals : Int)
  | voided (voidedAt : Int) (reason : String)

/-- The artifact a verdict makes of a seal; none where the seal's own checks refuse it. -/
def successor (rt : Runtime) (sealed : Json) : Verdict → Option Json
  | .scored resultSnapshot homeGoals awayGoals => do
      let newAnchor ← (scoreSnapshotAnchor sealed resultSnapshot).toOption
      guard (0 ≤ homeGoals ∧ 0 ≤ awayGoals)
      let probs ← (probsOf sealed).bind tripleOf
      let id ← sealed.get "artifact_id"
      let snapshots ← snapshotsOf sealed
      finalise rt (scoreRecord rt sealed resultSnapshot id probs snapshots newAnchor homeGoals
        awayGoals)
  | .voided voidedAt reason => do
      guard (statusOf sealed = some "sealed" ∨ statusOf sealed = some "abstained")
      let id ← sealed.get "artifact_id"
      finalise rt (voidRecord sealed id voidedAt reason)

theorem successor_scored_eq_some {rt : Runtime} {sealed resultSnapshot a : Json}
    {homeGoals awayGoals : Int} :
    successor rt sealed (.scored resultSnapshot homeGoals awayGoals) = some a ↔
      ∃ newAnchor t id snapshots, scoreSnapshotAnchor sealed resultSnapshot = .ok newAnchor ∧
        (0 ≤ homeGoals ∧ 0 ≤ awayGoals) ∧ (probsOf sealed).bind tripleOf = some t ∧
        sealed.get "artifact_id" = some id ∧ snapshotsOf sealed = some snapshots ∧
        finalise rt (scoreRecord rt sealed resultSnapshot id t snapshots newAnchor homeGoals
          awayGoals) = some a := by
  simp only [successor, Option.bind_eq_bind, Option.bind_eq_some_iff, toOption_eq_some,
    Option.guard_eq_some', exists_const, exists_and_left]

theorem successor_voided_eq_some {rt : Runtime} {sealed a : Json} {voidedAt : Int}
    {reason : String} :
    successor rt sealed (.voided voidedAt reason) = some a ↔
      (statusOf sealed = some "sealed" ∨ statusOf sealed = some "abstained") ∧
        ∃ id, sealed.get "artifact_id" = some id ∧
          finalise rt (voidRecord sealed id voidedAt reason) = some a := by
  simp only [successor, Option.bind_eq_bind, Option.bind_eq_some_iff, Option.guard_eq_some',
    exists_const]

/-- A scoring that goes through writes the successor of a scored verdict. -/
theorem successor_of_scoreVerifiedSeal {rt : Runtime} {sealed resultSnapshot : Json}
    {homeGoals awayGoals : Int} {store store' : Store} {stem : String}
    (h : scoreVerifiedSeal rt sealed resultSnapshot homeGoals awayGoals store = .ok (stem, store')) :
    ∃ a, successor rt sealed (.scored resultSnapshot homeGoals awayGoals) = some a ∧
      writeArtifact rt a store = .ok (stem, store') := by
  obtain ⟨newAnchor, hanchor, h⟩ := bind_ok_iff.mp h
  obtain ⟨_, hgoals, h⟩ := bind_ok_iff.mp h
  obtain ⟨t, ht, h⟩ := bind_ok_iff.mp h
  obtain ⟨id, hid, h⟩ := bind_ok_iff.mp h
  obtain ⟨snapshots, hsnapshots, h⟩ := bind_ok_iff.mp h
  obtain ⟨a, ha, h⟩ := bind_ok_iff.mp h
  have hgoals := failIf_ok_iff.mp hgoals
  push Not at hgoals
  exact ⟨a, successor_scored_eq_some.mpr ⟨newAnchor, t, id, snapshots, hanchor, hgoals,
    orFail_ok_iff.mp ht, orFail_ok_iff.mp hid, orFail_ok_iff.mp hsnapshots, orFail_ok_iff.mp ha⟩,
    wrapError_ok_iff.mp h⟩

/-- A voiding that goes through writes the successor of a voided verdict. -/
theorem successor_of_voidForecast {rt : Runtime} {u : Unicode} {file voidedAtUtc reason : String}
    {store store' : Store} {stem : String}
    (h : voidForecast rt u file voidedAtUtc reason store = .ok (stem, store')) :
    ∃ sealed voidedAt a, loadVerifiedArtifact rt store file = .ok sealed ∧
      parseUtc voidedAtUtc = some voidedAt ∧
      successor rt sealed (.voided voidedAt (String.ofList (u.strip reason.toList))) = some a ∧
      writeArtifact rt a store = .ok (stem, store') := by
  obtain ⟨sealed, hload, h⟩ := bind_ok_iff.mp h
  obtain ⟨_, hopen, h⟩ := bind_ok_iff.mp h
  obtain ⟨_, -, h⟩ := bind_ok_iff.mp h
  obtain ⟨voidedAt, hvoidedAt, h⟩ := bind_ok_iff.mp h
  obtain ⟨id, hid, h⟩ := bind_ok_iff.mp h
  obtain ⟨a, ha, h⟩ := bind_ok_iff.mp h
  have hopen : statusOf sealed = some "sealed" ∨ statusOf sealed = some "abstained" := by
    have := failIf_ok_iff.mp hopen
    tauto
  exact ⟨sealed, voidedAt, a, wrapError_ok_iff.mp hload, orFail_ok_iff.mp hvoidedAt,
    successor_voided_eq_some.mpr ⟨hopen, id, orFail_ok_iff.mp hid, orFail_ok_iff.mp ha⟩,
    wrapError_ok_iff.mp h⟩

end Golavo.Ledger
