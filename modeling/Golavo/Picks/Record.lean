import Golavo.Clock
import Golavo.Ledger.Artifact
import Golavo.Ingest.MatchTable
import Golavo.Lib.JsonText

/-! # Picks

A **pick** is a user's call on a fixture beside the calls of the model council. A **draft** can still
change; a **locked** pick is addressed by its content. This module is the pure part: deriving the
rivals, the record and its digests, and scoring. -/

namespace Golavo.Picks

open Golavo.Lib (Json Decimal)
open Golavo.Ledger (Runtime isHexChar)

def pickSchemaVersion : String := "0.1.0"

/-! ## Calls -/

inductive Outcome where
  | home
  | draw
  | away
  deriving DecidableEq, Repr

def Outcome.name : Outcome → String
  | .home => "home"
  | .draw => "draw"
  | .away => "away"

/-- The outcome of a score (`outcome_of`). -/
def outcomeOf (homeGoals awayGoals : Int) : Outcome :=
  if homeGoals > awayGoals then .home else if homeGoals < awayGoals then .away else .draw

/-- A score. -/
structure Score where
  homeGoals : Int
  awayGoals : Int
  deriving DecidableEq, Repr

/-- A user's call: a score and its outcome. -/
structure UserCall where
  score : Score
  outcome : Outcome
  deriving DecidableEq, Repr

/-- What a rival can be scored on. -/
inductive Capability where
  | score
  | outcomeOnly
  | abstained
  deriving DecidableEq, Repr

def Capability.name : Capability → String
  | .score => "score"
  | .outcomeOnly => "outcome_only"
  | .abstained => "abstained"

/-- A rival's call. -/
structure Rival where
  family : String
  capability : Capability
  scorePick : Option Score
  outcomePick : Option Outcome
  deriving DecidableEq, Repr

/-- What the council's answer was computed from. -/
structure AnalysisFingerprint where
  indexFingerprint : String
  analysisSchemaVersion : String
  informationCutoffUtc : String
  deriving DecidableEq, Repr

/-! ## Deriving the rivals -/

/-- One model of the council. -/
structure CouncilModel where
  family : String
  abstained : Bool
  probs : Option (Outcome → Decimal)
  mostLikely : Option Score

/-- The council's answer. -/
structure Council where
  schemaVersion : Option String
  informationCutoffUtc : Option String
  models : List CouncilModel

/-- The rivals the season game scores against. -/
def scoredRivalFamilies : List String :=
  ["elo_ordlogit", "dixon_coles", "poisson_independent", "bivariate_poisson", "climatological"]

/-- The likeliest outcome, the earlier one of home, draw and away when two are equal. -/
def modalOutcome (probs : Outcome → Decimal) : Outcome :=
  [Outcome.draw, .away].foldl
    (fun best o => if (probs best).toRat < (probs o).toRat then o else best) .home

/-- One rival's call. -/
def rivalOf (m : CouncilModel) : Rival :=
  match m.abstained, m.probs, m.mostLikely with
  | false, some _, some likely =>
      ⟨m.family, .score, some likely, some (outcomeOf likely.homeGoals likely.awayGoals)⟩
  | false, some probs, none => ⟨m.family, .outcomeOnly, none, some (modalOutcome probs)⟩
  | _, _, _ => ⟨m.family, .abstained, none, none⟩

/-- A text, or a default where it is missing or empty. -/
def textOr (fallback : String) (s : Option String) : String :=
  match s with
  | some text => if text = "" then fallback else text
  | none => fallback

/-- The fingerprint and the scored rivals of a council's answer (`derive_rival_picks`). -/
def deriveRivalPicks (indexFingerprint : String) (c : Council) : AnalysisFingerprint × List Rival :=
  (⟨textOr "unknown" (some indexFingerprint), textOr "unknown" c.schemaVersion,
      textOr "1970-01-01T00:00:00Z" c.informationCutoffUtc⟩,
    (c.models.filter (·.family ∈ scoredRivalFamilies)).map rivalOf)

/-! ## The record -/

/-- What a pick keeps of its fixture. -/
structure MatchSnapshot where
  matchId : String
  kickoffUtc : Int
  kickoffTimeKnown : Bool
  homeTeam : String
  awayTeam : String
  homeNorm : String
  awayNorm : String
  competition : Option String
  deriving DecidableEq, Repr

inductive PickStatus where
  | draft
  | locked
  deriving DecidableEq, Repr

def PickStatus.name : PickStatus → String
  | .draft => "draft"
  | .locked => "locked"

/-- A pick as its file holds it. -/
structure UserPick where
  pickId : Option String
  status : PickStatus
  fixture : MatchSnapshot
  userPick : UserCall
  rivals : List Rival
  analysisFingerprint : AnalysisFingerprint
  createdAtUtc : Int
  updatedAtUtc : Int
  lockAtUtc : Int
  lockedAtUtc : Option Int
  payloadSha256 : Option String
  deriving DecidableEq, Repr

def textOrNull : Option String → Json
  | some s => .str s
  | none => .null

def Score.toJson (s : Score) : Json :=
  .mk [("home_goals", .int s.homeGoals), ("away_goals", .int s.awayGoals)]

def UserCall.toJson (c : UserCall) : Json :=
  .mk [("home_goals", .int c.score.homeGoals), ("away_goals", .int c.score.awayGoals),
    ("outcome", .str c.outcome.name)]

def Rival.toJson (r : Rival) : Json :=
  .mk [("family", .str r.family), ("capability", .str r.capability.name),
    ("score_pick", (r.scorePick.map Score.toJson).getD .null),
    ("outcome_pick", textOrNull (r.outcomePick.map Outcome.name))]

def AnalysisFingerprint.toJson (f : AnalysisFingerprint) : Json :=
  .mk [("index_fingerprint", .str f.indexFingerprint),
    ("analysis_schema_version", .str f.analysisSchemaVersion),
    ("information_cutoff_utc", .str f.informationCutoffUtc)]

def MatchSnapshot.toJson (m : MatchSnapshot) : Json :=
  .mk [("match_id", .str m.matchId), ("kickoff_utc", .str (isoText m.kickoffUtc)),
    ("kickoff_time_known", .bool m.kickoffTimeKnown), ("home_team", .str m.homeTeam),
    ("away_team", .str m.awayTeam), ("home_norm", .str m.homeNorm), ("away_norm", .str m.awayNorm),
    ("competition", textOrNull m.competition)]

/-- A record without its id and its digest. -/
def UserPick.stableJson (r : UserPick) : Json :=
  .mk [("schema_version", .str pickSchemaVersion), ("status", .str r.status.name),
    ("match", r.fixture.toJson), ("user_pick", r.userPick.toJson),
    ("rivals", .arr (r.rivals.map Rival.toJson)),
    ("analysis_fingerprint", r.analysisFingerprint.toJson),
    ("created_at_utc", .str (isoText r.createdAtUtc)),
    ("updated_at_utc", .str (isoText r.updatedAtUtc)),
    ("lock_at_utc", .str (isoText r.lockAtUtc)),
    ("locked_at_utc", textOrNull (r.lockedAtUtc.map isoText))]

/-- A record without its digest. -/
def UserPick.payloadJson (r : UserPick) : Json := r.stableJson.set "pick_id" (textOrNull r.pickId)

/-- A record as JSON. -/
def UserPick.toJson (r : UserPick) : Json :=
  r.payloadJson.set "payload_sha256" (textOrNull r.payloadSha256)

/-- The bytes of a record's file (`canonical_pick_bytes`). -/
def canonicalPickBytes (r : UserPick) : List Char := Json.dumps r.toJson

/-- The content address of a record (`pick_id` of its stable payload). -/
def pickIdOf (rt : Runtime) (r : UserPick) : String :=
  String.ofList ("pk_".toList ++ (rt.sha256 (Json.dumps r.stableJson)).toList.take 20)

/-- The digest of a record without the digest (`pick_payload_sha256`). -/
def pickPayloadSha256 (rt : Runtime) (r : UserPick) : String := rt.sha256 (Json.dumps r.payloadJson)

/-! ## Validation -/

/-- Goals a call may have. -/
def Score.inRange (s : Score) : Bool :=
  0 ≤ s.homeGoals && s.homeGoals ≤ 20 && 0 ≤ s.awayGoals && s.awayGoals ≤ 20

/-- A rival's call fits what it can be scored on. -/
def Rival.valid (r : Rival) : Bool :=
  r.family ∈ scoredRivalFamilies && r.scorePick.all Score.inRange &&
    match r.capability with
    | .score => r.scorePick.isSome && r.outcomePick.isSome
    | .outcomeOnly => r.scorePick.isNone && r.outcomePick.isSome
    | .abstained => r.scorePick.isNone && r.outcomePick.isNone

def MatchSnapshot.valid (rt : Runtime) (m : MatchSnapshot) : Bool :=
  m.matchId ≠ "" && m.homeTeam ≠ "" && m.awayTeam ≠ "" && m.homeNorm ≠ "" && m.awayNorm ≠ "" &&
    rt.formats "date-time" (isoText m.kickoffUtc)

def AnalysisFingerprint.valid (rt : Runtime) (f : AnalysisFingerprint) : Bool :=
  f.indexFingerprint ≠ "" && f.analysisSchemaVersion ≠ "" &&
    rt.formats "date-time" f.informationCutoffUtc

/-- Whether a text is a pick's content address. -/
def isPickId (s : String) : Bool :=
  s.toList.take 3 = ['p', 'k', '_'] && (s.toList.drop 3).length = 20 &&
    (s.toList.drop 3).all isHexChar

/-- Whether a record is a draft's or a locked pick's (`oneOf`). -/
def UserPick.validStatus (rt : Runtime) (r : UserPick) : Bool :=
  match r.status with
  | .draft => r.pickId.isNone && r.lockedAtUtc.isNone && r.payloadSha256.isNone
  | .locked => r.pickId.any isPickId &&
      r.lockedAtUtc.any (fun t => rt.formats "date-time" (isoText t)) &&
      r.payloadSha256.any fun s => s.toList.length = 64 && s.toList.all isHexChar

/-- Whether a record meets the contract (`validate_user_pick`). -/
def validateUserPick (rt : Runtime) (r : UserPick) : Bool :=
  r.fixture.valid rt && r.userPick.score.inRange && decide (r.rivals.length ≤ 5) &&
    r.rivals.all Rival.valid && r.analysisFingerprint.valid rt &&
    rt.formats "date-time" (isoText r.createdAtUtc) &&
    rt.formats "date-time" (isoText r.updatedAtUtc) &&
    rt.formats "date-time" (isoText r.lockAtUtc) && r.validStatus rt

/-- Whether a locked record is valid and its id, its digest and its file's name agree
(`verify_pick_integrity`). -/
def verifyPickIntegrity (rt : Runtime) (r : UserPick) (expectedId : String) : Bool :=
  validateUserPick rt r && r.status = .locked &&
    r.payloadSha256 = some (pickPayloadSha256 rt r) && r.pickId = some (pickIdOf rt r) &&
    expectedId = pickIdOf rt r

/-! ## Scoring -/

/-- Points of a call. -/
structure PickPoints where
  exact : Int
  outcome : Int
  total : Int
  deriving DecidableEq, Repr

def pointsForCall (score : Option Score) (outcome : Option Outcome) (result : Score) : PickPoints :=
  let exact := if score = some result then 3 else 0
  let outcomePoints :=
    if outcome = some (outcomeOf result.homeGoals result.awayGoals) then 1 else 0
  ⟨exact, outcomePoints, exact + outcomePoints⟩

structure RivalPoints where
  family : String
  points : PickPoints
  deriving DecidableEq, Repr

/-- The score of a pick and its rivals. -/
structure PickScoring where
  exact : Int
  outcome : Int
  bonus : Int
  total : Int
  rivals : List RivalPoints
  beatAi : Bool
  bestRivalTotal : Int
  deriving DecidableEq, Repr

/-- Score the user and all rivals by the same rules (`score_pick`). -/
def scorePick (r : UserPick) (result : Score) : PickScoring :=
  let user := pointsForCall (some r.userPick.score) (some r.userPick.outcome) result
  let points := r.rivals.map fun rival =>
    (rival, pointsForCall rival.scorePick rival.outcomePick result)
  let played := (points.filter (·.1.capability ≠ .abstained)).map (·.2.total)
  let best := played.foldl max 0
  let beat := !played.isEmpty && best < user.total
  let bonus := if beat then 1 else 0
  ⟨user.exact, user.outcome, bonus, user.total + bonus,
    points.map fun p => ⟨p.1.family, p.2⟩, beat, best⟩

/-- The season of a kickoff: July to June (`football_season`). -/
def footballSeason (kickoffUtc : Int) : String :=
  let date := Lib.Calendar.civilOfDays (utcDay kickoffUtc)
  let first := if 7 ≤ date.month then date.year else date.year - 1
  String.ofList (Json.fixedDigits 4 first.toNat ++ '-' :: Json.fixedDigits 2 (first + 1).toNat)

/-! ## Sealing -/

/-- The locked record of a draft (`_sealed_record`), before it is validated. The time of the lock is
also the last update's. -/
def sealedRecord (rt : Runtime) (draft : UserPick) (lockAt : Int) : UserPick :=
  let record := { draft with
    status := .locked
    lockAtUtc := wholeSeconds lockAt
    lockedAtUtc := some (wholeSeconds lockAt)
    updatedAtUtc := wholeSeconds lockAt }
  let addressed := { record with pickId := some (pickIdOf rt record) }
  { addressed with payloadSha256 := some (pickPayloadSha256 rt addressed) }

variable (rt : Runtime) (draft : UserPick) (lockAt : Int)

@[simp] theorem sealedRecord_fixture : (sealedRecord rt draft lockAt).fixture = draft.fixture := rfl

@[simp] theorem sealedRecord_userPick : (sealedRecord rt draft lockAt).userPick = draft.userPick := rfl

@[simp] theorem sealedRecord_lockedAtUtc :
    (sealedRecord rt draft lockAt).lockedAtUtc = some (wholeSeconds lockAt) := rfl

/-- A content address is one. -/
theorem isPickId_pickIdOf (r : UserPick) : isPickId (pickIdOf rt r) = true := by
  obtain ⟨hlength, hhex⟩ := rt.sha256_hex (Json.dumps r.stableJson)
  have htext : (pickIdOf rt r).toList =
      ['p', 'k', '_'] ++ (rt.sha256 (Json.dumps r.stableJson)).toList.take 20 := by
    simp [pickIdOf]
  have hall : ((rt.sha256 (Json.dumps r.stableJson)).toList.take 20).all isHexChar = true :=
    List.all_eq_true.mpr fun c hc => List.all_eq_true.mp hhex c (List.mem_of_mem_take hc)
  rw [isPickId, htext]
  simp [hlength, hall]

/-- **Sealing a valid draft gives a valid record**, where the lock can be written. -/
theorem validateUserPick_sealedRecord (h : validateUserPick rt draft = true)
    (hformat : rt.formats "date-time" (isoText (wholeSeconds lockAt)) = true) :
    validateUserPick rt (sealedRecord rt draft lockAt) = true := by
  obtain ⟨hlength, hhex⟩ :=
    rt.sha256_hex (Json.dumps (UserPick.payloadJson (sealedRecord rt draft lockAt)))
  have hid : (sealedRecord rt draft lockAt).pickId.any isPickId = true := by
    simp only [sealedRecord, Option.any_some]
    exact isPickId_pickIdOf rt _
  have hpayload : ((sealedRecord rt draft lockAt).payloadSha256.any fun s =>
      s.toList.length = 64 && s.toList.all isHexChar) = true := by
    have hsome : (sealedRecord rt draft lockAt).payloadSha256 =
        some (rt.sha256 (Json.dumps (UserPick.payloadJson (sealedRecord rt draft lockAt)))) := rfl
    rw [hsome, Option.any_some, hlength, hhex]
    rfl
  have hstatus : (sealedRecord rt draft lockAt).validStatus rt = true := by
    have hlocked : (sealedRecord rt draft lockAt).lockedAtUtc.any
        (fun t => rt.formats "date-time" (isoText t)) = true := by
      rw [sealedRecord_lockedAtUtc, Option.any_some, hformat]
    have hkind : (sealedRecord rt draft lockAt).status = .locked := rfl
    rw [UserPick.validStatus, hkind]
    simp only [hid, hlocked, hpayload, Bool.and_self]
  simp only [validateUserPick, Bool.and_eq_true] at h ⊢
  obtain ⟨⟨⟨⟨⟨⟨⟨⟨hfixture, hscore⟩, hcount⟩, hrivals⟩, hanalysis⟩, hcreated⟩, -⟩, -⟩, -⟩ := h
  exact ⟨⟨⟨⟨⟨⟨⟨⟨hfixture, hscore⟩, hcount⟩, hrivals⟩, hanalysis⟩, hcreated⟩, hformat⟩, hformat⟩,
    hstatus⟩

/-- **A sealed record that is valid verifies** under its own address. -/
theorem verifyPickIntegrity_sealedRecord
    (h : validateUserPick rt (sealedRecord rt draft lockAt) = true) :
    verifyPickIntegrity rt (sealedRecord rt draft lockAt)
      (pickIdOf rt (sealedRecord rt draft lockAt)) = true := by
  rw [verifyPickIntegrity, h]
  simp only [Bool.true_and, decide_true, Bool.and_true, Bool.and_eq_true, decide_eq_true_eq]
  exact ⟨⟨rfl, rfl⟩, rfl⟩

end Golavo.Picks
