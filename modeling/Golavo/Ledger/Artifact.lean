import Golavo.Ledger.Canonical
import Golavo.Lib.Check
import Golavo.Lib.Schema
import Golavo.Lib.Sha256

/-! # Forecast artifacts

The public schema of a ForecastArtifact and the two checks every path makes: `validate_artifact`
(the schema, probabilities that sum to one, a coherent score matrix) and
`verify_artifact_integrity`, which recomputes the payload hash and the content-addressed id. The hash
is a parameter; its digests are 64 lower-case hexadecimal digits. -/

namespace Golavo.Ledger

open Golavo.Lib (Decimal Json Schema failIf orFail bind_ok_iff failIf_ok_iff orFail_ok_iff)
open Golavo.Forecast (Triple tripleSum ScoreMatrix Violation storedCoherenceViolations)

/-! ## Texts -/

/-- A lower-case hexadecimal digit. -/
def isHexChar (c : Char) : Bool := ('0' ≤ c && c ≤ '9') || ('a' ≤ c && c ≤ 'f')

/-- A lower-case letter or a digit. -/
def isIdChar (c : Char) : Bool := ('0' ≤ c && c ≤ '9') || ('a' ≤ c && c ≤ 'z')

/-- A pattern anchored at both ends: `$` also matches before a final line feed. -/
def onLine (test : List Char → Bool) (s : String) : Bool :=
  test s.toList || match s.toList.reverse with
    | '\n' :: rest => test rest.reverse
    | _ => false

/-- The pattern `^fa_[a-z0-9]{8,}$`. -/
def isArtifactIdText : String → Bool :=
  onLine fun s => s.take 3 = ['f', 'a', '_'] && 8 ≤ (s.drop 3).length && (s.drop 3).all isIdChar

/-- The pattern `^[a-f0-9]{64}$`. -/
def isSha256Text : String → Bool := onLine fun s => s.length = 64 && s.all isHexChar

/-- The pattern `^[a-f0-9]{7,40}$`. -/
def isGitShaText : String → Bool :=
  onLine fun s => 7 ≤ s.length && s.length ≤ 40 && s.all isHexChar

/-- `minLength: 1`. -/
def nonempty (s : String) : Bool := s ≠ ""

theorem onLine_of_test {test : List Char → Bool} {s : String} (h : test s.toList = true) :
    onLine test s = true := by
  simp [onLine, h]

/-! ## The schema -/

section Schema

-- the format checker: a format's name, a text, and whether the text has the format
variable (formats : String → String → Bool)

/-- A text of any length. -/
def anyText : Schema := .string fun _ => true

/-- A text of at least one character. -/
def someText : Schema := .string nonempty

/-- A text of a named format. -/
def formatted (name : String) : Schema := .string (formats name)

/-- A value a schema accepts, or null. -/
def nullOr (s : Schema) : Schema := .oneOf [.null, s]

/-- A probability. -/
def probability : Schema := .number (some 0) (some 1)

/-- A nonnegative number. -/
def nonnegative : Schema := .number (some 0) none

def matchProperties : List (String × Schema) :=
  [("match_id", someText), ("competition", someText), ("stage", nullOr anyText),
    ("kickoff_utc", formatted formats "date-time"), ("home_team", someText),
    ("away_team", someText), ("neutral_venue", .boolean), ("city", nullOr anyText),
    ("country", nullOr anyText)]

def matchRequired : List String :=
  ["match_id", "competition", "kickoff_utc", "home_team", "away_team", "neutral_venue"]

def tripleProperties : List (String × Schema) :=
  [("home", probability), ("draw", probability), ("away", probability)]

def probabilities : Schema := .object ["home", "draw", "away"] tripleProperties

def expectedGoalsSchema : Schema :=
  .object ["home", "away"] [("home", nonnegative), ("away", nonnegative)]

def tailSchema : Schema :=
  .object ["probability", "home", "draw", "away"]
    [("probability", probability), ("home", probability), ("draw", probability),
      ("away", probability)]

def mostLikelySchema : Schema :=
  .object ["home", "away", "probability"]
    [("home", .integer (some 0)), ("away", .integer (some 0)), ("probability", probability)]

def scoreMatrixSchema : Schema :=
  .object ["max_goals", "resolution", "grid", "tail", "most_likely", "total_probability"]
    [("max_goals", .integer (some 1)), ("resolution", .integer (some 1)),
      ("grid", .array 1 (.array 1 probability)), ("tail", tailSchema),
      ("most_likely", mostLikelySchema), ("total_probability", nonnegative)]

def forecastProperties : List (String × Schema) :=
  [("market", .enum [.str "1x2_regulation"]), ("sealed_at_utc", formatted formats "date-time"),
    ("horizon", .enum [.str "T-72h", .str "T-24h", .str "T-60m"]),
    ("probs", nullOr probabilities), ("expected_goals", nullOr expectedGoalsSchema),
    ("abstained", .boolean), ("abstain_reason", nullOr anyText),
    ("uncertainty", .enum [.str "low", .str "medium", .str "high"]),
    ("score_matrix", scoreMatrixSchema)]

def forecastRequired : List String :=
  ["market", "sealed_at_utc", "horizon", "probs", "expected_goals", "abstained",
    "abstain_reason", "uncertainty"]

/-- The families a seal may carry. -/
def frozenFamilies : List String :=
  ["climatological", "elo_ordlogit", "poisson_independent", "dixon_coles", "bivariate_poisson"]

def modelSchema : Schema :=
  .object ["model_id", "family", "version", "params_hash", "code_git_sha", "seed"]
    [("model_id", someText), ("family", .enum (frozenFamilies.map Json.str)),
      ("version", someText), ("params_hash", .string isSha256Text),
      ("code_git_sha", .string isGitShaText), ("seed", .integer none)]

def snapshotSchema : Schema :=
  .object ["snapshot_id", "source_id", "url", "upstream_ref", "retrieved_at_utc", "sha256",
      "license"]
    [("snapshot_id", someText), ("source_id", someText), ("url", formatted formats "uri"),
      ("upstream_ref", someText), ("retrieved_at_utc", formatted formats "date-time"),
      ("upstream_committed_at_utc", nullOr (formatted formats "date-time")),
      ("sha256", .string isSha256Text), ("license", someText)]

def inputsProperties : List (String × Schema) :=
  [("training_cutoff_utc", formatted formats "date-time"),
    ("snapshots", .array 1 (snapshotSchema formats))]

def inputsRequired : List String := ["training_cutoff_utc", "snapshots"]

def provenanceProperties : List (String × Schema) :=
  [("created_at_utc", formatted formats "date-time"), ("generator", someText),
    ("deterministic", .enum [.bool true]), ("payload_sha256", .string isSha256Text)]

def provenanceRequired : List String :=
  ["created_at_utc", "generator", "deterministic", "payload_sha256"]

def actualSchema : Schema :=
  .object ["home_goals", "away_goals", "outcome"]
    [("home_goals", .integer (some 0)), ("away_goals", .integer (some 0)),
      ("outcome", .enum [.str "home", .str "draw", .str "away"])]

def metricsSchema : Schema :=
  .object ["log_loss", "brier", "prob_assigned_to_outcome"]
    [("log_loss", nonnegative), ("brier", nonnegative), ("prob_assigned_to_outcome", probability)]

def evaluationSchema : Schema :=
  .object ["actual", "scored_at_utc", "metrics"]
    [("actual", actualSchema), ("scored_at_utc", formatted formats "date-time"),
      ("metrics", metricsSchema)]

def artifactRequired : List String :=
  ["schema_version", "artifact_id", "status", "match", "forecast", "model", "inputs",
    "provenance", "evaluation"]

def artifactProperties : List (String × Schema) :=
  [("schema_version", .enum [.str "0.1.0", .str "0.2.0"]),
    ("artifact_id", .string isArtifactIdText),
    ("status", .enum [.str "sealed", .str "scored", .str "abstained", .str "voided"]),
    ("supersedes", nullOr (.string isArtifactIdText)), ("void_reason", nullOr someText),
    ("match", .object matchRequired (matchProperties formats)),
    ("forecast", .object forecastRequired (forecastProperties formats)),
    ("model", modelSchema),
    ("inputs", .object inputsRequired (inputsProperties formats)),
    ("provenance", .object provenanceRequired (provenanceProperties formats)),
    ("evaluation", nullOr (evaluationSchema formats))]

/-- The schema of a ForecastArtifact. -/
def artifactSchema : Schema := .object artifactRequired (artifactProperties formats)

end Schema

/-! ## Reading a score matrix -/

/-- `int(value)` of a nonnegative JSON number. -/
def natOf (j : Json) : Option Nat := (floatOf j).map fun d => (d.units 0).toNat

/-- A row of the grid. -/
def rowOf : Json → Option (List Decimal)
  | .arr xs => xs.mapM floatOf
  | _ => none

/-- The grid. -/
def gridJsonOf : Json → Option (List (List Decimal))
  | .arr rows => rows.mapM rowOf
  | _ => none

/-- Read the `score_matrix` object of an artifact. -/
def scoreMatrixOf (j : Json) : Option ScoreMatrix := do
  let maxGoals ← (j.get "max_goals").bind natOf
  let resolution ← (j.get "resolution").bind natOf
  let grid ← (j.get "grid").bind gridJsonOf
  let tail ← j.get "tail"
  let tailTriple ← tripleOf tail
  let tailProbability ← (tail.get "probability").bind floatOf
  let best ← j.get "most_likely"
  let bestHome ← (best.get "home").bind natOf
  let bestAway ← (best.get "away").bind natOf
  let bestProbability ← (best.get "probability").bind floatOf
  let total ← (j.get "total_probability").bind floatOf
  some
    { maxGoals := maxGoals, resolution := resolution, grid := grid, tail := tailTriple
      tailProbability := tailProbability, mostLikelyHome := bestHome
      mostLikelyAway := bestAway, mostLikelyProbability := bestProbability
      totalProbability := total }

/-- The `score_matrix` object of an artifact. -/
def scoreMatrixJson (s : ScoreMatrix) : Json :=
  .mk [("max_goals", .int s.maxGoals), ("resolution", .int s.resolution),
    ("grid", .arr (s.grid.map fun row => .arr (row.map .float))),
    ("tail", .mk [("probability", .float s.tailProbability), ("home", .float s.tail.home),
      ("draw", .float s.tail.draw), ("away", .float s.tail.away)]),
    ("most_likely", .mk [("home", .int s.mostLikelyHome), ("away", .int s.mostLikelyAway),
      ("probability", .float s.mostLikelyProbability)]),
    ("total_probability", .float s.totalProbability)]

theorem mapM_map_some {α β : Type} {f : α → β} {g : β → Option α} (h : ∀ x, g (f x) = some x)
    (l : List α) : (l.map f).mapM g = some l := by
  induction l with
  | nil => rfl
  | cons x l ih => simp [h, ih]

@[simp] theorem natOf_int (n : Nat) : natOf (.int n) = some n := by
  simp [natOf, floatOf]

/-- A stored score matrix is read back. -/
@[simp] theorem scoreMatrixOf_scoreMatrixJson (s : ScoreMatrix) :
    scoreMatrixOf (scoreMatrixJson s) = some s := by
  have hrow : ∀ row : List Decimal, rowOf (.arr (row.map .float)) = some row := fun row =>
    mapM_map_some (f := Json.float) (g := floatOf) (fun _ => rfl) row
  have hgrid : gridJsonOf (.arr (s.grid.map fun row => .arr (row.map .float))) = some s.grid :=
    mapM_map_some hrow s.grid
  simp [scoreMatrixOf, scoreMatrixJson, tripleOf, Json.get_mk, Lib.Fields.getField, floatOf, hgrid]

@[simp] theorem wf_scoreMatrixJson (s : ScoreMatrix) : (scoreMatrixJson s).WF := by
  refine Json.wf_mk ?_
  intro field hfield
  simp only [List.mem_cons, List.not_mem_nil, or_false] at hfield
  rcases hfield with rfl | rfl | rfl | rfl | rfl | rfl
  · simp
  · simp
  · simp only [Json.wf_arr, List.mem_map]
    rintro _ ⟨row, -, rfl⟩
    simp only [Json.wf_arr, List.mem_map]
    rintro _ ⟨d, -, rfl⟩
    simp
  · exact Json.wf_mk (by simp)
  · exact Json.wf_mk (by simp)
  · simp

/-! ## Validation -/

/-- What makes an artifact unacceptable. -/
inductive ArtifactError where
  /-- The schema rejects it. -/
  | schema
  /-- A value the checks read is missing or of the wrong type. -/
  | unreadable
  /-- Its probabilities do not sum to one. -/
  | probsSum
  /-- It has a score matrix but no probabilities. -/
  | matrixWithoutProbs
  /-- Its score matrix is incoherent. -/
  | incoherent (violations : List Violation)
  /-- Its stored payload hash is not its content's. -/
  | payloadMismatch (stored : Option Json) (recomputed : String)
  /-- Its stored id is not its content's. -/
  | idMismatch (stored : Option Json) (recomputed : String)
  /-- Its file name is not its content's id. -/
  | fileMismatch (expected recomputed : String)
  deriving DecidableEq

/-- How far the sum of the stored probabilities may be from one. -/
def sumTolerance : Decimal := .ofScaled 1 6

/-- The score matrix of an artifact's forecast, if it has one. -/
def matrixOf (artifact : Json) : Option Json :=
  (artifact.get "forecast").bind fun forecast =>
    match forecast.get "score_matrix" with
    | some .null => none
    | other => other

/-- The stored matrix, where there is one, is coherent with the probabilities. -/
def checkMatrix (artifact : Json) (t : Triple) : Except ArtifactError Unit :=
  match matrixOf artifact with
  | none => .ok ()
  | some stored => do
      let s ← orFail .unreadable (scoreMatrixOf stored)
      failIf (storedCoherenceViolations s t ≠ []) (.incoherent (storedCoherenceViolations s t))

/-- The checks beyond the schema: the sum of the probabilities, and coherence of the matrix. -/
def validateForecast (artifact : Json) : Except ArtifactError Unit :=
  match probsOf artifact with
  | none => failIf ((matrixOf artifact).isSome = true) .matrixWithoutProbs
  | some probs => do
      let t ← orFail .unreadable (tripleOf probs)
      failIf (sumTolerance < (tripleSum t - 1).abs) .probsSum
      checkMatrix artifact t

/-- The runtime an artifact is made and read in. -/
structure Runtime where
  /-- The format checker. -/
  formats : String → String → Bool
  /-- The hexadecimal SHA-256 digest of some bytes. -/
  sha256 : List Char → String
  sha256_hex : ∀ bytes, (sha256 bytes).toList.length = 64 ∧ (sha256 bytes).toList.all isHexChar
  /-- `-math.log` of a probability. -/
  negLog : Decimal → Decimal
  negLog_nonneg : ∀ p, p.toRat ≤ 1 → 0 ≤ (negLog p).toRat

/-- A runtime without optional format checks whose logarithm knows one half. -/
def Runtime.standard : Runtime where
  formats _ _ := true
  sha256 := Lib.Sha256.hexdigest
  sha256_hex bytes := by
    have hdigits : Lib.Sha256.hexDigits.all isHexChar = true := by decide
    exact ⟨Lib.Sha256.length_hexdigest bytes,
      List.all_eq_true.mpr fun c hc =>
        List.all_eq_true.mp hdigits c (Lib.Sha256.mem_hexdigest hc)⟩
  negLog p := if p = .ofScaled 5 1 then .ofScaled 693147180559945 15 else 0
  negLog_nonneg p _ := by
    split_ifs
    · rw [Decimal.toRat_ofScaled]
      positivity
    · rw [Decimal.toRat_zero]

/-- `validate_artifact`. -/
def validateArtifact (rt : Runtime) (artifact : Json) : Except ArtifactError Unit :=
  if (artifactSchema rt.formats).accepts artifact then validateForecast artifact
  else .error .schema

/-! ## What validation asks -/

/-- The checks beyond the schema: readable probabilities that sum to one, and a coherent matrix. -/
def SoundForecast (a : Json) : Prop :=
  match probsOf a with
  | none => matrixOf a = none
  | some probs => ∃ t, tripleOf probs = some t ∧ ¬ sumTolerance < (tripleSum t - 1).abs ∧
      ∀ stored, matrixOf a = some stored →
        ∃ s, scoreMatrixOf stored = some s ∧ storedCoherenceViolations s t = []

theorem checkMatrix_ok_iff {a : Json} {t : Triple} :
    checkMatrix a t = .ok () ↔ ∀ stored, matrixOf a = some stored →
      ∃ s, scoreMatrixOf stored = some s ∧ storedCoherenceViolations s t = [] := by
  unfold checkMatrix
  cases matrixOf a with
  | none => simp
  | some stored => simp [bind_ok_iff]

theorem validateForecast_ok_iff {a : Json} : validateForecast a = .ok () ↔ SoundForecast a := by
  unfold validateForecast SoundForecast
  cases probsOf a with
  | none => simp
  | some probs =>
      simp only [bind_ok_iff, orFail_ok_iff, failIf_ok_iff, checkMatrix_ok_iff]
      simp

theorem validateArtifact_ok_iff {rt : Runtime} {a : Json} :
    validateArtifact rt a = .ok () ↔
      (artifactSchema rt.formats).accepts a = true ∧ SoundForecast a := by
  unfold validateArtifact
  split_ifs with h
  · simp [h, validateForecast_ok_iff]
  · simp [h]

/-- The checks read the forecast block alone. -/
theorem soundForecast_congr {a b : Json} (h : a.get "forecast" = b.get "forecast") :
    SoundForecast a ↔ SoundForecast b := by
  simp only [SoundForecast, probsOf, matrixOf, h]

/-! ## Hashes and ids -/

/-- The artifact without its self-referential digest. -/
def withoutDigest (artifact : Json) : Json :=
  artifact.update "provenance" (·.erase "payload_sha256")

/-- The part of an artifact its id is the hash of. -/
def stablePayload (artifact : Json) : Json := withoutDigest (artifact.erase "artifact_id")

/-- `payload_sha256`: the hash of the canonical JSON without the digest field. -/
def payloadSha256 (rt : Runtime) (artifact : Json) : Option String :=
  (canonicalBytes (withoutDigest artifact)).map rt.sha256

/-- The content-addressed id of a digest. -/
def idOfDigest (digest : String) : String := "fa_" ++ String.ofList (digest.toList.take 20)

/-- `_artifact_id`. -/
def artifactId (rt : Runtime) (stable : Json) : Option String :=
  (canonicalBytes stable).map fun bytes => idOfDigest (rt.sha256 bytes)

/-- Recompute the sealed identity and compare (`verify_artifact_integrity`). -/
def verifyArtifactIntegrity (rt : Runtime) (artifact : Json) (expectedId : Option String) :
    Except ArtifactError Json := do
  validateArtifact rt artifact
  let storedHash := (artifact.get "provenance").bind (·.get "payload_sha256")
  match payloadSha256 rt artifact, artifactId rt (stablePayload artifact) with
  | some recomputedHash, some recomputedId =>
      if storedHash ≠ some (.str recomputedHash) then
        throw (.payloadMismatch storedHash recomputedHash)
      if artifact.get "artifact_id" ≠ some (.str recomputedId) then
        throw (.idMismatch (artifact.get "artifact_id") recomputedId)
      match expectedId with
      | some expected =>
          if expected ≠ recomputedId then throw (.fileMismatch expected recomputedId)
          return artifact
      | none => return artifact
  | _, _ => throw .unreadable

end Golavo.Ledger
