import Golavo.Corrections.Transactions
import Golavo.Identity
import Mathlib.Data.List.Infix

/-! # Validating a proposal

`validate` looks at a proposal from several sides: its fields by its type, what its source may have
corrected, its evidence, the match the index has now, the other proposals for the same target, and the
source snapshots of the active generation. From what it finds it computes a verdict, which the store
applies. -/

namespace Golavo.Corrections

open Golavo.Lib (Json failIf orFail wrapError)
open Golavo.Ledger (Runtime)

/-! ## Values -/

/-- The value of a number; `True` is one and `False` is nought. -/
def numberOf : Json → Option ℚ
  | .bool b => some (if b then 1 else 0)
  | .int z => some z
  | .float d => some d.toRat
  | _ => none

mutual

/-- Whether two values are equal (`==`): numbers by their value, whatever their type. -/
def same : Json → Json → Bool
  | .arr a, .arr b => sameItems a b
  | .obj a, .obj b => sameFields a b
  | a, b =>
      match numberOf a, numberOf b with
      | some x, some y => x = y
      | _, _ => a = b

def sameItems : List Json → List Json → Bool
  | [], [] => true
  | x :: xs, y :: ys => same x y && sameItems xs ys
  | _, _ => false

def sameFields : List (String × Json) → List (String × Json) → Bool
  | [], [] => true
  | (k, x) :: xs, (l, y) :: ys => k == l && same x y && sameFields xs ys
  | _, _ => false

end

/-- A field of an object (`value.get(key)`). -/
def field (value : Json) (key : String) : Json := (value.get key).getD .null

/-- A value, or another where it counts as false (`a or b`). -/
def orElse (a b : Json) : Json := if a.truthy then a else b

/-- What the checks call of the interpreter. -/
structure ValidationHost extends Unicode where
  /-- Whether `datetime.fromisoformat` reads a text as an instant with an offset. -/
  readsAware : List Char → Bool
  /-- `str(value)`. -/
  text : Json → String
  /-- The SHA-256 digest of a file. -/
  digest : List UInt8 → String

/-- What validating a proposal fails with. -/
inductive ValidationFailure where
  | store (e : CorrectionFailure)
  /-- The interpreter cannot look a list or an object up in a set. -/
  | unhashable
  | unknownCorrectionType
  deriving DecidableEq, Repr

/-! ## The fields -/

def correctionTypes : List String :=
  ["missing_fixture", "kickoff_time", "team_alias", "venue", "final_score"]

/-- Whether a value can be looked up in a set. -/
def hashable : Json → Bool
  | .arr _ | .obj _ => false
  | _ => true

/-- Texts, each once, in order (`sorted(set(items))`). -/
def sortedSet (items : List String) : List String := items.dedup.insertionSort (· ≤ ·)

variable (host : ValidationHost)

/-- Whether a value is the text of an instant with an offset (`_parse_aware`). -/
def parseAware : Json → Bool
  | .str s => host.readsAware
      (s.toList.flatMap fun c => if c = 'Z' then "+00:00".toList else [c])
  | _ => false

/-- A text that is not blank (`_required_string`). -/
def requiredString (payload : Json) (key : String) : Option String :=
  match field payload key with
  | .str s => if s.toList.all host.isSpace then none else some s
  | _ => none

/-- Whether there are two names, and they differ by more than case. -/
def distinctNames (a b : Option String) : Bool :=
  match a, b with
  | some a, some b => host.casefold a.toList ≠ host.casefold b.toList
  | _, _ => false

/-- Whether a name stands for the winner or the loser of a match (`_PLACEHOLDER_RE`). -/
def isPlaceholder (name : String) : Bool :=
  match name.toList with
  | c :: digits => c ∈ ['W', 'w', 'L', 'l'] && digits.all Char.isDigit &&
      1 ≤ digits.length && digits.length ≤ 4
  | [] => false

/-- Whether a value is a whole number in a range, and no truth value. -/
def wholeIn (low : Int) (high : Option Int) : Json → Bool
  | .int z => low ≤ z && high.all (z ≤ ·)
  | _ => false

/-- A reason, where something is amiss. -/
def reasonIf (amiss : Bool) (reason : String) : List String := if amiss then [reason] else []

/-- What is amiss with a kickoff's precision. -/
def precisionReasons (proposed : Json) : Except ValidationFailure (List String) := do
  let precision := field proposed "kickoff_precision"
  failIf (¬ hashable precision) .unhashable
  return reasonIf (precision ∉ [.str "day", .str "minute", .str "exact"]) "invalid_kickoff_precision"

/-- What is amiss with a kickoff. -/
def kickoffReasons (proposed : Json) : List String :=
  reasonIf (!parseAware host (field proposed "kickoff_utc")) "kickoff_requires_rfc3339_offset"

/-- The teams an original names. -/
def exactTeams (original : Option Json) : List String :=
  match original with
  | some original =>
      if original.truthy then
        ["home_team", "away_team"].filterMap fun key =>
          match field original key with
          | .str s => some s
          | _ => none
      else []
  | none => []

/-- What is amiss with an alias. -/
def aliasReasons (proposed : Json) (original : Option Json) (sourceId : Option String) :
    List String :=
  let canonical := requiredString host proposed "canonical_team"
  let scope := field proposed "scope"
  let inScope := scope.isObj && (requiredString host scope "source_id").isSome
  reasonIf (!distinctNames host (requiredString host proposed "alias") canonical)
      "alias_requires_distinct_exact_names" ++
    reasonIf (!inScope) "alias_requires_source_scope" ++
    reasonIf (inScope && !same (field scope "source_id") (textOrNull sourceId))
      "alias_source_scope_mismatch" ++
    reasonIf (canonical.all (· ∉ exactTeams original)) "alias_requires_exact_indexed_team" ++
    match original with
    | some original =>
        if scope.isObj && original.truthy then
          ["competition", "country"].flatMap fun key =>
            reasonIf (field scope key ≠ .null && !same (field scope key) (field original key))
              ("alias_" ++ key ++ "_scope_mismatch")
        else []
    | none => []

/-- What is amiss with a venue. -/
def venueReasons (proposed : Json) : List String :=
  reasonIf (requiredString host proposed "venue_name").isNone "venue_name_required" ++
    reasonIf ((requiredString host proposed "city").isNone ||
      (requiredString host proposed "country").isNone) "venue_city_country_required"

/-- What is amiss with a final score. -/
def scoreReasons (proposed : Json) : List String :=
  let penalties := field proposed "penalties"
  reasonIf (!(wholeIn 0 (some 99) (field proposed "home_score") &&
      wholeIn 0 (some 99) (field proposed "away_score"))) "invalid_final_score" ++
    reasonIf (field proposed "score_basis" ≠ .str "regulation_plus_extra_time")
      "score_basis_required" ++
    reasonIf (penalties ≠ .null && !(penalties.isObj &&
      ["home", "away"].all fun key => wholeIn 0 none (field penalties key))) "invalid_penalty_score"

/-- What is amiss with a fixture, its kickoff apart. -/
def fixtureReasons (proposed : Json) : List String :=
  let home := requiredString host proposed "home_team"
  let away := requiredString host proposed "away_team"
  reasonIf (!distinctNames host home away) "fixture_requires_distinct_teams" ++
    reasonIf (home.any isPlaceholder) "placeholder_team_not_allowed" ++
    reasonIf (away.any isPlaceholder) "placeholder_team_not_allowed" ++
    reasonIf (requiredString host proposed "competition").isNone "fixture_competition_required" ++
    reasonIf (requiredString host proposed "upstream_record_key").isNone
      "upstream_record_key_required"

/-- What is amiss with the fields of a proposal (`_typed_reasons`). -/
def typedReasons (row : Proposal) : Except ValidationFailure (List String) := do
  let proposed := row.proposed
  match row.correctionType with
  | "kickoff_time" => do
      let precision ← precisionReasons proposed
      return sortedSet (kickoffReasons host proposed ++ precision)
  | "team_alias" => return sortedSet (aliasReasons host proposed row.original row.sourceId)
  | "venue" => return sortedSet (venueReasons host proposed)
  | "final_score" => return sortedSet (scoreReasons proposed)
  | "missing_fixture" => do
      let precision ← precisionReasons proposed
      return sortedSet (fixtureReasons host proposed ++ kickoffReasons host proposed ++ precision)
  | _ => return []

/-! ## The source -/

/-- Why a source may not have a type of correction, if it may not (`validate_type`); `allowed` are the
types the registry approves for it. -/
def validateType (reg : Registry) (allowed : String → List String) (sourceId : Option String)
    (correctionType : String) : Option String :=
  if correctionType ∉ correctionTypes then some "unknown_correction_type"
  else match reg.policyFor sourceId with
    | none => some "source_unregistered"
    | some _ =>
        if correctionType ∈ allowed (sourceId.getD "") then none else some "field_not_allowed"

/-! ## The match -/

/-- What a correction of a type would change of a match (`derive_original`). -/
def deriveOriginal (correctionType : String) (current : Json) :
    Except ValidationFailure (Option Json) :=
  let provenance := field current "provenance"
  let source (key : String) : Json := orElse (field provenance key) (field current "source_id")
  match correctionType with
  | "missing_fixture" => .ok none
  | "kickoff_time" => .ok <| some <| .mk
      [("kickoff_utc", field current "kickoff_utc"),
        ("kickoff_precision", field current "kickoff_precision"), ("source_id", source "kickoff")]
  | "venue" => .ok <| some <| .mk
      [("city", field current "city"), ("country", field current "country"),
        ("source_id", source "venue")]
  | "final_score" => .ok <| some <| .mk
      [("home_score", field current "home_score"), ("away_score", field current "away_score"),
        ("is_complete", .bool (field current "is_complete").truthy), ("source_id", source "result")]
  | "team_alias" => .ok <| some <| .mk
      [("home_team", field current "home_team"), ("away_team", field current "away_team"),
        ("competition", field current "competition"), ("country", field current "country"),
        ("source_id", source "identity")]
  | _ => .error .unknownCorrectionType

/-- What the index has against a proposal. -/
def matchConflicts (row : Proposal) (current : Option Json) :
    Except ValidationFailure (List Json) :=
  if row.correctionType ≠ "missing_fixture" then
    match current with
    | none => .ok [.mk [("reason_code", .str "target_match_missing")]]
    | some current => do
        let original ← deriveOriginal row.correctionType current
        if same (original.getD .null) (row.original.getD .null) then return []
        else return [.mk [("reason_code", .str "authoritative_base_changed"),
          ("original", row.original.getD .null), ("current", original.getD .null)]]
  else match current with
    | some current => .ok [.mk [("reason_code", .str "authoritative_fixture_already_exists"),
        ("match_id", field current "match_id")]]
    | none => .ok []

/-! ## The other proposals -/

/-- Whether a proposal competes with another: it is active, for the same target, and says otherwise. -/
def competes (row p : Proposal) : Bool :=
  p.correctionType = row.correctionType && p.target = row.target && p.proposalId ≠ row.proposalId &&
    p.state ∈ activeStates && !same p.proposed row.proposed

/-- The proposals that compete with one, in the order of their ids (`competing_proposals`). -/
def competingProposals (root : Root) (row : Proposal) : List Proposal :=
  (knownNamespaces.flatMap fun ns => (root ns).proposals.filter (competes row)).insertionSort
    fun a b => a.proposalId ≤ b.proposalId

/-- A competing proposal as a conflict. -/
def competingConflict (p : Proposal) : Json :=
  .mk [("reason_code", .str "competing_local_proposal"), ("proposal_id", .str p.proposalId),
    ("proposed", p.proposed)]

/-! ## The snapshots -/

/-- The receipt of a source's snapshot in a generation. -/
structure SnapshotReceipt where
  sourceId : String
  upstreamRef : String
  paths : List String

/-- An active generation that verifies: its receipts, and the files it holds by source, revision and
path. -/
structure Generation where
  snapshots : List SnapshotReceipt
  raw : String → String → String → Option (List UInt8)

/-- Everything a validation reads apart from the store. -/
structure Surroundings where
  /-- The match the index has for the proposal. -/
  current : Option Json
  generation : Option Generation
  /-- The captured evidence by namespace and digest. -/
  files : Namespace → String → Option (List UInt8)

/-- The texts a proposal's evidence must hold (`_proposed_tokens`). -/
def proposedTokens (row : Proposal) : List String :=
  let text (key : String) : String := host.text (orElse (field row.proposed key) (.str ""))
  let cut (start stop : Nat) (s : String) : String := String.ofList ((s.toList.take stop).drop start)
  match row.correctionType with
  | "missing_fixture" => [text "home_team", text "away_team", cut 0 10 (text "kickoff_utc")]
  | "kickoff_time" => [cut 0 10 (text "kickoff_utc"), cut 11 16 (text "kickoff_utc")]
  | "team_alias" => [text "alias", text "canonical_team"]
  | "venue" => [text "venue_name", text "city"]
  | "final_score" => [host.text (field row.proposed "home_score"),
      host.text (field row.proposed "away_score")]
  | _ => []

/-- The bytes of a text. -/
def encode (s : String) : List UInt8 := s.toUTF8.toList

/-- Bytes with the letters of ASCII in lower case (`bytes.lower`). -/
def lowerBytes (bytes : List UInt8) : List UInt8 :=
  bytes.map fun b => if 65 ≤ b && b ≤ 90 then b + 32 else b

/-- The evidence of a proposal that is not redacted, with its files (`raw_evidence`). -/
def rawEvidence (files : Namespace → String → Option (List UInt8)) (ns : Namespace)
    (held : List Evidence) : Except CorrectionFailure (List (Evidence × List UInt8)) :=
  (held.filter fun e => !e.redacted).mapM fun e => do
    let raw ← orFail (.fileRefused "evidence_unavailable") (files ns e.rawSha256)
    failIf (host.digest raw ≠ e.rawSha256) (.fileRefused "evidence_hash_mismatch")
    return (e, raw)

/-- Whether a path stays below where it starts. -/
def safePath (path : String) : Bool :=
  path.toList.head? ≠ some '/' && !(path.toList.splitOn '/').contains ['.', '.']

/-- Whether a piece of evidence stands in a file of the snapshot it names. -/
def inSnapshot (generation : Generation) (sourceId : String) (tokens : List String) (e : Evidence)
    (raw : List UInt8) : Bool :=
  let revision := e.sourceRevision.getD "None"
  match (generation.snapshots.filter (·.sourceId = sourceId)).reverse.find?
      (·.upstreamRef = revision) with
  | none => false
  | some receipt =>
      tokens.all (fun token => lowerBytes (encode token) <:+: lowerBytes raw) &&
        receipt.paths.any fun path => safePath path &&
          (generation.raw sourceId revision path).any fun bytes => raw <:+: bytes

/-- The evidence that stands in a snapshot of its source (`_snapshot_evidence_ids`). -/
def snapshotEvidenceIds (reg : Registry) (around : Surroundings) (ns : Namespace) (row : Proposal)
    (held : List Evidence) : Except CorrectionFailure (List String) :=
  match reg.policyFor row.sourceId, around.generation with
  | some policy, some generation =>
      if policy.licenseNamespace ≠ .coreCc0 then .ok []
      else do
        let tokens := (proposedTokens host row).filter (· ≠ "")
        let folded := tokens.map fun token => String.ofList (host.casefold token.toList)
        let raws ← rawEvidence host around.files ns held
        return sortedSet ((raws.filter fun p =>
          inSnapshot generation (row.sourceId.getD "") folded p.1 p.2).map fun p => p.1.evidenceId)
  | _, _ => .ok []

/-! ## The verdict -/

/-- The reasons to find against a proposal, conflicts apart. -/
def foundReasons (reg : Registry) (allowed : String → List String) (row : Proposal)
    (held : List Evidence) (typed : List String) : List String :=
  typed ++ (validateType reg allowed row.sourceId row.correctionType).toList ++
    reasonIf (held.all (·.redacted)) "source_url_and_captured_evidence_required"

/-- What a validation comes to, from what it found. -/
def verdictOf (reasons : List String) (conflicts : List Json) (held : List Evidence)
    (snapshotIds : List String) : Verdict :=
  let level := if snapshotIds = [] then "structural_only" else "snapshot_verified"
  if conflicts ≠ [] then
    ⟨.conflict, level, sortedSet (reasons ++ ["conflict_fails_closed"]), conflicts, snapshotIds⟩
  else if reasons ≠ [] then
    ⟨if held = [] then .draft else .evidenceAttached, "none", sortedSet reasons, conflicts, snapshotIds⟩
  else ⟨.validatedCandidate, level, [], conflicts, snapshotIds⟩

/-- The evidence that stands in a snapshot, looked for where there is no reason against a proposal. -/
def verifiedIds (reg : Registry) (around : Surroundings) (ns : Namespace) (row : Proposal)
    (held : List Evidence) (reasons : List String) : Except ValidationFailure (List String) :=
  if reasons = [] then wrapError .store (snapshotEvidenceIds host reg around ns row held) else .ok []

/-- The verdict on a proposal that was read. -/
def judge (reg : Registry) (allowed : String → List String) (around : Surroundings) (root : Root)
    (ns : Namespace) (row : Proposal) : Except ValidationFailure Verdict := do
  let held := (root ns).evidenceOf row.proposalId
  let typed ← typedReasons host row
  let reasons := foundReasons reg allowed row held typed
  let byMatch ← matchConflicts row around.current
  let conflicts := byMatch ++ (competingProposals root row).map competingConflict
  let ids ← verifiedIds host reg around ns row held reasons
  return verdictOf reasons conflicts held ids

/-- Validate a proposal (`validate`): read it, judge it and apply the verdict; the namespace it is in,
and that namespace's database after. -/
def validate (rt : Runtime) (reg : Registry) (allowed : String → List String)
    (around : Surroundings) (root : Root) (proposalId now : String) :
    Except ValidationFailure (Namespace × CorrectionDb) := do
  let seen ← wrapError .store (locate root proposalId)
  let verdict ← judge host reg allowed around root seen.1 seen.2
  let found ← wrapError .store (locate root proposalId)
  wrapError .store (checkValidation found.2 seen.2.headEventId verdict)
  let db ← wrapError .store (writeValidation rt (root found.1) found.2 verdict now)
  return (found.1, db)

end Golavo.Corrections
