import Golavo.Identity
import Golavo.Ledger.Artifact
import Golavo.Lib.Check
import Golavo.Lib.JsonText
import Golavo.Lib.Words

/-! # Candidate facts

Research captures a document and proposes facts that stand in it. `deterministic_candidates` takes the
aliases of a parsed item, `ai_candidate` what a model named; both build a record bound to the capture
by its receipts and by the quote, and `validate_stored_candidate` checks such a record again before it
is imported. -/

namespace Golavo.Research

open Golavo.Lib (Json failIf words unwords)
open Golavo.Lib.Sha256 (hexdigest)
open Golavo.Ledger (isHexChar)

/-- `canonical`, hashed. -/
def digestOf (value : Json) : String := hexdigest value.dumps

/-! ## Policies, documents and captures -/

/-- What a source permits, and how it is credited. -/
structure SourcePolicy where
  sourceId : String
  license : String
  licenseUrl : String
  attribution : String
  licenseNamespace : String
  permittedFactTypes : List String
  parserId : String
  parserVersion : String

/-- A document with its canonical text and what the source's parser found in it. -/
structure CanonicalDocument where
  text : String
  revisionId : Option String
  documentUrl : String
  parsed : Json

/-- What the fetcher returned, as far as a capture keeps it. -/
structure FetchResponse where
  canonicalUrl : String
  bodySha256 : String

/-- The receipt of a captured document. -/
structure Capture where
  captureId : String
  runId : String
  sourceId : String
  licenseNamespace : String
  documentUrl : String
  entityId : Json
  retrievedAtUtc : String
  revisionId : Option String
  rawSha256 : String
  canonicalTextSha256 : String
  canonicalText : String

/-- A text, or null. -/
def textOrNull : Option String → Json
  | some s => .str s
  | none => .null

/-- The value under a key, null where there is none (`value.get(key)`). -/
def getOrNull (value : Json) (key : String) : Json := (value.get key).getD .null

/-- Whether a value is a text or null. -/
def isTextOrNull : Json → Bool
  | .str _ | .null => true
  | _ => false

/-- `capture_id_for`. -/
def captureIdFor (runId sourceId canonicalUrl documentUrl : String) (entityId : Json)
    (rawSha256 : String) : String :=
  "rc_" ++ digestOf (.mk [("run_id", .str runId), ("source_id", .str sourceId),
    ("canonical_url", .str canonicalUrl), ("document_url", .str documentUrl),
    ("entity_id", entityId), ("raw_sha256", .str rawSha256)])

/-- `capture_payload`; a parsed identity that is neither text nor null is refused. -/
def capturePayload (runId : String) (response : FetchResponse) (policy : SourcePolicy)
    (document : CanonicalDocument) (now : String) : Option Capture :=
  let entityId := getOrNull document.parsed "qid"
  if isTextOrNull entityId then
    some {
      captureId := captureIdFor runId policy.sourceId response.canonicalUrl document.documentUrl
        entityId response.bodySha256
      runId := runId
      sourceId := policy.sourceId
      licenseNamespace := policy.licenseNamespace
      documentUrl := document.documentUrl
      entityId := entityId
      retrievedAtUtc := now
      revisionId := document.revisionId
      rawSha256 := response.bodySha256
      canonicalTextSha256 := hexdigest document.text.toList
      canonicalText := document.text }
  else none

/-! ## Quotes -/

/-- `_fold`: NFKC, case folded, runs of white space as one space. -/
def fold (u : Unicode) (s : String) : List Char :=
  unwords (words u.isSpace (u.casefold (u.nfkc s.toList)))

/-- Where a part first stands in a text (`text.find(part)`). -/
def find (part text : List Char) : Option Nat :=
  (List.range (text.length + 1)).find? fun i => part.isPrefixOf (text.drop i)

/-- Whether a part stands in a text (`part in text`). -/
def occurs (part text : List Char) : Bool := (find part text).isSome

/-- The items of a list between two places (`text[start:stop]`). -/
def slice (text : List Char) (start stop : Nat) : List Char := (text.take stop).drop start

/-- The stretch of a text that is quoted for a value: its line, or the part around the value of a
line longer than 4000 characters (`_quote_span`). -/
def quoteSpan (text value : List Char) : Option (List Char × Nat × Nat) :=
  match find value text with
  | none => none
  | some index =>
      let lineStart := index - ((text.take index).reverse.takeWhile (· ≠ '\n')).length
      let lineEnd := index + ((text.drop index).takeWhile (· ≠ '\n')).length
      if 4000 < lineEnd - lineStart then
        let valueEnd := index + value.length
        let start := max lineStart (index - 1000)
        let stop := min lineEnd (max (valueEnd + 1000) (start + 4000))
        let start := max start (stop - 4000)
        some (slice text start stop, start, stop)
      else some (slice text lineStart lineEnd, lineStart, lineEnd)

/-! ## Candidates -/

inductive CorrectionType where
  | teamAlias
  | venue
  deriving DecidableEq, Repr

def CorrectionType.name : CorrectionType → String
  | .teamAlias => "team_alias"
  | .venue => "venue"

inductive CandidateState where
  | reviewRequired
  | queuedAsDraft
  | rejected
  | conflict
  | stale
  deriving DecidableEq, Repr

structure Target where
  matchId : String
  entityId : Json
  upstreamRecordKey : Option String
  indexFingerprint : String
  deriving DecidableEq

structure Source where
  sourceId : String
  canonicalUrl : String
  retrievedAtUtc : String
  revisionId : Option String
  license : String
  licenseUrl : String
  attribution : String
  modifications : String
  licenseNamespace : String
  deriving DecidableEq

structure Evidence where
  captureId : String
  rawSha256 : String
  canonicalTextSha256 : String
  exactQuote : List Char
  quoteStart : Nat
  quoteEnd : Nat
  parserLocator : Option String
  deriving DecidableEq

structure Extractor where
  kind : String
  id : String
  version : String
  model : Option String
  promptVersion : Option String
  outputSha256 : String
  deriving DecidableEq

structure Validation where
  quoteMatch : Bool
  valueMatch : Bool
  identityMatch : Bool
  policyMatch : Bool
  conflictState : String
  reasonCodes : List String
  deriving DecidableEq

/-- A candidate fact; its version, its authority and its effects are constants. -/
structure Candidate where
  candidateId : String
  runId : String
  state : CandidateState
  correctionType : CorrectionType
  target : Target
  proposed : Json
  source : Source
  evidence : Evidence
  extractor : Extractor
  validation : Validation
  queuedProposalId : Option String
  createdAtUtc : String
  deriving DecidableEq

/-- Every field of a candidate but its id and its place in the queue. -/
def Candidate.material (c : Candidate) : Json :=
  .mk [("schema_version", .str "0.1.0"), ("run_id", .str c.runId),
    ("authority", .str "untrusted_candidate"), ("correction_type", .str c.correctionType.name),
    ("target", .mk [("match_id", .str c.target.matchId), ("entity_id", c.target.entityId),
      ("upstream_record_key", textOrNull c.target.upstreamRecordKey),
      ("index_fingerprint", .str c.target.indexFingerprint)]),
    ("proposed", c.proposed),
    ("source", .mk [("source_id", .str c.source.sourceId),
      ("canonical_url", .str c.source.canonicalUrl),
      ("retrieved_at_utc", .str c.source.retrievedAtUtc),
      ("revision_id", textOrNull c.source.revisionId), ("license", .str c.source.license),
      ("license_url", .str c.source.licenseUrl), ("attribution", .str c.source.attribution),
      ("modifications", .str c.source.modifications),
      ("license_namespace", .str c.source.licenseNamespace)]),
    ("evidence", .mk [("capture_id", .str c.evidence.captureId),
      ("raw_sha256", .str c.evidence.rawSha256),
      ("canonical_text_sha256", .str c.evidence.canonicalTextSha256),
      ("exact_quote", .str (String.ofList c.evidence.exactQuote)),
      ("quote_start", .int c.evidence.quoteStart), ("quote_end", .int c.evidence.quoteEnd),
      ("parser_locator", textOrNull c.evidence.parserLocator)]),
    ("extractor", .mk [("kind", .str c.extractor.kind), ("id", .str c.extractor.id),
      ("version", .str c.extractor.version), ("model", textOrNull c.extractor.model),
      ("prompt_version", textOrNull c.extractor.promptVersion),
      ("output_sha256", .str c.extractor.outputSha256)]),
    ("validation", .mk [("quote_match", .bool c.validation.quoteMatch),
      ("value_match", .bool c.validation.valueMatch),
      ("identity_match", .bool c.validation.identityMatch),
      ("policy_match", .bool c.validation.policyMatch),
      ("conflict_state", .str c.validation.conflictState),
      ("reason_codes", .arr (c.validation.reasonCodes.map .str))]),
    ("effects", .mk [("authoritative_override", .bool false), ("forecast_input", .bool false),
      ("model_input", .bool false), ("settlement_input", .bool false),
      ("calibration_input", .bool false)]),
    ("created_at_utc", .str c.createdAtUtc)]

/-- `candidate_digest`. -/
def candidateDigest (c : Candidate) : String := digestOf c.material

/-! ## The schema -/

/-- Whether a text is a tag and then hexadecimal digits, up to a final line feed
(`^tag[0-9a-f]{count}$`). -/
def isTaggedHex (tag : String) (count : Nat) (s : String) : Bool :=
  let rest := s.toList.drop tag.toList.length
  tag.toList.isPrefixOf s.toList && (rest.take count).length = count &&
    (rest.take count).all isHexChar && (rest.drop count = [] || rest.drop count = ['\n'])

/-- Whether a value is an object with a property. -/
def isNonemptyObject : Json → Bool
  | .obj fields => !fields.isEmpty
  | _ => false

/-- What `candidate_fact.schema.json` asks of a candidate beyond the types of its fields. -/
def Candidate.conforms (c : Candidate) : Bool :=
  isTaggedHex "cf_" 64 c.candidateId && isTaggedHex "rr_" 32 c.runId && c.target.matchId ≠ "" &&
    isTextOrNull c.target.entityId && isTaggedHex "" 64 c.target.indexFingerprint &&
    isNonemptyObject c.proposed && c.source.attribution ≠ "" &&
    c.source.modifications = "normalized plaintext excerpt" &&
    isTaggedHex "rc_" 64 c.evidence.captureId && isTaggedHex "" 64 c.evidence.rawSha256 &&
    isTaggedHex "" 64 c.evidence.canonicalTextSha256 && 1 ≤ c.evidence.exactQuote.length &&
    c.evidence.exactQuote.length ≤ 4000 && 1 ≤ c.evidence.quoteEnd &&
    c.evidence.parserLocator.all (fun s => s.toList.length ≤ 500) &&
    c.extractor.kind ∈ ["deterministic", "local_ai"] &&
    isTaggedHex "" 64 c.extractor.outputSha256 &&
    c.validation.conflictState ∈ ["none", "conflict", "unknown"] &&
    c.validation.reasonCodes.Nodup && c.queuedProposalId.all (isTaggedHex "cp_" 32)

/-! ## Building -/

/-- A row of the match index, as far as research reads it. -/
structure MatchRow where
  matchId : String
  homeTeam : Option String
  awayTeam : Option String
  competition : Option String
  country : Option String
  upstreamFixtureKey : Option String

/-- Why building fails: the record breaks the schema, or a value that cannot be hashed is looked for
in a set. -/
inductive ExtractError where
  | schema
  | unhashable
  deriving DecidableEq, Repr

/-- The run research makes candidates in. -/
structure Context where
  runId : String
  row : MatchRow
  indexFingerprint : String
  capture : Capture
  policy : SourcePolicy
  document : CanonicalDocument
  now : String

/-- Who extracted a candidate. -/
structure ExtractedBy where
  kind : String
  id : String
  version : String
  model : Option String
  promptVersion : Option String

/-- The record of a candidate before its id is known. -/
def candidateRecord (ctx : Context) (type : CorrectionType) (proposed : Json) (quote : List Char)
    (quoteStart quoteEnd : Nat) (parserLocator : Option String) (by' : ExtractedBy) : Candidate where
  candidateId := "cf_" ++ String.ofList (List.replicate 64 '0')
  runId := ctx.runId
  state := .reviewRequired
  correctionType := type
  target :=
    { matchId := ctx.row.matchId
      entityId := getOrNull ctx.document.parsed "qid"
      upstreamRecordKey := ctx.row.upstreamFixtureKey
      indexFingerprint := ctx.indexFingerprint }
  proposed := proposed
  source :=
    { sourceId := ctx.policy.sourceId
      canonicalUrl := ctx.document.documentUrl
      retrievedAtUtc := ctx.capture.retrievedAtUtc
      revisionId := ctx.capture.revisionId
      license := ctx.policy.license
      licenseUrl := ctx.policy.licenseUrl
      attribution := ctx.policy.attribution
      modifications := "normalized plaintext excerpt"
      licenseNamespace := ctx.policy.licenseNamespace }
  evidence :=
    { captureId := ctx.capture.captureId
      rawSha256 := ctx.capture.rawSha256
      canonicalTextSha256 := ctx.capture.canonicalTextSha256
      exactQuote := quote
      quoteStart := quoteStart
      quoteEnd := quoteEnd
      parserLocator := parserLocator }
  extractor :=
    { kind := by'.kind
      id := by'.id
      version := by'.version
      model := by'.model
      promptVersion := by'.promptVersion
      outputSha256 := digestOf proposed }
  validation :=
    { quoteMatch := slice ctx.document.text.toList quoteStart quoteEnd = quote
      valueMatch := true
      identityMatch := type = .teamAlias
      policyMatch := type.name ∈ ctx.policy.permittedFactTypes
      conflictState := if type = .teamAlias then "none" else "unknown"
      reasonCodes := if type = .teamAlias then [] else ["identity_review_required"] }
  queuedProposalId := none
  createdAtUtc := ctx.now

/-- `_candidate`: the record under its digest, if it conforms to the schema. -/
def candidate (ctx : Context) (type : CorrectionType) (proposed : Json) (quote : List Char)
    (quoteStart quoteEnd : Nat) (parserLocator : Option String) (by' : ExtractedBy) :
    Except ExtractError Candidate :=
  let record := candidateRecord ctx type proposed quote quoteStart quoteEnd parserLocator by'
  let c := { record with candidateId := "cf_" ++ candidateDigest record }
  if c.conforms then .ok c else .error .schema

/-- What an alias proposes. -/
def aliasProposal (ctx : Context) (name canonicalTeam : Json) : Json :=
  .mk [("alias", name), ("canonical_team", canonicalTeam),
    ("scope", .mk [("source_id", .str ctx.policy.sourceId),
      ("competition", textOrNull ctx.row.competition),
      ("country", textOrNull ctx.row.country)])]

/-- The texts among some values. -/
def textsOf (items : List Json) : List String :=
  items.filterMap fun
    | .str s => some s
    | _ => none

/-- The label and the aliases of a parsed document. -/
def namesOf (document : CanonicalDocument) : Option (List String) :=
  match document.parsed.get "label", document.parsed.get "aliases" with
  | some (.str label), some (.arr aliases) => some (label :: textsOf aliases)
  | _, _ => none

/-- The team of a fixture that some names stand for. -/
def canonicalTeamOf (u : Unicode) (row : MatchRow) (names : List String) : Option String :=
  [row.homeTeam.getD "", row.awayTeam.getD ""].find? fun team =>
    team ≠ "" && names.any fun name => fold u team = fold u name

/-- One round of the loop over the names. -/
def aliasStep (u : Unicode) (ctx : Context) (team : String) (result : List Candidate)
    (name : String) : Except ExtractError (List Candidate) :=
  if fold u name = fold u team then .ok result
  else
    match quoteSpan ctx.document.text.toList name.toList with
    | none => .ok result
    | some (quote, start, stop) => do
        let c ← candidate ctx .teamAlias (aliasProposal ctx (.str name) (.str team)) quote start
          stop (some ("/aliases/en/" ++ toString result.length))
          ⟨"deterministic", ctx.policy.parserId, ctx.policy.parserVersion, none, none⟩
        return result ++ [c]

/-- `deterministic_candidates`. -/
def deterministicCandidates (u : Unicode) (ctx : Context) : Except ExtractError (List Candidate) :=
  if ctx.policy.sourceId ≠ "wikidata" ∨ "team_alias" ∉ ctx.policy.permittedFactTypes then .ok []
  else
    match namesOf ctx.document with
    | none => .ok []
    | some names =>
        match canonicalTeamOf u ctx.row names with
        | none => .ok []
        | some team => do
            let result ← names.foldlM (aliasStep u ctx team) []
            return result.take 4

/-- The type an item names, if it is one of the two; a list or an object cannot be looked up. -/
def typeOf : Json → Except ExtractError (Option CorrectionType)
  | .str "team_alias" => .ok (some .teamAlias)
  | .str "venue" => .ok (some .venue)
  | .arr _ | .obj _ => .error .unhashable
  | _ => .ok none

/-- Whether a value is one of the fixture's teams; a list or an object cannot be looked up. -/
def isTeamOf (row : MatchRow) : Json → Except ExtractError Bool
  | .arr _ | .obj _ => .error .unhashable
  | value => .ok (value = textOrNull row.homeTeam || value = textOrNull row.awayTeam)

/-- Whether every value is a text that stands in a quote under the fold; there must be one. -/
def standIn (u : Unicode) (values : List Json) (quote : String) : Bool :=
  !values.isEmpty && values.all fun
    | .str s => occurs (fold u s) (fold u quote)
    | _ => false

/-- The values a proposal stands for: the alias, or the three parts of a venue. -/
def proposedValues (type : CorrectionType) (proposed : Json) : List Json :=
  match type with
  | .teamAlias => [getOrNull proposed "alias"]
  | .venue => ["venue_name", "city", "country"].map (getOrNull proposed)

/-- `ai_candidate`. -/
def aiCandidate (u : Unicode) (ctx : Context) (item : Json) (model promptVersion : String) :
    Except ExtractError (Option Candidate) := do
  let some type ← typeOf (getOrNull item "correction_type") | return none
  if type.name ∉ ctx.policy.permittedFactTypes then return none
  match getOrNull item "proposed", getOrNull item "quote" with
  | .obj fields, .str quote =>
      if quote = "" then return none
      else
        match find quote.toList ctx.document.text.toList with
        | none => return none
        | some start => do
            let proposed := Json.obj fields
            let team := getOrNull proposed "canonical_team"
            let theirs ← (if type = .teamAlias then isTeamOf ctx.row team else .ok true)
            if !theirs then return none
            let proposed := if type = .teamAlias then
              aliasProposal ctx (getOrNull proposed "alias") team else proposed
            if !standIn u (proposedValues type proposed) quote then return none
            let c ← candidate ctx type proposed quote.toList start (start + quote.toList.length)
              none ⟨"local_ai", "local-evidence-extractor", "1", some model, some promptVersion⟩
            return some c
  | _, _ => return none

/-! ## Validation -/

/-- Why a stored candidate is refused. -/
inductive CandidateError where
  | schema
  | digestMismatch
  | licenseNamespaceMismatch
  | sourcePolicyMismatch
  | entityIdentityMismatch
  | captureReceiptMismatch
  | quoteMismatch
  | fieldOutsidePolicy
  | valueNotInQuote
  deriving DecidableEq, Repr

/-- `validate_stored_candidate`. -/
def validateStoredCandidate (u : Unicode) (c : Candidate) (policy : SourcePolicy)
    (licenseNamespace : String) (capture : Capture) : Except CandidateError Unit := do
  failIf (c.conforms = false) .schema
  failIf (c.candidateId ≠ "cf_" ++ candidateDigest c) .digestMismatch
  failIf (licenseNamespace ≠ policy.licenseNamespace ∨
    c.source.licenseNamespace ≠ licenseNamespace) .licenseNamespaceMismatch
  failIf (c.source.sourceId ≠ policy.sourceId ∨ c.source.canonicalUrl ≠ capture.documentUrl ∨
    c.source.license ≠ policy.license ∨ c.source.licenseUrl ≠ policy.licenseUrl ∨
    c.source.attribution ≠ policy.attribution ∨
    c.source.modifications ≠ "normalized plaintext excerpt" ∨
    c.source.retrievedAtUtc ≠ capture.retrievedAtUtc ∨
    c.source.revisionId ≠ capture.revisionId) .sourcePolicyMismatch
  failIf (c.target.entityId ≠ capture.entityId) .entityIdentityMismatch
  failIf (capture.captureId ≠ c.evidence.captureId ∨ capture.sourceId ≠ policy.sourceId ∨
    capture.licenseNamespace ≠ licenseNamespace ∨ capture.rawSha256 ≠ c.evidence.rawSha256 ∨
    capture.canonicalTextSha256 ≠ c.evidence.canonicalTextSha256) .captureReceiptMismatch
  failIf (slice capture.canonicalText.toList c.evidence.quoteStart c.evidence.quoteEnd ≠
    c.evidence.exactQuote) .quoteMismatch
  failIf (c.correctionType.name ∉ policy.permittedFactTypes) .fieldOutsidePolicy
  failIf (standIn u (proposedValues c.correctionType c.proposed)
    (String.ofList c.evidence.exactQuote) = false) .valueNotInQuote

/-- `mark_queued`: the record of a candidate once a proposal was made of it. -/
def markQueued (c : Candidate) (proposalId : String) : Candidate :=
  { c with state := .queuedAsDraft, queuedProposalId := some proposalId }

end Golavo.Research
