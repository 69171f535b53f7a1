import Golavo.Corrections.Store

/-! # Reads and transactions

What the operations on corrections read, and the transactions they write in. A proposal is created and
receives evidence in a transaction that reads what it decides on; every other operation reads the
proposal first and then writes in a transaction of its own. -/

namespace Golavo.Corrections

open Golavo.Lib (Json failIf orFail)
open Golavo.Ledger (Runtime)

/-! ## Reads -/

/-- Find a proposal in the namespaces in turn (`_locate`). -/
def locate (root : Root) (proposalId : String) : Except CorrectionFailure (Namespace × Proposal) := do
  failIf (¬ "cp_".toList <+: proposalId.toList ∨ proposalId.toList.length ≠ 35) .proposalNotFound
  orFail .proposalNotFound
    (knownNamespaces.findSome? fun ns => ((root ns).find proposalId).map (ns, ·))

/-- A proposal's events in order (`events`). -/
def CorrectionDb.historyOf (db : CorrectionDb) (proposalId : String) : List ProposalEvent :=
  (db.eventsOf proposalId).insertionSort fun a b => a.sequence ≤ b.sequence

/-- The exports of a proposal. -/
def CorrectionDb.exportsOf (db : CorrectionDb) (proposalId : String) : List ExportRecord :=
  db.exports.filter (·.proposalId = proposalId)

/-- A proposal's newest export (`latest_export`). -/
def CorrectionDb.latestExport (db : CorrectionDb) (proposalId : String) : Option ExportRecord :=
  ((db.exportsOf proposalId).insertionSort fun a b => b.createdAtUtc ≤ a.createdAtUtc).head?

/-- What a validation found, without findings. -/
def noFindings : Json := .mk [("reason_codes", .arr []), ("conflicts", .arr [])]

/-- Put a proposal back before its validation. -/
def Proposal.reset (p : Proposal) (state : ProposalState) : Proposal :=
  { p with
    state := state
    verificationLevel := "none"
    validation := noFindings
    localVisibility := "queue_only" }

/-! ## Creating -/

/-- What a proposal is created from. -/
structure CreateRequest where
  correctionType : String
  target : Json
  original : Option Json
  proposed : Json
  sourceId : Option String
  /-- The id drawn for a new proposal. -/
  newId : String
  now : String
  /-- Whether the index's generation still stands at the commit, where one was given. -/
  generationCommit : Option Bool

/-- The oldest proposal with a fingerprint that is neither withdrawn nor superseded. -/
def CorrectionDb.openWith (db : CorrectionDb) (fp : String) : Option Proposal :=
  ((db.proposals.filter fun p =>
    p.fingerprint = fp ∧ p.state ≠ .withdrawn ∧ p.state ≠ .superseded).insertionSort fun a b =>
      a.createdAtUtc ≤ b.createdAtUtc).head?

/-- The row of a new proposal. -/
def newProposal (rt : Runtime) (ns : Namespace) (req : CreateRequest) : Proposal where
  proposalId := req.newId
  licenseNamespace := ns
  correctionType := req.correctionType
  state := .draft
  verificationLevel := "none"
  target := req.target
  original := req.original
  proposed := req.proposed
  sourceId := req.sourceId
  validation := noFindings
  localVisibility := "queue_only"
  fingerprint := fingerprint rt ns req.correctionType req.target req.proposed
  createdAtUtc := req.now
  updatedAtUtc := req.now
  headEventId := none

/-- What the event of a creation tells. -/
def createdPayload (ns : Namespace) (req : CreateRequest) : Json :=
  .mk [("correction_type", .str req.correctionType), ("target", req.target),
    ("original", req.original.getD .null), ("proposed", req.proposed),
    ("source_id", textOrNull req.sourceId), ("license_namespace", .str ns.name)]

/-- Create a proposal, unless an open one has its content (`create_proposal`); whether it is new. -/
def createProposal (rt : Runtime) (ns : Namespace) (db : CorrectionDb) (req : CreateRequest) :
    Except CorrectionFailure (CorrectionDb × Bool) :=
  match db.openWith (fingerprint rt ns req.correctionType req.target req.proposed) with
  | some _ => do
      failIf (req.generationCommit = some false) .generationChangedBeforeReturn
      return (db, false)
  | none => do
      failIf (req.newId ∈ db.proposals.map Proposal.proposalId) .integrityError
      let next ← appendEvent rt { db with proposals := db.proposals ++ [newProposal rt ns req] }
        req.newId .created (createdPayload ns req) req.now
      failIf (req.generationCommit = some false) .generationChangedBeforeCommit
      return (next, true)

/-! ## Evidence -/

/-- A piece of evidence to attach. -/
structure AttachRequest where
  proposalId : String
  sourceUrl : String
  hostname : String
  sourceRevision : Option String
  rawSha256 : String
  rawBytes : Nat
  sanitizedText : String
  sanitizedSha256 : String
  researchOrigin : Option Json
  now : String
  /-- What storing the raw file fails with, if it does. -/
  fileFailure : Option String

/-- The id of a piece of evidence. -/
def evidenceId (rt : Runtime) (req : AttachRequest) : String :=
  "ev_" ++ rt.sha256 (List.intercalate ['\n']
    [req.proposalId.toList, req.sourceUrl.toList, req.rawSha256.toList])

/-- The row of a piece of evidence. -/
def newEvidence (rt : Runtime) (ns : Namespace) (row : Proposal) (req : AttachRequest) : Evidence where
  evidenceId := evidenceId rt req
  proposalId := req.proposalId
  sourceUrl := req.sourceUrl
  hostname := req.hostname
  sourceId := match row.sourceId with
    | some source => if source = "" then "unregistered" else source
    | none => "unregistered"
  licenseNamespace := ns
  sourceRevision := req.sourceRevision
  rawSha256 := req.rawSha256
  rawBytes := req.rawBytes
  sanitizedText := req.sanitizedText
  sanitizedSha256 := req.sanitizedSha256
  snapshotVerified := false
  capturedAtUtc := req.now
  redacted := false

/-- What the event of new evidence tells. -/
def attachedPayload (rt : Runtime) (req : AttachRequest) : Json :=
  .mk ([("evidence_id", .str (evidenceId rt req)), ("source_url", .str req.sourceUrl),
    ("raw_sha256", .str req.rawSha256), ("raw_bytes", .int req.rawBytes), ("untrusted", .bool true)] ++
    match req.researchOrigin with
    | some origin => [("research_origin", origin)]
    | none => [])

/-- The states in which a proposal takes no evidence and is not validated. -/
def closedStates : List ProposalState := [.withdrawn, .superseded, .submitted]

/-- Attach evidence to a proposal (`attach_evidence`), in one transaction with the read of the
proposal; whether it is new. -/
def attachEvidence (rt : Runtime) (ns : Namespace) (db : CorrectionDb) (req : AttachRequest) :
    Except CorrectionFailure (CorrectionDb × Bool) := do
  let row ← orFail .rowVanished (db.find req.proposalId)
  failIf (row.state ∈ closedStates) .cannotReceiveEvidence
  let held := db.evidence.filter (·.proposalId = req.proposalId)
  failIf (10 ≤ held.length) .tooManyEvidenceItems
  if held.any fun e => e.rawSha256 = req.rawSha256 && e.sourceUrl = req.sourceUrl then
    return (db, false)
  else
    match req.fileFailure with
    | some reasonCode => throw (.fileRefused reasonCode)
    | none =>
        failIf (evidenceId rt req ∈ db.evidence.map Evidence.evidenceId) .integrityError
        let inserted := { db with evidence := db.evidence ++ [newEvidence rt ns row req] }
        let next ← appendEvent rt
          (inserted.update req.proposalId fun p => p.reset .evidenceAttached) req.proposalId
          (if req.researchOrigin.isSome then .evidenceImportedFromResearch else .evidenceAttached)
          (attachedPayload rt req) req.now
        return (next, true)

/-! ## Revising -/

/-- The states a draft can be edited in. -/
def editableStates : List ProposalState := [.draft, .evidenceAttached, .validatedCandidate, .conflict]

/-- Whether a proposal that was read may be revised. -/
def checkRevise (row : Proposal) (expected : String) : Except CorrectionFailure Unit := do
  failIf (row.state ∉ editableStates) .cannotBeEdited
  failIf (row.headEventId ≠ some expected) .proposalChanged

/-- Write a revision (`revise_draft`). -/
def writeRevision (rt : Runtime) (db : CorrectionDb) (row : Proposal) (nextState : ProposalState)
    (proposed : Json) (now : String) : Except CorrectionFailure CorrectionDb :=
  appendEvent rt (db.update row.proposalId fun p =>
    { p.reset nextState with
      proposed := proposed
      fingerprint := fingerprint rt row.licenseNamespace row.correctionType row.target proposed })
    row.proposalId .draftRevised (.mk [("proposed", proposed), ("validation_reset", .bool true)]) now

/-! ## Validating -/

/-- What validating a proposal comes to. -/
structure Verdict where
  state : ProposalState
  verificationLevel : String
  reasonCodes : List String
  conflicts : List Json
  snapshotEvidenceIds : List String

/-- Whether a verdict may be applied to a proposal that was read. -/
def checkValidation (row : Proposal) (expected : Option String) (verdict : Verdict) :
    Except CorrectionFailure Unit := do
  failIf (expected.isSome ∧ row.headEventId ≠ expected) .proposalChanged
  failIf (row.state ∈ closedStates) .notValidatable
  failIf (verdict.state ∉ [.validatedCandidate, .conflict, .evidenceAttached]) .invalidValidationState

/-- The event of a verdict. -/
def Verdict.eventType (v : Verdict) : EventType :=
  if v.state = .conflict then .conflictDetected
  else if v.state = .validatedCandidate then .validationPassed
  else .validationFailed

/-- The findings of a verdict. -/
def Verdict.findings (v : Verdict) : List (String × Json) :=
  [("reason_codes", .arr (v.reasonCodes.map Json.str)), ("conflicts", .arr v.conflicts)]

/-- Write a verdict (`apply_validation`). -/
def writeValidation (rt : Runtime) (db : CorrectionDb) (row : Proposal) (v : Verdict) (now : String) :
    Except CorrectionFailure CorrectionDb :=
  let mark (e : Evidence) : Evidence :=
    if e.proposalId = row.proposalId then
      { e with snapshotVerified := e.evidenceId ∈ v.snapshotEvidenceIds }
    else e
  let marked := { db with evidence := db.evidence.map mark }
  appendEvent rt (marked.update row.proposalId fun p =>
    { p with
      state := v.state
      verificationLevel := v.verificationLevel
      validation := .mk v.findings
      localVisibility := "queue_only" })
    row.proposalId v.eventType
    (.mk ([("state", .str v.state.name), ("verification_level", .str v.verificationLevel)] ++
      v.findings)) now

/-! ## Transitions -/

/-- What a transition does to a proposal. -/
structure Transition where
  allowed : List ProposalState
  state : ProposalState
  eventType : EventType
  payload : Json
  localVisibility : Option String
  expected : String

/-- Whether a proposal that was read may make a transition. -/
def checkTransition (row : Proposal) (t : Transition) : Except CorrectionFailure Unit := do
  failIf (row.state ∉ t.allowed) (.invalidTransition row.state t.state)
  failIf (row.headEventId ≠ some t.expected) .proposalChanged

/-- Write a transition (`transition`). -/
def writeTransition (rt : Runtime) (db : CorrectionDb) (row : Proposal) (t : Transition)
    (now : String) : Except CorrectionFailure CorrectionDb :=
  appendEvent rt (db.update row.proposalId fun p =>
    { p with
      state := t.state
      localVisibility := t.localVisibility.getD row.localVisibility })
    row.proposalId t.eventType t.payload now

/-- Accept a proposal locally, by the proposal the route read (`accept-local`). -/
def acceptLocal (seen : Proposal) (expected : String) : Transition where
  allowed := [.validatedCandidate, .exported]
  state := if seen.state = .validatedCandidate then .acceptedLocal else seen.state
  eventType := .acceptedLocal
  payload := .mk [("scope", .str "local_annotation_only"), ("authoritative_override", .bool false),
    ("verification_level", .str seen.verificationLevel)]
  localVisibility := some "local_annotation"
  expected := expected

/-- Revoke a local acceptance, by the proposal the route read (`revoke-local`). -/
def revokeLocal (seen : Proposal) (expected : String) : Transition where
  allowed := [.acceptedLocal, .exported, .submitted]
  state := if seen.state = .acceptedLocal then .validatedCandidate else seen.state
  eventType := .acceptanceRevoked
  payload := .mk [("local_annotation_removed", .bool true)]
  localVisibility := some "queue_only"
  expected := expected

/-- Withdraw a proposal (`withdraw`). -/
def withdraw (reason : Option String) (expected : String) : Transition where
  allowed := activeStates
  state := .withdrawn
  eventType := .withdrawn
  payload := .mk [("reason", textOrNull reason)]
  localVisibility := some "queue_only"
  expected := expected

/-- Say that a proposal was submitted (`mark-submitted`). -/
def markSubmitted (externalReference : Option String) (expected : String) : Transition where
  allowed := [.exported]
  state := .submitted
  eventType := .markedSubmitted
  payload := .mk [("self_attested", .bool true),
    ("external_reference", textOrNull externalReference)]
  localVisibility := none
  expected := expected

/-! ## Exports -/

/-- The start of a text (`_safe_excerpt`). -/
def safeExcerpt (value : String) : String :=
  if value.toList.length ≤ 240 then value
  else String.ofList (value.toList.take 237 ++ ['.', '.', '.'])

/-- A piece of evidence as an export shows it. -/
def exportedEvidence (e : Evidence) : Json :=
  .mk [("evidence_id", .str e.evidenceId), ("source_url", .str e.sourceUrl),
    ("source_revision", textOrNull e.sourceRevision), ("raw_sha256", .str e.rawSha256),
    ("sanitized_excerpt", .str (safeExcerpt e.sanitizedText)),
    ("snapshot_verified", .bool e.snapshotVerified)]

/-- An event as an export shows it. -/
def exportedEvent (e : ProposalEvent) : Json :=
  .mk [("event_id", .str e.eventId), ("sequence", .int e.sequence),
    ("event_type", .str e.eventType.name), ("event_sha256", .str e.eventSha256)]

/-- What an export discloses. -/
def disclosures : Json :=
  .mk [("untrusted_candidate", .bool true), ("authoritative_override", .bool false),
    ("model_input", .bool false), ("settlement_input", .bool false),
    ("raw_evidence_included", .bool false), ("modifications_disclosed", .bool true)]

/-- The rendering of a proposal at a head event, its id apart. -/
def exportBody (reg : Registry) (p : Proposal) (head : String) (evidence : List Evidence)
    (events : List ProposalEvent) : Json :=
  .mk [("schema_version", .str "0.1.0"), ("proposal_id", .str p.proposalId),
    ("proposal_head_event_id", .str head), ("license_namespace", .str p.licenseNamespace.name),
    ("correction_type", .str p.correctionType), ("target", p.target),
    ("original", p.original.getD .null), ("proposed", p.proposed),
    ("source", ((reg.policyFor p.sourceId).map SourcePolicy.publicSource).getD .null),
    ("evidence", .arr ((evidence.filter fun e => !e.redacted).map exportedEvidence)),
    ("history", .arr (events.map exportedEvent)), ("disclosures", disclosures)]

/-- The canonical bytes of an export (`_canonical_bytes`). -/
def canonicalBytes (value : Json) : List Char := Json.dumps value ++ ['\n']

/-- The id of an export. -/
def exportId (rt : Runtime) (body : Json) : String := "cx_" ++ rt.sha256 (canonicalBytes body)

/-- The bytes of the export with its id. -/
def exportPayload (rt : Runtime) (body : Json) : List Char :=
  canonicalBytes (body.set "export_id" (.str (exportId rt body)))

/-- Whether the newest export was made at the proposal's head, or just before the event that recorded
it (`_export_matches_head`). -/
def exportMatchesHead (record : ExportRecord) (p : Proposal) (events : List ProposalEvent) : Bool :=
  p.headEventId = some record.proposalHeadEventId ||
    match events.getLast? with
    | some latest =>
        latest.eventType = .exported &&
          latest.payload.get "export_id" = some (.str record.exportId) &&
          latest.previousEventHash.any fun previous =>
            previous ≠ "" && record.proposalHeadEventId = "ce_" ++ previous
    | none => false

/-- The states a proposal can be exported in. -/
def exportableStates : List ProposalState :=
  [.validatedCandidate, .acceptedLocal, .exported, .submitted]

/-- Whether a proposal that was read may be exported. -/
def checkExport (reg : Registry) (p : Proposal) (expected : Option String) :
    Except CorrectionFailure Unit := do
  failIf (expected.isSome ∧ p.headEventId ≠ expected) .proposalChangedAfterReview
  failIf (p.state ∉ exportableStates) .notExportable
  failIf (reg.canExport p.sourceId = false) (.licenseBlocksExport p.licenseNamespace)

/-- The record of an export. -/
def exportRecord (rt : Runtime) (reg : Registry) (p : Proposal) (evidence : List Evidence)
    (events : List ProposalEvent) (now : String) : ExportRecord :=
  let head := p.headEventId.getD "None"
  let body := exportBody reg p head evidence events
  { exportId := exportId rt body
    proposalId := p.proposalId
    proposalHeadEventId := head
    relativePath := "exports/" ++ p.licenseNamespace.name ++ "/" ++ exportId rt body ++
      ".golavo-correction.json"
    sha256 := rt.sha256 (exportPayload rt body)
    bytes := ((exportPayload rt body).flatMap Lib.Sha256.utf8).length
    createdAtUtc := now }

/-- Insert the record of an export, unless it is recorded or the head was exported before. -/
def CorrectionDb.insertExport (db : CorrectionDb) (record : ExportRecord) : CorrectionDb :=
  if db.exports.any fun x => x.exportId = record.exportId ||
      (x.proposalId = record.proposalId && x.proposalHeadEventId = record.proposalHeadEventId) then db
  else { db with exports := db.exports ++ [record] }

/-- Write the record of an export by the proposal read just before (`record_export`). -/
def writeExport (rt : Runtime) (db : CorrectionDb) (row : Proposal) (record : ExportRecord) :
    Except CorrectionFailure CorrectionDb := do
  failIf (row.proposalId ∉ db.proposals.map Proposal.proposalId) .integrityError
  let inserted := db.insertExport record
  if row.state = .validatedCandidate ∨ row.state = .acceptedLocal then
    appendEvent rt (inserted.update row.proposalId fun p => { p with state := .exported })
      row.proposalId .exported
      (.mk [("export_id", .str record.exportId), ("sha256", .str record.sha256),
        ("bytes", .int record.bytes)]) record.createdAtUtc
  else return inserted

/-! ## Redaction -/

/-- Whether evidence of a proposal that was read may be redacted. -/
def checkRedact (row : Proposal) (expected : Option String) : Except CorrectionFailure Unit :=
  failIf (expected.isSome ∧ row.headEventId ≠ expected) .proposalChanged

/-- The evidence after one piece of it is redacted. -/
def redactedEvidence (proposalId evidenceId : String) (e : Evidence) : Evidence :=
  let e := if e.proposalId = proposalId then { e with snapshotVerified := false } else e
  if e.evidenceId = evidenceId then { e with redacted := true, sanitizedText := "" } else e

/-- What a proposal's validation says when it has no evidence left. -/
def evidenceRequired : Json :=
  .mk [("reason_codes", .arr [.str "source_url_and_captured_evidence_required"]),
    ("conflicts", .arr [])]

/-- Write a redaction (`redact_evidence`). -/
def writeRedaction (rt : Runtime) (db : CorrectionDb) (row : Proposal) (evidence : Evidence)
    (now : String) : Except CorrectionFailure CorrectionDb := do
  let redacted := { db with
    evidence := db.evidence.map (redactedEvidence row.proposalId evidence.evidenceId) }
  let next ← appendEvent rt redacted row.proposalId .evidenceRedacted
    (.mk [("evidence_id", .str evidence.evidenceId), ("raw_sha256", .str evidence.rawSha256)]) now
  let remaining := next.evidence.any fun e => e.proposalId = row.proposalId && !e.redacted
  return next.update row.proposalId fun p =>
    { p.reset (if remaining then .evidenceAttached else .draft) with
      validation := if remaining then noFindings else evidenceRequired }

end Golavo.Corrections
