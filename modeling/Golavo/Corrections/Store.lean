import Golavo.Ledger.Artifact
import Golavo.Lib.Check
import Golavo.Lib.HashChain

/-! # The correction store

Local proposals to correct the index, in one database for each license namespace. A proposal's content
and state are columns of its row; everything that happened to it is an event of an append-only
history, each with the digest of the event before it. -/

namespace Golavo.Corrections

open Golavo.Lib (Json failIf orFail)
open Golavo.Ledger (Runtime)

/-! ## Namespaces and sources -/

/-- A license namespace. -/
inductive Namespace where
  | coreCc0
  | enrichmentCc0
  | enrichmentPublicDomain
  | enrichmentCcBy4
  | researchCcBySa4
  | overlayOdbl1
  | quarantineUnknown
  deriving DecidableEq, Repr

def Namespace.name : Namespace → String
  | .coreCc0 => "core-cc0"
  | .enrichmentCc0 => "enrichment-cc0"
  | .enrichmentPublicDomain => "enrichment-public-domain"
  | .enrichmentCcBy4 => "enrichment-cc-by-4.0"
  | .researchCcBySa4 => "research-cc-by-sa-4.0"
  | .overlayOdbl1 => "overlay-odbl-1.0"
  | .quarantineUnknown => "quarantine-unknown"

/-- The namespaces in the order they are searched in. -/
def knownNamespaces : List Namespace :=
  [.coreCc0, .enrichmentCc0, .enrichmentPublicDomain, .enrichmentCcBy4, .researchCcBySa4,
    .overlayOdbl1, .quarantineUnknown]

theorem mem_knownNamespaces (ns : Namespace) : ns ∈ knownNamespaces := by
  cases ns <;> decide

/-- The namespaces whose corrections may leave the machine. -/
def exportableNamespaces : List Namespace :=
  [.coreCc0, .enrichmentCc0, .enrichmentPublicDomain, .enrichmentCcBy4]

/-- What the registry says of a source it enables corrections for. -/
structure SourcePolicy where
  licenseNamespace : Namespace
  redistributableExport : Bool
  /-- The source as an export names it. -/
  publicSource : Json

/-- The source registry's correction policies. -/
abbrev Registry : Type := String → Option SourcePolicy

/-- The policy for a source, if it is named and registered (`policy_for`). -/
def Registry.policyFor (reg : Registry) : Option String → Option SourcePolicy
  | some source => if source = "" then none else reg source
  | none => none

/-- The namespace of a source's corrections (`namespace_for`). -/
def Registry.namespaceFor (reg : Registry) (sourceId : Option String) : Namespace :=
  match reg.policyFor sourceId with
  | some policy => policy.licenseNamespace
  | none => .quarantineUnknown

/-- Whether a source's corrections may be exported (`can_export`). -/
def Registry.canExport (reg : Registry) (sourceId : Option String) : Bool :=
  match reg.policyFor sourceId with
  | some policy => policy.redistributableExport && policy.licenseNamespace ∈ exportableNamespaces
  | none => false

/-! ## Rows -/

inductive ProposalState where
  | draft
  | evidenceAttached
  | validatedCandidate
  | conflict
  | acceptedLocal
  | exported
  | submitted
  | withdrawn
  | superseded
  deriving DecidableEq, Repr

def ProposalState.name : ProposalState → String
  | .draft => "draft"
  | .evidenceAttached => "evidence_attached"
  | .validatedCandidate => "validated_candidate"
  | .conflict => "conflict"
  | .acceptedLocal => "accepted_local"
  | .exported => "exported"
  | .submitted => "submitted"
  | .withdrawn => "withdrawn"
  | .superseded => "superseded"

/-- The states a proposal can be withdrawn in. -/
def activeStates : List ProposalState :=
  [.draft, .evidenceAttached, .validatedCandidate, .conflict, .acceptedLocal, .exported, .submitted]

inductive EventType where
  | created
  | draftRevised
  | evidenceAttached
  | evidenceImportedFromResearch
  | conflictDetected
  | validationPassed
  | validationFailed
  | acceptedLocal
  | acceptanceRevoked
  | withdrawn
  | markedSubmitted
  | exported
  | evidenceRedacted
  deriving DecidableEq, Repr

def EventType.name : EventType → String
  | .created => "created"
  | .draftRevised => "draft_revised"
  | .evidenceAttached => "evidence_attached"
  | .evidenceImportedFromResearch => "evidence_imported_from_research"
  | .conflictDetected => "conflict_detected"
  | .validationPassed => "validation_passed"
  | .validationFailed => "validation_failed"
  | .acceptedLocal => "accepted_local"
  | .acceptanceRevoked => "acceptance_revoked"
  | .withdrawn => "withdrawn"
  | .markedSubmitted => "marked_submitted"
  | .exported => "exported"
  | .evidenceRedacted => "evidence_redacted"

/-- A proposal. -/
structure Proposal where
  proposalId : String
  licenseNamespace : Namespace
  correctionType : String
  state : ProposalState
  verificationLevel : String
  target : Json
  original : Option Json
  proposed : Json
  sourceId : Option String
  validation : Json
  localVisibility : String
  fingerprint : String
  createdAtUtc : String
  updatedAtUtc : String
  headEventId : Option String
  deriving DecidableEq, Repr

/-- An event of a proposal's history. -/
structure ProposalEvent where
  eventId : String
  proposalId : String
  sequence : Nat
  eventType : EventType
  recordedAtUtc : String
  previousEventHash : Option String
  payload : Json
  payloadSha256 : String
  eventSha256 : String
  deriving DecidableEq, Repr

/-- A captured piece of evidence; its raw text is a file named by its digest. -/
structure Evidence where
  evidenceId : String
  proposalId : String
  sourceUrl : String
  hostname : String
  sourceId : String
  licenseNamespace : Namespace
  sourceRevision : Option String
  rawSha256 : String
  rawBytes : Nat
  sanitizedText : String
  sanitizedSha256 : String
  snapshotVerified : Bool
  capturedAtUtc : String
  redacted : Bool
  deriving DecidableEq, Repr

/-- The record of an export. -/
structure ExportRecord where
  exportId : String
  proposalId : String
  proposalHeadEventId : String
  relativePath : String
  sha256 : String
  bytes : Nat
  createdAtUtc : String
  deriving DecidableEq, Repr

/-- A namespace's database; rows stand in the order they were inserted in. -/
structure CorrectionDb where
  proposals : List Proposal
  events : List ProposalEvent
  evidence : List Evidence
  exports : List ExportRecord
  deriving DecidableEq, Repr

def emptyDb : CorrectionDb := ⟨[], [], [], []⟩

/-- The databases of all namespaces. -/
abbrev Root : Type := Namespace → CorrectionDb

def emptyRoot : Root := fun _ => emptyDb

/-! ## Failures -/

/-- What an operation on the store fails with. -/
inductive CorrectionFailure where
  | proposalNotFound
  | generationChangedBeforeReturn
  | generationChangedBeforeCommit
  | cannotBeEdited
  | cannotReceiveEvidence
  | proposalChanged
  | proposalChangedAfterReview
  | tooManyEvidenceItems
  | notValidatable
  | invalidValidationState
  | invalidTransition (state next : ProposalState)
  | notExportable
  | licenseBlocksExport (licenseNamespace : Namespace)
  | evidenceNotFound
  /-- A file of the store is not what it should be. -/
  | fileRefused (reasonCode : String)
  /-- A row that was found is gone when it is read again. -/
  | rowVanished
  /-- The database refuses a row. -/
  | integrityError
  deriving DecidableEq, Repr

/-- The reason a failure reports; what the interpreter or the database raises has none. -/
def CorrectionFailure.reasonCode : CorrectionFailure → Option String
  | .proposalNotFound => some "proposal_not_found"
  | .generationChangedBeforeReturn | .generationChangedBeforeCommit =>
      some "index_generation_changed"
  | .cannotBeEdited | .cannotReceiveEvidence => some "proposal_not_editable"
  | .proposalChanged | .proposalChangedAfterReview => some "proposal_changed"
  | .tooManyEvidenceItems => some "too_many_evidence_items"
  | .notValidatable => some "proposal_not_validatable"
  | .invalidTransition _ _ => some "invalid_correction_transition"
  | .notExportable => some "proposal_not_exportable"
  | .licenseBlocksExport _ => some "license_blocks_export"
  | .evidenceNotFound => some "evidence_not_found"
  | .fileRefused reasonCode => some reasonCode
  | .invalidValidationState | .rowVanished | .integrityError => none

/-! ## The history -/

def schemaVersion : String := "0.1.0"

/-- A text, or null. -/
def textOrNull : Option String → Json
  | some s => .str s
  | none => .null

/-- The digest of a proposal's content (`_fingerprint`). -/
def fingerprint (rt : Runtime) (ns : Namespace) (correctionType : String) (target proposed : Json) :
    String :=
  rt.sha256 (Json.dumps (.mk [("schema_version", .str schemaVersion),
    ("license_namespace", .str ns.name), ("correction_type", .str correctionType),
    ("target", target), ("proposed", proposed)]))

/-- What the digest of an event covers. -/
def ProposalEvent.material (e : ProposalEvent) : Json :=
  .mk [("schema_version", .str schemaVersion), ("proposal_id", .str e.proposalId),
    ("sequence", .int e.sequence), ("event_type", .str e.eventType.name),
    ("recorded_at_utc", .str e.recordedAtUtc),
    ("previous_event_hash", textOrNull e.previousEventHash),
    ("payload_sha256", .str e.payloadSha256)]

/-- The events of a proposal. -/
def CorrectionDb.eventsOf (db : CorrectionDb) (proposalId : String) : List ProposalEvent :=
  db.events.filter (·.proposalId = proposalId)

/-- The event of a proposal with the greatest sequence number. -/
def CorrectionDb.latestEvent (db : CorrectionDb) (proposalId : String) : Option ProposalEvent :=
  ((db.eventsOf proposalId).insertionSort fun a b => b.sequence ≤ a.sequence).head?

/-- The event that continues a history after another, or begins it. -/
def eventAfter (rt : Runtime) (previous : Option ProposalEvent) (proposalId : String)
    (type : EventType) (payload : Json) (recordedAt : String) : ProposalEvent :=
  let base : ProposalEvent :=
    { eventId := ""
      proposalId := proposalId
      sequence := (previous.map ProposalEvent.sequence).getD 0 + 1
      eventType := type
      recordedAtUtc := recordedAt
      previousEventHash := previous.map ProposalEvent.eventSha256
      payload := payload
      payloadSha256 := rt.sha256 (Json.dumps payload)
      eventSha256 := "" }
  let sha := rt.sha256 (Json.dumps base.material)
  { base with eventId := "ce_" ++ sha, eventSha256 := sha }

/-- The proposal with an id. -/
def CorrectionDb.find (db : CorrectionDb) (proposalId : String) : Option Proposal :=
  db.proposals.find? (·.proposalId = proposalId)

/-- Change the row of a proposal. -/
def CorrectionDb.update (db : CorrectionDb) (proposalId : String) (f : Proposal → Proposal) :
    CorrectionDb :=
  { db with proposals := db.proposals.map fun p => if p.proposalId = proposalId then f p else p }

/-- Append an event to a proposal's history and make it the proposal's head (`_append_event`). -/
def appendEvent (rt : Runtime) (db : CorrectionDb) (proposalId : String) (type : EventType)
    (payload : Json) (recordedAt : String) : Except CorrectionFailure CorrectionDb := do
  let e := eventAfter rt (db.latestEvent proposalId) proposalId type payload recordedAt
  failIf (e.eventId ∈ db.events.map ProposalEvent.eventId ∨
    e.sequence ∈ (db.eventsOf proposalId).map ProposalEvent.sequence ∨
    proposalId ∉ db.proposals.map Proposal.proposalId) .integrityError
  return { db with events := db.events ++ [e] }.update proposalId fun p =>
    { p with headEventId := some e.eventId, updatedAtUtc := recordedAt }

/-- The evidence of a proposal, in the order it was captured in (`_evidence_rows`). -/
def CorrectionDb.evidenceOf (db : CorrectionDb) (proposalId : String) : List Evidence :=
  (db.evidence.filter (·.proposalId = proposalId)).insertionSort fun a b =>
    a.capturedAtUtc < b.capturedAtUtc ∨
      (a.capturedAtUtc = b.capturedAtUtc ∧ a.evidenceId ≤ b.evidenceId)

end Golavo.Corrections
