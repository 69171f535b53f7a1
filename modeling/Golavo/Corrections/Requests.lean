import Golavo.Corrections.Transactions
import Golavo.Lib.Interleave
import Mathlib.Logic.Function.Basic

/-! # Requests on corrections

A request goes through the reads and the transaction of its operation one by one; the steps of other
requests come in between. The file steps of an operation change no row and are left to what they fail
with. -/

namespace Golavo.Corrections

open Golavo.Lib (Json Pool Move Reaches failIf orFail)
open Golavo.Ledger (Runtime)

/-! ## Requests -/

/-- A proposal as it was read, and where. -/
structure Read where
  ns : Namespace
  row : Proposal

/-- What a request on one proposal carries: the head its client saw, and the time. -/
structure Call where
  proposalId : String
  expected : String
  now : String

/-- A route that moves a proposal to another state. -/
inductive Route where
  | acceptLocal
  | revokeLocal
  | withdraw (reason : Option String)
  | markSubmitted (externalReference : Option String)

/-- What the files of an export do: whether the newest export's file is what it was, and what writing
the new one fails with. -/
structure ExportFiles where
  intact : Bool
  failure : Option String

/-- A request, by where it is. -/
inductive Task where
  | create (req : CreateRequest)
  | attach (req : AttachRequest)
  | attachLocated (ns : Namespace) (req : AttachRequest)
  | revise (call : Call) (proposed : Json)
  | reviseLocated (at_ : Read) (call : Call) (proposed : Json)
  | reviseRead (at_ : Read) (nextState : ProposalState) (call : Call) (proposed : Json)
  | validate (proposalId now : String) (judge : Proposal → List Evidence → Verdict)
  | validateSeen (seen : Read) (now : String) (judge : Proposal → List Evidence → Verdict)
  | validateJudged (seen : Read) (now : String) (verdict : Verdict)
  | validateLocated (at_ seen : Read) (now : String) (verdict : Verdict)
  | transition (call : Call) (route : Route)
  | transitionSeen (seen : Option Read) (call : Call) (t : Transition)
  | transitionLocated (at_ : Read) (seen : Option Read) (call : Call) (t : Transition)
  | exportProposal (call : Call) (files : ExportFiles)
  | exportSeen (seen : Read) (call : Call) (files : ExportFiles)
  | exportEvidence (seen : Read) (evidence : List Evidence) (call : Call) (files : ExportFiles)
  | exportRead (seen : Read) (evidence : List Evidence) (events : List ProposalEvent) (call : Call)
      (files : ExportFiles)
  | exportBuilt (seen : Read) (record : ExportRecord) (call : Call)
  | exportLocated (at_ seen : Read) (record : ExportRecord) (call : Call)
  | redact (call : Call) (evidenceId : String)
  | redactLocated (at_ : Read) (call : Call) (evidenceId : String)
  | redactRead (at_ : Read) (evidence : Evidence) (call : Call)
  | purge

/-- The proposal a request is about. -/
def Task.proposalId : Task → String
  | .create req => req.newId
  | .attach req | .attachLocated _ req => req.proposalId
  | .revise call _ | .reviseLocated _ call _ | .reviseRead _ _ call _ => call.proposalId
  | .validate proposalId .. => proposalId
  | .validateSeen seen .. | .validateJudged seen .. | .validateLocated _ seen .. =>
      seen.row.proposalId
  | .transition call _ | .transitionSeen _ call _ | .transitionLocated _ _ call _ => call.proposalId
  | .exportProposal call _ | .exportSeen _ call _ | .exportEvidence _ _ call _
  | .exportRead _ _ _ call _ | .exportBuilt _ _ call | .exportLocated _ _ _ call => call.proposalId
  | .redact call _ | .redactLocated _ call _ | .redactRead _ _ call => call.proposalId
  | .purge => ""

/-- The head event a request expects. -/
def Task.expected : Task → Option String
  | .create _ | .attach _ | .attachLocated .. | .validate .. | .purge => none
  | .validateSeen seen .. | .validateJudged seen .. | .validateLocated _ seen .. =>
      seen.row.headEventId
  | .revise call _ | .reviseLocated _ call _ | .reviseRead _ _ call _
  | .transition call _ | .transitionSeen _ call _ | .transitionLocated _ _ call _
  | .exportProposal call _ | .exportSeen _ call _ | .exportEvidence _ _ call _
  | .exportRead _ _ _ call _ | .exportBuilt _ _ call | .exportLocated _ _ _ call
  | .redact call _ | .redactLocated _ call _ | .redactRead _ _ call => some call.expected

/-- What a request that is not refused did to the proposal. -/
inductive Outcome where
  | changed
  | unchanged
  deriving DecidableEq, Repr

/-- The answer to a request. -/
structure Reply where
  proposalId : String
  /-- The head event the request expected. -/
  expected : Option String
  outcome : Except CorrectionFailure Outcome

/-! ## Steps -/

/-- A step that reads: the request goes on, or answers. -/
def readStep (root : Root) (proposalId : String) (expected : Option String)
    (result : Except CorrectionFailure (Task ⊕ Outcome)) : Root × (Task ⊕ Reply) :=
  (root, match result with
    | .ok (.inl next) => .inl next
    | .ok (.inr outcome) => .inr ⟨proposalId, expected, .ok outcome⟩
    | .error e => .inr ⟨proposalId, expected, .error e⟩)

/-- A step that writes in a namespace: all of it, or nothing. -/
def writeStep (root : Root) (ns : Namespace) (proposalId : String) (expected : Option String)
    (result : Except CorrectionFailure (CorrectionDb × Outcome)) : Root × (Task ⊕ Reply) :=
  match result with
  | .ok (db, outcome) => (Function.update root ns db, .inr ⟨proposalId, expected, .ok outcome⟩)
  | .error e => (root, .inr ⟨proposalId, expected, .error e⟩)

/-- What a transaction did that may find its work done. -/
def outcomeOf (new : Bool) : Outcome := if new then .changed else .unchanged

/-- Read a proposal. -/
def readProposal (root : Root) (proposalId : String) : Except CorrectionFailure Read := do
  let (ns, row) ← locate root proposalId
  return ⟨ns, row⟩

/-- The transition a route makes of the proposal it read, if it makes one. -/
def Route.transition (seen : Proposal) (expected : String) :
    Route → Except CorrectionFailure (Option Transition)
  | .acceptLocal => .ok (some (Corrections.acceptLocal seen expected))
  | .revokeLocal => .ok (some (Corrections.revokeLocal seen expected))
  | .withdraw reason => .ok (some (Corrections.withdraw reason expected))
  | .markSubmitted externalReference => do
      failIf (seen.headEventId ≠ some expected) .proposalChanged
      if seen.state = .submitted then return none
      else return some (Corrections.markSubmitted externalReference expected)

/-- One step of a request. -/
def Task.act (rt : Runtime) (reg : Registry) : Task → Root → Root × (Task ⊕ Reply)
  | .create req, root =>
      let ns := reg.namespaceFor req.sourceId
      writeStep root ns req.newId none
        ((createProposal rt ns (root ns) req).map fun r => (r.1, outcomeOf r.2))
  | .attach req, root => readStep root req.proposalId none do
      let seen ← readProposal root req.proposalId
      return .inl (.attachLocated seen.ns req)
  | .attachLocated ns req, root =>
      writeStep root ns req.proposalId none
        ((attachEvidence rt ns (root ns) req).map fun r => (r.1, outcomeOf r.2))
  | .revise call proposed, root => readStep root call.proposalId call.expected do
      let at_ ← readProposal root call.proposalId
      checkRevise at_.row call.expected
      return .inl (.reviseLocated at_ call proposed)
  | .reviseLocated at_ call proposed, root =>
      let held := (root at_.ns).evidenceOf call.proposalId
      readStep root call.proposalId call.expected
        (.ok (.inl (.reviseRead at_ (if held = [] then .draft else .evidenceAttached) call proposed)))
  | .reviseRead at_ nextState call proposed, root =>
      writeStep root at_.ns call.proposalId call.expected
        ((writeRevision rt (root at_.ns) at_.row nextState proposed call.now).map (·, .changed))
  | .validate proposalId now judge, root => readStep root proposalId none do
      let seen ← readProposal root proposalId
      return .inl (.validateSeen seen now judge)
  | .validateSeen seen now judge, root =>
      readStep root seen.row.proposalId seen.row.headEventId (.ok (.inl (.validateJudged seen now
        (judge seen.row ((root seen.ns).evidenceOf seen.row.proposalId)))))
  | .validateJudged seen now verdict, root =>
      readStep root seen.row.proposalId seen.row.headEventId do
        let at_ ← readProposal root seen.row.proposalId
        checkValidation at_.row seen.row.headEventId verdict
        return .inl (.validateLocated at_ seen now verdict)
  | .validateLocated at_ seen now verdict, root =>
      writeStep root at_.ns seen.row.proposalId seen.row.headEventId
        ((writeValidation rt (root at_.ns) at_.row verdict now).map (·, .changed))
  | .transition call route, root => readStep root call.proposalId call.expected do
      match route with
      | .withdraw reason => return .inl (.transitionSeen none call (withdraw reason call.expected))
      | route => do
          let seen ← readProposal root call.proposalId
          match ← route.transition seen.row call.expected with
          | some t => return .inl (.transitionSeen (some seen) call t)
          | none => return .inr .unchanged
  | .transitionSeen seen call t, root => readStep root call.proposalId call.expected do
      let at_ ← readProposal root call.proposalId
      checkTransition at_.row t
      return .inl (.transitionLocated at_ seen call t)
  | .transitionLocated at_ _ call t, root =>
      writeStep root at_.ns call.proposalId call.expected
        ((writeTransition rt (root at_.ns) at_.row t call.now).map (·, .changed))
  | .exportProposal call files, root => readStep root call.proposalId call.expected do
      let seen ← readProposal root call.proposalId
      return .inl (.exportSeen seen call files)
  | .exportSeen seen call files, root =>
      readStep root call.proposalId call.expected (.ok (.inl (.exportEvidence seen
        ((root seen.ns).evidenceOf call.proposalId) call files)))
  | .exportEvidence seen evidence call files, root =>
      readStep root call.proposalId call.expected do
        checkExport reg seen.row call.expected
        return .inl (.exportRead seen evidence ((root seen.ns).historyOf call.proposalId) call files)
  | .exportRead seen evidence events call files, root =>
      readStep root call.proposalId call.expected <|
        match (root seen.ns).latestExport call.proposalId with
        | some previous =>
            if (seen.row.state = .exported ∨ seen.row.state = .submitted) ∧
                exportMatchesHead previous seen.row events = true ∧ files.intact = true then
              .ok (.inr .unchanged)
            else match files.failure with
              | some reasonCode => .error (.fileRefused reasonCode)
              | none => .ok (.inl (.exportBuilt seen
                  (exportRecord rt reg seen.row evidence events call.now) call))
        | none => match files.failure with
          | some reasonCode => .error (.fileRefused reasonCode)
          | none => .ok (.inl (.exportBuilt seen
              (exportRecord rt reg seen.row evidence events call.now) call))
  | .exportBuilt seen record call, root => readStep root call.proposalId call.expected do
      let at_ ← readProposal root call.proposalId
      return .inl (.exportLocated at_ seen record call)
  | .exportLocated at_ _ record call, root =>
      writeStep root at_.ns call.proposalId call.expected
        ((writeExport rt (root at_.ns) at_.row record).map (·,
          if at_.row.state = .validatedCandidate ∨ at_.row.state = .acceptedLocal then .changed
          else .unchanged))
  | .redact call evidenceId, root => readStep root call.proposalId call.expected do
      let at_ ← readProposal root call.proposalId
      checkRedact at_.row call.expected
      return .inl (.redactLocated at_ call evidenceId)
  | .redactLocated at_ call evidenceId, root => readStep root call.proposalId call.expected do
      let evidence ← orFail .evidenceNotFound ((root at_.ns).evidence.find? fun e =>
        e.proposalId = call.proposalId ∧ e.evidenceId = evidenceId)
      if evidence.redacted then return .inr .unchanged
      else return .inl (.redactRead at_ evidence call)
  | .redactRead at_ evidence call, root =>
      writeStep root at_.ns call.proposalId call.expected
        ((writeRedaction rt (root at_.ns) at_.row evidence call.now).map (·, .changed))
  | .purge, _ => (emptyRoot, .inr ⟨"", none, .ok .changed⟩)

/-! ## Runs -/

/-- The requests that arrive, before their first step. -/
def Task.isNew : Task → Bool
  | .create _ | .attach _ | .revise .. | .validate .. | .transition .. | .exportProposal ..
  | .redact .. | .purge => true
  | _ => false

/-- Whether a request is about to write what it decided on by its reads. -/
def Task.isWrite : Task → Bool
  | .reviseRead .. | .validateLocated .. | .transitionLocated .. | .exportLocated ..
  | .redactRead .. => true
  | _ => false

/-- The proposals a request has read. -/
def Task.reads : Task → List Read
  | .reviseLocated at_ .. | .reviseRead at_ .. | .redactLocated at_ .. | .redactRead at_ .. => [at_]
  | .validateSeen seen .. | .validateJudged seen .. => [seen]
  | .validateLocated at_ seen .. => [at_, seen]
  | .transitionSeen seen .. => seen.toList
  | .transitionLocated at_ seen .. => at_ :: seen.toList
  | .exportSeen seen .. | .exportEvidence seen .. | .exportRead seen .. | .exportBuilt seen .. => [seen]
  | .exportLocated at_ seen .. => [at_, seen]
  | _ => []

/-- The pools of requests. -/
abbrev CorrectionPool : Type := Pool Root Task Reply

/-- The requests that arrive are new. -/
def Arrives (_ : CorrectionPool) : Move Task → Prop
  | .arrive p => p.isNew = true
  | .advance _ => True

/-- The pools reached from an empty store, in any order of steps. -/
def ReachedPool (rt : Runtime) (reg : Registry) : CorrectionPool → Prop :=
  Reaches (· = .of emptyRoot) Arrives (Pool.move (Task.act rt reg))

end Golavo.Corrections
