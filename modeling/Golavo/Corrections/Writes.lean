import Golavo.Corrections.Requests

/-! # What a step writes

Every transaction that changes a proposal does the same thing to its namespace's database: it appends
one event to the proposal's history and leaves one new row, with that event as its head. The inversion
lemmas below say this of each operation, and of a step of any request. -/

namespace Golavo.Corrections

open Golavo.Lib (Json Pool Move Reaches bind_ok_iff failIf_ok_iff orFail_ok_iff failIf)
open Golavo.Ledger (Runtime)

/-! ## Appending -/

/-- An event that may be appended to a database. -/
structure Appends (rt : Runtime) (db : CorrectionDb) (e : ProposalEvent) : Prop where
  next : e = eventAfter rt (db.latestEvent e.proposalId) e.proposalId e.eventType e.payload
    e.recordedAtUtc
  fresh : e.eventId ∉ db.events.map ProposalEvent.eventId
  known : e.proposalId ∈ db.proposals.map Proposal.proposalId

/-- A row as the event leaves it. -/
def Proposal.headed (p : Proposal) (e : ProposalEvent) : Proposal :=
  { p with headEventId := some e.eventId, updatedAtUtc := e.recordedAtUtc }

/-- The database after an event, with the row, the evidence and the exports it leaves. -/
def CorrectionDb.wrote (db : CorrectionDb) (e : ProposalEvent) (row : Proposal → Proposal)
    (evidence : List Evidence) (exports : List ExportRecord) : CorrectionDb where
  proposals := db.proposals.map fun p =>
    if p.proposalId = e.proposalId then (row p).headed e else p
  events := db.events ++ [e]
  evidence := evidence
  exports := exports

section Inversion

variable {rt : Runtime} {db db' : CorrectionDb} {row : Proposal} {now : String}

/-- **What an append does**, after a change of the row it is for. -/
theorem exists_of_appendEvent (db : CorrectionDb) {db' base : CorrectionDb} {f : Proposal → Proposal} {proposalId : String}
    {type : EventType} {payload : Json}
    (h : appendEvent rt (base.update proposalId f) proposalId type payload now = .ok db')
    (hf : ∀ p, (f p).proposalId = p.proposalId)
    (hbase : base.proposals = db.proposals ∧ base.events = db.events) :
    ∃ e, Appends rt db e ∧ e.proposalId = proposalId ∧ e.eventType = type ∧ e.payload = payload ∧
      e.recordedAtUtc = now ∧ db' = db.wrote e f base.evidence base.exports := by
  unfold appendEvent at h
  simp only [bind_ok_iff, failIf_ok_iff, exists_const, not_or, not_not, pure, Except.pure,
    Except.ok.injEq] at h
  obtain ⟨⟨hfresh, -, hknown⟩, rfl⟩ := h
  have hlatest : (base.update proposalId f).latestEvent proposalId = db.latestEvent proposalId := by
    simp only [CorrectionDb.latestEvent, CorrectionDb.eventsOf, CorrectionDb.update, hbase.2]
  have hids : (base.update proposalId f).proposals.map Proposal.proposalId =
      db.proposals.map Proposal.proposalId := by
    rw [CorrectionDb.update, hbase.1, List.map_map]
    refine List.map_congr_left fun p _ => ?_
    simp only [Function.comp_apply]
    split_ifs
    · exact hf p
    · rfl
  rw [hlatest] at hfresh ⊢
  refine ⟨eventAfter rt (db.latestEvent proposalId) proposalId type payload now,
    ⟨rfl, hbase.2 ▸ hfresh, hids ▸ hknown⟩, rfl, rfl, rfl, rfl, ?_⟩
  simp only [CorrectionDb.wrote, CorrectionDb.update, hbase.1, hbase.2, List.map_map,
    CorrectionDb.mk.injEq, and_true]
  refine List.map_congr_left fun p _ => ?_
  simp only [Function.comp_apply]
  by_cases hid : p.proposalId = proposalId
  · rw [if_pos hid, if_pos ((hf p).trans hid)]
    exact (if_pos hid).symm
  · rw [if_neg hid, if_neg hid]
    exact (if_neg hid).symm

/-- Changing a row to itself changes nothing. -/
theorem update_id (db : CorrectionDb) (proposalId : String) : db.update proposalId id = db := by
  simp [CorrectionDb.update]

/-! ## Each operation -/

/-- The database with the row of a new proposal. -/
def CorrectionDb.insertProposal (db : CorrectionDb) (p : Proposal) : CorrectionDb :=
  { db with proposals := db.proposals ++ [p] }

/-- What a creation does, when it finds nothing open. -/
theorem createProposal_ok {ns : Namespace} {req : CreateRequest} {new : Bool}
    (h : createProposal rt ns db req = .ok (db', new)) :
    (db' = db ∧ new = false) ∨
      (new = true ∧ db.openWith (newProposal rt ns req).fingerprint = none ∧
        req.newId ∉ db.proposals.map Proposal.proposalId ∧
        ∃ e, Appends rt (db.insertProposal (newProposal rt ns req)) e ∧ e.proposalId = req.newId ∧
          e.eventType = .created ∧
          db' = (db.insertProposal (newProposal rt ns req)).wrote e id db.evidence db.exports) := by
  unfold createProposal at h
  cases hopen : db.openWith (fingerprint rt ns req.correctionType req.target req.proposed) with
  | some p =>
      rw [hopen] at h
      simp only [bind_ok_iff, failIf_ok_iff, exists_const, pure, Except.pure, Except.ok.injEq,
        Prod.mk.injEq] at h
      exact .inl ⟨h.2.1.symm, h.2.2.symm⟩
  | none =>
      rw [hopen] at h
      simp only [bind_ok_iff, failIf_ok_iff, exists_const, pure, Except.pure, Except.ok.injEq,
        Prod.mk.injEq] at h
      obtain ⟨hnew, next, happend, -, rfl, rfl⟩ := h
      refine .inr ⟨rfl, hopen, hnew, ?_⟩
      rw [← update_id { db with proposals := _ } req.newId] at happend
      obtain ⟨e, he, hid, htype, -, -, hdb⟩ :=
        exists_of_appendEvent (db.insertProposal (newProposal rt ns req)) happend
          (fun _ => rfl) ⟨rfl, rfl⟩
      exact ⟨e, he, hid, htype, hdb⟩

/-- What attaching evidence does, when it is new. -/
theorem attachEvidence_ok {ns : Namespace} {req : AttachRequest} {new : Bool}
    (h : attachEvidence rt ns db req = .ok (db', new)) :
    (db' = db ∧ new = false) ∨
      (new = true ∧ ∃ p, db.find req.proposalId = some p ∧ p.state ∉ closedStates ∧
        evidenceId rt req ∉ db.evidence.map Evidence.evidenceId ∧
        ∃ e, Appends rt db e ∧ e.proposalId = req.proposalId ∧
          (e.eventType = .evidenceAttached ∨ e.eventType = .evidenceImportedFromResearch) ∧
          db' = db.wrote e (·.reset .evidenceAttached)
            (db.evidence ++ [newEvidence rt ns p req]) db.exports) := by
  unfold attachEvidence at h
  simp only [bind_ok_iff, orFail_ok_iff, failIf_ok_iff, exists_const] at h
  obtain ⟨p, hfind, hstate, -, h⟩ := h
  split at h
  · simp only [pure, Except.pure, Except.ok.injEq, Prod.mk.injEq] at h
    exact .inl ⟨h.1.symm, h.2.symm⟩
  · cases hfile : req.fileFailure with
    | some reasonCode =>
        rw [hfile] at h
        cases h
    | none =>
        rw [hfile] at h
        simp only [bind_ok_iff, failIf_ok_iff, exists_const, pure, Except.pure, Except.ok.injEq,
          Prod.mk.injEq] at h
        obtain ⟨hnew, next, happend, rfl, rfl⟩ := h
        obtain ⟨e, he, hid, htype, -, -, hdb⟩ := exists_of_appendEvent db happend
          (fun _ => rfl) ⟨rfl, rfl⟩
        refine .inr ⟨rfl, p, hfind, hstate, hnew, e, he, hid, ?_, hdb⟩
        rw [htype]
        split_ifs
        · exact .inr rfl
        · exact .inl rfl

/-- What a revision does. -/
theorem writeRevision_ok {nextState : ProposalState} {proposed : Json}
    (h : writeRevision rt db row nextState proposed now = .ok db') :
    ∃ e, Appends rt db e ∧ e.proposalId = row.proposalId ∧ e.eventType = .draftRevised ∧
      db' = db.wrote e (fun p => { p.reset nextState with
        proposed := proposed
        fingerprint := fingerprint rt row.licenseNamespace row.correctionType row.target proposed })
        db.evidence db.exports := by
  obtain ⟨e, he, hid, htype, -, -, hdb⟩ := exists_of_appendEvent db h (fun _ => rfl)
    ⟨rfl, rfl⟩
  exact ⟨e, he, hid, htype, hdb⟩

/-- The evidence after a verdict. -/
def Verdict.markEvidence (v : Verdict) (proposalId : String) (e : Evidence) : Evidence :=
  if e.proposalId = proposalId then
    { e with snapshotVerified := e.evidenceId ∈ v.snapshotEvidenceIds }
  else e

/-- A row after a verdict. -/
def Verdict.rule (v : Verdict) (p : Proposal) : Proposal :=
  { p with
    state := v.state
    verificationLevel := v.verificationLevel
    validation := .mk v.findings
    localVisibility := "queue_only" }

/-- What a verdict does. -/
theorem writeValidation_ok {v : Verdict} (h : writeValidation rt db row v now = .ok db') :
    ∃ e, Appends rt db e ∧ e.proposalId = row.proposalId ∧ e.eventType = v.eventType ∧
      db' = db.wrote e v.rule (db.evidence.map (v.markEvidence row.proposalId)) db.exports := by
  obtain ⟨e, he, hid, htype, -, -, hdb⟩ := exists_of_appendEvent db h (fun _ => rfl)
    ⟨rfl, rfl⟩
  exact ⟨e, he, hid, htype, hdb⟩

/-- What a transition does. -/
theorem writeTransition_ok {t : Transition} (h : writeTransition rt db row t now = .ok db') :
    ∃ e, Appends rt db e ∧ e.proposalId = row.proposalId ∧ e.eventType = t.eventType ∧
      db' = db.wrote e (fun p => { p with
        state := t.state
        localVisibility := t.localVisibility.getD row.localVisibility }) db.evidence db.exports := by
  obtain ⟨e, he, hid, htype, -, -, hdb⟩ := exists_of_appendEvent db h (fun _ => rfl)
    ⟨rfl, rfl⟩
  exact ⟨e, he, hid, htype, hdb⟩

/-- Inserting the record of an export changes no other table. -/
theorem insertExport_tables (db : CorrectionDb) (record : ExportRecord) :
    (db.insertExport record).proposals = db.proposals ∧
      (db.insertExport record).events = db.events ∧
      (db.insertExport record).evidence = db.evidence := by
  unfold CorrectionDb.insertExport
  split_ifs
  · exact ⟨rfl, rfl, rfl⟩
  · exact ⟨rfl, rfl, rfl⟩

/-- What recording an export does. -/
theorem writeExport_ok {record : ExportRecord} (h : writeExport rt db row record = .ok db') :
    (row.state ≠ .validatedCandidate ∧ row.state ≠ .acceptedLocal ∧
        row.proposalId ∈ db.proposals.map Proposal.proposalId ∧ db' = db.insertExport record) ∨
      ((row.state = .validatedCandidate ∨ row.state = .acceptedLocal) ∧
        ∃ e, Appends rt db e ∧ e.proposalId = row.proposalId ∧ e.eventType = .exported ∧
          db' = db.wrote e (fun p => { p with state := .exported }) db.evidence
            (db.insertExport record).exports) := by
  unfold writeExport at h
  simp only [bind_ok_iff, failIf_ok_iff, exists_const, not_not] at h
  obtain ⟨hknown, h⟩ := h
  split_ifs at h with hstate
  · obtain ⟨hproposals, hevents, hevidence⟩ := insertExport_tables db record
    obtain ⟨e, he, hid, htype, -, -, hdb⟩ := exists_of_appendEvent db h (fun _ => rfl)
      ⟨hproposals, hevents⟩
    exact .inr ⟨hstate, e, he, hid, htype, hevidence ▸ hdb⟩
  · simp only [pure, Except.pure, Except.ok.injEq] at h
    exact .inl ⟨fun h => hstate (.inl h), fun h => hstate (.inr h), hknown, h.symm⟩

/-- A row after a redaction, by whether evidence remains. -/
def Proposal.redacted (remaining : Bool) (p : Proposal) : Proposal :=
  { p.reset (if remaining then .evidenceAttached else .draft) with
    validation := if remaining then noFindings else evidenceRequired }

/-- What a redaction does. -/
theorem writeRedaction_ok {evidence : Evidence}
    (h : writeRedaction rt db row evidence now = .ok db') :
    ∃ e remaining, Appends rt db e ∧ e.proposalId = row.proposalId ∧
      e.eventType = .evidenceRedacted ∧
      db' = db.wrote e (Proposal.redacted remaining)
        (db.evidence.map (redactedEvidence row.proposalId evidence.evidenceId)) db.exports := by
  unfold writeRedaction at h
  simp only [bind_ok_iff, pure, Except.pure, Except.ok.injEq] at h
  obtain ⟨next, happend, rfl⟩ := h
  rw [← update_id { db with evidence := _ } row.proposalId] at happend
  obtain ⟨e, he, hid, htype, -, -, rfl⟩ := exists_of_appendEvent db happend (fun _ => rfl)
    ⟨rfl, rfl⟩
  refine ⟨e, (db.evidence.map (redactedEvidence row.proposalId evidence.evidenceId)).any fun e =>
    e.proposalId = row.proposalId && !e.redacted, he, hid, htype, ?_⟩
  simp only [CorrectionDb.wrote, CorrectionDb.update, List.map_map, CorrectionDb.mk.injEq, and_true]
  refine List.map_congr_left fun p _ => ?_
  simp only [Function.comp_apply, hid]
  by_cases hp : p.proposalId = row.proposalId
  · rw [if_pos hp, if_pos hp]
    exact if_pos hp
  · rw [if_neg hp, if_neg hp, if_neg hp]

end Inversion

/-! ## A step of a request -/

/-- A step that changes a proposal: the database it finds, with the row of a new proposal, and the
event, the row, the evidence and the exports it leaves there. -/
inductive Task.Writes (rt : Runtime) (reg : Registry) (root : Root) : Task → Namespace →
    CorrectionDb → ProposalEvent → (Proposal → Proposal) → List Evidence → List ExportRecord → Prop
  | create {req : CreateRequest} {ns : Namespace} {e : ProposalEvent} :
      ns = reg.namespaceFor req.sourceId →
      (root ns).openWith (newProposal rt ns req).fingerprint = none →
      req.newId ∉ (root ns).proposals.map Proposal.proposalId → e.proposalId = req.newId →
      e.eventType = .created →
      Writes rt reg root (.create req) ns ((root ns).insertProposal (newProposal rt ns req)) e id
        (root ns).evidence (root ns).exports
  | attach {req : AttachRequest} {ns : Namespace} {p : Proposal} {e : ProposalEvent} :
      (root ns).find req.proposalId = some p → p.state ∉ closedStates →
      evidenceId rt req ∉ (root ns).evidence.map Evidence.evidenceId →
      e.proposalId = req.proposalId →
      (e.eventType = .evidenceAttached ∨ e.eventType = .evidenceImportedFromResearch) →
      Writes rt reg root (.attachLocated ns req) ns (root ns) e (·.reset .evidenceAttached)
        ((root ns).evidence ++ [newEvidence rt ns p req]) (root ns).exports
  | revise {at_ : Read} {nextState : ProposalState} {call : Call} {proposed : Json}
      {e : ProposalEvent} : e.proposalId = at_.row.proposalId → e.eventType = .draftRevised →
      Writes rt reg root (.reviseRead at_ nextState call proposed) at_.ns (root at_.ns) e
        (fun p => { p.reset nextState with
          proposed := proposed
          fingerprint := fingerprint rt at_.row.licenseNamespace at_.row.correctionType
            at_.row.target proposed })
        (root at_.ns).evidence (root at_.ns).exports
  | validate {at_ seen : Read} {now : String} {v : Verdict} {e : ProposalEvent} :
      e.proposalId = at_.row.proposalId → e.eventType = v.eventType →
      Writes rt reg root (.validateLocated at_ seen now v) at_.ns (root at_.ns) e v.rule
        ((root at_.ns).evidence.map (v.markEvidence at_.row.proposalId)) (root at_.ns).exports
  | transition {at_ : Read} {seen : Option Read} {call : Call} {t : Transition}
      {e : ProposalEvent} : e.proposalId = at_.row.proposalId → e.eventType = t.eventType →
      Writes rt reg root (.transitionLocated at_ seen call t) at_.ns (root at_.ns) e
        (fun p => { p with
          state := t.state
          localVisibility := t.localVisibility.getD at_.row.localVisibility })
        (root at_.ns).evidence (root at_.ns).exports
  | exported {at_ seen : Read} {record : ExportRecord} {call : Call} {e : ProposalEvent} :
      (at_.row.state = .validatedCandidate ∨ at_.row.state = .acceptedLocal) →
      e.proposalId = at_.row.proposalId → e.eventType = .exported →
      Writes rt reg root (.exportLocated at_ seen record call) at_.ns (root at_.ns) e
        (fun p => { p with state := .exported }) (root at_.ns).evidence
        ((root at_.ns).insertExport record).exports
  | redact {at_ : Read} {evidence : Evidence} {call : Call} {e : ProposalEvent}
      {remaining : Bool} : e.proposalId = at_.row.proposalId → e.eventType = .evidenceRedacted →
      Writes rt reg root (.redactRead at_ evidence call) at_.ns (root at_.ns) e
        (Proposal.redacted remaining)
        ((root at_.ns).evidence.map (redactedEvidence at_.row.proposalId evidence.evidenceId))
        (root at_.ns).exports

section Act

variable {rt : Runtime} {reg : Registry} {root : Root} {p : Task}

/-- What a step of a request does. -/
inductive Task.Did (rt : Runtime) (reg : Registry) (root : Root) (p : Task) :
    Root × (Task ⊕ Reply) → Prop
  /-- It read, was refused or found its work done. -/
  | read {r : Task ⊕ Reply} : (∀ reply, r = .inr reply → reply.outcome ≠ .ok .changed) →
      Did rt reg root p (root, r)
  /-- It emptied the store. -/
  | purge : p = .purge → Did rt reg root p (emptyRoot, .inr ⟨"", none, .ok .changed⟩)
  /-- It recorded an export of a proposal that stays as it is. -/
  | record {at_ seen : Read} {record : ExportRecord} {call : Call} :
      p = .exportLocated at_ seen record call →
      at_.row.state ≠ .validatedCandidate → at_.row.state ≠ .acceptedLocal →
      at_.row.proposalId ∈ (root at_.ns).proposals.map Proposal.proposalId →
      Did rt reg root p (Function.update root at_.ns ((root at_.ns).insertExport record),
        .inr ⟨call.proposalId, some call.expected, .ok .unchanged⟩)
  /-- It changed a proposal. -/
  | write {ns : Namespace} {base : CorrectionDb} {e : ProposalEvent} {row : Proposal → Proposal}
      {evidence : List Evidence} {exports : List ExportRecord} :
      p.Writes rt reg root ns base e row evidence exports → Appends rt base e →
      Did rt reg root p (Function.update root ns (base.wrote e row evidence exports),
        .inr ⟨p.proposalId, p.expected, .ok .changed⟩)

/-- A reading step that answers without a change. -/
theorem did_readStep {proposalId : String} {expected : Option String}
    {result : Except CorrectionFailure (Task ⊕ Outcome)}
    (h : ∀ outcome, result = .ok (.inr outcome) → outcome ≠ .changed) :
    p.Did rt reg root (readStep root proposalId expected result) := by
  unfold readStep
  refine .read fun reply hreply => ?_
  rcases result with e | next | outcome
  · obtain rfl := Sum.inr.inj hreply
    exact nofun
  · exact nomatch hreply
  · obtain rfl := Sum.inr.inj hreply
    exact fun hchanged => h outcome rfl (Except.ok.inj hchanged)

/-- A writing step that is refused changes nothing; one that goes through did what it says. -/
theorem did_writeStep {ns : Namespace} {proposalId : String} {expected : Option String}
    {result : Except CorrectionFailure (CorrectionDb × Outcome)}
    (h : ∀ db outcome, result = .ok (db, outcome) → p.Did rt reg root
      (Function.update root ns db, .inr ⟨proposalId, expected, .ok outcome⟩)) :
    p.Did rt reg root (writeStep root ns proposalId expected result) := by
  rcases result with e | ⟨db, outcome⟩
  · refine .read fun reply hreply => ?_
    obtain rfl := Sum.inr.inj hreply
    exact nofun
  · exact h db outcome rfl

/-- A transaction that found its work done. -/
theorem did_unchanged (ns : Namespace) (proposalId : String) (expected : Option String) :
    p.Did rt reg root (Function.update root ns (root ns),
      .inr ⟨proposalId, expected, .ok .unchanged⟩) := by
  rw [Function.update_eq_self]
  refine .read fun reply hreply => ?_
  obtain rfl := Sum.inr.inj hreply
  exact fun h => nomatch Except.ok.inj h

/-- The result of a mapped computation. -/
theorem map_ok_iff {ε α β : Type} {f : α → β} {x : Except ε α} {b : β} :
    x.map f = .ok b ↔ ∃ a, x = .ok a ∧ f a = b := by
  cases x <;> simp [Except.map]

/-- **What a step does**, for every request. -/
theorem Task.did (rt : Runtime) (reg : Registry) (root : Root) (p : Task) :
    p.Did rt reg root (p.act rt reg root) := by
  cases p with
  | create req =>
      refine did_writeStep fun db outcome hrun => ?_
      obtain ⟨⟨next, new⟩, hcreate, heq⟩ := map_ok_iff.mp hrun
      obtain ⟨rfl, rfl⟩ := Prod.mk.inj heq
      rcases createProposal_ok hcreate with ⟨rfl, rfl⟩ |
        ⟨rfl, hopen, hnew, e, he, hid, htype, rfl⟩
      · exact did_unchanged _ _ _
      · exact .write (.create rfl hopen hnew hid htype) he
  | attachLocated ns req =>
      refine did_writeStep fun db outcome hrun => ?_
      obtain ⟨⟨next, new⟩, hattach, heq⟩ := map_ok_iff.mp hrun
      obtain ⟨rfl, rfl⟩ := Prod.mk.inj heq
      rcases attachEvidence_ok hattach with ⟨rfl, rfl⟩ |
        ⟨rfl, row, hfind, hstate, hnew, e, he, hid, htype, rfl⟩
      · exact did_unchanged _ _ _
      · exact .write (.attach hfind hstate hnew hid htype) he
  | reviseRead at_ nextState call proposed =>
      refine did_writeStep fun db outcome hrun => ?_
      obtain ⟨next, hwrite, heq⟩ := map_ok_iff.mp hrun
      obtain ⟨rfl, rfl⟩ := Prod.mk.inj heq
      obtain ⟨e, he, hid, htype, rfl⟩ := writeRevision_ok hwrite
      exact .write (.revise hid htype) he
  | validateLocated at_ seen now verdict =>
      refine did_writeStep fun db outcome hrun => ?_
      obtain ⟨next, hwrite, heq⟩ := map_ok_iff.mp hrun
      obtain ⟨rfl, rfl⟩ := Prod.mk.inj heq
      obtain ⟨e, he, hid, htype, rfl⟩ := writeValidation_ok hwrite
      exact .write (.validate hid htype) he
  | transitionLocated at_ seen call t =>
      refine did_writeStep fun db outcome hrun => ?_
      obtain ⟨next, hwrite, heq⟩ := map_ok_iff.mp hrun
      obtain ⟨rfl, rfl⟩ := Prod.mk.inj heq
      obtain ⟨e, he, hid, htype, rfl⟩ := writeTransition_ok hwrite
      exact .write (.transition hid htype) he
  | exportLocated at_ seen record call =>
      refine did_writeStep fun db outcome hrun => ?_
      obtain ⟨next, hwrite, heq⟩ := map_ok_iff.mp hrun
      obtain ⟨rfl, rfl⟩ := Prod.mk.inj heq
      rcases writeExport_ok hwrite with ⟨hvalid, haccepted, hknown, rfl⟩ |
        ⟨hstate, e, he, hid, htype, rfl⟩
      · rw [if_neg (not_or.mpr ⟨hvalid, haccepted⟩)]
        exact .record rfl hvalid haccepted hknown
      · rw [if_pos hstate]
        exact .write (.exported hstate hid htype) he
  | redactRead at_ evidence call =>
      refine did_writeStep fun db outcome hrun => ?_
      obtain ⟨next, hwrite, heq⟩ := map_ok_iff.mp hrun
      obtain ⟨rfl, rfl⟩ := Prod.mk.inj heq
      obtain ⟨e, remaining, he, hid, htype, rfl⟩ := writeRedaction_ok hwrite
      exact .write (.redact hid htype) he
  | purge => exact .purge rfl
  | transition call route =>
      refine did_readStep fun outcome h => ?_
      rcases route with _ | _ | reason | externalReference
      all_goals
        simp only [bind_ok_iff, Route.transition, pure, Except.pure, Except.ok.injEq] at h
      · obtain ⟨seen, -, t, rfl, h⟩ := h
        cases h
      · obtain ⟨seen, -, t, rfl, h⟩ := h
        cases h
      · cases h
      · obtain ⟨seen, -, t, -, h⟩ := h
        cases t with
        | none =>
            obtain rfl := Sum.inr.inj (Except.ok.inj h)
            exact Outcome.noConfusion
        | some t => cases h
  | exportRead seen evidence events call files =>
      refine did_readStep fun outcome h => ?_
      split at h
      · split_ifs at h
        · obtain rfl := Sum.inr.inj (Except.ok.inj h)
          exact Outcome.noConfusion
        · split at h
          · cases h
          · cases h
      · split at h
        · cases h
        · cases h
  | redactLocated at_ call evidenceId =>
      refine did_readStep fun outcome h => ?_
      obtain ⟨evidence, -, h⟩ := bind_ok_iff.mp h
      split_ifs at h
      · obtain rfl := Sum.inr.inj (Except.ok.inj h)
        exact Outcome.noConfusion
      · cases h
  | _ =>
      -- The other steps only read and go on.
      simp only [Task.act]
      refine did_readStep fun outcome h => ?_
      simp only [bind_ok_iff, pure, Except.pure, Except.ok.injEq, reduceCtorEq, and_false,
        exists_false] at h

/-- What a step of a request does to the database of one namespace. -/
inductive Task.DidAt (rt : Runtime) (reg : Registry) (root : Root) (p : Task) (ns : Namespace) :
    CorrectionDb → Prop
  | same : DidAt rt reg root p ns (root ns)
  | purge : p = .purge → DidAt rt reg root p ns emptyDb
  | record {at_ seen : Read} {record : ExportRecord} {call : Call} :
      p = .exportLocated at_ seen record call → at_.ns = ns →
      at_.row.state ≠ .validatedCandidate → at_.row.state ≠ .acceptedLocal →
      at_.row.proposalId ∈ (root ns).proposals.map Proposal.proposalId →
      DidAt rt reg root p ns ((root ns).insertExport record)
  | write {base : CorrectionDb} {e : ProposalEvent} {row : Proposal → Proposal}
      {evidence : List Evidence} {exports : List ExportRecord} :
      p.Writes rt reg root ns base e row evidence exports → Appends rt base e →
      DidAt rt reg root p ns (base.wrote e row evidence exports)

/-- **What a step does to a database**, for every request. -/
theorem Task.didAt (rt : Runtime) (reg : Registry) (root : Root) (p : Task) (ns : Namespace) :
    p.DidAt rt reg root ns ((p.act rt reg root).1 ns) := by
  generalize hact : p.act rt reg root = result
  have hdid : p.Did rt reg root result := hact ▸ Task.did rt reg root p
  cases hdid with
  | read => exact .same
  | purge hp => exact .purge hp
  | @record at_ seen record call hp hvalid haccepted hknown =>
      by_cases heq : at_.ns = ns
      · subst heq
        dsimp only
        rw [Function.update_self]
        exact .record hp rfl hvalid haccepted hknown
      · dsimp only
        rw [Function.update_of_ne (Ne.symm heq)]
        exact .same
  | @write ns' base e row evidence exports hwrites he =>
      by_cases heq : ns' = ns
      · subst heq
        dsimp only
        rw [Function.update_self]
        exact .write hwrites he
      · dsimp only
        rw [Function.update_of_ne (Ne.symm heq)]
        exact .same

section Writes

variable {ns : Namespace} {base : CorrectionDb} {e : ProposalEvent} {row : Proposal → Proposal}
  {evidence : List Evidence} {exports : List ExportRecord}

/-- A step that changes a proposal finds the database as it is, or with the row of the proposal it
creates. -/
theorem Task.Writes.base_eq (h : p.Writes rt reg root ns base e row evidence exports) :
    base = root ns ∨ ∃ req, p = .create req ∧
      base = (root ns).insertProposal (newProposal rt ns req) ∧ req.newId = e.proposalId ∧
      req.newId ∉ (root ns).proposals.map Proposal.proposalId := by
  cases h with
  | create _ _ hnew hid _ => exact .inr ⟨_, rfl, rfl, hid.symm, hnew⟩
  | attach | revise | validate | transition | exported | redact => exact .inl rfl

/-- The events of the database a step that changes a proposal finds. -/
theorem Task.Writes.base_events (h : p.Writes rt reg root ns base e row evidence exports) :
    base.events = (root ns).events := by
  rcases h.base_eq with rfl | ⟨req, -, rfl, -⟩
  · rfl
  · rfl

/-- The rows of the database a step that changes a proposal finds: those that are there, or the one it
creates. -/
theorem Task.Writes.mem_base (h : p.Writes rt reg root ns base e row evidence exports)
    {q : Proposal} (hq : q ∈ base.proposals) :
    q ∈ (root ns).proposals ∨
      ∃ req, p = .create req ∧ q = newProposal rt ns req ∧ req.newId = e.proposalId := by
  rcases h.base_eq with rfl | ⟨req, hreq, rfl, hid, -⟩
  · exact .inl hq
  · rcases List.mem_append.mp hq with hq | hq
    · exact .inl hq
    · exact .inr ⟨req, hreq, List.mem_singleton.mp hq, hid⟩

/-- A step that changes a proposal leaves the row its id. -/
theorem Task.Writes.row_proposalId (h : p.Writes rt reg root ns base e row evidence exports)
    (q : Proposal) : (row q).proposalId = q.proposalId := by
  cases h <;> rfl

end Writes

end Act

end Golavo.Corrections
