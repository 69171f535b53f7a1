import Golavo.Corrections.Chain

/-! # Orderly runs

What holds in every run of requests on corrections whose ids are drawn fresh, whatever the order of
the steps: the histories are chains, a proposal stays in one namespace, and a request keeps what it
has checked. No row comes back once it changed, since every change appends an event that is new; so
what a request read beside a row still holds while the row does. -/

namespace Golavo.Corrections

open Golavo.Lib (Json Pool Move Outline Sound Reaches answered bind_ok_iff check_bind_ok_iff
  failIf_ok_iff orFail_ok_iff)
open Golavo.Ledger (Runtime)

/-! ## Runs -/

/-- Whether a request creates a proposal. -/
def Task.isCreate : Task → Bool
  | .create _ => true
  | _ => false

/-- No two requests name a proposal that one of them creates. -/
def Task.Apart (p q : Task) : Prop :=
  p.isCreate = true ∨ q.isCreate = true → p.proposalId ≠ q.proposalId

/-- The id drawn for a new proposal is one that no request named before. -/
def Drawn (s : CorrectionPool) (p : Task) : Prop :=
  (∀ q ∈ s.waiting, p.Apart q) ∧
    (p.isCreate = true → p.proposalId ∉ s.replies.map Reply.proposalId)

/-- The moves of a run: requests arrive new, with an id of their own where they create, and each step
fits. -/
def Steps (fits : Task → Root → Prop) (s : CorrectionPool) : Move Task → Prop
  | .arrive p => p.isNew = true ∧ Drawn s p
  | .advance i => ∀ p, s.waiting[i]? = some p → fits p s.store

/-- The pools reached from an empty store by steps that fit. -/
def ReachedBy (rt : Runtime) (reg : Registry) (fits : Task → Root → Prop) :
    CorrectionPool → Prop :=
  Reaches (· = .of emptyRoot) (Steps fits) (Pool.move (Task.act rt reg))

instance (p q : Task) : Decidable (p.Apart q) :=
  inferInstanceAs (Decidable (_ → _ ≠ _))

instance (s : CorrectionPool) (p : Task) : Decidable (Drawn s p) :=
  inferInstanceAs (Decidable (_ ∧ _))

instance (fits : Task → Root → Prop) [∀ p root, Decidable (fits p root)] (s : CorrectionPool) :
    (m : Move Task) → Decidable (Steps fits s m)
  | .arrive p => inferInstanceAs (Decidable (p.isNew = true ∧ Drawn s p))
  | .advance i => inferInstanceAs (Decidable (∀ p ∈ s.waiting[i]?, fits p s.store))

/-! ## What requests know -/

/-- A transition a route asks for, by the proposal it read. -/
def RouteOf (seen : Option Read) (t : Transition) : Prop :=
  (seen = none ∧ ∃ reason, t = withdraw reason t.expected) ∨
    ∃ r, seen = some r ∧ (t = acceptLocal r.row t.expected ∨ t = revokeLocal r.row t.expected ∨
      ∃ externalReference, t = markSubmitted externalReference t.expected)

/-- What a request has checked of the rows it read. -/
def Task.Checked : Task → Prop
  | .reviseLocated at_ call _ =>
      at_.row.state ∈ editableStates ∧ at_.row.headEventId = some call.expected
  | .reviseRead at_ nextState call _ =>
      at_.row.state ∈ editableStates ∧ at_.row.headEventId = some call.expected ∧
        (nextState = .draft ∨ nextState = .evidenceAttached)
  | .validateLocated at_ _ _ v =>
      at_.row.state ∉ closedStates ∧
        v.state ∈ [ProposalState.validatedCandidate, .conflict, .evidenceAttached]
  | .transitionSeen seen call t => t.expected = call.expected ∧ RouteOf seen t
  | .transitionLocated at_ seen call t =>
      t.expected = call.expected ∧ RouteOf seen t ∧ at_.row.state ∈ t.allowed ∧
        at_.row.headEventId = some call.expected
  | .exportRead seen _ _ call _ | .exportBuilt seen _ call | .exportLocated _ seen _ call =>
      seen.row.headEventId = some call.expected ∧ seen.row.state ∈ exportableStates
  | .redactLocated at_ call _ | .redactRead at_ _ call => at_.row.headEventId = some call.expected
  | _ => True

/-- What a request has read beside a row, while the row is there. -/
def Task.Sees (rt : Runtime) (reg : Registry) : Task → Root → Prop
  | .exportEvidence seen evidence _ _, root =>
      seen.row ∈ (root seen.ns).proposals →
        (root seen.ns).evidenceOf seen.row.proposalId = evidence
  | .exportRead seen evidence events _ _, root =>
      seen.row ∈ (root seen.ns).proposals →
        (root seen.ns).evidenceOf seen.row.proposalId = evidence ∧
          (root seen.ns).historyOf seen.row.proposalId = events
  | .exportBuilt seen record call, root | .exportLocated _ seen record call, root =>
      seen.row ∈ (root seen.ns).proposals →
        record = exportRecord rt reg seen.row ((root seen.ns).evidenceOf seen.row.proposalId)
          ((root seen.ns).historyOf seen.row.proposalId) call.now
  | .redactRead at_ evidence _, root =>
      at_.row.proposalId ∈ (root at_.ns).proposals.map Proposal.proposalId →
        ∃ x ∈ (root at_.ns).evidence, x.evidenceId = evidence.evidenceId ∧
          x.proposalId = at_.row.proposalId
  | _, _ => True

/-- A row whose head is an event of the history, unless its proposal is gone. -/
def Stamped (db : CorrectionDb) (row : Proposal) : Prop :=
  ∀ q ∈ db.proposals, q.proposalId = row.proposalId →
    ∃ head, row.headEventId = some head ∧ head ∈ db.events.map ProposalEvent.eventId

/-- What a request relies on. -/
structure Task.Holds (rt : Runtime) (reg : Registry) (p : Task) (root : Root)
    (replies : List Reply) : Prop where
  fresh : p.isCreate = true → p.proposalId ∉ replies.map Reply.proposalId
  names : ∀ r ∈ p.reads, r.row.proposalId = p.proposalId
  stamped : ∀ r ∈ p.reads, Stamped (root r.ns) r.row
  checked : p.Checked
  sees : p.Sees rt reg root

/-- What holds throughout: the histories are chains, and a proposal is in one namespace and was
answered about. -/
structure Orderly (rt : Runtime) (root : Root) (replies : List Reply) : Prop where
  chained : ∀ ns, Chained rt (root ns)
  started : ∀ ns, Started (root ns)
  evidenceIds : ∀ ns, ((root ns).evidence.map Evidence.evidenceId).Nodup
  oneNamespace : ∀ ns ns', ∀ p ∈ (root ns).proposals, ∀ q ∈ (root ns').proposals,
    p.proposalId = q.proposalId → ns = ns'
  answered : ∀ ns, ∀ p ∈ (root ns).proposals, p.proposalId ∈ replies.map Reply.proposalId

/-- A request in an orderly store, with what it relies on. -/
structure Task.Within (rt : Runtime) (reg : Registry) (p : Task) (root : Root)
    (replies : List Reply) : Prop where
  orderly : Orderly rt root replies
  holds : p.Holds rt reg root replies

/-! ## What a step leaves alone -/

section Frame

variable {rt : Runtime} {reg : Registry} {root : Root} {replies : List Reply} {p : Task}

/-- The head of a proposal is an event of its history. -/
theorem Orderly.head_mem (h : Orderly rt root replies) {ns : Namespace} {q : Proposal}
    (hq : q ∈ (root ns).proposals) :
    ∃ head, q.headEventId = some head ∧ head ∈ (root ns).events.map ProposalEvent.eventId := by
  obtain ⟨head, hhead⟩ := Option.isSome_iff_exists.mp (h.started ns q hq)
  refine ⟨head, hhead, ?_⟩
  have hlast := (h.chained ns).heads q hq
  rw [hhead] at hlast
  obtain ⟨last, hmem, hid⟩ := Option.map_eq_some_iff.mp hlast.symm
  exact hid ▸ List.mem_map_of_mem (List.mem_filter.mp (List.mem_of_getLast? hmem)).1

/-- A row that was read carries its head. -/
theorem Orderly.stamped (h : Orderly rt root replies) {ns : Namespace} {row : Proposal}
    (hrow : row ∈ (root ns).proposals) : Stamped (root ns) row :=
  fun _ _ _ => h.head_mem hrow

/-- Evidence marked or redacted stays with its proposal. -/
theorem filter_map_evidence {evidence : List Evidence} {f : Evidence → Evidence}
    {proposalId : String} (hf : ∀ x ∈ evidence, (f x).proposalId = x.proposalId)
    (hsame : ∀ x ∈ evidence, x.proposalId = proposalId → f x = x) :
    (evidence.map f).filter (·.proposalId = proposalId) =
      evidence.filter (·.proposalId = proposalId) := by
  induction evidence with
  | nil => rfl
  | cons x rest ih =>
      have hrest := ih (fun y hy => hf y (List.mem_cons_of_mem _ hy))
        fun y hy => hsame y (List.mem_cons_of_mem _ hy)
      have hx := hf x List.mem_cons_self
      rw [List.map_cons, List.filter_cons, List.filter_cons, hrest, hx]
      by_cases hid : x.proposalId = proposalId
      · rw [hsame x List.mem_cons_self hid]
      · rw [decide_eq_false hid]
        rfl

theorem redactedEvidence_proposalId (proposalId evidenceId : String) (x : Evidence) :
    (redactedEvidence proposalId evidenceId x).proposalId = x.proposalId := by
  unfold redactedEvidence
  dsimp only
  split_ifs <;> rfl

/-- **What a write leaves alone**: the evidence of every other proposal. -/
theorem Task.Writes.evidence_others {ns : Namespace} {base : CorrectionDb} {e : ProposalEvent}
    {row : Proposal → Proposal} {evidence : List Evidence} {exports : List ExportRecord}
    (hwrites : p.Writes rt reg root ns base e row evidence exports) (he : Appends rt base e)
    (h : p.Within rt reg root replies) {proposalId : String} (hne : proposalId ≠ e.proposalId) :
    evidence.filter (·.proposalId = proposalId) =
      (root ns).evidence.filter (·.proposalId = proposalId) := by
  have hsees := h.holds.sees
  cases hwrites with
  | create | revise | transition | exported => rfl
  | attach _ _ _ hid =>
      rw [List.filter_append, List.filter_singleton,
        decide_eq_false fun heq => hne (heq.symm.trans hid.symm)]
      exact List.append_nil _
  | validate hid =>
      refine filter_map_evidence (fun x _ => ?_) fun x _ hx => ?_
      · unfold Verdict.markEvidence
        split_ifs <;> rfl
      · exact if_neg fun heq => hne (hx.symm.trans (heq.trans hid.symm))
  | @redact at_ item call _ _ hid =>
      obtain ⟨found, hfound, hitem, hname⟩ := hsees (hid ▸ he.known)
      refine filter_map_evidence (fun x _ => redactedEvidence_proposalId _ _ x) fun x hx hxid => ?_
      have hother : x.proposalId ≠ at_.row.proposalId := fun heq =>
        hne (hxid.symm.trans (heq.trans hid.symm))
      have hxitem : x.evidenceId ≠ item.evidenceId := fun heq => hother
        ((List.inj_on_of_nodup_map (h.orderly.evidenceIds _) hx hfound (heq.trans hitem.symm)) ▸
          hname)
      simp only [redactedEvidence, if_neg hother, if_neg hxitem]

/-- **No row comes back**: a row that a request read and that is there after a step of another was
there before it, and with it the same evidence and the same history. -/
theorem frame (h : p.Within rt reg root replies) {ns : Namespace} {row : Proposal}
    (hstamped : Stamped (root ns) row) (hcreate : p.isCreate = true → p.proposalId ≠ row.proposalId)
    (hrow : row ∈ ((p.act rt reg root).1 ns).proposals) :
    row ∈ (root ns).proposals ∧
      ((p.act rt reg root).1 ns).evidence.filter (·.proposalId = row.proposalId) =
        (root ns).evidence.filter (·.proposalId = row.proposalId) ∧
      ((p.act rt reg root).1 ns).eventsOf row.proposalId = (root ns).eventsOf row.proposalId := by
  have hdid := Task.didAt rt reg root p ns
  generalize (p.act rt reg root).1 ns = db at hrow hdid ⊢
  cases hdid with
  | same => exact ⟨hrow, rfl, rfl⟩
  | purge => exact absurd hrow List.not_mem_nil
  | @record _ _ record =>
      obtain ⟨hproposals, hevents, hevidence⟩ := insertExport_tables (root ns) record
      rw [hproposals] at hrow
      refine ⟨hrow, by rw [hevidence], ?_⟩
      unfold CorrectionDb.eventsOf
      rw [hevents]
  | @write base e f evidence exports hwrites he =>
      rcases mem_wrote.mp hrow with ⟨old, hold, hid, rfl⟩ | ⟨hmem, hne⟩
      · -- the row has a new head, which no row read before has
        exfalso
        have hname := hwrites.row_proposalId old
        rcases hwrites.mem_base hold with hold | ⟨req, rfl, rfl, -⟩
        · obtain ⟨head, hhead, hevent⟩ := hstamped old hold hname.symm
          exact he.fresh (hwrites.base_events ▸ Option.some.inj hhead ▸ hevent)
        · exact hcreate rfl hname.symm
      · refine ⟨?_, hwrites.evidence_others he h hne, ?_⟩
        · rcases hwrites.mem_base hmem with hmem | ⟨req, -, rfl, hid⟩
          · exact hmem
          · exact absurd hid hne
        · rw [eventsOf_wrote, if_neg (Ne.symm hne), List.append_nil]
          unfold CorrectionDb.eventsOf
          rw [hwrites.base_events]
/-! ## What a step answers -/

section Write

variable {ns : Namespace} {base : CorrectionDb} {e : ProposalEvent} {row : Proposal → Proposal}
  {evidence : List Evidence} {exports : List ExportRecord}

/-- The proposal a write is about. -/
theorem Task.Within.proposalId_eq (h : p.Within rt reg root replies)
    (hwrites : p.Writes rt reg root ns base e row evidence exports) :
    e.proposalId = p.proposalId := by
  have hnames := h.holds.names
  cases hwrites with
  | create _ _ _ hid => exact hid
  | attach _ _ _ hid => exact hid
  | revise hid | validate hid | transition hid | exported _ hid | redact hid =>
      exact hid.trans (hnames _ List.mem_cons_self)

/-- The evidence ids after a write. -/
theorem Task.Writes.evidenceIds (hwrites : p.Writes rt reg root ns base e row evidence exports)
    (h : ((root ns).evidence.map Evidence.evidenceId).Nodup) :
    (evidence.map Evidence.evidenceId).Nodup := by
  cases hwrites with
  | create | revise | transition | exported => exact h
  | attach _ _ hnew =>
      rw [List.map_append, List.map_singleton]
      refine List.nodup_append.mpr ⟨h, List.nodup_singleton _, fun a ha b hb heq => hnew ?_⟩
      obtain rfl := List.mem_singleton.mp hb
      rw [heq] at ha
      exact ha
  | validate =>
      rw [List.map_map]
      refine (List.map_congr_left fun x _ => ?_) ▸ h
      simp only [Function.comp_apply, Verdict.markEvidence]
      split_ifs <;> rfl
  | redact =>
      rw [List.map_map]
      refine (List.map_congr_left fun x _ => ?_) ▸ h
      simp only [Function.comp_apply, redactedEvidence]
      split_ifs <;> rfl

end Write

/-- The ids of evidence after a step. -/
theorem evidenceIds_act (h : ∀ ns, ((root ns).evidence.map Evidence.evidenceId).Nodup) (p : Task)
    (ns : Namespace) : (((p.act rt reg root).1 ns).evidence.map Evidence.evidenceId).Nodup := by
  have hdid := Task.didAt rt reg root p ns
  generalize (p.act rt reg root).1 ns = db at hdid ⊢
  cases hdid with
  | same => exact h ns
  | purge => exact List.nodup_nil
  | record =>
      rw [(insertExport_tables _ _).2.2]
      exact h ns
  | write hwrites => exact hwrites.evidenceIds (h ns)

/-- The proposals after a step: those that were there, or the one it created. -/
theorem mem_act {ns : Namespace} {q : Proposal} (hq : q ∈ ((p.act rt reg root).1 ns).proposals) :
    (∃ old ∈ (root ns).proposals, old.proposalId = q.proposalId) ∨
      ∃ req, p = .create req ∧ q.proposalId = req.newId ∧ ns = reg.namespaceFor req.sourceId := by
  have hdid := Task.didAt rt reg root p ns
  generalize (p.act rt reg root).1 ns = db at hq hdid
  cases hdid with
  | same => exact .inl ⟨q, hq, rfl⟩
  | purge => exact absurd hq List.not_mem_nil
  | record =>
      rw [(insertExport_tables _ _).1] at hq
      exact .inl ⟨q, hq, rfl⟩
  | write hwrites he =>
      have hnamespace : ∀ {req}, p = .create req → ns = reg.namespaceFor req.sourceId := by
        rintro req rfl
        cases hwrites with
        | create hns => exact hns
      rcases mem_wrote.mp hq with ⟨old, hold, -, rfl⟩ | ⟨hmem, -⟩
      · have hname := hwrites.row_proposalId old
        rcases hwrites.mem_base hold with hold | ⟨req, hreq, rfl, -⟩
        · exact .inl ⟨old, hold, hname.symm⟩
        · exact .inr ⟨req, hreq, hname, hnamespace hreq⟩
      · rcases hwrites.mem_base hmem with hold | ⟨req, hreq, rfl, -⟩
        · exact .inl ⟨q, hold, rfl⟩
        · exact .inr ⟨req, hreq, rfl, hnamespace hreq⟩

/-- The answer to a transaction names the proposal. -/
theorem writeStep_reply {ns : Namespace} {proposalId : String} {expected : Option String}
    {result : Except CorrectionFailure (CorrectionDb × Outcome)} {reply : Reply}
    (h : (writeStep root ns proposalId expected result).2 = .inr reply) :
    reply.proposalId = proposalId := by
  rcases result with e | ⟨db, outcome⟩
  · exact Sum.inr.inj h ▸ rfl
  · exact Sum.inr.inj h ▸ rfl

/-- **Answering** keeps the store orderly. -/
theorem Task.Within.answers (h : p.Within rt reg root replies) {reply : Reply}
    (hreply : (p.act rt reg root).2 = .inr reply) :
    Orderly rt (p.act rt reg root).1 (replies ++ [reply]) where
  chained := chained_act h.orderly.chained p
  started := started_act h.orderly.started p
  evidenceIds := evidenceIds_act h.orderly.evidenceIds p
  oneNamespace := fun ns ns' q hq q' hq' hid => by
    have hnew : ∀ {req ns}, p = .create req → ∀ old ∈ (root ns).proposals,
        old.proposalId ≠ req.newId := by
      rintro req ns rfl old hold heq
      have hanswered : req.newId ∈ replies.map Reply.proposalId :=
        heq ▸ h.orderly.answered ns old hold
      exact h.holds.fresh rfl hanswered
    rcases mem_act hq with ⟨old, hold, hname⟩ | ⟨req, hreq, hname, hns⟩
    · rcases mem_act hq' with ⟨old', hold', hname'⟩ | ⟨req, hreq, hname', -⟩
      · exact h.orderly.oneNamespace _ _ _ hold _ hold' (by rw [hname, hid, hname'])
      · exact absurd (by rw [hname, hid, hname']) (hnew hreq old hold)
    · rcases mem_act hq' with ⟨old', hold', hname'⟩ | ⟨req', hreq', -, hns'⟩
      · exact absurd (by rw [hname', ← hid, hname]) (hnew hreq old' hold')
      · obtain rfl := Task.create.inj (hreq.symm.trans hreq')
        exact hns.trans hns'.symm
  answered := fun ns q hq => by
    rw [List.map_append]
    rcases mem_act hq with ⟨old, hold, hname⟩ | ⟨req, rfl, hname, -⟩
    · exact List.mem_append_left _ (hname ▸ h.orderly.answered ns old hold)
    · refine List.mem_append_right _ (List.mem_singleton.mpr ?_)
      exact hname.trans (writeStep_reply hreply).symm

/-! ## What other requests keep -/

/-- The answer to a read names the proposal. -/
theorem readStep_reply {proposalId : String} {expected : Option String}
    {result : Except CorrectionFailure (Task ⊕ Outcome)} {reply : Reply}
    (h : (readStep root proposalId expected result).2 = .inr reply) :
    reply.proposalId = proposalId := by
  rcases result with e | next | outcome
  · exact Sum.inr.inj h ▸ rfl
  · exact nomatch h
  · exact Sum.inr.inj h ▸ rfl

/-- An answer names the proposal of its request. -/
theorem act_reply {reply : Reply} (h : (p.act rt reg root).2 = .inr reply) :
    reply.proposalId = p.proposalId := by
  cases p with
  | create | attachLocated | reviseRead | validateLocated | transitionLocated | exportLocated
  | redactRead => exact writeStep_reply h
  | purge => exact Sum.inr.inj h ▸ rfl
  | _ =>
      simp only [Task.act] at h
      exact readStep_reply h

/-- The events of a proposal that is there stay. -/
theorem events_act {ns : Namespace} {q : Proposal}
    (hq : q ∈ ((p.act rt reg root).1 ns).proposals) {id : String}
    (h : id ∈ (root ns).events.map ProposalEvent.eventId) :
    id ∈ ((p.act rt reg root).1 ns).events.map ProposalEvent.eventId := by
  have hdid := Task.didAt rt reg root p ns
  generalize (p.act rt reg root).1 ns = db at hq hdid ⊢
  cases hdid with
  | same => exact h
  | purge => exact absurd hq List.not_mem_nil
  | record =>
      rw [(insertExport_tables _ _).2.1]
      exact h
  | write hwrites =>
      rw [CorrectionDb.wrote, List.map_append, hwrites.base_events]
      exact List.mem_append_left _ h

/-- The evidence of a namespace with a proposal stays, but for its marks. -/
theorem evidence_act {ns : Namespace} {q : Proposal}
    (hq : q ∈ ((p.act rt reg root).1 ns).proposals) {x : Evidence}
    (hx : x ∈ (root ns).evidence) : ∃ y ∈ ((p.act rt reg root).1 ns).evidence,
      y.evidenceId = x.evidenceId ∧ y.proposalId = x.proposalId := by
  have hdid := Task.didAt rt reg root p ns
  generalize (p.act rt reg root).1 ns = db at hq hdid ⊢
  cases hdid with
  | same => exact ⟨x, hx, rfl, rfl⟩
  | purge => exact absurd hq List.not_mem_nil
  | record =>
      rw [(insertExport_tables _ _).2.2]
      exact ⟨x, hx, rfl, rfl⟩
  | write hwrites =>
      cases hwrites with
      | create | revise | transition | exported => exact ⟨x, hx, rfl, rfl⟩
      | attach => exact ⟨x, List.mem_append_left _ hx, rfl, rfl⟩
      | validate =>
          refine ⟨_, List.mem_map_of_mem hx, ?_⟩
          unfold Verdict.markEvidence
          split_ifs <;> exact ⟨rfl, rfl⟩
      | redact =>
          refine ⟨_, List.mem_map_of_mem hx, ?_⟩
          unfold redactedEvidence
          dsimp only
          split_ifs <;> exact ⟨rfl, rfl⟩

/-- **What a request relies on** stays while others take their steps. -/
theorem Task.Within.keeps (h : p.Within rt reg root replies) {q : Task}
    (hq : q.Holds rt reg root replies) (hapart : p.Apart q) :
    q.Holds rt reg (p.act rt reg root).1 (answered replies (p.act rt reg root).2) where
  fresh := fun hcreate => by
    have hfresh := hq.fresh hcreate
    cases hresult : (p.act rt reg root).2 with
    | inl next => exact hfresh
    | inr reply =>
        rw [answered, List.map_append, List.mem_append, List.map_singleton, List.mem_singleton,
          act_reply hresult]
        exact not_or.mpr ⟨hfresh, Ne.symm (hapart (.inr hcreate))⟩
  names := hq.names
  stamped := fun r hr x hx hid => by
    rcases mem_act hx with ⟨old, hold, hname⟩ | ⟨req, rfl, hname, -⟩
    · obtain ⟨head, hhead, hmem⟩ := hq.stamped r hr old hold (hname.trans hid)
      exact ⟨head, hhead, events_act hx hmem⟩
    · exact absurd (hname.symm.trans (hid.trans (hq.names r hr))) (hapart (.inl rfl))
  checked := hq.checked
  sees := by
    have hframe : ∀ r ∈ q.reads, r.row ∈ ((p.act rt reg root).1 r.ns).proposals → _ :=
      fun r hr => frame h (hq.stamped r hr) fun hcreate =>
        hq.names r hr ▸ hapart (.inl hcreate)
    have hsees := hq.sees
    cases q with
    | exportEvidence seen evidence call files =>
        intro hrow
        obtain ⟨hold, hevidence, -⟩ := hframe seen List.mem_cons_self hrow
        rw [CorrectionDb.evidenceOf, hevidence]
        exact hsees hold
    | exportRead seen evidence events call files =>
        intro hrow
        obtain ⟨hold, hevidence, hevents⟩ := hframe seen List.mem_cons_self hrow
        rw [CorrectionDb.evidenceOf, CorrectionDb.historyOf, hevidence, hevents]
        exact hsees hold
    | exportBuilt seen record call =>
        intro hrow
        obtain ⟨hold, hevidence, hevents⟩ := hframe seen List.mem_cons_self hrow
        rw [CorrectionDb.evidenceOf, CorrectionDb.historyOf, hevidence, hevents]
        exact hsees hold
    | exportLocated at_ seen record call =>
        intro hrow
        obtain ⟨hold, hevidence, hevents⟩ :=
          hframe seen (List.mem_cons_of_mem _ List.mem_cons_self) hrow
        rw [CorrectionDb.evidenceOf, CorrectionDb.historyOf, hevidence, hevents]
        exact hsees hold
    | redactRead at_ evidence call =>
        intro hknown
        obtain ⟨x, hx, hid⟩ := List.mem_map.mp hknown
        rcases mem_act hx with ⟨old, hold, hname⟩ | ⟨req, rfl, hname, -⟩
        · obtain ⟨item, hitem, heid, hitemName⟩ :=
            hsees (List.mem_map.mpr ⟨old, hold, hname.trans hid⟩)
          obtain ⟨y, hy, hyid, hyname⟩ := evidence_act hx hitem
          exact ⟨y, hy, hyid.trans heid, hyname.trans hitemName⟩
        · exact absurd (hname.symm.trans (hid.trans (hq.names at_ List.mem_cons_self)))
            (hapart (.inl rfl))
    | _ => trivial

/-! ## What a request learns -/

/-- The proposal found by an id. -/
theorem find_some {db : CorrectionDb} {proposalId : String} {q : Proposal}
    (h : db.find proposalId = some q) : q ∈ db.proposals ∧ q.proposalId = proposalId := by
  unfold CorrectionDb.find at h
  have hid := List.find?_some h
  exact ⟨List.mem_of_find?_eq_some h, of_decide_eq_true hid⟩

/-- A proposal that was read stands where it was found. -/
theorem readProposal_ok {proposalId : String} {r : Read}
    (h : readProposal root proposalId = .ok r) :
    r.row ∈ (root r.ns).proposals ∧ r.row.proposalId = proposalId := by
  unfold readProposal locate at h
  simp only [bind_ok_iff, failIf_ok_iff, orFail_ok_iff, exists_const, pure, Except.pure,
    Except.ok.injEq] at h
  obtain ⟨⟨ns, row⟩, ⟨-, hfound⟩, rfl⟩ := h
  obtain ⟨ns', -, hns⟩ := List.exists_of_findSome?_eq_some hfound
  obtain ⟨row', hfind, heq⟩ := Option.map_eq_some_iff.mp hns
  obtain ⟨rfl, rfl⟩ := Prod.mk.inj heq
  exact find_some hfind

/-- A reading step that goes on. -/
theorem readStep_next {proposalId : String} {expected : Option String}
    {result : Except CorrectionFailure (Task ⊕ Outcome)} {next : Task}
    (h : (readStep root proposalId expected result).2 = .inl next) : result = .ok (.inl next) := by
  rcases result with e | next' | outcome
  · exact nomatch h
  · exact Sum.inl.inj h ▸ rfl
  · exact nomatch h

/-- A transaction answers. -/
theorem writeStep_next {ns : Namespace} {proposalId : String} {expected : Option String}
    {result : Except CorrectionFailure (CorrectionDb × Outcome)} {next : Task} :
    (writeStep root ns proposalId expected result).2 ≠ .inl next := by
  rcases result with e | ⟨db, outcome⟩
  · exact Sum.inr_ne_inl
  · exact Sum.inr_ne_inl

/-- A request that has read no row. -/
theorem holds_of_nothing (hcreate : p.isCreate = false) (hreads : p.reads = [])
    (hchecked : p.Checked) (hsees : p.Sees rt reg root) : p.Holds rt reg root replies where
  fresh := fun hnew => absurd (hcreate.symm.trans hnew) Bool.false_ne_true
  names := fun _ hr => absurd (hreads ▸ hr) List.not_mem_nil
  stamped := fun _ hr => absurd (hreads ▸ hr) List.not_mem_nil
  checked := hchecked
  sees := hsees

/-- A request that read one row. -/
theorem holds_of_read {r : Read} (h : Orderly rt root replies)
    (hread : readProposal root p.proposalId = .ok r) (hcreate : p.isCreate = false)
    (hreads : p.reads = [r]) (hchecked : p.Checked) (hsees : p.Sees rt reg root) :
    p.Holds rt reg root replies where
  fresh := fun hnew => absurd (hcreate.symm.trans hnew) Bool.false_ne_true
  names := fun x hx => by
    rw [hreads, List.mem_singleton] at hx
    exact hx ▸ (readProposal_ok hread).2
  stamped := fun x hx => by
    rw [hreads, List.mem_singleton] at hx
    exact hx ▸ h.stamped (readProposal_ok hread).1
  checked := hchecked
  sees := hsees

/-- A request that goes on with the rows it has read. -/
theorem Task.Holds.next {q : Task} (h : p.Holds rt reg root replies) (hcreate : q.isCreate = false)
    (hreads : q.reads = p.reads) (hname : q.proposalId = p.proposalId) (hchecked : q.Checked)
    (hsees : q.Sees rt reg root) : q.Holds rt reg root replies where
  fresh := fun hnew => absurd (hcreate.symm.trans hnew) Bool.false_ne_true
  names := fun r hr => (h.names r (hreads ▸ hr)).trans hname.symm
  stamped := fun r hr => h.stamped r (hreads ▸ hr)
  checked := hchecked
  sees := hsees

/-- A request that goes on with one more row. -/
theorem Task.Holds.read {q : Task} {r : Read} (h : p.Holds rt reg root replies)
    (horderly : Orderly rt root replies) (hread : readProposal root p.proposalId = .ok r)
    (hcreate : q.isCreate = false) (hreads : q.reads = r :: p.reads)
    (hname : q.proposalId = p.proposalId) (hchecked : q.Checked) (hsees : q.Sees rt reg root) :
    q.Holds rt reg root replies where
  fresh := fun hnew => absurd (hcreate.symm.trans hnew) Bool.false_ne_true
  names := fun x hx => by
    rw [hname]
    rcases List.mem_cons.mp (hreads ▸ hx) with rfl | hx
    · exact (readProposal_ok hread).2
    · exact h.names x hx
  stamped := fun x hx => by
    rcases List.mem_cons.mp (hreads ▸ hx) with rfl | hx
    · exact horderly.stamped (readProposal_ok hread).1
    · exact h.stamped x hx
  checked := hchecked
  sees := hsees

/-- **Going on**, a request relies on what it has just read. -/
theorem Task.Within.goes (h : p.Within rt reg root replies) {next : Task}
    (hnext : (p.act rt reg root).2 = .inl next) :
    next.Holds rt reg root replies ∧ next.proposalId = p.proposalId ∧ next.isCreate = false := by
  obtain ⟨horderly, hholds⟩ := h
  cases p with
  | create | attachLocated | reviseRead | validateLocated | transitionLocated | exportLocated
  | redactRead => exact absurd hnext writeStep_next
  | purge => exact absurd hnext Sum.inr_ne_inl
  | attach req =>
      obtain ⟨seen, -, heq⟩ := bind_ok_iff.mp (readStep_next hnext)
      obtain rfl := Sum.inl.inj (Except.ok.inj heq)
      exact ⟨holds_of_nothing rfl rfl trivial trivial, rfl, rfl⟩
  | revise call proposed =>
      obtain ⟨at_, hread, hrest⟩ := bind_ok_iff.mp (readStep_next hnext)
      obtain ⟨hcheck, heq⟩ := check_bind_ok_iff.mp hrest
      obtain rfl := Sum.inl.inj (Except.ok.inj heq)
      simp only [checkRevise, check_bind_ok_iff, failIf_ok_iff, not_not] at hcheck
      exact ⟨hholds.read horderly hread rfl rfl rfl hcheck trivial, rfl, rfl⟩
  | reviseLocated at_ call proposed =>
      simp only [Task.act] at hnext
      obtain rfl := Sum.inl.inj (Except.ok.inj (readStep_next hnext))
      refine ⟨hholds.next rfl rfl rfl ⟨hholds.checked.1, hholds.checked.2, ?_⟩ trivial, rfl, rfl⟩
      split_ifs
      · exact .inl rfl
      · exact .inr rfl
  | validate proposalId now judge =>
      obtain ⟨seen, hread, heq⟩ := bind_ok_iff.mp (readStep_next hnext)
      obtain rfl := Sum.inl.inj (Except.ok.inj heq)
      exact ⟨hholds.read horderly hread rfl rfl (readProposal_ok hread).2 trivial trivial,
        (readProposal_ok hread).2, rfl⟩
  | validateSeen seen now judge =>
      simp only [Task.act] at hnext
      obtain rfl := Sum.inl.inj (Except.ok.inj (readStep_next hnext))
      exact ⟨hholds.next rfl rfl rfl trivial trivial, rfl, rfl⟩
  | validateJudged seen now verdict =>
      obtain ⟨at_, hread, hrest⟩ := bind_ok_iff.mp (readStep_next hnext)
      obtain ⟨hcheck, heq⟩ := check_bind_ok_iff.mp hrest
      obtain rfl := Sum.inl.inj (Except.ok.inj heq)
      simp only [checkValidation, check_bind_ok_iff, failIf_ok_iff, not_not] at hcheck
      exact ⟨hholds.read horderly hread rfl rfl rfl hcheck.2 trivial, rfl, rfl⟩
  | transition call route =>
      have hrest := readStep_next hnext
      cases route with
      | withdraw reason =>
          obtain rfl := Sum.inl.inj (Except.ok.inj hrest)
          exact ⟨holds_of_nothing rfl rfl ⟨rfl, .inl ⟨rfl, reason, rfl⟩⟩ trivial, rfl, rfl⟩
      | acceptLocal =>
          obtain ⟨seen, hread, heq⟩ := bind_ok_iff.mp hrest
          obtain rfl := Sum.inl.inj (Except.ok.inj heq)
          exact ⟨hholds.read horderly hread rfl rfl rfl ⟨rfl, .inr ⟨seen, rfl, .inl rfl⟩⟩ trivial,
            rfl, rfl⟩
      | revokeLocal =>
          obtain ⟨seen, hread, heq⟩ := bind_ok_iff.mp hrest
          obtain rfl := Sum.inl.inj (Except.ok.inj heq)
          exact ⟨hholds.read horderly hread rfl rfl rfl ⟨rfl, .inr ⟨seen, rfl, .inr (.inl rfl)⟩⟩
            trivial, rfl, rfl⟩
      | markSubmitted externalReference =>
          obtain ⟨seen, hread, heq⟩ := bind_ok_iff.mp hrest
          obtain ⟨t, ht, heq⟩ := bind_ok_iff.mp heq
          obtain ⟨-, ht⟩ := check_bind_ok_iff.mp ht
          split_ifs at ht
          · obtain rfl := Except.ok.inj ht
            exact absurd (Except.ok.inj heq) Sum.inr_ne_inl
          · obtain rfl := Except.ok.inj ht
            obtain rfl := Sum.inl.inj (Except.ok.inj heq)
            exact ⟨hholds.read horderly hread rfl rfl rfl
              ⟨rfl, .inr ⟨seen, rfl, .inr (.inr ⟨externalReference, rfl⟩)⟩⟩ trivial, rfl, rfl⟩
  | transitionSeen seen call t =>
      obtain ⟨at_, hread, hrest⟩ := bind_ok_iff.mp (readStep_next hnext)
      obtain ⟨hcheck, heq⟩ := check_bind_ok_iff.mp hrest
      obtain rfl := Sum.inl.inj (Except.ok.inj heq)
      simp only [checkTransition, check_bind_ok_iff, failIf_ok_iff, not_not] at hcheck
      obtain ⟨hexpected, hroute⟩ := hholds.checked
      exact ⟨hholds.read horderly hread rfl rfl rfl
        ⟨hexpected, hroute, hcheck.1, hexpected ▸ hcheck.2⟩ trivial, rfl, rfl⟩
  | exportProposal call files =>
      obtain ⟨seen, hread, heq⟩ := bind_ok_iff.mp (readStep_next hnext)
      obtain rfl := Sum.inl.inj (Except.ok.inj heq)
      exact ⟨hholds.read horderly hread rfl rfl rfl trivial trivial, rfl, rfl⟩
  | exportSeen seen call files =>
      simp only [Task.act] at hnext
      obtain rfl := Sum.inl.inj (Except.ok.inj (readStep_next hnext))
      have hname : seen.row.proposalId = call.proposalId := hholds.names seen List.mem_cons_self
      exact ⟨hholds.next rfl rfl rfl trivial fun _ => hname ▸ rfl, rfl, rfl⟩
  | exportEvidence seen evidence call files =>
      obtain ⟨hcheck, heq⟩ := check_bind_ok_iff.mp (readStep_next hnext)
      obtain rfl := Sum.inl.inj (Except.ok.inj heq)
      simp only [checkExport, check_bind_ok_iff, failIf_ok_iff, not_and, not_not] at hcheck
      have hname : seen.row.proposalId = call.proposalId := hholds.names seen List.mem_cons_self
      have hsees : seen.row ∈ (root seen.ns).proposals →
          (root seen.ns).evidenceOf seen.row.proposalId = evidence := hholds.sees
      exact ⟨hholds.next rfl rfl rfl ⟨hcheck.1 rfl, hcheck.2.1⟩ fun hrow =>
        ⟨hsees hrow, hname ▸ rfl⟩, rfl, rfl⟩
  | exportRead seen evidence events call files =>
      have hsees : seen.row ∈ (root seen.ns).proposals →
          (root seen.ns).evidenceOf seen.row.proposalId = evidence ∧
            (root seen.ns).historyOf seen.row.proposalId = events := hholds.sees
      have hbuilt : next = .exportBuilt seen
          (exportRecord rt reg seen.row evidence events call.now) call := by
        have hresult := readStep_next hnext
        split at hresult
        · split_ifs at hresult
          · exact absurd (Except.ok.inj hresult) Sum.inr_ne_inl
          · split at hresult
            · cases hresult
            · exact (Sum.inl.inj (Except.ok.inj hresult)).symm
        · split at hresult
          · cases hresult
          · exact (Sum.inl.inj (Except.ok.inj hresult)).symm
      subst hbuilt
      refine ⟨hholds.next rfl rfl rfl hholds.checked fun hrow => ?_, rfl, rfl⟩
      rw [(hsees hrow).1, (hsees hrow).2]
  | exportBuilt seen record call =>
      obtain ⟨at_, hread, heq⟩ := bind_ok_iff.mp (readStep_next hnext)
      obtain rfl := Sum.inl.inj (Except.ok.inj heq)
      exact ⟨hholds.read horderly hread rfl rfl rfl hholds.checked hholds.sees, rfl, rfl⟩
  | redact call evidenceId =>
      obtain ⟨at_, hread, hrest⟩ := bind_ok_iff.mp (readStep_next hnext)
      obtain ⟨hcheck, heq⟩ := check_bind_ok_iff.mp hrest
      obtain rfl := Sum.inl.inj (Except.ok.inj heq)
      simp only [checkRedact, failIf_ok_iff, not_and, not_not] at hcheck
      exact ⟨hholds.read horderly hread rfl rfl rfl (hcheck rfl) trivial, rfl, rfl⟩
  | redactLocated at_ call evidenceId =>
      obtain ⟨evidence, hfind, hrest⟩ := bind_ok_iff.mp (readStep_next hnext)
      rw [orFail_ok_iff] at hfind
      split_ifs at hrest
      · exact absurd (Except.ok.inj hrest) Sum.inr_ne_inl
      · obtain rfl := Sum.inl.inj (Except.ok.inj hrest)
        have hname : at_.row.proposalId = call.proposalId := hholds.names at_ List.mem_cons_self
        have hitem := List.find?_some hfind
        exact ⟨hholds.next rfl rfl rfl hholds.checked fun _ => ⟨evidence,
          List.mem_of_find?_eq_some hfind, rfl, (of_decide_eq_true hitem).1.trans hname.symm⟩,
          rfl, rfl⟩

end Frame

/-! ## Every run is orderly -/

section Runs

variable {rt : Runtime} {reg : Registry} {fits : Task → Root → Prop} {s : CorrectionPool}

/-- The outline of requests on corrections. -/
theorem corrections_outline (rt : Runtime) (reg : Registry) (fits : Task → Root → Prop) :
    Outline (Task.act rt reg) fits (Orderly rt) (Task.Holds rt reg) Task.Apart where
  symm := fun h hcreate => Ne.symm (h hcreate.symm)
  goes := fun {p root replies next} horderly hholds _ hnext => by
    have hwithin : p.Within rt reg root replies := ⟨horderly, hholds⟩
    obtain ⟨hnextHolds, hname, hcreate⟩ := hwithin.goes hnext
    have hsame : (p.act rt reg root).1 = root := by
      have hdid := Task.did rt reg root p
      generalize p.act rt reg root = result at hnext hdid ⊢
      cases hdid with
      | read => rfl
      | purge | record | write => exact absurd hnext Sum.inr_ne_inl
    rw [hsame]
    refine ⟨horderly, hnextHolds, fun {q} hapart hnew => hname ▸ hapart (.inr ?_)⟩
    exact hnew.resolve_left (hcreate ▸ Bool.false_ne_true)
  answers := fun horderly hholds _ => Task.Within.answers ⟨horderly, hholds⟩
  keeps := fun horderly hholds _ => Task.Within.keeps ⟨horderly, hholds⟩

/-- The store of a run is orderly at its start. -/
theorem orderly_emptyRoot (rt : Runtime) : Orderly rt emptyRoot [] where
  chained := fun _ => chained_emptyDb rt
  started := fun _ _ hp => absurd hp List.not_mem_nil
  evidenceIds := fun _ => List.nodup_nil
  oneNamespace := fun _ _ _ hp => absurd hp List.not_mem_nil
  answered := fun _ _ hp => absurd hp List.not_mem_nil

/-- A request that arrives relies on nothing but its new id. -/
theorem holds_of_isNew {p : Task} {root : Root} {replies : List Reply} (h : p.isNew = true)
    (hfresh : p.isCreate = true → p.proposalId ∉ replies.map Reply.proposalId) :
    p.Holds rt reg root replies := by
  have hreads : p.reads = [] ∧ p.Checked ∧ p.Sees rt reg root := by
    cases p with
    | create | attach | revise | validate | transition | exportProposal | redact | purge =>
        exact ⟨rfl, trivial, trivial⟩
    | _ => exact absurd h Bool.false_ne_true
  exact ⟨hfresh, fun r hr => absurd (hreads.1 ▸ hr) List.not_mem_nil,
    fun r hr => absurd (hreads.1 ▸ hr) List.not_mem_nil, hreads.2.1, hreads.2.2⟩

/-- **The rule of runs**: what every step that fits keeps holds of every pool reached. -/
theorem ReachedBy.invariant {P : Root → List Reply → Prop} (hinit : P emptyRoot [])
    (hstep : ∀ {p root replies}, p.Within rt reg root replies → fits p root → P root replies →
      P (p.act rt reg root).1 (answered replies (p.act rt reg root).2))
    (h : ReachedBy rt reg fits s) :
    Sound (Orderly rt) (Task.Holds rt reg) Task.Apart s ∧ P s.store s.replies := by
  refine (corrections_outline rt reg fits).invariant ?_ (fun s p hs harrive => ?_)
    (fun s i p hs hfits hget => hfits p hget)
    (fun horderly hholds hfits => hstep ⟨horderly, hholds⟩ hfits) h
  · rintro _ rfl
    exact ⟨⟨orderly_emptyRoot rt, fun _ hp => absurd hp List.not_mem_nil, .nil⟩, hinit⟩
  · obtain ⟨hnew, hapart, hfresh⟩ := harrive
    exact ⟨holds_of_isNew hnew hfresh, hapart⟩

/-- The pools reached are sound. -/
theorem ReachedBy.sound (h : ReachedBy rt reg fits s) :
    Sound (Orderly rt) (Task.Holds rt reg) Task.Apart s :=
  (h.invariant (P := fun _ _ => True) trivial fun _ _ _ => trivial).1

/-- What a move of a run does: nothing to the store, or a step that fits. -/
theorem steps_move (hs : Sound (Orderly rt) (Task.Holds rt reg) Task.Apart s)
    {m : Move Task} (hm : Steps fits s m) :
    ((s.move (Task.act rt reg) m).store = s.store ∧
        (s.move (Task.act rt reg) m).replies = s.replies) ∨
      ∃ p ∈ s.waiting, p.Within rt reg s.store s.replies ∧ fits p s.store ∧
        (s.move (Task.act rt reg) m).store = (p.act rt reg s.store).1 ∧
        (s.move (Task.act rt reg) m).replies = answered s.replies (p.act rt reg s.store).2 := by
  cases m with
  | arrive p => exact .inl ⟨rfl, rfl⟩
  | advance i =>
      rcases Pool.advance_cases (Task.act rt reg) s i with ⟨-, hmove⟩ |
        ⟨pre, p, post, hget, hwaiting, hcase⟩
      · exact .inl ⟨congrArg Pool.store hmove, congrArg Pool.replies hmove⟩
      · have hp : p ∈ s.waiting := hwaiting ▸ by simp
        refine .inr ⟨p, hp, ⟨hs.inv, hs.here p hp⟩, hm p hget, ?_⟩
        rcases hcase with ⟨next, hnext, hmove⟩ | ⟨reply, hreply, hmove⟩
        · rw [hmove, hnext]
          exact ⟨rfl, rfl⟩
        · rw [hmove, hreply]
          exact ⟨rfl, rfl⟩

end Runs

end Golavo.Corrections
