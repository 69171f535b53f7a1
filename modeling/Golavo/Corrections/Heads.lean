import Golavo.Corrections.Moves

/-! # The head check

A request that changes a proposal says which head event its client saw. In an undisturbed run each
head is good for one change, a request that checks a head that moved on is refused, and a proposal
that is accepted locally is what its last validation judged. -/

namespace Golavo.Corrections

open Golavo.Lib (Json Pool Move Reaches RunAllowed bind_ok_iff)
open Golavo.Ledger (Runtime)

/-! ## Refusals -/

/-- The row whose head a request checks in its next step. -/
def Task.checkedRow (root : Root) : Task → Option Proposal
  | .revise call _ | .transition call (.markSubmitted _) | .transitionSeen _ call _
  | .redact call _ => (readProposal root call.proposalId).toOption.map Read.row
  | .validateJudged seen _ _ =>
      (readProposal root seen.row.proposalId).toOption.map Read.row
  | .exportEvidence seen _ _ _ => some seen.row
  | _ => none

/-- The reasons a request is refused for when its head moved on: for the head, or for a state that the
proposal may not be revised in or moved on from, which is looked at first. -/
def movedOn : List String :=
  ["proposal_changed", "proposal_not_editable", "invalid_correction_transition"]

section Refused

variable {rt : Runtime} {reg : Registry} {root : Root} {replies : List Reply} {p : Task}

/-- A read that is refused. -/
theorem readStep_error {proposalId : String} {expected : Option String} {e : CorrectionFailure}
    {result : Except CorrectionFailure (Task ⊕ Outcome)} (h : result = .error e) :
    readStep root proposalId expected result = (root, .inr ⟨proposalId, expected, .error e⟩) := by
  rw [h]
  rfl

/-- **A request whose head moved on is refused.** -/
theorem Task.Holds.refused (h : p.Holds rt reg root replies) {row : Proposal} {head : String}
    (hrow : p.checkedRow root = some row) (hexpected : p.expected = some head)
    (hmoved : row.headEventId ≠ some head) :
    ∃ e, p.act rt reg root = (root, .inr ⟨p.proposalId, some head, .error e⟩) ∧
      ∃ code ∈ movedOn, e.reasonCode = some code := by
  have hread : ∀ {proposalId}, (readProposal root proposalId).toOption.map Read.row = some row →
      ∃ r, readProposal root proposalId = .ok r ∧ r.row = row := by
    intro proposalId hfound
    obtain ⟨r, hr, hr'⟩ := Option.map_eq_some_iff.mp hfound
    exact ⟨r, Lib.toOption_eq_some.mp hr, hr'⟩
  have hchecked := h.checked
  cases p with
  | revise call proposed =>
      obtain ⟨at_, hat, rfl⟩ := hread hrow
      obtain rfl := Option.some.inj hexpected
      by_cases hstate : at_.row.state ∈ editableStates
      · refine ⟨.proposalChanged, readStep_error ?_, _, List.mem_cons_self, rfl⟩
        simp [hat, checkRevise, Lib.failIf, hstate, hmoved, bind, Except.bind]
      · refine ⟨.cannotBeEdited, readStep_error ?_, _,
          List.mem_cons_of_mem _ List.mem_cons_self, rfl⟩
        simp [hat, checkRevise, Lib.failIf, hstate, bind, Except.bind]
  | transition call route =>
      cases route with
      | markSubmitted externalReference =>
          obtain ⟨seen, hseen, rfl⟩ := hread hrow
          obtain rfl := Option.some.inj hexpected
          refine ⟨.proposalChanged, readStep_error ?_, _, List.mem_cons_self, rfl⟩
          simp [hseen, Route.transition, Lib.failIf, hmoved, bind, Except.bind]
      | _ => exact absurd hrow (Option.some_ne_none _).symm
  | transitionSeen seen call t =>
      obtain ⟨at_, hat, rfl⟩ := hread hrow
      obtain rfl := Option.some.inj hexpected
      rw [← hchecked.1] at hmoved
      by_cases hstate : at_.row.state ∈ t.allowed
      · refine ⟨.proposalChanged, readStep_error ?_, _, List.mem_cons_self, rfl⟩
        simp [hat, checkTransition, Lib.failIf, hstate, hmoved, bind, Except.bind]
      · refine ⟨.invalidTransition at_.row.state t.state, readStep_error ?_, _,
          List.mem_cons_of_mem _ (List.mem_cons_of_mem _ List.mem_cons_self), rfl⟩
        simp [hat, checkTransition, Lib.failIf, hstate, bind, Except.bind]
  | validateJudged seen now verdict =>
      obtain ⟨at_, hat, rfl⟩ := hread hrow
      have hseen : seen.row.headEventId = some head := hexpected
      refine ⟨.proposalChanged, ?_, _, List.mem_cons_self, rfl⟩
      rw [← hseen]
      refine readStep_error ?_
      simp [hat, checkValidation, Lib.failIf, hmoved, hseen, bind, Except.bind]
  | exportEvidence seen evidence call files =>
      obtain rfl := Option.some.inj hrow
      obtain rfl := Option.some.inj hexpected
      refine ⟨.proposalChangedAfterReview, readStep_error ?_, _, List.mem_cons_self, rfl⟩
      simp [checkExport, Lib.failIf, hmoved, bind, Except.bind]
  | redact call evidenceId =>
      obtain ⟨at_, hat, rfl⟩ := hread hrow
      obtain rfl := Option.some.inj hexpected
      refine ⟨.proposalChanged, readStep_error ?_, _, List.mem_cons_self, rfl⟩
      simp [hat, checkRedact, Lib.failIf, hmoved, bind, Except.bind]
  | _ => exact absurd hrow (Option.some_ne_none _).symm

end Refused

/-! ## Content -/

/-- The events by which a proposal's content or evidence changes. -/
def contentEvents : List EventType :=
  [.draftRevised, .evidenceAttached, .evidenceImportedFromResearch, .evidenceRedacted]

/-- A piece of evidence, its verification apart. -/
def Evidence.captured (e : Evidence) : Evidence := { e with snapshotVerified := false }

/-- The evidence captured for a proposal. -/
def CorrectionDb.capturedFor (db : CorrectionDb) (proposalId : String) : List Evidence :=
  (db.evidence.filter (·.proposalId = proposalId)).map Evidence.captured

/-- Two rows that propose the same. -/
def SameContent (p q : Proposal) : Prop :=
  p.correctionType = q.correctionType ∧ p.target = q.target ∧ p.original = q.original ∧
    p.proposed = q.proposed ∧ p.sourceId = q.sourceId

/-- A history whose last validation passed: nothing but local acceptances and their revocations came
after it. -/
def PassedLast (events : List ProposalEvent) : Prop :=
  ∃ pre v post, events = pre ++ v :: post ∧ v.eventType = .validationPassed ∧
    ∀ e ∈ post, e.eventType = .acceptedLocal ∨ e.eventType = .acceptanceRevoked

/-- In a namespace, every candidate and every accepted proposal passed its last validation. -/
def CandidatesPassed (db : CorrectionDb) : Prop :=
  ∀ q ∈ db.proposals, q.state = .validatedCandidate ∨ q.state = .acceptedLocal →
    PassedLast (db.eventsOf q.proposalId)

section Content

variable {rt : Runtime} {reg : Registry} {root : Root} {replies : List Reply} {p : Task}

/-- A move into or among the candidate states, and the event it goes by. -/
theorem passedLast_of_move {state next : ProposalState} {events : List ProposalEvent}
    {e : ProposalEvent} (hmove : StateMove state e.eventType next)
    (hnext : next = .validatedCandidate ∨ next = .acceptedLocal)
    (h : state = .validatedCandidate ∨ state = .acceptedLocal → PassedLast events) :
    PassedLast (events ++ [e]) := by
  have hcontinue : (state = .validatedCandidate ∨ state = .acceptedLocal) →
      (e.eventType = .acceptedLocal ∨ e.eventType = .acceptanceRevoked) →
        PassedLast (events ++ [e]) := by
    intro hstate htype
    obtain ⟨pre, v, post, rfl, hv, hpost⟩ := h hstate
    refine ⟨pre, v, post ++ [e], by simp, hv, fun x hx => ?_⟩
    rcases List.mem_append.mp hx with hx | hx
    · exact hpost x hx
    · exact List.mem_singleton.mp hx ▸ htype
  generalize htype : e.eventType = type at hmove hcontinue
  cases hmove with
  | pass => exact ⟨events, e, [], rfl, htype, fun x hx => absurd hx List.not_mem_nil⟩
  | accept => exact hcontinue (.inl rfl) (.inl rfl)
  | revoke => exact hcontinue (.inr rfl) (.inr rfl)
  | annotate hstate => rcases hstate with rfl | rfl <;> simp at hnext
  | revise _ hdraft | redact hdraft => rcases hdraft with rfl | rfl <;> simp at hnext
  | attach | conflict | fail | record | submit | withdraw => simp at hnext

/-- **One step** keeps candidates passed. -/
theorem candidatesPassed_act (h : p.Ready rt reg root replies)
    (hpassed : ∀ ns, CandidatesPassed (root ns)) (ns : Namespace) :
    CandidatesPassed ((p.act rt reg root).1 ns) := by
  have hdid := Task.didAt rt reg root p ns
  generalize (p.act rt reg root).1 ns = db at hdid ⊢
  cases hdid with
  | same => exact hpassed ns
  | purge => exact fun q hq => absurd hq List.not_mem_nil
  | @record _ _ record =>
      obtain ⟨hproposals, hevents, -⟩ := insertExport_tables (root ns) record
      unfold CandidatesPassed CorrectionDb.eventsOf
      rw [hproposals, hevents]
      exact hpassed ns
  | @write base e row evidence exports hwrites he =>
      intro q hq hstate
      have hevents : ∀ id, base.eventsOf id = (root ns).eventsOf id := fun id => by
        unfold CorrectionDb.eventsOf
        rw [hwrites.base_events]
      rw [eventsOf_wrote, hevents]
      rcases mem_wrote.mp hq with ⟨old, hold, hid, rfl⟩ | ⟨hmem, hne⟩
      · have hname : ((row old).headed e).proposalId = old.proposalId :=
          hwrites.row_proposalId old
        rw [if_pos (hname.trans hid).symm, hname]
        rcases hwrites.mem_base hold with hold | ⟨req, rfl, rfl, -⟩
        · exact passedLast_of_move (h.moves hwrites hold hid) hstate (hpassed ns old hold)
        · cases hwrites with
          | create => simp [newProposal, Proposal.headed] at hstate
      · rw [if_neg (Ne.symm hne), List.append_nil]
        rcases hwrites.mem_base hmem with hold | ⟨req, -, rfl, hid⟩
        · exact hpassed ns q hold hstate
        · exact absurd hid hne

/-- A verdict marks the evidence, and leaves what was captured. -/
theorem captured_markEvidence (v : Verdict) (judged proposalId : String)
    (evidence : List Evidence) :
    ((evidence.map (v.markEvidence judged)).filter (·.proposalId = proposalId)).map
        Evidence.captured =
      (evidence.filter (·.proposalId = proposalId)).map Evidence.captured := by
  have hmark : ∀ x, (v.markEvidence judged x).proposalId = x.proposalId ∧
      (v.markEvidence judged x).captured = x.captured := fun x => by
    unfold Verdict.markEvidence
    split_ifs <;> exact ⟨rfl, rfl⟩
  rw [List.filter_map, List.map_map]
  have hfilter : (fun x : Evidence => decide (x.proposalId = proposalId)) ∘ v.markEvidence judged =
      fun x => decide (x.proposalId = proposalId) :=
    funext fun x => by rw [Function.comp_apply, (hmark x).1]
  rw [hfilter]
  exact List.map_congr_left fun x _ => (hmark x).2

/-- **Content changes by events**: a step after which a proposal's content or evidence is another has
appended an event that says so. -/
theorem Task.Within.content_event (h : p.Within rt reg root replies) {ns : Namespace}
    {q q' : Proposal} (hq : q ∈ (root ns).proposals)
    (hq' : q' ∈ ((p.act rt reg root).1 ns).proposals) (hid : q'.proposalId = q.proposalId) :
    (SameContent q' q ∧ ((p.act rt reg root).1 ns).capturedFor q.proposalId =
        (root ns).capturedFor q.proposalId) ∨
      ∃ e, ((p.act rt reg root).1 ns).eventsOf q.proposalId =
        (root ns).eventsOf q.proposalId ++ [e] ∧ e.eventType ∈ contentEvents := by
  have hdid := Task.didAt rt reg root p ns
  generalize (p.act rt reg root).1 ns = db at hq' hdid ⊢
  have hsame : q' ∈ (root ns).proposals → SameContent q' q := fun hmem => by
    rw [List.inj_on_of_nodup_map (h.orderly.chained ns).ids hmem hq hid]
    exact ⟨rfl, rfl, rfl, rfl, rfl⟩
  cases hdid with
  | same => exact .inl ⟨hsame hq', rfl⟩
  | purge => exact absurd hq' List.not_mem_nil
  | @record _ _ record =>
      obtain ⟨hproposals, -, hevidence⟩ := insertExport_tables (root ns) record
      rw [hproposals] at hq'
      unfold CorrectionDb.capturedFor
      rw [hevidence]
      exact .inl ⟨hsame hq', rfl⟩
  | @write base e row evidence exports hwrites he =>
      by_cases hname : q.proposalId = e.proposalId
      · have hchange : e.eventType ∈ contentEvents →
            ∃ x, (base.wrote e row evidence exports).eventsOf q.proposalId =
              (root ns).eventsOf q.proposalId ++ [x] ∧ x.eventType ∈ contentEvents := fun htype => by
          refine ⟨e, ?_, htype⟩
          rw [eventsOf_wrote, if_pos hname.symm]
          unfold CorrectionDb.eventsOf
          rw [hwrites.base_events]
        rcases mem_wrote.mp hq' with ⟨old, hold, hidOld, rfl⟩ | ⟨-, hne⟩
        · have hq'' : old ∈ (root ns).proposals → old = q := fun hmem =>
            List.inj_on_of_nodup_map (h.orderly.chained ns).ids hmem hq (hidOld.trans hname.symm)
          cases hwrites with
          | create _ _ hnew hcreated =>
              exact absurd (List.mem_map_of_mem hq) (hname.trans hcreated ▸ hnew)
          | attach _ _ _ _ htype =>
              exact .inr (hchange (by rcases htype with htype | htype <;> rw [htype] <;> decide))
          | revise _ htype => exact .inr (hchange (by rw [htype]; decide))
          | redact _ htype => exact .inr (hchange (by rw [htype]; decide))
          | transition | exported =>
              rw [hq'' hold]
              exact .inl ⟨⟨rfl, rfl, rfl, rfl, rfl⟩, rfl⟩
          | validate =>
              rw [hq'' hold]
              refine .inl ⟨⟨rfl, rfl, rfl, rfl, rfl⟩, ?_⟩
              exact captured_markEvidence _ _ _ _
        · exact absurd (hid.trans hname) hne
      · rcases mem_wrote.mp hq' with ⟨old, -, hidOld, rfl⟩ | ⟨hmem, hne⟩
        · exact absurd (hid.symm.trans ((hwrites.row_proposalId old).trans hidOld)) hname
        · refine .inl ⟨?_, congrArg _ (hwrites.evidence_others he h hname)⟩
          rcases hwrites.mem_base hmem with hold | ⟨req, -, rfl, hcreated⟩
          · exact hsame hold
          · exact absurd hcreated hne

end Content

/-! ## Every undisturbed run -/

section Runs

variable {rt : Runtime} {reg : Registry} {s : CorrectionPool}

/-- A run whose writes find the rows that their requests read. -/
abbrev ReachedStanding (rt : Runtime) (reg : Registry) : CorrectionPool → Prop :=
  ReachedUndisturbed rt reg fun _ _ => True

/-- **The head check.** In an undisturbed run, no two requests change a proposal at one head; a request
that checks a head that moved on is refused; a proposal is accepted locally only with its last
validation passed and nothing but acceptances and revocations since; and a step that changes a
proposal's content or evidence appends an event that says so. -/
theorem heads_checked (h : ReachedStanding rt reg s) :
    (s.replies.Pairwise fun a b => ∀ proposalId head, a.Changed proposalId head →
        ¬ b.Changed proposalId head) ∧
      (∀ p ∈ s.waiting, ∀ row head, p.checkedRow s.store = some row → p.expected = some head →
        row.headEventId ≠ some head → ∃ e,
          p.act rt reg s.store = (s.store, .inr ⟨p.proposalId, some head, .error e⟩) ∧
            ∃ code ∈ movedOn, e.reasonCode = some code) ∧
      (∀ ns, ∀ q ∈ (s.store ns).proposals, q.state = .acceptedLocal →
        PassedLast ((s.store ns).eventsOf q.proposalId)) ∧
      ∀ p ∈ s.waiting, ∀ ns, ∀ q ∈ (s.store ns).proposals,
        ∀ q' ∈ ((p.act rt reg s.store).1 ns).proposals, q'.proposalId = q.proposalId →
          (SameContent q' q ∧ ((p.act rt reg s.store).1 ns).capturedFor q.proposalId =
              (s.store ns).capturedFor q.proposalId) ∨
            ∃ e, ((p.act rt reg s.store).1 ns).eventsOf q.proposalId =
              (s.store ns).eventsOf q.proposalId ++ [e] ∧ e.eventType ∈ contentEvents := by
  obtain ⟨hsound, hspent, hpassed⟩ := h.invariant
    (P := fun root replies => Spent root replies ∧ ∀ ns, CandidatesPassed (root ns))
    ⟨⟨fun _ hr => absurd hr List.not_mem_nil, .nil⟩, fun _ _ hq => absurd hq List.not_mem_nil⟩
    fun hwithin hfits ⟨hspent, hpassed⟩ =>
      have hready : Task.Ready rt reg _ _ _ := ⟨hwithin, hfits.1⟩
      ⟨hready.keepsSpent hspent, candidatesPassed_act hready hpassed⟩
  refine ⟨hspent.once, fun p hp row head hrow => (hsound.here p hp).refused hrow,
    fun ns q hq hstate => hpassed ns q hq (.inr hstate), fun p hp ns q hq q' hq' => ?_⟩
  exact Task.Within.content_event ⟨hsound.inv, hsound.here p hp⟩ hq hq'

end Runs

/-! ## A withdrawal before a revision -/

/-- The head of the new proposal. -/
def createdHead : String :=
  (((createdPool.store .quarantineUnknown).events.map ProposalEvent.eventId).head?).getD ""

/-- A request by the head of the new proposal. -/
def kickoffCall : Call := ⟨kickoffCreation.newId, createdHead, "2026-07-01T00:00:01Z"⟩

/-- A withdrawal, and after it a revision by the same head. -/
def withdrawnThenRevised : List (Move Task) :=
  [.arrive (.create kickoffCreation), .advance 0,
    .arrive (.transition kickoffCall (.withdraw none)), .advance 0, .advance 0, .advance 0,
    .arrive (.revise kickoffCall (.str "20:00")), .advance 0]

/-- The pool after the two. -/
def withdrawnPool : CorrectionPool :=
  withdrawnThenRevised.foldl (Pool.move (Task.act .standard noSources)) (.of emptyRoot)

theorem heads_checked_withdrawnPool : withdrawnPool.replies.Pairwise fun a b =>
    ∀ proposalId head, a.Changed proposalId head → ¬ b.Changed proposalId head :=
  (heads_checked (Reaches.run (.start rfl) (by decide +kernel) :
    ReachedStanding .standard noSources withdrawnPool)).1

/-- Whether of three answers the second changes the proposal and the third, by the same head, is refused
for the state. -/
def refusedLast : List Reply → Bool
  | [_, a, b] => decide (a.Changed kickoffCreation.newId createdHead ∧
      b.proposalId = kickoffCreation.newId ∧ b.expected = some createdHead ∧
        b.outcome = .error .cannotBeEdited)
  | _ => false

/-- The revision is refused for the state, which is looked at before the head. -/
theorem refused_for_state : ∃ s, ReachedPool .standard noSources s ∧ ∃ a ∈ s.replies,
    ∃ b ∈ s.replies, ∃ head e, a.Changed kickoffCreation.newId head ∧
      b.proposalId = kickoffCreation.newId ∧ b.expected = some head ∧ b.outcome = .error e ∧
        e.reasonCode ≠ some "proposal_changed" := by
  have hrun : refusedLast withdrawnPool.replies = true := by decide +kernel
  refine ⟨withdrawnPool, Reaches.run (.start rfl)
    ⟨rfl, trivial, rfl, trivial, trivial, trivial, rfl, trivial, trivial⟩, ?_⟩
  unfold refusedLast at hrun
  split at hrun
  · rename_i c a b hreplies
    obtain ⟨ha, hid, hhead, hb⟩ := of_decide_eq_true hrun
    rw [hreplies]
    exact ⟨a, by simp, b, by simp, createdHead, _, ha, hid, hhead, hb, by decide⟩
  · exact absurd hrun Bool.false_ne_true

end Golavo.Corrections
