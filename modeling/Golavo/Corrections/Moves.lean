import Golavo.Corrections.Undisturbed

/-! # The state machine of a proposal

The states a proposal goes through and the events it goes by, and that in an undisturbed run every
step of every request is a move of this machine, or leaves the proposal as it is. -/

namespace Golavo.Corrections

open Golavo.Lib (Json)
open Golavo.Ledger (Runtime)

/-! ## The machine -/

/-- A move of a proposal from a state to another, by an event. -/
inductive StateMove : ProposalState → EventType → ProposalState → Prop
  | attach {state : ProposalState} {type : EventType} : state ∉ closedStates →
      (type = .evidenceAttached ∨ type = .evidenceImportedFromResearch) →
      StateMove state type .evidenceAttached
  | revise {state next : ProposalState} : state ∈ editableStates →
      (next = .draft ∨ next = .evidenceAttached) → StateMove state .draftRevised next
  | pass {state : ProposalState} : state ∉ closedStates →
      StateMove state .validationPassed .validatedCandidate
  | conflict {state : ProposalState} : state ∉ closedStates →
      StateMove state .conflictDetected .conflict
  | fail {state : ProposalState} : state ∉ closedStates →
      StateMove state .validationFailed .evidenceAttached
  | accept : StateMove .validatedCandidate .acceptedLocal .acceptedLocal
  | revoke : StateMove .acceptedLocal .acceptanceRevoked .validatedCandidate
  | annotate {state : ProposalState} {type : EventType} : (state = .exported ∨ state = .submitted) →
      (type = .acceptedLocal ∨ type = .acceptanceRevoked) → StateMove state type state
  | record {state : ProposalState} : (state = .validatedCandidate ∨ state = .acceptedLocal) →
      StateMove state .exported .exported
  | submit : StateMove .exported .markedSubmitted .submitted
  | withdraw {state : ProposalState} : state ∈ activeStates → StateMove state .withdrawn .withdrawn
  | redact {state next : ProposalState} : (next = .draft ∨ next = .evidenceAttached) →
      StateMove state .evidenceRedacted next

/-! ## Steps are moves -/

section Moves

variable {rt : Runtime} {reg : Registry} {root : Root} {replies : List Reply} {p : Task}
  {ns : Namespace} {base : CorrectionDb} {e : ProposalEvent} {row : Proposal → Proposal}
  {evidence : List Evidence} {exports : List ExportRecord}

/-- The rows a request read when it writes are one row. -/
theorem Task.Ready.reads_eq (h : p.Ready rt reg root replies) (hwrite : p.isWrite = true)
    {r r' : Read} (hr : r ∈ p.reads) (hr' : r' ∈ p.reads) : r = r' := by
  have hrow := h.stand hwrite r hr
  have hrow' := h.stand hwrite r' hr'
  have hid : r.row.proposalId = r'.row.proposalId :=
    (h.holds.names r hr).trans (h.holds.names r' hr').symm
  have hns : r.ns = r'.ns := h.orderly.oneNamespace _ _ _ hrow _ hrow' hid
  have heq : r.row = r'.row :=
    List.inj_on_of_nodup_map (h.orderly.chained r'.ns).ids (hns ▸ hrow) hrow' hid
  cases r
  cases r'
  cases hns
  cases heq
  rfl

/-- The row a request read is the row it writes to. -/
theorem Task.Ready.old_eq (h : p.Ready rt reg root replies) (hwrite : p.isWrite = true)
    {r : Read} (hr : r ∈ p.reads) {old : Proposal} (hold : old ∈ (root r.ns).proposals)
    (hid : old.proposalId = r.row.proposalId) : old = r.row :=
  List.inj_on_of_nodup_map (h.orderly.chained r.ns).ids hold (h.stand hwrite r hr) hid

/-- What a transition does, when its route and its transaction read the same row. -/
theorem move_of_route {seen : Option Read} {at_ : Read} {t : Transition} (hroute : RouteOf seen t)
    (hsame : ∀ r ∈ seen, r = at_) (hallowed : at_.row.state ∈ t.allowed) :
    StateMove at_.row.state t.eventType t.state := by
  rcases hroute with ⟨-, reason, ht⟩ | ⟨r, rfl, ht⟩
  · rw [ht] at hallowed ⊢
    exact .withdraw hallowed
  · obtain rfl := hsame r rfl
    rcases ht with ht | ht | ⟨externalReference, ht⟩
    · rw [ht] at hallowed ⊢
      simp only [acceptLocal, List.mem_cons, List.not_mem_nil, or_false] at hallowed ⊢
      rcases hallowed with hstate | hstate
      · rw [if_pos hstate, hstate]
        exact .accept
      · rw [if_neg (by rw [hstate]; decide)]
        exact .annotate (.inl hstate) (.inl rfl)
    · rw [ht] at hallowed ⊢
      simp only [revokeLocal, List.mem_cons, List.not_mem_nil, or_false] at hallowed ⊢
      rcases hallowed with hstate | hstate | hstate
      · rw [if_pos hstate, hstate]
        exact .revoke
      · rw [if_neg (by rw [hstate]; decide)]
        exact .annotate (.inl hstate) (.inr rfl)
      · rw [if_neg (by rw [hstate]; decide)]
        exact .annotate (.inr hstate) (.inr rfl)
    · rw [ht] at hallowed ⊢
      simp only [markSubmitted, List.mem_singleton] at hallowed ⊢
      rw [hallowed]
      exact .submit

/-- **A write is a move** of the proposal it changes. -/
theorem Task.Ready.moves (h : p.Ready rt reg root replies)
    (hwrites : p.Writes rt reg root ns base e row evidence exports) {old : Proposal}
    (hold : old ∈ (root ns).proposals) (hid : old.proposalId = e.proposalId) :
    StateMove old.state e.eventType (row old).state := by
  have hchecked := h.holds.checked
  cases hwrites with
  | create _ _ hnew hname =>
      exact absurd (List.mem_map_of_mem hold) (hid.trans hname ▸ hnew)
  | @attach req _ q _ hfind hstate _ hname htype =>
      obtain ⟨hq, hqid⟩ := find_some hfind
      rw [List.inj_on_of_nodup_map (h.orderly.chained ns).ids hold hq
        (hid.trans (hname.trans hqid.symm))]
      exact .attach hstate htype
  | revise hname htype =>
      rw [h.old_eq rfl List.mem_cons_self hold (hid.trans hname), htype]
      exact .revise hchecked.1 hchecked.2.2
  | @validate at_ seen now v _ hname htype =>
      rw [h.old_eq rfl List.mem_cons_self hold (hid.trans hname), htype]
      have hstate : v.state = .validatedCandidate ∨ v.state = .conflict ∨
          v.state = .evidenceAttached := by
        simpa only [List.mem_cons, List.not_mem_nil, or_false] using hchecked.2
      show StateMove at_.row.state v.eventType v.state
      unfold Verdict.eventType
      rcases hstate with hstate | hstate | hstate
      · rw [hstate, if_neg (by decide), if_pos rfl]
        exact .pass hchecked.1
      · rw [hstate, if_pos rfl]
        exact .conflict hchecked.1
      · rw [hstate, if_neg (by decide), if_neg (by decide)]
        exact .fail hchecked.1
  | @transition at_ seen call t _ hname htype =>
      rw [h.old_eq rfl List.mem_cons_self hold (hid.trans hname), htype]
      refine move_of_route hchecked.2.1 (fun r hr => ?_) hchecked.2.2.1
      exact h.reads_eq rfl (List.mem_cons_of_mem _ (Option.mem_toList.mpr hr)) List.mem_cons_self
  | exported hstate hname htype =>
      rw [h.old_eq rfl List.mem_cons_self hold (hid.trans hname), htype]
      exact .record hstate
  | @redact at_ item call _ remaining hname htype =>
      rw [htype]
      refine .redact ?_
      cases remaining
      · exact .inl rfl
      · exact .inr rfl

end Moves

end Golavo.Corrections
