import Golavo.Corrections.Writes

/-! # The hash chain

Every operation appends to a proposal's history through one transaction helper: the new event is
numbered after the last, carries its digest, and becomes the proposal's head. So in every store
reached, whatever the order of steps, each history is a chain that ends in its proposal's head. -/

namespace Golavo.Corrections

open Golavo.Lib (Json Pool Move Reaches Linked linked_nil linked_append_singleton head?_insertionSort_of_counts)
open Golavo.Ledger (Runtime)

/-! ## Chains -/

/-- An event that continues its proposal's history. -/
def Continues (rt : Runtime) (proposalId : String) (previous : Option ProposalEvent)
    (e : ProposalEvent) : Prop :=
  e = eventAfter rt previous proposalId e.eventType e.payload e.recordedAtUtc

/-- A store whose histories are chains that end in the proposals' heads. -/
structure Chained (rt : Runtime) (db : CorrectionDb) : Prop where
  ids : (db.proposals.map Proposal.proposalId).Nodup
  known : ∀ e ∈ db.events, e.proposalId ∈ db.proposals.map Proposal.proposalId
  linked : ∀ proposalId, Linked (Continues rt proposalId) (db.eventsOf proposalId)
  heads : ∀ p ∈ db.proposals,
    p.headEventId = (db.eventsOf p.proposalId).getLast?.map ProposalEvent.eventId

/-- A store in which every proposal's history has begun. -/
def Started (db : CorrectionDb) : Prop := ∀ p ∈ db.proposals, p.headEventId.isSome = true

section Chain

variable {rt : Runtime} {db : CorrectionDb}

theorem chained_emptyDb (rt : Runtime) : Chained rt emptyDb where
  ids := List.nodup_nil
  known := fun _ he => absurd he List.not_mem_nil
  linked := fun _ => linked_nil
  heads := fun _ hp => absurd hp List.not_mem_nil

/-- A chain's events are numbered `1, …, n`. -/
theorem Chained.sequences (h : Chained rt db) (proposalId : String) :
    (db.eventsOf proposalId).map ProposalEvent.sequence =
      List.range' 1 (db.eventsOf proposalId).length :=
  (h.linked proposalId).counts fun prev e he => by
    rw [he]
    rfl

/-- The event with the greatest number is the last. -/
theorem Chained.latestEvent (h : Chained rt db) (proposalId : String) :
    db.latestEvent proposalId = (db.eventsOf proposalId).getLast? := by
  unfold CorrectionDb.latestEvent
  by_cases hnone : db.eventsOf proposalId = []
  · rw [hnone]
    rfl
  · exact head?_insertionSort_of_counts hnone (h.sequences proposalId)

/-- The history in order is the history as it was written. -/
theorem Chained.historyOf (h : Chained rt db) (proposalId : String) :
    db.historyOf proposalId = db.eventsOf proposalId := by
  refine List.Pairwise.insertionSort_eq ?_
  have hsorted : ((db.eventsOf proposalId).map ProposalEvent.sequence).Pairwise (· ≤ ·) := by
    rw [h.sequences proposalId]
    exact List.pairwise_le_range' _
  exact List.pairwise_map.mp hsorted

/-- The ids of the rows after an event. -/
theorem ids_wrote {e : ProposalEvent} {row : Proposal → Proposal} {evidence : List Evidence}
    {exports : List ExportRecord} (hrow : ∀ p, (row p).proposalId = p.proposalId) :
    (db.wrote e row evidence exports).proposals.map Proposal.proposalId =
      db.proposals.map Proposal.proposalId := by
  rw [CorrectionDb.wrote, List.map_map]
  refine List.map_congr_left fun p _ => ?_
  simp only [Function.comp_apply]
  split_ifs
  · exact hrow p
  · rfl

/-- The rows after an event: the row it changed, or another. -/
theorem mem_wrote {e : ProposalEvent} {row : Proposal → Proposal} {evidence : List Evidence}
    {exports : List ExportRecord} {x : Proposal} :
    x ∈ (db.wrote e row evidence exports).proposals ↔
      (∃ p ∈ db.proposals, p.proposalId = e.proposalId ∧ x = (row p).headed e) ∨
        (x ∈ db.proposals ∧ x.proposalId ≠ e.proposalId) := by
  simp only [CorrectionDb.wrote, List.mem_map]
  constructor
  · rintro ⟨p, hp, rfl⟩
    split_ifs with h
    · exact .inl ⟨p, hp, h, rfl⟩
    · exact .inr ⟨hp, h⟩
  · rintro (⟨p, hp, h, rfl⟩ | ⟨hx, h⟩)
    · exact ⟨p, hp, if_pos h⟩
    · exact ⟨x, hx, if_neg h⟩

/-- The history of a proposal after an event. -/
theorem eventsOf_wrote (e : ProposalEvent) (row : Proposal → Proposal) (evidence : List Evidence)
    (exports : List ExportRecord) (proposalId : String) :
    (db.wrote e row evidence exports).eventsOf proposalId =
      db.eventsOf proposalId ++ if e.proposalId = proposalId then [e] else [] := by
  simp only [CorrectionDb.eventsOf, CorrectionDb.wrote, List.filter_append, List.filter_cons,
    List.filter_nil, decide_eq_true_eq]

/-- **Appending an event continues the chain.** -/
theorem Chained.wrote (h : Chained rt db) {e : ProposalEvent} {row : Proposal → Proposal}
    {evidence : List Evidence} {exports : List ExportRecord} (he : Appends rt db e)
    (hrow : ∀ p, (row p).proposalId = p.proposalId) :
    Chained rt (db.wrote e row evidence exports) where
  ids := by
    rw [ids_wrote hrow]
    exact h.ids
  known := fun x hx => by
    rw [ids_wrote hrow]
    rcases List.mem_append.mp hx with hx | hx
    · exact h.known x hx
    · rw [List.mem_singleton.mp hx]
      exact he.known
  linked := fun id => by
    rw [eventsOf_wrote]
    split_ifs with hid
    · refine linked_append_singleton.mpr ⟨h.linked id, ?_⟩
      obtain rfl := hid
      unfold Continues
      rw [← h.latestEvent]
      exact he.next
    · rw [List.append_nil]
      exact h.linked id
  heads := fun x hx => by
    rw [eventsOf_wrote]
    rcases mem_wrote.mp hx with ⟨p, -, hp, rfl⟩ | ⟨hx, hne⟩
    · have hid : e.proposalId = ((row p).headed e).proposalId := ((hrow p).trans hp).symm
      rw [if_pos hid, List.getLast?_concat]
      rfl
    · rw [if_neg fun heq => hne heq.symm, List.append_nil]
      exact h.heads x hx

/-- The row of a new proposal keeps the chains, before its first event. -/
theorem Chained.insertProposal {p : Proposal} (h : Chained rt db)
    (hnew : p.proposalId ∉ db.proposals.map Proposal.proposalId) (hhead : p.headEventId = none) :
    Chained rt (db.insertProposal p) where
  ids := by
    rw [CorrectionDb.insertProposal, List.map_append, List.map_singleton]
    exact List.nodup_append.mpr ⟨h.ids, List.nodup_singleton _, fun a ha b hb heq =>
      hnew (List.mem_singleton.mp hb ▸ heq ▸ ha)⟩
  known := fun e he => by
    rw [CorrectionDb.insertProposal, List.map_append]
    exact List.mem_append_left _ (h.known e he)
  linked := h.linked
  heads := fun x hx => by
    rcases List.mem_append.mp hx with hx | hx
    · exact h.heads x hx
    · obtain rfl := List.mem_singleton.mp hx
      have hnone : db.eventsOf x.proposalId = [] :=
        List.filter_eq_nil_iff.mpr fun e he heq => hnew (of_decide_eq_true heq ▸ h.known e he)
      show _ = Option.map _ (db.eventsOf x.proposalId).getLast?
      rw [hhead, hnone]
      rfl

/-- A record of an export keeps the chains. -/
theorem Chained.insertExport (h : Chained rt db) (record : ExportRecord) :
    Chained rt (db.insertExport record) := by
  unfold CorrectionDb.insertExport
  split_ifs
  · exact h
  · exact ⟨h.ids, h.known, h.linked, h.heads⟩

end Chain

/-! ## Every run -/

section Runs

variable {rt : Runtime} {reg : Registry} {root : Root}

/-- **One step** of any request keeps the chains. -/
theorem chained_act (h : ∀ ns, Chained rt (root ns)) (p : Task) (ns : Namespace) :
    Chained rt ((p.act rt reg root).1 ns) := by
  have hdid := Task.didAt rt reg root p ns
  generalize (p.act rt reg root).1 ns = db at hdid ⊢
  cases hdid with
  | same => exact h ns
  | purge => exact chained_emptyDb rt
  | record => exact (h ns).insertExport _
  | write hwrites he =>
      refine Chained.wrote ?_ he hwrites.row_proposalId
      rcases hwrites.base_eq with rfl | ⟨req, -, rfl, -, hnew⟩
      · exact h ns
      · exact (h ns).insertProposal hnew rfl

/-- One step of any request begins the history of each proposal it creates. -/
theorem started_act (h : ∀ ns, Started (root ns)) (p : Task) (ns : Namespace) :
    Started ((p.act rt reg root).1 ns) := by
  have hdid := Task.didAt rt reg root p ns
  generalize (p.act rt reg root).1 ns = db at hdid ⊢
  cases hdid with
  | same => exact h ns
  | purge => exact fun q hq => absurd hq List.not_mem_nil
  | record =>
      unfold Started
      rw [(insertExport_tables _ _).1]
      exact h ns
  | write hwrites he =>
      intro q hq
      rcases mem_wrote.mp hq with ⟨old, -, -, rfl⟩ | ⟨hq, hne⟩
      · rfl
      · rcases hwrites.mem_base hq with hq | ⟨req, -, rfl, hid⟩
        · exact h ns q hq
        · exact absurd hid hne

/-- The stores reached hold chains. -/
theorem ReachedPool.chained {s : CorrectionPool} (h : ReachedPool rt reg s) :
    ∀ ns, Chained rt (s.store ns) :=
  Pool.store_invariant (P := fun root => ∀ ns, Chained rt (root ns)) h
    (fun s hs ns => by rw [hs]; exact chained_emptyDb rt) fun p st hroot =>
      chained_act (show ∀ ns, Chained rt (st ns) from hroot) p

/-- The proposals of the stores reached have a head. -/
theorem ReachedPool.started {s : CorrectionPool} (h : ReachedPool rt reg s) :
    ∀ ns, Started (s.store ns) :=
  Pool.store_invariant (P := fun root => ∀ ns, Started (root ns)) h
    (fun _ hs _ _ hp => absurd (hs ▸ hp) List.not_mem_nil) fun p st hroot =>
      started_act (show ∀ ns, Started (st ns) from hroot) p

end Runs

/-- A registry without sources. -/
def noSources : Registry := fun _ => none

/-- The creation of a proposal to change a kickoff. -/
def kickoffCreation : CreateRequest where
  correctionType := "kickoff"
  target := .mk [("match_id", .str "m1")]
  original := none
  proposed := .str "19:00"
  sourceId := none
  newId := "cp_00000000000000000000000000000001"
  now := "2026-07-01T00:00:00Z"
  generationCommit := none

/-- The pool after the creation. -/
def createdPool : CorrectionPool :=
  [Move.arrive (.create kickoffCreation), .advance 0].foldl
    (Pool.move (Task.act .standard noSources)) (.of emptyRoot)

end Golavo.Corrections
