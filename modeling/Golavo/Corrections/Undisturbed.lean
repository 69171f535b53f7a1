import Golavo.Corrections.Orderly

/-! # Undisturbed runs

Most requests decide by what they read and write in a transaction of their own. A run is **undisturbed**
when every such write finds the rows that its request read: there the reads and the write of a request
are as good as one transaction, and each head of a proposal is good for one change. -/

namespace Golavo.Corrections

open Golavo.Lib (Pool Reaches answered)
open Golavo.Ledger (Runtime)

/-! ## Runs -/

/-- Whether the rows a request read are still there when it writes. -/
def Task.ReadsStand (p : Task) (root : Root) : Prop :=
  p.isWrite = true → ∀ r ∈ p.reads, r.row ∈ (root r.ns).proposals

instance (p : Task) (root : Root) : Decidable (p.ReadsStand root) :=
  inferInstanceAs (Decidable (p.isWrite = true → ∀ r ∈ p.reads, r.row ∈ (root r.ns).proposals))

/-- The steps of an undisturbed run; each also meets a further condition. -/
abbrev Undisturbed (also : Task → Root → Prop) (p : Task) (root : Root) : Prop :=
  p.ReadsStand root ∧ also p root

/-- The pools reached in undisturbed runs. -/
abbrev ReachedUndisturbed (rt : Runtime) (reg : Registry) (also : Task → Root → Prop) :
    CorrectionPool → Prop :=
  ReachedBy rt reg (Undisturbed also)

/-! ## Spent heads -/

/-- Whether a request changed the proposal at a head. -/
def Reply.Changed (r : Reply) (proposalId head : String) : Prop :=
  r.proposalId = proposalId ∧ r.expected = some head ∧ r.outcome = .ok .changed

instance (r : Reply) (proposalId head : String) : Decidable (r.Changed proposalId head) :=
  inferInstanceAs (Decidable (_ ∧ _ ∧ _))

/-- A head at which a proposal was changed is not its head any more, and no two requests changed a
proposal at one head. -/
structure Spent (root : Root) (replies : List Reply) : Prop where
  spent : ∀ r ∈ replies, ∀ ns, ∀ p ∈ (root ns).proposals, ∀ head, r.Changed p.proposalId head →
    head ∈ (root ns).events.map ProposalEvent.eventId ∧ p.headEventId ≠ some head
  once : replies.Pairwise fun a b => ∀ proposalId head, a.Changed proposalId head →
    ¬ b.Changed proposalId head

/-- A request whose transaction is as good as one with the reads before it. -/
structure Task.Ready (rt : Runtime) (reg : Registry) (p : Task) (root : Root)
    (replies : List Reply) : Prop extends p.Within rt reg root replies where
  stand : p.ReadsStand root

section Heads

variable {rt : Runtime} {reg : Registry} {root : Root} {replies : List Reply} {p : Task}

/-- **The head a write expects** is the head it finds. -/
theorem Task.Ready.expected_head {ns : Namespace} {base : CorrectionDb} {e : ProposalEvent}
    {row : Proposal → Proposal} {evidence : List Evidence} {exports : List ExportRecord}
    (h : p.Ready rt reg root replies)
    (hwrites : p.Writes rt reg root ns base e row evidence exports) {head : String}
    (hexpected : p.expected = some head) :
    ∃ old ∈ (root ns).proposals, old.proposalId = p.proposalId ∧ old.headEventId = some head := by
  obtain ⟨⟨horderly, ⟨-, hnames, -, hchecked, -⟩⟩, hstand⟩ := h
  cases hwrites with
  | create => exact nomatch hexpected
  | attach => exact nomatch hexpected
  | @revise at_ =>
      exact ⟨at_.row, hstand rfl _ List.mem_cons_self, hnames _ List.mem_cons_self,
        hchecked.2.1.trans hexpected⟩
  | @validate at_ seen =>
      have hseen : seen ∈ [at_, seen] := List.mem_cons_of_mem _ List.mem_cons_self
      have hat := hstand rfl at_ List.mem_cons_self
      have hns : seen.ns = at_.ns := horderly.oneNamespace _ _ _ (hstand rfl _ hseen) _ hat
        ((hnames _ hseen).trans (hnames _ List.mem_cons_self).symm)
      exact ⟨seen.row, hns ▸ hstand rfl _ hseen, hnames _ hseen, hexpected⟩
  | @transition at_ =>
      exact ⟨at_.row, hstand rfl _ List.mem_cons_self, hnames _ List.mem_cons_self,
        hchecked.2.2.2.trans hexpected⟩
  | @exported at_ seen =>
      have hseen : seen ∈ [at_, seen] := List.mem_cons_of_mem _ List.mem_cons_self
      have hat := hstand rfl at_ List.mem_cons_self
      have hns : seen.ns = at_.ns := horderly.oneNamespace _ _ _ (hstand rfl _ hseen) _ hat
        ((hnames _ hseen).trans (hnames _ List.mem_cons_self).symm)
      exact ⟨seen.row, hns ▸ hstand rfl _ hseen, hnames _ hseen, hchecked.1.trans hexpected⟩
  | @redact at_ =>
      exact ⟨at_.row, hstand rfl _ List.mem_cons_self, hnames _ List.mem_cons_self,
        hchecked.trans hexpected⟩

/-- A head at which a proposal was changed stays behind. -/
theorem Task.Ready.spent (h : p.Ready rt reg root replies) (hbefore : Spent root replies) {r : Reply} (hr : r ∈ replies)
    {ns : Namespace} {q : Proposal} (hq : q ∈ ((p.act rt reg root).1 ns).proposals) {head : String}
    (hchanged : r.Changed q.proposalId head) :
    head ∈ ((p.act rt reg root).1 ns).events.map ProposalEvent.eventId ∧
      q.headEventId ≠ some head := by
  have hspent := hbefore.spent r hr ns
  have hdid := Task.didAt rt reg root p ns
  generalize (p.act rt reg root).1 ns = db at hq hdid ⊢
  cases hdid with
  | same => exact hspent q hq head hchanged
  | purge => exact absurd hq List.not_mem_nil
  | record =>
      obtain ⟨hproposals, hevents, -⟩ := insertExport_tables (root ns) _
      rw [hproposals] at hq
      rw [hevents]
      exact hspent q hq head hchanged
  | @write base e f evidence exports hwrites he =>
      have hnew : ∀ {req}, p = .create req → req.newId ≠ q.proposalId := by
        rintro req rfl heq
        refine h.holds.fresh rfl ?_
        rw [show (Task.create req).proposalId = q.proposalId from heq, ← hchanged.1]
        exact List.mem_map_of_mem hr
      have hevents : (base.wrote e f evidence exports).events = (root ns).events ++ [e] := by
        rw [← hwrites.base_events]
        rfl
      have hfresh := hwrites.base_events ▸ he.fresh
      rw [hevents, List.map_append]
      rcases mem_wrote.mp hq with ⟨old, hold, -, rfl⟩ | ⟨hmem, -⟩
      · have hname := hwrites.row_proposalId old
        rcases hwrites.mem_base hold with hold | ⟨req, hreq, rfl, -⟩
        · have hhead := (hspent old hold head (show r.Changed old.proposalId head from
            hname ▸ hchanged)).1
          exact ⟨List.mem_append_left _ hhead, fun heq => hfresh (Option.some.inj heq ▸ hhead)⟩
        · exact absurd hname.symm (hnew hreq)
      · rcases hwrites.mem_base hmem with hold | ⟨req, hreq, rfl, -⟩
        · exact ⟨List.mem_append_left _ (hspent q hold head hchanged).1,
            (hspent q hold head hchanged).2⟩
        · exact absurd rfl (hnew hreq)

/-- **The head a request changed a proposal at** is spent by its answer. -/
theorem Task.Ready.spends (h : p.Ready rt reg root replies) {reply : Reply}
    (hreply : (p.act rt reg root).2 = .inr reply) {proposalId head : String}
    (hchanged : reply.Changed proposalId head) :
    (∃ ns, ∃ old ∈ (root ns).proposals, old.proposalId = proposalId ∧
        old.headEventId = some head) ∧
      ∀ ns, ∀ q ∈ ((p.act rt reg root).1 ns).proposals, q.proposalId = proposalId →
        head ∈ ((p.act rt reg root).1 ns).events.map ProposalEvent.eventId ∧
          q.headEventId ≠ some head := by
  obtain ⟨rfl, hexpected, houtcome⟩ := hchanged
  have hdid := Task.did rt reg root p
  generalize p.act rt reg root = result at hreply hdid ⊢
  cases hdid with
  | read hread => exact absurd houtcome (hread reply hreply)
  | purge => exact absurd (Sum.inr.inj hreply ▸ hexpected) nofun
  | record => exact absurd (Sum.inr.inj hreply ▸ houtcome) nofun
  | @write ns base e f evidence exports hwrites he =>
      obtain rfl := Sum.inr.inj hreply
      obtain ⟨old, hold, hname, hhead⟩ := h.expected_head hwrites hexpected
      refine ⟨⟨ns, old, hold, hname, hhead⟩, fun ns' q hq hid => ?_⟩
      dsimp only at hq hid ⊢
      have hspent : head ∈ (root ns).events.map ProposalEvent.eventId := by
        obtain ⟨head', hhead', hmem⟩ := h.orderly.head_mem hold
        exact Option.some.inj (hhead.symm.trans hhead') ▸ hmem
      by_cases hns : ns' = ns
      · subst hns
        rw [Function.update_self] at hq ⊢
        have hfresh := hwrites.base_events ▸ he.fresh
        refine ⟨?_, fun heq => ?_⟩
        · rw [CorrectionDb.wrote, List.map_append, hwrites.base_events]
          exact List.mem_append_left _ hspent
        · rcases mem_wrote.mp hq with ⟨x, -, -, rfl⟩ | ⟨-, hne⟩
          · exact hfresh (Option.some.inj heq ▸ hspent)
          · exact hne (hid.trans (h.proposalId_eq hwrites).symm)
      · rw [Function.update_of_ne hns] at hq
        exact absurd (h.orderly.oneNamespace _ _ _ hq _ hold (hid.trans hname.symm)) hns

/-- **One step** spends at most one head. -/
theorem Task.Ready.keepsSpent (h : p.Ready rt reg root replies) (hspent : Spent root replies) :
    Spent (p.act rt reg root).1 (answered replies (p.act rt reg root).2) := by
  cases hresult : (p.act rt reg root).2 with
  | inl next => exact ⟨fun r hr ns q hq head => h.spent hspent hr hq, hspent.once⟩
  | inr reply =>
      refine ⟨fun r hr ns q hq head hchanged => ?_, List.pairwise_append.mpr ⟨hspent.once,
        List.pairwise_singleton _ _, fun a ha b hb proposalId head hchanged hchanged' => ?_⟩⟩
      · rcases List.mem_append.mp hr with hr | hr
        · exact h.spent hspent hr hq hchanged
        · obtain rfl := List.mem_singleton.mp hr
          exact (h.spends hresult hchanged).2 ns q hq rfl
      · obtain rfl := List.mem_singleton.mp hb
        obtain ⟨⟨ns, old, hold, rfl, hhead⟩, -⟩ := h.spends hresult hchanged'
        exact (hspent.spent a ha ns old hold head hchanged).2 hhead

end Heads

end Golavo.Corrections
