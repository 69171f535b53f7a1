import Golavo.Corrections.Moves
import Golavo.Corrections.Heads
import Golavo.Lib.JsonRoundTrip

/-! # The lifecycle of proposals

In an undisturbed run whose revisions take no fingerprint that an open proposal has, and whose
redactions are of proposals that may still receive evidence, a content has at most one open proposal;
a withdrawn or superseded proposal stays as it is, and a submitted one can only be withdrawn. -/

namespace Golavo.Corrections

open Golavo.Lib (Json Pool Move Reaches answered)
open Golavo.Ledger (Runtime)

/-! ## Fingerprints -/

/-- What the fingerprint of a proposal is the digest of. -/
def fingerprintText (ns : Namespace) (correctionType : String) (target proposed : Json) :
    List Char :=
  Json.dumps (.mk [("schema_version", .str schemaVersion), ("license_namespace", .str ns.name),
    ("correction_type", .str correctionType), ("target", target), ("proposed", proposed)])

/-- The fields of a fingerprint in the order of their names. -/
theorem fingerprintFields (version ns type target proposed : Json) :
    Json.mk [("schema_version", version), ("license_namespace", ns), ("correction_type", type),
        ("target", target), ("proposed", proposed)] =
      .obj [("correction_type", type), ("license_namespace", ns), ("proposed", proposed),
        ("schema_version", version), ("target", target)] := by
  obtain ⟨h₁, h₂, h₃, h₄, h₅, h₆, h₇, h₈⟩ : "license_namespace" < "schema_version" ∧
      "correction_type" < "license_namespace" ∧ ¬ "target" < "correction_type" ∧
      ¬ "target" < "license_namespace" ∧ ¬ "target" < "schema_version" ∧
      ¬ "proposed" < "correction_type" ∧ ¬ "proposed" < "license_namespace" ∧
      "proposed" < "schema_version" := by decide +kernel
  simp only [Json.mk, List.foldl_cons, List.foldl_nil, Lib.Fields.setField, h₁, h₂, h₃, h₄, h₅,
    h₆, h₇, h₈, if_true, if_false, String.reduceEq]

/-- A text in front of a comma can be read back. -/
theorem dumps_str_append_inj {a b : String} {r r' : List Char}
    (h : Json.dumps (.str a) ++ ',' :: r = Json.dumps (.str b) ++ ',' :: r') : a = b ∧ r = r' := by
  have hread : ∀ (s : String) (rest : List Char) (n : Nat), Json.size (.str s) ≤ n →
      Json.parseValue n (Json.dumps (.str s) ++ ',' :: rest) = some (.str s, ',' :: rest) :=
    fun s rest n hn => Json.parseValue_dumps _ (by simp [Json.WF]) n hn _ (by
      simp [Json.Stops, Json.digitVal?])
  have ha := hread a r (Json.size (.str a) + Json.size (.str b)) (Nat.le_add_right _ _)
  have hb := hread b r' (Json.size (.str a) + Json.size (.str b)) (Nat.le_add_left _ _)
  rw [h, hb] at ha
  simpa [eq_comm] using ha

/-- What a fingerprint covers names its namespace. -/
theorem namespace_of_fingerprintText {ns ns' : Namespace} {type type' : String}
    {target target' proposed proposed' : Json}
    (h : fingerprintText ns type target proposed = fingerprintText ns' type' target' proposed') :
    ns = ns' := by
  have htext : ∀ (ns : Namespace) (type : String) (target proposed : Json), ∃ rest,
      fingerprintText ns type target proposed =
        "\x7b\"correction_type\":".toList ++ (Json.dumps (.str type) ++ ',' ::
          ("\"license_namespace\":".toList ++ (Json.dumps (.str ns.name) ++ ',' :: rest))) :=
    fun ns type target proposed => ⟨Json.dumpsFields [("proposed", proposed),
      ("schema_version", .str schemaVersion), ("target", target)], by
        rw [fingerprintText, fingerprintFields, Json.dumps, Json.dumpsFields, Json.dumpsFields]
        simp only [List.append_assoc, List.cons_append]
        rfl⟩
  obtain ⟨rest, hrest⟩ := htext ns type target proposed
  obtain ⟨rest', hrest'⟩ := htext ns' type' target' proposed'
  rw [hrest, hrest'] at h
  obtain ⟨-, h⟩ := dumps_str_append_inj (List.append_cancel_left h)
  obtain ⟨hname, -⟩ := dumps_str_append_inj (List.append_cancel_left h)
  revert hname
  cases ns <;> cases ns' <;> decide

/-! ## One open proposal for a content -/

/-- Whether a proposal is neither withdrawn nor superseded. -/
def Proposal.IsOpen (p : Proposal) : Prop := p.state ≠ .withdrawn ∧ p.state ≠ .superseded

/-- What a proposal's fingerprint is the digest of. -/
def Proposal.fingerprinted (p : Proposal) : List Char :=
  fingerprintText p.licenseNamespace p.correctionType p.target p.proposed

/-- A namespace in which no two open proposals have one fingerprint, and each has its own. -/
structure OneOpen (rt : Runtime) (ns : Namespace) (db : CorrectionDb) : Prop where
  own : ∀ p ∈ db.proposals, p.licenseNamespace = ns ∧ p.fingerprint = rt.sha256 p.fingerprinted
  one : ∀ p ∈ db.proposals, ∀ q ∈ db.proposals, p.IsOpen → q.IsOpen →
    p.fingerprint = q.fingerprint → p.proposalId = q.proposalId

/-- The steps that keep the lifecycle: no revision takes the fingerprint of another open proposal, and
no redaction is of a proposal that is withdrawn, superseded or submitted. -/
def KeepsLifecycle (rt : Runtime) : Task → Root → Prop
  | .reviseRead at_ _ _ proposed, root => ∀ q ∈ (root at_.ns).proposals, q.IsOpen →
      q.proposalId ≠ at_.row.proposalId → q.fingerprint ≠ fingerprint rt at_.row.licenseNamespace
        at_.row.correctionType at_.row.target proposed
  | .redactRead at_ _ _, _ => at_.row.state ∉ closedStates
  | _, _ => True

/-- A move to a state that is not withdrawn or superseded comes from one that is not, redactions
apart. -/
theorem StateMove.source_open {state next : ProposalState} {type : EventType}
    (h : StateMove state type next) (htype : type = .evidenceRedacted → state ∉ closedStates) :
    state ≠ .withdrawn ∧ state ≠ .superseded := by
  have hclosed : state ∉ closedStates → state ≠ .withdrawn ∧ state ≠ .superseded := by
    revert state
    intro state _ _
    cases state <;> decide
  cases h with
  | attach hstate | pass hstate | conflict hstate | fail hstate => exact hclosed hstate
  | redact => exact hclosed (htype rfl)
  | accept | revoke | submit => decide
  | annotate hstate | record hstate => rcases hstate with rfl | rfl <;> decide
  | revise hstate => revert hstate; cases state <;> decide
  | withdraw hstate => revert hstate; cases state <;> decide

/-- A submitted proposal is withdrawn or stays submitted, redactions apart. -/
theorem StateMove.of_submitted {next : ProposalState} {type : EventType}
    (h : StateMove .submitted type next)
    (htype : type = .evidenceRedacted → ProposalState.submitted ∉ closedStates) :
    next = .submitted ∨ next = .withdrawn := by
  cases h with
  | attach hstate | pass hstate | conflict hstate | fail hstate =>
      exact absurd (by decide) hstate
  | redact => exact absurd (by decide) (htype rfl)
  | annotate => exact .inl rfl
  | withdraw => exact .inr rfl
  | revise hstate => exact absurd hstate (by decide)
  | record hstate => exact absurd hstate (by decide)

section Steps

variable {rt : Runtime} {reg : Registry} {root : Root} {replies : List Reply} {p : Task}
  {ns : Namespace} {base : CorrectionDb} {e : ProposalEvent} {row : Proposal → Proposal}
  {evidence : List Evidence} {exports : List ExportRecord}

/-- A redaction that keeps the lifecycle is of a proposal that may still receive evidence. -/
theorem Task.Ready.not_closed (h : p.Ready rt reg root replies) (hkeeps : KeepsLifecycle rt p root)
    (hwrites : p.Writes rt reg root ns base e row evidence exports) {old : Proposal}
    (hold : old ∈ (root ns).proposals) (hid : old.proposalId = e.proposalId) :
    e.eventType = .evidenceRedacted → old.state ∉ closedStates := by
  intro htype
  cases hwrites with
  | create _ _ _ _ hother | revise _ hother | exported _ _ hother =>
      exact absurd (hother.symm.trans htype) (by decide)
  | attach _ _ _ _ hother =>
      rcases hother with hother | hother <;> exact absurd (hother.symm.trans htype) (by decide)
  | @validate at_ seen now v _ _ hother =>
      have hnot : v.eventType ≠ .evidenceRedacted := by
        unfold Verdict.eventType
        split_ifs <;> decide
      exact absurd (hother.symm.trans htype) hnot
  | @transition at_ seen call t _ _ hother =>
      have hnot : t.eventType ≠ .evidenceRedacted := by
        rcases h.holds.checked.2.1 with ⟨-, reason, ht⟩ | ⟨r, -, ht | ht | ⟨reference, ht⟩⟩
        all_goals
          rw [ht]
          exact fun heq => nomatch heq
      exact absurd (hother.symm.trans htype) hnot
  | redact hname =>
      rw [h.old_eq rfl List.mem_cons_self hold (hid.trans hname)]
      exact hkeeps

/-- No open proposal has the fingerprint that a creation does not find. -/
theorem not_open_of_openWith {db : CorrectionDb} {fp : String} (h : db.openWith fp = none)
    {q : Proposal} (hq : q ∈ db.proposals) (hopen : q.IsOpen) : q.fingerprint ≠ fp := by
  intro heq
  unfold CorrectionDb.openWith at h
  rw [List.head?_eq_none_iff] at h
  have hmem := (List.perm_insertionSort (fun a b : Proposal => a.createdAtUtc ≤ b.createdAtUtc)
    (db.proposals.filter fun p =>
      p.fingerprint = fp ∧ p.state ≠ .withdrawn ∧ p.state ≠ .superseded)).mem_iff.mpr
        (List.mem_filter.mpr ⟨hq, decide_eq_true ⟨heq, hopen.1, hopen.2⟩⟩)
  rw [h] at hmem
  exact List.not_mem_nil hmem

/-- A changed row keeps its fingerprint, or is a revision's. -/
theorem Task.Ready.fingerprint_row (h : p.Ready rt reg root replies)
    (hkeeps : KeepsLifecycle rt p root)
    (hwrites : p.Writes rt reg root ns base e row evidence exports) {old : Proposal}
    (hold : old ∈ (root ns).proposals) (hid : old.proposalId = e.proposalId)
    (hown : old.licenseNamespace = ns ∧ old.fingerprint = rt.sha256 old.fingerprinted) :
    ((row old).licenseNamespace = ns ∧
        (row old).fingerprint = rt.sha256 (row old).fingerprinted) ∧
      ((row old).fingerprint = old.fingerprint ∨ ∀ q ∈ (root ns).proposals, q.IsOpen →
        q.proposalId ≠ old.proposalId → q.fingerprint ≠ (row old).fingerprint) := by
  cases hwrites with
  | create _ _ hnew hname =>
      exact absurd (List.mem_map_of_mem hold) (hid.trans hname ▸ hnew)
  | attach | validate | transition | exported | redact => exact ⟨hown, .inl rfl⟩
  | @revise at_ next call proposed _ hname =>
      obtain rfl := h.old_eq rfl List.mem_cons_self hold (hid.trans hname)
      exact ⟨⟨hown.1, rfl⟩, .inr hkeeps⟩

/-- **One step** keeps one open proposal for a content. -/
theorem oneOpen_act (h : p.Ready rt reg root replies) (hkeeps : KeepsLifecycle rt p root)
    (hopen : ∀ ns, OneOpen rt ns (root ns)) (ns : Namespace) :
    OneOpen rt ns ((p.act rt reg root).1 ns) := by
  have hdid := Task.didAt rt reg root p ns
  generalize (p.act rt reg root).1 ns = db at hdid ⊢
  cases hdid with
  | same => exact hopen ns
  | purge => exact ⟨fun q hq => absurd hq List.not_mem_nil, fun q hq => absurd hq List.not_mem_nil⟩
  | @record _ _ record =>
      obtain ⟨hproposals, -, -⟩ := insertExport_tables (root ns) record
      exact ⟨hproposals ▸ (hopen ns).own, hproposals ▸ (hopen ns).one⟩
  | @write base e row evidence exports hwrites he =>
      obtain ⟨hown, hone⟩ := hopen ns
      -- The row that changed has the fingerprint of no other open proposal.
      have hother : ∀ old ∈ base.proposals, old.proposalId = e.proposalId →
          ((row old).headed e).IsOpen → ∀ q ∈ (root ns).proposals, q.proposalId ≠ e.proposalId →
            q.IsOpen → q.fingerprint ≠ (row old).fingerprint := by
        intro old hold hid hold' q hq hne hq'
        rcases hwrites.mem_base hold with hold | ⟨req, rfl, rfl, -⟩
        · rcases (h.fingerprint_row hkeeps hwrites hold hid (hown old hold)).2 with hsame | hnew
          · have hopenOld := (h.moves hwrites hold hid).source_open
              (h.not_closed hkeeps hwrites hold hid)
            rw [hsame]
            exact fun heq => hne ((hone q hq old hold hq' hopenOld heq).trans hid)
          · exact hnew q hq hq' fun heq => hne (heq.trans hid)
        · cases hwrites with
          | create _ hnone => exact not_open_of_openWith hnone hq hq'
      have hold : ∀ q ∈ base.proposals, q.proposalId ≠ e.proposalId → q ∈ (root ns).proposals :=
        fun q hq hne => (hwrites.mem_base hq).resolve_right fun ⟨req, _, hq, hid⟩ =>
          hne (hq ▸ hid)
      refine ⟨fun q hq => ?_, fun q hq q' hq' hopenQ hopenQ' hfp => ?_⟩
      · rcases mem_wrote.mp hq with ⟨old, holdBase, hid, rfl⟩ | ⟨hmem, hne⟩
        · rcases hwrites.mem_base holdBase with hmem | ⟨req, rfl, rfl, -⟩
          · exact (h.fingerprint_row hkeeps hwrites hmem hid (hown old hmem)).1
          · cases hwrites with
            | create => exact ⟨rfl, rfl⟩
        · exact hown q (hold q hmem hne)
      · rcases mem_wrote.mp hq with ⟨old, holdBase, hid, rfl⟩ | ⟨hmem, hne⟩
        · rcases mem_wrote.mp hq' with ⟨old', -, hid', rfl⟩ | ⟨hmem', hne'⟩
          · exact (hwrites.row_proposalId old).trans (hid.trans
              ((hwrites.row_proposalId old').trans hid').symm)
          · exact absurd hfp.symm (hother old holdBase hid hopenQ q' (hold q' hmem' hne') hne' hopenQ')
        · rcases mem_wrote.mp hq' with ⟨old', holdBase', hid', rfl⟩ | ⟨hmem', hne'⟩
          · exact absurd hfp (hother old' holdBase' hid' hopenQ' q (hold q hmem hne) hne hopenQ)
          · exact hone q (hold q hmem hne) q' (hold q' hmem' hne') hopenQ hopenQ' hfp

/-- What is left open to a proposal that is withdrawn, superseded or submitted. -/
def StaysClosed (state next : ProposalState) : Prop :=
  (state = .withdrawn ∨ state = .superseded → next = state) ∧
    (state = .submitted → next = .submitted ∨ next = .withdrawn)

theorem StaysClosed.refl (state : ProposalState) : StaysClosed state state :=
  ⟨fun _ => rfl, .inl⟩

theorem StaysClosed.trans {a b c : ProposalState} (h : StaysClosed a b) (h' : StaysClosed b c) :
    StaysClosed a c := by
  refine ⟨fun ha => ?_, fun ha => ?_⟩
  · rw [h'.1 (h.1 ha ▸ ha), h.1 ha]
  · rcases h.2 ha with hb | hb
    · exact h'.2 hb
    · exact .inr (hb ▸ h'.1 (.inl hb))

/-- **One step** leaves what is closed closed. -/
theorem Task.Ready.staysClosed (h : p.Ready rt reg root replies)
    (hkeeps : KeepsLifecycle rt p root) {ns ns' : Namespace} {q q' : Proposal}
    (hq : q ∈ (root ns).proposals) (hq' : q' ∈ ((p.act rt reg root).1 ns').proposals)
    (hid : q'.proposalId = q.proposalId) : StaysClosed q.state q'.state := by
  have hdid := Task.didAt rt reg root p ns'
  generalize (p.act rt reg root).1 ns' = db at hq' hdid
  have hsame : ∀ old ∈ (root ns').proposals, old.proposalId = q.proposalId → old = q := by
    intro old hold heq
    obtain rfl := h.orderly.oneNamespace _ _ _ hold _ hq heq
    exact List.inj_on_of_nodup_map (h.orderly.chained _).ids hold hq heq
  cases hdid with
  | same => exact hsame q' hq' hid ▸ .refl _
  | purge => exact absurd hq' List.not_mem_nil
  | @record _ _ record =>
      rw [(insertExport_tables (root ns') record).1] at hq'
      exact hsame q' hq' hid ▸ .refl _
  | @write base e row evidence exports hwrites he =>
      have hbase : ∀ old ∈ base.proposals, old.proposalId = q.proposalId →
          old ∈ (root ns').proposals := by
        intro old hold heq
        refine (hwrites.mem_base hold).resolve_right ?_
        rintro ⟨req, rfl, rfl, -⟩
        refine h.holds.fresh rfl ?_
        rw [show (Task.create req).proposalId = q.proposalId from heq]
        exact h.orderly.answered ns q hq
      rcases mem_wrote.mp hq' with ⟨old, hold, hname, rfl⟩ | ⟨hmem, -⟩
      · have heq : old.proposalId = q.proposalId := (hwrites.row_proposalId old).symm.trans hid
        have hmem := hbase old hold heq
        obtain rfl := hsame old hmem heq
        have hmove := h.moves hwrites hmem hname
        have htype := h.not_closed hkeeps hwrites hmem hname
        refine ⟨fun hstate => ?_, fun hstate => ?_⟩
        · rcases hstate with hstate | hstate
          · exact absurd hstate (hmove.source_open htype).1
          · exact absurd hstate (hmove.source_open htype).2
        · rw [hstate] at hmove htype
          exact hmove.of_submitted htype
      · exact hsame q' (hbase q' hmem hid) hid ▸ .refl _

end Steps

/-! ## Every run that keeps the lifecycle -/

section Runs

variable {rt : Runtime} {reg : Registry} {s s' : CorrectionPool}

/-- The pools reached from another by the steps that keep the lifecycle. -/
def LifecycleFrom (rt : Runtime) (reg : Registry) (s : CorrectionPool) : CorrectionPool → Prop :=
  Reaches (· = s) (Steps (Undisturbed (KeepsLifecycle rt))) (Pool.move (Task.act rt reg))

/-- What is closed stays closed. -/
theorem staysClosed_of_lifecycleFrom (h : ReachedUndisturbed rt reg (KeepsLifecycle rt) s)
    (hrun : LifecycleFrom rt reg s s') {ns ns' : Namespace} {q q' : Proposal}
    (hq : q ∈ (s.store ns).proposals) (hq' : q' ∈ (s'.store ns').proposals)
    (hid : q'.proposalId = q.proposalId) : StaysClosed q.state q'.state := by
  have hinv : ReachedUndisturbed rt reg (KeepsLifecycle rt) s' ∧
      q.proposalId ∈ s'.replies.map Reply.proposalId ∧
      ∀ ns', ∀ q' ∈ (s'.store ns').proposals, q'.proposalId = q.proposalId →
        StaysClosed q.state q'.state := by
    refine @Reaches.invariant _ _ _ _ _ (fun t => ReachedUndisturbed rt reg (KeepsLifecycle rt) t ∧
      q.proposalId ∈ t.replies.map Reply.proposalId ∧ ∀ ns', ∀ q' ∈ (t.store ns').proposals,
        q'.proposalId = q.proposalId → StaysClosed q.state q'.state) _ hrun ?_ ?_
    · rintro _ rfl
      refine ⟨h, h.sound.inv.answered ns q hq, fun ns' q' hq' heq => ?_⟩
      obtain rfl := h.sound.inv.oneNamespace _ _ _ hq' _ hq heq
      rw [List.inj_on_of_nodup_map (h.sound.inv.chained _).ids hq' hq heq]
      exact .refl _
    · rintro t m ⟨hreached, hanswered, hstays⟩ hm
      refine ⟨hreached.next hm, ?_⟩
      rcases steps_move hreached.sound hm with ⟨hstore, hreplies⟩ |
        ⟨p, hp, hwithin, ⟨hstand, hkeeps⟩, hstore, hreplies⟩
      · rw [hstore, hreplies]
        exact ⟨hanswered, hstays⟩
      · have hready : p.Ready rt reg t.store t.replies := ⟨hwithin, hstand⟩
        rw [hstore, hreplies]
        refine ⟨?_, fun ns' q' hq' heq => ?_⟩
        · cases (p.act rt reg t.store).2 with
          | inl next => exact hanswered
          | inr reply =>
              rw [answered, List.map_append]
              exact List.mem_append_left _ hanswered
        · rcases mem_act hq' with ⟨old, hold, hname⟩ | ⟨req, rfl, hname, -⟩
          · exact (hstays ns' old hold (hname.trans heq)).trans
              (hready.staysClosed hkeeps hold hq' hname.symm)
          · refine absurd ?_ (hready.holds.fresh rfl)
            rw [show (Task.create req).proposalId = q.proposalId from hname.symm.trans heq]
            exact hanswered
  exact hinv.2.2 ns' q' hq' hid

/-- **The lifecycle of proposals.** In an undisturbed run whose revisions take no open proposal's
fingerprint and whose redactions are of proposals that may still receive evidence, a namespace has at
most one open proposal for a fingerprint, all namespaces together at most one for what a fingerprint
is the digest of; and whatever comes after, a withdrawn or superseded proposal stays so, and a
submitted one stays so or is withdrawn. -/
theorem lifecycle (h : ReachedUndisturbed rt reg (KeepsLifecycle rt) s) :
    (∀ ns, ∀ p ∈ (s.store ns).proposals, ∀ q ∈ (s.store ns).proposals, p.IsOpen → q.IsOpen →
        p.fingerprint = q.fingerprint → p = q) ∧
      (∀ ns ns', ∀ p ∈ (s.store ns).proposals, ∀ q ∈ (s.store ns').proposals,
        p.IsOpen → q.IsOpen → p.fingerprinted = q.fingerprinted → p = q) ∧
      ∀ s', LifecycleFrom rt reg s s' → ∀ ns ns', ∀ p ∈ (s.store ns).proposals,
        ∀ q ∈ (s'.store ns').proposals, q.proposalId = p.proposalId →
          (p.state = .withdrawn ∨ p.state = .superseded → q.state = p.state) ∧
            (p.state = .submitted → q.state = .submitted ∨ q.state = .withdrawn) := by
  obtain ⟨hsound, hopen⟩ := h.invariant (P := fun root _ => ∀ ns, OneOpen rt ns (root ns))
    (fun ns => ⟨fun q hq => absurd hq List.not_mem_nil, fun q hq => absurd hq List.not_mem_nil⟩)
    fun hwithin hfits hopen => oneOpen_act ⟨hwithin, hfits.1⟩ hfits.2 hopen
  have hone : ∀ ns, ∀ p ∈ (s.store ns).proposals, ∀ q ∈ (s.store ns).proposals,
      p.IsOpen → q.IsOpen → p.fingerprint = q.fingerprint → p = q :=
    fun ns p hp q hq hp' hq' hfp => List.inj_on_of_nodup_map (hsound.inv.chained ns).ids hp hq
      ((hopen ns).one p hp q hq hp' hq' hfp)
  refine ⟨hone, fun ns ns' p hp q hq hp' hq' htext => ?_,
    fun s' hrun ns ns' p hp q hq hid => staysClosed_of_lifecycleFrom h hrun hp hq hid⟩
  obtain ⟨hns, hfp⟩ := (hopen ns).own p hp
  obtain ⟨hns', hfp'⟩ := (hopen ns').own q hq
  have heq : ns = ns' := by
    rw [← hns, ← hns']
    exact namespace_of_fingerprintText htext
  subst heq
  exact hone ns p hp q hq hp' hq' (by rw [hfp, hfp', htext])

end Runs

/-- A creation, and another of the same content. -/
def createdTwice : List (Move Task) :=
  [.arrive (.create kickoffCreation), .advance 0,
    .arrive (.create { kickoffCreation with newId := "cp_00000000000000000000000000000002" }),
    .advance 0]

/-- The pool after the two. -/
def createdTwicePool : CorrectionPool :=
  createdTwice.foldl (Pool.move (Task.act .standard noSources)) (.of emptyRoot)

/-- The second creation opens no second proposal. -/
theorem lifecycle_createdTwicePool : Set.InjOn Proposal.fingerprint
    {p | p ∈ (createdTwicePool.store .quarantineUnknown).proposals ∧ p.IsOpen} := by
  have hcreate : ∀ {req root p}, some (Task.create req) = some p →
      p.ReadsStand root ∧ KeepsLifecycle .standard p root := by
    rintro req root p ⟨⟩
    exact ⟨fun h => absurd h Bool.false_ne_true, trivial⟩
  have hreached : ReachedUndisturbed .standard noSources (KeepsLifecycle .standard)
      createdTwicePool := by
    refine Reaches.run (.start rfl) ?_
    exact ⟨⟨rfl, fun q hq => absurd hq List.not_mem_nil, fun _ => List.not_mem_nil⟩,
      fun p hp => hcreate hp,
      ⟨rfl, fun q hq => absurd hq List.not_mem_nil, fun _ => by decide +kernel⟩,
      fun p hp => hcreate hp, trivial⟩
  have h := lifecycle hreached
  exact fun p hp q hq => h.1 .quarantineUnknown p hp.1 q hq.1 hp.2 hq.2

/-! ## A submitted proposal withdrawn -/

/-- A registry whose every source may be exported. -/
def openSources : Registry := fun _ => some ⟨.coreCc0, true, .null⟩

/-- Some evidence for a proposal. -/
def kickoffEvidence : AttachRequest where
  proposalId := kickoffCreation.newId
  sourceUrl := "https://a.b/c"
  hostname := "a.b"
  sourceRevision := none
  rawSha256 := "ab"
  rawBytes := 1
  sanitizedText := "c"
  sanitizedSha256 := "cd"
  researchOrigin := none
  now := "2026-07-01T00:00:01Z"
  fileFailure := none

/-- A verdict that lets a proposal pass. -/
def passing : Verdict := ⟨.validatedCandidate, "snapshot", [], [], []⟩

/-- A request by the head of the newest event. -/
def kickoffCallAt (head now : String) : Call := ⟨kickoffCreation.newId, head, now⟩

/-- A proposal that receives evidence and passes its validation. -/
def kickoffPassed : List (Move Task) :=
  [.arrive (.create { kickoffCreation with sourceId := some "s" }), .advance 0,
    .arrive (.attach kickoffEvidence), .advance 0, .advance 0,
    .arrive (.validate kickoffCreation.newId "2026-07-01T00:00:02Z" fun _ _ => passing),
    .advance 0, .advance 0, .advance 0, .advance 0]

/-- The request to export it. -/
def exportCall : Call :=
  kickoffCallAt "ce_f8dcefd49493ebf21e6d6509a26387bf323c9af51d926fac8703a6299523161b"
    "2026-07-01T00:00:03Z"

/-- Then its export is made. -/
def kickoffRecorded : List (Move Task) :=
  [.arrive (.exportProposal exportCall ⟨true, none⟩), .advance 0, .advance 0, .advance 0, .advance 0]

/-- Then the export is recorded. -/
def kickoffExported : List (Move Task) := [.advance 0, .advance 0]

/-- Then submitted. -/
def kickoffSubmitted : List (Move Task) :=
  [.arrive (.transition (kickoffCallAt
      "ce_0f2197b9c998594308481a59f00d0d23d839af238bd89a8bc6e57b6e823b0ac0"
      "2026-07-01T00:00:04Z") (.markSubmitted none)),
    .advance 0, .advance 0, .advance 0]

/-- Then withdrawn. -/
def kickoffWithdrawn : List (Move Task) :=
  [.arrive (.transition (kickoffCallAt
      "ce_4aff2a18d37b1452aaa4d1e4cb80ccbc31beb6e79f54327cdc8249dc88146e94"
      "2026-07-01T00:00:05Z") (.withdraw none)),
    .advance 0, .advance 0, .advance 0]

/-- The pool after some moves. -/
def CorrectionPool.after (s : CorrectionPool) (moves : List (Move Task)) : CorrectionPool :=
  moves.foldl (Pool.move (Task.act .standard openSources)) s

/-- A store with the rows of one namespace. -/
def rootOf (db : CorrectionDb) : Root := Function.update emptyRoot .coreCc0 db

/-- Whether a store has these rows. -/
def storeIs (root : Root) (db : CorrectionDb) : Bool :=
  knownNamespaces.all fun ns => root ns = rootOf db ns

theorem eq_rootOf {root : Root} {db : CorrectionDb} (h : storeIs root db = true) :
    root = rootOf db := by
  simp only [storeIs, List.all_eq_true, decide_eq_true_eq] at h
  exact funext fun ns => h ns (mem_knownNamespaces ns)

/-- A pool at rest. -/
def atRest (db : CorrectionDb) (replies : List Reply) : CorrectionPool := ⟨rootOf db, [], replies⟩

/-- Whether a pool is at rest with these rows. -/
def restsAt (s : CorrectionPool) (db : CorrectionDb) : Bool := s.waiting.isEmpty && storeIs s.store db

theorem eq_atRest {s : CorrectionPool} {db : CorrectionDb} (h : restsAt s db = true) :
    s = atRest db s.replies := by
  simp only [restsAt, Bool.and_eq_true, List.isEmpty_iff] at h
  obtain ⟨store, waiting, replies⟩ := s
  obtain ⟨rfl, hstore⟩ := h
  obtain rfl : store = rootOf db := eq_rootOf hstore
  rfl

/-- The proposal once it passed its validation. -/
def passedRow : Proposal where
  proposalId := kickoffCreation.newId
  licenseNamespace := .coreCc0
  correctionType := "kickoff"
  state := .validatedCandidate
  verificationLevel := "snapshot"
  target := kickoffCreation.target
  original := none
  proposed := kickoffCreation.proposed
  sourceId := some "s"
  validation := .obj [("conflicts", .arr []), ("reason_codes", .arr [])]
  localVisibility := "queue_only"
  fingerprint := "0d8c8dcfa7cd81481b387499f2b2a6341febbbb5dfc1605fa8af5891a2d99fd4"
  createdAtUtc := "2026-07-01T00:00:00Z"
  updatedAtUtc := "2026-07-01T00:00:02Z"
  headEventId := some "ce_f8dcefd49493ebf21e6d6509a26387bf323c9af51d926fac8703a6299523161b"

/-- The rows then. -/
def passedDb : CorrectionDb where
  proposals := [passedRow]
  events := [
    { eventId := "ce_376babdb5e487b7e55fe7e067ff8f6000a657811edae6391ac09e8917bd49808"
      proposalId := kickoffCreation.newId
      sequence := 1
      eventType := .created
      recordedAtUtc := "2026-07-01T00:00:00Z"
      previousEventHash := none
      payload := .obj [("correction_type", .str "kickoff"), ("license_namespace", .str "core-cc0"),
        ("original", .null), ("proposed", kickoffCreation.proposed), ("source_id", .str "s"),
        ("target", kickoffCreation.target)]
      payloadSha256 := "e6b84840ce9a61433842478b400603de15191f4bb80c496e0eaa938dcb246d32"
      eventSha256 := "376babdb5e487b7e55fe7e067ff8f6000a657811edae6391ac09e8917bd49808" },
    { eventId := "ce_6f56e46bb6c5d13f71e5d9555fbd3ce2c4a6d0977e8291056b1cf61298c5ab8c"
      proposalId := kickoffCreation.newId
      sequence := 2
      eventType := .evidenceAttached
      recordedAtUtc := "2026-07-01T00:00:01Z"
      previousEventHash := some "376babdb5e487b7e55fe7e067ff8f6000a657811edae6391ac09e8917bd49808"
      payload := .obj [
        ("evidence_id", .str "ev_29e718eab01f65d90ca456a1d711b609f4d53d43f8435e2b6c508c7056e71b19"),
        ("raw_bytes", .int 1), ("raw_sha256", .str "ab"), ("source_url", .str "https://a.b/c"),
        ("untrusted", .bool true)]
      payloadSha256 := "527ee476394633aa070318dd846ad82dfdc57a0d652ddc0a25d6a807ca25663c"
      eventSha256 := "6f56e46bb6c5d13f71e5d9555fbd3ce2c4a6d0977e8291056b1cf61298c5ab8c" },
    { eventId := "ce_f8dcefd49493ebf21e6d6509a26387bf323c9af51d926fac8703a6299523161b"
      proposalId := kickoffCreation.newId
      sequence := 3
      eventType := .validationPassed
      recordedAtUtc := "2026-07-01T00:00:02Z"
      previousEventHash := some "6f56e46bb6c5d13f71e5d9555fbd3ce2c4a6d0977e8291056b1cf61298c5ab8c"
      payload := .obj [("conflicts", .arr []), ("reason_codes", .arr []),
        ("state", .str "validated_candidate"), ("verification_level", .str "snapshot")]
      payloadSha256 := "b3ffe67f5e92f66c7491961f9672331f0d37fb55d29d37f1bdbe739023baae21"
      eventSha256 := "f8dcefd49493ebf21e6d6509a26387bf323c9af51d926fac8703a6299523161b" }]
  evidence := [
    { evidenceId := "ev_29e718eab01f65d90ca456a1d711b609f4d53d43f8435e2b6c508c7056e71b19"
      proposalId := kickoffCreation.newId
      sourceUrl := "https://a.b/c"
      hostname := "a.b"
      sourceId := "s"
      licenseNamespace := .coreCc0
      sourceRevision := none
      rawSha256 := "ab"
      rawBytes := 1
      sanitizedText := "c"
      sanitizedSha256 := "cd"
      snapshotVerified := false
      capturedAtUtc := "2026-07-01T00:00:01Z"
      redacted := false }]
  exports := []

/-- The record of the export. -/
def kickoffExport : ExportRecord where
  exportId := "cx_51a0f86fa061a10ec66a71be2caf07aed53af3f6acd17f2d404a12fbb3c29759"
  proposalId := kickoffCreation.newId
  proposalHeadEventId := "ce_f8dcefd49493ebf21e6d6509a26387bf323c9af51d926fac8703a6299523161b"
  relativePath := "exports/core-cc0/" ++
    "cx_51a0f86fa061a10ec66a71be2caf07aed53af3f6acd17f2d404a12fbb3c29759.golavo-correction.json"
  sha256 := "dd8d3b6cdd2c72741c13dc89a2c34359eba4bca0dc9488a39e983a0561e0eeb8"
  bytes := 1425
  createdAtUtc := "2026-07-01T00:00:03Z"

/-- The event of the export. -/
def kickoffExportEvent : ProposalEvent where
  eventId := "ce_0f2197b9c998594308481a59f00d0d23d839af238bd89a8bc6e57b6e823b0ac0"
  proposalId := kickoffCreation.newId
  sequence := 4
  eventType := .exported
  recordedAtUtc := "2026-07-01T00:00:03Z"
  previousEventHash := some "f8dcefd49493ebf21e6d6509a26387bf323c9af51d926fac8703a6299523161b"
  payload := .obj [("bytes", .int kickoffExport.bytes), ("export_id", .str kickoffExport.exportId),
    ("sha256", .str kickoffExport.sha256)]
  payloadSha256 := "6e4debb268e3815be1b9e757d462c646b8e1928502247bcbddf63a247542dd45"
  eventSha256 := "0f2197b9c998594308481a59f00d0d23d839af238bd89a8bc6e57b6e823b0ac0"

/-- The rows once it is exported. -/
def exportedDb : CorrectionDb where
  proposals := [{ passedRow with
    state := .exported
    updatedAtUtc := "2026-07-01T00:00:03Z"
    headEventId := some kickoffExportEvent.eventId }]
  events := passedDb.events ++ [kickoffExportEvent]
  evidence := passedDb.evidence
  exports := [kickoffExport]

/-- The pool after the validation. -/
def passedPool : CorrectionPool := CorrectionPool.after (.of emptyRoot) kickoffPassed

/-- The pool after the export is made. -/
def recordedPool : CorrectionPool := passedPool.after kickoffRecorded

/-- The pool after the export. -/
def exportedPool : CorrectionPool := recordedPool.after kickoffExported

/-- The pool after the submission. -/
def submittedPool : CorrectionPool := exportedPool.after kickoffSubmitted

/-- A pool that is about to record the export. -/
def atRecord (replies : List Reply) : CorrectionPool :=
  ⟨rootOf passedDb, [.exportBuilt ⟨.coreCc0, passedRow⟩ kickoffExport exportCall], replies⟩

/-- Whether a pool is about to record the export. -/
def recordsNow (s : CorrectionPool) : Bool :=
  storeIs s.store passedDb &&
    match s.waiting with
    | [.exportBuilt seen record call] => decide (seen.ns = .coreCc0 ∧ seen.row = passedRow ∧
        record = kickoffExport ∧ call.proposalId = exportCall.proposalId ∧
          call.expected = exportCall.expected ∧ call.now = exportCall.now)
    | _ => false

theorem eq_atRecord {s : CorrectionPool} (h : recordsNow s = true) : s = atRecord s.replies := by
  obtain ⟨store, waiting, replies⟩ := s
  obtain ⟨hstore, hwaiting⟩ := Bool.and_eq_true_iff.mp h
  dsimp only at hwaiting
  split at hwaiting
  · next seen record call =>
      obtain ⟨seenNs, seenRow⟩ := seen
      obtain ⟨proposalId, expected, now⟩ := call
      simp only [decide_eq_true_eq] at hwaiting
      obtain ⟨rfl, rfl, rfl, rfl, rfl, rfl⟩ := hwaiting
      obtain rfl : store = rootOf passedDb := eq_rootOf hstore
      rfl
  · exact nomatch hwaiting

theorem exportedPool_eq : exportedPool = atRest exportedDb exportedPool.replies := by
  have hpassed : passedPool = atRest passedDb passedPool.replies := eq_atRest (by decide +kernel)
  -- the digests so far stand in the rows, so no step below computes an earlier one again
  have hrecorded : recordedPool = atRecord recordedPool.replies := by
    refine eq_atRecord ?_
    rw [recordedPool, hpassed]
    decide +kernel
  refine eq_atRest ?_
  rw [exportedPool, hrecorded]
  decide +kernel

/-- **A submitted proposal leaves that state**: it can be withdrawn. -/
theorem submitted_withdrawn : ∃ s s', ReachedPool .standard openSources s ∧
    Reaches (· = s) Arrives (Pool.move (Task.act .standard openSources)) s' ∧
      ∃ p ∈ (s.store .coreCc0).proposals, ∃ q ∈ (s'.store .coreCc0).proposals,
        q.proposalId = p.proposalId ∧ p.state = .submitted ∧ q.state = .withdrawn := by
  refine ⟨submittedPool, submittedPool.after kickoffWithdrawn, ?_,
    Reaches.run (.start rfl) ⟨rfl, trivial, trivial, trivial, trivial⟩, ?_⟩
  · have hpassed : ReachedPool .standard openSources passedPool :=
      Reaches.run (.start rfl)
        ⟨rfl, trivial, rfl, trivial, trivial, rfl, trivial, trivial, trivial, trivial, trivial⟩
    have hrecorded : ReachedPool .standard openSources recordedPool :=
      hpassed.run ⟨rfl, trivial, trivial, trivial, trivial, trivial⟩
    have hexported : ReachedPool .standard openSources exportedPool :=
      hrecorded.run ⟨trivial, trivial, trivial⟩
    exact hexported.run ⟨rfl, trivial, trivial, trivial, trivial⟩
  · rw [submittedPool, exportedPool_eq]
    decide +kernel

end Golavo.Corrections
