import Golavo.Refresh.SourceRuns

/-! # A quarantined ref is not built again

After a run ended in a conflict, as long as a source whose new ref it quarantined stays at that ref,
no later run builds or activates anything: an invariant of the state file, kept by every check. -/

namespace Golavo.Refresh

open Golavo.Lib

/-! ## What one check does -/

/-- A check observes its own source, at the ref its answer stands for. -/
theorem readCommit_of_checkSource {season sourceId : String} {previous : SourceState}
    {answer : Answer} {o : Observation} (h : checkSource season sourceId previous answer = some o) :
    o.sourceId = sourceId ∧ readCommit previous answer.commit = some (o.ref, o.changed) := by
  unfold checkSource at h
  simp only [Option.bind_eq_bind, Option.bind_eq_some_iff, Option.some.injEq] at h
  obtain ⟨⟨ref, changed⟩, hcommit, paths, -, rfl⟩ := h
  exact ⟨rfl, hcommit⟩

/-- Whether an answer is about a ref already known, or no answer. -/
def CommitAnswer.staysAt (ref : String) : CommitAnswer → Prop
  | .commit other => other = ref
  | _ => True

/-- A ref that is read is a full hash. -/
theorem isSha_of_readCommit {previous : SourceState} {answer : CommitAnswer} {ref : String}
    {changed : Bool} (h : readCommit previous answer = some (ref, changed)) : isSha ref := by
  cases answer with
  | notModified =>
      simp only [readCommit, Option.ite_none_right_eq_some, Option.some.injEq, Prod.mk.injEq] at h
      obtain ⟨hsha, rfl, -⟩ := h
      exact hsha
  | commit other =>
      simp only [readCommit, Option.ite_none_right_eq_some, Option.some.injEq, Prod.mk.injEq] at h
      obtain ⟨hsha, rfl, -⟩ := h
      exact hsha
  | failed => simp only [readCommit, reduceCtorEq] at h

/-- Where upstream stays at the saved ref, that is what is read. -/
theorem readCommit_of_staysAt {previous : SourceState} {answer : CommitAnswer} {ref : String}
    {changed : Bool} (hstay : answer.staysAt previous.savedRef)
    (h : readCommit previous answer = some (ref, changed)) : ref = previous.savedRef := by
  cases answer with
  | notModified =>
      simp only [readCommit, Option.ite_none_right_eq_some, Option.some.injEq, Prod.mk.injEq] at h
      exact h.2.1.symm
  | commit other =>
      simp only [readCommit, Option.ite_none_right_eq_some, Option.some.injEq, Prod.mk.injEq] at h
      rw [← h.2.1]
      exact hstay
  | failed => simp only [readCommit, reduceCtorEq] at h

theorem ne_empty_of_isSha {ref : String} (h : isSha ref) : ref ≠ "" := by
  rintro rfl
  simp [isSha] at h

theorem length_of_isSha {ref : String} (h : isSha ref) : ref.length = 40 := by
  simp only [isSha, Bool.and_eq_true, beq_iff_eq] at h
  exact h.1

@[simp] theorem sourceSuccess_self (sources : String → SourceState) (o : Observation) :
    sourceSuccess sources o o.sourceId =
      ⟨some o.ref, (sources o.sourceId).activeRef,
        if (sources o.sourceId).quarantinedRef = some o.ref then some o.ref else none, o.season,
        o.currentPaths⟩ := by
  simp only [sourceSuccess, Function.update_self]

theorem sourceSuccess_of_ne (sources : String → SourceState) {o : Observation} {q : String}
    (h : o.sourceId ≠ q) : sourceSuccess sources o q = sources q := by
  simp only [sourceSuccess, Function.update_of_ne h.symm]

/-! ## The invariant -/

/-- A source quarantined at the ref it was last observed at. -/
structure QuarantinedAt (ref : String) (s : SourceState) : Prop where
  quarantined : s.quarantinedRef = some ref
  observed : s.observedRef = some ref
  sha : isSha ref

/-- Such a source is compared with that ref. -/
theorem QuarantinedAt.savedRef {ref : String} {s : SourceState} (h : QuarantinedAt ref s) :
    s.savedRef = ref := by
  unfold SourceState.savedRef
  rw [h.observed]
  exact if_neg (ne_empty_of_isSha h.sha)

/-- The checks of a run under way that keep a source quarantined: it was seen at no other ref. -/
structure KeepsAt (q ref : String) (c : Checks) : Prop where
  source : QuarantinedAt ref (c.sources q)
  seen : ∀ o ∈ c.observations, o.sourceId = q → o.ref = ref

/-- An observation keeps a source quarantined unless it is one of that source at another ref. -/
theorem KeepsAt.succeed {q ref : String} {c : Checks} (h : KeepsAt q ref c) {o : Observation}
    (ho : o.sourceId = q → o.ref = ref) : KeepsAt q ref (c.succeed o) := by
  constructor
  · by_cases hq : o.sourceId = q
    · obtain rfl := ho hq
      subst hq
      refine ⟨?_, ?_, h.source.sha⟩
      · simp only [Checks.succeed, sourceSuccess_self, if_pos h.source.quarantined]
      · simp only [Checks.succeed, sourceSuccess_self]
    · simp only [Checks.succeed, sourceSuccess_of_ne _ hq]
      exact h.source
  · intro o' ho'
    rcases List.mem_append.mp ho' with hmem | hlast
    · exact h.seen o' hmem
    · rw [List.mem_singleton.mp hlast]
      exact ho

/-- What upstream answers about one source during a run stays at a ref. -/
def SourceRun.StaysAt (q ref : String) (input : SourceRun) : Prop :=
  ∀ second, (input.answer second q).commit.staysAt ref

/-- A check while upstream stays at the quarantined ref finds that ref. -/
theorem KeepsAt.ref_of_checkSource {q ref : String} {c : Checks} (h : KeepsAt q ref c)
    {season sourceId : String} {answer : Answer} {o : Observation}
    (hstay : sourceId = q → answer.commit.staysAt ref)
    (hcheck : checkSource season sourceId (c.sources sourceId) answer = some o) :
    o.sourceId = q → o.ref = ref := by
  obtain ⟨rfl, hread⟩ := readCommit_of_checkSource hcheck
  rintro rfl
  rw [← h.source.savedRef] at hstay ⊢
  exact readCommit_of_staysAt (hstay rfl) hread

/-- The first loop keeps a source quarantined. -/
theorem KeepsAt.observeSelected {q ref : String} {input : SourceRun}
    (hstay : input.StaysAt q ref) {c : Checks} (h : KeepsAt q ref c) (sourceId : String) :
    KeepsAt q ref (observeSelected input c sourceId) := by
  unfold Refresh.observeSelected
  dsimp only
  split
  · split
    · next o hcheck =>
        refine h.succeed (h.ref_of_checkSource ?_ hcheck)
        rintro rfl
        exact hstay false
    · exact h
  · split
    · next o hsaved =>
        refine ⟨h.source, fun o' ho' hq => ?_⟩
        rcases List.mem_append.mp ho' with hmem | hlast
        · exact h.seen o' hmem hq
        · rw [List.mem_singleton.mp hlast] at hq ⊢
          simp only [sourceFromState, Option.ite_none_right_eq_some, Option.some.injEq] at hsaved
          obtain ⟨-, rfl⟩ := hsaved
          subst hq
          exact h.source.savedRef
    · exact h

/-- So does the second. -/
theorem KeepsAt.observeDependencies {q ref : String} {input : SourceRun}
    (hstay : input.StaysAt q ref) {c : Checks} (h : KeepsAt q ref c) (dependencies : List String) :
    KeepsAt q ref (observeDependencies input c dependencies).1 := by
  induction dependencies generalizing c with
  | nil => exact h
  | cons dependency rest ih =>
      rw [Refresh.observeDependencies]
      split
      · exact ih h
      · split
        · next o hcheck =>
            refine ih (h.succeed (h.ref_of_checkSource ?_ hcheck))
            rintro rfl
            exact hstay true
        · exact h

/-- A source observed stays observed. -/
theorem observed_observeDependencies {input : SourceRun} {c : Checks} {sourceId : String}
    (h : c.observed sourceId) (dependencies : List String) :
    (observeDependencies input c dependencies).1.observed sourceId := by
  induction dependencies generalizing c with
  | nil => exact h
  | cons dependency rest ih =>
      rw [observeDependencies]
      split
      · exact ih h
      · split
        · refine ih ?_
          simp only [Checks.observed, Checks.succeed, List.any_append, Bool.or_eq_true]
          exact Or.inl h
        · exact h

/-- When the second loop ends, every source it went over was observed. -/
theorem observed_of_observeDependencies {input : SourceRun} {c : Checks}
    {dependencies : List String} (hend : (observeDependencies input c dependencies).2 = none)
    {sourceId : String} (hmem : sourceId ∈ dependencies) :
    (observeDependencies input c dependencies).1.observed sourceId := by
  induction dependencies generalizing c with
  | nil => simp only [List.not_mem_nil] at hmem
  | cons dependency rest ih =>
      rw [observeDependencies] at hend ⊢
      split at hend
      · next hseen =>
          rw [if_pos hseen]
          rcases List.mem_cons.mp hmem with rfl | hrest
          · exact observed_observeDependencies hseen rest
          · exact ih hend hrest
      · next hnew =>
          rw [if_neg hnew]
          split at hend
          · next o hcheck =>
              rcases List.mem_cons.mp hmem with rfl | hrest
              · refine observed_observeDependencies ?_ rest
                obtain ⟨hid, -⟩ := readCommit_of_checkSource hcheck
                simp only [Checks.observed, Checks.succeed, List.any_append, List.any_cons, hid,
                  beq_self_eq_true, Bool.true_or, Bool.or_true]
              · exact ih hend hrest
          · simp only [reduceCtorEq] at hend

/-- The second loop fails at a source one of whose checks found nothing. -/
theorem fails_of_observeDependencies {input : SourceRun} {c : Checks}
    {dependencies : List String} {sourceId : String}
    (hend : (observeDependencies input c dependencies).2 = some sourceId) :
    ∃ previous, checkSource input.season sourceId previous (input.answer true sourceId) = none := by
  induction dependencies generalizing c with
  | nil => simp only [observeDependencies, reduceCtorEq] at hend
  | cons dependency rest ih =>
      rw [observeDependencies] at hend
      split at hend
      · exact ih hend
      · split at hend
        · exact ih hend
        · next hcheck =>
            obtain rfl := Option.some.inj hend
            exact ⟨_, hcheck⟩

/-- A source observed at its quarantined ref blocks the run. -/
theorem KeepsAt.mem_blocked {q ref : String} {c : Checks} (h : KeepsAt q ref c)
    (hobs : c.observed q) : q ∈ blocked c := by
  simp only [Checks.observed, List.any_eq_true, beq_iff_eq] at hobs
  obtain ⟨o, ho, hq⟩ := hobs
  refine List.mem_map.mpr ⟨o, List.mem_filter.mpr ⟨ho, ?_⟩, hq⟩
  rw [hq, h.source.quarantined, h.seen o ho hq]
  exact decide_eq_true rfl

/-! ## One run -/

/-- How a run may end while a source is quarantined. -/
def EndsUnbuilt (q : String) (input : SourceRun) : RunEnd → Prop
  | .quarantined sources => q ∈ sources
  | .refused => input.startable = false
  | .cancelled => input.cancelled
  | .checked _ => input.checkOnly
  | .unchanged => input.followed
  | .sourceFailed sourceId =>
      ∃ previous, checkSource input.season sourceId previous (input.answer true sourceId) = none
  | _ => False

/-- The first loop as a whole keeps a source quarantined. -/
theorem keepsAt_firstChecks {q ref : String} {w : SourceWorld} {input : SourceRun}
    (hw : QuarantinedAt ref (w.sources q)) (hstay : input.StaysAt q ref) :
    KeepsAt q ref (w.firstChecks input) := by
  refine @foldl_invariant _ _ _ (fun _ c => KeepsAt q ref c) ?_ input.selected _ ?_
  · intro sourceId _ c hc
    exact hc.observeSelected hstay sourceId
  · exact ⟨hw, fun o ho => absurd ho List.not_mem_nil⟩

/-- **A run over a quarantined source** keeps it quarantined, leaves the active generation alone and
ends before any build. -/
theorem run_of_quarantinedAt {q ref : String} {w : SourceWorld} {input : SourceRun}
    (happroved : q ∈ approvedSourceIds) (hw : QuarantinedAt ref (w.sources q))
    (hstay : input.StaysAt q ref) :
    QuarantinedAt ref ((w.run input).1.sources q) ∧ (w.run input).1.activeRefs = w.activeRefs ∧
      EndsUnbuilt q input (w.run input).2 := by
  have hfirst := keepsAt_firstChecks hw hstay
  unfold SourceWorld.run
  dsimp only
  split_ifs with hstart hcancel hcheck hfollowed
  · exact ⟨hw, rfl, (Bool.not_eq_true' _).mp hstart⟩
  · exact ⟨hfirst.source, rfl, hcancel⟩
  · exact ⟨hfirst.source, rfl, hcheck⟩
  · simp only [Bool.and_eq_true] at hfollowed
    exact ⟨hfirst.source, rfl, hfollowed.1.1⟩
  · have hall := hfirst.observeDependencies hstay approvedSourceIds
    unfold SourceWorld.refresh SourceWorld.allChecks
    rcases hchecks : observeDependencies input (w.firstChecks input) approvedSourceIds with
      ⟨c, failed⟩
    rw [hchecks] at hall
    cases failed with
    | some sourceId =>
        exact ⟨hall.source, rfl, fails_of_observeDependencies (congrArg Prod.snd hchecks)⟩
    | none =>
        have hobs : c.observed q := by
          have := observed_of_observeDependencies (congrArg Prod.snd hchecks) happroved
          rwa [hchecks] at this
        have hmem := hall.mem_blocked hobs
        dsimp only
        rw [if_pos (List.ne_nil_of_mem hmem)]
        exact ⟨hall.source, rfl, (List.mem_insertionSort _).mpr hmem⟩

/-- Between runs, a rollback leaves the observed and quarantined refs alone. -/
theorem quarantinedAt_syncState {q ref : String} {sources : String → SourceState}
    (h : QuarantinedAt ref (sources q)) (refs : String → Option String) :
    QuarantinedAt ref (syncState sources refs q) := by
  unfold syncState
  split_ifs
  · exact ⟨h.quarantined, h.observed, h.sha⟩
  · exact h

/-- An action during which upstream stays at a ref. -/
def SourceAction.StaysAt (q ref : String) : SourceAction → Prop
  | .run input => input.StaysAt q ref
  | .rollback _ => True

/-- **The run lemma**: a source stays quarantined as long as upstream stays at its ref. -/
theorem quarantinedAt_run {q ref : String} (happroved : q ∈ approvedSourceIds)
    {actions : List SourceAction} {w : SourceWorld} (hw : QuarantinedAt ref (w.sources q))
    (hstay : ∀ a ∈ actions, a.StaysAt q ref) :
    QuarantinedAt ref ((actions.foldl SourceWorld.act w).sources q) := by
  induction actions generalizing w with
  | nil => exact hw
  | cons a rest ih =>
      refine ih ?_ fun b hb => hstay b (List.mem_cons_of_mem _ hb)
      have ha := hstay a List.mem_cons_self
      cases a with
      | run input => exact (run_of_quarantinedAt happroved hw ha).1
      | rollback refs => exact quarantinedAt_syncState hw refs

/-! ## The conflict -/

/-- The checks of a run so far, with the sources still to be checked in its loop: a ref that changed
is the one observed, and its source is not checked again. -/
structure Fresh (remaining : List String) (c : Checks) : Prop where
  nodup : remaining.Nodup
  approved : ∀ sourceId ∈ remaining, sourceId ∈ approvedSourceIds
  observed : ∀ o ∈ c.observations, o.changed → (c.sources o.sourceId).observedRef = some o.ref ∧
    isSha o.ref ∧ o.sourceId ∈ approvedSourceIds
  once : ∀ o ∈ c.observations, o.sourceId ∉ remaining

/-- A source observed for the first time. -/
theorem observed_succeed {c : Checks} {o : Observation} (hnew : c.observed o.sourceId = false)
    (hsha : isSha o.ref) (happroved : o.sourceId ∈ approvedSourceIds)
    (h : ∀ o ∈ c.observations, o.changed → (c.sources o.sourceId).observedRef = some o.ref ∧
      isSha o.ref ∧ o.sourceId ∈ approvedSourceIds) :
    ∀ o' ∈ (c.succeed o).observations, o'.changed →
      ((c.succeed o).sources o'.sourceId).observedRef = some o'.ref ∧ isSha o'.ref ∧
        o'.sourceId ∈ approvedSourceIds := by
  intro o' ho' hchanged
  rcases List.mem_append.mp ho' with hmem | hlast
  · have hne : o.sourceId ≠ o'.sourceId := by
      intro heq
      simp only [Checks.observed, List.any_eq_false, beq_iff_eq] at hnew
      exact hnew o' hmem heq.symm
    simp only [Checks.succeed, sourceSuccess_of_ne _ hne]
    exact h o' hmem hchanged
  · rw [List.mem_singleton.mp hlast]
    exact ⟨by simp only [Checks.succeed, sourceSuccess_self], hsha, happroved⟩

/-- The invariant of the first loop. -/
theorem fresh_observeSelected {input : SourceRun} {sourceId : String} {rest : List String}
    {c : Checks} (h : Fresh (sourceId :: rest) c) : Fresh rest (observeSelected input c sourceId) := by
  obtain ⟨hnot, hnodup⟩ := List.nodup_cons.mp h.nodup
  have happroved := h.approved sourceId List.mem_cons_self
  have hrest := fun s hs => h.approved s (List.mem_cons_of_mem sourceId hs)
  have honce := fun o ho hmem => h.once o ho (List.mem_cons_of_mem sourceId hmem)
  have hunseen : c.observed sourceId = false := by
    simp only [Checks.observed, List.any_eq_false, beq_iff_eq]
    rintro o ho rfl
    exact h.once o ho List.mem_cons_self
  have honce' : ∀ o : Observation, o.sourceId = sourceId →
      ∀ o' ∈ c.observations ++ [o], o'.sourceId ∉ rest := by
    intro o ho o' ho'
    rcases List.mem_append.mp ho' with hmem | hlast
    · exact honce o' hmem
    · rw [List.mem_singleton.mp hlast, ho]
      exact hnot
  unfold observeSelected
  dsimp only
  split
  · split
    · next o hcheck =>
        obtain ⟨rfl, hread⟩ := readCommit_of_checkSource hcheck
        exact ⟨hnodup, hrest,
          observed_succeed hunseen (isSha_of_readCommit hread) happroved h.observed, honce' o rfl⟩
    · exact ⟨hnodup, hrest, h.observed, honce⟩
  · split
    · next o hsaved =>
        simp only [sourceFromState, Option.ite_none_right_eq_some, Option.some.injEq] at hsaved
        obtain ⟨-, rfl⟩ := hsaved
        refine ⟨hnodup, hrest, fun o' ho' hchanged => ?_, honce' _ rfl⟩
        rcases List.mem_append.mp ho' with hmem | hlast
        · exact h.observed o' hmem hchanged
        · -- what the state file says is no change
          rw [List.mem_singleton.mp hlast] at hchanged
          exact absurd hchanged Bool.false_ne_true
    · exact ⟨hnodup, hrest, h.observed, honce⟩

/-- A ref that changed in the second loop, too, is the one observed. -/
theorem observed_of_changed_observeDependencies {input : SourceRun} {dependencies : List String}
    (happroved : ∀ sourceId ∈ dependencies, sourceId ∈ approvedSourceIds) {c : Checks}
    (h : ∀ o ∈ c.observations, o.changed → (c.sources o.sourceId).observedRef = some o.ref ∧
      isSha o.ref ∧ o.sourceId ∈ approvedSourceIds) :
    let c' := (observeDependencies input c dependencies).1
    ∀ o ∈ c'.observations, o.changed → (c'.sources o.sourceId).observedRef = some o.ref ∧
      isSha o.ref ∧ o.sourceId ∈ approvedSourceIds := by
  induction dependencies generalizing c with
  | nil => exact h
  | cons dependency rest ih =>
      have hrest := fun s hs => happroved s (List.mem_cons_of_mem dependency hs)
      rw [observeDependencies]
      split
      · exact ih hrest h
      · next hnew =>
          split
          · next o hcheck =>
              obtain ⟨hid, hread⟩ := readCommit_of_checkSource hcheck
              refine ih hrest (observed_succeed ?_ (isSha_of_readCommit hread) ?_ h)
              · rw [hid]
                exact (Bool.not_eq_true _).mp hnew
              · rw [hid]
                exact happroved dependency List.mem_cons_self
          · exact h

/-- The conflict handler keeps what was observed. -/
theorem quarantine_observedRef (observations : List Observation) (sources : String → SourceState)
    (q : String) : (quarantine sources observations q).observedRef = (sources q).observedRef := by
  induction observations generalizing sources with
  | nil => rfl
  | cons o rest ih =>
      rw [quarantine, List.foldl_cons, ← quarantine, ih]
      split_ifs
      · by_cases hq : q = o.sourceId
        · rw [hq, Function.update_self]
        · rw [Function.update_of_ne hq]
      · rfl

/-- The conflict handler quarantines a source at a ref that changed, if no other one did. -/
theorem quarantine_quarantinedRef {observations : List Observation} {q ref : String}
    (hseen : ∀ o ∈ observations, o.sourceId = q → o.changed → o.ref = ref)
    {sources : String → SourceState}
    (h : (sources q).quarantinedRef = some ref ∨
      ∃ o ∈ observations, o.sourceId = q ∧ o.changed) :
    (quarantine sources observations q).quarantinedRef = some ref := by
  induction observations generalizing sources with
  | nil =>
      rcases h with h | ⟨o, ho, -⟩
      · exact h
      · exact absurd ho List.not_mem_nil
  | cons o rest ih =>
      rw [quarantine, List.foldl_cons, ← quarantine]
      refine ih (fun o' ho' => hseen o' (List.mem_cons_of_mem _ ho')) ?_
      by_cases ho : o.sourceId = q ∧ o.changed
      · left
        rw [if_pos ho.2, ← ho.1, Function.update_self,
          hseen o List.mem_cons_self ho.1 ho.2]
      · rcases h with hnow | ⟨o', ho', hq, hchanged⟩
        · left
          split_ifs with hc
          · rw [Function.update_of_ne fun heq => ho ⟨heq.symm, hc⟩]
            exact hnow
          · exact hnow
        · right
          rcases List.mem_cons.mp ho' with rfl | hmem
          · exact absurd ⟨hq, hchanged⟩ ho
          · exact ⟨o', hmem, hq, hchanged⟩

/-- **A conflict quarantines** every source whose ref changed in the run. -/
theorem quarantinedAt_of_conflict {w : SourceWorld} {input : SourceRun}
    (hend : (w.run input).2 = .conflict) {o : Observation}
    (ho : o ∈ (w.allChecks input).1.observations) (hchanged : o.changed) :
    o.sourceId ∈ approvedSourceIds ∧ QuarantinedAt o.ref ((w.run input).1.sources o.sourceId) := by
  unfold SourceWorld.run at hend ⊢
  dsimp only at hend ⊢
  split_ifs at hend ⊢ with hstart
  unfold SourceWorld.refresh at hend ⊢
  rcases hchecks : w.allChecks input with ⟨c, failed⟩
  rw [hchecks] at hend ho
  cases failed with
  | some sourceId => simp only [reduceCtorEq] at hend
  | none =>
      dsimp only at hend ⊢
      split_ifs at hend ⊢
      cases hbuild : input.build with
      | conflict =>
          have hvalid : input.selected.Nodup ∧ ∀ s ∈ input.selected, s ∈ approvedSourceIds := by
            simp only [SourceRun.startable, Bool.not_eq_true', Bool.not_eq_false,
              Bool.and_eq_true, decide_eq_true_eq, List.all_eq_true] at hstart
            exact ⟨hstart.1.1.2, hstart.1.2⟩
          have hfirst : Fresh [] (w.firstChecks input) := by
            refine @foldl_invariant _ _ _ Fresh ?_ input.selected _ ?_
            · intro sourceId rest c hc
              exact fresh_observeSelected hc
            · exact ⟨hvalid.1, hvalid.2, fun o ho => absurd ho List.not_mem_nil,
                fun o ho => absurd ho List.not_mem_nil⟩
          have hall := @observed_of_changed_observeDependencies input approvedSourceIds (fun _ h => h)
            _ hfirst.observed
          have hc : (observeDependencies input (w.firstChecks input) approvedSourceIds).1 = c :=
            congrArg Prod.fst hchecks
          simp only [hc] at hall
          obtain ⟨hobs, hsha, happroved⟩ := hall o ho hchanged
          refine ⟨happroved, ?_, ?_, hsha⟩
          · refine quarantine_quarantinedRef (fun o' ho' hq hchanged' => ?_)
              (Or.inr ⟨o, ho, rfl, hchanged⟩)
            have := (hall o' ho' hchanged').1
            rw [hq, hobs] at this
            exact (Option.some.inj this).symm
          · simp only [SourceWorld.build, quarantine_observedRef]
            exact hobs
      | accepted => simp only [hbuild, SourceWorld.build, reduceCtorEq] at hend
      | failed => simp only [hbuild, SourceWorld.build, reduceCtorEq] at hend
      | cancelled => simp only [hbuild, SourceWorld.build, reduceCtorEq] at hend

/-- A ref of upstream. -/
def firstRef : String := "1111111111111111111111111111111111111111"

/-- A run over all sources, where upstream stands at one ref. -/
def fullRun (checkOnly : Bool) (build : BuildResult) : SourceRun :=
  ⟨checkOnly, false, approvedSourceIds, fun _ => true, "2025-26",
    fun _ _ => ⟨.commit firstRef, some []⟩, false, build⟩

/-- Nothing was checked or activated yet. -/
def unseenSources : SourceWorld := ⟨fun _ => .unseen, none⟩

end Golavo.Refresh
