import Golavo.Corrections.Orderly
import Golavo.Corrections.Validation
import Golavo.Lib.JsonRoundTrip
import Golavo.Lib.Runs

/-! # Verdicts the store accepts

A validation stores its verdict when the verdict is one the store accepts. The verdict on a proposal with
nothing to show, neither evidence nor a conflict, is its own draft state, which the store does not
accept; so `validate` goes through exactly for the other proposals (`validate_stores_iff`). -/

namespace Golavo.Corrections

open Golavo.Lib (Json Pool Move Reaches failIf bind_ok_iff check_bind_ok_iff failIf_ok_iff orFail_ok_iff
  wrapError_ok_iff exists_mapM_ok_iff)
open Golavo.Lib.Fields (getField)
open Golavo.Ledger (Runtime)

variable {rt : Runtime} {reg : Registry} {host : ValidationHost} {allowed : String → List String}
  {around : Surroundings} {root : Root}

/-! ## Applying a verdict -/

/-- A proposal that was found stands where it was found. -/
theorem locate_ok {proposalId : String} {ns : Namespace} {row : Proposal}
    (h : locate root proposalId = .ok (ns, row)) :
    (root ns).find proposalId = some row ∧ row ∈ (root ns).proposals ∧ row.proposalId = proposalId := by
  obtain ⟨-, h⟩ := check_bind_ok_iff.mp h
  obtain ⟨ns', -, hns⟩ := List.exists_of_findSome?_eq_some (orFail_ok_iff.mp h)
  obtain ⟨row', hfind, heq⟩ := Option.map_eq_some_iff.mp hns
  obtain ⟨rfl, rfl⟩ := Prod.mk.inj heq
  exact ⟨hfind, find_some hfind⟩

/-- What the event of a verdict tells. -/
def Verdict.payload (v : Verdict) : Json :=
  .mk ([("state", .str v.state.name), ("verification_level", .str v.verificationLevel)] ++ v.findings)

/-- The event that a verdict appends. -/
def validationEvent (rt : Runtime) (db : CorrectionDb) (row : Proposal) (v : Verdict) (now : String) :
    ProposalEvent :=
  eventAfter rt (db.latestEvent row.proposalId) row.proposalId v.eventType v.payload now

/-- The text an event's digest is of. -/
def ProposalEvent.digested (e : ProposalEvent) : List Char := Json.dumps e.material

theorem wf_material (e : ProposalEvent) : e.material.WF := by
  refine Json.wf_mk ?_
  intro field hfield
  simp only [List.mem_cons, List.not_mem_nil, or_false] at hfield
  rcases hfield with rfl | rfl | rfl | rfl | rfl | rfl | rfl
  all_goals first | trivial | (unfold textOrNull; split <;> trivial)

theorem get_material_proposalId (e : ProposalEvent) :
    e.material.get "proposal_id" = some (.str e.proposalId) := by
  simp [ProposalEvent.material, Json.get_mk, getField]

theorem get_material_sequence (e : ProposalEvent) :
    e.material.get "sequence" = some (.int e.sequence) := by
  simp [ProposalEvent.material, Json.get_mk, getField]

/-- Events with the same text belong to one proposal, at one place of its history. -/
theorem eq_of_digested {e e' : ProposalEvent} (h : e.digested = e'.digested) :
    e.proposalId = e'.proposalId ∧ e.sequence = e'.sequence := by
  have hmaterial := Json.dumps_injective (wf_material e) (wf_material e') h
  have hid := get_material_proposalId e
  have hsequence := get_material_sequence e
  rw [hmaterial, get_material_proposalId] at hid
  rw [hmaterial, get_material_sequence] at hsequence
  exact ⟨(Json.str.inj (Option.some.inj hid)).symm,
    Int.ofNat.inj (Json.int.inj (Option.some.inj hsequence)).symm⟩

/-- In a chain, the event of a verdict is numbered after the others, and its id is new where its text
shares its digest with no other. -/
theorem validationEvent_fresh {db : CorrectionDb} {row : Proposal} {v : Verdict} {now : String}
    (h : Chained rt db)
    (hdigest : ∀ e ∈ db.events,
      rt.sha256 e.digested = rt.sha256 (validationEvent rt db row v now).digested →
        e.digested = (validationEvent rt db row v now).digested) :
    (validationEvent rt db row v now).eventId ∉ db.events.map ProposalEvent.eventId ∧
      (validationEvent rt db row v now).sequence ∉
        (db.eventsOf row.proposalId).map ProposalEvent.sequence := by
  have hsequence : (validationEvent rt db row v now).sequence =
      (db.eventsOf row.proposalId).length + 1 := by
    change ((db.latestEvent row.proposalId).map ProposalEvent.sequence).getD 0 + 1 = _
    rw [h.latestEvent]
    congr 1
    have hlast := congrArg List.getLast? (h.sequences row.proposalId)
    rw [List.getLast?_map, List.getLast?_range'] at hlast
    rw [hlast]
    split_ifs with hnil
    · simp [hnil]
    · simp
  have hnumber : (validationEvent rt db row v now).sequence ∉
      (db.eventsOf row.proposalId).map ProposalEvent.sequence := by
    rw [h.sequences, hsequence, List.mem_range'_1]
    omega
  refine ⟨fun hmem => hnumber ?_, hnumber⟩
  obtain ⟨e, he, hid⟩ := List.mem_map.mp hmem
  have hof : e ∈ db.eventsOf e.proposalId := List.mem_filter.mpr ⟨he, decide_eq_true rfl⟩
  obtain ⟨pre, post, heq⟩ := List.append_of_mem hof
  have hcontinues : e = eventAfter rt pre.getLast? e.proposalId e.eventType e.payload e.recordedAtUtc :=
    h.linked e.proposalId pre e post heq
  have hown : e.eventId = "ce_" ++ rt.sha256 e.digested := by
    rw [hcontinues]
    rfl
  have hsame : "ce_" ++ rt.sha256 e.digested =
      "ce_" ++ rt.sha256 (validationEvent rt db row v now).digested := hown.symm.trans hid
  obtain ⟨hproposal, hplace⟩ := eq_of_digested (hdigest e he (String.append_right_inj _ |>.mp hsame))
  exact List.mem_map.mpr ⟨e, List.mem_filter.mpr ⟨he, decide_eq_true hproposal⟩, hplace⟩

/-- **A verdict is written** to a proposal of a chain. -/
theorem exists_writeValidation {db : CorrectionDb} {row : Proposal} {v : Verdict} {now : String}
    (h : Chained rt db) (hrow : row ∈ db.proposals)
    (hdigest : ∀ e ∈ db.events,
      rt.sha256 e.digested = rt.sha256 (validationEvent rt db row v now).digested →
        e.digested = (validationEvent rt db row v now).digested) :
    ∃ db', writeValidation rt db row v now = .ok db' := by
  obtain ⟨hid, hsequence⟩ := validationEvent_fresh h hdigest
  have hids : row.proposalId ∈ (db.update row.proposalId v.rule).proposals.map
      Proposal.proposalId := by
    simp only [CorrectionDb.update, List.map_map]
    refine List.mem_map.mpr ⟨row, hrow, ?_⟩
    simp [Verdict.rule]
  refine ⟨_, check_bind_ok_iff.mpr ⟨failIf_ok_iff.mpr ?_, rfl⟩⟩
  rintro (hmem | hmem | hmem)
  · exact hid hmem
  · exact hsequence hmem
  · exact hmem hids

/-- The row of a proposal after a verdict. -/
theorem find_wrote {db : CorrectionDb} {e : ProposalEvent} {f : Proposal → Proposal}
    {evidence : List Evidence} {exports : List ExportRecord} {row : Proposal}
    (hf : ∀ p, (f p).proposalId = p.proposalId) (h : db.find e.proposalId = some row) :
    (db.wrote e f evidence exports).find e.proposalId = some ((f row).headed e) := by
  have hid : row.proposalId = e.proposalId := (find_some h).2
  unfold CorrectionDb.find at h ⊢
  rw [CorrectionDb.wrote, List.find?_map]
  have hcongr : (fun p : Proposal => decide (p.proposalId = e.proposalId)) ∘
      (fun p => if p.proposalId = e.proposalId then (f p).headed e else p) =
        fun p => decide (p.proposalId = e.proposalId) := by
    funext p
    simp only [Function.comp_apply]
    split_ifs with hp
    · exact decide_eq_decide.mpr (by rw [← hf p]; rfl)
    · rfl
  rw [hcongr, h, Option.map_some, if_pos hid]

/-! ## Judging -/

/-- The types of correction whose precision is looked up. -/
def checksPrecision (correctionType : String) : Prop :=
  correctionType = "kickoff_time" ∨ correctionType = "missing_fixture"

/-- Fields are checked where a precision that is looked up can be. -/
theorem exists_typedReasons_iff (row : Proposal) : (∃ typed, typedReasons host row = .ok typed) ↔
    (checksPrecision row.correctionType →
      hashable (field row.proposed "kickoff_precision") = true) := by
  have hprecision : (∃ reasons, precisionReasons row.proposed = .ok reasons) ↔
      hashable (field row.proposed "kickoff_precision") = true := by
    simp only [precisionReasons, check_bind_ok_iff, failIf_ok_iff, not_not, exists_and_left]
    exact and_iff_left ⟨_, rfl⟩
  have hbind : ∀ f : List String → List String,
      (∃ typed, (precisionReasons row.proposed >>= fun precision => .ok (f precision)) = .ok typed) ↔
        hashable (field row.proposed "kickoff_precision") = true := by
    intro f
    rw [← hprecision]
    constructor
    · rintro ⟨_, h⟩
      obtain ⟨reasons, hreasons, -⟩ := bind_ok_iff.mp h
      exact ⟨reasons, hreasons⟩
    · rintro ⟨reasons, hreasons⟩
      exact ⟨_, bind_ok_iff.mpr ⟨reasons, hreasons, rfl⟩⟩
  unfold typedReasons checksPrecision
  split
  case h_1 h =>
    simp only [h, true_or, true_imp_iff]
    exact hbind _
  case h_5 h =>
    simp only [h, or_true, true_imp_iff]
    exact hbind _
  all_goals simp_all [pure, Except.pure]

/-- Whether the index has something against a proposal: for a missing fixture, a match; for another, no
match, or one whose values are not those the proposal was made for. -/
def IndexDiffers (row : Proposal) (current : Option Json) : Prop :=
  if row.correctionType = "missing_fixture" then current.isSome = true
  else ∀ c ∈ current, ∃ original, deriveOriginal row.correctionType c = .ok original ∧
    same (original.getD .null) (row.original.getD .null) = false

theorem exists_deriveOriginal {correctionType : String} (h : correctionType ∈ correctionTypes)
    (current : Json) : ∃ original, deriveOriginal correctionType current = .ok original := by
  unfold deriveOriginal
  simp only [correctionTypes, List.mem_cons, List.not_mem_nil, or_false] at h
  rcases h with rfl | rfl | rfl | rfl | rfl <;> exact ⟨_, rfl⟩

/-- The match is looked at, and is a conflict where the index differs. -/
theorem exists_matchConflicts {row : Proposal} (h : row.correctionType ∈ correctionTypes)
    (current : Option Json) : ∃ conflicts, matchConflicts row current = .ok conflicts ∧
      (conflicts ≠ [] ↔ IndexDiffers row current) := by
  unfold matchConflicts IndexDiffers
  by_cases htype : row.correctionType = "missing_fixture"
  · rw [if_neg (not_not.mpr htype), if_pos htype]
    cases current with
    | none => exact ⟨_, rfl, by simp⟩
    | some c => exact ⟨_, rfl, by simp⟩
  · rw [if_pos htype, if_neg htype]
    cases current with
    | none => exact ⟨_, rfl, by simp⟩
    | some c =>
        obtain ⟨original, horiginal⟩ := exists_deriveOriginal h c
        by_cases hsame : same (original.getD .null) (row.original.getD .null) = true
        · refine ⟨[], ?_, ?_⟩
          · simp [horiginal, hsame, bind, Except.bind, pure, Except.pure]
          · simp [horiginal, hsame]
        · refine ⟨_, by simp [horiginal, hsame, bind, Except.bind, pure, Except.pure]; rfl, ?_⟩
          simp [horiginal, hsame]

/-- The files of the evidence that is not redacted are what they were. -/
def Intact (host : ValidationHost) (around : Surroundings) (ns : Namespace) (held : List Evidence) :
    Prop :=
  ∀ e ∈ held, e.redacted = false →
    ∃ raw, around.files ns e.rawSha256 = some raw ∧ host.digest raw = e.rawSha256

theorem exists_rawEvidence_iff (ns : Namespace) (held : List Evidence) :
    (∃ raws, rawEvidence host around.files ns held = .ok raws) ↔ Intact host around ns held := by
  unfold rawEvidence Intact
  rw [exists_mapM_ok_iff]
  simp only [List.mem_filter, Bool.not_eq_true', and_imp]
  refine forall₂_congr fun e _ => forall_congr' fun _ => ?_
  simp only [bind_ok_iff, orFail_ok_iff, failIf_ok_iff, not_not, exists_const, pure, Except.pure,
    Except.ok.injEq]
  constructor
  · rintro ⟨_, raw, hraw, hdigest, -⟩
    exact ⟨raw, hraw, hdigest⟩
  · rintro ⟨raw, hraw, hdigest⟩
    exact ⟨_, raw, hraw, hdigest, rfl⟩

/-- Whether the captured files of a proposal are compared with a source snapshot. -/
def ComparesFiles (reg : Registry) (around : Surroundings) (row : Proposal) : Prop :=
  around.generation.isSome = true ∧
    ∃ policy, reg.policyFor row.sourceId = some policy ∧ policy.licenseNamespace = .coreCc0

theorem exists_snapshotEvidenceIds_iff (ns : Namespace) (row : Proposal) (held : List Evidence) :
    (∃ ids, snapshotEvidenceIds host reg around ns row held = .ok ids) ↔
      (ComparesFiles reg around row → Intact host around ns held) := by
  unfold snapshotEvidenceIds ComparesFiles
  cases hpolicy : reg.policyFor row.sourceId with
  | none => simp
  | some policy =>
      cases hgeneration : around.generation with
      | none => simp
      | some generation =>
          by_cases hcore : policy.licenseNamespace = .coreCc0
          · rw [← exists_rawEvidence_iff]
            simp only [hcore, ne_eq, not_true_eq_false, if_false, bind_ok_iff, Option.isSome_some,
              Option.some.injEq, true_and, exists_eq_left', true_imp_iff]
            constructor
            · rintro ⟨_, raws, hraws, -⟩
              exact ⟨raws, hraws⟩
            · rintro ⟨raws, hraws⟩
              exact ⟨_, raws, hraws, rfl⟩
          · simp [hcore]

/-- Whether nothing is amiss with a proposal, conflicts apart. -/
def Unobjectionable (host : ValidationHost) (reg : Registry) (allowed : String → List String)
    (row : Proposal) (held : List Evidence) : Prop :=
  typedReasons host row = .ok [] ∧ validateType reg allowed row.sourceId row.correctionType = none ∧
    ∃ e ∈ held, e.redacted = false

theorem foundReasons_eq_nil_iff {row : Proposal} {held : List Evidence} {typed : List String}
    (h : typedReasons host row = .ok typed) :
    foundReasons reg allowed row held typed = [] ↔ Unobjectionable host reg allowed row held := by
  unfold foundReasons reasonIf Unobjectionable
  rw [h, Except.ok.injEq, List.append_eq_nil_iff, List.append_eq_nil_iff, and_assoc]
  refine and_congr_right fun _ => and_congr Option.toList_eq_nil_iff ?_
  split_ifs with hall
  · simpa [List.all_eq_true] using hall
  · simpa [List.all_eq_true] using hall

/-- **What the verdict says of a state.** -/
theorem verdictOf_accepted_iff {reasons : List String} {conflicts : List Json} {held : List Evidence}
    {ids : List String} (h : held = [] → reasons ≠ []) :
    (verdictOf reasons conflicts held ids).state ∈
        [ProposalState.validatedCandidate, .conflict, .evidenceAttached] ↔
      held ≠ [] ∨ conflicts ≠ [] := by
  unfold verdictOf
  by_cases hconflicts : conflicts = []
  · rw [if_neg (not_not.mpr hconflicts)]
    by_cases hheld : held = []
    · rw [if_pos (h hheld)]
      simp [hheld, hconflicts]
    · by_cases hreasons : reasons = []
      · simp [hheld, hreasons]
      · simp [hheld, hreasons]
  · rw [if_pos hconflicts]
    simp [hconflicts]

/-! ## Validations that go through -/

/-- What a proposal must be for its validation to store a verdict. -/
structure Judgeable (host : ValidationHost) (reg : Registry) (allowed : String → List String)
    (around : Surroundings) (root : Root) (ns : Namespace) (row : Proposal) : Prop where
  /-- A kickoff's precision is no list and no object. -/
  precision : checksPrecision row.correctionType →
    hashable (field row.proposed "kickoff_precision") = true
  /-- There is evidence, or something to conflict with. -/
  grounds : (root ns).evidenceOf row.proposalId ≠ [] ∨ IndexDiffers row around.current ∨
    ∃ other, ∃ p ∈ (root other).proposals, competes row p = true
  /-- The captured files are there, where they are looked at. -/
  files : Unobjectionable host reg allowed row ((root ns).evidenceOf row.proposalId) →
    ComparesFiles reg around row → Intact host around ns ((root ns).evidenceOf row.proposalId)

theorem competingProposals_eq_nil_iff (row : Proposal) : competingProposals root row = [] ↔
    ¬ ∃ other, ∃ p ∈ (root other).proposals, competes row p = true := by
  rw [List.eq_nil_iff_forall_not_mem]
  simp only [competingProposals, List.mem_insertionSort, List.mem_flatMap, List.mem_filter]
  constructor
  · rintro h ⟨other, p, hp, hcompetes⟩
    exact h p ⟨other, mem_knownNamespaces other, hp, hcompetes⟩
  · rintro h p ⟨other, -, hp, hcompetes⟩
    exact h ⟨other, p, hp, hcompetes⟩

/-- **The verdict on a proposal** is one the store accepts where the proposal is judgeable. -/
theorem judge_accepted_iff {ns : Namespace} {row : Proposal}
    (hknown : row.correctionType ∈ correctionTypes) :
    (∃ v, judge host reg allowed around root ns row = .ok v ∧
      v.state ∈ [ProposalState.validatedCandidate, .conflict, .evidenceAttached]) ↔
      Judgeable host reg allowed around root ns row := by
  obtain ⟨byMatch, hmatch, hdiffers⟩ := exists_matchConflicts hknown around.current
  have hconflicts : byMatch ++ (competingProposals root row).map competingConflict ≠ [] ↔
      IndexDiffers row around.current ∨
        ∃ other, ∃ p ∈ (root other).proposals, competes row p = true := by
    rw [← hdiffers, ne_eq, List.append_eq_nil_iff, List.map_eq_nil_iff,
      competingProposals_eq_nil_iff, not_and_or, not_not]
  have hreasons : ∀ typed, (root ns).evidenceOf row.proposalId = [] →
      foundReasons reg allowed row ((root ns).evidenceOf row.proposalId) typed ≠ [] := by
    intro typed hheld
    simp [foundReasons, reasonIf, hheld]
  constructor
  · rintro ⟨v, hjudge, hstate⟩
    obtain ⟨typed, htyped, hjudge⟩ := bind_ok_iff.mp hjudge
    obtain ⟨byMatch', hmatch', hjudge⟩ := bind_ok_iff.mp hjudge
    obtain rfl := Except.ok.inj (hmatch.symm.trans hmatch')
    obtain ⟨ids, hids, hjudge⟩ := bind_ok_iff.mp hjudge
    obtain rfl := Except.ok.inj hjudge
    rw [verdictOf_accepted_iff (hreasons typed), hconflicts] at hstate
    refine ⟨(exists_typedReasons_iff row).mp ⟨typed, htyped⟩, hstate, fun hclean => ?_⟩
    rw [verifiedIds, if_pos ((foundReasons_eq_nil_iff htyped).mpr hclean)] at hids
    exact (exists_snapshotEvidenceIds_iff ns row _).mp ⟨ids, wrapError_ok_iff.mp hids⟩
  · rintro ⟨hprecision, hgrounds, hfiles⟩
    obtain ⟨typed, htyped⟩ := (@exists_typedReasons_iff host row).mpr hprecision
    obtain ⟨ids, hids⟩ : ∃ ids, verifiedIds host reg around ns row
        ((root ns).evidenceOf row.proposalId)
        (foundReasons reg allowed row ((root ns).evidenceOf row.proposalId) typed) = .ok ids := by
      unfold verifiedIds
      by_cases hclean : foundReasons reg allowed row ((root ns).evidenceOf row.proposalId) typed = []
      · obtain ⟨ids, hids⟩ := (@exists_snapshotEvidenceIds_iff _ host _ ns row _).mpr
          (hfiles ((foundReasons_eq_nil_iff htyped).mp hclean))
        exact ⟨ids, by rw [if_pos hclean, wrapError_ok_iff, hids]⟩
      · exact ⟨[], by rw [if_neg hclean]⟩
    refine ⟨_, bind_ok_iff.mpr ⟨typed, htyped, bind_ok_iff.mpr ⟨byMatch, hmatch,
      bind_ok_iff.mpr ⟨ids, hids, rfl⟩⟩⟩, ?_⟩
    rw [verdictOf_accepted_iff (hreasons typed), hconflicts]
    exact hgrounds

/-- A validation that goes through leaves the verdict and its findings on the proposal, in a state the
store accepts. -/
def StoresVerdict (rt : Runtime) (host : ValidationHost) (reg : Registry)
    (allowed : String → List String) (around : Surroundings) (root : Root) (proposalId now : String) :
    Prop :=
  ∃ ns db p, ∃ v : Verdict, validate host rt reg allowed around root proposalId now = .ok (ns, db) ∧
    db.find proposalId = some p ∧ p.state = v.state ∧ p.verificationLevel = v.verificationLevel ∧
      p.validation = .mk v.findings ∧
        v.state ∈ [ProposalState.validatedCandidate, .conflict, .evidenceAttached]

/-- **When a validation stores a verdict.** In every store reached, validating a proposal in an editable
state stores a verdict exactly when the proposal is judgeable: a kickoff's precision can be looked up,
there is evidence or a conflict, and the captured files are there where they are looked at. -/
theorem validate_stores_iff {s : CorrectionPool} (h : ReachedPool rt reg s) {proposalId : String}
    {ns : Namespace} {row : Proposal} (hrow : locate s.store proposalId = .ok (ns, row))
    (heditable : row.state ∈ editableStates) (hknown : row.correctionType ∈ correctionTypes)
    (now : String)
    (hdigest : ∀ v, judge host reg allowed around s.store ns row = .ok v →
      ∀ e ∈ (s.store ns).events,
        rt.sha256 e.digested = rt.sha256 (validationEvent rt (s.store ns) row v now).digested →
          e.digested = (validationEvent rt (s.store ns) row v now).digested) :
    StoresVerdict rt host reg allowed around s.store proposalId now ↔
      Judgeable host reg allowed around s.store ns row := by
  obtain ⟨hfind, hmem, rfl⟩ := locate_ok hrow
  have hclosed : row.state ∉ closedStates := by
    revert heditable
    cases row.state <;> decide
  rw [← judge_accepted_iff hknown]
  constructor
  · rintro ⟨ns', db, p, v, hvalidate, -, -, -, -, -⟩
    obtain ⟨seen, hseen, hvalidate⟩ := bind_ok_iff.mp hvalidate
    obtain rfl := Except.ok.inj (hrow.symm.trans (wrapError_ok_iff.mp hseen))
    obtain ⟨verdict, hjudge, hvalidate⟩ := bind_ok_iff.mp hvalidate
    obtain ⟨found, hfound, hvalidate⟩ := bind_ok_iff.mp hvalidate
    obtain ⟨hcheck, -⟩ := check_bind_ok_iff.mp hvalidate
    obtain ⟨-, hcheck⟩ := check_bind_ok_iff.mp (wrapError_ok_iff.mp hcheck)
    obtain ⟨-, hcheck⟩ := check_bind_ok_iff.mp hcheck
    exact ⟨verdict, hjudge, not_not.mp (failIf_ok_iff.mp hcheck)⟩
  · rintro ⟨v, hjudge, hstate⟩
    obtain ⟨db, hwrite⟩ := @exists_writeValidation _ _ _ _ now (h.chained ns) hmem
      (hdigest v hjudge)
    have hcheck : checkValidation row row.headEventId v = .ok () := by
      refine check_bind_ok_iff.mpr ⟨failIf_ok_iff.mpr fun hc => hc.2 rfl, ?_⟩
      exact check_bind_ok_iff.mpr ⟨failIf_ok_iff.mpr hclosed, failIf_ok_iff.mpr (not_not.mpr hstate)⟩
    obtain ⟨e, he, hid, -, hdb⟩ := writeValidation_ok hwrite
    have hafter : db.find row.proposalId = some ((v.rule row).headed e) := by
      rw [hdb, ← hid]
      exact find_wrote (fun _ => rfl) (hid ▸ hfind)
    refine ⟨ns, db, _, v, ?_, hafter, rfl, rfl, rfl, hstate⟩
    simp only [validate, hrow, hjudge, hcheck, hwrite, Lib.wrapError, bind, Except.bind, pure,
      Except.pure]

deriving instance DecidableEq for Verdict

/-- The creation of a proposal to add a fixture. -/
def fixtureCreation : CreateRequest where
  correctionType := "missing_fixture"
  target := .mk [("kind", .str "fixture_candidate"), ("match_id", .null)]
  original := none
  proposed := .mk [("home_team", .str "Ghana"), ("away_team", .str "Japan"),
    ("competition", .str "Friendly"), ("kickoff_utc", .str "2026-07-01T19:00:00+00:00"),
    ("kickoff_precision", .str "minute"), ("upstream_record_key", .str "f1")]
  sourceId := some "feed"
  newId := "cp_00000000000000000000000000000001"
  now := "2026-07-01T00:00:00Z"
  generationCommit := none

/-- The pool after the creation. -/
def fixturePool : CorrectionPool :=
  [Move.arrive (.create fixtureCreation), .advance 0].foldl
    (Pool.move (Task.act .standard noSources)) (.of emptyRoot)

theorem reachedPool_fixturePool : ReachedPool .standard noSources fixturePool :=
  Reaches.run (.start rfl) ⟨rfl, trivial, trivial⟩

/-- The tables of ASCII, and a reader that knows the kickoff of the proposal. -/
def plainHost : ValidationHost where
  toUnicode := Unicode.ascii
  readsAware s := s = "2026-07-01T19:00:00+00:00".toList
  text value := match value with
    | .str s => s
    | _ => ""
  digest _ := ""

/-- Nothing but a match the index may have. -/
def bareSurroundings (current : Option Json) : Surroundings := ⟨current, none, fun _ _ => none⟩

/-- The proposal as the creation leaves it. -/
def fixtureRow : Proposal :=
  (newProposal .standard .quarantineUnknown fixtureCreation).headed
    (eventAfter .standard none fixtureCreation.newId .created
      (createdPayload .quarantineUnknown fixtureCreation) fixtureCreation.now)

theorem locate_fixturePool : locate fixturePool.store fixtureCreation.newId =
    .ok (.quarantineUnknown, fixtureRow) := by
  rfl

/-- The index with the fixture, by now. -/
def fixtureIndexed : Surroundings := bareSurroundings (some (.mk [("match_id", .str "m1")]))

/-- What a validation finds then. -/
def fixtureVerdict : Verdict where
  state := .conflict
  verificationLevel := "structural_only"
  reasonCodes := ["conflict_fails_closed", "source_unregistered",
    "source_url_and_captured_evidence_required"]
  conflicts := [.mk [("reason_code", .str "authoritative_fixture_already_exists"),
    ("match_id", .str "m1")]]
  snapshotEvidenceIds := []

/-- The conflict with a fixture the index has by now is stored. -/
theorem validate_stores_fixturePool :
    StoresVerdict .standard plainHost noSources (fun _ => []) fixtureIndexed fixturePool.store
      fixtureCreation.newId "2026-07-01T00:00:01Z" := by
  refine (validate_stores_iff reachedPool_fixturePool locate_fixturePool (by decide) (by decide)
    "2026-07-01T00:00:01Z" fun v hv => ?_).mpr ⟨fun _ => by decide +kernel, ?_, ?_⟩
  · have hjudge : judge plainHost noSources (fun _ => []) fixtureIndexed fixturePool.store
        .quarantineUnknown fixtureRow = .ok fixtureVerdict := by decide +kernel
    obtain rfl := Except.ok.inj (hjudge.symm.trans hv)
    decide +kernel
  · exact .inr (.inl rfl)
  · rintro ⟨-, hsource, -⟩
    exact nomatch hsource

/-- **A draft without evidence has no verdict the store accepts.** The proposal is in an editable state,
and validating it raises. -/
theorem validate_draft_raises :
    ReachedPool .standard noSources fixturePool ∧
      locate fixturePool.store fixtureCreation.newId = .ok (.quarantineUnknown, fixtureRow) ∧
      fixtureRow.state ∈ editableStates ∧ fixtureRow.correctionType ∈ correctionTypes ∧
      validate plainHost .standard noSources (fun _ => []) (bareSurroundings none) fixturePool.store
        fixtureCreation.newId "2026-07-01T00:00:01Z" = .error (.store .invalidValidationState) :=
  ⟨reachedPool_fixturePool, locate_fixturePool, by decide, by decide, by decide +kernel⟩

end Golavo.Corrections
