import Golavo.Ledger.Calibration
import Golavo.Ledger.RoundTrip
import Golavo.Lib.Runs

/-! # Sound ledgers

A ledger is **sound** when every file holds a canonical artifact under its own id, every artifact is
a root or the successor a verdict makes of a root, and no root has two successors. A sound ledger's
calibration record can be read. -/

namespace Golavo.Ledger

open Golavo.Lib (Json Schema Directory orFail_ok_iff bind_ok_iff wrapError_ok_iff failIf_ok_iff
  mapM_eq_ok_iff mapM_eq_some_iff exists_forall₂)
open Golavo.Lib.Schema (accepts acceptsProperty get_of_required acceptsProperty_of_get)
open Golavo.Forecast (Triple Outcome)

/-! ## Files that hold artifacts -/

/-- A file holds a canonical artifact, valid and identified by the file's name. -/
structure Holds (rt : Runtime) (store : Store) (stem : String) (a : Json) : Prop where
  read : store.artifacts.read stem = some (Json.dumps a ++ ['\n'])
  wf : a.WF
  canonical : canonical a = some a
  valid : validateArtifact rt a = .ok ()
  identified : ∃ digest, Identified rt a stem digest

section Holds

variable {rt : Runtime} {store : Store} {stem : String} {a b : Json}

theorem Holds.loads (h : Holds rt store stem a) : Json.loads (Json.dumps a ++ ['\n']) = some a :=
  loads_canonicalBytes h.wf h.canonical

theorem Holds.readBack (h : Holds rt store stem a) : ReadBack a :=
  ⟨a, Json.dumps a, h.wf, by rw [canonicalBytes, h.canonical, Option.map_some], h.loads⟩

theorem Holds.get_id (h : Holds rt store stem a) : a.get "artifact_id" = some (.str stem) :=
  h.identified.choose_spec.artifact_id

theorem Holds.idOf (h : Holds rt store stem a) : idOf a = some stem :=
  h.identified.choose_spec.idOf

theorem Holds.verify (h : Holds rt store stem a) :
    verifyArtifactIntegrity rt a (some stem) = .ok a := by
  obtain ⟨digest, hident⟩ := h.identified
  exact verifyArtifactIntegrity_ok_iff.mpr ⟨rfl, h.valid, stem, digest, hident, by simp⟩

/-- What a file holds is loaded verified. -/
theorem Holds.load (h : Holds rt store stem a) : loadVerifiedArtifact rt store stem = .ok a := by
  simp only [loadVerifiedArtifact, h.read, Option.bind_some, h.loads, h.verify, liftCheck]

theorem Holds.isValid (h : Holds rt store stem a) :
    isValidArtifactText rt (Json.dumps a ++ ['\n']) stem = true := by
  simp only [isValidArtifactText, h.loads, h.verify, Except.isOk, Except.toBool]

theorem Holds.unique (ha : Holds rt store stem a) (hb : Holds rt store stem b) : a = b := by
  have h := ha.load
  rw [hb.load] at h
  exact (Except.ok.inj h).symm

/-- One artifact is held under one name. -/
theorem Holds.stem_unique {stem' : String} (h : Holds rt store stem a)
    (h' : Holds rt store stem' a) : stem = stem' :=
  Option.some.inj (h.idOf.symm.trans h'.idOf)

end Holds

/-! ## Sound ledgers -/

/-- A root: it supersedes nothing, and is a seal or an abstention. -/
structure Root (a : Json) : Prop where
  supersedes : supersededOf a = none
  status : ∃ status ∈ rootStatuses, statusOf a = some status

/-- An artifact is the successor a verdict makes of a root in the ledger. -/
def Succeeds (rt : Runtime) (store : Store) (a : Json) : Prop :=
  ∃ stem sealed v, Holds rt store stem sealed ∧ Root sealed ∧ v.WF ∧
    successor rt sealed v = some a

/-- A ledger only the sealer, the scorer and the voider have written, each seal resolved at most
once. -/
structure Sound (rt : Runtime) (store : Store) : Prop where
  files : ∀ stem text, store.artifacts.read stem = some text → ∃ a, Holds rt store stem a
  kinds : ∀ stem a, Holds rt store stem a → Root a ∨ Succeeds rt store a
  once : ∀ stem₁ stem₂ a₁ a₂ superseded, Holds rt store stem₁ a₁ → Holds rt store stem₂ a₂ →
    supersededOf a₁ = some superseded → supersededOf a₂ = some superseded → stem₁ = stem₂

/-- In a sound ledger, loading a file gives what it holds. -/
theorem Sound.holds_of_load {rt : Runtime} {store : Store} (h : Sound rt store) {stem : String}
    {a : Json} (hload : loadVerifiedArtifact rt store stem = .ok a) : Holds rt store stem a := by
  obtain ⟨⟨text, htext, -⟩, -⟩ := loadVerifiedArtifact_ok hload
  obtain ⟨b, hb⟩ := h.files stem text htext
  rw [hb.load] at hload
  rwa [← Except.ok.inj hload]

/-! ## What a successor records -/

/-- The status a verdict gives. -/
def Verdict.status : Verdict → String
  | .scored _ _ _ => "scored"
  | .voided _ _ => "voided"

theorem Verdict.status_ne_pending (v : Verdict) : v.status ≠ "pending" := by
  cases v <;> simp [status]

/-- A verdict's status is one a resolution has. -/
theorem Verdict.status_mem (v : Verdict) : v.status ∈ resolutionStatuses := by
  cases v <;> simp [status, resolutionStatuses]

/-- The result an evaluation records. -/
theorem actual_evaluationBlock (rt : Runtime) (t : Triple) (scoredAt homeGoals awayGoals : Int) :
    (evaluationBlock rt t scoredAt homeGoals awayGoals).get "actual" =
      some (.mk [("home_goals", .int homeGoals), ("away_goals", .int awayGoals),
        ("outcome", .str (outcomeOfGoals homeGoals awayGoals).key)]) := by
  rw [evaluationBlock, Json.get_mk]
  simp [Lib.Fields.getField]

/-- The outcome an evaluation records. -/
theorem outcome_evaluationBlock (rt : Runtime) (t : Triple) (scoredAt homeGoals awayGoals : Int) :
    (((((evaluationBlock rt t scoredAt homeGoals awayGoals).get "actual").bind
      (·.get "outcome")).bind Json.text?).bind outcomeOfKey) =
        some (outcomeOfGoals homeGoals awayGoals) := by
  rw [actual_evaluationBlock, Option.bind_some, Json.get_mk]
  cases outcomeOfGoals homeGoals awayGoals <;> simp [Lib.Fields.getField, Json.text?, outcomeOfKey,
    Outcome.key, Outcome.all]

section Successor

variable {rt : Runtime} {sealed a : Json} {v : Verdict}

theorem statusOf_successor (h : successor rt sealed v = some a) : statusOf a = some v.status := by
  cases v with
  | scored resultSnapshot homeGoals awayGoals =>
      obtain ⟨newAnchor, t, id, snapshots, -, -, -, hid, -, hfinal⟩ := successor_scored_eq_some.mp h
      rw [statusOf, get_finalise hfinal (by decide) (by decide), scoreRecord, renewProvenance,
        Json.get_update_ne (by decide), Json.get_set_ne (by decide), Json.get_update_ne (by decide),
        Json.get_set_ne (by decide), Json.get_set_self (Json.isObj_of_get hid)]
      rfl
  | voided voidedAt reason =>
      obtain ⟨-, id, hid, hfinal⟩ := successor_voided_eq_some.mp h
      rw [statusOf, get_finalise hfinal (by decide) (by decide), voidRecord, renewProvenance,
        Json.get_update_ne (by decide), Json.get_set_ne (by decide), Json.get_set_ne (by decide),
        Json.get_set_self (Json.isObj_of_get hid)]
      rfl

theorem supersededOf_successor (h : successor rt sealed v = some a) :
    supersededOf a = idOf sealed := by
  cases v with
  | scored resultSnapshot homeGoals awayGoals =>
      obtain ⟨newAnchor, t, id, snapshots, -, -, -, hid, -, hfinal⟩ := successor_scored_eq_some.mp h
      rw [supersededOf, get_finalise hfinal (by decide) (by decide), scoreRecord, renewProvenance,
        Json.get_update_ne (by decide), Json.get_set_ne (by decide), Json.get_update_ne (by decide),
        Json.get_set_self (by simpa using Json.isObj_of_get hid), idOf, hid]
  | voided voidedAt reason =>
      obtain ⟨-, id, hid, hfinal⟩ := successor_voided_eq_some.mp h
      rw [supersededOf, get_finalise hfinal (by decide) (by decide), voidRecord, renewProvenance,
        Json.get_update_ne (by decide), Json.get_set_ne (by decide),
        Json.get_set_self (by simpa using Json.isObj_of_get hid), idOf, hid]

/-- The evaluation of a scored successor. -/
theorem evaluation_scored {resultSnapshot : Json} {homeGoals awayGoals : Int}
    (h : successor rt sealed (.scored resultSnapshot homeGoals awayGoals) = some a) :
    ∃ t newAnchor, a.get "evaluation" =
      some (evaluationBlock rt t newAnchor homeGoals awayGoals) := by
  obtain ⟨newAnchor, t, id, snapshots, -, -, -, hid, -, hfinal⟩ := successor_scored_eq_some.mp h
  refine ⟨t, newAnchor, ?_⟩
  rw [get_finalise hfinal (by decide) (by decide), scoreRecord, renewProvenance,
    Json.get_update_ne (by decide), Json.get_set_self (by simpa using Json.isObj_of_get hid)]

end Successor

/-! ## Writing keeps a ledger sound -/

section Write

variable {rt : Runtime} {store store' : Store} {stem : String} {a c : Json}

/-- **After a write** the files hold what they held, and the new file the artifact's canonical
form. -/
theorem holds_write
    (hwrite : writeArtifact rt a store = .ok (stem, store')) (hc : Ledger.canonical a = some c)
    (hwf : c.WF) (hvalid : validateArtifact rt c = .ok ())
    (hident : ∃ digest, Identified rt c stem digest) (name : String) (b : Json) :
    Holds rt store' name b ↔ Holds rt store name b ∨ name = stem ∧ b = c := by
  obtain ⟨-, -, bytes, event, hbytes, -, hfree, rfl⟩ := writeArtifact_ok hwrite
  rw [canonicalBytes, hc, Option.map_some] at hbytes
  obtain rfl := Option.some.inj hbytes
  have hself : canonical c = some c := canonical_idem hc
  by_cases hname : name = stem
  · subst hname
    constructor
    · intro h
      have hread := h.read
      simp only [Directory.read_write_self, Option.some.injEq, List.append_left_inj] at hread
      exact .inr ⟨rfl, Json.dumps_injective h.wf hwf hread.symm⟩
    · rintro (h | ⟨-, rfl⟩)
      · rcases hfree _ h.read with heq | hinvalid
        · exact ⟨by rw [Directory.read_write_self, heq], h.wf, h.canonical, h.valid, h.identified⟩
        · rw [h.isValid] at hinvalid
          cases hinvalid
      · exact ⟨Directory.read_write_self _ _ _, hwf, hself, hvalid, hident⟩
  · constructor
    · intro h
      refine .inl ⟨?_, h.wf, h.canonical, h.valid, h.identified⟩
      rw [← h.read, Directory.read_write_ne hname]
    · rintro (h | ⟨heq, -⟩)
      · refine ⟨?_, h.wf, h.canonical, h.valid, h.identified⟩
        rw [Directory.read_write_ne hname, h.read]
      · exact absurd heq hname

/-- A written artifact that is a root, or the one successor of a root, keeps a ledger sound. -/
theorem Sound.write (hsound : Sound rt store)
    (hwrite : writeArtifact rt a store = .ok (stem, store')) (hc : Ledger.canonical a = some c)
    (hwf : c.WF) (hvalid : validateArtifact rt c = .ok ())
    (hident : ∃ digest, Identified rt c stem digest) (hkind : Root c ∨ Succeeds rt store c)
    (honce : ∀ name b superseded, Holds rt store name b → supersededOf b = some superseded →
      supersededOf c = some superseded → b = c) : Sound rt store' := by
  have hholds := holds_write hwrite hc hwf hvalid hident
  have hkeep : ∀ b, Succeeds rt store b → Succeeds rt store' b := by
    rintro b ⟨name, sealed, v, hsealed, hrest⟩
    exact ⟨name, sealed, v, (hholds _ _).mpr (.inl hsealed), hrest⟩
  constructor
  · intro name text hread
    by_cases hname : name = stem
    · exact ⟨c, (hholds _ _).mpr (.inr ⟨hname, rfl⟩)⟩
    · obtain ⟨-, -, bytes, event, -, -, -, rfl⟩ := writeArtifact_ok hwrite
      rw [Directory.read_write_ne hname] at hread
      obtain ⟨b, hb⟩ := hsound.files name text hread
      exact ⟨b, (hholds _ _).mpr (.inl hb)⟩
  · intro name b hb
    rcases (hholds name b).mp hb with hold | ⟨-, rfl⟩
    · exact (hsound.kinds name b hold).imp_right (hkeep b)
    · exact hkind.imp_right (hkeep b)
  · intro name₁ name₂ b₁ b₂ superseded h₁ h₂ hs₁ hs₂
    rcases (hholds _ _).mp h₁ with h₁ | ⟨rfl, rfl⟩ <;> rcases (hholds _ _).mp h₂ with h₂ | ⟨rfl, rfl⟩
    · exact hsound.once name₁ name₂ b₁ b₂ superseded h₁ h₂ hs₁ hs₂
    · obtain rfl := honce name₁ b₁ superseded h₁ hs₁ hs₂
      obtain ⟨digest, hident⟩ := hident
      exact Option.some.inj (h₁.idOf.symm.trans (by rw [idOf, hident.artifact_id]; rfl))
    · obtain rfl := honce name₂ b₂ superseded h₂ hs₂ hs₁
      obtain ⟨digest, hident⟩ := hident
      exact (Option.some.inj (h₂.idOf.symm.trans (by rw [idOf, hident.artifact_id]; rfl))).symm
    · rfl

end Write

/-! ## The record can be read -/

/-- An object's required text. -/
theorem text_of_required {required : List String} {properties : List (String × Schema)} {j : Json}
    (h : accepts (.object required properties) j = true) {key : String} (hkey : key ∈ required)
    {test : String → Bool} (hlisted : Lib.Fields.getField key properties = some (.string test)) :
    ∃ s, j.get key = some (.str s) := by
  obtain ⟨value, hvalue⟩ := get_of_required h hkey
  obtain ⟨schema, hschema, haccepts⟩ := Schema.acceptsProperty_iff.mp (acceptsProperty_of_get h hvalue)
  obtain rfl := Option.some.inj (hlisted.symm.trans hschema)
  cases value with
  | str s => exact ⟨s, hvalue⟩
  | _ => simp [accepts, Json.text?] at haccepts

/-- The block of an artifact under a required key. -/
theorem block_of_required {formats : String → String → Bool} {a : Json}
    (h : (artifactSchema formats).accepts a = true) {key : String} (hkey : key ∈ artifactRequired)
    {schema : Schema} (hlisted : Lib.Fields.getField key (artifactProperties formats) = some schema) :
    ∃ block, a.get key = some block ∧ schema.accepts block = true := by
  obtain ⟨block, hblock⟩ := get_of_required h hkey
  obtain ⟨listed, hschema, haccepts⟩ :=
    Schema.acceptsProperty_iff.mp (acceptsProperty_of_get h hblock)
  obtain rfl := Option.some.inj (hlisted.symm.trans hschema)
  exact ⟨block, hblock, haccepts⟩

/-- A text of the `match` block of an acceptable artifact. -/
theorem exists_matchText {formats : String → String → Bool} {a : Json}
    (h : (artifactSchema formats).accepts a = true) {key : String} (hkey : key ∈ matchRequired)
    {test : String → Bool}
    (hlisted : Lib.Fields.getField key (matchProperties formats) = some (.string test)) :
    ∃ s, matchText a key = some s := by
  obtain ⟨block, hblock, haccepts⟩ := @block_of_required _ _ h "match" (by decide) _ rfl
  obtain ⟨s, hs⟩ := text_of_required haccepts hkey hlisted
  exact ⟨s, by rw [matchText, hblock, Option.bind_some, hs]; rfl⟩

/-- The resolution an identified artifact records. -/
theorem exists_resolutionOf {rt : Runtime} {store : Store} {stem : String} {a : Json}
    (h : Holds rt store stem a) {status : String} (hstatus : statusOf a = some status) :
    ∃ r, resolutionOf (some a) = some r ∧ r.status = status := by
  obtain ⟨event, hevent, -⟩ := auditEvent_of_accepts (validateArtifact_ok_iff.mp h.valid).1
  obtain ⟨_, -, hevent⟩ := Option.bind_eq_some_iff.mp hevent
  obtain ⟨provenance, hprovenance, hevent⟩ := Option.bind_eq_some_iff.mp hevent
  obtain ⟨created, hcreated, -⟩ := Option.bind_eq_some_iff.mp hevent
  simp only [resolutionOf, hstatus, h.idOf, hprovenance, hcreated, Option.bind_eq_bind,
    Option.bind_some]
  split
  · exact ⟨_, rfl, rfl⟩
  · exact ⟨_, rfl, rfl⟩

section Record

variable {rt : Runtime} {store : Store}

/-- What the record says of a root: its id, and whether it is still open. -/
structure Recorded (rt : Runtime) (store : Store) (chain : Chain) : Prop where
  root : ∃ sealed, Holds rt store chain.sealedArtifactId sealed ∧ Root sealed
  pending : chain.resolution.status = "pending" →
    ∀ stem a, Holds rt store stem a → supersededOf a ≠ some chain.sealedArtifactId

/-- The chain of a root with the one successor it has, or none. -/
theorem exists_chainOf (hsound : Sound rt store) {stem : String} {root : Json}
    (hroot : Holds rt store stem root) (hkind : Root root) {successor? : Option Json}
    (hnone : successor? = none → ∀ s a, Holds rt store s a → supersededOf a ≠ some stem)
    (hsome : ∀ a, successor? = some a →
      supersededOf a = some stem ∧ ∃ s, Holds rt store s a) :
    ∃ chain, chainOf (root, successor?) = some chain ∧ chain.sealedArtifactId = stem ∧
      Recorded rt store chain ∧
      (chain.resolution.status = "scored" → ∃ p, scoredPair chain = some p) := by
  obtain ⟨haccepts, hforecastSound⟩ := validateArtifact_ok_iff.mp hroot.valid
  obtain ⟨forecast, hforecast, hblock⟩ := @block_of_required _ _ haccepts "forecast"
    (by decide) _ rfl
  obtain ⟨abstained, habstained⟩ := get_of_required hblock (show "abstained" ∈ _ by decide)
  obtain ⟨sealedAt, hsealedAt⟩ := get_of_required hblock (show "sealed_at_utc" ∈ _ by decide)
  obtain ⟨horizon, hhorizon⟩ := get_of_required hblock (show "horizon" ∈ _ by decide)
  obtain ⟨model, hmodel, hmodelBlock⟩ := @block_of_required _ _ haccepts "model" (by decide) _ rfl
  obtain ⟨family, hfamily⟩ := get_of_required hmodelBlock (show "family" ∈ _ by decide)
  obtain ⟨kickoff, hkickoff⟩ := @exists_matchText _ _ haccepts "kickoff_utc" (by decide) _ rfl
  obtain ⟨home, hhome⟩ := @exists_matchText _ _ haccepts "home_team" (by decide) _ rfl
  obtain ⟨away, haway⟩ := @exists_matchText _ _ haccepts "away_team" (by decide) _ rfl
  obtain ⟨competition, hcompetition⟩ :=
    @exists_matchText _ _ haccepts "competition" (by decide) _ rfl
  have hchain : ∀ r, resolutionOf successor? = some r → chainOf (root, successor?) = some
      { sealedArtifactId := stem, kickoffUtc := kickoff, homeTeam := home, awayTeam := away
        competition := competition, sealedAtUtc := sealedAt, horizon := horizon, family := family
        abstained := abstained = .bool true, probs := probsOf root, resolution := r } := by
    intro r hr
    simp only [chainOf, hr, hforecast, habstained, hroot.idOf, hkickoff, hhome, haway,
      hcompetition, hsealedAt, hhorizon, hmodel, hfamily, Option.bind_eq_bind, Option.bind_some]
  cases hsuccessor : successor? with
  | none =>
      rw [hsuccessor] at hchain
      refine ⟨_, hchain _ rfl, rfl, ⟨⟨root, hroot, hkind⟩, fun _ => hnone hsuccessor⟩, ?_⟩
      simp
  | some a =>
      obtain ⟨hsuperseded, s, ha⟩ := hsome a hsuccessor
      rw [hsuccessor] at hchain
      obtain ⟨sealedStem, sealed, v, hsealed, hsealedRoot, hv, hmade⟩ :=
        (hsound.kinds s a ha).resolve_left fun hroot => by
          rw [hroot.supersedes] at hsuperseded
          cases hsuperseded
      obtain ⟨r, hr, hstatus⟩ := exists_resolutionOf ha (statusOf_successor hmade)
      refine ⟨_, hchain r hr, rfl, ⟨⟨root, hroot, hkind⟩, fun hpending => ?_⟩, fun hscored => ?_⟩
      · rw [hstatus] at hpending
        exact absurd hpending v.status_ne_pending
      · rw [hstatus] at hscored
        cases v with
        | voided voidedAt reason => simp [Verdict.status] at hscored
        | scored resultSnapshot homeGoals awayGoals =>
            rw [supersededOf_successor hmade, hsealed.idOf] at hsuperseded
            obtain rfl := Option.some.inj hsuperseded
            obtain rfl := hroot.unique hsealed
            obtain ⟨newAnchor, t, id, snapshots, -, -, ht, -⟩ := successor_scored_eq_some.mp hmade
            obtain ⟨t', newAnchor', heval⟩ := evaluation_scored hmade
            have hactual : r.actual = (evaluationBlock rt t' newAnchor' homeGoals
                awayGoals).get "actual" := by
              have hpresent : present (a.get "evaluation") =
                  some (evaluationBlock rt t' newAnchor' homeGoals awayGoals) := by
                rw [heval]
                rfl
              simp only [resolutionOf, statusOf_successor hmade, ha.idOf, hpresent,
                Option.bind_eq_bind, Option.bind_some] at hr
              rw [← Option.some.inj hr]
            refine ⟨(t, outcomeOfGoals homeGoals awayGoals), ?_⟩
            have houtcome := outcome_evaluationBlock rt t' newAnchor' homeGoals awayGoals
            rw [← hactual] at houtcome
            simp only [scoredPair, ht, houtcome, Option.bind_eq_bind, Option.bind_some]

/-- The pair of a root among some artifacts. -/
def pairOf (artifacts : List Json) (root : Json) : Json × Option Json :=
  (root, (idOf root).bind fun id => Lib.Fields.getField id
    (artifacts.filterMap fun a => (supersededOf a).map fun id => (id, a)))

section Load

variable {artifacts : List Json}

/-- A sound ledger is loaded whole. -/
theorem Sound.loadLedger (hsound : Sound rt store) : ∃ artifacts, loadLedger rt store = .ok artifacts :=
  exists_loadLedger_iff.mpr fun stem text hread _ => by
    obtain ⟨a, ha⟩ := hsound.files stem text hread
    exact ⟨a, ha.load⟩

/-- What a sound ledger loads is what its files hold. -/
theorem Sound.mem_loaded (hsound : Sound rt store) (h : Ledger.loadLedger rt store = .ok artifacts)
    {a : Json} : a ∈ artifacts ↔ ∃ stem, Holds rt store stem a := by
  rw [mem_of_loadLedger h]
  exact exists_congr fun stem => ⟨hsound.holds_of_load, Holds.load⟩

/-- Every artifact of a sound ledger fits it. -/
theorem Sound.fits (hsound : Sound rt store) (h : Ledger.loadLedger rt store = .ok artifacts)
    {a : Json} (ha : a ∈ artifacts) : Fits (artifacts.filterMap idOf) a := by
  obtain ⟨stem, hstem⟩ := (hsound.mem_loaded h).mp ha
  rcases hsound.kinds stem a hstem with hroot | ⟨sealedStem, sealed, v, hsealed, -, -, hmade⟩
  · exact ⟨fun _ => hroot.status, fun superseded h => by simp [hroot.supersedes] at h⟩
  · have hsuperseded := (supersededOf_successor hmade).trans hsealed.idOf
    refine ⟨fun h => by simp [hsuperseded] at h, fun superseded hs => ?_⟩
    obtain rfl := Option.some.inj (hsuperseded.symm.trans hs)
    exact ⟨List.mem_filterMap.mpr ⟨sealed, (hsound.mem_loaded h).mpr ⟨_, hsealed⟩, hsealed.idOf⟩,
      v.status, v.status_mem, statusOf_successor hmade⟩

/-- No two artifacts of a sound ledger resolve one seal. -/
theorem Sound.nodup_superseded (hsound : Sound rt store)
    (h : Ledger.loadLedger rt store = .ok artifacts) :
    (artifacts.filterMap supersededOf).Nodup := by
  refine List.pairwise_filterMap.mpr (((nodup_of_loadLedger h).of_map _).imp_of_mem ?_)
  rintro a b ha hb hne superseded hsa _ hsb rfl
  obtain ⟨s, hs⟩ := (hsound.mem_loaded h).mp ha
  obtain ⟨s', hs'⟩ := (hsound.mem_loaded h).mp hb
  obtain rfl := hsound.once s s' a b superseded hs hs' hsa hsb
  exact hne (hs.unique hs')

/-- The roots of a sound ledger are paired with their successors. -/
theorem Sound.chainPairs (hsound : Sound rt store)
    (h : Ledger.loadLedger rt store = .ok artifacts) :
    chainPairs artifacts = .ok (((artifacts.filter fun a =>
      supersededOf a = none).insertionSort rootBefore).map (pairOf artifacts)) :=
  chainPairs_ok (fun _ => hsound.fits h) (hsound.nodup_superseded h)

/-- The successor a root is paired with resolves it; one paired with none is open. -/
theorem Sound.pairOf_snd (hsound : Sound rt store)
    (h : Ledger.loadLedger rt store = .ok artifacts) {stem : String} {root : Json}
    (hroot : Holds rt store stem root) :
    ((pairOf artifacts root).2 = none → ∀ s a, Holds rt store s a → supersededOf a ≠ some stem) ∧
      ∀ a, (pairOf artifacts root).2 = some a →
        supersededOf a = some stem ∧ ∃ s, Holds rt store s a := by
  rw [pairOf, hroot.idOf, Option.bind_some]
  constructor
  · intro hnone s a ha hs
    refine Lib.Fields.getField_eq_none.mp hnone (List.mem_map.mpr ⟨(stem, a), ?_, rfl⟩)
    exact List.mem_filterMap.mpr
      ⟨a, (hsound.mem_loaded h).mpr ⟨s, ha⟩, by rw [hs, Option.map_some]⟩
  · intro a hsome
    obtain ⟨b, hb, hpair⟩ := List.mem_filterMap.mp (Lib.Fields.mem_of_getField hsome)
    obtain ⟨id, hid, heq⟩ := Option.map_eq_some_iff.mp hpair
    obtain ⟨rfl, rfl⟩ := Prod.mk.inj heq
    exact ⟨hid, (hsound.mem_loaded h).mp hb⟩

/-- What supersedes nothing in a sound ledger is a root. -/
theorem Sound.root_of_supersedes (hsound : Sound rt store) {stem : String} {a : Json}
    (ha : Holds rt store stem a) (hnone : supersededOf a = none) : Root a := by
  refine (hsound.kinds stem a ha).resolve_right ?_
  rintro ⟨sealedStem, sealed, v, hsealed, -, -, hmade⟩
  rw [supersededOf_successor hmade, hsealed.idOf] at hnone
  cases hnone

/-- Every root of a sound ledger has a chain. -/
theorem Sound.chain_of_root (hsound : Sound rt store)
    (h : Ledger.loadLedger rt store = .ok artifacts) {root : Json} (hmem : root ∈ artifacts)
    (hnone : supersededOf root = none) :
    ∃ chain, chainOf (pairOf artifacts root) = some chain ∧ Recorded rt store chain ∧
      (chain.resolution.status = "scored" → ∃ p, scoredPair chain = some p) := by
  obtain ⟨stem, hstem⟩ := (hsound.mem_loaded h).mp hmem
  obtain ⟨hopen, hresolved⟩ := hsound.pairOf_snd h hstem
  obtain ⟨chain, hchain, -, hrecorded, hscored⟩ := exists_chainOf hsound hstem
    (hsound.root_of_supersedes hstem hnone) hopen hresolved
  exact ⟨chain, hchain, hrecorded, hscored⟩

/-- The chains of a sound ledger's record: one of every root. -/
structure ChainsOf (rt : Runtime) (store : Store) (artifacts : List Json) (chains : List Chain) :
    Prop where
  mem : ∀ chain, chain ∈ chains ↔
    ∃ root ∈ artifacts, supersededOf root = none ∧ chainOf (pairOf artifacts root) = some chain
  ids : (chains.map Chain.sealedArtifactId).Nodup
  recorded : ∀ chain ∈ chains, Recorded rt store chain

/-- Every record of a sound ledger lists the chains of its roots. -/
theorem Sound.chainsOf (hsound : Sound rt store) (h : Ledger.loadLedger rt store = .ok artifacts)
    {chains : List Chain}
    (hchains : (((artifacts.filter fun a => supersededOf a = none).insertionSort rootBefore).map
      (pairOf artifacts)).mapM chainOf = some chains) : ChainsOf rt store artifacts chains := by
  have hroots := List.perm_insertionSort rootBefore (artifacts.filter fun a => supersededOf a = none)
  have hmem : ∀ chain, chain ∈ chains ↔ ∃ root ∈ artifacts, supersededOf root = none ∧
      chainOf (pairOf artifacts root) = some chain := fun chain => by
    simp only [Lib.mem_of_mapM_eq_some hchains, List.mem_map, hroots.mem_iff, List.mem_filter,
      decide_eq_true_eq]
    constructor
    · rintro ⟨_, ⟨root, ⟨hroot, hnone⟩, rfl⟩, hchain⟩
      exact ⟨root, hroot, hnone, hchain⟩
    · rintro ⟨root, hroot, hnone, hchain⟩
      exact ⟨_, ⟨root, ⟨hroot, hnone⟩, rfl⟩, hchain⟩
  refine ⟨hmem, ?_, fun chain hchain => ?_⟩
  · have hids : ((artifacts.filter fun a => supersededOf a = none).insertionSort
        rootBefore).Pairwise fun a b => idOf a ≠ idOf b :=
      List.pairwise_map.mp ((hroots.map idOf).nodup_iff.mpr
        ((nodup_of_loadLedger h).sublist (List.filter_sublist.map idOf)))
    refine List.pairwise_map.mpr (Lib.forall₂_pairwise
      (List.forall₂_map_left_iff.mp (mapM_eq_some_iff.mp hchains)) hids ?_)
    intro root root' chain chain' hchain hchain' hne heq
    exact hne ((idOf_of_chainOf hchain).trans (heq ▸ (idOf_of_chainOf hchain').symm))
  · obtain ⟨root, hroot, hnone, hchain⟩ := (hmem chain).mp hchain
    obtain ⟨chain', hchain', hrecorded, -⟩ := hsound.chain_of_root h hroot hnone
    rwa [Option.some.inj (hchain.symm.trans hchain')] at *

/-- **The calibration record of a sound ledger can be read**, and lists the chains of its roots. -/
theorem Sound.exists_summary (hsound : Sound rt store)
    (h : Ledger.loadLedger rt store = .ok artifacts) :
    ∃ summary, calibrationSummary rt store = .ok summary ∧
      ChainsOf rt store artifacts summary.chains := by
  obtain ⟨chains, hchains⟩ : ∃ chains, (((artifacts.filter fun a =>
      supersededOf a = none).insertionSort rootBefore).map (pairOf artifacts)).mapM chainOf =
        some chains := by
    refine (exists_forall₂ fun pair hpair => ?_).imp fun _ => mapM_eq_some_iff.mpr
    obtain ⟨root, hroot, rfl⟩ := List.mem_map.mp hpair
    have hroot := (List.perm_insertionSort _ _).mem_iff.mp hroot
    rw [List.mem_filter, decide_eq_true_eq] at hroot
    obtain ⟨chain, hchain, -⟩ := hsound.chain_of_root h hroot.1 hroot.2
    exact ⟨chain, hchain⟩
  have hchainsOf := hsound.chainsOf h hchains
  obtain ⟨scored, hscored⟩ : ∃ scored, (chains.filter fun c =>
      c.resolution.status = "scored").mapM scoredPair = some scored := by
    refine (exists_forall₂ fun chain hchain => ?_).imp fun _ => mapM_eq_some_iff.mpr
    rw [List.mem_filter, decide_eq_true_eq] at hchain
    obtain ⟨root, hroot, hnone, hof⟩ := (hchainsOf.mem chain).mp hchain.1
    obtain ⟨chain', hchain', -, hpair⟩ := hsound.chain_of_root h hroot hnone
    obtain rfl := Option.some.inj (hof.symm.trans hchain')
    exact hpair hchain.2
  refine ⟨⟨chains, scored⟩, ?_, hchainsOf⟩
  simp only [calibrationSummary, h, hsound.chainPairs h, hchains, hscored, Lib.orFail, bind,
    Except.bind, pure, Except.pure]

/-- The record of a sound ledger can be read, and lists every root once with whether it is open. -/
theorem Sound.calibrationSummary (hsound : Sound rt store) :
    ∃ summary, calibrationSummary rt store = .ok summary ∧
      (summary.chains.map Chain.sealedArtifactId).Nodup ∧
      ∀ chain ∈ summary.chains, Recorded rt store chain := by
  obtain ⟨artifacts, h⟩ := hsound.loadLedger
  obtain ⟨summary, hsummary, hchains⟩ := hsound.exists_summary h
  exact ⟨summary, hsummary, hchains.ids, hchains.recorded⟩

/-- **The open seals of a record** are the chains of the roots that nothing in the ledger
supersedes. -/
theorem Sound.mem_pending_iff (hsound : Sound rt store) {summary : Summary}
    (hsummary : Ledger.calibrationSummary rt store = .ok summary) {chain : Chain} :
    chain ∈ summary.chains ∧ chain.resolution.status = "pending" ↔
      ∃ stem root, Holds rt store stem root ∧ supersededOf root = none ∧
        (∀ name b, Holds rt store name b → supersededOf b ≠ some stem) ∧
        chainOf (root, none) = some chain := by
  obtain ⟨artifacts, h⟩ := hsound.loadLedger
  obtain ⟨known, hknown, hchains⟩ := hsound.exists_summary h
  obtain rfl := Except.ok.inj (hknown.symm.trans hsummary)
  rw [hchains.mem]
  constructor
  · rintro ⟨⟨root, hroot, hnone, hchain⟩, hpending⟩
    obtain ⟨stem, hstem⟩ := (hsound.mem_loaded h).mp hroot
    obtain ⟨hopen, hresolved⟩ := hsound.pairOf_snd h hstem
    have hunresolved : (pairOf artifacts root).2 = none := by
      rw [Option.eq_none_iff_forall_not_mem]
      intro a ha
      obtain ⟨hsuperseded, s, hs⟩ := hresolved a ha
      have hrecorded := ((hchains.recorded chain ((hchains.mem chain).mpr
        ⟨root, hroot, hnone, hchain⟩)).pending hpending s a hs)
      rw [← Option.some.inj ((idOf_of_chainOf hchain).symm.trans hstem.idOf)] at hsuperseded
      exact hrecorded hsuperseded
    refine ⟨stem, root, hstem, hnone, hopen hunresolved, ?_⟩
    rw [← hchain, ← hunresolved]
    rfl
  · rintro ⟨stem, root, hstem, hnone, hopen, hchain⟩
    have hunresolved : (pairOf artifacts root).2 = none := by
      rw [Option.eq_none_iff_forall_not_mem]
      intro a ha
      obtain ⟨hsuperseded, s, hs⟩ := (hsound.pairOf_snd h hstem).2 a ha
      exact hopen s a hs hsuperseded
    refine ⟨⟨root, (hsound.mem_loaded h).mpr ⟨stem, hstem⟩, hnone, ?_⟩, ?_⟩
    · rw [← hchain, ← hunresolved]
      rfl
    · rw [← Option.some.inj (resolution_of_chainOf hchain)]

end Load

end Record

/-- In a ledger whose record can be read, two artifacts that resolve one seal are one file. -/
theorem once_of_calibrationSummary {rt : Runtime} {store : Store} {summary : Summary}
    (h : calibrationSummary rt store = .ok summary) {s₁ s₂ superseded : String} {a₁ a₂ : Json}
    (h₁ : Holds rt store s₁ a₁) (h₂ : Holds rt store s₂ a₂)
    (hs₁ : supersededOf a₁ = some superseded) (hs₂ : supersededOf a₂ = some superseded) :
    s₁ = s₂ := by
  obtain ⟨artifacts, hload, h⟩ := bind_ok_iff.mp h
  obtain ⟨pairs, hpairs, -⟩ := bind_ok_iff.mp h
  have hmem : ∀ {s a}, Holds rt store s a → a ∈ artifacts := fun ha =>
    (mem_of_loadLedger hload).mpr ⟨_, ha.load⟩
  have hpairwise := List.pairwise_filterMap.mp (nodup_of_chainPairs hpairs)
  have hsame : a₁ = a₂ := by
    by_contra hne
    have : Std.Symm fun a b => ∀ s, supersededOf a = some s → ∀ s', supersededOf b = some s' →
        s ≠ s' := ⟨fun _ _ h s hs s' hs' heq => h s' hs' s hs heq.symm⟩
    exact hpairwise.forall (hmem h₁) (hmem h₂) hne _ hs₁ _ hs₂ rfl
  subst hsame
  exact h₁.stem_unique h₂

end Golavo.Ledger
