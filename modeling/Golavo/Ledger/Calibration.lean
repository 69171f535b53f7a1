import Golavo.Ledger.Resolution
import Golavo.Lib.Runs
import Mathlib.Data.List.Sort

/-! # The calibration record

The record of a ledger pairs every root seal with its at-most-one resolving **successor**. Reading it
verifies every artifact; a resolution without its seal, or a seal with two, makes it unreadable. -/

namespace Golavo.Ledger

open Golavo.Lib (Json Directory failIf orFail wrapError bind_ok_iff orFail_ok_iff failIf_ok_iff
  wrapError_ok_iff mapM_eq_ok_iff exists_forall₂ exists_of_mem_results exists_of_mem_items)
open Golavo.Forecast (Triple Outcome)

/-- What makes the calibration record unreadable. -/
inductive CalibrationError where
  | store (error : StoreError)
  /-- A scored or voided artifact that supersedes nothing. -/
  | unlinked (id : Option String)
  /-- A successor of a seal that is not in the ledger. -/
  | sealMissing (superseded : String)
  /-- A successor that is neither scored nor voided. -/
  | notResolution (id : Option String)
  /-- A seal with two successors. -/
  | twoSuccessors (superseded : String)
  | unreadable
  deriving DecidableEq

def rootStatuses : List String := ["sealed", "abstained"]

def resolutionStatuses : List String := ["scored", "voided"]

/-- The seal an artifact resolves (`artifact.get("supersedes")`). -/
def supersededOf (artifact : Json) : Option String := (artifact.get "supersedes").bind Json.text?

/-- Whether a file name has the form `fa_*`. -/
def isArtifactStem (stem : String) : Bool := "fa_".toList.isPrefixOf stem.toList

/-- Every artifact of a ledger, verified, in the order of the file names (`_load_ledger`). -/
def loadLedger (rt : Runtime) (store : Store) : Except CalibrationError (List Json) :=
  ((store.artifacts.files.map Prod.fst).filter isArtifactStem).mapM fun stem =>
    wrapError .store (loadVerifiedArtifact rt store stem)

/-- Take one artifact into the successors found so far. -/
def pairStep (ids : List String) (successors : List (String × Json)) (artifact : Json) :
    Except CalibrationError (List (String × Json)) :=
  match supersededOf artifact with
  | none => do
      failIf ((statusOf artifact).all (· ∉ rootStatuses)) (.unlinked (idOf artifact))
      return successors
  | some superseded => do
      failIf (superseded ∉ ids) (.sealMissing superseded)
      failIf ((statusOf artifact).all (· ∉ resolutionStatuses)) (.notResolution (idOf artifact))
      failIf (superseded ∈ successors.map Prod.fst) (.twoSuccessors superseded)
      return successors ++ [(superseded, artifact)]

/-- The order roots are listed in: by kickoff, then by id. -/
def rootKey (artifact : Json) : String × String :=
  ((matchText artifact "kickoff_utc").getD "", (idOf artifact).getD "")

/-- Whether a root is listed before another. -/
def rootBefore (a b : Json) : Prop :=
  (rootKey a).1 < (rootKey b).1 ∨
    ((rootKey a).1 = (rootKey b).1 ∧ (rootKey a).2 ≤ (rootKey b).2)

instance (a b : Json) : Decidable (rootBefore a b) := inferInstanceAs (Decidable (_ ∨ _))

/-- Pair each root seal with its at-most-one resolving successor (`_chain_pairs`). -/
def chainPairs (artifacts : List Json) : Except CalibrationError (List (Json × Option Json)) := do
  let successors ← artifacts.foldlM (pairStep (artifacts.filterMap idOf)) []
  let roots := (artifacts.filter fun a => supersededOf a = none).insertionSort rootBefore
  return roots.map fun root => (root, (idOf root).bind fun id => Lib.Fields.getField id successors)

/-- What became of a seal. -/
structure Resolution where
  status : String
  artifactId : Option String
  resolvedAtUtc : Option Json
  actual : Option Json
  metrics : Option Json
  voidReason : Option Json

/-- A value that is there and not null. -/
def present : Option Json → Option Json
  | some .null => none
  | other => other

/-- The resolution of a seal by its successor (`_resolution`). -/
def resolutionOf : Option Json → Option Resolution
  | none => some ⟨"pending", none, none, none, none, none⟩
  | some successor => do
      let status ← statusOf successor
      let id ← idOf successor
      match present (successor.get "evaluation") with
      | some evaluation =>
          some ⟨status, some id, evaluation.get "scored_at_utc", evaluation.get "actual",
            evaluation.get "metrics", present (successor.get "void_reason")⟩
      | none =>
          let created ← (successor.get "provenance").bind (·.get "created_at_utc")
          some ⟨status, some id, some created, none, none, present (successor.get "void_reason")⟩

/-- One seal of the record, with what became of it. -/
structure Chain where
  sealedArtifactId : String
  kickoffUtc : String
  homeTeam : String
  awayTeam : String
  competition : String
  sealedAtUtc : Json
  horizon : Json
  family : Json
  abstained : Bool
  probs : Option Json
  resolution : Resolution

/-- The chain of a root and its successor. -/
def chainOf (pair : Json × Option Json) : Option Chain := do
  let resolution ← resolutionOf pair.2
  let forecast ← pair.1.get "forecast"
  let abstained ← forecast.get "abstained"
  some
    { sealedArtifactId := ← idOf pair.1
      kickoffUtc := ← matchText pair.1 "kickoff_utc"
      homeTeam := ← matchText pair.1 "home_team"
      awayTeam := ← matchText pair.1 "away_team"
      competition := ← matchText pair.1 "competition"
      sealedAtUtc := ← forecast.get "sealed_at_utc"
      horizon := ← forecast.get "horizon"
      family := ← (pair.1.get "model").bind (·.get "family")
      abstained := abstained = .bool true
      probs := probsOf pair.1
      resolution := resolution }

/-- A chain carries the id of its root. -/
theorem idOf_of_chainOf {pair : Json × Option Json} {chain : Chain} (h : chainOf pair = some chain) :
    idOf pair.1 = some chain.sealedArtifactId := by
  obtain ⟨r, -, h⟩ := Option.bind_eq_some_iff.mp h
  obtain ⟨forecast, -, h⟩ := Option.bind_eq_some_iff.mp h
  obtain ⟨abstained, -, h⟩ := Option.bind_eq_some_iff.mp h
  obtain ⟨id, hid, h⟩ := Option.bind_eq_some_iff.mp h
  simp only [Option.bind_eq_bind, Option.bind_eq_some_iff] at h
  obtain ⟨_, -, _, -, _, -, _, -, _, -, _, -, _, -, h⟩ := h
  rw [hid, ← Option.some.inj h]

/-- A chain records what its root's successor says. -/
theorem resolution_of_chainOf {pair : Json × Option Json} {chain : Chain}
    (h : chainOf pair = some chain) : resolutionOf pair.2 = some chain.resolution := by
  obtain ⟨r, hr, h⟩ := Option.bind_eq_some_iff.mp h
  simp only [Option.bind_eq_bind, Option.bind_eq_some_iff] at h
  obtain ⟨_, -, _, -, _, -, _, -, _, -, _, -, _, -, _, -, _, -, _, -, h⟩ := h
  rw [hr, ← Option.some.inj h]

/-- The outcome a key names. -/
def outcomeOfKey (key : String) : Option Outcome := Outcome.all.find? fun o => o.key = key

/-- The probabilities and the outcome of a scored seal. -/
def scoredPair (chain : Chain) : Option (Triple × Outcome) := do
  let t ← chain.probs.bind tripleOf
  let o ← ((chain.resolution.actual.bind (·.get "outcome")).bind Json.text?).bind outcomeOfKey
  some (t, o)

/-- The part of a record every later number is computed from. -/
structure Summary where
  chains : List Chain
  scored : List (Triple × Outcome)

/-- The calibration record of a ledger (`calibration_summary`), up to the numbers computed from the
scored pairs. -/
def calibrationSummary (rt : Runtime) (store : Store) : Except CalibrationError Summary := do
  let artifacts ← loadLedger rt store
  let pairs ← chainPairs artifacts
  let chains ← orFail .unreadable (pairs.mapM chainOf)
  let scored ← orFail .unreadable
    ((chains.filter fun c => c.resolution.status = "scored").mapM scoredPair)
  return ⟨chains, scored⟩

/-! ## Loading a whole ledger -/

section Load

variable {rt : Runtime} {store : Store} {stem : String} {a : Json}

/-- Every file with an artifact's name can be loaded. -/
def Loadable (rt : Runtime) (store : Store) : Prop :=
  ∀ stem text, store.artifacts.read stem = some text → isArtifactStem stem = true →
    ∃ a, loadVerifiedArtifact rt store stem = .ok a

theorem Identified.idOf {digest : String} (h : Identified rt a stem digest) : idOf a = some stem := by
  rw [Ledger.idOf, h.artifact_id]
  rfl

/-- A content id is an artifact's name. -/
theorem Identified.isArtifactStem {digest : String} (h : Identified rt a stem digest) :
    isArtifactStem stem = true := by
  obtain ⟨bytes, -, rfl⟩ := Option.map_eq_some_iff.mp h.id_eq
  rw [Ledger.isArtifactStem, idOfDigest, String.toList_append]
  simp

/-- What can be loaded is among the files a scan lists. -/
theorem mem_stems_of_load (h : loadVerifiedArtifact rt store stem = .ok a) :
    stem ∈ (store.artifacts.files.map Prod.fst).filter isArtifactStem := by
  obtain ⟨⟨text, hread, -⟩, -, digest, hident⟩ := loadVerifiedArtifact_ok h
  exact List.mem_filter.mpr ⟨List.mem_map_of_mem (f := Prod.fst) (Directory.mem_files.mpr hread),
    hident.isArtifactStem⟩

/-- **What a load of the whole ledger gives**: one artifact for each file, in their order. -/
theorem loadLedger_ok_iff {artifacts : List Json} : loadLedger rt store = .ok artifacts ↔
    List.Forall₂ (fun stem a => loadVerifiedArtifact rt store stem = .ok a)
      ((store.artifacts.files.map Prod.fst).filter isArtifactStem) artifacts := by
  simp only [loadLedger, mapM_eq_ok_iff, wrapError_ok_iff]

theorem mem_of_loadLedger {artifacts : List Json} (h : loadLedger rt store = .ok artifacts) :
    a ∈ artifacts ↔ ∃ stem, loadVerifiedArtifact rt store stem = .ok a := by
  have hall := loadLedger_ok_iff.mp h
  constructor
  · intro ha
    obtain ⟨stem, -, hload⟩ := exists_of_mem_results hall ha
    exact ⟨stem, hload⟩
  · rintro ⟨stem, hload⟩
    obtain ⟨b, hb, heq⟩ := exists_of_mem_items hall (mem_stems_of_load hload)
    rwa [Except.ok.inj (hload.symm.trans heq)]

/-- No two artifacts of a ledger have one id. -/
theorem nodup_of_loadLedger {artifacts : List Json} (h : loadLedger rt store = .ok artifacts) :
    (artifacts.map idOf).Nodup := by
  have hstems : (store.artifacts.files.map Prod.fst).Nodup :=
    store.artifacts.sorted.imp fun h => h.ne
  refine List.pairwise_map.mpr (Lib.forall₂_pairwise (loadLedger_ok_iff.mp h)
    (hstems.filter _) fun stem stem' a a' hload hload' hne heq => hne ?_)
  rw [(loadVerifiedArtifact_ok hload).2.2.choose_spec.idOf,
    (loadVerifiedArtifact_ok hload').2.2.choose_spec.idOf] at heq
  exact Option.some.inj heq

/-- A ledger can be loaded where every file can. -/
theorem exists_loadLedger_iff :
    (∃ artifacts, loadLedger rt store = .ok artifacts) ↔ Loadable rt store := by
  constructor
  · rintro ⟨artifacts, h⟩ stem text hread hstem
    have hmem : stem ∈ (store.artifacts.files.map Prod.fst).filter Ledger.isArtifactStem :=
      List.mem_filter.mpr
        ⟨List.mem_map_of_mem (f := Prod.fst) (Directory.mem_files.mpr hread), hstem⟩
    obtain ⟨a, -, hload⟩ := exists_of_mem_items (loadLedger_ok_iff.mp h) hmem
    exact ⟨a, hload⟩
  · intro h
    have hall : ∀ stem ∈ (store.artifacts.files.map Prod.fst).filter Ledger.isArtifactStem,
        ∃ a, loadVerifiedArtifact rt store stem = .ok a := by
      intro stem hstem
      obtain ⟨hmem, hname⟩ := List.mem_filter.mp hstem
      obtain ⟨⟨name, text⟩, hfile, rfl⟩ := List.mem_map.mp hmem
      exact h name text (Directory.mem_files.mp hfile) hname
    obtain ⟨artifacts, hartifacts⟩ := exists_forall₂ hall
    exact ⟨artifacts, loadLedger_ok_iff.mpr hartifacts⟩

end Load

/-! ## When pairing goes through -/

/-- An artifact fits a ledger: a root, or a resolution of a seal of the ledger. -/
structure Fits (ids : List String) (artifact : Json) : Prop where
  root : supersededOf artifact = none → ∃ status ∈ rootStatuses, statusOf artifact = some status
  successor : ∀ superseded, supersededOf artifact = some superseded →
    superseded ∈ ids ∧ ∃ status ∈ resolutionStatuses, statusOf artifact = some status

/-- Folding artifacts that fit, no two of which resolve one seal, collects their successors. -/
theorem foldlM_pairStep {ids : List String} {artifacts : List Json}
    (hfits : ∀ a ∈ artifacts, Fits ids a) (successors : List (String × Json))
    (hnodup : (successors.map Prod.fst ++ artifacts.filterMap supersededOf).Nodup) :
    artifacts.foldlM (pairStep ids) successors = .ok
      (successors ++ artifacts.filterMap fun a => (supersededOf a).map fun id => (id, a)) := by
  induction artifacts generalizing successors with
  | nil => simp [pure, Except.pure]
  | cons a rest ih =>
      have hrest : ∀ b ∈ rest, Fits ids b := fun b hb => hfits b (List.mem_cons_of_mem _ hb)
      have ha := hfits a List.mem_cons_self
      rw [List.foldlM_cons]
      cases hsup : supersededOf a with
      | none =>
          obtain ⟨status, hmem, hstatus⟩ := ha.root hsup
          have hstep : pairStep ids successors a = .ok successors := by
            simp [pairStep, hsup, hstatus, hmem, failIf, bind, Except.bind, pure, Except.pure]
          rw [hstep]
          simp only [List.filterMap_cons, hsup] at hnodup ⊢
          exact ih hrest successors hnodup
      | some superseded =>
          obtain ⟨hids, status, hmem, hstatus⟩ := ha.successor superseded hsup
          simp only [List.filterMap_cons, hsup] at hnodup
          have hfresh : superseded ∉ successors.map Prod.fst := by
            rw [List.nodup_append] at hnodup
            exact fun hin => hnodup.2.2 _ hin _ List.mem_cons_self rfl
          have hstep : pairStep ids successors a = .ok (successors ++ [(superseded, a)]) := by
            simp only [pairStep, hsup, hstatus, failIf, bind, Except.bind, pure, Except.pure]
            rw [if_neg (not_not.mpr hids), if_neg hfresh]
            simp [hmem]
          rw [hstep]
          have hnext := ih hrest (successors ++ [(superseded, a)]) (by simpa using hnodup)
          simp only [List.filterMap_cons, hsup, Option.map_some]
          rw [List.append_assoc, List.singleton_append] at hnext
          exact hnext

/-- **Pairing goes through** when every artifact fits and no two resolve one seal. -/
theorem chainPairs_ok {artifacts : List Json}
    (hfits : ∀ a ∈ artifacts, Fits (artifacts.filterMap idOf) a)
    (hnodup : (artifacts.filterMap supersededOf).Nodup) :
    chainPairs artifacts = .ok
      (((artifacts.filter fun a => supersededOf a = none).insertionSort rootBefore).map fun root =>
        (root, (idOf root).bind fun id => Lib.Fields.getField id
          (artifacts.filterMap fun a => (supersededOf a).map fun id => (id, a)))) := by
  have hfold := foldlM_pairStep hfits [] (by simpa using hnodup)
  rw [List.nil_append] at hfold
  simp only [chainPairs, hfold, bind, Except.bind, pure, Except.pure]

/-- What pairing collects resolves each seal once. -/
theorem nodup_of_foldlM_pairStep {ids : List String} {artifacts : List Json}
    {successors result : List (String × Json)}
    (h : artifacts.foldlM (pairStep ids) successors = .ok result)
    (hnodup : (successors.map Prod.fst).Nodup) :
    (successors.map Prod.fst ++ artifacts.filterMap supersededOf).Nodup := by
  induction artifacts generalizing successors with
  | nil => simpa using hnodup
  | cons a rest ih =>
      rw [List.foldlM_cons] at h
      obtain ⟨next, hnext, h⟩ := bind_ok_iff.mp h
      cases hsup : supersededOf a with
      | none =>
          simp only [pairStep, hsup] at hnext
          obtain ⟨_, -, hnext⟩ := bind_ok_iff.mp hnext
          obtain rfl := Except.ok.inj hnext
          simpa [hsup] using ih h hnodup
      | some superseded =>
          simp only [pairStep, hsup] at hnext
          obtain ⟨_, -, hnext⟩ := bind_ok_iff.mp hnext
          obtain ⟨_, -, hnext⟩ := bind_ok_iff.mp hnext
          obtain ⟨_, hfresh, hnext⟩ := bind_ok_iff.mp hnext
          obtain rfl := Except.ok.inj hnext
          have hfresh := failIf_ok_iff.mp hfresh
          have hrest := ih h (by
            rw [List.map_append, List.nodup_append]
            refine ⟨hnodup, by simp, ?_⟩
            intro x hx y hy
            simp only [List.map_cons, List.map_nil, List.mem_singleton] at hy
            rintro rfl
            exact hfresh (hy ▸ hx))
          simpa [hsup] using hrest

/-- **Two resolutions of one seal make the record unreadable.** -/
theorem nodup_of_chainPairs {artifacts : List Json} {pairs : List (Json × Option Json)}
    (h : chainPairs artifacts = .ok pairs) : (artifacts.filterMap supersededOf).Nodup := by
  obtain ⟨successors, hfold, -⟩ := bind_ok_iff.mp h
  simpa using nodup_of_foldlM_pairStep hfold (by simp)

end Golavo.Ledger
