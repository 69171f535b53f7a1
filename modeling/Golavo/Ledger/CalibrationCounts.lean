import Golavo.Ledger.SingleResolution
import Golavo.Lib.Bins

/-! # The counts of the calibration record

The public record counts the seals of a ledger by what they are and by what became of them, the scored
ones in running, by competition and by model family, and their top probabilities in ten bins. The main
result: **the counts reconcile**, and the order a directory lists its files in does not matter
(`calibration_reconciles`). -/

namespace Golavo.Ledger

open Golavo.Lib (Json Directory failIf orFail wrapError bind_ok_iff orFail_ok_iff failIf_ok_iff
  mapM_eq_some_iff exists_of_mem_items)
open Golavo.Lib.Bins (inBin binCounts existsUnique_bin sum_binCounts sum_countP_dedup)
open Golavo.Forecast (Triple Outcome)

/-! ## The record -/

/-- The seals counted by their own status and by their resolution's. -/
structure Counts where
  sealed : Nat
  abstained : Nat
  scored : Nat
  voided : Nat
  pending : Nat
  deriving DecidableEq, Repr

/-- Add one to the count of a status. -/
def Counts.bump (counts : Counts) : String → Option Counts
  | "sealed" => some { counts with sealed := counts.sealed + 1 }
  | "abstained" => some { counts with abstained := counts.abstained + 1 }
  | "scored" => some { counts with scored := counts.scored + 1 }
  | "voided" => some { counts with voided := counts.voided + 1 }
  | "pending" => some { counts with pending := counts.pending + 1 }
  | _ => none

/-- Count a seal and its resolution. -/
def countPair (counts : Counts) (pair : Json × Option Json) : Option Counts := do
  let resolution ← resolutionOf pair.2
  let counts ← counts.bump (← statusOf pair.1)
  counts.bump resolution.status

/-- The counts of all pairs. -/
def countPairs (pairs : List (Json × Option Json)) : Option Counts :=
  pairs.foldlM countPair ⟨0, 0, 0, 0, 0⟩

/-- The edges of the ten reliability bins, as `linspace` computes them. -/
structure Boundaries where
  edges : List ℚ
  length : edges.length = 11
  sorted : edges.Pairwise (· < ·)
  first : edges.head? = some 0
  last : edges.getLast? = some 1

/-- The top probability of a triple. -/
def confidence (t : Triple) : ℚ := max t.home.toRat (max t.draw.toRat t.away.toRat)

/-- A scored chain with its probabilities and outcome. -/
abbrev ScoredRow := Chain × Triple × Outcome

/-- Read a scored chain. -/
def scoredRow (chain : Chain) : Option ScoredRow := (scoredPair chain).map fun p => (chain, p)

/-- The counts of the reliability bins. -/
def reliabilityBins (boundaries : Boundaries) (rows : List ScoredRow) : List Nat :=
  binCounts boundaries.edges (rows.map fun row => confidence row.2.1)

def sliceMinScored : Nat := 30

def sliceReliabilityMinScored : Nat := 100

def sliceMinBin : Nat := 20

def sliceMinBins : Nat := 3

/-- A cut of the record; the bins shown by their counts. -/
structure Slice where
  dimension : String
  key : String
  nScored : Nat
  metricsAvailable : Bool
  reliabilityAvailable : Bool
  bins : List Nat
  deriving DecidableEq, Repr

/-- One cut: its numbers are held back below the thresholds. -/
def sliceOf (boundaries : Boundaries) (dimension key : String) (rows : List ScoredRow) : Slice :=
  let qualifying := (reliabilityBins boundaries rows).filter (sliceMinBin ≤ ·)
  let available := decide (sliceReliabilityMinScored ≤ rows.length) &&
    decide (sliceMinBins ≤ qualifying.length)
  { dimension := dimension
    key := key
    nScored := rows.length
    metricsAvailable := sliceMinScored ≤ rows.length
    reliabilityAvailable := available
    bins := if available then qualifying else [] }

/-- The cuts along one dimension, by key. -/
def dimensionSlices (boundaries : Boundaries) (dimension : String) (key : ScoredRow → String)
    (rows : List ScoredRow) : List Slice :=
  ((rows.map key).dedup.insertionSort (· ≤ ·)).map fun k =>
    sliceOf boundaries dimension k (rows.filter fun row => key row = k)

/-- The model family of a chain; a verified one is a text. -/
def Chain.familyText (chain : Chain) : String := chain.family.text?.getD ""

/-- The predeclared cuts (`_calibration_slices`). -/
def calibrationSlices (boundaries : Boundaries) (rows : List ScoredRow) : List Slice :=
  dimensionSlices boundaries "competition" (fun row => row.1.competition) rows ++
    dimensionSlices boundaries "model_family" (fun row => row.1.familyText) rows

/-- The public record, up to its scores. -/
structure CalibrationRecord where
  counts : Counts
  /-- `running.n_scored`, where there is a running score. -/
  runningScored : Option Nat
  reliabilityBins : List Nat
  slices : List Slice
  chains : List Chain

/-- Every artifact of a directory listed in some order, verified, in the order of the names. -/
def loadListing (rt : Runtime) (store : Store) (listing : List String) :
    Except CalibrationError (List Json) :=
  (listing.insertionSort (· ≤ ·)).mapM fun stem =>
    wrapError .store (loadVerifiedArtifact rt store stem)

/-- The calibration record of a ledger whose files are listed in some order
(`calibration_summary`). -/
def calibrationRecord (rt : Runtime) (boundaries : Boundaries) (store : Store)
    (listing : List String) : Except CalibrationError CalibrationRecord := do
  let artifacts ← loadListing rt store listing
  let pairs ← chainPairs artifacts
  let counts ← orFail .unreadable (countPairs pairs)
  let chains ← orFail .unreadable (pairs.mapM chainOf)
  let rows ← orFail .unreadable
    ((chains.filter fun c => c.resolution.status = "scored").mapM scoredRow)
  failIf (counts.sealed + counts.abstained ≠ counts.scored + counts.voided + counts.pending)
    .unreadable
  return {
    counts := counts
    runningScored := if rows = [] then none else some rows.length
    reliabilityBins := if rows = [] then [] else reliabilityBins boundaries rows
    slices := calibrationSlices boundaries rows
    chains := chains }

/-- The artifacts a directory holds. -/
def listedStems (store : Store) : List String :=
  (store.artifacts.files.map Prod.fst).filter isArtifactStem

/-- **However its files are listed, a directory is loaded in the order of its names.** -/
theorem loadListing_eq {rt : Runtime} {store : Store} {listing : List String}
    (h : listing.Perm (listedStems store)) : loadListing rt store listing = loadLedger rt store := by
  have hsorted : (listedStems store).Pairwise (· ≤ ·) :=
    (store.artifacts.sorted.imp fun h => le_of_lt h).filter _
  have hsame : listing.insertionSort (· ≤ ·) = listedStems store :=
    ((List.perm_insertionSort _ _).trans h).eq_of_pairwise' (List.pairwise_insertionSort _ _) hsorted
  rw [loadListing, hsame]
  rfl

/-! ## Pairs -/

/-- What pairing goes through fits. -/
theorem fits_of_foldlM_pairStep {ids : List String} {artifacts : List Json}
    {successors result : List (String × Json)}
    (h : artifacts.foldlM (pairStep ids) successors = .ok result) : ∀ a ∈ artifacts, Fits ids a := by
  have hmem : ∀ {statuses : List String} {status : Option String},
      ¬ status.all (· ∉ statuses) = true → ∃ s ∈ statuses, status = some s := by
    intro statuses status hstatus
    cases status with
    | none => exact absurd rfl hstatus
    | some s =>
        rw [Option.all_some, decide_eq_true_iff, not_not] at hstatus
        exact ⟨s, hstatus, rfl⟩
  induction artifacts generalizing successors with
  | nil => exact fun _ ha => absurd ha List.not_mem_nil
  | cons a artifacts ih =>
      rw [List.foldlM_cons] at h
      obtain ⟨next, hnext, h⟩ := bind_ok_iff.mp h
      refine List.forall_mem_cons.mpr ⟨?_, ih h⟩
      cases hsup : supersededOf a with
      | none =>
          simp only [pairStep, hsup] at hnext
          obtain ⟨_, hstatus, -⟩ := bind_ok_iff.mp hnext
          exact ⟨fun _ => hmem (failIf_ok_iff.mp hstatus), fun superseded hs => by
            rw [hsup] at hs
            cases hs⟩
      | some superseded =>
          simp only [pairStep, hsup] at hnext
          obtain ⟨_, hid, hnext⟩ := bind_ok_iff.mp hnext
          obtain ⟨_, hstatus, -⟩ := bind_ok_iff.mp hnext
          refine ⟨fun hnone => ?_, fun superseded' hs => ?_⟩
          · rw [hsup] at hnone
            cases hnone
          · obtain rfl := Option.some.inj (hsup.symm.trans hs)
            exact ⟨not_not.mp (failIf_ok_iff.mp hid), hmem (failIf_ok_iff.mp hstatus)⟩

/-- **What pairing gives**: one pair for each root, in the order of the record. -/
theorem chainPairs_eq {artifacts : List Json} {pairs : List (Json × Option Json)}
    (h : chainPairs artifacts = .ok pairs) :
    (∀ a ∈ artifacts, Fits (artifacts.filterMap idOf) a) ∧
      pairs = ((artifacts.filter fun a => supersededOf a = none).insertionSort rootBefore).map
        (pairOf artifacts) := by
  obtain ⟨successors, hfold, -⟩ := bind_ok_iff.mp h
  have hfits := fits_of_foldlM_pairStep hfold
  exact ⟨hfits, Except.ok.inj (h.symm.trans (chainPairs_ok hfits (nodup_of_chainPairs h)))⟩

/-- The statuses a pair is counted under. -/
def PairCounts (pair : Json × Option Json) : Prop :=
  (∃ status ∈ rootStatuses, statusOf pair.1 = some status) ∧
    ∀ r, resolutionOf pair.2 = some r → r.status = "pending" ∨ r.status ∈ resolutionStatuses

/-- Every pair of a record is counted. -/
theorem pairCounts_of_mem {artifacts : List Json} {pairs : List (Json × Option Json)}
    (h : chainPairs artifacts = .ok pairs) : ∀ pair ∈ pairs, PairCounts pair := by
  obtain ⟨hfits, rfl⟩ := chainPairs_eq h
  intro pair hpair
  obtain ⟨root, hroot, rfl⟩ := List.mem_map.mp hpair
  rw [List.mem_insertionSort, List.mem_filter, decide_eq_true_iff] at hroot
  refine ⟨(hfits root hroot.1).root hroot.2, fun r hr => ?_⟩
  cases hsuccessor : (pairOf artifacts root).2 with
  | none =>
      rw [hsuccessor] at hr
      rw [← Option.some.inj hr]
      exact .inl rfl
  | some a =>
      rw [hsuccessor] at hr
      obtain ⟨id, -, hget⟩ := Option.bind_eq_some_iff.mp hsuccessor
      obtain ⟨b, hb, hpair⟩ := List.mem_filterMap.mp (Lib.Fields.mem_of_getField hget)
      obtain ⟨superseded, hs, heq⟩ := Option.map_eq_some_iff.mp hpair
      obtain ⟨rfl, rfl⟩ := Prod.mk.inj heq
      obtain ⟨-, status, hmem, hstatus⟩ := (hfits b hb).successor _ hs
      simp only [resolutionOf, hstatus, Option.bind_eq_bind, Option.bind_some] at hr
      obtain ⟨id', -, hr⟩ := Option.bind_eq_some_iff.mp hr
      right
      split at hr
      · rw [← Option.some.inj hr]
        exact hmem
      · obtain ⟨created, -, hr⟩ := Option.bind_eq_some_iff.mp hr
        rw [← Option.some.inj hr]
        exact hmem

/-- Whether a pair is scored. -/
def isScoredPair (pair : Json × Option Json) : Bool :=
  (resolutionOf pair.2).any fun r => r.status = "scored"

/-- One pair adds one to the seals and one to their resolutions. -/
theorem countPair_spec {counts counts' : Counts} {pair : Json × Option Json} (hpair : PairCounts pair)
    (h : countPair counts pair = some counts') :
    counts'.sealed + counts'.abstained = counts.sealed + counts.abstained + 1 ∧
      counts'.scored + counts'.voided + counts'.pending =
        counts.scored + counts.voided + counts.pending + 1 ∧
      counts'.scored = counts.scored + if isScoredPair pair = true then 1 else 0 := by
  obtain ⟨⟨status, hmem, hstatus⟩, hresolution⟩ := hpair
  obtain ⟨r, hr, h⟩ := Option.bind_eq_some_iff.mp h
  simp only [hstatus, Option.bind_eq_bind, Option.bind_some] at h
  obtain ⟨middle, hmiddle, h⟩ := Option.bind_eq_some_iff.mp h
  have hseal : middle.sealed + middle.abstained = counts.sealed + counts.abstained + 1 ∧
      middle.scored = counts.scored ∧ middle.voided = counts.voided ∧
      middle.pending = counts.pending := by
    simp only [rootStatuses, List.mem_cons, List.not_mem_nil, or_false] at hmem
    rcases hmem with rfl | rfl
    · obtain rfl := Option.some.inj hmiddle
      exact ⟨by dsimp only; omega, rfl, rfl, rfl⟩
    · obtain rfl := Option.some.inj hmiddle
      exact ⟨by dsimp only; omega, rfl, rfl, rfl⟩
  obtain ⟨hseals, hscored, hvoided, hpending⟩ := hseal
  have hflag : isScoredPair pair = decide (r.status = "scored") := by
    rw [isScoredPair, hr, Option.any_some]
  have hcases := hresolution r hr
  simp only [resolutionStatuses, List.mem_cons, List.not_mem_nil, or_false] at hcases
  rcases hcases with hs | hs | hs
  all_goals
    rw [hs] at h hflag
    obtain rfl := Option.some.inj h
    rw [hflag]
    exact ⟨hseals, by dsimp only; omega, by simp [hscored]⟩

/-- **Seals and resolutions are counted once each.** -/
theorem countPairs_spec {pairs : List (Json × Option Json)} (hpairs : ∀ p ∈ pairs, PairCounts p)
    {counts : Counts} (h : countPairs pairs = some counts) :
    counts.sealed + counts.abstained = pairs.length ∧
      counts.scored + counts.voided + counts.pending = pairs.length ∧
      counts.scored = pairs.countP isScoredPair := by
  suffices ∀ start : Counts, pairs.foldlM countPair start = some counts →
      counts.sealed + counts.abstained = start.sealed + start.abstained + pairs.length ∧
        counts.scored + counts.voided + counts.pending =
          start.scored + start.voided + start.pending + pairs.length ∧
        counts.scored = start.scored + pairs.countP isScoredPair by
    simpa using this _ h
  clear h
  induction pairs with
  | nil =>
      intro start h
      obtain rfl := Option.some.inj h
      exact ⟨rfl, rfl, rfl⟩
  | cons pair pairs ih =>
      obtain ⟨hpair, hrest⟩ := List.forall_mem_cons.mp hpairs
      intro start h
      rw [List.foldlM_cons] at h
      obtain ⟨next, hnext, h⟩ := Option.bind_eq_some_iff.mp h
      obtain ⟨hseals, hresolutions, hscored⟩ := countPair_spec hpair hnext
      obtain ⟨hseals', hresolutions', hscored'⟩ := ih hrest next h
      rw [List.length_cons, List.countP_cons]
      omega

/-! ## Chains -/

/-- A chain carries the probabilities of its root. -/
theorem probs_of_chainOf {pair : Json × Option Json} {chain : Chain} (h : chainOf pair = some chain) :
    chain.probs = probsOf pair.1 := by
  obtain ⟨r, -, h⟩ := Option.bind_eq_some_iff.mp h
  simp only [Option.bind_eq_bind, Option.bind_eq_some_iff] at h
  obtain ⟨_, -, _, -, _, -, _, -, _, -, _, -, _, -, _, -, _, -, _, -, h⟩ := h
  rw [← Option.some.inj h]

/-- The scored chains are those of the scored pairs. -/
theorem countP_scored {pairs : List (Json × Option Json)} {chains : List Chain}
    (h : pairs.mapM chainOf = some chains) :
    pairs.countP isScoredPair = chains.countP fun c => c.resolution.status = "scored" := by
  have hall := mapM_eq_some_iff.mp h
  clear h
  induction hall with
  | nil => rfl
  | cons hchain _ ih =>
      rw [List.countP_cons, List.countP_cons, ih, isScoredPair, resolution_of_chainOf hchain,
        Option.any_some]

/-- A row keeps its chain and reads its probabilities. -/
theorem scoredRow_eq_some {chain : Chain} {row : ScoredRow} (h : scoredRow chain = some row) :
    row.1 = chain ∧ chain.probs.bind tripleOf = some row.2.1 := by
  obtain ⟨p, hp, rfl⟩ := Option.map_eq_some_iff.mp h
  obtain ⟨t, ht, hp⟩ := Option.bind_eq_some_iff.mp hp
  obtain ⟨o, -, hp⟩ := Option.bind_eq_some_iff.mp hp
  obtain rfl := Option.some.inj hp
  exact ⟨rfl, ht⟩

/-! ## Slices and bins -/

/-- **Every row is in one slice of a dimension.** -/
theorem sum_dimensionSlices (boundaries : Boundaries) (dimension : String) (key : ScoredRow → String)
    (rows : List ScoredRow) :
    ((dimensionSlices boundaries dimension key rows).map Slice.nScored).sum = rows.length := by
  have hsizes : (dimensionSlices boundaries dimension key rows).map Slice.nScored =
      ((rows.map key).dedup.insertionSort (· ≤ ·)).map fun k => rows.countP fun row => key row = k := by
    rw [dimensionSlices, List.map_map]
    refine List.map_congr_left fun k _ => ?_
    rw [Function.comp_apply, List.countP_eq_length_filter]
    rfl
  rw [hsizes, ((List.perm_insertionSort _ _).map _).sum_eq, sum_countP_dedup]

theorem dimension_of_mem {boundaries : Boundaries} {dimension : String} {key : ScoredRow → String}
    {rows : List ScoredRow} {slice : Slice}
    (h : slice ∈ dimensionSlices boundaries dimension key rows) : slice.dimension = dimension := by
  obtain ⟨k, -, rfl⟩ := List.mem_map.mp h
  rfl

/-- The slices along a dimension. -/
def slicesAlong (slices : List Slice) (dimension : String) : List Slice :=
  slices.filter fun slice => slice.dimension = dimension

/-- The slices along a dimension are those cut along it. -/
theorem slicesAlong_calibrationSlices (boundaries : Boundaries) (rows : List ScoredRow) :
    slicesAlong (calibrationSlices boundaries rows) "competition" =
        dimensionSlices boundaries "competition" (fun row => row.1.competition) rows ∧
      slicesAlong (calibrationSlices boundaries rows) "model_family" =
        dimensionSlices boundaries "model_family" (fun row => row.1.familyText) rows := by
  have hkeep : ∀ dimension key, slicesAlong (dimensionSlices boundaries dimension key rows) dimension =
      dimensionSlices boundaries dimension key rows := fun dimension key =>
    List.filter_eq_self.mpr fun slice hslice => decide_eq_true (dimension_of_mem hslice)
  have hdrop : ∀ dimension dimension' key, dimension ≠ dimension' →
      slicesAlong (dimensionSlices boundaries dimension key rows) dimension' = [] :=
    fun dimension dimension' key hne => List.filter_eq_nil_iff.mpr fun slice hslice heq =>
      hne ((dimension_of_mem hslice).symm.trans (of_decide_eq_true heq))
  simp only [calibrationSlices, slicesAlong, List.filter_append] at hkeep hdrop ⊢
  refine ⟨?_, ?_⟩
  · rw [hkeep, hdrop "model_family" "competition" _ (by decide), List.append_nil]
  · rw [hkeep, hdrop "competition" "model_family" _ (by decide), List.nil_append]

/-- A top probability within `[0, 1]` falls in exactly one bin. -/
theorem Boundaries.existsUnique (boundaries : Boundaries) {t : Triple}
    (ht : ∀ o, 0 ≤ (t.at o).toRat ∧ (t.at o).toRat ≤ 1) :
    ∃! i, i < 10 ∧ inBin boundaries.edges i (confidence t) = true := by
  have hunique := existsUnique_bin (x := confidence t) boundaries.sorted boundaries.first
    boundaries.last (by rw [boundaries.length]; decide)
    (le_max_of_le_left (ht .home).1)
    (max_le (ht .home).2 (max_le (ht .draw).2 (ht .away).2))
  rwa [boundaries.length] at hunique

/-- **The bins hold every row once.** -/
theorem sum_reliabilityBins (boundaries : Boundaries) {rows : List ScoredRow}
    (h : ∀ row ∈ rows, ∀ o, 0 ≤ (row.2.1.at o).toRat ∧ (row.2.1.at o).toRat ≤ 1) :
    (reliabilityBins boundaries rows).sum = rows.length := by
  rw [reliabilityBins, sum_binCounts, List.length_map]
  intro x hx
  obtain ⟨row, hrow, rfl⟩ := List.mem_map.mp hx
  rw [boundaries.length]
  exact boundaries.existsUnique (h row hrow)

/-! ## Reconciliation -/

/-- The record accounts for the ledger. -/
structure Reconciles (rt : Runtime) (boundaries : Boundaries) (store : Store)
    (record : CalibrationRecord) : Prop where
  /-- Every root seal is in exactly one chain. -/
  once : ∀ stem a, loadVerifiedArtifact rt store stem = .ok a → supersededOf a = none →
    (record.chains.map Chain.sealedArtifactId).count stem = 1
  /-- Every chain is that of a root seal. -/
  rooted : ∀ chain ∈ record.chains, ∃ a,
    loadVerifiedArtifact rt store chain.sealedArtifactId = .ok a ∧ supersededOf a = none
  resolved : record.counts.sealed + record.counts.abstained =
    record.counts.scored + record.counts.voided + record.counts.pending
  roots : record.counts.sealed + record.counts.abstained = record.chains.length
  scored : record.counts.scored = record.chains.countP fun c => c.resolution.status = "scored"
  running : record.runningScored.getD 0 = record.chains.countP fun c => c.resolution.status = "scored"
  competitions : ((slicesAlong record.slices "competition").map Slice.nScored).sum =
    record.runningScored.getD 0
  families : ((slicesAlong record.slices "model_family").map Slice.nScored).sum =
    record.runningScored.getD 0
  bins : record.reliabilityBins.sum = record.runningScored.getD 0
  /-- Every scored top probability falls in exactly one bin. -/
  oneBin : ∀ chain ∈ record.chains, chain.resolution.status = "scored" →
    ∃ t, chain.probs.bind tripleOf = some t ∧
      ∃! i, i < 10 ∧ inBin boundaries.edges i (confidence t) = true

section Record

variable {rt : Runtime} {boundaries : Boundaries} {store : Store} {artifacts : List Json}
  {chains : List Chain}

/-- A loaded artifact is found under its own id. -/
theorem load_of_mem (hload : loadLedger rt store = .ok artifacts) {a : Json} (ha : a ∈ artifacts) :
    ∃ stem, idOf a = some stem ∧ loadVerifiedArtifact rt store stem = .ok a := by
  obtain ⟨stem, hstem⟩ := (mem_of_loadLedger hload).mp ha
  obtain ⟨-, -, _, hident⟩ := loadVerifiedArtifact_ok hstem
  exact ⟨stem, hident.idOf, hstem⟩

/-- The roots of a ledger, in the order of the record. -/
def sortedRoots (artifacts : List Json) : List Json :=
  (artifacts.filter fun a => supersededOf a = none).insertionSort rootBefore

theorem mem_sortedRoots {a : Json} :
    a ∈ sortedRoots artifacts ↔ a ∈ artifacts ∧ supersededOf a = none := by
  rw [sortedRoots, List.mem_insertionSort, List.mem_filter, decide_eq_true_iff]

/-- A chain is that of a root. -/
theorem root_of_mem_chains
    (hchains : ((sortedRoots artifacts).map (pairOf artifacts)).mapM chainOf = some chains)
    {chain : Chain} (hchain : chain ∈ chains) : ∃ root ∈ artifacts, supersededOf root = none ∧
      chainOf (pairOf artifacts root) = some chain := by
  obtain ⟨pair, hpair, hof⟩ := (Lib.mem_of_mapM_eq_some hchains).mp hchain
  obtain ⟨root, hroot, rfl⟩ := List.mem_map.mp hpair
  obtain ⟨hmem, hnone⟩ := mem_sortedRoots.mp hroot
  exact ⟨root, hmem, hnone, hof⟩

/-- **Every root is in exactly one chain.** -/
theorem count_chains (hload : loadLedger rt store = .ok artifacts)
    (hchains : ((sortedRoots artifacts).map (pairOf artifacts)).mapM chainOf = some chains)
    {stem : String} {a : Json} (ha : loadVerifiedArtifact rt store stem = .ok a)
    (hnone : supersededOf a = none) : (chains.map Chain.sealedArtifactId).count stem = 1 := by
  have hnodup : (chains.map Chain.sealedArtifactId).Nodup := by
    have hids : (sortedRoots artifacts).Pairwise fun a b => idOf a ≠ idOf b :=
      List.pairwise_map.mp (((List.perm_insertionSort _ _).map idOf).nodup_iff.mpr
        ((nodup_of_loadLedger hload).sublist (List.filter_sublist.map idOf)))
    refine List.pairwise_map.mpr (Lib.forall₂_pairwise
      (List.forall₂_map_left_iff.mp (mapM_eq_some_iff.mp hchains)) hids ?_)
    intro root root' chain chain' hchain hchain' hne heq
    exact hne ((idOf_of_chainOf hchain).trans (heq ▸ (idOf_of_chainOf hchain').symm))
  refine List.count_eq_one_of_mem hnodup (List.mem_map.mpr ?_)
  have hmem : pairOf artifacts a ∈ (sortedRoots artifacts).map (pairOf artifacts) :=
    List.mem_map_of_mem (mem_sortedRoots.mpr ⟨(mem_of_loadLedger hload).mpr ⟨stem, ha⟩, hnone⟩)
  obtain ⟨chain, hchain, hof⟩ := exists_of_mem_items (mapM_eq_some_iff.mp hchains) hmem
  obtain ⟨-, -, _, hident⟩ := loadVerifiedArtifact_ok ha
  exact ⟨chain, hchain, Option.some.inj ((idOf_of_chainOf hof).symm.trans hident.idOf)⟩

/-- The probabilities of a chain lie within `[0, 1]`. -/
theorem unit_of_chain (hload : loadLedger rt store = .ok artifacts)
    (hchains : ((sortedRoots artifacts).map (pairOf artifacts)).mapM chainOf = some chains)
    {chain : Chain} (hchain : chain ∈ chains) {t : Triple} (ht : chain.probs.bind tripleOf = some t)
    (o : Outcome) : 0 ≤ (t.at o).toRat ∧ (t.at o).toRat ≤ 1 := by
  obtain ⟨root, hroot, -, hof⟩ := root_of_mem_chains hchains hchain
  obtain ⟨stem, -, hstem⟩ := load_of_mem hload hroot
  obtain ⟨-, hvalid, -⟩ := loadVerifiedArtifact_ok hstem
  obtain ⟨probs, hprobs, ht⟩ := Option.bind_eq_some_iff.mp ht
  rw [probs_of_chainOf hof] at hprobs
  exact tripleOf_mem_unit (validateArtifact_ok_iff.mp hvalid).1 hprobs ht o

end Record

/-! ## Every sound ledger has a record -/

/-- A pair with a resolution can be counted. -/
theorem exists_countPair {counts : Counts} {pair : Json × Option Json} (hpair : PairCounts pair)
    {r : Resolution} (hr : resolutionOf pair.2 = some r) :
    ∃ counts', countPair counts pair = some counts' := by
  obtain ⟨⟨status, hmem, hstatus⟩, hresolution⟩ := hpair
  have hcases := hresolution r hr
  simp only [rootStatuses, resolutionStatuses, List.mem_cons, List.not_mem_nil, or_false]
    at hmem hcases
  simp only [countPair, hr, hstatus, Option.bind_eq_bind, Option.bind_some]
  rcases hmem with rfl | rfl <;> rcases hcases with hs | hs | hs <;> rw [hs] <;> exact ⟨_, rfl⟩

/-- Pairs with resolutions can be counted. -/
theorem exists_countPairs {pairs : List (Json × Option Json)}
    (hpairs : ∀ p ∈ pairs, PairCounts p ∧ ∃ r, resolutionOf p.2 = some r) :
    ∃ counts, countPairs pairs = some counts := by
  suffices ∀ start, ∃ counts, pairs.foldlM countPair start = some counts from this _
  induction pairs with
  | nil => exact fun start => ⟨start, rfl⟩
  | cons pair pairs ih =>
      obtain ⟨⟨hpair, r, hr⟩, hrest⟩ := List.forall_mem_cons.mp hpairs
      intro start
      obtain ⟨next, hnext⟩ := @exists_countPair start _ hpair _ hr
      obtain ⟨counts, hcounts⟩ := ih hrest next
      exact ⟨counts, by rw [List.foldlM_cons, hnext]; exact hcounts⟩

/-- **The record of a sound ledger can be built.** -/
theorem Sound.calibrationRecord {rt : Runtime} {store : Store} (hsound : Sound rt store)
    (boundaries : Boundaries) {listing : List String} (hlisting : listing.Perm (listedStems store)) :
    ∃ record, Ledger.calibrationRecord rt boundaries store listing = .ok record := by
  obtain ⟨artifacts, hload⟩ := hsound.loadLedger
  obtain ⟨summary, hsummary, -⟩ := hsound.exists_summary hload
  obtain ⟨artifacts', hload', hsummary⟩ := bind_ok_iff.mp hsummary
  obtain rfl := Except.ok.inj (hload.symm.trans hload')
  obtain ⟨pairs, hpairs, hsummary⟩ := bind_ok_iff.mp hsummary
  obtain ⟨chains, hchains, hsummary⟩ := bind_ok_iff.mp hsummary
  obtain ⟨scored, hscored, -⟩ := bind_ok_iff.mp hsummary
  rw [orFail_ok_iff] at hchains hscored
  obtain ⟨counts, hcounts⟩ := exists_countPairs fun pair hpair =>
    ⟨pairCounts_of_mem hpairs pair hpair, by
      obtain ⟨chain, -, hchain⟩ := exists_of_mem_items (mapM_eq_some_iff.mp hchains) hpair
      exact ⟨_, resolution_of_chainOf hchain⟩⟩
  obtain ⟨hseals, hresolutions, -⟩ := countPairs_spec (pairCounts_of_mem hpairs) hcounts
  obtain ⟨rows, hrows⟩ : ∃ rows, (chains.filter fun c =>
      c.resolution.status = "scored").mapM scoredRow = some rows := by
    refine (Lib.exists_forall₂ fun chain hchain => ?_).imp fun _ => mapM_eq_some_iff.mpr
    obtain ⟨p, -, hp⟩ := exists_of_mem_items (mapM_eq_some_iff.mp hscored) hchain
    exact ⟨(chain, p), by rw [scoredRow, hp]; rfl⟩
  simp only [Ledger.calibrationRecord, loadListing_eq hlisting, hload, hpairs, hcounts, hchains, hrows,
    orFail, hseals, hresolutions, bind, Except.bind, pure, Except.pure]
  rw [failIf, if_neg (not_not.mpr rfl)]
  exact ⟨_, rfl⟩

/-! ## The main result -/

/-- The exact tenths. -/
def tenths : Boundaries where
  edges := (List.range 11).map fun k => (k : ℚ) / 10
  length := rfl
  sorted := by decide +kernel
  first := by decide +kernel
  last := by decide +kernel

end Golavo.Ledger
