import Golavo.Ledger.PackStore
import Golavo.Ledger.SingleResolution

/-! # Anchors as texts and as instants

A seal and a score compare anchors as instants; the choice of a pack and the choice of the observation
that is recorded compare them as texts. The two agree where the greatest text is the latest instant. -/

namespace Golavo.Ledger

open Golavo.Lib (Json)

/-! ## The two orders -/

/-- Whether an anchor is the latest instant of some anchors, in the order `_utc` gives them. -/
def IsLatest (anchor : String) (anchors : List String) : Prop :=
  ∃ t, parseUtc anchor = some t ∧ ∀ b ∈ anchors, ∀ s, parseUtc b = some s → s ≤ t

/-- Whether an anchor is the greatest text of some anchors. -/
def IsGreatest (anchor : String) (anchors : List String) : Prop :=
  anchor ∈ anchors ∧ ∀ b ∈ anchors, b ≤ anchor

/-- Whether the greatest text of some anchors is their latest instant. -/
def OrdersAgree (anchors : List String) : Prop :=
  ∀ anchor, IsGreatest anchor anchors → IsLatest anchor anchors

/-- There is only one greatest text. -/
theorem IsGreatest.eq {a b : String} {anchors : List String} (ha : IsGreatest a anchors)
    (hb : IsGreatest b anchors) : a = b := le_antisymm (hb.2 a ha.1) (ha.2 b hb.1)

/-- **What picks the greatest text picks the latest instant** exactly where the orders agree. -/
theorem isLatest_iff {anchor : String} {anchors : List String} (h : IsGreatest anchor anchors) :
    IsLatest anchor anchors ↔ OrdersAgree anchors := by
  constructor
  · intro hlatest b hb
    rwa [hb.eq h]
  · exact fun hagree => hagree anchor h

/-! ## Packs -/

/-- The anchors declared for a source and a competition. -/
def groupAnchors (registry : List RegistryEntry) (resolve : String → Option PackDir)
    (key : String × String) : List String :=
  ((candidates registry resolve).filter fun c => c.key = key).map (·.anchor)

/-- Whether every pack selected is one whose anchor is the latest of its group. -/
def SelectsLatest (registry : List RegistryEntry) (resolve : String → Option PackDir) : Prop :=
  ∀ p ∈ activePacks registry resolve, ∀ c ∈ (bestCandidates registry resolve).entries,
    c.pack = p → IsLatest c.anchor (groupAnchors registry resolve c.key)

/-- The pack selected has the greatest anchor text of its group. -/
theorem isGreatest_bestCandidates {registry : List RegistryEntry}
    {resolve : String → Option PackDir} {c : Candidate}
    (hc : c ∈ (bestCandidates registry resolve).entries) :
    IsGreatest c.anchor (groupAnchors registry resolve c.key) := by
  have hcontest := contest_bestCandidates registry resolve
  refine ⟨List.mem_map.mpr ⟨c, List.mem_filter.mpr ⟨hcontest.mem c hc, decide_eq_true rfl⟩, rfl⟩,
    fun b hb => ?_⟩
  obtain ⟨d, hd, rfl⟩ := List.mem_map.mp hb
  obtain ⟨hd, hkey⟩ := List.mem_filter.mp hd
  obtain ⟨top, htop, htopkey, hle⟩ := hcontest.top d hd
  have hsame : top = c := List.inj_on_of_nodup_map (bestCandidates registry resolve).nodup htop hc
    (htopkey.trans (of_decide_eq_true hkey))
  rwa [hsame] at hle

/-- **Packs are selected by instant** exactly where the orders agree in every group. -/
theorem selectsLatest_iff (registry : List RegistryEntry) (resolve : String → Option PackDir) :
    SelectsLatest registry resolve ↔ ∀ key, OrdersAgree (groupAnchors registry resolve key) := by
  constructor
  · intro h key anchor hgreatest
    obtain ⟨d, hd, -⟩ := List.mem_map.mp hgreatest.1
    obtain ⟨hd, hkey⟩ := List.mem_filter.mp hd
    obtain ⟨c, hc, hckey, -⟩ := (contest_bestCandidates registry resolve).top d hd
    obtain rfl := hckey.trans (of_decide_eq_true hkey)
    have hlatest := h c.pack (mem_activePacks.mpr ⟨c, hc, rfl⟩) c hc rfl
    exact (isLatest_iff (isGreatest_bestCandidates hc)).mp hlatest anchor hgreatest
  · intro h p _ c hc _
    exact (isLatest_iff (isGreatest_bestCandidates hc)).mpr (h c.key)

/-! ## Observations -/

/-- The anchors of some observations. -/
def foundAnchors (found : List ((Int × Int) × Json)) : List String :=
  found.filterMap fun o => snapshotAnchorUtc o.2

/-- Whether the observation recorded of some is one whose anchor is the latest. -/
def RecordsLatest (found : List ((Int × Int) × Json)) : Prop :=
  ∀ snapshot, newestSnapshot found = some snapshot →
    ∃ anchor, snapshotAnchorUtc snapshot = some anchor ∧ IsLatest anchor (foundAnchors found)

/-- The descriptor of a committed feed has an anchor. -/
theorem exists_anchor_feedDescriptor (sourceId url retrievedAt : String) {feed : Feed}
    (h : commit feed = .ok ()) :
    ∃ anchor, snapshotAnchorUtc (feedDescriptor sourceId url retrievedAt feed) = some anchor := by
  have hne : feed.committedAt ≠ "" := fun heq => (Lib.failIf_ok_iff.mp h) (.inr heq)
  refine ⟨feed.committedAt, ?_⟩
  have htruthy : Json.truthy (.str feed.committedAt) = true := decide_eq_true hne
  simp [snapshotAnchorUtc, feedDescriptor, Ingest.descriptor, if_neg hne, Json.get_mk,
    Lib.Fields.getField, Option.filter, htruthy, timeText]

/-- Keeping the greater of two texts keeps the greatest. -/
theorem newestSnapshot_greatest {found : List ((Int × Int) × Json)}
    (hanchored : ∀ o ∈ found, ∃ anchor, snapshotAnchorUtc o.2 = some anchor) {snapshot : Json}
    (h : newestSnapshot found = some snapshot) :
    ∃ anchor, snapshotAnchorUtc snapshot = some anchor ∧ IsGreatest anchor (foundAnchors found) := by
  obtain ⟨o, ho, rfl⟩ := newestSnapshot_mem h
  obtain ⟨anchor, hanchor⟩ := hanchored o ho
  refine ⟨anchor, hanchor, List.mem_filterMap.mpr ⟨o, ho, hanchor⟩, ?_⟩
  cases found with
  | nil => cases h
  | cons first rest =>
      have hfold := Option.some.inj h
      have htop : ∀ (rest : List ((Int × Int) × Json)) best, ∀ x ∈ best :: rest,
          (snapshotAnchorUtc x.2).getD "" ≤ (snapshotAnchorUtc (rest.foldl (fun best o =>
            if (snapshotAnchorUtc best.2).getD "" < (snapshotAnchorUtc o.2).getD "" then o
            else best) best).2).getD "" := by
        intro rest
        induction rest with
        | nil =>
            intro best x hx
            rw [List.mem_singleton.mp hx]
            exact le_rfl
        | cons o rest ih =>
            intro best x hx
            rw [List.foldl_cons]
            split_ifs with hlt
            · rcases List.mem_cons.mp hx with rfl | hx
              · exact hlt.le.trans (ih o o List.mem_cons_self)
              · exact ih o x hx
            · rcases List.mem_cons.mp hx with rfl | hx
              · exact ih x x List.mem_cons_self
              · rcases List.mem_cons.mp hx with rfl | hx
                · exact (not_lt.mp hlt).trans (ih best best List.mem_cons_self)
                · exact ih best x (List.mem_cons_of_mem _ hx)
      intro b hb
      obtain ⟨x, hx, hxb⟩ := List.mem_filterMap.mp hb
      have hle := htop rest first x hx
      rw [hfold, hanchor, hxb] at hle
      exact hle

/-- Some observation is recorded of any. -/
theorem exists_newestSnapshot {found : List ((Int × Int) × Json)} (h : found ≠ []) :
    ∃ snapshot, newestSnapshot found = some snapshot := by
  cases found with
  | nil => exact absurd rfl h
  | cons first rest => exact ⟨_, rfl⟩

/-- **Observations are recorded by instant** exactly where the orders agree. -/
theorem recordsLatest_iff {found : List ((Int × Int) × Json)}
    (hanchored : ∀ o ∈ found, ∃ anchor, snapshotAnchorUtc o.2 = some anchor) :
    RecordsLatest found ↔ OrdersAgree (foundAnchors found) := by
  constructor
  · intro h anchor hgreatest
    obtain ⟨o, ho, -⟩ := List.mem_filterMap.mp hgreatest.1
    obtain ⟨snapshot, hnewest⟩ := exists_newestSnapshot (List.ne_nil_of_mem ho)
    obtain ⟨a, ha, hlatest⟩ := h snapshot hnewest
    obtain ⟨b, hb, hbgreatest⟩ := newestSnapshot_greatest hanchored hnewest
    obtain rfl := Option.some.inj (ha.symm.trans hb)
    exact (isLatest_iff hbgreatest).mp hlatest anchor hgreatest
  · intro h snapshot hnewest
    obtain ⟨a, ha, hgreatest⟩ := newestSnapshot_greatest hanchored hnewest
    exact ⟨a, ha, h a hgreatest⟩

/-- Whatever the feeds serve, the observations of a seal have anchors. -/
theorem anchored_observations (u : Unicode) (feeds : Feeds) (retrievedAt : String)
    (eligible : List Chain) (chain : Chain) :
    ∀ o ∈ observations u (observe u (feeds.loaders u) retrievedAt eligible) chain,
      ∃ anchor, snapshotAnchorUtc o.2 = some anchor :=
  fun _ ho => Observed.All.observations
    (P := fun snapshot => ∃ anchor, snapshotAnchorUtc snapshot = some anchor)
    (all_observe (feeds.all_loaders fun _ _ _ _ hcommit =>
      exists_anchor_feedDescriptor _ _ _ hcommit) retrievedAt eligible) ho

/-- Two packs of one source: the first was committed an hour later, in an offset of its own. -/
def offsetRegistry : List RegistryEntry :=
  [⟨"packs/later", "martj42", some "2026-01-01T00:30:00-01:00", "2026-02-01T00:00:00Z"⟩,
    ⟨"packs/earlier", "martj42", some "2026-01-01T00:45:00Z", "2026-02-01T00:00:00Z"⟩]

/-- Every pack is found under its own name. -/
def resolveAny (declared : String) : Option PackDir := some ⟨declared, ""⟩

end Golavo.Ledger
