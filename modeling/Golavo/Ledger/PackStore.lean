import Golavo.Lib.Table
import Golavo.Lib.Runs
import Golavo.Ledger.Seal

/-! # Which pack is current

The snapshot registry is append-only: refreshing a source adds an entry. `active_packs` groups the
entries by source and by the competition of their pack's manifest, and within a group the greatest
anchor text wins, ties broken by the declared path. -/

namespace Golavo.Ledger

open Golavo.Lib (Json Table)

/-! ## The registry -/

/-- An entry of the snapshot registry. -/
structure RegistryEntry where
  pack : String
  sourceId : String
  upstreamCommittedAtUtc : Option String
  retrievedAtUtc : String
  deriving DecidableEq, Repr

/-- An entry as the registry holds it. -/
def RegistryEntry.toJson (e : RegistryEntry) : Json :=
  .mk [("pack", .str e.pack), ("source_id", .str e.sourceId),
    ("upstream_committed_at_utc", (e.upstreamCommittedAtUtc.map Json.str).getD .null),
    ("retrieved_at_utc", .str e.retrievedAtUtc)]

/-- A pack that was found: its directory and what its manifest says of its competition. -/
structure PackDir where
  directory : String
  competition : String
  deriving DecidableEq, Repr

/-- The winning pack for one source and competition. -/
structure ActivePack where
  sourceId : String
  competition : String
  directory : String
  deriving DecidableEq, Repr

/-- A pack in the running, with its rank: the anchor of its entry, then the declared path. -/
structure Candidate where
  anchor : String
  declared : String
  pack : ActivePack
  deriving DecidableEq, Repr

/-- What packs compete for. -/
def Candidate.key (c : Candidate) : String × String := (c.pack.sourceId, c.pack.competition)

/-- Whether a candidate ranks below another. -/
def Candidate.below (c d : Candidate) : Bool :=
  c.anchor < d.anchor || (c.anchor = d.anchor && c.declared < d.declared)

/-- The anchor text of an entry (`snapshot_anchor_utc`). -/
def RegistryEntry.anchor (e : RegistryEntry) : String := (snapshotAnchorUtc e.toJson).getD ""

/-- The candidate of an entry, unless `resolve` declines it. -/
def candidateOf (resolve : String → Option PackDir) (e : RegistryEntry) : Option Candidate :=
  (resolve e.pack).map fun found =>
    ⟨e.anchor, e.pack, ⟨e.sourceId, found.competition, found.directory⟩⟩

/-- Let a candidate compete with the incumbent of its group. -/
def contend (best : Table Candidate Candidate.key) (c : Candidate) :
    Table Candidate Candidate.key :=
  match best.get? c.key with
  | none => best.put c
  | some incumbent => if incumbent.below c then best.put c else best

/-- The candidates of a registry. -/
def candidates (registry : List RegistryEntry) (resolve : String → Option PackDir) :
    List Candidate := registry.filterMap (candidateOf resolve)

/-- The best candidate of each group. -/
def bestCandidates (registry : List RegistryEntry) (resolve : String → Option PackDir) :
    Table Candidate Candidate.key :=
  (candidates registry resolve).foldl contend Table.empty

/-- The current pack of every group, by directory (`active_packs`). -/
def activePacks (registry : List RegistryEntry) (resolve : String → Option PackDir) :
    List ActivePack :=
  ((bestCandidates registry resolve).entries.map (·.pack)).insertionSort
    (fun a b => a.directory ≤ b.directory)

/-! ## What wins -/

/-- An entry has an anchor. -/
theorem snapshotAnchorUtc_toJson (e : RegistryEntry) :
    snapshotAnchorUtc e.toJson = some e.anchor := by
  have hretrieved : e.toJson.get "retrieved_at_utc" = some (.str e.retrievedAtUtc) := by
    simp [RegistryEntry.toJson, Json.get_mk, Lib.Fields.getField]
  obtain ⟨text, htext⟩ : ∃ text, snapshotAnchorUtc e.toJson = some text := by
    rw [← Option.isSome_iff_exists, snapshotAnchorUtc, hretrieved]
    simp
  rw [RegistryEntry.anchor, htext, Option.getD_some]

theorem Candidate.anchor_le_of_not_below {c d : Candidate} (h : c.below d = false) :
    d.anchor ≤ c.anchor := by
  simp only [Candidate.below, Bool.or_eq_false_iff, decide_eq_false_iff_not] at h
  exact not_lt.mp h.1

theorem Candidate.anchor_le_of_below {c d : Candidate} (h : c.below d = true) :
    c.anchor ≤ d.anchor := by
  simp only [Candidate.below, Bool.or_eq_true, Bool.and_eq_true, decide_eq_true_eq] at h
  rcases h with hlt | ⟨heq, -⟩
  · exact hlt.le
  · exact heq.le

/-- What the competition has come to after some candidates: each group has one of its own at the top,
and none of the group has a greater anchor text. -/
structure Contest (seen : List Candidate) (best : Table Candidate Candidate.key) : Prop where
  mem : ∀ c ∈ best.entries, c ∈ seen
  top : ∀ d ∈ seen, ∃ c ∈ best.entries, c.key = d.key ∧ d.anchor ≤ c.anchor

/-- **One candidate more.** -/
theorem Contest.contend {seen : List Candidate} {best : Table Candidate Candidate.key}
    (h : Contest seen best) (c : Candidate) : Contest (seen ++ [c]) (contend best c) := by
  have hput : (∀ d ∈ best.entries, d.key = c.key → d.anchor ≤ c.anchor) →
      Contest (seen ++ [c]) (best.put c) := by
    intro hle
    constructor
    · intro d hd
      rcases Table.mem_put.mp hd with rfl | ⟨hold, -⟩
      · exact List.mem_append_right _ (List.mem_singleton_self _)
      · exact List.mem_append_left _ (h.mem d hold)
    · intro d hd
      rcases List.mem_append.mp hd with hold | hnew
      · obtain ⟨t, ht, hkey, hanchor⟩ := h.top d hold
        by_cases heq : t.key = c.key
        · exact ⟨c, Table.mem_put.mpr (.inl rfl), heq.symm.trans hkey,
            hanchor.trans (hle t ht heq)⟩
        · exact ⟨t, Table.mem_put.mpr (.inr ⟨ht, heq⟩), hkey, hanchor⟩
      · rw [List.mem_singleton.mp hnew]
        exact ⟨c, Table.mem_put.mpr (.inl rfl), rfl, le_rfl⟩
  unfold Ledger.contend
  split
  · next hnone =>
      refine hput fun d hd hkey => ?_
      exact absurd (List.mem_map.mpr ⟨d, hd, hkey⟩) (Table.get?_eq_none_iff.mp hnone)
  · next incumbent hsome =>
      obtain ⟨hin, hkey⟩ := Table.get?_eq_some_iff.mp hsome
      split_ifs with hbelow
      · refine hput fun d hd hdkey => ?_
        have heq : d = incumbent :=
          List.inj_on_of_nodup_map best.nodup hd hin (hdkey.trans hkey.symm)
        rw [heq]
        exact Candidate.anchor_le_of_below hbelow
      · refine ⟨fun d hd => List.mem_append_left _ (h.mem d hd), fun d hd => ?_⟩
        rcases List.mem_append.mp hd with hold | hnew
        · exact h.top d hold
        · rw [List.mem_singleton.mp hnew]
          exact ⟨incumbent, hin, hkey,
            Candidate.anchor_le_of_not_below ((Bool.not_eq_true _).mp hbelow)⟩

/-- **The best candidates of a registry** top their groups by anchor text. -/
theorem contest_bestCandidates (registry : List RegistryEntry)
    (resolve : String → Option PackDir) :
    Contest (candidates registry resolve) (bestCandidates registry resolve) := by
  suffices ∀ (rest seen : List Candidate) best, Contest seen best →
      Contest (seen ++ rest) (rest.foldl Ledger.contend best) from
    this (candidates registry resolve) [] Table.empty
      ⟨fun c hc => absurd hc List.not_mem_nil, fun d hd => absurd hd List.not_mem_nil⟩
  intro rest
  induction rest with
  | nil =>
      intro seen best h
      rwa [List.append_nil]
  | cons c rest ih =>
      intro seen best h
      have := ih _ _ (h.contend c)
      rwa [List.append_assoc, List.singleton_append] at this

/-- A pack is current exactly when its candidate is the best of its group. -/
theorem mem_activePacks {registry : List RegistryEntry} {resolve : String → Option PackDir}
    {p : ActivePack} : p ∈ activePacks registry resolve ↔
      ∃ c ∈ (bestCandidates registry resolve).entries, c.pack = p := by
  rw [activePacks, List.mem_insertionSort, List.mem_map]

end Golavo.Ledger
