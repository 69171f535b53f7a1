import Golavo.Ledger.ProofBuilt

/-! # When a forecast has a proof

The proof of an artifact is built and verified exactly when the schema rejects no file of the ledger, the
chain's descriptors of one source agree, and the manifests of the packs can be read
(`proof_of_forecast_iff`): a file the schema rejects takes the proof of every other forecast with it. -/

namespace Golavo.Ledger

open Golavo.Lib (Json Table saturate orFail wrapError bind_ok_iff orFail_ok_iff failIf_ok_iff failIf
  wrapError_ok_iff mapM_eq_ok_iff exists_of_mem_items)

variable {rt : Runtime} {store : Store}

/-! ## The condition -/

/-- A descriptor of an artifact's chain, under its source and hash. -/
def Described (rt : Runtime) (store : Store) (stem : String) (e : (String × String) × Json) : Prop :=
  ∃ x a ds, InChain rt store stem x ∧ loadVerifiedArtifact rt store x = .ok a ∧
    snapshotsOf a = some ds ∧ e.2 ∈ ds ∧ keyedDescriptor e.2 = some e

/-- The first manifest of the packs with a hash. -/
def pinned (rt : Runtime) (digest : String) : List ManifestFile → Option (List Char)
  | [] => none
  | .text raw :: files => if rt.sha256 raw = digest then some raw else pinned rt digest files
  | _ :: files => pinned rt digest files

/-- What a proof of an artifact takes. -/
structure Provable (rt : Runtime) (store : Store) (listing : List String)
    (packs : List ManifestFile) (stem : String) : Prop where
  /-- The schema rejects no file of the ledger. -/
  legal : ∀ other ∈ listing, loadVerifiedArtifact rt store other ≠ .error (.invalid .schema)
  /-- The chain's descriptors of one source and hash are one. -/
  agreed : ∀ e e', Described rt store stem e → Described rt store stem e' → e.1 = e'.1 → e = e'
  /-- Every manifest is UTF-8. -/
  decoded : ManifestFile.undecodable ∉ packs
  /-- The manifests the chain pins are JSON. -/
  manifests : ∀ e, Described rt store stem e → ∀ raw, pinned rt e.1.2 packs = some raw →
    (Json.loads raw).isSome = true

/-! ## Manifests -/

theorem manifestIndex_ok {packs : List ManifestFile} {manifests : List (String × List Char)}
    (h : manifestIndex rt packs = .ok manifests) : ManifestFile.undecodable ∉ packs ∧
      ∀ digest, Lib.Fields.getField digest manifests = pinned rt digest packs := by
  induction packs generalizing manifests with
  | nil =>
      obtain rfl := Except.ok.inj h
      exact ⟨List.not_mem_nil, fun _ => rfl⟩
  | cons file packs ih =>
      cases file with
      | unreadable =>
          obtain ⟨hdecoded, hget⟩ := ih h
          exact ⟨by simpa using hdecoded, hget⟩
      | undecodable => cases h
      | text raw =>
          rw [manifestIndex] at h
          cases hrest : manifestIndex rt packs with
          | error e =>
              rw [hrest] at h
              cases h
          | ok rest =>
              rw [hrest] at h
              obtain rfl := Except.ok.inj h
              obtain ⟨hdecoded, hget⟩ := ih hrest
              refine ⟨by simpa using hdecoded, fun digest => ?_⟩
              rw [Lib.Fields.getField, pinned, hget]

theorem exists_manifestIndex {packs : List ManifestFile} (h : ManifestFile.undecodable ∉ packs) :
    ∃ manifests, manifestIndex rt packs = .ok manifests := by
  induction packs with
  | nil => exact ⟨[], rfl⟩
  | cons file packs ih =>
      obtain ⟨manifests, hrest⟩ := ih fun hmem => h (List.mem_cons_of_mem _ hmem)
      cases file with
      | unreadable => exact ⟨manifests, hrest⟩
      | undecodable => exact absurd List.mem_cons_self h
      | text raw => exact ⟨_, by rw [manifestIndex, hrest]; rfl⟩

theorem sha256_of_pinned {packs : List ManifestFile} {digest : String} {raw : List Char}
    (h : pinned rt digest packs = some raw) : rt.sha256 raw = digest := by
  induction packs with
  | nil => cases h
  | cons file packs ih =>
      cases file with
      | unreadable => exact ih h
      | undecodable => exact ih h
      | text text =>
          rw [pinned] at h
          split_ifs at h with hsame
          · rw [← Option.some.inj h, hsame]
          · exact ih h

/-! ## The artifacts of a proof -/

/-- A table of the artifacts of a chain, each under its id. -/
def HoldsChain (rt : Runtime) (store : Store) (stem : String) (artifacts : ArtifactTable) : Prop :=
  ∀ e, e ∈ artifacts.entries ↔
    InChain rt store stem e.1 ∧ loadVerifiedArtifact rt store e.1 = .ok e.2

section Chain

variable {stem : String} {root : Json} (hroot : loadVerifiedArtifact rt store stem = .ok root)

include hroot

/-- **The closure of a proof connects its artifacts.** -/
theorem HoldsChain.mem_saturate_iff {artifacts : ArtifactTable}
    (h : HoldsChain rt store stem artifacts) (x : String) :
    x ∈ saturate (absorbProof artifacts) artifacts.entries
        (artifacts.entries.map Prod.fst).length [stem] ↔ x ∈ artifacts.entries.map Prod.fst := by
  have hstem : stem ∈ artifacts.entries.map Prod.fst :=
    List.mem_map_of_mem ((h (stem, root)).mpr ⟨.refl, hroot⟩)
  have habsorb : absorbProof artifacts = absorbLink artifacts := by
    funext connected entry
    exact absorbProof_eq artifacts connected entry
  rw [habsorb, (absorbs_absorbLink artifacts).mem_saturate_iff hstem le_rfl]
  constructor
  · intro hreach
    cases hreach with
    | refl => exact hstem
    | tail _ hlast =>
        obtain ⟨b, hb, -⟩ := hlast
        exact List.mem_map_of_mem hb
  · intro hx
    obtain ⟨e, he, rfl⟩ := List.mem_map.mp hx
    obtain ⟨hchain, -⟩ := (h e).mp he
    -- along the chain every artifact is in the proof
    generalize e.1 = x at hchain
    induction hchain with
    | refl => exact .refl
    | @tail y x hy hlink ih =>
        refine ih.tail ?_
        obtain ⟨b, hb, hjoin⟩ := id hlink
        refine ⟨b, (h (x, b)).mpr ⟨.tail hy hlink, hb⟩, hjoin.imp_right ?_⟩
        rintro ⟨a, ha, hsup⟩
        exact ⟨a, (h (y, a)).mpr ⟨hy, ha⟩, hsup⟩

/-- **The artifacts of a lineage pass**, and are the table of the chain. -/
theorem exists_foldlM_verifyStep {ledger : ArtifactTable} (hwhole : Whole rt store ledger) :
    ∃ artifacts, (lineage stem ledger).foldlM (verifyStep rt) Table.empty = .ok artifacts ∧
      artifacts.entries.map Prod.snd = lineage stem ledger ∧
      HoldsChain rt store stem artifacts := by
  have hmem := fun a => mem_lineage_iff hwhole hroot (a := a)
  have hids : (lineage stem ledger).Pairwise fun a b => (idOf a).getD "" ≠ (idOf b).getD "" := by
    refine (List.pairwise_map.mp (nodup_lineage hwhole hroot)).imp_of_mem ?_
    intro a b ha hb hne heq
    obtain ⟨x, -, hx⟩ := (hmem a).mp ha
    obtain ⟨y, -, hy⟩ := (hmem b).mp hb
    rw [idOf_of_load hx, idOf_of_load hy] at hne heq
    exact hne (congrArg some heq)
  have hstep : ∀ t : ArtifactTable, ∀ a ∈ lineage stem ledger,
      (idOf a).getD "" ∉ t.entries.map Prod.fst →
        verifyStep rt t a = .ok (t.put ((idOf a).getD "", a)) := by
    intro t a ha hfresh
    obtain ⟨x, -, hload⟩ := (hmem a).mp ha
    obtain ⟨-, hvalid, digest, hident⟩ := loadVerifiedArtifact_ok hload
    have hverify : verifyArtifactIntegrity rt a none = .ok a :=
      verifyArtifactIntegrity_ok_iff.mpr ⟨rfl, hvalid, x, digest, hident, by simp⟩
    rw [hident.idOf] at hfresh ⊢
    have hnew : x ∉ t.entries.map Prod.fst := hfresh
    simp only [verifyStep, hverify, wrapError, hident.idOf, orFail, bind, Except.bind, pure,
      Except.pure]
    rw [failIf, if_neg hnew]
    rfl
  have hnodup : ((Table.empty : ArtifactTable).entries.map Prod.fst ++
      (lineage stem ledger).map fun a => (idOf a).getD "").Nodup := by
    rw [Table.empty, List.map_nil, List.nil_append]
    exact List.pairwise_map.mpr hids
  obtain ⟨artifacts, hfold, hentries⟩ :
      ∃ artifacts : ArtifactTable, (lineage stem ledger).foldlM (verifyStep rt) Table.empty =
        .ok artifacts ∧ artifacts.entries = (Table.empty : ArtifactTable).entries ++
          (lineage stem ledger).map fun a => ((idOf a).getD "", a) :=
    Table.foldlM_put_fresh hstep hnodup
  rw [Table.empty, List.nil_append] at hentries
  refine ⟨artifacts, hfold, ?_, fun e => ?_⟩
  · rw [hentries, List.map_map]
    exact List.map_id' _
  · rw [hentries, List.mem_map]
    constructor
    · rintro ⟨a, ha, rfl⟩
      obtain ⟨x, hx, hload⟩ := (hmem a).mp ha
      rw [idOf_of_load hload]
      exact ⟨hx, hload⟩
    · rintro ⟨hchain, hload⟩
      refine ⟨e.2, (hmem e.2).mpr ⟨e.1, hchain, hload⟩, ?_⟩
      rw [idOf_of_load hload]
      rfl

/-- The descriptors of a lineage are those of the chain. -/
theorem exists_keyed_lineage {ledger : ArtifactTable} (hwhole : Whole rt store ledger) :
    ∃ keyed, keyedDescriptors (lineage stem ledger) = some keyed ∧
      ∀ e, e ∈ keyed ↔ Described rt store stem e := by
  have hmem := fun a => mem_lineage_iff hwhole hroot (a := a)
  have hvalid : ∀ a ∈ lineage stem ledger, validateArtifact rt a = .ok () := fun a ha => by
    obtain ⟨x, -, hload⟩ := (hmem a).mp ha
    exact (loadVerifiedArtifact_ok hload).2.1
  obtain ⟨keyed, hkeyed, hdescribed⟩ := exists_keyedDescriptors hvalid
  refine ⟨keyed, hkeyed, fun e => ?_⟩
  rw [hdescribed]
  constructor
  · rintro ⟨a, ha, ds, hds, he, hof⟩
    obtain ⟨x, hx, hload⟩ := (hmem a).mp ha
    exact ⟨x, a, ds, hx, hload, hds, he, hof⟩
  · rintro ⟨x, a, ds, hx, hload, hds, he, hof⟩
    exact ⟨a, (hmem a).mpr ⟨x, hx, hload⟩, ds, hds, he, hof⟩

end Chain

/-! ## The sources of a proof -/

theorem get_descriptor_sourceJson (manifests : List (String × List Char))
    (source : (String × String) × Json) :
    (sourceJson manifests source).get "descriptor" = some source.2 := by
  rw [sourceJson, Json.get_mk]
  rfl

/-- A source passes where the manifest it embeds is JSON. -/
theorem checkSource_sourceJson {packs : List ManifestFile} {manifests : List (String × List Char)}
    (hmanifests : manifestIndex rt packs = .ok manifests) {source : (String × String) × Json}
    (hsource : keyedDescriptor source.2 = some source) :
    (∃ check, checkSource rt (sourceJson manifests source) = .ok check) ↔
      ∀ raw, pinned rt source.1.2 packs = some raw → (Json.loads raw).isSome = true := by
  have hget := (manifestIndex_ok hmanifests).2 source.1.2
  have hmanifest : (sourceJson manifests source).get "manifest_json" = some
      ((pinned rt source.1.2 packs).elim .null fun raw => .str (String.ofList raw)) := by
    rw [sourceJson, Json.get_mk, hget]
    cases pinned rt source.1.2 packs <;> rfl
  simp only [checkSource, get_descriptor_sourceJson, Option.bind_some, hsource, orFail, hmanifest,
    bind, Except.bind, pure, Except.pure]
  cases hpinned : pinned rt source.1.2 packs with
  | none => simp [Option.elim_none]
  | some raw =>
      simp only [Option.elim_some, String.toList_ofList, sha256_of_pinned hpinned, Option.some.injEq, forall_eq']
      rw [failIf, if_neg (not_not.mpr rfl)]
      cases hloads : Json.loads raw <;> simp [failIf]

/-- Declaring the sources of a proof keeps each under its key. -/
theorem exists_foldlM_declareStep {manifests : List (String × List Char)}
    {sources : List ((String × String) × Json)}
    (hsources : ∀ e ∈ sources, keyedDescriptor e.2 = some e) (hnodup : (sources.map Prod.fst).Nodup) :
    ∃ declared, (sources.map (sourceJson manifests)).foldlM declareStep Table.empty = .ok declared ∧
      declared.entries = sources := by
  have hstep : ∀ t : SourceTable, ∀ e ∈ sources, (id e).1 ∉ t.entries.map Prod.fst →
      declareStep t (sourceJson manifests e) = .ok (t.put (id e)) := by
    intro t e he hfresh
    have hnew : e.1 ∉ t.entries.map Prod.fst := hfresh
    simp only [declareStep, get_descriptor_sourceJson, Option.bind_some, hsources e he, orFail, bind,
      Except.bind, pure, Except.pure]
    rw [failIf, if_neg hnew]
    rfl
  have hkeys : ((Table.empty : SourceTable).entries.map Prod.fst ++
      sources.map fun e => (id e).1).Nodup := by
    rw [Table.empty, List.map_nil, List.nil_append]
    exact hnodup
  obtain ⟨declared, hfold, hentries⟩ := Table.foldlM_put_fresh hstep hkeys
  refine ⟨declared, by rw [List.foldlM_map]; exact hfold, ?_⟩
  rw [hentries, Table.empty, List.nil_append, List.map_id]

/-! ## The main result -/

/-- The fields of a proof are read back. -/
theorem get_sealProof (stem version : String) (artifacts sources : List Json) :
    arrayAt (sealProof rt (proofFields stem version artifacts sources)) "artifacts" = artifacts ∧
      arrayAt (sealProof rt (proofFields stem version artifacts sources)) "sources" = sources ∧
      ((sealProof rt (proofFields stem version artifacts sources)).get "root_artifact_id").bind
        Json.text? = some stem ∧
      (sealProof rt (proofFields stem version artifacts sources)).get "bundle_sha256" =
        some (.str (bundleSha256 rt (sealProof rt (proofFields stem version artifacts sources)))) := by
  have hbundle : bundleSha256 rt (sealProof rt (proofFields stem version artifacts sources)) =
      bundleSha256 rt (.mk (proofFields stem version artifacts sources)) := by
    rw [bundleSha256, sealProof, Json.erase_set, bundleSha256]
  rw [hbundle]
  simp only [arrayAt, sealProof, ← mk_append_singleton, Json.get_mk]
  exact ⟨rfl, rfl, rfl, rfl⟩

section Main

variable {stem : String} {root : Json} {listing : List String} {packs : List ManifestFile}
  {manifests : List (String × List Char)} {keyed : List ((String × String) × Json)}
  {ledger : ArtifactTable}

/-- **When a proof that was built is verified.** -/
theorem verify_built_iff (hroot : loadVerifiedArtifact rt store stem = .ok root)
    (hwhole : Whole rt store ledger) (hkeyed : keyedDescriptors (lineage stem ledger) = some keyed)
    (hmanifests : manifestIndex rt packs = .ok manifests) (version : String) :
    (∃ report, verifyForecastProof rt (sealProof rt (proofFields stem version (lineage stem ledger)
      ((((Table.empty : SourceTable).putAll keyed).entries.insertionSort (sourceBefore · ·)).map
        (sourceJson manifests)))) = .ok report) ↔
      (∀ e e', Described rt store stem e → Described rt store stem e' → e.1 = e'.1 → e = e') ∧
        ∀ e, e ∈ ((Table.empty : SourceTable).putAll keyed).entries → ∀ raw,
          pinned rt e.1.2 packs = some raw → (Json.loads raw).isSome = true := by
  obtain ⟨artifacts, hartifacts, hsnd, hchain⟩ := exists_foldlM_verifyStep hroot hwhole
  obtain ⟨keyed', hkeyed', hdescribed⟩ := exists_keyed_lineage hroot hwhole
  obtain rfl := Option.some.inj (hkeyed.symm.trans hkeyed')
  -- the sources of the proof are descriptors of the chain, each key once
  set sources := ((Table.empty : SourceTable).putAll keyed).entries.insertionSort (sourceBefore · ·)
    with hsources
  have hperm : sources.Perm ((Table.empty : SourceTable).putAll keyed).entries :=
    List.perm_insertionSort _ _
  have hsource : ∀ e ∈ sources, Described rt store stem e := fun e he => (hdescribed e).mp
    ((Table.mem_of_mem_putAll (hperm.mem_iff.mp he)).resolve_left List.not_mem_nil)
  have hof : ∀ e, Described rt store stem e → keyedDescriptor e.2 = some e := by
    rintro e ⟨x, a, ds, -, -, -, -, hof⟩
    exact hof
  obtain ⟨declared, hdeclared, hentries⟩ := @exists_foldlM_declareStep manifests sources
    (fun e he => hof e (hsource e he)) ((hperm.map Prod.fst).nodup_iff.mpr
      ((Table.empty : SourceTable).putAll keyed).nodup)
  obtain ⟨hgetArtifacts, hgetSources, hgetRoot, hgetBundle⟩ :=
    @get_sealProof rt stem version (lineage stem ledger) (sources.map (sourceJson manifests))
  have hchecks : (∃ checks, (sources.map (sourceJson manifests)).mapM (checkSource rt) = .ok checks) ↔
      ∀ e ∈ sources, ∀ raw, pinned rt e.1.2 packs = some raw → (Json.loads raw).isSome = true := by
    rw [Lib.exists_mapM_ok_iff, List.forall_mem_map]
    exact forall₂_congr fun e he => checkSource_sourceJson hmanifests (hof e (hsource e he))
  have hagreeing : Table.Agreeing Prod.fst keyed ↔ ∀ e e', Described rt store stem e →
      Described rt store stem e' → e.1 = e'.1 → e = e' := by
    simp only [Table.Agreeing, hdescribed]
    exact ⟨fun h e e' he he' => h e he e' he', fun h e he e' he' => h e e' he he'⟩
  rw [verifyForecastProof_ok_iff, hgetArtifacts, hgetSources, hgetRoot, hgetBundle, ← hagreeing]
  have hsame : (∀ e ∈ ((Table.empty : SourceTable).putAll keyed).entries, ∀ raw,
      pinned rt e.1.2 packs = some raw → (Json.loads raw).isSome = true) ↔
      ∀ e ∈ sources, ∀ raw, pinned rt e.1.2 packs = some raw → (Json.loads raw).isSome = true :=
    forall_congr' fun e => by rw [hperm.mem_iff]
  rw [hsame, ← hchecks]
  constructor
  · rintro ⟨-, -, artifacts', hartifacts', rootId, -, -, -, descriptors, hdescriptors, artifactSources,
      hagree, declared', hdeclared', -, -, hchecks⟩
    obtain rfl := Except.ok.inj (hartifacts.symm.trans hartifacts')
    rw [hsnd, hkeyed] at hdescriptors
    obtain rfl := Option.some.inj hdescriptors
    exact ⟨(Table.foldlM_putAgreeing_empty.mp hagree).1, hchecks⟩
  · rintro ⟨hagree, hchecks⟩
    have hmem := fun e => Table.mem_putAll_iff hagree (b := e)
    have hgetKeyed : ∀ e ∈ keyed, ((Table.empty : SourceTable).putAll keyed).get? e.1 = some e :=
      fun e he => Table.get?_eq_some_iff.mpr ⟨(hmem e).mpr he, rfl⟩
    have hproof : isProof (sealProof rt (proofFields stem version (lineage stem ledger)
        (sources.map (sourceJson manifests)))) = true := by
      refine isProof_sealProof (isContentIdText_of_load hroot) ?_ ?_ ?_
      · exact List.ne_nil_of_mem ((mem_lineage_iff hwhole hroot).mpr ⟨stem, .refl, hroot⟩)
      · intro a ha
        obtain ⟨x, -, hload⟩ := (mem_lineage_iff hwhole hroot).mp ha
        exact Lib.Schema.isObj_of_accepts
          (validateArtifact_ok_iff.mp (loadVerifiedArtifact_ok hload).2.1).1
      · intro s hs
        obtain ⟨e, he, rfl⟩ := List.mem_map.mp hs
        obtain ⟨x, a, ds, -, hload, hds, hin, -⟩ := hsource e he
        obtain ⟨ds', hds', hobj⟩ := keyed_of_valid (loadVerifiedArtifact_ok hload).2.1
        obtain rfl := Option.some.inj (hds.symm.trans hds')
        exact isSource_sourceJson (hobj e.2 hin).1
    refine ⟨hproof, rfl, artifacts, hartifacts, stem, rfl, ?_, hchain.mem_saturate_iff hroot, keyed,
      by rw [hsnd, hkeyed], _, Table.foldlM_putAgreeing_empty.mpr ⟨hagree, rfl⟩, declared, hdeclared,
      ⟨?_, ?_⟩, ?_, hchecks⟩
    · exact List.mem_map_of_mem ((hchain (stem, root)).mpr ⟨.refl, hroot⟩)
    · intro e he
      rw [hentries, hperm.mem_iff, hmem] at he
      rw [hgetKeyed e he]
      rfl
    · intro e he
      have hdeclaredMem : e ∈ declared.entries := by
        rw [hentries, hperm.mem_iff]
        exact he
      rw [Table.get?_eq_some_iff.mpr ⟨hdeclaredMem, rfl⟩]
      rfl
    · intro e he
      rw [hentries, hperm.mem_iff, hmem] at he
      exact hgetKeyed e he

theorem exists_version {a : Json} (h : validateArtifact rt a = .ok ()) :
    ∃ version, (a.get "schema_version").bind Json.text? = some version := by
  have haccepts := (validateArtifact_ok_iff.mp h).1
  obtain ⟨value, hvalue⟩ := Lib.Schema.get_of_required haccepts
    (show "schema_version" ∈ _ by decide)
  obtain ⟨schema, hschema, henum⟩ :=
    Lib.Schema.acceptsProperty_iff.mp (Lib.Schema.acceptsProperty_of_get haccepts hvalue)
  obtain rfl := Option.some.inj hschema
  cases value with
  | str version => exact ⟨version, by rw [hvalue]; rfl⟩
  | _ => simp [Lib.Schema.accepts] at henum

end Main

/-! ## A stray file -/

/-- A chain nothing but its root can be loaded of is its root. -/
theorem eq_of_inChain {stem x : String}
    (h : ∀ other a, loadVerifiedArtifact rt store other = .ok a → other = stem)
    (hchain : InChain rt store stem x) : x = stem := by
  cases hchain with
  | refl => rfl
  | tail _ hlast =>
      obtain ⟨b, hb, -⟩ := hlast
      exact h x b hb

/-- The sealed friendly names one source. -/
theorem snapshots_friendly {c : Json} (h : sealedFriendly = some c) :
    ∃ d, snapshotsOf c = some [d] := by
  have hlength : sealedFriendly.bind (fun c => (snapshotsOf c).map List.length) = some 1 := by
    decide +kernel
  rw [h, Option.bind_some] at hlength
  obtain ⟨ds, hds, hone⟩ := Option.map_eq_some_iff.mp hlength
  obtain ⟨d, rfl⟩ := List.length_eq_one_iff.mp hone
  exact ⟨d, hds⟩

/-- The text of an empty object. -/
def emptyObject : List Char := Json.dumps (.obj [])

/-- A file that holds an empty object is rejected by the schema. -/
theorem rejected_stray (store : Store) : loadVerifiedArtifact .standard
    { store with artifacts := store.artifacts.write "fa_stray" emptyObject } "fa_stray" =
      .error (.invalid .schema) := by
  have hverify : liftCheck (verifyArtifactIntegrity .standard (.obj []) (some "fa_stray")) =
      .error (.invalid .schema) := by decide +kernel
  have hloads : Json.loads emptyObject = some (.obj []) := by decide +kernel
  rw [loadVerifiedArtifact, Lib.Directory.read_write_self, Option.bind_some, hloads]
  exact hverify

end Golavo.Ledger
