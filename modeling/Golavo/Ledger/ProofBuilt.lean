import Golavo.Ledger.Proof

/-! # A proof is built

What the scan of a ledger holds, which artifacts the closure over it connects, and what verifying says of
the proof made of them. -/

namespace Golavo.Ledger

open Golavo.Lib (Json Schema Table Absorbs saturate failIf orFail wrapError bind_ok_iff orFail_ok_iff
  failIf_ok_iff wrapError_ok_iff mapM_eq_ok_iff mapM_eq_some_iff exists_of_mem_items
  exists_of_mem_results)
open Golavo.Lib.Schema (get_of_required acceptsProperty_of_get accepts)

variable {rt : Runtime} {store : Store}

/-! ## The scan -/

theorem idOf_of_load {stem : String} {a : Json} (h : loadVerifiedArtifact rt store stem = .ok a) :
    idOf a = some stem := by
  obtain ⟨-, -, _, hident⟩ := loadVerifiedArtifact_ok h
  exact hident.idOf

/-- A file is taken in, skipped, or rejected by the schema. -/
theorem ledgerStep_ok_iff {ledger ledger' : ArtifactTable} {stem : String} :
    ledgerStep rt store ledger stem = .ok ledger' ↔
      (∃ a, loadVerifiedArtifact rt store stem = .ok a ∧ ledger' = ledger.put (stem, a)) ∨
        ∃ e, loadVerifiedArtifact rt store stem = .error e ∧ caught e = true ∧ ledger' = ledger := by
  unfold ledgerStep
  cases hload : loadVerifiedArtifact rt store stem with
  | ok a =>
      have hid : (orFail ProofError.unreadable (idOf a)).map (fun id => ledger.put (id, a)) =
          .ok (ledger.put (stem, a)) := by
        rw [idOf_of_load hload]
        rfl
      simp only [hid, Except.ok.injEq, exists_eq_left', reduceCtorEq, false_and, exists_false, or_false]
      exact eq_comm
  | error e =>
      simp only [reduceCtorEq, false_and, exists_false, false_or, Except.error.injEq, exists_eq_left']
      split_ifs with hcaught
      · rw [Except.ok.injEq]
        exact ⟨fun h => ⟨hcaught, h.symm⟩, fun h => h.2.symm⟩
      · simp [hcaught]

/-- **What a scan finds**: it goes through unless the schema rejects a file, and holds what can be
loaded. -/
theorem foldlM_ledgerStep {ledger ledger' : ArtifactTable} {listing : List String}
    (hledger : ∀ e ∈ ledger.entries, loadVerifiedArtifact rt store e.1 = .ok e.2)
    (h : listing.foldlM (ledgerStep rt store) ledger = .ok ledger') :
    (∀ stem ∈ listing, loadVerifiedArtifact rt store stem ≠ .error (.invalid .schema)) ∧
      ∀ e, e ∈ ledger'.entries ↔ e ∈ ledger.entries ∨
        (e.1 ∈ listing ∧ loadVerifiedArtifact rt store e.1 = .ok e.2) := by
  induction listing generalizing ledger with
  | nil =>
      obtain rfl := Except.ok.inj h
      exact ⟨fun _ hmem => absurd hmem List.not_mem_nil, fun e => by simp⟩
  | cons stem listing ih =>
      rw [List.foldlM_cons] at h
      obtain ⟨next, hnext, hlater⟩ := bind_ok_iff.mp h
      clear h
      rcases ledgerStep_ok_iff.mp hnext with ⟨a, hload, rfl⟩ | ⟨e, hload, hcaught, rfl⟩
      · have hput : ∀ e ∈ (ledger.put (stem, a)).entries,
            loadVerifiedArtifact rt store e.1 = .ok e.2 := by
          intro e he
          rcases Table.mem_put.mp he with rfl | ⟨he, -⟩
          · exact hload
          · exact hledger e he
        obtain ⟨hrest, hmem⟩ := ih hput hlater
        refine ⟨List.forall_mem_cons.mpr ⟨by simp [hload], hrest⟩, fun e => ?_⟩
        rw [hmem, Table.mem_put, List.mem_cons]
        constructor
        · rintro ((rfl | ⟨he, -⟩) | ⟨hin, he⟩)
          · exact .inr ⟨.inl rfl, hload⟩
          · exact .inl he
          · exact .inr ⟨.inr hin, he⟩
        · have hsame : ∀ b, e.1 = stem → loadVerifiedArtifact rt store e.1 = .ok b → e.2 = b →
              e = (stem, a) := by
            rintro b rfl hb rfl
            rw [hload] at hb
            rw [Except.ok.inj hb]
          rintro (he | ⟨hin | hin, he⟩)
          · by_cases hstem : e.1 = stem
            · exact .inl (.inl (hsame e.2 hstem (hledger e he) rfl))
            · exact .inl (.inr ⟨he, hstem⟩)
          · exact .inl (.inl (hsame e.2 hin he rfl))
          · exact .inr ⟨hin, he⟩
      · obtain ⟨hrest, hmem⟩ := ih hledger hlater
        refine ⟨List.forall_mem_cons.mpr ⟨?_, hrest⟩, fun e' => ?_⟩
        · rw [hload]
          intro heq
          rw [Except.error.inj heq] at hcaught
          cases hcaught
        · rw [hmem, List.mem_cons]
          refine or_congr_right (and_congr_left fun he' => ?_)
          exact ⟨.inr, fun hin => hin.resolve_left fun heq => by
            rw [heq, hload] at he'
            cases he'⟩

/-- A scan goes through where the schema rejects no file. -/
theorem exists_foldlM_ledgerStep {listing : List String}
    (h : ∀ stem ∈ listing, loadVerifiedArtifact rt store stem ≠ .error (.invalid .schema))
    (ledger : ArtifactTable) : ∃ ledger', listing.foldlM (ledgerStep rt store) ledger = .ok ledger' := by
  induction listing generalizing ledger with
  | nil => exact ⟨ledger, rfl⟩
  | cons stem listing ih =>
      obtain ⟨hstem, hlisting⟩ := List.forall_mem_cons.mp h
      obtain ⟨next, hnext⟩ : ∃ next, ledgerStep rt store ledger stem = .ok next := by
        cases hload : loadVerifiedArtifact rt store stem with
        | ok a => exact ⟨_, ledgerStep_ok_iff.mpr (.inl ⟨a, hload, rfl⟩)⟩
        | error e =>
            refine ⟨ledger, ledgerStep_ok_iff.mpr (.inr ⟨e, hload, ?_, rfl⟩)⟩
            unfold caught
            split
            · exact absurd hload hstem
            · rfl
      obtain ⟨ledger', h'⟩ := ih hlisting next
      exact ⟨ledger', by rw [List.foldlM_cons, hnext]; exact h'⟩

/-- A table that holds the loadable artifacts of a ledger, each under its id. -/
def Whole (rt : Runtime) (store : Store) (ledger : ArtifactTable) : Prop :=
  ∀ e, e ∈ ledger.entries ↔ loadVerifiedArtifact rt store e.1 = .ok e.2

/-- **The ledger of a proof is whole**, and is read unless the schema rejects a file. -/
theorem whole_of_verifiedLedger {listing : List String} (hlisting : listing.Perm (listedStems store))
    {ledger : ArtifactTable} (h : verifiedLedger rt store listing = .ok ledger) {stem : String}
    {root : Json} (hroot : loadVerifiedArtifact rt store stem = .ok root) :
    (∀ other ∈ listing, loadVerifiedArtifact rt store other ≠ .error (.invalid .schema)) ∧
      Whole rt store (ledger.put (stem, root)) := by
  obtain ⟨hlegal, hmem⟩ := foldlM_ledgerStep (fun e he => absurd he List.not_mem_nil) h
  refine ⟨hlegal, fun e => ?_⟩
  have hlisted : ∀ e : String × Json, loadVerifiedArtifact rt store e.1 = .ok e.2 →
      e ∈ ledger.entries := fun e he =>
    (hmem e).mpr (.inr ⟨hlisting.mem_iff.mpr (mem_stems_of_load he), he⟩)
  rw [Table.mem_put]
  constructor
  · rintro (rfl | ⟨he, -⟩)
    · exact hroot
    · exact ((hmem e).mp he).elim (fun h => absurd h List.not_mem_nil) And.right
  · intro he
    by_cases hstem : e.1 = stem
    · left
      rw [hstem, hroot] at he
      rw [Except.ok.inj he, ← hstem]
    · exact .inr ⟨hlisted e he, hstem⟩

/-! ## The closure -/

/-- Two entries of a table are joined where one supersedes the other. -/
def Joined (ledger : ArtifactTable) (x y : String) : Prop :=
  ∃ b, (y, b) ∈ ledger.entries ∧ (supersededOf b = some x ∨
    ∃ a, (x, a) ∈ ledger.entries ∧ supersededOf a = some y)

/-- What both closures do at an entry. -/
def absorbLink (ledger : ArtifactTable) (connected : List String) (entry : String × Json) :
    List String :=
  match supersededOf entry.2 with
  | none => connected
  | some p =>
      if p ∈ connected then if entry.1 ∈ connected then connected else connected ++ [entry.1]
      else if entry.1 ∈ connected ∧ p ∈ ledger.entries.map Prod.fst then connected ++ [p]
      else connected

theorem absorbLineage_eq (ledger : ArtifactTable) (connected : List String) (entry : String × Json) :
    absorbLineage ledger connected entry = absorbLink ledger connected entry := by
  unfold absorbLineage absorbLink
  cases supersededOf entry.2 with
  | none => simp
  | some p =>
      have hjoined : (if (some p).any (· ∈ connected) = true ∧ entry.1 ∉ connected
          then connected ++ [entry.1] else connected) =
          if p ∈ connected ∧ entry.1 ∉ connected then connected ++ [entry.1] else connected := by
        simp only [Option.any_some, decide_eq_true_eq]
      simp only [hjoined]
      by_cases hp : p ∈ connected
      · by_cases hid : entry.1 ∈ connected
        · simp only [hp, hid, not_true_eq_false, and_false, if_false, if_true]
        · simp only [hp, hid, not_false_eq_true, and_self, if_true, if_false]
          rw [if_neg fun h => h.2.2 (List.mem_append_left _ hp)]
      · simp only [hp, false_and, if_false, not_false_eq_true, and_true]

theorem absorbProof_eq (ledger : ArtifactTable) (connected : List String) (entry : String × Json) :
    absorbProof ledger connected entry = absorbLink ledger connected entry := by
  unfold absorbProof absorbLink
  cases supersededOf entry.2 with
  | none => rfl
  | some p =>
      by_cases hp : p ∈ connected <;> by_cases hid : entry.1 ∈ connected <;>
        by_cases hkey : p ∈ ledger.entries.map Prod.fst <;> simp only [hp, hid, hkey] <;> simp [hp, hid]

/-- An entry adds to what is connected what it is joined to. -/
theorem absorbs_absorbLink (ledger : ArtifactTable) :
    Absorbs (absorbLink ledger) ledger.entries (ledger.entries.map Prod.fst) (Joined ledger) where
  grows connected entry _ := by
    unfold absorbLink
    split
    · exact List.prefix_rfl
    · split_ifs
      · exact List.prefix_rfl
      · exact List.prefix_append _ _
      · exact List.prefix_append _ _
      · exact List.prefix_rfl
  sound connected entry hentry x hx := by
    unfold absorbLink at hx
    split at hx
    · exact .inl hx
    · rename_i p hp
      split_ifs at hx with hin hid hboth
      · exact .inl hx
      · rcases List.mem_append.mp hx with hx | hx
        · exact .inl hx
        · rw [List.mem_singleton] at hx
          subst hx
          exact .inr ⟨List.mem_map_of_mem hentry, p, hin, entry.2, hentry, .inl hp⟩
      · rcases List.mem_append.mp hx with hx | hx
        · exact .inl hx
        · rw [List.mem_singleton] at hx
          subst hx
          obtain ⟨⟨id, b⟩, hb, hid⟩ := List.mem_map.mp hboth.2
          dsimp only at hid
          subst hid
          exact .inr ⟨hboth.2, entry.1, hboth.1, b, hb, .inr ⟨entry.2, hentry, hp⟩⟩
      · exact .inl hx
  nodup connected entry _ hnodup := by
    have happend : ∀ x, x ∉ connected → (connected ++ [x]).Nodup := fun x hx =>
      List.nodup_append.mpr ⟨hnodup, List.nodup_singleton x, fun y hy z hz =>
        (List.mem_singleton.mp hz) ▸ fun heq => hx (heq ▸ hy)⟩
    unfold absorbLink
    split
    · exact hnodup
    · split_ifs with hin hid hboth
      · exact hnodup
      · exact happend _ hid
      · exact happend _ hin
      · exact hnodup
  closed connected hfixed y hy x hadj := by
    obtain ⟨b, hb, hjoin | ⟨a, ha, hjoin⟩⟩ := hadj
    · by_contra hx
      have hstep := hfixed (x, b) hb
      simp [absorbLink, hjoin, hy, hx] at hstep
    · by_contra hx
      have hstep := hfixed (y, a) ha
      have hkey : x ∈ ledger.entries.map Prod.fst := List.mem_map.mpr ⟨(x, b), hb, rfl⟩
      simp only [absorbLink, hjoin] at hstep
      rw [if_neg hx, if_pos ⟨hy, hkey⟩] at hstep
      simp at hstep

/-- Two artifacts of a ledger are related where one supersedes the other. -/
def Related (rt : Runtime) (store : Store) (x y : String) : Prop :=
  ∃ b, loadVerifiedArtifact rt store y = .ok b ∧ (supersededOf b = some x ∨
    ∃ a, loadVerifiedArtifact rt store x = .ok a ∧ supersededOf a = some y)

/-- What belongs to the chain of an artifact. -/
def InChain (rt : Runtime) (store : Store) (stem x : String) : Prop :=
  Relation.ReflTransGen (Related rt store) stem x

theorem Whole.joined_eq {ledger : ArtifactTable} (h : Whole rt store ledger) :
    Joined ledger = Related rt store := by
  funext x y
  simp only [Joined, Related, h _]

/-- **The lineage is the chain**: its artifacts are those of the ledger that belong to the root's chain,
each once. -/
theorem mem_lineage_iff {ledger : ArtifactTable} (h : Whole rt store ledger) {stem : String}
    {root : Json} (hroot : loadVerifiedArtifact rt store stem = .ok root) {a : Json} :
    a ∈ lineage stem ledger ↔
      ∃ x, InChain rt store stem x ∧ loadVerifiedArtifact rt store x = .ok a := by
  have hstem : stem ∈ ledger.entries.map Prod.fst := List.mem_map_of_mem ((h (stem, root)).mpr hroot)
  have habsorb : absorbLineage ledger = absorbLink ledger := by
    funext connected entry
    exact absorbLineage_eq ledger connected entry
  have hbound : (ledger.entries.map Prod.fst).length ≤ ledger.entries.length := by rw [List.length_map]
  have hmem := fun x => (absorbs_absorbLink ledger).mem_saturate_iff (x := x) hstem hbound
  rw [h.joined_eq] at hmem
  simp only [lineage, List.mem_insertionSort, List.mem_map, List.mem_filterMap, habsorb, hmem]
  constructor
  · rintro ⟨⟨x, b⟩, ⟨y, hy, hget⟩, rfl⟩
    obtain ⟨hentry, rfl⟩ := Table.get?_eq_some_iff.mp hget
    exact ⟨x, hy, (h (x, b)).mp hentry⟩
  · rintro ⟨x, hx, ha⟩
    exact ⟨(x, a), ⟨x, hx, Table.get?_eq_some_iff.mpr ⟨(h (x, a)).mpr ha, rfl⟩⟩, rfl⟩

theorem nodup_lineage {ledger : ArtifactTable} (h : Whole rt store ledger) {stem : String}
    {root : Json} (hroot : loadVerifiedArtifact rt store stem = .ok root) :
    ((lineage stem ledger).map idOf).Nodup := by
  have hstem : stem ∈ ledger.entries.map Prod.fst := List.mem_map_of_mem ((h (stem, root)).mpr hroot)
  have habsorb : absorbLineage ledger = absorbLink ledger := by
    funext connected entry
    exact absorbLineage_eq ledger connected entry
  have hbound : (ledger.entries.map Prod.fst).length ≤ ledger.entries.length := by rw [List.length_map]
  have hnodup := (absorbs_absorbLink ledger).nodup_saturate hstem hbound
  rw [lineage, ((List.perm_insertionSort _ _).map idOf).nodup_iff, List.map_map, habsorb]
  refine List.pairwise_map.mpr (List.pairwise_filterMap.mpr (hnodup.imp ?_))
  rintro _ _ hne ⟨x, a⟩ hgetx ⟨y, b⟩ hgety heq
  obtain ⟨hx, rfl⟩ := Table.get?_eq_some_iff.mp hgetx
  obtain ⟨hy, rfl⟩ := Table.get?_eq_some_iff.mp hgety
  have hids : idOf a = idOf b := heq
  rw [idOf_of_load ((h _).mp hx), idOf_of_load ((h _).mp hy)] at hids
  exact hne (Option.some.inj hids)

/-! ## Descriptors -/

/-- The descriptors of an acceptable artifact are objects with a source and a hash. -/
theorem keyed_of_valid {a : Json} (h : validateArtifact rt a = .ok ()) :
    ∃ ds, snapshotsOf a = some ds ∧
      ∀ d ∈ ds, d.isObj = true ∧ ∃ e, keyedDescriptor d = some e ∧ e.2 = d := by
  have haccepts := (validateArtifact_ok_iff.mp h).1
  obtain ⟨inputs, hinputs⟩ := get_of_required haccepts (show "inputs" ∈ _ by decide)
  obtain ⟨schema, hschema, hblock⟩ :=
    Schema.acceptsProperty_iff.mp (acceptsProperty_of_get haccepts hinputs)
  obtain rfl := Option.some.inj hschema
  obtain ⟨items, hitems⟩ := get_of_required hblock (show "snapshots" ∈ _ by decide)
  obtain ⟨schema, hschema, harray⟩ :=
    Schema.acceptsProperty_iff.mp (acceptsProperty_of_get hblock hitems)
  obtain rfl := Option.some.inj hschema
  cases items with
  | arr ds =>
      refine ⟨ds, by rw [snapshotsOf, hinputs, Option.bind_some, hitems], fun d hd => ?_⟩
      have hsnapshot : (snapshotSchema rt.formats).accepts d = true := by
        rw [accepts, Bool.and_eq_true, List.all_eq_true] at harray
        exact harray.2 d hd
      obtain ⟨source, hsource⟩ :=
        text_of_required hsnapshot (show "source_id" ∈ _ by decide) rfl
      obtain ⟨digest, hdigest⟩ := text_of_required hsnapshot (show "sha256" ∈ _ by decide) rfl
      refine ⟨Schema.isObj_of_accepts hsnapshot, ((source, digest), d), ?_, rfl⟩
      simp only [keyedDescriptor, hsource, hdigest, Option.bind_some, Json.text?, Option.bind_eq_bind]
  | _ => simp [accepts] at harray

/-- The descriptors of acceptable artifacts can be read. -/
theorem exists_keyedDescriptors {artifacts : List Json}
    (h : ∀ a ∈ artifacts, validateArtifact rt a = .ok ()) :
    ∃ keyed, keyedDescriptors artifacts = some keyed ∧ ∀ e, e ∈ keyed ↔
      ∃ a ∈ artifacts, ∃ ds, snapshotsOf a = some ds ∧ e.2 ∈ ds ∧ keyedDescriptor e.2 = some e := by
  obtain ⟨snapshots, hsnapshots⟩ : ∃ snapshots, artifacts.mapM snapshotsOf = some snapshots := by
    refine (Lib.exists_forall₂ fun a ha => ?_).imp fun _ => mapM_eq_some_iff.mpr
    obtain ⟨ds, hds, -⟩ := keyed_of_valid (h a ha)
    exact ⟨ds, hds⟩
  have hmem : ∀ d, d ∈ snapshots.flatten ↔
      ∃ a ∈ artifacts, ∃ ds, snapshotsOf a = some ds ∧ d ∈ ds := by
    intro d
    rw [List.mem_flatten]
    constructor
    · rintro ⟨ds, hds, hd⟩
      obtain ⟨a, ha, hof⟩ := (Lib.mem_of_mapM_eq_some hsnapshots).mp hds
      exact ⟨a, ha, ds, hof, hd⟩
    · rintro ⟨a, ha, ds, hof, hd⟩
      exact ⟨ds, (Lib.mem_of_mapM_eq_some hsnapshots).mpr ⟨a, ha, hof⟩, hd⟩
  have hread : ∀ d ∈ snapshots.flatten, ∃ e, keyedDescriptor d = some e ∧ e.2 = d := by
    intro d hd
    obtain ⟨a, ha, ds, hof, hd⟩ := (hmem d).mp hd
    obtain ⟨ds', hof', hds⟩ := keyed_of_valid (h a ha)
    obtain rfl := Option.some.inj (hof.symm.trans hof')
    exact (hds d hd).2
  obtain ⟨keyed, hkeyed⟩ : ∃ keyed, snapshots.flatten.mapM keyedDescriptor = some keyed :=
    (Lib.exists_forall₂ fun d hd => (hread d hd).imp fun _ h => h.1).imp fun _ =>
      mapM_eq_some_iff.mpr
  refine ⟨keyed, ?_, fun e => ?_⟩
  · simp only [keyedDescriptors, hsnapshots, Option.bind_eq_bind, Option.bind_some, hkeyed]
  · rw [Lib.mem_of_mapM_eq_some hkeyed]
    constructor
    · rintro ⟨d, hd, he⟩
      obtain ⟨e', he', rfl⟩ := hread d hd
      obtain rfl := Option.some.inj (he.symm.trans he')
      obtain ⟨a, ha, ds, hof, hd⟩ := (hmem _).mp hd
      exact ⟨a, ha, ds, hof, hd, he⟩
    · rintro ⟨a, ha, ds, hof, hd, he⟩
      exact ⟨e.2, (hmem _).mpr ⟨a, ha, ds, hof, hd⟩, he⟩

/-! ## The schema -/

/-- An object made of the right fields is accepted. -/
theorem closedObject_mk {properties : List (String × (Json → Bool))} {fields : List (String × Json)}
    (hkeys : ∀ p ∈ properties, p.1 ∈ fields.map Prod.fst)
    (hvalues : ∀ f ∈ fields, ∃ test, Lib.Fields.getField f.1 properties = some test ∧
      test f.2 = true) : closedObject properties (.mk fields) = true := by
  rw [Json.mk, closedObject, Bool.and_eq_true, List.all_eq_true, List.all_eq_true]
  constructor
  · intro p hp
    have hget := Json.get_mk fields p.1
    rw [Json.mk, Json.get] at hget
    cases hfield : Lib.Fields.getField p.1 fields.reverse with
    | none =>
        refine absurd ?_ (Lib.Fields.getField_eq_none.mp hfield)
        rw [List.map_reverse, List.mem_reverse]
        exact hkeys p hp
    | some value =>
        rw [hfield] at hget
        exact List.any_eq_true.mpr ⟨_, Lib.Fields.mem_of_getField hget, decide_eq_true rfl⟩
  · intro f hf
    obtain ⟨test, htest, hvalue⟩ := hvalues f (Json.mem_mk hf)
    rw [htest, Option.any_some, hvalue]

theorem mk_append_singleton (fields : List (String × Json)) (key : String) (value : Json) :
    Json.mk (fields ++ [(key, value)]) = (Json.mk fields).set key value := by
  rw [Json.mk, List.foldl_append, Json.mk, Json.set]
  rfl

/-- A source of a proof is accepted. -/
theorem isSource_sourceJson {manifests : List (String × List Char)}
    {source : (String × String) × Json} (h : source.2.isObj = true) :
    isSource (sourceJson manifests source) = true := by
  refine closedObject_mk (by simp) fun f hf => ?_
  simp only [List.mem_cons, List.not_mem_nil, or_false] at hf
  rcases hf with rfl | rfl | rfl
  · exact ⟨_, rfl, h⟩
  · refine ⟨_, rfl, ?_⟩
    cases Lib.Fields.getField source.1.2 manifests <;> simp [isText, Json.text?]
  · refine ⟨_, rfl, ?_⟩
    cases (Lib.Fields.getField source.1.2 manifests).any (· ≠ []) <;> simp [isConst]

theorem isHexChar_take {s : List Char} (h : s.all isHexChar = true) (n : Nat) :
    (s.take n).all isHexChar = true :=
  List.all_eq_true.mpr fun c hc => List.all_eq_true.mp h c (List.mem_of_mem_take hc)

/-- An artifact's id is a content id. -/
theorem isContentIdText_of_load {stem : String} {a : Json}
    (h : loadVerifiedArtifact rt store stem = .ok a) : isContentIdText stem = true := by
  obtain ⟨-, -, _, hident⟩ := loadVerifiedArtifact_ok h
  obtain ⟨bytes, -, rfl⟩ := Option.map_eq_some_iff.mp hident.id_eq
  obtain ⟨hlength, hhex⟩ := rt.sha256_hex bytes
  refine onLine_of_test ?_
  have htake := isHexChar_take hhex 20
  simp only [idOfDigest, String.toList_append, String.toList_ofList, Bool.and_eq_true,
    decide_eq_true_eq]
  refine ⟨⟨rfl, ?_⟩, ?_⟩
  · show ((rt.sha256 bytes).toList.take 20).length = 20
    rw [List.length_take, hlength]
    rfl
  · exact htake

theorem isBundleText_bundleSha256 (rt : Runtime) (proof : Json) :
    isBundleText (bundleSha256 rt proof) = true := by
  obtain ⟨hlength, hhex⟩ := rt.sha256_hex (Json.dumps (proof.erase "bundle_sha256"))
  refine onLine_of_test ?_
  simp only [bundleSha256, String.toList_append, Bool.and_eq_true, decide_eq_true_eq]
  exact ⟨⟨rfl, hlength⟩, hhex⟩

/-- A proof that was built is accepted. -/
theorem isProof_sealProof {stem version : String} {artifacts sources : List Json}
    (hstem : isContentIdText stem = true) (hne : artifacts ≠ [])
    (hartifacts : ∀ a ∈ artifacts, a.isObj = true) (hsources : ∀ s ∈ sources, isSource s = true) :
    isProof (sealProof rt (proofFields stem version artifacts sources)) = true := by
  rw [sealProof, ← mk_append_singleton, isProof]
  refine closedObject_mk (by simp [proofFields]) fun f hf => ?_
  simp only [proofFields, List.cons_append, List.nil_append, List.mem_cons, List.not_mem_nil,
    or_false] at hf
  rcases hf with rfl | rfl | rfl | rfl | rfl | rfl | rfl
  · exact ⟨_, rfl, by simp [isConst]⟩
  · exact ⟨_, rfl, by simpa [Json.text?] using hstem⟩
  · refine ⟨_, rfl, ?_⟩
    simp only [Bool.and_eq_true, decide_eq_true_eq, List.all_eq_true]
    exact ⟨hne, hartifacts⟩
  · exact ⟨_, rfl, List.all_eq_true.mpr hsources⟩
  · refine ⟨_, rfl, closedObject_mk (by simp) fun g hg => ?_⟩
    simp only [List.mem_cons, List.not_mem_nil, or_false] at hg
    rcases hg with rfl | rfl
    · exact ⟨_, rfl, rfl⟩
    · exact ⟨_, rfl, by simp [isConst]⟩
  · refine ⟨_, rfl, closedObject_mk (by simp) fun g hg => ?_⟩
    simp only [List.mem_cons, List.not_mem_nil, or_false] at hg
    rcases hg with rfl | rfl | rfl
    · exact ⟨_, rfl, by simp [isConst]⟩
    · exact ⟨_, rfl, by simp [isConst]⟩
    · exact ⟨_, rfl, by simp [isConst]⟩
  · exact ⟨_, rfl, by simpa [Json.text?] using isBundleText_bundleSha256 rt _⟩

/-! ## Verification -/

/-- **What it takes to verify a proof.** -/
theorem verifyForecastProof_ok_iff {proof : Json} :
    (∃ report, verifyForecastProof rt proof = .ok report) ↔ isProof proof = true ∧
      proof.get "bundle_sha256" = some (.str (bundleSha256 rt proof)) ∧
      ∃ artifacts, (arrayAt proof "artifacts").foldlM (verifyStep rt) Table.empty = .ok artifacts ∧
      ∃ rootId, (proof.get "root_artifact_id").bind Json.text? = some rootId ∧
        rootId ∈ artifacts.entries.map Prod.fst ∧
        (∀ x, x ∈ saturate (absorbProof artifacts) artifacts.entries
            (artifacts.entries.map Prod.fst).length [rootId] ↔
          x ∈ artifacts.entries.map Prod.fst) ∧
      ∃ descriptors, keyedDescriptors (artifacts.entries.map Prod.snd) = some descriptors ∧
      ∃ artifactSources, descriptors.foldlM Table.putAgreeing (Table.empty : SourceTable) =
          some artifactSources ∧
      ∃ declared, (arrayAt proof "sources").foldlM declareStep Table.empty = .ok declared ∧
        ((∀ e ∈ declared.entries, (artifactSources.get? e.1).isSome = true) ∧
          ∀ e ∈ artifactSources.entries, (declared.get? e.1).isSome = true) ∧
        (∀ e ∈ declared.entries, artifactSources.get? e.1 = some e) ∧
      ∃ checks, (arrayAt proof "sources").mapM (checkSource rt) = .ok checks := by
  simp only [verifyForecastProof, bind_ok_iff, failIf_ok_iff, orFail_ok_iff, pure, Except.pure,
    Except.ok.injEq, not_not, ne_eq, not_exists, Bool.not_eq_false]
  constructor
  · rintro ⟨_, _, hproof, _, hbundle, artifacts, hartifacts, rootId, hid, _, hroot, _, hclosed,
      descriptors, hdescriptors, artifactSources, hagree, declared, hdeclared, _, hsame, _, hequal,
      checks, hchecks, _⟩
    exact ⟨hproof, hbundle, artifacts, hartifacts, rootId, hid, hroot,
      fun x => ⟨hclosed.1 x, hclosed.2 x⟩, descriptors, hdescriptors, artifactSources, hagree,
      declared, hdeclared, hsame, fun e he => not_not.mp fun h => hequal e ⟨he, h⟩, checks, hchecks⟩
  · rintro ⟨hproof, hbundle, artifacts, hartifacts, rootId, hid, hroot, hclosed, descriptors,
      hdescriptors, artifactSources, hagree, declared, hdeclared, hsame, hequal, checks, hchecks⟩
    exact ⟨_, (), hproof, (), hbundle, artifacts, hartifacts, rootId, hid, (), hroot, (),
      ⟨fun x => (hclosed x).mp, fun x => (hclosed x).mpr⟩, descriptors, hdescriptors,
      artifactSources, hagree, declared, hdeclared, (), hsame, (), fun e he => he.2 (hequal e he.1),
      checks, hchecks, rfl⟩

end Golavo.Ledger
