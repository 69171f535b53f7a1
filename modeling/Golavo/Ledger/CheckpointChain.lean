import Golavo.Ledger.Checkpoints
import Golavo.Ledger.SingleResolution

/-! # Checkpoint chains

What a walk that goes through has seen is a **linked** chain: records that each pass their checks and
name the next. A linked chain never comes back to a record, so walking finds it with one step a
record. Every checkpoint that is created links to the chain before it. -/

namespace Golavo.Ledger

open Golavo.Lib (Json Directory bind_ok_iff failIf_ok_iff orFail_ok_iff wrapError_ok_iff
  mapM_eq_ok_iff failIf orFail)

/-! ## Linked chains -/

/-- The records reached from a digest, newest first, each checked and linked to the next. -/
inductive Linked (rt : Runtime) (ledger : CheckpointedLedger) :
    Option String → Option String → List (String × Checkpoint) → Prop where
  | done {promised : Option String} : Linked rt ledger none promised []
  | link {current : String} {promised : Option String} {c : Checkpoint}
      {rest : List (String × Checkpoint)} :
      checkpoint rt ledger.dir current = .ok c → (∀ p ∈ promised, p = c.schemaVersion) →
      (∀ e ∈ c.entries, checkEntry rt ledger.store e = .ok ()) →
      Linked rt ledger c.previous c.promised rest →
      Linked rt ledger (some current) promised ((current, c) :: rest)

section Linked

variable {rt : Runtime} {ledger ledger' : CheckpointedLedger} {current promised : Option String}
  {chain chain' : List (String × Checkpoint)}

/-- One chain hangs on a digest. -/
theorem Linked.unique {promised' : Option String} (h : Linked rt ledger current promised chain)
    (h' : Linked rt ledger current promised' chain') : chain = chain' := by
  induction h generalizing promised' chain' with
  | done => cases h'; rfl
  | link hc _ _ _ ih =>
      cases h' with
      | link hc' _ _ hrest' =>
          rw [hc] at hc'
          obtain rfl := Except.ok.inj hc'
          rw [ih hrest']

/-- Every record of a chain starts the rest of it. -/
theorem Linked.suffix (h : Linked rt ledger current promised chain) {d : String} {c : Checkpoint}
    (hmem : (d, c) ∈ chain) : ∃ promised' rest, Linked rt ledger (some d) promised' ((d, c) :: rest) ∧
      ((d, c) :: rest).length ≤ chain.length := by
  induction h with
  | done => cases hmem
  | link hc hp he hrest ih =>
      rcases List.mem_cons.mp hmem with heq | hmem
      · obtain ⟨rfl, rfl⟩ := Prod.mk.inj heq
        exact ⟨_, _, .link hc hp he hrest, le_rfl⟩
      · obtain ⟨promised', rest, hlinked, hlength⟩ := ih hmem
        exact ⟨promised', rest, hlinked, hlength.trans (Nat.le_succ _)⟩

/-- **A chain never comes back to a record.** -/
theorem Linked.nodup (h : Linked rt ledger current promised chain) :
    (chain.map Prod.fst).Nodup := by
  induction h with
  | done => exact List.nodup_nil
  | link hc hp he hrest ih =>
      rw [List.map_cons, List.nodup_cons]
      refine ⟨fun hmem => ?_, ih⟩
      obtain ⟨⟨d, c'⟩, hother, rfl⟩ := List.mem_map.mp hmem
      obtain ⟨promised', rest', hlinked, hlength⟩ := hrest.suffix hother
      have heq := (Linked.link hc hp he hrest).unique hlinked
      rw [← heq] at hlength
      simp at hlength

/-- A chain's records can be read. -/
theorem Linked.checkpoint_ok (h : Linked rt ledger current promised chain) :
    ∀ p ∈ chain, checkpoint rt ledger.dir p.1 = .ok p.2 := by
  induction h with
  | done => simp
  | link hc _ _ _ ih =>
      intro p hp
      rcases List.mem_cons.mp hp with rfl | hp
      · exact hc
      · exact ih p hp

/-- The artifacts a chain lists are absent or unchanged. -/
theorem Linked.entries_ok (h : Linked rt ledger current promised chain) :
    ∀ p ∈ chain, ∀ e ∈ p.2.entries, checkEntry rt ledger.store e = .ok () := by
  induction h with
  | done => simp
  | link _ _ he _ ih =>
      intro p hp
      rcases List.mem_cons.mp hp with rfl | hp
      · exact he
      · exact ih p hp

/-- A record that can be read is a file. -/
theorem mem_records_of_checkpoint {dir : CheckpointDir} {d : String} {c : Checkpoint}
    (h : checkpoint rt dir d = .ok c) : d ∈ dir.records.files.map Prod.fst := by
  obtain ⟨document, hdocument, -⟩ := bind_ok_iff.mp h
  obtain ⟨content, hcontent, -⟩ := Option.bind_eq_some_iff.mp (orFail_ok_iff.mp hdocument)
  exact List.mem_map_of_mem (f := Prod.fst) (Directory.mem_files.mpr hcontent)

/-- A chain has at most as many records as there are files. -/
theorem Linked.length_le (h : Linked rt ledger current promised chain) :
    chain.length ≤ ledger.dir.records.files.length := by
  have hsub : chain.map Prod.fst ⊆ ledger.dir.records.files.map Prod.fst := by
    intro d hd
    obtain ⟨p, hp, rfl⟩ := List.mem_map.mp hd
    exact mem_records_of_checkpoint (h.checkpoint_ok p hp)
  simpa using (h.nodup.subperm hsub).length_le

/-- What a checked record is: a document that carries the digest in its name and hashes to it, and
says what its predecessor is and which artifacts it lists. -/
theorem checkpoint_ok {dir : CheckpointDir} {d : String} {c : Checkpoint}
    (h : checkpoint rt dir d = .ok c) : ∃ document, dir.records.read d = some (some document) ∧
      document.1.get "checkpoint_sha256" = some (.str d) ∧
      checkpointDigest rt (document.1.erase "checkpoint_sha256") = d ∧
      optionalText document.1 "previous_checkpoint_sha256" = some c.previous ∧
      ∃ items, itemsOf document.1 "artifacts" = some items ∧
        items.foldlM takeEntry [] = .ok c.entries := by
  obtain ⟨document, hdocument, h⟩ := bind_ok_iff.mp h
  obtain ⟨schema, -, h⟩ := bind_ok_iff.mp h
  obtain ⟨_, -, h⟩ := bind_ok_iff.mp h
  obtain ⟨_, hself, h⟩ := bind_ok_iff.mp h
  obtain ⟨_, hdigest, h⟩ := bind_ok_iff.mp h
  obtain ⟨previous, hprevious, h⟩ := bind_ok_iff.mp h
  obtain ⟨_, -, h⟩ := bind_ok_iff.mp h
  obtain ⟨items, hitems, h⟩ := bind_ok_iff.mp h
  obtain ⟨entries, hentries, h⟩ := bind_ok_iff.mp h
  obtain ⟨limits, -, h⟩ := bind_ok_iff.mp h
  obtain ⟨_, -, h⟩ := bind_ok_iff.mp h
  have hc : c.previous = previous ∧ c.entries = entries := by
    by_cases hcurrent : schema = checkpointSchemaVersion
    · rw [if_pos hcurrent] at h
      obtain ⟨_, -, h⟩ := bind_ok_iff.mp h
      obtain ⟨previousSchema, -, h⟩ := bind_ok_iff.mp h
      obtain ⟨_, -, h⟩ := bind_ok_iff.mp h
      rw [← Except.ok.inj h]
      exact ⟨rfl, rfl⟩
    · rw [if_neg hcurrent] at h
      rw [← Except.ok.inj h]
      exact ⟨rfl, rfl⟩
  refine ⟨document, ?_, not_not.mp (failIf_ok_iff.mp hself), not_not.mp (failIf_ok_iff.mp hdigest),
    by rw [hc.1]; exact orFail_ok_iff.mp hprevious, items, orFail_ok_iff.mp hitems,
    by rw [hc.2]; exact hentries⟩
  obtain ⟨content, hcontent, rfl⟩ := Option.bind_eq_some_iff.mp (orFail_ok_iff.mp hdocument)
  exact hcontent

/-- What a walk has seen is linked. -/
theorem linked_of_walk {fuel : Nat} {seen : List String}
    (h : walk rt ledger fuel seen current promised = .ok chain) :
    Linked rt ledger current promised chain := by
  induction fuel generalizing seen current promised chain with
  | zero =>
      cases current with
      | none =>
          obtain rfl := Except.ok.inj h
          exact .done
      | some d => cases h
  | succ fuel ih =>
      cases current with
      | none =>
          obtain rfl := Except.ok.inj h
          exact .done
      | some d =>
          obtain ⟨_, -, h⟩ := bind_ok_iff.mp h
          obtain ⟨c, hc, h⟩ := bind_ok_iff.mp h
          obtain ⟨_, hlink, h⟩ := bind_ok_iff.mp h
          obtain ⟨units, hentries, h⟩ := bind_ok_iff.mp h
          obtain ⟨rest, hrest, h⟩ := bind_ok_iff.mp h
          obtain rfl := Except.ok.inj h
          refine .link hc ?_ ?_ (ih hrest)
          · intro p hp
            have := failIf_ok_iff.mp hlink
            cases hp
            simpa using this
          · intro e he
            have hall := mapM_eq_ok_iff.mp hentries
            obtain ⟨i, hi, rfl⟩ := List.mem_iff_getElem.mp he
            exact (List.forall₂_iff_get.mp hall).2 i hi (hall.length_eq ▸ hi)

/-- **A linked chain is found by walking**, one step a record. -/
theorem walk_of_linked (h : Linked rt ledger current promised chain) {fuel : Nat}
    {seen : List String} (hseen : ∀ p ∈ chain, p.1 ∉ seen) (hfuel : chain.length ≤ fuel) :
    walk rt ledger fuel seen current promised = .ok chain := by
  induction h generalizing fuel seen with
  | done => cases fuel <;> rfl
  | @link d promised c rest hc hp he hrest ih =>
      obtain ⟨fuel, rfl⟩ : ∃ n, fuel = n + 1 := ⟨fuel - 1, by simp at hfuel; omega⟩
      have hnodup := (Linked.link hc hp he hrest).nodup
      rw [List.map_cons, List.nodup_cons] at hnodup
      have hfresh' : ∀ p ∈ rest, p.1 ∉ d :: seen := fun p hp' => by
        rw [List.mem_cons, not_or]
        refine ⟨?_, hseen p (List.mem_cons_of_mem _ hp')⟩
        intro heq
        have hmem := List.mem_map_of_mem (f := Prod.fst) hp'
        rw [heq] at hmem
        exact hnodup.1 hmem
      have hrest_le : rest.length ≤ fuel := by simpa using hfuel
      have hnext := ih hfresh' hrest_le
      obtain ⟨units, hunits⟩ : ∃ units : List Unit, List.Forall₂
          (fun e _ => checkEntry rt ledger.store e = .ok ()) c.entries units :=
        Lib.exists_forall₂ fun e he' => ⟨(), he e he'⟩
      have hentries : c.entries.mapM (checkEntry rt ledger.store) = .ok units :=
        mapM_eq_ok_iff.mpr (hunits.imp fun e u h => h)
      have hlink : ¬ (promised.any (· ≠ c.schemaVersion)) = true := by
        cases promised with
        | none => simp
        | some p => simp [hp p rfl]
      have hfresh : d ∉ seen := hseen (d, c) List.mem_cons_self
      simp only [walk, failIf, if_neg hfresh, hc, if_neg hlink, hentries, hnext, bind, Except.bind,
        pure, Except.pure]

/-- A chain stays linked where its records and the artifacts it lists stay. -/
theorem Linked.congr (h : Linked rt ledger current promised chain)
    (hrecords : ∀ p ∈ chain, ledger'.dir.records.read p.1 = ledger.dir.records.read p.1)
    (hentries : ∀ p ∈ chain, ∀ e ∈ p.2.entries, checkEntry rt ledger'.store e = .ok ()) :
    Linked rt ledger' current promised chain := by
  induction h with
  | done => exact .done
  | @link d promised c rest hc hp he hrest ih =>
      refine .link ?_ hp (hentries (d, c) List.mem_cons_self)
        (ih (fun p hp' => hrecords p (List.mem_cons_of_mem _ hp'))
          fun p hp' => hentries p (List.mem_cons_of_mem _ hp'))
      rw [← hc]
      unfold checkpoint
      rw [hrecords (d, c) List.mem_cons_self]

end Linked

/-! ## A verified ledger -/

section Status

variable {rt : Runtime} {ledger : CheckpointedLedger} {status : CheckpointStatus}

/-- What a head promises is a digest and a supported schema, or there is no head. -/
structure HeadShape (status : CheckpointStatus) : Prop where
  digest : ∀ head ∈ status.head, isDigestText head = true
  schema : ∀ schema ∈ status.headSchemaVersion, schema ∈ supportedSchemaVersions
  both : status.head.isSome = status.headSchemaVersion.isSome

/-- **What `status` reports**: the chain linked from the head, the artifacts it lists that are absent,
and those the newest record does not list. -/
theorem checkpointStatus_ok (h : checkpointStatus rt ledger = .ok status) :
    Linked rt ledger status.head status.headSchemaVersion status.chain ∧ HeadShape status ∧
      (ledger.dir.head = none → status.chain = [] ∧ status.head = none ∧
        ledger.dir.records.files = []) ∧
      (∀ content ∈ ledger.dir.head, ∃ document, content = some document ∧
        ∃ head schema, headOf document = some (head, schema) ∧ status.head = some head ∧
          status.headSchemaVersion = some schema) ∧
      ∀ id, id ∈ status.missingArtifacts ↔ (∃ p ∈ status.chain, ∃ e ∈ p.2.entries,
        e.artifactId = id) ∧ ledger.store.artifacts.read id = none := by
  unfold checkpointStatus at h
  split at h
  · rename_i hhead
    obtain ⟨_, hrecords, h⟩ := bind_ok_iff.mp h
    have hrecords := not_not.mp (failIf_ok_iff.mp hrecords)
    obtain rfl := Except.ok.inj h
    refine ⟨.done, ⟨by simp, by simp, rfl⟩, fun _ => ⟨rfl, rfl, hrecords⟩, by simp [hhead], by simp⟩
  · rename_i content hhead
    obtain ⟨document, hdocument, h⟩ := bind_ok_iff.mp h
    obtain ⟨⟨head, schema⟩, hheadOf, h⟩ := bind_ok_iff.mp h
    obtain ⟨chain, hchain, h⟩ := bind_ok_iff.mp h
    obtain rfl := Except.ok.inj h
    have hheadOf := orFail_ok_iff.mp hheadOf
    have hshape : isDigestText head = true ∧ schema ∈ supportedSchemaVersions := by
      obtain ⟨schema', -, hrest⟩ := Option.bind_eq_some_iff.mp hheadOf
      obtain ⟨digest', -, hrest⟩ := Option.bind_eq_some_iff.mp hrest
      split_ifs at hrest with hcond
      · obtain ⟨rfl, rfl⟩ := Prod.mk.inj (Option.some.inj hrest)
        exact ⟨hcond.2, hcond.1⟩
    refine ⟨linked_of_walk hchain, ⟨by simpa using hshape.1, by simpa using hshape.2, rfl⟩,
      by simp [hhead], ?_, fun id => ?_⟩
    · intro content' hcontent
      rw [hhead] at hcontent
      obtain rfl := Option.some.inj hcontent
      exact ⟨document, orFail_ok_iff.mp hdocument, head, schema, hheadOf, rfl, rfl⟩
    · simp only [(List.perm_insertionSort _ _).mem_iff, List.mem_dedup, List.mem_filter,
        List.mem_flatMap, List.mem_map, Option.isNone_iff_eq_none]

/-- A ledger whose head starts a linked chain is verified, with that chain. -/
theorem exists_checkpointStatus {document : Document} {head schema : String}
    {chain : List (String × Checkpoint)} (hdir : ledger.dir.head = some (some document))
    (hhead : headOf document = some (head, schema))
    (hlinked : Linked rt ledger (some head) (some schema) chain) :
    ∃ status, checkpointStatus rt ledger = .ok status ∧ status.chain = chain ∧
      status.head = some head ∧ status.headSchemaVersion = some schema := by
  have hwalk : walk rt ledger (ledger.dir.records.files.length + 1) [] (some head) (some schema) =
      .ok chain := walk_of_linked hlinked (by simp) (hlinked.length_le.trans (Nat.le_succ _))
  have hstatus : checkpointStatus rt ledger = .ok
      ⟨chain, some head, some schema,
        (((chain.flatMap fun c => c.2.entries.map CheckpointEntry.artifactId).filter
          fun id => (ledger.store.artifacts.read id).isNone).dedup).insertionSort (· ≤ ·),
        (artifactStems ledger.store).filter
          (· ∉ (chain.head?.map fun c => c.2.entries.map CheckpointEntry.artifactId).getD [])⟩ := by
    simp only [checkpointStatus, hdir, hhead, hwalk, orFail, bind, Except.bind, pure, Except.pure]
  exact ⟨_, hstatus, rfl, rfl, rfl⟩

end Status

/-! ## A new checkpoint -/

section Create

variable {rt : Runtime} {ledger : CheckpointedLedger} {now : Int} {body : Document}

/-- What a checkpoint made now would list: every artifact file with the digest of its bytes. -/
def listing (rt : Runtime) (store : Store) : List CheckpointEntry :=
  (artifactStems store).filterMap fun stem =>
    (store.artifacts.read stem).map fun text => ⟨stem, rt.sha256 text⟩

theorem isDigestText_sha256 (rt : Runtime) (bytes : List Char) :
    isDigestText (rt.sha256 bytes) = true := by
  obtain ⟨hlength, hhex⟩ := rt.sha256_hex bytes
  simp [isDigestText, hlength, hhex]

theorem isCanonicalArtifactId_idOfDigest (rt : Runtime) (bytes : List Char) :
    isCanonicalArtifactId (idOfDigest (rt.sha256 bytes)) = true := by
  obtain ⟨hlength, hhex⟩ := rt.sha256_hex bytes
  have htext : (idOfDigest (rt.sha256 bytes)).toList =
      ['f', 'a', '_'] ++ (rt.sha256 bytes).toList.take 20 := by
    simp [idOfDigest]
  have hall : ((rt.sha256 bytes).toList.take 20).all isHexChar = true :=
    List.all_eq_true.mpr fun c hc => List.all_eq_true.mp hhex c (List.mem_of_mem_take hc)
  rw [isCanonicalArtifactId, htext]
  simp [hlength, hall]

/-- The entry of an artifact file is read back as its name and the digest of its bytes. -/
theorem entryOfFile_ok {store : Store} {stem : String} {document : Document}
    (h : entryOfFile rt store stem = .ok document) : ∃ text,
      store.artifacts.read stem = some text ∧
        entryOf document.1 = .ok ⟨stem, rt.sha256 text⟩ := by
  obtain ⟨a, hload, h⟩ := bind_ok_iff.mp h
  obtain ⟨id, hid, h⟩ := bind_ok_iff.mp h
  obtain ⟨text, htext, h⟩ := bind_ok_iff.mp h
  obtain rfl := Except.ok.inj h
  obtain ⟨-, -, digest, hident⟩ := loadVerifiedArtifact_ok (wrapError_ok_iff.mp hload)
  have hid := orFail_ok_iff.mp hid
  rw [idOf, hident.artifact_id] at hid
  obtain rfl : stem = id := Option.some.inj hid
  have hcanonical : isCanonicalArtifactId stem = true := by
    obtain ⟨bytes, -, rfl⟩ := Option.map_eq_some_iff.mp hident.id_eq
    exact isCanonicalArtifactId_idOfDigest rt bytes
  refine ⟨text, orFail_ok_iff.mp htext, ?_⟩
  simp [entryOf, Json.get_mk, Lib.Fields.getField, Json.text?, orFail, failIf, hcanonical,
    isDigestText_sha256, bind, Except.bind, pure, Except.pure]

theorem forall₂_entryOf {store : Store} {stems : List String} {documents : List Document}
    (h : List.Forall₂ (fun stem document => entryOfFile rt store stem = .ok document) stems
      documents) :
    List.Forall₂ (fun item e => entryOf item = .ok e) (documents.map Subtype.val)
      (stems.filterMap fun stem => (store.artifacts.read stem).map fun text =>
        ⟨stem, rt.sha256 text⟩) := by
  induction h with
  | nil => exact .nil
  | cons hentry _ ih =>
      obtain ⟨text, htext, hread⟩ := entryOfFile_ok hentry
      rw [List.filterMap_cons, htext, Option.map_some]
      exact .cons hread ih

/-- Entries with distinct ids are taken in order. -/
theorem foldlM_takeEntry {items : List Json} {entries : List CheckpointEntry}
    (h : List.Forall₂ (fun item e => entryOf item = .ok e) items entries)
    (seen : List CheckpointEntry)
    (hnodup : ((seen ++ entries).map CheckpointEntry.artifactId).Nodup) :
    items.foldlM takeEntry seen = .ok (seen ++ entries) := by
  induction h generalizing seen with
  | nil => simp [pure, Except.pure]
  | @cons item e items entries he _ ih =>
      have hfresh : e.artifactId ∉ seen.map CheckpointEntry.artifactId := by
        intro hmem
        rw [List.map_append, List.nodup_append] at hnodup
        exact hnodup.2.2 _ hmem _ (by simp) rfl
      have htake : takeEntry seen item = .ok (seen ++ [e]) := by
        simp only [takeEntry, he, failIf, if_neg hfresh, bind, Except.bind, pure, Except.pure]
      rw [List.foldlM_cons, htake]
      have hrest := ih (seen ++ [e]) (by simpa using hnodup)
      rwa [List.append_assoc, List.singleton_append] at hrest

theorem artifactStems_nodup (store : Store) : (artifactStems store).Nodup :=
  List.Nodup.filter _ (store.artifacts.sorted.imp fun h => h.ne)

/-- The files a plan lists are those of the ledger, and their entries read back as the listing. -/
theorem planCheckpoint_ok (h : planCheckpoint rt ledger now = .ok body) :
    ∃ status documents, checkpointStatus rt ledger = .ok status ∧
      body = checkpointBody status documents now ∧
      (documents.map Subtype.val).foldlM takeEntry [] = .ok (listing rt ledger.store) ∧
      ∀ stem ∈ artifactStems ledger.store, ∃ a, loadVerifiedArtifact rt ledger.store stem = .ok a := by
  obtain ⟨status, hstatus, h⟩ := bind_ok_iff.mp h
  obtain ⟨documents, hdocuments, h⟩ := bind_ok_iff.mp h
  have hall := mapM_eq_ok_iff.mp hdocuments
  have hlisting : List.Forall₂ (fun item e => entryOf item = .ok e) (documents.map Subtype.val)
      (listing rt ledger.store) := forall₂_entryOf hall
  have hids : ((listing rt ledger.store).map CheckpointEntry.artifactId).Nodup := by
    have hsub : (listing rt ledger.store).map CheckpointEntry.artifactId =
        (artifactStems ledger.store).filterMap fun stem =>
          (ledger.store.artifacts.read stem).map fun _ => stem := by
      rw [listing, List.map_filterMap]
      congr 1
      funext stem
      cases ledger.store.artifacts.read stem <;> rfl
    rw [hsub]
    refine List.pairwise_filterMap.mpr ((artifactStems_nodup ledger.store).imp ?_)
    rintro a b hne x hx y hy rfl
    obtain ⟨-, -, rfl⟩ := Option.map_eq_some_iff.mp hx
    obtain ⟨-, -, rfl⟩ := Option.map_eq_some_iff.mp hy
    exact hne rfl
  refine ⟨status, documents, hstatus, (Except.ok.inj h).symm,
    by simpa using foldlM_takeEntry hlisting [] (by simpa using hids), fun stem hstem => ?_⟩
  obtain ⟨i, hi, rfl⟩ := List.mem_iff_getElem.mp hstem
  have hentry := (List.forall₂_iff_get.mp hall).2 i hi (hall.length_eq ▸ hi)
  obtain ⟨a, hload, -⟩ := bind_ok_iff.mp hentry
  exact ⟨a, wrapError_ok_iff.mp hload⟩

/-- What the record of a plan says. -/
def planned (rt : Runtime) (store : Store) (status : CheckpointStatus) : Checkpoint :=
  ⟨checkpointSchemaVersion, status.head, status.headSchemaVersion, listing rt store⟩

theorem optionalText_textOrNull {j : Json} {key : String} {s : Option String}
    (h : j.get key = some (textOrNull s)) : optionalText j key = some s := by
  cases s <;> simp [optionalText, h, textOrNull]

/-- **A record of a planned body is read back as the plan**, wherever its file is. -/
theorem checkpoint_of_body {dir : CheckpointDir} {status : CheckpointStatus}
    {documents : List Document} {store : Store} (hshape : HeadShape status)
    (hentries : (documents.map Subtype.val).foldlM takeEntry [] = .ok (listing rt store))
    (hread : dir.records.read (checkpointDigest rt (checkpointBody status documents now).1) =
      some (some (checkpointRecord
        (checkpointDigest rt (checkpointBody status documents now).1)
        (checkpointBody status documents now)))) :
    checkpoint rt dir (checkpointDigest rt (checkpointBody status documents now).1) =
      .ok (planned rt store status) := by
  set body := checkpointBody status documents now with hbody
  set digest := checkpointDigest rt body.1 with hdigest
  have hobj : body.1.isObj = true := rfl
  have hget : ∀ key, key ≠ "checkpoint_sha256" →
      (checkpointRecord digest body).1.get key = body.1.get key := fun key hkey => by
    rw [checkpointRecord, Json.get_set_ne hkey]
  have herase : (checkpointRecord digest body).1.erase "checkpoint_sha256" = body.1 := by
    rw [checkpointRecord, Json.erase_set, Json.erase_eq_self]
    simp [hbody, checkpointBody, Json.get_mk, Lib.Fields.getField]
  have hschema : ((checkpointRecord digest body).1.get "schema_version").bind Json.text? =
      some checkpointSchemaVersion := by
    rw [hget _ (by decide)]
    simp [hbody, checkpointBody, Json.get_mk, Lib.Fields.getField, Json.text?]
  have hprevious : optionalText (checkpointRecord digest body).1 "previous_checkpoint_sha256" =
      some status.head := by
    refine optionalText_textOrNull ?_
    rw [hget _ (by decide)]
    simp [hbody, checkpointBody, Json.get_mk, Lib.Fields.getField]
  have hprevSchema : optionalText (checkpointRecord digest body).1 "previous_schema_version" =
      some status.headSchemaVersion := by
    refine optionalText_textOrNull ?_
    rw [hget _ (by decide)]
    simp [hbody, checkpointBody, Json.get_mk, Lib.Fields.getField]
  have hartifacts : itemsOf (checkpointRecord digest body).1 "artifacts" =
      some (documents.map Subtype.val) := by
    rw [itemsOf, hget _ (by decide)]
    simp [hbody, checkpointBody, Json.get_mk, Lib.Fields.getField]
  have hlimits : itemsOf (checkpointRecord digest body).1 "limits" =
      some (checkpointLimits.map Json.str) := by
    rw [itemsOf, hget _ (by decide)]
    simp [hbody, checkpointBody, Json.get_mk, Lib.Fields.getField]
  have hcount : (checkpointRecord digest body).1.get "artifact_count" =
      some (.int (documents.map Subtype.val).length) := by
    rw [hget _ (by decide)]
    simp [hbody, checkpointBody, Json.get_mk, Lib.Fields.getField]
  have hself : (checkpointRecord digest body).1.get "checkpoint_sha256" = some (.str digest) :=
    Json.get_set_self hobj _ _
  have hsupported : ¬ checkpointSchemaVersion ∉ supportedSchemaVersions := by decide
  have hvalid : ¬ (status.head.any (isDigestText · = false)) = true := by
    cases hhead : status.head with
    | none => simp
    | some head => simp [hshape.digest head (by simp [hhead])]
  have htexts : ¬ ((checkpointLimits.map Json.str).any (·.text?.isNone)) = true := by
    simp [Json.text?]
  have hlinkSchema : ¬ (if status.head.isNone = true then status.headSchemaVersion.isSome
      else status.headSchemaVersion.all (· ∉ supportedSchemaVersions)) = true := by
    have hboth := hshape.both
    cases hhead : status.head with
    | none => simp_all
    | some head =>
        cases hschema' : status.headSchemaVersion with
        | none => simp [hhead, hschema'] at hboth
        | some schema => simp [hshape.schema schema (by simp [hschema'])]
  simp only [checkpoint, hread, Option.bind_some, id, orFail, hschema, failIf,
    if_neg hsupported, hself, ne_eq, not_true_eq_false, if_false, herase, ← hdigest, hprevious,
    if_neg hvalid, hartifacts, hentries, hlimits, if_neg htexts, if_true, hcount, hprevSchema,
    if_neg hlinkSchema, bind, Except.bind, pure, Except.pure, planned]

end Create

end Golavo.Ledger
