import Golavo.Ledger.CheckpointCrash
import Mathlib.Data.Set.Function

/-! # Tampering with checkpoints

The head names the newest record by its digest and each record names the one before it, so the head
commits to everything `create` ever wrote. Whatever is done to the other files afterwards, a
ledger that verifies still has every record with the body it was created with, and every artifact a
record lists is unchanged or reported missing. -/

namespace Golavo.Ledger

open Golavo.Lib (Json Directory bind_ok_iff failIf_ok_iff)
open Relation (ReflTransGen TransGen)

/-! ## What was created -/

/-- A checkpoint as it was created: the record, and the artifacts there were. -/
structure Creation where
  record : Document
  store : Store

/-- A record without its digest. -/
def bodyOf (document : Document) : Json := document.1.erase "checkpoint_sha256"

theorem wf_bodyOf (document : Document) : (bodyOf document).WF := Json.wf_erase document.2 _

/-- The digest a checkpoint was created under. -/
def Creation.digest (rt : Runtime) (p : Creation) : String := checkpointDigest rt (bodyOf p.record)

/-- Whether a checkpoint lists an artifact file, with these bytes. -/
def Creation.Lists (p : Creation) (stem : String) (text : List Char) : Prop :=
  stem ∈ artifactStems p.store ∧ p.store.artifacts.read stem = some text

/-- A run of `create`, with the artifacts changing between its calls as they may, and the checkpoints
it created, newest first. -/
inductive Created (rt : Runtime) : CheckpointedLedger → List Creation → Prop where
  | start : Created rt emptyCheckpointed []
  | artifacts {ledger : CheckpointedLedger} {created : List Creation} (store : Store) :
      Created rt ledger created → Created rt { ledger with store := store } created
  | create {ledger next : CheckpointedLedger} {created : List Creation} {record : Document}
      (now : Int) : Created rt ledger created →
      createCheckpoint rt ledger now = .ok (record, next) →
      Created rt next (⟨record, ledger.store⟩ :: created)

/-- What a record says of its predecessor and of the artifacts. -/
structure Creation.Follows (rt : Runtime) (p : Creation) (previous : Option String) : Prop where
  previous : optionalText (bodyOf p.record) "previous_checkpoint_sha256" = some previous
  entries : ∃ items, itemsOf (bodyOf p.record) "artifacts" = some items ∧
    items.foldlM takeEntry [] = .ok (listing rt p.store)

/-- Each checkpoint follows the one before it. -/
def Lineage (rt : Runtime) : List Creation → Prop
  | [] => True
  | p :: earlier => p.Follows rt (earlier.head?.map (·.digest rt)) ∧ Lineage rt earlier

section Created

variable {rt : Runtime} {ledger : CheckpointedLedger} {created : List Creation}

theorem bodyOf_checkpointRecord (digest : String) (status : CheckpointStatus)
    (documents : List Document) (now : Int) :
    bodyOf (checkpointRecord digest (checkpointBody status documents now)) =
      (checkpointBody status documents now).1 := by
  rw [bodyOf, checkpointRecord, Json.erase_set, Json.erase_eq_self]
  simp [checkpointBody, Json.get_mk, Lib.Fields.getField]

/-- What `create` returns and leaves. -/
theorem createCheckpoint_ok {now : Int} {record : Document} {next : CheckpointedLedger}
    (h : createCheckpoint rt ledger now = .ok (record, next)) : ∃ body,
      planCheckpoint rt ledger now = .ok body ∧
        record = checkpointRecord (checkpointDigest rt body.1) body ∧
        next = withHead rt body ledger := by
  obtain ⟨body, hplan, h⟩ := bind_ok_iff.mp h
  obtain ⟨rfl, rfl⟩ := Prod.mk.inj (Except.ok.inj h)
  exact ⟨body, hplan, rfl, completed_createScript ledger body⟩

/-- **The head names the newest checkpoint.** -/
theorem Created.head (h : Created rt ledger created) : ledger.dir.head =
    created.head?.map fun p => some (headRecord (p.digest rt)) := by
  induction h with
  | start => rfl
  | artifacts store _ ih => exact ih
  | create now _ hcreate _ =>
      obtain ⟨body, hplan, rfl, rfl⟩ := createCheckpoint_ok hcreate
      obtain ⟨status, documents, -, rfl, -⟩ := planCheckpoint_ok hplan
      rw [List.head?_cons, Option.map_some, Creation.digest, bodyOf_checkpointRecord]
      rfl

/-- The head of a verified ledger whose head file was not touched is the newest checkpoint. -/
theorem head_of_created {tampered : CheckpointedLedger} {status : CheckpointStatus}
    (h : Created rt ledger created) (hhead : tampered.dir.head = ledger.dir.head)
    (hstatus : checkpointStatus rt tampered = .ok status) :
    status.head = created.head?.map (·.digest rt) := by
  obtain ⟨-, -, hnone, hsome, -⟩ := checkpointStatus_ok hstatus
  have hfile := hhead.trans h.head
  cases hcreated : created.head? with
  | none =>
      rw [hcreated] at hfile
      exact (hnone hfile).2.1
  | some p =>
      rw [hcreated] at hfile
      obtain ⟨document, hdocument, head, schema, hheadOf, hstatusHead, -⟩ :=
        hsome _ (by rw [hfile]; rfl)
      obtain rfl := Option.some.inj hdocument
      have hdigest : isDigestText (p.digest rt) = true := isDigestText_sha256 rt _
      rw [headOf_headRecord hdigest] at hheadOf
      obtain ⟨rfl, rfl⟩ := Prod.mk.inj (Option.some.inj hheadOf)
      rw [hstatusHead]
      rfl

/-- **Every checkpoint created follows the one before it.** -/
theorem Created.lineage (h : Created rt ledger created) : Lineage rt created := by
  induction h with
  | start => exact trivial
  | artifacts store _ ih => exact ih
  | create now hbefore hcreate ih =>
      obtain ⟨body, hplan, rfl, rfl⟩ := createCheckpoint_ok hcreate
      obtain ⟨status, documents, hstatus, rfl, hentries, -⟩ := planCheckpoint_ok hplan
      refine ⟨⟨?_, documents.map Subtype.val, ?_, hentries⟩, ih⟩
      · refine optionalText_textOrNull ?_
        rw [bodyOf_checkpointRecord, ← head_of_created hbefore rfl hstatus]
        simp [checkpointBody, Json.get_mk, Lib.Fields.getField]
      · rw [bodyOf_checkpointRecord]
        simp [itemsOf, checkpointBody, Json.get_mk, Lib.Fields.getField]

end Created

/-! ## Reachable records -/

/-- Whether a record names another as its predecessor. -/
def Precedes (dir : CheckpointDir) (d previous : String) : Prop :=
  ∃ document, dir.records.read d = some (some document) ∧
    optionalText document.1 "previous_checkpoint_sha256" = some (some previous)

section Reachable

variable {rt : Runtime} {ledger : CheckpointedLedger} {current promised : Option String}
  {chain : List (String × Checkpoint)}

/-- The predecessor a checked record names. -/
theorem precedes_iff {d previous : String} {c : Checkpoint}
    (h : checkpoint rt ledger.dir d = .ok c) :
    Precedes ledger.dir d previous ↔ c.previous = some previous := by
  obtain ⟨document, hread, -, -, hprevious, -⟩ := checkpoint_ok h
  constructor
  · rintro ⟨document', hread', hprevious'⟩
    obtain rfl := Option.some.inj (Option.some.inj (hread.symm.trans hread'))
    exact Option.some.inj (hprevious.symm.trans hprevious')
  · intro heq
    exact ⟨document, hread, by rw [hprevious, heq]⟩

/-- A chain that hangs on a digest starts with its record. -/
theorem Linked.mem_head {d : String} (h : Linked rt ledger (some d) promised chain) :
    d ∈ chain.map Prod.fst := by
  cases h with
  | link _ _ _ _ => exact List.mem_cons_self

/-- A chain holds the predecessor of each of its records. -/
theorem Linked.closed (h : Linked rt ledger current promised chain) :
    ∀ p ∈ chain, ∀ d, p.2.previous = some d → d ∈ chain.map Prod.fst := by
  induction h with
  | done => simp
  | link hc hp he hrest ih =>
      intro p hp d hprevious
      rcases List.mem_cons.mp hp with rfl | hp
      · rw [hprevious] at hrest
        exact List.mem_cons_of_mem _ hrest.mem_head
      · exact List.mem_cons_of_mem _ (ih p hp d hprevious)

/-- **The records of a chain are those reachable from its start.** -/
theorem Linked.reachable_iff {head d : String} (h : Linked rt ledger (some head) promised chain) :
    ReflTransGen (Precedes ledger.dir) head d ↔ d ∈ chain.map Prod.fst := by
  constructor
  · intro hreach
    induction hreach with
    | refl => exact h.mem_head
    | tail _ hstep ih =>
        obtain ⟨p, hp, rfl⟩ := List.mem_map.mp ih
        exact h.closed p hp _ ((precedes_iff (h.checkpoint_ok p hp)).mp hstep)
  · intro hmem
    generalize hcurrent : some head = current at h
    induction h generalizing head with
    | done => cases hcurrent
    | @link start promised c rest hc hp he hrest ih =>
        obtain rfl := Option.some.inj hcurrent
        rcases List.mem_cons.mp hmem with rfl | hmem
        · exact .refl
        · cases hprevious : c.previous with
          | none =>
              rw [hprevious] at hrest
              have hdone : Linked rt ledger none none [] := .done
              rw [hrest.unique hdone] at hmem
              cases hmem
          | some previous =>
              exact .head ((precedes_iff hc).mpr hprevious) (ih hmem hprevious.symm)

/-- **No record of a chain comes before itself.** -/
theorem Linked.acyclic {d : String} (h : Linked rt ledger current promised chain)
    (hmem : d ∈ chain.map Prod.fst) : ¬ TransGen (Precedes ledger.dir) d d := by
  intro hcycle
  obtain ⟨⟨d, c⟩, hrecord, rfl⟩ := List.mem_map.mp hmem
  obtain ⟨promised', rest, hsuffix, -⟩ := h.suffix hrecord
  obtain ⟨previous, hstep, hback⟩ := Relation.TransGen.head'_iff.mp hcycle
  have hnodup := hsuffix.nodup
  rw [List.map_cons, List.nodup_cons] at hnodup
  cases hsuffix with
  | link hc _ _ hrest =>
      rw [(precedes_iff hc).mp hstep] at hrest
      exact hnodup.1 (hrest.reachable_iff.mp hback)

/-- The last record of a chain is the one without a predecessor. -/
theorem Linked.previous_eq_none_iff (h : Linked rt ledger current promised chain) :
    ∀ p ∈ chain, p.2.previous = none ↔ p.1 ∈ (chain.map Prod.fst).getLast? := by
  induction h with
  | done => simp
  | @link start promised c rest hc hp he hrest ih =>
      have hnodup := (Linked.link hc hp he hrest).nodup
      rw [List.map_cons, List.nodup_cons] at hnodup
      intro p hmem
      cases hprevious : c.previous with
      | none =>
          rw [hprevious] at hrest
          have hdone : Linked rt ledger none none [] := .done
          obtain rfl := hrest.unique hdone
          obtain rfl := List.mem_singleton.mp hmem
          simp [hprevious]
      | some previous =>
          rw [hprevious] at hrest
          have hne : rest.map Prod.fst ≠ [] := List.ne_nil_of_mem hrest.mem_head
          rw [List.map_cons, List.getLast?_cons_of_ne_nil hne]
          rcases List.mem_cons.mp hmem with rfl | hmem
          · refine iff_of_false (by simp [hprevious]) fun hlast => ?_
            exact hnodup.1 (List.mem_of_getLast? hlast)
          · exact ih p hmem

end Reachable

/-! ## Tamper evidence -/

/-- The byte strings whose digests tell a tampered ledger from the one that was created: the bodies of
the records created and of those there now, and the artifacts that were there and that are. -/
inductive HashedText (created : List Creation) (tampered : CheckpointedLedger) : List Char → Prop where
  | created {p : Creation} : p ∈ created →
      HashedText created tampered (Json.dumps (bodyOf p.record))
  | record {d : String} {document : Document} :
      tampered.dir.records.read d = some (some document) →
      HashedText created tampered (Json.dumps (bodyOf document))
  | listed {p : Creation} {stem : String} {text : List Char} : p ∈ created →
      p.store.artifacts.read stem = some text → HashedText created tampered text
  | present {stem : String} {text : List Char} :
      tampered.store.artifacts.read stem = some text → HashedText created tampered text

/-- What a ledger shows of what was done to its files. -/
structure TamperEvident (rt : Runtime) (created : List Creation) (tampered : CheckpointedLedger) :
    Prop where
  /-- An artifact a checkpoint lists that is there with other bytes is refused. -/
  changed : ∀ p ∈ created, ∀ stem text other, p.Lists stem text →
    tampered.store.artifacts.read stem = some other → other ≠ text →
    ∃ e, checkpointStatus rt tampered = .error e
  /-- The missing artifacts are those a checkpoint lists that are not there. -/
  missing : ∀ status, checkpointStatus rt tampered = .ok status → ∀ stem,
    stem ∈ status.missingArtifacts ↔
      (∃ p ∈ created, ∃ text, p.Lists stem text) ∧ tampered.store.artifacts.read stem = none
  /-- The head is the newest checkpoint. -/
  head : ∀ status, checkpointStatus rt tampered = .ok status →
    status.head = created.head?.map (·.digest rt)
  /-- A reachable record has the body it was created with. -/
  bodies : ∀ status, checkpointStatus rt tampered = .ok status → ∀ head ∈ status.head, ∀ d,
    ReflTransGen (Precedes tampered.dir) head d → ∃ p ∈ created, d = p.digest rt ∧
      ∃ document, tampered.dir.records.read d = some (some document) ∧
        bodyOf document = bodyOf p.record
  /-- Every checkpoint created is reachable. -/
  complete : ∀ status, checkpointStatus rt tampered = .ok status → ∀ head ∈ status.head,
    ∀ p ∈ created, ReflTransGen (Precedes tampered.dir) head (p.digest rt)
  /-- No reachable record comes before itself. -/
  acyclic : ∀ status, checkpointStatus rt tampered = .ok status → ∀ head ∈ status.head, ∀ d,
    ReflTransGen (Precedes tampered.dir) head d → ¬ TransGen (Precedes tampered.dir) d d
  /-- The chain ends at the first checkpoint, and nowhere else. -/
  ends : ∀ status, checkpointStatus rt tampered = .ok status → ∀ head ∈ status.head, ∀ d,
    ReflTransGen (Precedes tampered.dir) head d →
    ((∀ previous, ¬ Precedes tampered.dir d previous) ↔
      d ∈ created.getLast?.map (·.digest rt))

/-- A record found where a checkpoint was created. -/
structure Kept (rt : Runtime) (tampered : CheckpointedLedger) (p : Creation)
    (found : String × Checkpoint) : Prop where
  digest : found.1 = p.digest rt
  body : ∃ document, tampered.dir.records.read found.1 = some (some document) ∧
    bodyOf document = bodyOf p.record
  entries : found.2.entries = listing rt p.store

section Tamper

variable {rt : Runtime} {ledger tampered : CheckpointedLedger} {created : List Creation}

/-- The record under a created checkpoint's digest is the one created. -/
theorem kept_of_checkpoint {p : Creation} {previous : Option String} {c : Checkpoint}
    (hp : p.Follows rt previous)
    (hinj : ∀ document, tampered.dir.records.read (p.digest rt) = some (some document) →
      checkpointDigest rt (bodyOf document) = p.digest rt → bodyOf document = bodyOf p.record)
    (hc : checkpoint rt tampered.dir (p.digest rt) = .ok c) :
    Kept rt tampered p (p.digest rt, c) ∧ c.previous = previous := by
  obtain ⟨document, hread, -, hdigest, hprevious, items, hitems, hentries⟩ := checkpoint_ok hc
  have hbody := hinj document hread hdigest
  have hget : ∀ key, key ≠ "checkpoint_sha256" →
      document.1.get key = (bodyOf p.record).get key := fun key hkey => by
    rw [← hbody, bodyOf, Json.get_erase_ne hkey]
  have hprevious' := hp.previous
  rw [optionalText, ← hget _ (by decide), ← optionalText, hprevious] at hprevious'
  obtain ⟨items', hitems', hentries'⟩ := hp.entries
  rw [itemsOf, ← hget _ (by decide), ← itemsOf, hitems] at hitems'
  obtain rfl := Option.some.inj hitems'
  exact ⟨⟨rfl, ⟨document, hread, hbody⟩, Except.ok.inj (hentries.symm.trans hentries')⟩,
    Option.some.inj hprevious'⟩

/-- **A chain from the newest checkpoint's digest is the chain that was created**, by induction along
the previous digests. -/
theorem kept_of_linked (hlineage : Lineage rt created)
    (hinj : ∀ p ∈ created, ∀ document,
      tampered.dir.records.read (p.digest rt) = some (some document) →
      checkpointDigest rt (bodyOf document) = p.digest rt → bodyOf document = bodyOf p.record)
    {promised : Option String} {chain : List (String × Checkpoint)}
    (hlinked : Linked rt tampered (created.head?.map (·.digest rt)) promised chain) :
    List.Forall₂ (Kept rt tampered) created chain := by
  induction created generalizing promised chain with
  | nil =>
      have hdone : Linked rt tampered none none [] := .done
      rw [hlinked.unique hdone]
      exact .nil
  | cons p earlier ih =>
      rw [List.head?_cons, Option.map_some] at hlinked
      cases hlinked with
      | link hc _ _ hrest =>
          obtain ⟨hkept, hprevious⟩ :=
            kept_of_checkpoint hlineage.1 (hinj p List.mem_cons_self) hc
          rw [hprevious] at hrest
          exact .cons hkept (ih hlineage.2 (fun q hq => hinj q (List.mem_cons_of_mem _ hq)) hrest)

/-- The digests found are those created. -/
theorem digests_of_kept {chain : List (String × Checkpoint)}
    (h : List.Forall₂ (Kept rt tampered) created chain) :
    chain.map Prod.fst = created.map (·.digest rt) := by
  induction h with
  | nil => rfl
  | cons hkept _ ih => rw [List.map_cons, List.map_cons, hkept.digest, ih]

/-- Every record found was created. -/
theorem exists_created {chain : List (String × Checkpoint)}
    (h : List.Forall₂ (Kept rt tampered) created chain) :
    ∀ found ∈ chain, ∃ p ∈ created, Kept rt tampered p found := by
  induction h with
  | nil => simp
  | cons hkept _ ih =>
      intro found hfound
      rcases List.mem_cons.mp hfound with rfl | hfound
      · exact ⟨_, List.mem_cons_self, hkept⟩
      · obtain ⟨p, hp, hp'⟩ := ih found hfound
        exact ⟨p, List.mem_cons_of_mem _ hp, hp'⟩

/-- Every record created is found. -/
theorem exists_found {chain : List (String × Checkpoint)}
    (h : List.Forall₂ (Kept rt tampered) created chain) :
    ∀ p ∈ created, ∃ found ∈ chain, Kept rt tampered p found := by
  induction h with
  | nil => simp
  | cons hkept _ ih =>
      intro p hp
      rcases List.mem_cons.mp hp with rfl | hp
      · exact ⟨_, List.mem_cons_self, hkept⟩
      · obtain ⟨found, hfound, hp'⟩ := ih p hp
        exact ⟨found, List.mem_cons_of_mem _ hfound, hp'⟩

/-- The entries of a listing are the artifact files with the digests of their bytes. -/
theorem mem_listing {store : Store} {e : CheckpointEntry} : e ∈ listing rt store ↔
    ∃ text, e.artifactId ∈ artifactStems store ∧
      store.artifacts.read e.artifactId = some text ∧ e.sha256 = rt.sha256 text := by
  rw [listing, List.mem_filterMap]
  constructor
  · rintro ⟨stem, hstem, hentry⟩
    obtain ⟨text, htext, rfl⟩ := Option.map_eq_some_iff.mp hentry
    exact ⟨text, hstem, htext, rfl⟩
  · rintro ⟨text, hstem, htext, hdigest⟩
    exact ⟨e.artifactId, hstem, by rw [htext, Option.map_some, ← hdigest]⟩

/-- A verified chain hangs on the head. -/
theorem linked_of_status {status : CheckpointStatus} {head : String}
    (hstatus : checkpointStatus rt tampered = .ok status) (hhead : head ∈ status.head) :
    Linked rt tampered (some head) status.headSchemaVersion status.chain := by
  have hlinked := (checkpointStatus_ok hstatus).1
  rwa [hhead] at hlinked

/-- A ledger with a stray file among the records, no JSON text. -/
def CheckpointedLedger.withStray (ledger : CheckpointedLedger) : CheckpointedLedger :=
  { ledger with dir := { ledger.dir with records := ledger.dir.records.write "stray" none } }

/-- A first checkpoint and a stray file give one byte string to hash. -/
theorem injOn_withStray {now : Int} {record : Document}
    (h : createCheckpoint rt emptyCheckpointed now = .ok (record, ledger)) :
    Set.InjOn rt.sha256 (HashedText [⟨record, emptyLedger⟩] ledger.withStray) := by
  obtain ⟨body, hplan, rfl, rfl⟩ := createCheckpoint_ok h
  refine Set.Subsingleton.injOn ?_ _
  have hall : ∀ text, HashedText
      [⟨checkpointRecord (checkpointDigest rt body.1) body, emptyLedger⟩]
      (withHead rt body emptyCheckpointed).withStray text →
      text = Json.dumps (bodyOf (checkpointRecord (checkpointDigest rt body.1) body)) := by
    intro text htext
    cases htext with
    | created hp => rw [List.mem_singleton.mp hp]
    | @record d document hread =>
        by_cases hstray : d = "stray"
        · rw [hstray, CheckpointedLedger.withStray, Directory.read_write_self] at hread
          cases hread
        · rw [CheckpointedLedger.withStray, Directory.read_write_ne hstray] at hread
          by_cases hd : d = checkpointDigest rt body.1
          · have hrecord := @read_withRecord rt emptyCheckpointed body
            rw [hd] at hread
            rw [Option.some.inj (Option.some.inj (hread.symm.trans hrecord))]
          · have hnone := @read_withRecord_ne rt emptyCheckpointed _ _ hd
            have hempty : emptyCheckpointed.dir.records.read d = none := by
              simp [emptyCheckpointed]
            cases hread.symm.trans (hnone.trans hempty)
    | listed hp hread =>
        rw [List.mem_singleton.mp hp] at hread
        simp [emptyLedger] at hread
    | present hread =>
        have hempty : emptyLedger.artifacts.read _ = some text := hread
        simp [emptyLedger] at hempty
  intro a ha b hb
  rw [hall a ha, hall b hb]

end Tamper

end Golavo.Ledger
