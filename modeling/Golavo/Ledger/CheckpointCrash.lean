import Golavo.Ledger.CheckpointChain

/-! # Interrupted checkpoints

A checkpoint is a record and a head, written one after the other. What a kill or a failing call
leaves in between is told apart from tampering exactly when a head already stood, or the record is not
yet or no longer there. -/

namespace Golavo.Ledger

open Golavo.Lib (Json Directory FsCall Reaches bind_ok_iff failIf_ok_iff orFail_ok_iff
  wrapError_ok_iff mapM_eq_ok_iff failIf orFail killedAfter failedAt completed applyAll)

/-! ## Runs -/

/-- A ledger nothing was written to. -/
def emptyCheckpointed : CheckpointedLedger := ⟨emptyLedger, ⟨none, .empty⟩⟩

/-- A step of a ledger's life: an artifact operation, or a checkpoint. -/
inductive CheckpointStep where
  | call (c : Call)
  | create (now : Int)

/-- The ledger a step leaves. -/
def CheckpointStep.run (rt : Runtime) (u : Unicode) (ledger : CheckpointedLedger) :
    CheckpointStep → CheckpointedLedger
  | .call c => { ledger with store := c.run rt u ledger.store }
  | .create now =>
      match createCheckpoint rt ledger now with
      | .ok (_, next) => next
      | .error _ => ledger

/-- A body's digest is shared by no record of another body. -/
def CollisionFree (rt : Runtime) (dir : CheckpointDir) (body : Document) : Prop :=
  ∀ content, dir.records.read (checkpointDigest rt body.1) = some content →
    ∃ document, content = some document ∧ document.1.erase "checkpoint_sha256" = body.1

/-- The digests a step's checkpoint meets do not collide with its own. -/
def CheckpointStep.CollisionFree (rt : Runtime) (ledger : CheckpointedLedger) :
    CheckpointStep → Prop
  | .call _ => True
  | .create now => ∀ body, planCheckpoint rt ledger now = .ok body →
      Ledger.CollisionFree rt ledger.dir body

/-! ## Ledgers in order -/

/-- A ledger whose artifacts load and whose chain is verified, complete and all there is. -/
structure Intact (rt : Runtime) (ledger : CheckpointedLedger) (status : CheckpointStatus) : Prop where
  readable : ∀ stem text, ledger.store.artifacts.read stem = some text →
    ∃ a, Holds rt ledger.store stem a
  verified : checkpointStatus rt ledger = .ok status
  present : ∀ p ∈ status.chain, ∀ e ∈ p.2.entries,
    ∃ text, ledger.store.artifacts.read e.artifactId = some text
  records : ∀ d content, ledger.dir.records.read d = some content → d ∈ status.chain.map Prod.fst

section Writes

variable {rt : Runtime} {u : Unicode} {store store' : Store}

/-- Whether every file of a store holds an artifact. -/
def Readable (rt : Runtime) (store : Store) : Prop :=
  ∀ stem text, store.artifacts.read stem = some text → ∃ a, Holds rt store stem a

/-- A store grows: its files stay, and stay readable. -/
structure Grows (rt : Runtime) (store store' : Store) : Prop where
  readable : Readable rt store → Readable rt store'
  keeps : Readable rt store → ∀ stem text, store.artifacts.read stem = some text →
    store'.artifacts.read stem = some text

theorem Grows.refl : Grows rt store store := ⟨id, fun _ _ _ h => h⟩

theorem Grows.trans {store'' : Store} (h : Grows rt store store') (h' : Grows rt store' store'') :
    Grows rt store store'' :=
  ⟨fun hs => h'.readable (h.readable hs),
    fun hs stem text hread => h'.keeps (h.readable hs) stem text (h.keeps hs stem text hread)⟩

/-- Writing an artifact whose canonical form is valid and identified grows a store. -/
theorem grows_write {a c : Json} {stem : String}
    (hwrite : writeArtifact rt a store = .ok (stem, store')) (hc : canonical a = some c)
    (hwf : c.WF) (hvalid : validateArtifact rt c = .ok ())
    (hident : ∃ digest, Identified rt c stem digest) : Grows rt store store' := by
  have hholds := holds_write hwrite hc hwf hvalid hident
  have hkeep : Readable rt store → ∀ name text, store.artifacts.read name = some text →
      store'.artifacts.read name = some text := by
    intro hs name text hread
    obtain ⟨b, hb⟩ := hs name text hread
    have hread' := ((hholds name b).mpr (.inl hb)).read
    rw [hread']
    rw [hb.read] at hread
    exact hread
  refine ⟨fun hs name text hread => ?_, hkeep⟩
  by_cases hname : name = stem
  · exact ⟨c, (hholds _ _).mpr (.inr ⟨hname, rfl⟩)⟩
  · obtain ⟨-, -, bytes, event, -, -, -, rfl⟩ := writeArtifact_ok hwrite
    rw [Directory.read_write_ne hname] at hread
    obtain ⟨b, hb⟩ := hs name text hread
    exact ⟨b, (hholds _ _).mpr (.inl hb)⟩

/-- Writing the successor of a seal the store holds grows it. -/
theorem grows_successor {sealed a : Json} {stem file : String} {v : Verdict}
    (hsealed : Holds rt store stem sealed) (hv : v.WF) (hmade : successor rt sealed v = some a)
    (hwrite : writeArtifact rt a store = .ok (file, store')) : Grows rt store store' := by
  obtain ⟨hwf, hcanonical⟩ := canonical_successor hsealed.readBack hv hmade
  obtain ⟨hvalid, hid, -⟩ := writeArtifact_ok hwrite
  obtain ⟨id, digest, hident⟩ := identified_successor hsealed.readBack hv hmade hvalid
  obtain rfl := Json.str.inj (Option.some.inj (hident.artifact_id.symm.trans hid))
  exact grows_write hwrite hcanonical hwf hvalid ⟨digest, hident⟩

theorem holds_of_load (hs : Readable rt store) {stem : String} {a : Json}
    (hload : loadVerifiedArtifact rt store stem = .ok a) : Holds rt store stem a := by
  obtain ⟨⟨text, htext, -⟩, -⟩ := loadVerifiedArtifact_ok hload
  obtain ⟨b, hb⟩ := hs stem text htext
  rw [hb.load] at hload
  rwa [← Except.ok.inj hload]

theorem grows_scoreResult {snapshot : Json} (hsnapshot : snapshot.WF) {stem file : String}
    {homeGoals awayGoals : Int} (hs : Readable rt store)
    (h : scoreForecastResult rt stem snapshot homeGoals awayGoals store = .ok (file, store')) :
    Grows rt store store' := by
  obtain ⟨sealed, hload, hscore⟩ := bind_ok_iff.mp h
  obtain ⟨a, hmade, hwrite⟩ := successor_of_scoreVerifiedSeal hscore
  exact grows_successor (holds_of_load hs (wrapError_ok_iff.mp hload))
    (v := .scored snapshot homeGoals awayGoals) hsnapshot hmade hwrite

/-- **Every artifact operation grows the store.** -/
theorem grows_run (hs : Readable rt store) (call : Call) : Grows rt store (call.run rt u store) := by
  cases call with
  | sealing engine code pack req =>
      simp only [Call.run]
      split
      · rename_i hrun
        obtain ⟨a, ha, hwrite⟩ := bind_ok_iff.mp hrun
        have ha := wrapError_ok_iff.mp ha
        have hwrite := wrapError_ok_iff.mp hwrite
        obtain ⟨c, hc, hwf, hvalid, hident⟩ := canonical_of_build ha hwrite
        exact grows_write hwrite hc hwf hvalid hident
      · exact .refl
  | score stem newerPack =>
      simp only [Call.run]
      split
      · rename_i hrun
        obtain ⟨sealed, hload, hrun⟩ := bind_ok_iff.mp hrun
        obtain ⟨_, -, hrun⟩ := bind_ok_iff.mp hrun
        obtain ⟨goals, hgoals, hrun⟩ := bind_ok_iff.mp hrun
        obtain ⟨a, hmade, hwrite⟩ := successor_of_scoreVerifiedSeal hrun
        have hv : (Verdict.scored (Ingest.snapshotDescriptor newerPack.manifest) goals.1
            goals.2).WF := by
          rw [Verdict.WF, Ingest.snapshotDescriptor]
          exact wf_descriptor _ _ _ _ _ _ _
        exact grows_successor (holds_of_load hs (wrapError_ok_iff.mp hload)) hv hmade hwrite
      · exact .refl
  | scoreResult stem resultSnapshot homeGoals awayGoals =>
      simp only [Call.run]
      split
      · rename_i hrun
        exact grows_scoreResult resultSnapshot.2 hs hrun
      · exact .refl
  | void stem voidedAtUtc reason =>
      simp only [Call.run]
      split
      · rename_i hrun
        obtain ⟨sealed, voidedAt, a, hload, -, hmade, hwrite⟩ := successor_of_voidForecast hrun
        exact grows_successor (holds_of_load hs hload) (v := .voided voidedAt _) trivial hmade hwrite
      · exact .refl
  | settle feeds now =>
      simp only [Call.run]
      rcases @settlePendingForecasts_store rt u store (feeds.loaders u) now with
        hstore | ⟨summary, seals, seen, -, -, rfl, hstore⟩
      · rw [hstore]
        exact .refl
      · rw [hstore]
        refine (@settleChains_invariant rt u _ (fun _ (next : Settling) =>
          Grows rt store next.store) ?_ _ _ .refl).choose_spec
        intro chain rest run next hrun hnext
        rcases settleChain_store hnext with
          hsame | ⟨snapshot, homeGoals, awayGoals, file, hsnapshot, hscore⟩
        · rw [hsame]
          exact hrun
        · exact hrun.trans (grows_scoreResult hsnapshot (hrun.readable hs) hscore)

end Writes

/-! ## Creating -/

section Create

variable {rt : Runtime} {ledger : CheckpointedLedger} {status : CheckpointStatus} {now : Int}
  {body : Document}

/-- What an intact ledger's chain lists stays absent or unchanged as the store grows. -/
theorem checkEntry_of_present {store store' : Store} {e : CheckpointEntry}
    (hcheck : checkEntry rt store e = .ok ())
    (hpresent : ∃ text, store.artifacts.read e.artifactId = some text)
    (hkeeps : ∀ stem text, store.artifacts.read stem = some text →
      store'.artifacts.read stem = some text) : checkEntry rt store' e = .ok () := by
  obtain ⟨text, htext⟩ := hpresent
  rw [checkEntry, htext] at hcheck
  rw [checkEntry, hkeeps _ _ htext]
  exact hcheck

/-- The head of a verified chain is what `status` starts from. -/
theorem exists_status_congr {ledger' : CheckpointedLedger}
    (h : checkpointStatus rt ledger = .ok status) (hhead : ledger'.dir.head = ledger.dir.head)
    (hempty : ledger.dir.head = none → ledger'.dir.records.files = [])
    (hlinked : Linked rt ledger' status.head status.headSchemaVersion status.chain) :
    ∃ status', checkpointStatus rt ledger' = .ok status' ∧ status'.chain = status.chain ∧
      status'.head = status.head ∧ status'.headSchemaVersion = status.headSchemaVersion := by
  obtain ⟨-, -, hnone, hsome, -⟩ := checkpointStatus_ok h
  cases hdir : ledger.dir.head with
  | none =>
      obtain ⟨hchain, hstatusHead, -⟩ := hnone hdir
      have hschema : status.headSchemaVersion = none := by
        have hboth := (checkpointStatus_ok h).2.1.both
        rw [hstatusHead] at hboth
        simpa using hboth.symm
      refine ⟨⟨[], none, none, [], artifactStems ledger'.store⟩, ?_, hchain.symm,
        hstatusHead.symm, hschema.symm⟩
      rw [checkpointStatus, hhead, hdir]
      simp [hempty hdir, failIf, bind, Except.bind, pure, Except.pure]
  | some content =>
      obtain ⟨document, rfl, head, schema, hheadOf, hstatusHead, hstatusSchema⟩ :=
        hsome content (by simp [hdir])
      rw [hstatusHead, hstatusSchema] at hlinked
      obtain ⟨status', hstatus', hchain, hhead', hschema'⟩ :=
        exists_checkpointStatus (hhead.trans hdir) hheadOf hlinked
      exact ⟨status', hstatus', hchain, hhead'.trans hstatusHead.symm,
        hschema'.trans hstatusSchema.symm⟩

/-- A verified ledger whose artifacts load has a next checkpoint. -/
theorem exists_planCheckpoint (hreadable : Readable rt ledger.store)
    (hstatus : checkpointStatus rt ledger = .ok status) (now : Int) :
    ∃ documents, planCheckpoint rt ledger now = .ok (checkpointBody status documents now) := by
  obtain ⟨documents, hdocuments⟩ : ∃ documents, List.Forall₂
      (fun stem document => entryOfFile rt ledger.store stem = .ok document)
      (artifactStems ledger.store) documents := Lib.exists_forall₂ <| by
      intro stem hstem
      obtain ⟨⟨name, text⟩, hmem, rfl⟩ := List.mem_map.mp (List.mem_filter.mp hstem).1
      have hread := Directory.mem_files.mp hmem
      obtain ⟨a, ha⟩ := hreadable name text hread
      refine ⟨⟨.mk [("artifact_id", .str name), ("sha256", .str (rt.sha256 text))],
        Json.wf_mk (by simp)⟩, ?_⟩
      simp only [entryOfFile, ha.load, ha.idOf, hread, orFail, Lib.wrapError, bind, Except.bind,
        pure, Except.pure]
  refine ⟨documents, ?_⟩
  simp only [planCheckpoint, hstatus, mapM_eq_ok_iff.mpr hdocuments, bind, Except.bind, pure,
    Except.pure]

/-- **The new record names the head before it**, so its digest is no record's of the chain. -/
theorem fresh_of_collisionFree {documents : List Document}
    (hlinked : Linked rt ledger status.head status.headSchemaVersion status.chain)
    (hrecords : ∀ d content, ledger.dir.records.read d = some content →
      d ∈ status.chain.map Prod.fst)
    (hfree : CollisionFree rt ledger.dir (checkpointBody status documents now)) :
    ledger.dir.records.read (checkpointDigest rt (checkpointBody status documents now).1) =
      none := by
  by_contra hsome
  obtain ⟨content, hcontent⟩ := Option.ne_none_iff_exists'.mp hsome
  obtain ⟨document, rfl, herase⟩ := hfree content hcontent
  obtain ⟨⟨d, c⟩, hmem, hd⟩ := List.mem_map.mp (hrecords _ _ hcontent)
  have hd : d = checkpointDigest rt (checkpointBody status documents now).1 := hd
  have hc := hlinked.checkpoint_ok _ hmem
  -- the record under the digest has the new body, so its predecessor is the head
  have hprevious : c.previous = status.head := by
    have hget : document.1.get "previous_checkpoint_sha256" = some (textOrNull status.head) := by
      rw [← @Json.get_erase_ne "checkpoint_sha256" _ (by decide), herase]
      simp [checkpointBody, Json.get_mk, Lib.Fields.getField]
    obtain ⟨document', hdocument, -, -, heq, -⟩ := checkpoint_ok hc
    obtain rfl : document = document' := by simpa [hd, hcontent] using hdocument
    rw [optionalText_textOrNull hget] at heq
    exact (Option.some.inj heq).symm
  -- then the chain from the record runs through the head and back
  obtain ⟨promised', rest, hsuffix, hlength⟩ := hlinked.suffix hmem
  cases hsuffix with
  | link _ _ _ hrest =>
      rw [hprevious] at hrest
      rw [hlinked.unique hrest] at hlength
      simp at hlength

/-- The chain a finished checkpoint leaves. -/
theorem linked_create {documents : List Document} {ledger' : CheckpointedLedger}
    (hplan : planCheckpoint rt ledger now = .ok (checkpointBody status documents now))
    (hstatus : checkpointStatus rt ledger = .ok status)
    (hstore : ledger'.store = ledger.store)
    (hread : ledger'.dir.records.read
        (checkpointDigest rt (checkpointBody status documents now).1) =
      some (some (checkpointRecord
        (checkpointDigest rt (checkpointBody status documents now).1)
        (checkpointBody status documents now))))
    (hkeep : ∀ p ∈ status.chain, ledger'.dir.records.read p.1 = ledger.dir.records.read p.1) :
    Linked rt ledger' (some (checkpointDigest rt (checkpointBody status documents now).1))
      (some checkpointSchemaVersion)
      ((checkpointDigest rt (checkpointBody status documents now).1,
        planned rt ledger.store status) :: status.chain) := by
  obtain ⟨hlinked, hshape, -⟩ := checkpointStatus_ok hstatus
  obtain ⟨status', documents', hstatus', hbody, hentries, -⟩ := planCheckpoint_ok hplan
  obtain rfl := Except.ok.inj (hstatus.symm.trans hstatus')
  have hdocuments : documents.map Subtype.val = documents'.map Subtype.val := by
    have hget := congrArg (fun d : Document => itemsOf d.1 "artifacts") hbody
    simpa [itemsOf, checkpointBody, Json.get_mk, Lib.Fields.getField] using hget
  rw [← hdocuments] at hentries
  refine .link (checkpoint_of_body hshape hentries hread) (by simp [planned]) ?_ ?_
  · intro e he
    obtain ⟨stem, -, hentry⟩ := List.mem_filterMap.mp he
    obtain ⟨text, htext, rfl⟩ := Option.map_eq_some_iff.mp hentry
    simp [checkEntry, hstore, htext, failIf]
  · have hchain : Linked rt ledger' status.head status.headSchemaVersion status.chain :=
      hlinked.congr hkeep fun p hp e he => by
        rw [hstore]
        exact hlinked.entries_ok p hp e he
    cases hhead : status.head with
    | none =>
        rw [hhead] at hchain
        have hdone : Linked rt ledger' none none [] := .done
        rw [hchain.unique hdone, planned, hhead]
        exact .done
    | some head => simpa [planned, Checkpoint.promised, hhead] using hchain

/-- The effects of an atomic write: none up to the fourth call, then the replacement. -/
theorem killedAfter_atomicScript (k : Nat) (replace : CheckpointedLedger → CheckpointedLedger)
    (outer : List (CheckpointedLedger → CheckpointedLedger)) (ledger : CheckpointedLedger) :
    killedAfter k (atomicScript replace outer) ledger =
      if k ≤ 4 then ledger else replace ledger := by
  match k with
  | 0 | 1 | 2 | 3 | 4 | 5 | 6 => rfl
  | n + 7 =>
      rw [Lib.killedAfter_of_length_le (by simp [atomicScript]), if_neg (by omega)]
      rfl

/-- A call of an atomic write that raises leaves what was done, and lets the handlers around run. -/
theorem failedAt_atomicScript (k : Nat) (replace : CheckpointedLedger → CheckpointedLedger)
    (outer : List (CheckpointedLedger → CheckpointedLedger)) (ledger : CheckpointedLedger) :
    failedAt k (atomicScript replace outer) ledger =
      if k ≤ 4 then applyAll outer ledger
      else if k ≤ 6 then applyAll outer (replace ledger) else replace ledger := by
  match k with
  | 0 | 1 | 2 | 3 | 4 | 5 | 6 => rfl
  | n + 7 =>
      rw [if_neg (by omega), if_neg (by omega), failedAt, List.getElem?_eq_none (by simp [atomicScript])]
      rfl

@[simp] theorem completed_atomicScript (replace : CheckpointedLedger → CheckpointedLedger)
    (outer : List (CheckpointedLedger → CheckpointedLedger)) (ledger : CheckpointedLedger) :
    completed (atomicScript replace outer) ledger = replace ledger := rfl

@[simp] theorem length_atomicScript (replace : CheckpointedLedger → CheckpointedLedger)
    (outer : List (CheckpointedLedger → CheckpointedLedger)) :
    (atomicScript replace outer).length = 7 := rfl

/-- A ledger with the record of a body. -/
def withRecord (rt : Runtime) (body : Document) (ledger : CheckpointedLedger) : CheckpointedLedger :=
  ledger.putRecord (checkpointDigest rt body.1) (checkpointRecord (checkpointDigest rt body.1) body)

/-- A ledger with the record of a body and the head on it. -/
def withHead (rt : Runtime) (body : Document) (ledger : CheckpointedLedger) : CheckpointedLedger :=
  (withRecord rt body ledger).putHead (headRecord (checkpointDigest rt body.1))

theorem completed_createScript (ledger : CheckpointedLedger) (body : Document) :
    completed (createScript rt body ledger) ledger = withHead rt body ledger := by
  rw [createScript, Lib.completed_append, completed_atomicScript, completed_atomicScript]
  rfl

/-- **What a kill leaves**: nothing, the record alone, or the finished checkpoint. -/
theorem killedAfter_createScript (k : Nat) (ledger : CheckpointedLedger) (body : Document) :
    killedAfter k (createScript rt body ledger) ledger =
      if k ≤ 4 then ledger else if k ≤ 11 then withRecord rt body ledger
      else withHead rt body ledger := by
  rw [createScript, Lib.killedAfter_append, completed_atomicScript, length_atomicScript,
    killedAfter_atomicScript, killedAfter_atomicScript]
  by_cases h7 : k ≤ 7
  · rw [if_pos h7]
    by_cases h4 : k ≤ 4
    · rw [if_pos h4, if_pos h4]
    · rw [if_neg h4, if_neg h4, if_pos (by omega)]
      rfl
  · rw [if_neg h7, if_neg (by omega : ¬ k ≤ 4)]
    by_cases h11 : k ≤ 11
    · rw [if_pos (by omega), if_pos h11]
      rfl
    · rw [if_neg (by omega), if_neg h11]
      rfl

/-- Dropping a fresh record undoes putting it. -/
theorem dropRecord_withRecord {ledger : CheckpointedLedger} {body : Document}
    (hfresh : ledger.dir.records.read (checkpointDigest rt body.1) = none) :
    (withRecord rt body ledger).dropRecord (checkpointDigest rt body.1) = ledger := by
  have hrecords : (ledger.dir.records.write (checkpointDigest rt body.1)
      (some (checkpointRecord (checkpointDigest rt body.1) body))).remove
        (checkpointDigest rt body.1) = ledger.dir.records := by
    refine Directory.ext_read fun name => ?_
    by_cases hname : name = checkpointDigest rt body.1
    · rw [hname, Directory.read_remove_self, hfresh]
    · rw [Directory.read_remove_ne hname, Directory.read_write_ne hname]
  simp only [withRecord, CheckpointedLedger.putRecord, CheckpointedLedger.dropRecord, hrecords]

/-- **What a call that raises leaves** of a fresh record: nothing, the record alone, nothing again while
the head is not replaced, and a head without its record after that. -/
theorem failedAt_createScript (k : Nat) {ledger : CheckpointedLedger} {body : Document}
    (hfresh : ledger.dir.records.read (checkpointDigest rt body.1) = none) :
    failedAt k (createScript rt body ledger) ledger =
      if k ≤ 4 then ledger else if k ≤ 6 then withRecord rt body ledger
      else if k ≤ 11 then ledger
      else if k ≤ 13 then (withHead rt body ledger).dropRecord (checkpointDigest rt body.1)
      else withHead rt body ledger := by
  rw [createScript, Lib.failedAt_append, completed_atomicScript, length_atomicScript,
    failedAt_atomicScript, failedAt_atomicScript, hfresh]
  by_cases h7 : k < 7
  · rw [if_pos h7]
    by_cases h4 : k ≤ 4
    · rw [if_pos h4, if_pos h4]
      rfl
    · rw [if_neg h4, if_neg h4, if_pos (by omega), if_pos (by omega)]
      rfl
  · rw [if_neg h7, if_neg (by omega : ¬ k ≤ 4), if_neg (by omega : ¬ k ≤ 6)]
    by_cases h11 : k ≤ 11
    · rw [if_pos (by omega), if_pos h11]
      exact dropRecord_withRecord hfresh
    · rw [if_neg (by omega), if_neg h11]
      by_cases h13 : k ≤ 13
      · rw [if_pos (by omega), if_pos h13]
        rfl
      · rw [if_neg (by omega), if_neg h13]
        rfl

end Create

/-! ## Runs keep a ledger intact -/

section Runs

variable {rt : Runtime} {u : Unicode} {ledger : CheckpointedLedger} {status : CheckpointStatus}

theorem headOf_headRecord {digest : String} (h : isDigestText digest = true) :
    headOf (headRecord digest) = some (digest, checkpointSchemaVersion) := by
  have hsupported : checkpointSchemaVersion ∈ supportedSchemaVersions := by decide
  simp [headOf, headRecord, Json.get_mk, Lib.Fields.getField, Json.text?, h, hsupported]

/-- The reads of a ledger with a new record. -/
theorem read_withRecord (body : Document) : (withRecord rt body ledger).dir.records.read
    (checkpointDigest rt body.1) = some (some (checkpointRecord (checkpointDigest rt body.1) body)) :=
  Directory.read_write_self _ _ _

theorem read_withRecord_ne {body : Document} {d : String} (h : d ≠ checkpointDigest rt body.1) :
    (withRecord rt body ledger).dir.records.read d = ledger.dir.records.read d :=
  Directory.read_write_ne h _ _

/-- **A finished checkpoint extends the chain by one record.** -/
theorem status_withHead {documents : List Document} {now : Int}
    (hplan : planCheckpoint rt ledger now = .ok (checkpointBody status documents now))
    (hstatus : checkpointStatus rt ledger = .ok status)
    (hfresh : ledger.dir.records.read
      (checkpointDigest rt (checkpointBody status documents now).1) = none) :
    ∃ status', checkpointStatus rt (withHead rt (checkpointBody status documents now) ledger) =
        .ok status' ∧
      status'.head = some (checkpointDigest rt (checkpointBody status documents now).1) ∧
      status'.chain = (checkpointDigest rt (checkpointBody status documents now).1,
        planned rt ledger.store status) :: status.chain := by
  have hlinked := (checkpointStatus_ok hstatus).1
  have hnext := @linked_create _ _ _ _ _ (withHead rt (checkpointBody status documents now) ledger)
    hplan hstatus rfl (read_withRecord _) fun p hp => read_withRecord_ne (by
      rintro hd
      obtain ⟨document, hread, -⟩ := checkpoint_ok (hlinked.checkpoint_ok p hp)
      rw [hd, hfresh] at hread
      cases hread)
  obtain ⟨status', hstatus', hchain, hhead, -⟩ := exists_checkpointStatus rfl
    (headOf_headRecord (isDigestText_sha256 rt _)) hnext
  exact ⟨status', hstatus', hhead, hchain⟩

/-- Creating a checkpoint keeps a ledger intact, with one more record. -/
theorem Intact.create (h : Intact rt ledger status) {now : Int}
    (hfree : (CheckpointStep.create now).CollisionFree rt ledger) :
    ∃ documents status', planCheckpoint rt ledger now = .ok (checkpointBody status documents now) ∧
      ledger.dir.records.read (checkpointDigest rt (checkpointBody status documents now).1) = none ∧
      createCheckpoint rt ledger now =
        .ok (checkpointRecord (checkpointDigest rt (checkpointBody status documents now).1)
            (checkpointBody status documents now),
          withHead rt (checkpointBody status documents now) ledger) ∧
      Intact rt (withHead rt (checkpointBody status documents now) ledger) status' ∧
      status'.chain = (checkpointDigest rt (checkpointBody status documents now).1,
        planned rt ledger.store status) :: status.chain := by
  obtain ⟨documents, hplan⟩ := exists_planCheckpoint h.readable h.verified now
  have hlinked := (checkpointStatus_ok h.verified).1
  have hfresh := fresh_of_collisionFree hlinked h.records (hfree _ hplan)
  obtain ⟨status', hstatus', hhead, hchain⟩ := status_withHead hplan h.verified hfresh
  refine ⟨documents, status', hplan, hfresh, ?_, ⟨h.readable, hstatus', ?_, ?_⟩, hchain⟩
  · simp only [createCheckpoint, hplan, completed_createScript, bind, Except.bind, pure, Except.pure]
  · intro p hp e he
    rw [hchain] at hp
    rcases List.mem_cons.mp hp with rfl | hp
    · obtain ⟨stem, -, hentry⟩ := List.mem_filterMap.mp he
      obtain ⟨text, htext, rfl⟩ := Option.map_eq_some_iff.mp hentry
      exact ⟨text, htext⟩
    · exact h.present p hp e he
  · intro d content hread
    rw [hchain]
    by_cases hd : d = checkpointDigest rt (checkpointBody status documents now).1
    · rw [hd]
      exact List.mem_cons_self
    · have hread : (withRecord rt (checkpointBody status documents now) ledger).dir.records.read d =
          some content := hread
      rw [read_withRecord_ne hd] at hread
      exact List.mem_cons_of_mem _ (h.records d content hread)

/-- An artifact operation keeps a ledger intact, with the chain it has. -/
theorem Intact.call (h : Intact rt ledger status) (c : Call) :
    ∃ status', Intact rt { ledger with store := c.run rt u ledger.store } status' ∧
      status'.chain = status.chain := by
  have hgrows := @grows_run _ u _ h.readable c
  have hlinked := (checkpointStatus_ok h.verified).1
  obtain ⟨status', hstatus', hchain, -⟩ := @exists_status_congr _ _ _
    { ledger with store := c.run rt u ledger.store } h.verified rfl
    (fun hnone => ((checkpointStatus_ok h.verified).2.2.1 hnone).2.2)
    (hlinked.congr (fun _ _ => rfl) fun p hp e he => checkEntry_of_present
      (hlinked.entries_ok p hp e he) (h.present p hp e he) (hgrows.keeps h.readable))
  refine ⟨status', ⟨hgrows.readable h.readable, hstatus', ?_, ?_⟩, hchain⟩
  · intro p hp e he
    rw [hchain] at hp
    obtain ⟨text, htext⟩ := h.present p hp e he
    exact ⟨text, hgrows.keeps h.readable _ _ htext⟩
  · rw [hchain]
    exact h.records

theorem intact_emptyCheckpointed :
    Intact rt emptyCheckpointed ⟨[], none, none, [], []⟩ where
  readable stem text h := by simp [emptyCheckpointed, emptyLedger] at h
  verified := rfl
  present := by simp
  records d content h := by simp [emptyCheckpointed] at h

/-- **Every ledger a run of artifact operations and checkpoints reaches is intact.** -/
theorem exists_intact
    (h : Reaches (· = emptyCheckpointed) (fun l s => s.CollisionFree rt l)
      (CheckpointStep.run rt u) ledger) : ∃ status, Intact rt ledger status := by
  refine @Reaches.invariant _ _ _ _ _ (fun l => ∃ status, Intact rt l status) _ h
    (fun s hs => by rw [hs]; exact ⟨_, intact_emptyCheckpointed⟩) ?_
  rintro s step ⟨status, hs⟩ hfree
  cases step with
  | call c =>
      obtain ⟨status', h', -⟩ := @Intact.call _ u _ _ hs c
      exact ⟨status', h'⟩
  | create now =>
      obtain ⟨documents, status', -, -, hcreate, h', -⟩ := hs.create hfree
      refine ⟨status', ?_⟩
      simpa only [CheckpointStep.run, hcreate] using h'

end Runs

/-! ## Crash safety -/

/-- What an interruption must leave: a verified chain, the old one or the old one extended, that the
next checkpoint extends. -/
def Recoverable (rt : Runtime) (before after : CheckpointedLedger) : Prop :=
  ∃ old status, checkpointStatus rt before = .ok old ∧ checkpointStatus rt after = .ok status ∧
    (status.chain = old.chain ∨ ∃ c, status.chain = c :: old.chain) ∧
    ∀ later, ∃ record next, createCheckpoint rt after later = .ok (record, next) ∧
      record.1.get "previous_checkpoint_sha256" = some (textOrNull status.head)

/-- Where an interruption of `create` does no harm. The calls are numbered from zero: 4 puts the record
in place, 5 and 6 flush its directory, 11 puts the head in place, 12 and 13 flush its directory. With
a head already there a kill is harmless anywhere; a first checkpoint must not be cut between its
record and its head. No flush after the head may raise. -/
def Fault.Harmless (ledger : CheckpointedLedger) : Fault → Prop
  | .kill k => ledger.dir.head ≠ none ∨ k ≤ 4 ∨ 12 ≤ k
  | .error k => k ≠ 12 ∧ k ≠ 13 ∧ (ledger.dir.head ≠ none ∨ (k ≠ 5 ∧ k ≠ 6))

section Interrupted

variable {rt : Runtime} {u : Unicode} {ledger : CheckpointedLedger} {status : CheckpointStatus}

/-- A verified ledger whose artifacts load is recoverable from one with the same chain, or that chain
extended. -/
theorem recoverable_of {before : CheckpointedLedger} {old : CheckpointStatus}
    (hold : checkpointStatus rt before = .ok old) (hreadable : Readable rt ledger.store)
    (hstatus : checkpointStatus rt ledger = .ok status)
    (hchain : status.chain = old.chain ∨ ∃ c, status.chain = c :: old.chain) :
    Recoverable rt before ledger := by
  refine ⟨old, status, hold, hstatus, hchain, fun later => ?_⟩
  obtain ⟨documents, hplan⟩ := exists_planCheckpoint hreadable hstatus later
  refine ⟨_, _, by simp only [createCheckpoint, hplan, bind, Except.bind, pure, Except.pure]; rfl, ?_⟩
  rw [checkpointRecord, Json.get_set_ne (by decide)]
  simp [checkpointBody, Json.get_mk, Lib.Fields.getField]

/-- The record alone is an orphan beside an old head, and tampering without one. -/
theorem recoverable_withRecord_iff (h : Intact rt ledger status) {documents : List Document}
    {now : Int} (hfresh : ledger.dir.records.read
      (checkpointDigest rt (checkpointBody status documents now).1) = none) :
    Recoverable rt ledger (withRecord rt (checkpointBody status documents now) ledger) ↔
      ledger.dir.head ≠ none := by
  constructor
  · rintro ⟨old, status', -, hstatus', -⟩ hnone
    have hrecords := ((checkpointStatus_ok hstatus').2.2.1 hnone).2.2
    have hread := Directory.mem_files.mpr (@read_withRecord rt ledger
      (checkpointBody status documents now))
    rw [hrecords] at hread
    cases hread
  · intro hhead
    have hlinked := (checkpointStatus_ok h.verified).1
    obtain ⟨status', hstatus', hchain, -⟩ := @exists_status_congr _ _ _
      (withRecord rt (checkpointBody status documents now) ledger) h.verified rfl
      (fun hnone => absurd hnone hhead)
      (hlinked.congr (fun p hp => read_withRecord_ne (by
        rintro hd
        obtain ⟨document, hread, -⟩ := checkpoint_ok (hlinked.checkpoint_ok p hp)
        rw [hd, hfresh] at hread
        cases hread)) fun p hp e he => hlinked.entries_ok p hp e he)
    exact recoverable_of h.verified h.readable hstatus' (.inl hchain)

/-- A head whose record was removed is tampering. -/
theorem not_recoverable_dropRecord (body : Document) : ¬ Recoverable rt ledger
    ((withHead rt body ledger).dropRecord (checkpointDigest rt body.1)) := by
  rintro ⟨old, status', -, hstatus', -⟩
  obtain ⟨hlinked, -, -, hsome, -⟩ := checkpointStatus_ok hstatus'
  obtain ⟨document, hdocument, head, schema, hheadOf, hhead, -⟩ :=
    hsome (some (headRecord (checkpointDigest rt body.1))) rfl
  obtain rfl := Option.some.inj hdocument
  have hdigest : isDigestText (checkpointDigest rt body.1) = true := isDigestText_sha256 rt _
  rw [headOf_headRecord hdigest] at hheadOf
  obtain ⟨rfl, rfl⟩ := Prod.mk.inj (Option.some.inj hheadOf)
  rw [hhead] at hlinked
  generalize status'.chain = chain at hlinked
  cases hlinked with
  | link hc _ _ _ =>
      obtain ⟨document, hread, -⟩ := checkpoint_ok hc
      have hgone := Directory.read_remove_self
        (withHead rt body ledger).dir.records (checkpointDigest rt body.1)
      rw [CheckpointedLedger.dropRecord, hgone] at hread
      cases hread

/-- An interrupted checkpoint of an intact ledger is recoverable exactly where it does no harm. -/
theorem Intact.recoverable_iff (h : Intact rt ledger status) {now : Int}
    (hfree : (CheckpointStep.create now).CollisionFree rt ledger) (fault : Fault) :
    Recoverable rt ledger (interruptedCreate rt ledger now fault) ↔ fault.Harmless ledger := by
  obtain ⟨documents, status', hplan, hfresh, -, h', hchain⟩ := h.create hfree
  have hsame : Recoverable rt ledger ledger :=
    recoverable_of h.verified h.readable h.verified (.inl rfl)
  have hdone : Recoverable rt ledger (withHead rt (checkpointBody status documents now) ledger) :=
    recoverable_of h.verified h'.readable h'.verified (.inr ⟨_, hchain⟩)
  have horphan := recoverable_withRecord_iff h hfresh
  have hbroken := @not_recoverable_dropRecord rt ledger
    (checkpointBody status documents now)
  rw [interruptedCreate, hplan]
  cases fault with
  | kill k =>
      simp only [killedAfter_createScript, Fault.Harmless]
      by_cases h4 : k ≤ 4
      · rw [if_pos h4]
        exact iff_of_true hsame (.inr (.inl h4))
      · rw [if_neg h4]
        by_cases h11 : k ≤ 11
        · rw [if_pos h11, horphan]
          exact ⟨.inl, fun hcond => hcond.resolve_right (by omega)⟩
        · rw [if_neg h11]
          exact iff_of_true hdone (.inr (.inr (by omega)))
  | error k =>
      simp only [failedAt_createScript k hfresh, Fault.Harmless]
      by_cases h4 : k ≤ 4
      · rw [if_pos h4]
        exact iff_of_true hsame ⟨by omega, by omega, .inr (by omega)⟩
      · rw [if_neg h4]
        by_cases h6 : k ≤ 6
        · rw [if_pos h6, horphan]
          exact ⟨fun hhead => ⟨by omega, by omega, .inl hhead⟩,
            fun hcond => hcond.2.2.resolve_right (by omega)⟩
        · rw [if_neg h6]
          by_cases h11 : k ≤ 11
          · rw [if_pos h11]
            exact iff_of_true hsame ⟨by omega, by omega, .inr (by omega)⟩
          · rw [if_neg h11]
            by_cases h13 : k ≤ 13
            · rw [if_pos h13]
              exact iff_of_false hbroken (by omega)
            · rw [if_neg h13]
              exact iff_of_true hdone ⟨by omega, by omega, .inr (by omega)⟩

/-- **Checkpoint crash safety, exactly**: in every ledger that artifact operations and checkpoints
reach, an interrupted `create` leaves a ledger that is verified and can be extended if and only if
the interruption falls where it does no harm. -/
theorem interruptedCreate_recoverable_iff (rt : Runtime) (u : Unicode) {ledger : CheckpointedLedger}
    (h : Reaches (· = emptyCheckpointed) (fun l s => s.CollisionFree rt l)
      (CheckpointStep.run rt u) ledger) (now : Int)
    (hfree : (CheckpointStep.create now).CollisionFree rt ledger) (fault : Fault) :
    Recoverable rt ledger (interruptedCreate rt ledger now fault) ↔ fault.Harmless ledger := by
  obtain ⟨status, hintact⟩ := exists_intact h
  exact hintact.recoverable_iff hfree fault

theorem collisionFree_empty (now : Int) :
    (CheckpointStep.create now).CollisionFree rt emptyCheckpointed := by
  intro body _ content hread
  simp [emptyCheckpointed] at hread

/-- A first checkpoint killed right after its head is in place is recovered. -/
theorem interruptedCreate_recoverable_first : Recoverable .standard emptyCheckpointed
    (interruptedCreate .standard emptyCheckpointed 0 (.kill 12)) :=
  (interruptedCreate_recoverable_iff .standard .ascii (.start rfl) 0 (collisionFree_empty 0)
    (.kill 12)).mpr (.inr (.inr (by decide)))

/-- **A first checkpoint killed between its record and its head** leaves a ledger whose status raises,
and so does one whose head is in place when flushing the directory fails. -/
theorem interruptedCreate_unrecoverable :
    ¬ Recoverable .standard emptyCheckpointed
      (interruptedCreate .standard emptyCheckpointed 0 (.kill 5)) ∧
    ¬ Recoverable .standard emptyCheckpointed
      (interruptedCreate .standard emptyCheckpointed 0 (.error 13)) := by
  have hintact := @intact_emptyCheckpointed .standard
  constructor
  · rw [hintact.recoverable_iff (collisionFree_empty 0)]
    rintro (hhead | hk | hk)
    · exact hhead rfl
    · omega
    · omega
  · rw [hintact.recoverable_iff (collisionFree_empty 0)]
    rintro ⟨-, hk, -⟩
    exact hk rfl

end Interrupted

end Golavo.Ledger
