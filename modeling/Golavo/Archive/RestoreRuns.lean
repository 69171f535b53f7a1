import Golavo.Archive.RestoreCrash

/-! # Runs of restores

A run is a sequence of restores and recoveries, each stopped after any number of its calls: killed, or
cut short by a call that raises. Over every run the ledger a disk leads to is the one it started with
under the archives of some of the accepted restores, each whole. A restore that is not stopped puts its
archive in place. -/

namespace Golavo.Archive

open Golavo.Lib (Json Directory FsCall killedAfter completed Throughout Atomic orFail failIf
  orFail_ok_iff failIf_ok_iff bind_ok_iff)
open Golavo.Ledger (itemsOf)

variable {host : Host} {sweep : Sweep} {ledger : Directory Bytes} {d : Disk} {t : Transaction}

/-! ## Accepted files -/

theorem takeDeclared_allowed {members : List ZipMember} {dir dir' : Directory Bytes} {entry : Json}
    (h : takeDeclared host members dir entry = .ok dir')
    (hdir : ∀ file ∈ dir.files, isAllowed file.1 = true) :
    ∀ file ∈ dir'.files, isAllowed file.1 = true := by
  obtain ⟨name, hname, h⟩ := bind_ok_iff.mp h
  obtain ⟨_, -, h⟩ := bind_ok_iff.mp h
  obtain ⟨data, -, h⟩ := bind_ok_iff.mp h
  obtain ⟨_, -, h⟩ := bind_ok_iff.mp h
  obtain ⟨_, -, h⟩ := bind_ok_iff.mp h
  obtain rfl := Except.ok.inj h
  intro file hfile
  by_cases heq : file.1 = name
  · have hdeclared := orFail_ok_iff.mp hname
    unfold declaredName at hdeclared
    split at hdeclared
    · split_ifs at hdeclared with hallowed
      rw [heq, ← Option.some.inj hdeclared]
      exact hallowed
    · cases hdeclared
  · refine hdir file (Directory.mem_files.mpr ?_)
    rw [← Directory.read_write_ne heq]
    exact Directory.mem_files.mp hfile

theorem foldlM_takeDeclared_allowed {members : List ZipMember} {declared : List Json}
    {dir dir' : Directory Bytes} (h : declared.foldlM (takeDeclared host members) dir = .ok dir')
    (hdir : ∀ file ∈ dir.files, isAllowed file.1 = true) :
    ∀ file ∈ dir'.files, isAllowed file.1 = true := by
  induction declared generalizing dir with
  | nil =>
      obtain rfl := Except.ok.inj h
      exact hdir
  | cons entry rest ih =>
      obtain ⟨mid, hmid, h⟩ := bind_ok_iff.mp h
      exact ih h (takeDeclared_allowed hmid hdir)

/-- **What an accepted archive holds**: allowed files, whose chain, where a restore is not blocked, is
verified over the local one. -/
theorem inspectArchive_ok {data : Bytes} {preview : Preview} {content : Directory Bytes}
    (h : inspectArchive host ledger data = .ok (preview, content)) :
    (∀ file ∈ content.files, isAllowed file.1 = true) ∧
      (preview.restoreBlockedReason = none → ∃ status,
        statusOf host (ledger.overlay content) = .ok status) := by
  obtain ⟨members, -, h⟩ := bind_ok_iff.mp h
  obtain ⟨manifest, -, h⟩ := bind_ok_iff.mp h
  obtain ⟨version, -, h⟩ := bind_ok_iff.mp h
  obtain ⟨_, -, h⟩ := bind_ok_iff.mp h
  obtain ⟨content', hcontent, h⟩ := bind_ok_iff.mp h
  obtain ⟨status, -, h⟩ := bind_ok_iff.mp h
  obtain ⟨_, -, h⟩ := bind_ok_iff.mp h
  obtain ⟨_, -, h⟩ := bind_ok_iff.mp h
  obtain ⟨blocked, hblocked, h⟩ := bind_ok_iff.mp h
  obtain ⟨rfl, rfl⟩ := Prod.mk.inj (Except.ok.inj h)
  constructor
  · obtain ⟨declared, -, hcontent⟩ := bind_ok_iff.mp hcontent
    obtain ⟨dir, hdir, hcontent⟩ := bind_ok_iff.mp hcontent
    obtain ⟨_, -, hcontent⟩ := bind_ok_iff.mp hcontent
    obtain rfl := Except.ok.inj hcontent
    exact foldlM_takeDeclared_allowed hdir fun _ hfile => nomatch hfile
  · intro hnone
    obtain rfl : blocked = none := hnone
    unfold blockedReason at hblocked
    split at hblocked
    · rename_i status hstatus
      exact ⟨status, hstatus⟩
    · split_ifs at hblocked
      cases hblocked

/-! ## Staging -/

/-- The copies a restore keeps of the files it replaces. -/
def replacedFiles (ledger : Directory Bytes) (files : List (String × Bytes)) : List (String × Bytes) :=
  files.filterMap fun file => (ledger.read file.1).map fun old => (file.1, old)

theorem mem_replacedFiles {files : List (String × Bytes)} {file : String × Bytes} {old : Bytes}
    (hfile : file ∈ files) (hold : ledger.read file.1 = some old) :
    (file.1, old) ∈ replacedFiles ledger files :=
  List.mem_filterMap.mpr ⟨file, hfile, by rw [hold, Option.map_some]⟩

theorem nodup_replacedFiles {files : List (String × Bytes)} (h : (files.map Prod.fst).Nodup) :
    ((replacedFiles ledger files).map Prod.fst).Nodup := by
  refine h.sublist ?_
  induction files with
  | nil => exact List.Sublist.refl _
  | cons file rest ih =>
      rw [replacedFiles, List.filterMap_cons, List.map_cons]
      rw [List.map_cons, List.nodup_cons] at h
      cases ledger.read file.1 with
      | none => exact (ih h.2).cons _
      | some old => exact (ih h.2).cons_cons _

/-- A restore that has not opened its journal. -/
def Staging (ledger : Directory Bytes) (d : Disk) : Prop :=
  d.ledger = ledger ∧ ∀ t ∈ d.transaction, t.journal = none

theorem Staging.resting (h : Staging ledger d) : Resting ledger d :=
  ⟨h.1, fun t ht document hdocument => by
    rw [h.2 t ht] at hdocument
    cases hdocument⟩

theorem Staging.edited {f : Transaction → Transaction} (h : Staging ledger d)
    (hf : ∀ t, (f t).journal = t.journal) : Staging ledger (d.editTransaction f) := by
  refine ⟨h.1, fun t ht => ?_⟩
  obtain ⟨t', ht', rfl⟩ := Option.map_eq_some_iff.mp ht
  rw [hf, h.2 t' ht']

theorem mem_atomicCalls {replace : Disk → Disk} {call : FsCall Disk}
    (h : call ∈ atomicCalls replace) : call.effect = id ∨ call.effect = replace := by
  simp only [atomicCalls, List.mem_cons, List.not_mem_nil, or_false] at h
  rcases h with rfl | rfl | rfl | rfl | rfl | rfl
  · exact .inl rfl
  · exact .inl rfl
  · exact .inl rfl
  · exact .inl rfl
  · exact .inr rfl
  · exact .inl rfl

/-- Staging a file changes nothing of the ledger. -/
theorem Staging.stageFile {file : String × Bytes} {call : FsCall Disk}
    (hcall : call ∈ Archive.stageFile ledger file) {s : Disk} (h : Staging ledger s) :
    Staging ledger (call.effect s) := by
  rcases List.mem_append.mp hcall with hcall | hcall
  · rcases mem_atomicCalls hcall with heq | heq
    · rw [heq]
      exact h
    · rw [heq]
      exact h.edited fun _ => rfl
  · cases hold : ledger.read file.1 with
    | none =>
        rw [hold] at hcall
        cases hcall
    | some old =>
        rw [hold] at hcall
        rcases mem_atomicCalls hcall with heq | heq
        · rw [heq]
          exact h
        · rw [heq]
          exact h.edited fun _ => rfl

theorem completed_stageFile (ht : d.transaction = some t) (file : String × Bytes) :
    completed (stageFile ledger file) d = { d with transaction := some { t with
      staging := t.staging.write file.1 file.2
      backup := t.backup.writeAll (replacedFiles ledger [file]) } } := by
  have hstaged := (atomic_atomicCalls (Disk.putStaged file.1 file.2)).completed d
  rw [stageFile, Lib.completed_append, hstaged, Disk.putStaged, Disk.editTransaction, ht]
  cases hold : ledger.read file.1 with
  | none =>
      have hreplaced : replacedFiles ledger [file] = [] := by simp [replacedFiles, hold]
      rw [hreplaced]
      rfl
  | some old =>
      have hreplaced : replacedFiles ledger [file] = [(file.1, old)] := by
        simp [replacedFiles, hold]
      rw [hreplaced]
      exact (atomic_atomicCalls (Disk.putKept file.1 old)).completed _

/-- What is staged, and kept, once every file is. -/
theorem completed_stageFiles (ht : d.transaction = some t) (files : List (String × Bytes)) :
    completed (files.flatMap (stageFile ledger)) d = { d with transaction := some { t with
      staging := t.staging.writeAll files
      backup := t.backup.writeAll (replacedFiles ledger files) } } := by
  induction files generalizing d t with
  | nil =>
      obtain ⟨ledger', transaction, backups⟩ := d
      obtain rfl : transaction = some t := ht
      rfl
  | cons file rest ih =>
      have hreplaced : replacedFiles ledger (file :: rest) =
          replacedFiles ledger [file] ++ replacedFiles ledger rest :=
        List.filterMap_append (l := [file])
      rw [List.flatMap_cons, Lib.completed_append, completed_stageFile ht, ih rfl, hreplaced,
        Directory.writeAll_append]
      rfl

/-! ## Moving -/

section Moving

variable {backupName : String} {files : List (String × Bytes)} {backup : Directory Bytes}

/-- A restore that is moving its files into the ledger. -/
structure Moving (ledger : Directory Bytes) (names : List String) (backupName : String)
    (backup : Directory Bytes) (d : Disk) : Prop where
  moving : ∃ t n, d.transaction = some t ∧ t.backup = backup ∧
    t.journal = some (some (journalOf ledger names backupName .applying n))
  others : ∀ name, name ∉ names → d.ledger.read name = ledger.read name

theorem readJournal_journalOf (names : List String) (phase : Phase) (n : Nat) :
    readJournal (some (journalOf ledger names backupName phase n)) =
      .ok (journalOf ledger names backupName phase n, phase, names.map (journalEntry ledger)) := by
  have hphase : journalPhase (journalOf ledger names backupName phase n) = .ok phase := by
    have hget : (journalOf ledger names backupName phase n).get "phase" = some (.str phase.text) := by
      simp [journalOf, Json.get_mk, Lib.Fields.getField]
    rw [journalPhase, hget]
    cases phase <;> rfl
  have hfiles : itemsOf (journalOf ledger names backupName phase n) "files" =
      some (names.map (journalEntry ledger)) := by
    simp [itemsOf, journalOf, Json.get_mk, Lib.Fields.getField]
  have hobj : (journalOf ledger names backupName phase n).isObj = true := Json.isObj_mk _
  simp only [readJournal, orFail, failIf, hobj, hphase, hfiles, bind, Except.bind, pure, Except.pure,
    Bool.true_eq_false, if_false]

theorem declaredName_journalEntry {name : String} (h : isAllowed name = true) :
    declaredName (journalEntry ledger name) = some name := by
  simp [declaredName, journalEntry, Json.get_mk, Lib.Fields.getField, h]

/-- **A restore that is moving can be undone.** -/
theorem Moving.leads {names : List String} (h : Moving ledger names backupName backup d)
    (hallowed : ∀ name ∈ names, isAllowed name = true)
    (hkept : ∀ name ∈ names, ∀ old, ledger.read name = some old → backup.read name = some old) :
    Leads ledger d := by
  obtain ⟨t, n, ht, rfl, hjournal⟩ := h.moving
  refine .inr ⟨t, _, _, _, hjournal, readJournal_journalOf names .applying n, ht, ?_, ?_⟩
  · intro entry hentry
    obtain ⟨name, hname, rfl⟩ := List.mem_map.mp hentry
    refine ⟨name, declaredName_journalEntry (hallowed name hname), ?_, hkept name hname⟩
    cases hread : ledger.read name <;>
      simp [journalEntry, Json.get_mk, Lib.Fields.getField, hread, Json.truthy]
  · intro name hname
    refine h.others name fun hmem => ?_
    exact hname _ (List.mem_map_of_mem hmem) (declaredName_journalEntry (hallowed name hmem))

theorem Moving.journaled {names : List String} (h : Moving ledger names backupName backup d) (n : Nat) :
    Moving ledger names backupName backup
      (d.putJournal (journalOf ledger names backupName .applying n)) := by
  obtain ⟨t, _, ht, hbackup, -⟩ := h.moving
  refine ⟨⟨{ t with journal := some (some (journalOf ledger names backupName .applying n)) }, n, ?_,
    hbackup, rfl⟩, h.others⟩
  rw [Disk.putJournal, Disk.editTransaction, ht]
  rfl

theorem Moving.moved {names : List String} (h : Moving ledger names backupName backup d)
    {name : String} (hname : name ∈ names) :
    Moving ledger names backupName backup (d.moveStaged name) := by
  obtain ⟨t, n, ht, hbackup, hjournal⟩ := h.moving
  unfold Disk.moveStaged
  split
  · refine ⟨⟨{ t with staging := t.staging.remove name }, n, ?_, hbackup, hjournal⟩, fun other hother => ?_⟩
    · rw [Disk.editTransaction, Disk.putFile, ht]
      rfl
    · have hne : other ≠ name := fun heq => hother (heq ▸ hname)
      exact (Directory.read_write_ne hne _ _).trans (h.others other hother)
  · exact h

/-- Every call that moves a file keeps a restore moving. -/
theorem Moving.applyFiles {names moved : List String} (hsub : moved ⊆ names) {n : Nat}
    (h : Moving ledger names backupName backup d) :
    Throughout (Moving ledger names backupName backup)
      (Archive.applyFiles (journalOf ledger names backupName .applying) n moved) d := by
  induction moved generalizing n d with
  | nil => exact Lib.throughout_nil h
  | cons name rest ih =>
      have hmoved := h.moved (hsub List.mem_cons_self)
      have hmove : Atomic (Disk.moveStaged name) [quietCall, ⟨Disk.moveStaged name, []⟩, quietCall] :=
        Lib.atomic_of_quiet (a := [quietCall]) (b := [quietCall]) (by simp [quietCall_effect])
          (by simp [quietCall_effect]) ⟨Disk.moveStaged name, []⟩
      have hput := atomic_atomicCalls
        (Disk.putJournal (journalOf ledger names backupName .applying (n + 1)))
      rw [Archive.applyFiles]
      refine ((hmove.throughout h hmoved).append ?_).append ?_
      · rw [hmove.completed]
        exact hput.throughout hmoved (hmoved.journaled _)
      · rw [Lib.completed_append, hmove.completed, hput.completed]
        exact ih (fun name hname => hsub (List.mem_cons_of_mem _ hname)) (hmoved.journaled _)

/-- **What moving all files leaves**: the ledger with them. -/
theorem completed_applyFiles (journal : Nat → Json) (hnodup : (files.map Prod.fst).Nodup)
    (ht : d.transaction = some t) (hstaged : ∀ file ∈ files, t.staging.read file.1 = some file.2)
    (n : Nat) : ∃ t', completed (applyFiles journal n (files.map Prod.fst)) d =
      ⟨d.ledger.writeAll files, some t', d.backups⟩ := by
  induction files generalizing n d t with
  | nil =>
      obtain ⟨ledger', transaction, backups⟩ := d
      obtain rfl : transaction = some t := ht
      exact ⟨t, rfl⟩
  | cons file rest ih =>
      rw [List.map_cons, List.nodup_cons] at hnodup
      have hmove : completed [quietCall, ⟨Disk.moveStaged file.1, []⟩, quietCall] d =
          ⟨d.ledger.write file.1 file.2, some { t with staging := t.staging.remove file.1 },
            d.backups⟩ := by
        have heq : completed [quietCall, ⟨Disk.moveStaged file.1, []⟩, quietCall] d =
            d.moveStaged file.1 := rfl
        have hread : d.transaction.bind (·.staging.read file.1) = some file.2 := by
          rw [ht, Option.bind_some]
          exact hstaged file List.mem_cons_self
        rw [heq, Disk.moveStaged, hread]
        simp only [Disk.editTransaction, Disk.putFile, ht, Option.map_some]
      rw [List.map_cons, applyFiles, Lib.completed_append, Lib.completed_append, hmove,
        (atomic_atomicCalls _).completed]
      refine ih hnodup.2 (t := { t with
        journal := some (some (journal (n + 1)))
        staging := t.staging.remove file.1 }) rfl (fun other hother => ?_) (n + 1)
      have hne : other.1 ≠ file.1 := fun heq =>
        hnodup.1 (heq ▸ List.mem_map_of_mem (f := Prod.fst) hother)
      exact (Directory.read_remove_ne hne _).trans (hstaged other (List.mem_cons_of_mem _ hother))

end Moving

/-! ## A whole restore -/

section Restore

variable {data : Bytes} {replace : Bool} {token : Option String} {now : Int} {plan : RestorePlan}

/-- What a planned restore knows. -/
theorem planRestore_ok (h : planRestore host ledger data replace token now = .ok plan) :
    inspectArchive host ledger data = .ok (plan.preview, plan.content) ∧
      plan.preview.restoreBlockedReason = none ∧ (plan.preview.conflicts ≠ [] → replace = true) ∧
        token = some plan.preview.token ∧
          preserve host ledger now = .ok (plan.before, plan.verified) := by
  obtain ⟨⟨preview, content⟩, hinspect, h⟩ := bind_ok_iff.mp h
  obtain ⟨_, hblocked, h⟩ := bind_ok_iff.mp h
  obtain ⟨_, hconflict, h⟩ := bind_ok_iff.mp h
  obtain ⟨_, htoken, h⟩ := bind_ok_iff.mp h
  obtain ⟨⟨before, verified⟩, hpreserve, h⟩ := bind_ok_iff.mp h
  obtain rfl := Except.ok.inj h
  refine ⟨hinspect, ?_, fun hconflicts => ?_, ?_, hpreserve⟩
  · simpa using failIf_ok_iff.mp hblocked
  · simpa [hconflicts] using failIf_ok_iff.mp hconflict
  · simpa using failIf_ok_iff.mp htoken

/-- Keeping an archive of what is there opens no transaction. -/
theorem atomic_keepCalls (host : Host) (plan : RestorePlan) (now : Int) :
    Atomic (Disk.putBackup (plan.backupName host now) plan.before) (keepCalls host plan now) :=
  Lib.atomic_of_quiet (a := [quietCall, quietCall, quietCall, quietCall, quietCall])
    (b := [quietCall]) (by simp [quietCall_effect]) (by simp [quietCall_effect])
    ⟨Disk.putBackup (plan.backupName host now) plan.before, []⟩

/-- The transaction of a restore whose files are staged. -/
def stagedTransaction (ledger : Directory Bytes) (files : List (String × Bytes)) : Transaction where
  journal := none
  staging := Directory.empty.writeAll files
  backup := Directory.empty.writeAll (replacedFiles ledger files)

/-- Up to the journal nothing of the ledger changes. -/
theorem stageCalls_passes (host : Host) (ledger backups : Directory Bytes) (plan : RestorePlan)
    (now : Int) : Lib.Passes (Staging ledger)
      (keepCalls host plan now ++ [⟨Disk.openTransaction, []⟩, quietCall] ++
        plan.content.files.flatMap (stageFile ledger)) ⟨ledger, none, backups⟩
      ⟨ledger, some (stagedTransaction ledger plan.content.files),
        backups.write (plan.backupName host now) plan.before⟩ := by
  have hclosed : ∀ backups', Staging ledger ⟨ledger, none, backups'⟩ := fun _ =>
    ⟨rfl, fun t ht => nomatch ht⟩
  have hopened : ∀ backups', Staging ledger ⟨ledger, some ⟨none, .empty, .empty⟩, backups'⟩ :=
    fun _ => ⟨rfl, fun t ht => by rw [← Option.some.inj ht]⟩
  have hopen : Atomic Disk.openTransaction [⟨Disk.openTransaction, []⟩, quietCall] :=
    Lib.atomic_of_quiet (a := []) (b := [quietCall]) (by simp) (by simp [quietCall_effect])
      ⟨Disk.openTransaction, []⟩
  refine ((atomic_keepCalls host plan now).passes (hclosed _) (hclosed _)).append
    (hopen.passes (hclosed _) (hopened _)) |>.append ⟨fun k => ?_, ?_⟩
  · exact Lib.killedAfter_invariant (fun call hcall s hs => by
      obtain ⟨file, -, hcall⟩ := List.mem_flatMap.mp hcall
      exact hs.stageFile hcall) k (hopened _)
  · exact completed_stageFiles (t := ⟨none, .empty, .empty⟩) rfl plan.content.files

/-- A restore whose files are staged applies them: prepared, applying, and each moved. -/
theorem moveCalls_passes {files : List (String × Bytes)} (hnodup : (files.map Prod.fst).Nodup)
    (hallowed : ∀ name ∈ pathsOf files, isAllowed name = true) (backupName : String)
    (ledger backups : Directory Bytes) : ∃ t, Lib.Passes (Leads ledger)
      (atomicCalls (Disk.putJournal (journalOf ledger (pathsOf files) backupName .prepared 0)) ++
        atomicCalls (Disk.putJournal (journalOf ledger (pathsOf files) backupName .applying 0)) ++
          applyFiles (journalOf ledger (pathsOf files) backupName .applying) 0 (pathsOf files))
      ⟨ledger, some (stagedTransaction ledger files), backups⟩
      ⟨ledger.writeAll files, some t, backups⟩ := by
  let journal := journalOf ledger (pathsOf files) backupName
  let journaled (phase : Phase) : Disk := ⟨ledger, some { stagedTransaction ledger files with
    journal := some (some (journal phase 0)) }, backups⟩
  have hkept : ∀ name ∈ pathsOf files, ∀ old, ledger.read name = some old →
      (stagedTransaction ledger files).backup.read name = some old := by
    intro name hname old hold
    obtain ⟨file, hfile, rfl⟩ := List.mem_map.mp hname
    exact Directory.read_writeAll_of_mem (nodup_replacedFiles hnodup) (mem_replacedFiles hfile hold) _
  have hstaged : ∀ file ∈ files, (stagedTransaction ledger files).staging.read file.1 = some file.2 :=
    fun file hfile => Directory.read_writeAll_of_mem hnodup hfile _
  have hstart : Resting ledger ⟨ledger, some (stagedTransaction ledger files), backups⟩ :=
    Staging.resting ⟨rfl, fun t ht => by rw [← Option.some.inj ht]; rfl⟩
  have hprepared : Resting ledger (journaled .prepared) := by
    refine ⟨rfl, fun t ht document hdocument => ?_⟩
    obtain rfl := Option.some.inj ht
    obtain rfl := Option.some.inj hdocument
    exact ⟨_, _, _, readJournal_journalOf (pathsOf files) .prepared 0, by decide⟩
  have hbegun : Moving ledger (pathsOf files) backupName (stagedTransaction ledger files).backup
      (journaled .applying) :=
    ⟨⟨_, 0, rfl, rfl, rfl⟩, fun _ _ => rfl⟩
  have hleads : ∀ s, Moving ledger (pathsOf files) backupName
      (stagedTransaction ledger files).backup s → Leads ledger s := fun s hs =>
    hs.leads hallowed hkept
  obtain ⟨t, ht⟩ := completed_applyFiles (journal .applying) hnodup (d := journaled .applying) rfl
    hstaged 0
  refine ⟨t, (Lib.Passes.append (m := journaled .prepared) ?_ ?_).append (m := journaled .applying)
    (Lib.Passes.mono ⟨hbegun.applyFiles (List.Subset.refl _), ht⟩ hleads)⟩
  · exact (atomic_atomicCalls (Disk.putJournal (journal .prepared 0))).passes (.inl hstart)
      (.inl hprepared)
  · exact (atomic_atomicCalls (Disk.putJournal (journal .applying 0))).passes (.inl hprepared)
      (hleads _ hbegun)

/-- **What a restore shows up to its last check**: wherever it is stopped it can be undone; and at the
check the ledger has the archive's files. -/
theorem applyCalls_passes (h : planRestore host ledger data replace token now = .ok plan)
    (backups : Directory Bytes) : ∃ t, Lib.Passes (Leads ledger) (applyCalls host ledger plan now)
      ⟨ledger, none, backups⟩ ⟨ledger.overlay plan.content, some t,
        backups.write (plan.backupName host now) plan.before⟩ := by
  have hallowed := (inspectArchive_ok (planRestore_ok h).1).1
  obtain ⟨t, hmove⟩ := moveCalls_passes plan.content.nodup_names (fun name hname => by
    obtain ⟨file, hfile, rfl⟩ := List.mem_map.mp hname
    exact hallowed file hfile) (plan.backupName host now) ledger
    (backups.write (plan.backupName host now) plan.before)
  have hstage := (stageCalls_passes host ledger backups plan now).mono (Q := Leads ledger)
    fun s hs => .inl hs.resting
  have hpasses := hstage.append hmove
  refine ⟨t, ?_⟩
  rw [applyCalls, Directory.overlay]
  simpa only [List.append_assoc] using hpasses

/-- A restore that goes on to its last check passes it, commits, and leaves no transaction. -/
theorem restoreSettled_ok (sweep : Sweep)
    (h : planRestore host ledger data replace token now = .ok plan)
    (hkept : checkKept host ledger plan = .ok ()) (backups : Directory Bytes) :
    let d : Disk := ⟨ledger, none, backups⟩
    let made := restoreSettled host sweep data replace token now d
    made.ends = none ∧
      Lib.Passes (fun s => Leads ledger s ∨ Leads (ledger.overlay plan.content) s) made.calls d
        ⟨ledger.overlay plan.content, none,
          backups.write (plan.backupName host now) plan.before⟩ := by
  intro d made
  obtain ⟨hinspect, hblocked, -⟩ := planRestore_ok h
  obtain ⟨status, hstatus⟩ := (inspectArchive_ok hinspect).2 hblocked
  obtain ⟨t, happly⟩ := applyCalls_passes h backups
  generalize hnames : pathsOf plan.content.files = names at *
  let journal := journalOf ledger names (plan.backupName host now) .committed
    plan.content.files.length
  let committed : Disk := ⟨ledger.overlay plan.content, some { t with
    journal := some (some journal) }, backups.write (plan.backupName host now) plan.before⟩
  have hcommit : Atomic (Disk.putJournal journal) (commitCalls host ledger plan now) := by
    rw [commitCalls, hnames]
    exact atomic_atomicCalls (Disk.putJournal journal)
  have hresting : Resting (ledger.overlay plan.content) committed := by
    refine ⟨rfl, fun t' ht' document hdocument => ?_⟩
    obtain rfl := Option.some.inj ht'
    obtain rfl := Option.some.inj hdocument
    exact ⟨_, _, _, readJournal_journalOf names .committed _, by decide⟩
  have hmade : made = ⟨applyCalls host ledger plan now ++ commitCalls host ledger plan now ++
      sweepCalls sweep { t with journal := some (some journal) }, none⟩ := by
    change restoreSettled host sweep data replace token now ⟨ledger, none, backups⟩ = _
    simp only [restoreSettled, h, hkept, happly.completed, hstatus, hcommit.completed]
    rfl
  rw [hmade]
  refine ⟨rfl, .append (m := committed) (.append (happly.mono fun s hs => Or.inl hs) ?_)
    ⟨fun k => .inr (.inl (hresting.sweepCalls _ k)), completed_sweepCalls _ _ _⟩⟩
  exact hcommit.passes (.inl happly.reached) (.inr (.inl hresting))

/-- **A restore at any stop**: the disk leads to the ledger it found, or once it has committed to the one
with the archive's files. -/
theorem restoreSettled_leads (host : Host) (sweep : Sweep) (backups : Directory Bytes) :
    let d : Disk := ⟨ledger, none, backups⟩
    Throughout (fun s => Leads ledger s ∨ ∃ plan,
      planRestore host ledger data replace token now = .ok plan ∧
        Leads (ledger.overlay plan.content) s)
      (restoreSettled host sweep data replace token now d).calls d := by
  intro d
  have hd : Leads ledger d := .inl ⟨rfl, fun t ht => nomatch ht⟩
  cases h : planRestore host ledger data replace token now with
  | error failure =>
      have hmade : restoreSettled host sweep data replace token now d = ⟨[], some failure⟩ := by
        change restoreSettled host sweep data replace token now ⟨ledger, none, backups⟩ = _
        simp only [restoreSettled, h]
      rw [hmade]
      exact Lib.throughout_nil (.inl hd)
  | ok plan =>
      cases hkept : checkKept host ledger plan with
      | error failure =>
          have hmade : restoreSettled host sweep data replace token now d =
              ⟨keepCalls host plan now, some failure⟩ := by
            change restoreSettled host sweep data replace token now ⟨ledger, none, backups⟩ = _
            simp only [restoreSettled, h, hkept]
          rw [hmade]
          exact (atomic_keepCalls host plan now).throughout (.inl hd)
            (.inl (.inl ⟨rfl, fun t ht => nomatch ht⟩))
      | ok u =>
          obtain ⟨-, hpasses⟩ := restoreSettled_ok sweep h hkept backups
          exact fun k => (hpasses.throughout k).imp id fun hs => ⟨plan, rfl, hs⟩

end Restore

/-! ## Runs -/

/-- An archive operation that is stopped after so many of its calls. -/
inductive Session where
  | restore (data : Bytes) (replace : Bool) (token : Option String) (now : Int) (stop : Nat)
  | recovery (stop : Nat)

/-- What a session leaves of a disk. -/
def Session.run (host : Host) (sweep : Sweep) (d : Disk) : Session → Disk
  | restore data replace token now stop =>
      killedAfter stop (restoreArchive host sweep data replace token now d).calls d
  | recovery stop => killedAfter stop (recover sweep d).calls d

/-- What a session may make of a ledger: nothing, or a restore that was accepted the ledger with the
archive's files. -/
inductive Outcome (host : Host) (ledger : Directory Bytes) : Session → Directory Bytes → Prop where
  | kept {session : Session} : Outcome host ledger session ledger
  | restored {data : Bytes} {replace : Bool} {token : Option String} {now : Int} {stop : Nat}
      {plan : RestorePlan} : planRestore host ledger data replace token now = .ok plan →
      Outcome host ledger (.restore data replace token now stop) (ledger.overlay plan.content)

/-- What a run may make of a ledger. -/
inductive Outcomes (host : Host) : Directory Bytes → List Session → Directory Bytes → Prop where
  | nil {ledger : Directory Bytes} : Outcomes host ledger [] ledger
  | cons {ledger ledger' ledger'' : Directory Bytes} {session : Session} {rest : List Session} :
      Outcome host ledger session ledger' → Outcomes host ledger' rest ledger'' →
      Outcomes host ledger (session :: rest) ledger''

/-- **One session.** A disk that leads to a ledger leads to an outcome of the session on it. -/
theorem Leads.session (h : Leads ledger d) (host : Host) (sweep : Sweep) (session : Session) :
    ∃ ledger', Outcome host ledger session ledger' ∧ Leads ledger' (session.run host sweep d) := by
  obtain ⟨hends, hthrough, hcompleted⟩ := h.recover sweep
  cases session with
  | recovery stop => exact ⟨ledger, .kept, hthrough stop⟩
  | restore data replace token now stop =>
      have hmade : restoreArchive host sweep data replace token now d =
          ⟨(Archive.recover sweep d).calls ++
            (restoreSettled host sweep data replace token now ⟨ledger, none, d.backups⟩).calls,
            (restoreSettled host sweep data replace token now ⟨ledger, none, d.backups⟩).ends⟩ := by
        simp only [restoreArchive, Operation.andThen, hends, hcompleted]
      rw [Session.run, hmade, Lib.killedAfter_append]
      split_ifs with hstop
      · exact ⟨ledger, .kept, hthrough stop⟩
      · rw [hcompleted]
        rcases restoreSettled_leads host sweep d.backups
          (stop - (Archive.recover sweep d).calls.length) with hkept | ⟨plan, hplan, hrestored⟩
        · exact ⟨ledger, .kept, hkept⟩
        · exact ⟨_, .restored hplan, hrestored⟩

theorem Leads.sessions (h : Leads ledger d) (host : Host) (sweep : Sweep) (sessions : List Session) :
    ∃ ledger', Outcomes host ledger sessions ledger' ∧
      Leads ledger' (sessions.foldl (Session.run host sweep) d) := by
  induction sessions generalizing ledger d with
  | nil => exact ⟨ledger, .nil, h⟩
  | cons session rest ih =>
      obtain ⟨mid, hmid, hleads⟩ := h.session host sweep session
      obtain ⟨ledger', hrest, hleads⟩ := ih hleads
      exact ⟨ledger', .cons hmid hrest, hleads⟩

/-- **Restores are whole or nothing.** After any restores and recoveries, each stopped anywhere, a
recovery that finishes leaves the first ledger under the files of some of the accepted archives, each
of them whole, with no transaction left; it never fails, and every file no archive named is as it was. -/
theorem recover_sessions (host : Host) (sweep : Sweep) (hd : d.transaction = none) (sessions : List Session) :
    let left := sessions.foldl (Session.run host sweep) d
    ∃ ledger', Outcomes host d.ledger sessions ledger' ∧ (recover sweep left).ends = none ∧
      completed (recover sweep left).calls left = ⟨ledger', none, left.backups⟩ := by
  intro left
  have hstart : Leads d.ledger d := .inl ⟨rfl, fun t ht => by
    rw [hd] at ht
    cases ht⟩
  obtain ⟨ledger', houtcomes, hleads⟩ := hstart.sessions host sweep sessions
  obtain ⟨hends, -, hcompleted⟩ := hleads.recover sweep
  exact ⟨ledger', houtcomes, hends, hcompleted⟩

/-- A restore stopped after thirty calls, and a recovery stopped after one. -/
def stoppedSessions : List Session :=
  [.restore auditArchive.1 true (some (previewToken .standard auditedLedger .empty)) 0 30, .recovery 1]

/-- An empty ledger after a stopped restore and a stopped recovery. -/
theorem recover_stoppedSessions : ∃ ledger', Outcomes .standard .empty stoppedSessions ledger' ∧
    (recover .listed (stoppedSessions.foldl (Session.run .standard .listed)
      ⟨.empty, none, .empty⟩)).ends = none := by
  obtain ⟨ledger', houtcomes, hends, -⟩ := recover_sessions .standard .listed
    (d := ⟨.empty, none, .empty⟩) rfl stoppedSessions
  exact ⟨ledger', houtcomes, hends⟩

end Golavo.Archive
