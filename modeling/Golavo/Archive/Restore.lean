import Golavo.Archive.RoundTrip
import Golavo.Lib.Crash

/-! # Restoring an archive

`restore_archive` puts an archive's files over the local ones under a journal. It first keeps an archive
of what is there, then stages the new files beside the ledger with copies of those they replace, and
journals what it is at: prepared, applying, committed. `_recover_unlocked` runs before every archive
operation. It rolls back a restore that was still applying, and clears away what any restore left. -/

namespace Golavo.Archive

open Golavo.Lib (Json Directory FsCall orFail failIf completed)
open Golavo.Ledger (itemsOf)

/-! ## The disk -/

/-- What a restore keeps beside the ledger. -/
structure Transaction where
  /-- The journal, by the document it reads as: none inside where its bytes are no JSON text. -/
  journal : Option (Option Json)
  staging : Directory Bytes
  backup : Directory Bytes

/-- The ledger's files by their portable paths, a restore's transaction if one is there, and the
archives kept before restores. -/
structure Disk where
  ledger : Directory Bytes
  transaction : Option Transaction
  backups : Directory Bytes

namespace Disk

def putFile (name : String) (data : Bytes) (d : Disk) : Disk :=
  { d with ledger := d.ledger.write name data }

def dropFile (name : String) (d : Disk) : Disk := { d with ledger := d.ledger.remove name }

def putBackup (name : String) (data : Bytes) (d : Disk) : Disk :=
  { d with backups := d.backups.write name data }

def openTransaction (d : Disk) : Disk := { d with transaction := some ⟨none, .empty, .empty⟩ }

def closeTransaction (d : Disk) : Disk := { d with transaction := none }

/-- Change the transaction, if there is one. -/
def editTransaction (f : Transaction → Transaction) (d : Disk) : Disk :=
  { d with transaction := d.transaction.map f }

def putJournal (journal : Json) : Disk → Disk :=
  editTransaction fun t => { t with journal := some (some journal) }

def putStaged (name : String) (data : Bytes) : Disk → Disk :=
  editTransaction fun t => { t with staging := t.staging.write name data }

def putKept (name : String) (data : Bytes) : Disk → Disk :=
  editTransaction fun t => { t with backup := t.backup.write name data }

/-- Move a staged file into the ledger (`os.replace`). -/
def moveStaged (name : String) (d : Disk) : Disk :=
  match d.transaction.bind (·.staging.read name) with
  | some data => (d.putFile name data).editTransaction fun t =>
      { t with staging := t.staging.remove name }
  | none => d

end Disk

/-- A call that changes nothing a disk shows. -/
def quietCall : FsCall Disk := ⟨id, []⟩

/-- The calls of an atomic write (`_atomic_bytes`): the directory made and flushed, a temporary file
made, written and flushed, the replacement, and the directory flushed. -/
def atomicCalls (replace : Disk → Disk) : List (FsCall Disk) :=
  [quietCall, quietCall, quietCall, quietCall, ⟨replace, []⟩, quietCall]

/-- What an operation does: the calls it makes, and the failure it then ends in, if any. -/
structure Operation where
  calls : List (FsCall Disk)
  ends : Option Failure

/-- One operation, and where it does not fail another after it. -/
def Operation.andThen (first : Operation) (d : Disk) (next : Disk → Operation) : Operation :=
  match first.ends with
  | some _ => first
  | none =>
      let second := next (completed first.calls d)
      ⟨first.calls ++ second.calls, second.ends⟩

/-! ## Journals -/

/-- What a restore is at. -/
inductive Phase where
  | prepared
  | applying
  | committed
  | rolledBack
  deriving DecidableEq, Repr

def Phase.text : Phase → String
  | prepared => "prepared"
  | applying => "applying"
  | committed => "committed"
  | rolledBack => "rolled_back"

/-- The phase a text names. -/
def Phase.ofText? (s : String) : Option Phase :=
  [prepared, applying, committed, rolledBack].find? (·.text = s)

/-- A file a restore replaces or makes, in its journal. -/
def journalEntry (files : Directory Bytes) (name : String) : Json :=
  .mk [("path", .str name), ("existed", .bool (files.read name).isSome)]

/-- The journal of a restore of some files. -/
def journalOf (files : Directory Bytes) (names : List String) (backupName : String) (phase : Phase)
    (applied : Nat) : Json :=
  .mk [("schema_version", .str schemaVersion), ("phase", .str phase.text),
    ("files", .arr (names.map (journalEntry files))), ("applied_count", .int applied),
    ("pre_restore_backup", .str backupName)]

/-- The phase of a journal. -/
def journalPhase (journal : Json) : Except Failure Phase :=
  match journal.get "phase" with
  | some (.str s) => orFail (.refused "restore recovery journal is invalid") (Phase.ofText? s)
  -- a list or an object is looked up in a set of texts
  | some (.arr _) | some (.obj _) => .error .unhashable
  | _ => .error (.refused "restore recovery journal is invalid")

/-- What a journal says: its phase and its files. -/
def readJournal (document : Option Json) : Except Failure (Json × Phase × List Json) := do
  let journal ← orFail .notJson document
  failIf (journal.isObj = false) (.refused "restore recovery journal is invalid")
  let phase ← journalPhase journal
  let entries ← orFail (.refused "restore recovery file list is invalid") (itemsOf journal "files")
  return (journal, phase, entries)

/-! ## Clearing a transaction away -/

/-- A file of a transaction. -/
inductive Leftover where
  | journal
  | staged (name : String)
  | kept (name : String)
  deriving DecidableEq, Repr

/-- The files of a transaction. -/
def Transaction.leftovers (t : Transaction) : List Leftover :=
  t.journal.toList.map (fun _ => .journal) ++ t.staging.files.map (fun file => .staged file.1) ++
    t.backup.files.map (fun file => .kept file.1)

/-- Remove a file of a transaction. -/
def Leftover.removed (t : Transaction) : Leftover → Transaction
  | journal => { t with journal := none }
  | staged name => { t with staging := t.staging.remove name }
  | kept name => { t with backup := t.backup.remove name }

/-- The order in which `shutil.rmtree` comes upon the files of a transaction. -/
structure Sweep where
  order : Transaction → List Leftover
  perm : ∀ t, (order t).Perm t.leftovers

/-- A sweep in the order of the listing. -/
def Sweep.listed : Sweep := ⟨Transaction.leftovers, fun _ => .refl _⟩

/-- The calls that clear a transaction away (`_remove_recovery`): its files one by one, its
directory, and the directory it was in flushed. -/
def sweepCalls (sweep : Sweep) (t : Transaction) : List (FsCall Disk) :=
  (sweep.order t).map (fun leftover => ⟨Disk.editTransaction (leftover.removed ·), []⟩) ++
    [⟨Disk.closeTransaction, []⟩, quietCall]

/-! ## Recovery -/

/-- Undo what a restore did to one of its files. -/
def undoEntry (t : Transaction) (entry : Json) : Except Failure (List (FsCall Disk)) := do
  let name ← orFail (.refused "restore recovery entry is invalid") (declaredName entry)
  if ((entry.get "existed").getD .null).truthy then do
    let data ← orFail (.refused "restore recovery backup is missing") (t.backup.read name)
    return atomicCalls (·.putFile name data)
  else return [⟨Disk.dropFile name, []⟩, quietCall]

/-- Undo what a restore did to its files, in the order of the journal, up to the first that cannot
be. -/
def undoEntries (t : Transaction) : List Json → Operation
  | [] => ⟨[], none⟩
  | entry :: rest =>
      match undoEntry t entry with
      | .error failure => ⟨[], some failure⟩
      | .ok calls => ⟨calls ++ (undoEntries t rest).calls, (undoEntries t rest).ends⟩

/-- Roll a restore back: undo its files, say so in the journal, and clear it away. -/
def rollBack (sweep : Sweep) (t : Transaction) (journal : Json) (entries : List Json) : Operation :=
  let undone := undoEntries t entries
  let closing := journal.set "phase" (.str Phase.rolledBack.text)
  match undone.ends with
  | some failure => ⟨undone.calls, some failure⟩
  | none => ⟨undone.calls ++ atomicCalls (Disk.putJournal closing) ++
      sweepCalls sweep { t with journal := some (some closing) }, none⟩

/-- `_recover_unlocked`. -/
def recover (sweep : Sweep) (d : Disk) : Operation :=
  match d.transaction with
  | none => ⟨[], none⟩
  | some t =>
      match t.journal with
      | none => ⟨sweepCalls sweep t, none⟩
      | some document =>
          match readJournal document with
          | .error failure => ⟨[], some failure⟩
          | .ok (journal, .applying, entries) => rollBack sweep t journal entries
          | .ok _ => ⟨sweepCalls sweep t, none⟩

/-! ## Restoring -/

/-- The time in a backup's name. -/
def stampText (now : Int) : String :=
  String.ofList ((isoText now).toList.filter fun c => c ≠ '-' ∧ c ≠ ':')

/-- What a restore has decided before it writes: what it shows, the files, and the archive it keeps of
what is there. -/
structure RestorePlan where
  preview : Preview
  content : Directory Bytes
  before : Bytes
  verified : Bool

/-- The archive of what is there, and whether it is verified. -/
def preserve (host : Host) (files : Directory Bytes) (now : Int) : Except Failure (Bytes × Bool) :=
  match exportArchive host files true now with
  | .ok (before, _) => .ok (before, true)
  | .error failure =>
      if failure.fallsBack then do
        let (before, _) ← exportArchive host files false now
        return (before, false)
      else .error failure

/-- The name an archive is kept under. -/
def RestorePlan.backupName (host : Host) (plan : RestorePlan) (now : Int) : String :=
  (if plan.verified then "pre-restore-" else "pre-restore-unverified-") ++ stampText now ++ "-" ++
    String.ofList ((host.digest plan.before).toList.take 12) ++ ".zip"

/-- Decide on a restore. -/
def planRestore (host : Host) (files : Directory Bytes) (data : Bytes) (replace : Bool)
    (token : Option String) (now : Int) : Except Failure RestorePlan := do
  let (preview, content) ← inspectArchive host files data
  failIf (preview.restoreBlockedReason.isSome = true)
    (.refused "restore would leave the local checkpoint chain invalid")
  failIf (preview.conflicts ≠ [] ∧ replace = false) .conflict
  failIf (token ≠ some preview.token)
    (.refused "restore preview changed; preview again before restoring files")
  let (before, verified) ← preserve host files now
  return ⟨preview, content, before, verified⟩

/-- The calls that stage a file, with a copy of the one it replaces. -/
def stageFile (files : Directory Bytes) (file : String × Bytes) : List (FsCall Disk) :=
  atomicCalls (Disk.putStaged file.1 file.2) ++
    match files.read file.1 with
    | some old => atomicCalls (Disk.putKept file.1 old)
    | none => []

/-- The calls that move the staged files into the ledger, `applied` of them being there. -/
def applyFiles (journal : Nat → Json) (applied : Nat) : List String → List (FsCall Disk)
  | [] => []
  | name :: rest =>
      [quietCall, ⟨Disk.moveStaged name, []⟩, quietCall] ++
        atomicCalls (Disk.putJournal (journal (applied + 1))) ++
          applyFiles journal (applied + 1) rest

/-- The calls that keep an archive of what is there, once there is a ledger directory. -/
def keepCalls (host : Host) (plan : RestorePlan) (now : Int) : List (FsCall Disk) :=
  quietCall :: atomicCalls (Disk.putBackup (plan.backupName host now) plan.before)

/-- The calls of a restore up to its last check: the archive kept, the transaction opened, the files
staged, and moved under the journal. -/
def applyCalls (host : Host) (files : Directory Bytes) (plan : RestorePlan) (now : Int) :
    List (FsCall Disk) :=
  let names := pathsOf plan.content.files
  let journal := journalOf files names (plan.backupName host now)
  keepCalls host plan now ++ [⟨Disk.openTransaction, []⟩, quietCall] ++ plan.content.files.flatMap (stageFile files) ++
      atomicCalls (Disk.putJournal (journal .prepared 0)) ++
        atomicCalls (Disk.putJournal (journal .applying 0)) ++ applyFiles (journal .applying) 0 names

/-- The calls that commit a restore. -/
def commitCalls (host : Host) (files : Directory Bytes) (plan : RestorePlan) (now : Int) :
    List (FsCall Disk) :=
  atomicCalls (Disk.putJournal (journalOf files (pathsOf plan.content.files)
    (plan.backupName host now) .committed plan.content.files.length))

/-- Check a verified archive once it is kept. -/
def checkKept (host : Host) (files : Directory Bytes) (plan : RestorePlan) : Except Failure Unit :=
  if plan.verified then do
    let _ ← inspectArchive host files plan.before
    return ()
  else .ok ()

/-- What a restore does to a disk without a transaction. -/
def restoreSettled (host : Host) (sweep : Sweep) (data : Bytes) (replace : Bool)
    (token : Option String) (now : Int) (d : Disk) : Operation :=
  match planRestore host d.ledger data replace token now with
  | .error failure => ⟨[], some failure⟩
  | .ok plan =>
      match checkKept host d.ledger plan with
      | .error failure => ⟨keepCalls host plan now, some failure⟩
      | .ok () =>
          let applied := applyCalls host d.ledger plan now
          let reached := completed applied d
          -- the chain is verified where it now stands, before the restore commits
          match statusOf host reached.ledger with
          | .error failure => ⟨applied ++ (recover sweep reached).calls, some failure⟩
          | .ok _ =>
              let commit := commitCalls host d.ledger plan now
              ⟨applied ++ commit ++
                ((completed commit reached).transaction.map (sweepCalls sweep)).getD [], none⟩

/-- `restore_archive`: recover, then restore. -/
def restoreArchive (host : Host) (sweep : Sweep) (data : Bytes) (replace : Bool)
    (token : Option String) (now : Int) (d : Disk) : Operation :=
  (recover sweep d).andThen d (restoreSettled host sweep data replace token now)

end Golavo.Archive
