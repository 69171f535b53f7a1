import Golavo.Archive.Content
import Golavo.Ledger.CheckpointChain

/-! # The checkpoint drill

An archive's checkpoint files are verified in a disposable ledger that holds them and the artifacts,
alone or laid over the local ones (`_checkpoint_overlay_status`). A directory of archive files holds a
**checkpointed ledger**: its artifacts, its checkpoint head and its records. -/

namespace Golavo.Archive

open Golavo.Lib (Json Directory)
open Golavo.Ledger (CheckpointedLedger CheckpointError CheckpointStatus checkpointStatus
  textOrNull)

/-- The stem of an artifact file's path. -/
def artifactStem (name : String) : Option String := between "ledger/" jsonSuffix name >>= fun stem =>
  if "fa_".toList <+: stem.toList then some stem else none

/-- The digest in a checkpoint record's path. -/
def recordDigest (name : String) : Option String := between recordPrefix jsonSuffix name

/-- The checkpointed ledger a directory of archive files holds. -/
def checkpointLedger (host : Host) (files : Directory Bytes) : CheckpointedLedger where
  store := ⟨files.collect artifactStem heldText, []⟩
  dir := ⟨(files.read headName).map (readDocument host),
    files.collect recordDigest (readDocument host)⟩

/-- What a chain's error is to an archive: a file that exhausts the stack raises before it is found
unreadable. -/
def checkpointFailure (host : Host) (files : Directory Bytes) (error : CheckpointError) : Failure :=
  let exhausted (name : String) : Bool := (files.read name).any (exhaustsOn host)
  match error with
  | .headUnreadable => if exhausted headName then .recursion else .checkpoint error
  | .unreadable digest =>
      if exhausted (Entry.record digest).path then .recursion else .checkpoint error
  | _ => .checkpoint error

/-- Verify the chain a directory holds (`ledger_checkpoints.status`). -/
def statusOf (host : Host) (files : Directory Bytes) : Except Failure CheckpointStatus :=
  Lib.wrapError (checkpointFailure host files)
    (checkpointStatus host.runtime (checkpointLedger host files))

/-- The names of the files that recover a verified chain: the head, and the records it reaches
(`recovery_files`). -/
def chainNames (status : CheckpointStatus) : List String :=
  if status.head.isSome then headName :: status.chain.map fun c => (Entry.record c.1).path else []

/-- What a manifest says of a verified chain (`_checkpoint_recovery_summary`). -/
def recoverySummary (status : CheckpointStatus) : Json :=
  .mk [("available", .bool status.head.isSome), ("recovery_drill_verified", .bool true),
    ("checkpoint_count", .int status.checkpointCount), ("head", textOrNull status.head),
    ("head_schema_version", textOrNull status.headSchemaVersion),
    ("checkpoint_schema_versions", .arr (status.schemaVersions.map Json.str)),
    ("legacy_checkpoint_count", .int status.legacyCount),
    ("missing_artifacts", .arr (status.missingArtifacts.map Json.str)),
    ("uncheckpointed_artifacts", .arr (status.uncheckpointedArtifacts.map Json.str))]

/-- What a manifest says of checkpoints nobody verified (`_raw_checkpoint_recovery`). -/
def rawRecovery (files : Directory Bytes) : Json :=
  .mk [("available", .bool (files.read headName).isSome), ("recovery_drill_verified", .bool false),
    ("checkpoint_count", .int ((files.files.filter fun f => (recordDigest f.1).isSome).length)),
    ("head", .null), ("head_schema_version", .null), ("checkpoint_schema_versions", .arr []),
    ("legacy_checkpoint_count", .int 0), ("missing_artifacts", .arr []),
    ("uncheckpointed_artifacts", .arr [])]

/-! ## What the drill reads -/

section Reads

variable {host : Host} {files files' : Directory Bytes}

theorem recordDigest_eq_some_iff {name digest : String} :
    recordDigest name = some digest ↔ name = (Entry.record digest).path := between_eq_some_iff

theorem artifactStem_eq_some_iff {name stem : String} :
    artifactStem name = some stem ↔
      name = "ledger/" ++ stem ++ jsonSuffix ∧ "fa_".toList <+: stem.toList := by
  simp only [artifactStem, bind, Option.bind_eq_some_iff, between_eq_some_iff]
  constructor
  · rintro ⟨s, hname, h⟩
    split_ifs at h with hfa
    obtain rfl := Option.some.inj h
    exact ⟨hname, hfa⟩
  · rintro ⟨hname, hfa⟩
    exact ⟨stem, hname, if_pos hfa⟩

theorem artifactStem_inj (m n k : String) (hm : artifactStem m = some k)
    (hn : artifactStem n = some k) : m = n :=
  (artifactStem_eq_some_iff.mp hm).1.trans (artifactStem_eq_some_iff.mp hn).1.symm

theorem recordDigest_inj (m n k : String) (hm : recordDigest m = some k)
    (hn : recordDigest n = some k) : m = n :=
  (recordDigest_eq_some_iff.mp hm).trans (recordDigest_eq_some_iff.mp hn).symm

theorem read_records (digest : String) : (checkpointLedger host files).dir.records.read digest =
    (files.read (Entry.record digest).path).map (readDocument host) :=
  Directory.read_collect recordDigest_inj (recordDigest_eq_some_iff.mpr rfl) _ _

theorem read_artifacts (digits : String) :
    (checkpointLedger host files).store.artifacts.read ("fa_" ++ digits) =
      (files.read (Entry.artifact digits).path).map heldText := by
  refine Directory.read_collect artifactStem_inj (artifactStem_eq_some_iff.mpr ⟨?_, ?_⟩) _ _
  · have hsplit : artifactPrefix = "ledger/" ++ "fa_" := rfl
    simp only [Entry.path, hsplit, String.append_assoc]
  · rw [String.toList_append]
    exact List.prefix_append _ _

/-- The chain of a directory does not depend on its follow database. -/
theorem checkpointLedger_congr
    (h : ∀ name, name ≠ followsName → files.read name = files'.read name) :
    checkpointLedger host files = checkpointLedger host files' := by
  have hartifact : artifactStem followsName = none := rfl
  have hrecord : recordDigest followsName = none := rfl
  have hartifacts : files.collect artifactStem heldText = files'.collect artifactStem heldText :=
    Directory.collect_congr artifactStem_inj fun name k hkey => h name fun heq => by
      rw [heq, hartifact] at hkey
      cases hkey
  have hrecords : files.collect recordDigest (readDocument host) =
      files'.collect recordDigest (readDocument host) :=
    Directory.collect_congr recordDigest_inj fun name k hkey => h name fun heq => by
      rw [heq, hrecord] at hkey
      cases hkey
  rw [checkpointLedger, checkpointLedger, hartifacts, hrecords, h headName (by decide)]

end Reads

end Golavo.Archive
