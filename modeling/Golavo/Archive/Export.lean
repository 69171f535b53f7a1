import Golavo.Archive.Overlay
import Golavo.Lib.JsonIndent

/-! # Exporting an archive

`export_archive` packs the files of a ledger that the archive owns: each within a running total, each
checked, and with them a manifest that lists their sizes and digests and what the checkpoint drill
found. A copy made without validation preserves whatever is there. -/

namespace Golavo.Archive

open Golavo.Lib (Json Directory orFail failIf)

def schemaVersion : String := "0.2.0"

def legacySchemaVersion : String := "0.1.0"

/-! ## The files -/

/-- Whether an archive takes a file; of the checkpoint files only those listed. -/
def isOwned (listed : String → Bool) (name : String) : Bool :=
  match entryOf name with
  | some .head | some (.record _) => listed name
  | some _ => true
  | none => false

/-- The files an archive takes, in name order (`_files`): of the checkpoints those that recover the
verified chain, or without validation all. -/
def ownedFiles (host : Host) (files : Directory Bytes) (validate : Bool) :
    Except Failure (List (String × Bytes)) :=
  if validate then do
    let status ← statusOf host files
    return files.files.filter fun file => isOwned (· ∈ chainNames status) file.1
  else return files.files.filter fun file => isOwned (fun _ => true) file.1

/-- The bytes a file is packed with: the follow database through SQLite's backup. -/
def packedBytes (host : Host) (validate : Bool) (file : String × Bytes) : Except Failure Bytes :=
  if validate ∧ file.1 = followsName then orFail .database (host.snapshot file.2) else .ok file.2

/-- The bytes of some files. -/
def totalBytes (files : List (String × Bytes)) : Nat := (files.map fun file => file.2.length).sum

/-- Check a file that is packed, when an export validates. -/
def checkPacked (host : Host) (validate : Bool) (name : String) (data : Bytes) :
    Except Failure Unit := if validate then validateNamed host name data else .ok ()

/-- Pack one more file: within the limit, and checked. -/
def packFile (host : Host) (validate : Bool) (packed : List (String × Bytes))
    (file : String × Bytes) : Except Failure (List (String × Bytes)) := do
  let data ← packedBytes host validate file
  failIf (maxUncompressed < totalBytes packed + data.length)
    (.refused "forecast-ledger archive exceeds 64 MiB")
  checkPacked host validate file.1 data
  return packed ++ [(file.1, data)]

/-- The files of an export. -/
def exportContent (host : Host) (files : Directory Bytes) (validate : Bool) :
    Except Failure (List (String × Bytes)) := do
  let owned ← ownedFiles host files validate
  failIf (maxFiles < owned.length) (.refused "ledger contains too many archive-owned files")
  owned.foldlM (packFile host validate) []

/-! ## The manifest -/

/-- What a manifest says of a file. -/
def fileEntry (host : Host) (file : String × Bytes) : Json :=
  .mk [("path", .str file.1), ("bytes", .int file.2.length), ("sha256", .str (host.digest file.2))]

/-- What an archive includes. -/
def included : List String :=
  ["forecast artifacts", "picks", "followed-match state",
    "verified linked ledger checkpoints when available"]

/-- What an archive leaves out. -/
def excluded : List String :=
  ["team favorites stored in browser preferences", "credentials and provider settings",
    "licensed overlays and provider responses", "weather captures and research data",
    "refresh generations and derived caches"]

/-- The manifest of some files. -/
def manifestOf (host : Host) (content : List (String × Bytes)) (recovery : Json) (validate : Bool)
    (now : Int) : Json :=
  .mk [("schema_version", .str schemaVersion), ("created_at_utc", .str (isoText now)),
    ("files", .arr (content.map (fileEntry host))), ("included", .arr (included.map Json.str)),
    ("excluded", .arr (excluded.map Json.str)), ("checkpoint_recovery", recovery),
    ("integrity", .str (if validate then "verified" else "unverified-preservation"))]

/-- A manifest's file. -/
def manifestBytes (manifest : Json) : Bytes := utf8 (manifest.indented ++ ['\n'])

/-- What the checkpoint drill says of the files of an export. -/
def exportRecovery (host : Host) (files : Directory Bytes) (content : List (String × Bytes))
    (validate : Bool) : Except Failure Json :=
  if validate then do
    let status ← statusOf host (Directory.empty.writeAll content)
    return recoverySummary status
  else return rawRecovery files

/-- The files of an archive: the owned ones, and after them, as its name sorts, the manifest. -/
def archiveFiles (content : List (String × Bytes)) (manifest : Json) : List (String × Bytes) :=
  content ++ [(manifestName, manifestBytes manifest)]

/-- `_export_archive_unlocked`. -/
def exportArchive (host : Host) (files : Directory Bytes) (validate : Bool) (now : Int) :
    Except Failure (Bytes × Json) := do
  let content ← exportContent host files validate
  let recovery ← exportRecovery host files content validate
  let manifest := manifestOf host content recovery validate now
  return (host.zip (archiveFiles content manifest), manifest)

end Golavo.Archive
