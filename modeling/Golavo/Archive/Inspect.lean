import Golavo.Archive.Export

/-! # Inspecting an archive

`inspect_archive` accepts an archive whose members lie within the limits and on the allow-list, whose
manifest lists exactly them with their sizes and digests, whose files pass their checks and whose
checkpoints form one verified chain. It compares the files with the local ones, and reports when the
local chain would not survive a restore. -/

namespace Golavo.Archive

open Golavo.Lib (Json Directory orFail failIf)
open Golavo.Ledger (itemsOf)

/-! ## Equality of JSON values -/

mutual

/-- A value with its numbers as Python compares them: booleans and whole floats are integers. -/
def comparable : Json → Json
  | .bool b => .int (if b then 1 else 0)
  | .float d => if d.places = 0 then .int d.mantissa else .float d
  | .arr items => .arr (comparableItems items)
  | .obj fields => .obj (comparableFields fields)
  | j => j

def comparableItems : List Json → List Json
  | [] => []
  | x :: xs => comparable x :: comparableItems xs

def comparableFields : List (String × Json) → List (String × Json)
  | [] => []
  | (k, x) :: xs => (k, comparable x) :: comparableFields xs

end

/-- Whether a field equals a value. -/
def fieldEquals (j : Json) (key : String) (value : Json) : Bool :=
  (j.get key).any fun stored => comparable stored = comparable value

/-! ## Members -/

/-- The components of a path. -/
def components (name : String) : List (List Char) := name.toList.splitOn '/'

/-- Whether a member leaves the directory it is unpacked in, or is no regular file. -/
def ZipMember.isUnsafe (m : ZipMember) : Bool :=
  m.name.toList.head? = some '/' || (components m.name).contains ['.', '.'] ||
    m.name.toList.getLast? = some '/' || m.isSymlink

/-- Check a member's path. -/
def checkMember (m : ZipMember) : Except Failure Unit := do
  failIf (m.isUnsafe = true) (.refused "archive contains an unsafe path")
  failIf (m.name ≠ manifestName ∧ isAllowed m.name = false)
    (.refused ("archive path is outside the forecast-ledger allowlist: " ++ m.name))

/-- Read a member. -/
def readMember (members : List ZipMember) (name : String) : Except Failure Bytes :=
  match members.find? (·.name = name) with
  | some m => orFail (.unreadableMember name) m.data
  | none => .error (.missingMember name)

/-! ## The manifest -/

/-- The version of a manifest that is supported. -/
def manifestVersion (manifest : Json) : Option String :=
  match manifest.get "schema_version" with
  | some (.str version) =>
      if version = schemaVersion ∨ version = legacySchemaVersion then some version else none
  | _ => none

/-- The allowed path a declaration names. -/
def declaredName (entry : Json) : Option String :=
  match entry.get "path" with
  | some (.str name) => if isAllowed name then some name else none
  | _ => none

/-- Take a declared file: on the allow-list, once, with its size and digest, and acceptable. -/
def takeDeclared (host : Host) (members : List ZipMember) (content : Directory Bytes)
    (entry : Json) : Except Failure (Directory Bytes) := do
  let name ← orFail (.refused "archive declaration is outside the allowlist") (declaredName entry)
  failIf ((content.read name).isSome = true)
    (.refused "archive declaration contains duplicate paths")
  let value ← readMember members name
  failIf (fieldEquals entry "bytes" (.int value.length) = false ∨
    fieldEquals entry "sha256" (.str (host.digest value)) = false)
    (.refused ("archive checksum mismatch: " ++ name))
  validateNamed host name value
  return content.write name value

/-! ## The preview -/

/-- The paths of some files. -/
def pathsOf (files : List (String × Bytes)) : List String := files.map Prod.fst

/-- The text a preview token hashes: each path with the archived and the local digest. -/
def tokenText (host : Host) (content files : Directory Bytes) : Json :=
  .arr (content.files.map fun file => .mk [("path", .str file.1),
    ("archive_sha256", .str (host.digest file.2)),
    ("local_sha256", ((files.read file.1).map fun data => Json.str (host.digest data)).getD .null)])

/-- The token that binds a confirmation to what was previewed (`_restore_preview_token`). -/
def previewToken (host : Host) (content files : Directory Bytes) : String :=
  host.digest (utf8 (Json.dumps (tokenText host content files)))

/-- What a user is shown of an archive before a restore. -/
structure Preview where
  schemaVersion : String
  fileCount : Nat
  totalBytes : Nat
  newFiles : List String
  identicalFiles : List String
  conflicts : List String
  token : String
  excludedCategories : Json
  checkpointRecovery : Json
  /-- Why a restore is blocked, if it is. -/
  restoreBlockedReason : Option Failure

def Preview.requiresReplaceConfirmation (p : Preview) : Bool := p.conflicts ≠ []

/-- What stands in the way of a restore: the failure of the chain laid over the local one. -/
def blockedReason (host : Host) (files content : Directory Bytes) :
    Except Failure (Option Failure) :=
  match statusOf host (files.overlay content) with
  | .ok _ => .ok none
  | .error failure => if failure.blocks then .ok (some failure) else .error failure

/-- The preview of an accepted archive. -/
def previewOf (host : Host) (files content : Directory Bytes) (version : String)
    (manifest recovery : Json) (blocked : Option Failure) : Preview where
  schemaVersion := version
  fileCount := content.files.length
  totalBytes := totalBytes content.files
  newFiles := pathsOf (content.files.filter fun file => (files.read file.1).isNone)
  identicalFiles := pathsOf (content.files.filter fun file => files.read file.1 = some file.2)
  conflicts := pathsOf (content.files.filter fun file => (files.read file.1).any (· ≠ file.2))
  token := previewToken host content files
  excludedCategories := (manifest.get "excluded").getD (.arr [])
  checkpointRecovery := recovery
  restoreBlockedReason := blocked

/-! ## Inspection -/

/-- List the members of an archive within the limits, with one manifest and safe allowed paths. -/
def listMembers (host : Host) (data : Bytes) : Except Failure (List ZipMember) := do
  failIf (maxUncompressed < data.length) (.refused "archive exceeds 64 MiB")
  let members ← orFail (.refused "archive is not a valid ZIP file") (host.unzip data)
  failIf (maxFiles + 1 < members.length) (.refused "archive contains too many files")
  failIf (maxUncompressed < (members.map ZipMember.fileSize).sum)
    (.refused "archive expands beyond 64 MiB")
  let names := members.map ZipMember.name
  failIf (¬ (names.Nodup ∧ manifestName ∈ names))
    (.refused "archive has duplicate paths or no manifest")
  members.forM checkMember
  return members

/-- Whether a path is a checkpoint file's. -/
def isCheckpointName (name : String) : Bool := "ledger/checkpoints/".toList.isPrefixOf name.toList

/-- Whether a path is a checkpoint record's. -/
def isRecordName (name : String) : Bool := recordPrefix.toList.isPrefixOf name.toList

/-- The declared files of an archive, which are its members but for the manifest. -/
def declaredContent (host : Host) (members : List ZipMember) (manifest : Json) :
    Except Failure (Directory Bytes) := do
  let declared ← orFail (.refused "archive file manifest is invalid") (itemsOf manifest "files")
  let content ← declared.foldlM (takeDeclared host members) .empty
  let others := (members.map ZipMember.name).filter (· ≠ manifestName)
  failIf (¬ ((∀ name ∈ pathsOf content.files, name ∈ others) ∧
      ∀ name ∈ others, name ∈ pathsOf content.files))
    (.refused "archive contents do not match its manifest")
  return content

/-- Inspect the members of an archive: its manifest, its files and its chain. -/
def inspectMembers (host : Host) (files : Directory Bytes) (members : List ZipMember) :
    Except Failure (Preview × Directory Bytes) := do
  let manifest ← readMember members manifestName >>= readJson host
  let version ← orFail (.refused "unsupported archive manifest") (manifestVersion manifest)
  failIf (version = legacySchemaVersion ∧ (members.map ZipMember.name).any isCheckpointName)
    (.refused "legacy archives cannot declare checkpoint files")
  let content ← declaredContent host members manifest
  let status ← statusOf host content
  failIf (((pathsOf content.files).filter isRecordName).length ≠ status.checkpointCount)
    (.refused "archive contains checkpoint records outside the linked chain")
  failIf (version = schemaVersion ∧
      fieldEquals manifest "checkpoint_recovery" (recoverySummary status) = false)
    (.refused "archive checkpoint recovery declaration is invalid")
  let blocked ← blockedReason host files content
  return (previewOf host files content version manifest (recoverySummary status) blocked, content)

/-- `_inspect_archive_unlocked`: the preview of an archive against local files, and its content. -/
def inspectArchive (host : Host) (files : Directory Bytes) (data : Bytes) :
    Except Failure (Preview × Directory Bytes) :=
  listMembers host data >>= inspectMembers host files

end Golavo.Archive
