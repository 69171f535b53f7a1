import Golavo.Ledger.Store
import Golavo.Ledger.Calibration
import Golavo.Lib.Crash

/-! # Ledger checkpoints

A **checkpoint** lists the artifacts of a ledger with the digests of their bytes, and links to its
predecessor by that one's digest. A head file names the newest. `status` walks the chain from the
head and checks every record and every artifact still there; `create` verifies the chain and then
writes a record and moves the head to it. -/

namespace Golavo.Ledger

open Golavo.Lib (Json Directory FsCall failIf orFail wrapError)

/-- A JSON document as it is read: keys in order, each once. -/
abbrev Document := { j : Json // j.WF }

/-- The checkpoint directory, each file by the document it reads as: none where its bytes are no JSON
text. Records are listed by the digest in their names `lc_<digest>.json`. -/
structure CheckpointDir where
  head : Option (Option Document)
  records : Directory (Option Document)

/-- A ledger with its checkpoints. -/
structure CheckpointedLedger where
  store : Store
  dir : CheckpointDir

def checkpointSchemaVersion : String := "0.2.0"

def legacySchemaVersion : String := "0.1.0"

def supportedSchemaVersions : List String := [legacySchemaVersion, checkpointSchemaVersion]

/-- What a checkpoint says about its limits. -/
def checkpointLimits : List String :=
  ["The chain detects changes relative to earlier local checkpoints; it does not prove " ++
      "external authenticity.",
    "It cannot prove that an artifact was created before a particular real-world event.",
    "A checkpoint records the artifacts present at creation time and does not prevent " ++
      "explicit later removal.",
    "A verified forecast-ledger archive can preserve and recover the linked chain, but it " ++
      "cannot recover artifact bytes that were already absent when the archive was made.",
    "Optional external anchoring remains a separate release gate."]

/-- What makes a chain unacceptable. -/
inductive CheckpointError where
  | headMissing
  | headUnreadable
  | headInvalid
  | cycle
  | unreadable (digest : String)
  | schemaInvalid
  | hashMismatch
  | predecessorInvalid
  | artifactListInvalid
  | artifactEntryInvalid
  | artifactIdInvalid
  | limitsInvalid
  | artifactCountInvalid
  | predecessorSchemaInvalid
  | linkInvalid
  | artifactChanged (artifactId : String)
  /-- An artifact of the ledger does not load. -/
  | artifact (error : StoreError)
  /-- The walk was cut short; it never is. -/
  | exhausted
  deriving DecidableEq

/-! ## Records -/

/-- Whether a text is a lower-case SHA-256 digest (`_is_sha256`). -/
def isDigestText (s : String) : Bool := s.toList.length = 64 && s.toList.all isHexChar

/-- Whether a text is a canonical artifact id (`_ARTIFACT_ID`). -/
def isCanonicalArtifactId (s : String) : Bool :=
  s.toList.take 3 = ['f', 'a', '_'] && (s.toList.drop 3).length = 20 &&
    (s.toList.drop 3).all isHexChar

/-- An artifact a checkpoint lists, with the digest of its bytes. -/
structure CheckpointEntry where
  artifactId : String
  sha256 : String
  deriving DecidableEq, Repr

/-- What a checkpoint record says. -/
structure Checkpoint where
  schemaVersion : String
  previous : Option String
  previousSchema : Option String
  entries : List CheckpointEntry
  deriving DecidableEq, Repr

/-- A field that may be null: a text, nothing, or neither. -/
def optionalText (j : Json) (key : String) : Option (Option String) :=
  match j.get key with
  | none | some .null => some none
  | some (.str s) => some (some s)
  | some _ => none

/-- The digest of a checkpoint's body (`_digest`). -/
def checkpointDigest (rt : Runtime) (body : Json) : String := rt.sha256 (Json.dumps body)

/-- One entry of a record's artifact list. -/
def entryOf (entry : Json) : Except CheckpointError CheckpointEntry := do
  let digest ← orFail .artifactEntryInvalid ((entry.get "sha256").bind Json.text?)
  failIf (isDigestText digest = false) .artifactEntryInvalid
  let id ← orFail .artifactIdInvalid ((entry.get "artifact_id").bind Json.text?)
  failIf (isCanonicalArtifactId id = false) .artifactIdInvalid
  return ⟨id, digest⟩

/-- Take one entry of the artifact list; an id is listed once. -/
def takeEntry (seen : List CheckpointEntry) (entry : Json) :
    Except CheckpointError (List CheckpointEntry) := do
  let e ← entryOf entry
  failIf (e.artifactId ∈ seen.map CheckpointEntry.artifactId) .artifactEntryInvalid
  return seen ++ [e]

/-- The items of a list under a key. -/
def itemsOf (j : Json) (key : String) : Option (List Json) :=
  match j.get key with
  | some (.arr items) => some items
  | _ => none

/-- Read and check one record against the digest in its name (`_checkpoint`). -/
def checkpoint (rt : Runtime) (dir : CheckpointDir) (expected : String) :
    Except CheckpointError Checkpoint := do
  let document ← orFail (.unreadable expected) ((dir.records.read expected).bind id)
  let value := document.1
  let schema ← orFail .schemaInvalid ((value.get "schema_version").bind Json.text?)
  failIf (schema ∉ supportedSchemaVersions) .schemaInvalid
  failIf (value.get "checkpoint_sha256" ≠ some (.str expected)) .hashMismatch
  failIf (checkpointDigest rt (value.erase "checkpoint_sha256") ≠ expected) .hashMismatch
  let previous ← orFail .predecessorInvalid (optionalText value "previous_checkpoint_sha256")
  failIf (previous.any (isDigestText · = false)) .predecessorInvalid
  let items ← orFail .artifactListInvalid (itemsOf value "artifacts")
  let entries ← items.foldlM takeEntry []
  let limits ← orFail .limitsInvalid (itemsOf value "limits")
  failIf (limits.any (·.text?.isNone)) .limitsInvalid
  if schema = checkpointSchemaVersion then
    failIf (value.get "artifact_count" ≠ some (.int items.length)) .artifactCountInvalid
    let previousSchema ←
      orFail .predecessorSchemaInvalid (optionalText value "previous_schema_version")
    failIf (if previous.isNone then previousSchema.isSome
      else previousSchema.all (· ∉ supportedSchemaVersions)) .predecessorSchemaInvalid
    return ⟨schema, previous, previousSchema, entries⟩
  else return ⟨schema, previous, none, entries⟩

/-! ## The chain -/

/-- Check an artifact a checkpoint lists: absent, or with the listed bytes. -/
def checkEntry (rt : Runtime) (store : Store) (entry : CheckpointEntry) :
    Except CheckpointError Unit :=
  failIf ((store.artifacts.read entry.artifactId).any (rt.sha256 · ≠ entry.sha256))
    (.artifactChanged entry.artifactId)

/-- The schema a link promises of the predecessor. -/
def Checkpoint.promised (c : Checkpoint) : Option String :=
  if c.schemaVersion = checkpointSchemaVersion ∧ c.previous.isSome then c.previousSchema else none

/-- Walk a chain from a digest, newest first. -/
def walk (rt : Runtime) (ledger : CheckpointedLedger) :
    Nat → List String → Option String → Option String →
      Except CheckpointError (List (String × Checkpoint))
  | _, _, none, _ => .ok []
  | 0, _, some _, _ => .error .exhausted
  | fuel + 1, seen, some current, promised => do
      failIf (current ∈ seen) .cycle
      let c ← checkpoint rt ledger.dir current
      failIf (promised.any (· ≠ c.schemaVersion)) .linkInvalid
      let _ ← c.entries.mapM (checkEntry rt ledger.store)
      let rest ← walk rt ledger fuel (current :: seen) c.previous c.promised
      return (current, c) :: rest

/-- What a verified chain shows. -/
structure CheckpointStatus where
  /-- The records, newest first. -/
  chain : List (String × Checkpoint)
  head : Option String
  headSchemaVersion : Option String
  missingArtifacts : List String
  uncheckpointedArtifacts : List String
  deriving DecidableEq, Repr

def CheckpointStatus.checkpointCount (s : CheckpointStatus) : Nat := s.chain.length

/-- The schema versions on the chain, sorted, each once. -/
def CheckpointStatus.schemaVersions (s : CheckpointStatus) : List String :=
  ((s.chain.map fun c => c.2.schemaVersion).dedup).insertionSort (· ≤ ·)

def CheckpointStatus.legacyCount (s : CheckpointStatus) : Nat :=
  (s.chain.filter fun c => c.2.schemaVersion ≠ checkpointSchemaVersion).length

def CheckpointStatus.migrationRequired (s : CheckpointStatus) : Bool :=
  s.headSchemaVersion.any (· ≠ checkpointSchemaVersion)

/-- The artifact files of a ledger, by stem. -/
def artifactStems (store : Store) : List String :=
  (store.artifacts.files.map Prod.fst).filter isArtifactStem

/-- The digest and the schema a head file names. -/
def headOf (document : Document) : Option (String × String) := do
  let schema ← (document.1.get "schema_version").bind Json.text?
  let digest ← (document.1.get "checkpoint_sha256").bind Json.text?
  if schema ∈ supportedSchemaVersions ∧ isDigestText digest = true then some (digest, schema)
  else none

/-- Verify the chain (`_status_unlocked`). -/
def checkpointStatus (rt : Runtime) (ledger : CheckpointedLedger) :
    Except CheckpointError CheckpointStatus :=
  match ledger.dir.head with
  | none => do
      failIf (ledger.dir.records.files ≠ []) .headMissing
      return ⟨[], none, none, [], artifactStems ledger.store⟩
  | some content => do
      let document ← orFail .headUnreadable content
      let (head, schema) ← orFail .headInvalid (headOf document)
      let chain ← walk rt ledger (ledger.dir.records.files.length + 1) [] (some head) (some schema)
      let missing := (chain.flatMap fun c => c.2.entries.map CheckpointEntry.artifactId).filter
        fun id => (ledger.store.artifacts.read id).isNone
      let listed := (chain.head?.map fun c => c.2.entries.map CheckpointEntry.artifactId).getD []
      return ⟨chain, some head, some schema, (missing.dedup).insertionSort (· ≤ ·),
        (artifactStems ledger.store).filter (· ∉ listed)⟩

/-! ## Creating a checkpoint -/

/-- The entry of one artifact file. -/
def entryOfFile (rt : Runtime) (store : Store) (stem : String) :
    Except CheckpointError Document := do
  let artifact ← wrapError .artifact (loadVerifiedArtifact rt store stem)
  let id ← orFail .artifactIdInvalid (idOf artifact)
  let text ← orFail .artifactIdInvalid (store.artifacts.read stem)
  return ⟨.mk [("artifact_id", .str id), ("sha256", .str (rt.sha256 text))], Json.wf_mk (by simp)⟩

/-- A text, or null. -/
def textOrNull : Option String → Json
  | some s => .str s
  | none => .null

theorem wf_textOrNull (s : Option String) : (textOrNull s).WF := by
  cases s <;> exact trivial

/-- The body of the next checkpoint. -/
def checkpointBody (status : CheckpointStatus) (entries : List Document) (now : Int) : Document where
  val := .mk [("schema_version", .str checkpointSchemaVersion),
    ("created_at_utc", .str (isoText now)),
    ("previous_checkpoint_sha256", textOrNull status.head),
    ("previous_schema_version", textOrNull status.headSchemaVersion),
    ("artifact_count", .int entries.length), ("artifacts", .arr (entries.map Subtype.val)),
    ("limits", .arr (checkpointLimits.map Json.str))]
  property := by
    refine Json.wf_mk fun field hfield => ?_
    simp only [List.mem_cons, List.not_mem_nil, or_false] at hfield
    rcases hfield with rfl | rfl | rfl | rfl | rfl | rfl | rfl
    · exact trivial
    · exact trivial
    · exact wf_textOrNull _
    · exact wf_textOrNull _
    · exact trivial
    · exact Json.wf_arr.mpr fun x hx => by
        obtain ⟨d, -, rfl⟩ := List.mem_map.mp hx
        exact d.2
    · exact Json.wf_arr.mpr fun x hx => by
        obtain ⟨d, -, rfl⟩ := List.mem_map.mp hx
        exact trivial

/-- The record of a body: the body with its digest. -/
def checkpointRecord (digest : String) (body : Document) : Document :=
  ⟨body.1.set "checkpoint_sha256" (.str digest), Json.wf_set body.2 (Json.wf_str _) _⟩

/-- The head file that names a digest. -/
def headRecord (digest : String) : Document :=
  ⟨.mk [("schema_version", .str checkpointSchemaVersion), ("checkpoint_sha256", .str digest)],
    Json.wf_mk (by simp)⟩

/-- What `create` decides before it writes: the body of the new record. -/
def planCheckpoint (rt : Runtime) (ledger : CheckpointedLedger) (now : Int) :
    Except CheckpointError Document := do
  let status ← checkpointStatus rt ledger
  let entries ← (artifactStems ledger.store).mapM (entryOfFile rt ledger.store)
  return checkpointBody status entries now

/-! ## Writing it, call by call -/

/-- Put a record. -/
def CheckpointedLedger.putRecord (digest : String) (record : Document)
    (ledger : CheckpointedLedger) : CheckpointedLedger :=
  { ledger with dir := { ledger.dir with records := ledger.dir.records.write digest (some record) } }

/-- Remove a record. -/
def CheckpointedLedger.dropRecord (digest : String) (ledger : CheckpointedLedger) :
    CheckpointedLedger :=
  { ledger with dir := { ledger.dir with records := ledger.dir.records.remove digest } }

/-- Put the head. -/
def CheckpointedLedger.putHead (head : Document) (ledger : CheckpointedLedger) :
    CheckpointedLedger :=
  { ledger with dir := { ledger.dir with head := some (some head) } }

/-- The calls of an atomic write (`_atomic`): the directory, a temporary file made, written and
flushed to the disk, the replacement, and the directory opened and flushed. Temporary files are no
part of the ledger. `outer` is what handlers around the whole write do. -/
def atomicScript (replace : CheckpointedLedger → CheckpointedLedger)
    (outer : List (CheckpointedLedger → CheckpointedLedger)) : List (FsCall CheckpointedLedger) :=
  [⟨id, outer⟩, ⟨id, outer⟩, ⟨id, outer⟩, ⟨id, outer⟩,
    -- from the replacement on, a failure first removes the temporary file
    ⟨replace, id :: outer⟩, ⟨id, id :: outer⟩, ⟨id, id :: outer⟩]

/-- The calls `create` makes to write a body: the record, then the head. If the head cannot be
written, a record this call made is removed and the directory flushed. -/
def createScript (rt : Runtime) (body : Document) (ledger : CheckpointedLedger) :
    List (FsCall CheckpointedLedger) :=
  let digest := checkpointDigest rt body.1
  let created := (ledger.dir.records.read digest).isNone
  atomicScript (·.putRecord digest (checkpointRecord digest body)) [] ++
    atomicScript (·.putHead (headRecord digest))
      (if created then [(·.dropRecord digest), id] else [])

/-- Write a checkpoint (`create`). -/
def createCheckpoint (rt : Runtime) (ledger : CheckpointedLedger) (now : Int) :
    Except CheckpointError (Document × CheckpointedLedger) := do
  let body ← planCheckpoint rt ledger now
  return (checkpointRecord (checkpointDigest rt body.1) body,
    Lib.completed (createScript rt body ledger) ledger)

/-- What stops a call on the way: the process is killed after so many calls, or one call raises. -/
inductive Fault where
  | kill (after : Nat)
  | error (at_ : Nat)
  deriving DecidableEq, Repr

/-- The ledger an interrupted `create` leaves. -/
def interruptedCreate (rt : Runtime) (ledger : CheckpointedLedger) (now : Int) (fault : Fault) :
    CheckpointedLedger :=
  match planCheckpoint rt ledger now with
  | .ok body =>
      match fault with
      | .kill k => Lib.killedAfter k (createScript rt body ledger) ledger
      | .error k => Lib.failedAt k (createScript rt body ledger) ledger
  | .error _ => ledger

end Golavo.Ledger
