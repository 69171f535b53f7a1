import Golavo.Archive.Names
import Golavo.Follows.Validate
import Golavo.Ledger.Checkpoints
import Golavo.Picks.File

/-! # What the archive runs on

A **host** is what an archive's code is given: the digest of bytes, how JSON bytes are decoded, the ZIP
format, and SQLite. A file is its bytes. What a check raises is a **failure**, and its **family** decides
which handlers catch it. -/

namespace Golavo.Archive

open Golavo.Lib (Json Directory orFail failIf)
open Golavo.Ledger (ArtifactError CheckpointError Runtime isHexChar)
open Golavo.Picks (PickFileError)
open Golavo.Follows (FollowDb CheckError)

/-- A file's bytes. -/
abbrev Bytes := List UInt8

/-- A text in UTF-8. -/
def utf8 (text : List Char) : Bytes := text.flatMap String.utf8EncodeChar

/-- The largest archive, compressed or not: 64 MiB. -/
def maxUncompressed : Nat := 64 * 1024 * 1024

/-- How many files an archive may own. -/
def maxFiles : Nat := 5000

/-! ## ZIP archives -/

/-- A member of a ZIP archive: its name and size as the directory lists them, and what reading it
gives; none where that raises. -/
structure ZipMember where
  name : String
  fileSize : Nat
  isSymlink : Bool
  data : Option Bytes
  deriving DecidableEq, Repr

/-- A file as a member. -/
def ZipMember.ofFile (file : String × Bytes) : ZipMember :=
  ⟨file.1, file.2.length, false, some file.2⟩

def manifestName : String := "manifest.json"

/-- A name that archives use. -/
def IsMemberName (name : String) : Prop := name = manifestName ∨ isAllowed name = true

/-! ## Hosts -/

/-- A JSON text that decoding cannot mistake for another encoding: it opens with an ASCII character
and holds no NUL. -/
def PlainText (text : List Char) : Prop :=
  (∀ c ∈ text, c ≠ '\x00') ∧ ∀ c ∈ text.head?, c.toNat < 128

/-- What the archive's code is given. -/
structure Host where
  /-- The format checker, and the logarithm artifacts use. -/
  base : Runtime
  /-- `hashlib.sha256(data).hexdigest()`. -/
  digest : Bytes → String
  digest_hex : ∀ data, (digest data).toList.length = 64 ∧ (digest data).toList.all isHexChar
  /-- The text `json.loads` takes bytes for; none where they do not decode. -/
  decode : Bytes → Option (List Char)
  decode_utf8 : ∀ text, PlainText text → decode (utf8 text) = some text
  /-- `data.decode("utf-8")`; none where that raises. -/
  decodeUtf8 : Bytes → Option (List Char)
  /-- Whether `json.loads` runs out of stack on a text. -/
  exhausts : List Char → Bool
  /-- Write a ZIP archive of the files, in order. -/
  zip : List (String × Bytes) → Bytes
  /-- List a ZIP archive; none where it is not one. -/
  unzip : Bytes → Option (List ZipMember)
  unzip_zip : ∀ files, (∀ file ∈ files, IsMemberName file.1) → (files.map Prod.fst).Nodup →
    unzip (zip files) = some (files.map ZipMember.ofFile)
  /-- SQLite's backup of a database file; none where SQLite raises a database error. -/
  snapshot : Bytes → Option Bytes
  /-- The rows of a follow database, its JSON columns read; none where SQLite or the checks of version,
  schema and column domains refuse it. -/
  openFollows : Bytes → Option FollowDb

/-! ## Held files

The ledger's modules hold files as texts and hash texts. A file of an archive is held as its bytes
behind a NUL, which starts no JSON text. -/

/-- A file's bytes as a held text. -/
def heldText (data : Bytes) : List Char := '\x00' :: data.map fun b => Char.ofNat b.toNat

/-- What is hashed for a text: a held file's bytes, or the text in UTF-8. -/
def hashedBytes : List Char → Bytes
  | '\x00' :: held => held.map fun c => UInt8.ofNat c.toNat
  | text => utf8 text

theorem hashedBytes_heldText (data : Bytes) : hashedBytes (heldText data) = data := by
  have hbyte : ∀ b : UInt8, UInt8.ofNat (Char.ofNat b.toNat).toNat = b := by
    intro b
    have hvalid : b.toNat.isValidChar := .inl (Nat.lt_trans (UInt8.toNat_lt b) (by decide))
    have hchar : (Char.ofNat b.toNat).toNat = b.toNat := by
      rw [Char.ofNat, dif_pos hvalid]
      rfl
    rw [hchar, UInt8.ofNat_toNat]
  simp only [heldText, hashedBytes, List.map_map]
  calc data.map _ = data.map id := List.map_congr_left fun b _ => hbyte b
    _ = data := List.map_id _

/-- The runtime the ledger's checks run in. -/
def Host.runtime (host : Host) : Runtime :=
  { host.base with
    sha256 := fun text => host.digest (hashedBytes text)
    sha256_hex := fun _ => host.digest_hex _ }

@[simp] theorem sha256_heldText (host : Host) (data : Bytes) :
    host.runtime.sha256 (heldText data) = host.digest data := by
  simp only [Host.runtime, hashedBytes_heldText]

/-! ## Failures -/

/-- What an archive operation raises. -/
inductive Failure where
  /-- A refusal of the archive's own. -/
  | refused (message : String)
  /-- A file conflicts and replacement was not confirmed. -/
  | conflict
  /-- Bytes that are no JSON text, or one that nests too deep. -/
  | notJson
  /-- SQLite refuses a database. -/
  | database
  | artifact (error : ArtifactError)
  | pick (error : PickFileError)
  | follows (error : CheckError)
  | checkpoint (error : CheckpointError)
  /-- `json.loads` runs out of stack on a checkpoint file. -/
  | recursion
  /-- A list or an object is looked up in a set. -/
  | unhashable
  /-- A declared file is not in the archive. -/
  | missingMember (name : String)
  /-- A member of the archive cannot be read. -/
  | unreadableMember (name : String)
  deriving DecidableEq

/-- The family of an exception. -/
inductive Family where
  | value
  | key
  | type
  | os
  | database
  /-- `jsonschema.ValidationError`, which is no `ValueError`. -/
  | validation
  | recursion
  | badZip
  deriving DecidableEq, Repr

namespace Failure

def family : Failure → Family
  | refused _ | notJson => .value
  | conflict => .os
  | database => .database
  | artifact .schema | pick .schema => .validation
  | artifact _ | pick _ => .value
  | unhashable | follows .unhashable => .type
  | follows (.value _) => .value
  | checkpoint _ => .value
  | recursion => .recursion
  | missingMember _ => .key
  | unreadableMember _ => .badZip

/-- Whether a restore falls back to an unverified backup on a failure
(`except (KeyError, TypeError, ValueError, sqlite3.DatabaseError)`). -/
def fallsBack (failure : Failure) : Bool :=
  failure.family ∈ [Family.key, .type, .value, .database]

/-- Whether a preview reports a failure as the reason to block a restore
(`except (OSError, ValueError, KeyError)`). -/
def blocks (failure : Failure) : Bool := failure.family ∈ [Family.os, .value, .key]

end Failure

/-! ## JSON files -/

/-- Read JSON bytes (`_json`). -/
def readJson (host : Host) (data : Bytes) : Except Failure Json := do
  let value ← orFail .notJson ((host.decode data).bind Json.loads)
  failIf (Follows.maxJsonDepth < value.depth) .notJson
  return value

/-- The document a checkpoint file reads as (`json.loads(path.read_text(encoding="utf-8"))`). -/
def readDocument (host : Host) (data : Bytes) : Option Ledger.Document :=
  match h : (host.decodeUtf8 data).bind Json.loads with
  | some value => some ⟨value, by
      obtain ⟨text, -, htext⟩ := Option.bind_eq_some_iff.mp h
      exact Json.wf_loads htext⟩
  | none => none

/-- Whether reading a checkpoint file runs out of stack. -/
def exhaustsOn (host : Host) (data : Bytes) : Bool := (host.decodeUtf8 data).any host.exhausts

/-! ## A host -/

/-- Bytes behind marks, so that their end shows. -/
def chunk (data : Bytes) : Bytes := data.flatMap (fun b => [1, b]) ++ [0]

/-- The bytes of a chunk, and what follows it. -/
def unchunk : Bytes → Option (Bytes × Bytes)
  | 0 :: rest => some ([], rest)
  | 1 :: b :: rest => (unchunk rest).map fun found => (b :: found.1, found.2)
  | _ => none

theorem unchunk_chunk (data rest : Bytes) : unchunk (chunk data ++ rest) = some (data, rest) := by
  induction data with
  | nil => rfl
  | cons b data ih =>
      change (unchunk (chunk data ++ rest)).map _ = _
      rw [ih]
      rfl

/-- The text some bytes are in UTF-8. -/
def ofUtf8? (data : Bytes) : Option (List Char) := data.toByteArray.utf8Decode?.map Array.toList

theorem ofUtf8?_utf8 (text : List Char) : ofUtf8? (utf8 text) = some text := by
  have hdecode : (utf8 text).toByteArray.utf8Decode? = some text.toArray := List.utf8Decode?_utf8Encode
  rw [ofUtf8?, hdecode]
  rfl

/-- The files of an archive of chunks, at most so many. -/
def unchunkFiles : Nat → Bytes → Option (List (String × Bytes))
  | _, [] => some []
  | 0, _ => none
  | count + 1, data => do
      let (name, rest) ← unchunk data
      let (content, rest) ← unchunk rest
      let text ← ofUtf8? name
      let files ← unchunkFiles count rest
      return (String.ofList text, content) :: files

/-- The files of an archive, each as two chunks. -/
def chunkFiles (files : List (String × Bytes)) : Bytes :=
  files.flatMap fun file => chunk (utf8 file.1.toList) ++ chunk file.2

theorem unchunkFiles_chunkFiles (files : List (String × Bytes)) {count : Nat}
    (h : files.length ≤ count) : unchunkFiles count (chunkFiles files) = some files := by
  induction files generalizing count with
  | nil => cases count <;> rfl
  | cons file rest ih =>
      obtain ⟨count, rfl⟩ : ∃ n, count = n + 1 := ⟨count - 1, by
        rw [List.length_cons] at h
        omega⟩
      have hrest : unchunkFiles count (chunkFiles rest) = some rest := ih (by simpa using h)
      have hsplit : chunkFiles (file :: rest) =
          chunk (utf8 file.1.toList) ++ (chunk file.2 ++ chunkFiles rest) := by
        simp [chunkFiles]
      have hne : chunk (utf8 file.1.toList) ++ (chunk file.2 ++ chunkFiles rest) ≠ [] := by
        simp [chunk]
      rw [hsplit, unchunkFiles.eq_3 _ _ hne]
      simp [unchunk_chunk, ofUtf8?_utf8, hrest]

theorem length_le_chunkFiles (files : List (String × Bytes)) :
    files.length ≤ (chunkFiles files).length := by
  induction files with
  | nil => exact Nat.le_refl _
  | cons file rest ih =>
      have hlength : (chunkFiles (file :: rest)).length =
          (chunk (utf8 file.1.toList)).length + (chunk file.2).length + (chunkFiles rest).length := by
        rw [chunkFiles, List.flatMap_cons, List.length_append, List.length_append]
        rfl
      have hpos : 0 < (chunk file.2).length := by simp [chunk]
      rw [hlength, List.length_cons]
      omega

/-- A host whose archives are chunks, with SHA-256 of ASCII bytes, UTF-8, and no SQLite. -/
def Host.standard : Host where
  base := Runtime.standard
  digest data := Runtime.standard.sha256 (data.map fun b => Char.ofNat b.toNat)
  digest_hex data := Runtime.standard.sha256_hex _
  decode := ofUtf8?
  decode_utf8 text _ := ofUtf8?_utf8 text
  decodeUtf8 := ofUtf8?
  exhausts _ := false
  zip := chunkFiles
  unzip data := (unchunkFiles data.length data).map (List.map ZipMember.ofFile)
  unzip_zip files _ _ := by
    rw [unchunkFiles_chunkFiles files (length_le_chunkFiles files)]
    rfl
  snapshot _ := none
  openFollows _ := none

end Golavo.Archive
