import Golavo.Ledger.Integrity
import Golavo.Lib.Directory
import Golavo.Lib.Lines

/-! # The ledger directory

A ledger holds artifact files named by their content id and an append-only audit log. `_write_artifact`
validates, writes canonical bytes unless the file already holds them, refuses to replace a valid
rival, and appends one audit line; `load_verified_artifact` reads a file back and verifies it against
its own name. -/

namespace Golavo.Ledger

open Golavo.Lib (Json Directory splitLines CompleteLines)

/-- A ledger directory: the text of each artifact file by its stem, and the audit log. -/
structure Store where
  artifacts : Directory (List Char)
  audit : List Char

/-- What makes a ledger operation fail. -/
inductive StoreError where
  /-- The artifact is not acceptable. -/
  | invalid (error : ArtifactError)
  /-- A different valid artifact holds the id. -/
  | collision (id : String)
  /-- No such file, or not JSON. -/
  | unreadable
  deriving DecidableEq

/-- Lift an artifact check into a ledger operation. -/
def liftCheck {α : Type} : Except ArtifactError α → Except StoreError α
  | .ok a => .ok a
  | .error e => .error (.invalid e)

/-- Whether a file's text is a fully formed artifact with the given content id
(`_is_valid_artifact_bytes`). -/
def isValidArtifactText (rt : Runtime) (text : List Char) (expectedId : String) : Bool :=
  match Json.loads text with
  | some artifact => (verifyArtifactIntegrity rt artifact (some expectedId)).isOk
  | none => false

/-- The audit event of an artifact. -/
def auditEvent (artifact : Json) : Option Json := do
  let id ← artifact.get "artifact_id"
  let provenance ← artifact.get "provenance"
  let created ← provenance.get "created_at_utc"
  let digest ← provenance.get "payload_sha256"
  let status ← artifact.get "status"
  some (.mk [("artifact_id", id), ("created_at_utc", created), ("payload_sha256", digest),
    ("status", status), ("supersedes", (artifact.get "supersedes").getD .null)])

/-- Append a line to the audit log unless the log already has it (`_append_audit_event`). -/
def appendAuditLine (audit line : List Char) : List Char :=
  if line ∈ splitLines audit then audit else audit ++ line

/-- Write an artifact into a ledger (`_write_artifact`), and give the stem of its file. -/
def writeArtifact (rt : Runtime) (artifact : Json) (store : Store) :
    Except StoreError (String × Store) := do
  liftCheck (validateArtifact rt artifact)
  match artifact.get "artifact_id", canonicalBytes artifact,
      (auditEvent artifact).bind canonicalBytes with
  | some (.str id), some bytes, some event =>
      let text := bytes ++ ['\n']
      let written := { store with artifacts := store.artifacts.write id text }
      let audited (s : Store) : Store :=
        { s with audit := appendAuditLine s.audit (event ++ ['\n']) }
      match store.artifacts.read id with
      | some existing =>
          if existing = text then return (id, audited store)
          else if isValidArtifactText rt existing id then throw (.collision id)
          else return (id, audited written)
      | none => return (id, audited written)
  | _, _, _ => throw .unreadable

/-- Read an artifact file and verify it before use (`load_verified_artifact`). -/
def loadVerifiedArtifact (rt : Runtime) (store : Store) (stem : String) :
    Except StoreError Json :=
  match (store.artifacts.read stem).bind Json.loads with
  | some artifact => liftCheck (verifyArtifactIntegrity rt artifact (some stem))
  | none => .error .unreadable

/-- What loading returns is a file's content, acceptable and identified by the file's name. -/
theorem loadVerifiedArtifact_ok {rt : Runtime} {store : Store} {stem : String} {a : Json}
    (h : loadVerifiedArtifact rt store stem = .ok a) :
    (∃ text, store.artifacts.read stem = some text ∧ Json.loads text = some a) ∧
      validateArtifact rt a = .ok () ∧ ∃ digest, Identified rt a stem digest := by
  unfold loadVerifiedArtifact at h
  split at h
  · rename_i artifact hartifact
    obtain ⟨text, htext, hjson⟩ := Option.bind_eq_some_iff.mp hartifact
    cases hverify : verifyArtifactIntegrity rt artifact (some stem) with
    | error e => simp [hverify, liftCheck] at h
    | ok b =>
        obtain ⟨rfl, hvalid, id, digest, hident, hexpected⟩ :=
          verifyArtifactIntegrity_ok_iff.mp hverify
        simp only [hverify, liftCheck] at h
        obtain rfl := Except.ok.inj h
        obtain rfl := hexpected stem rfl
        exact ⟨⟨text, htext, hjson⟩, hvalid, digest, hident⟩
  · simp at h

/-! ## The audit log -/

/-- Appending keeps the log a sequence of complete lines. -/
theorem completeLines_appendAuditLine {audit : List Char} (h : CompleteLines audit)
    (body : List Char) : CompleteLines (appendAuditLine audit (body ++ ['\n'])) := by
  unfold appendAuditLine
  split_ifs
  · exact h
  · exact Lib.completeLines_append _ _

/-- **Appending a line twice is appending it once**, to a log of complete lines. -/
theorem appendAuditLine_idem {audit body : List Char} (h : CompleteLines audit)
    (hbody : ∀ c ∈ body, Lib.isBreak c = false) :
    appendAuditLine (appendAuditLine audit (body ++ ['\n'])) (body ++ ['\n']) =
      appendAuditLine audit (body ++ ['\n']) := by
  by_cases hmem : body ++ ['\n'] ∈ splitLines audit
  · simp [appendAuditLine, hmem]
  · have happend : appendAuditLine audit (body ++ ['\n']) = audit ++ (body ++ ['\n']) :=
      if_neg hmem
    rw [happend, appendAuditLine, if_pos]
    rw [Lib.splitLines_append_line h hbody]
    simp

/-- A written event is one line. -/
theorem isBreak_of_canonicalBytes {event : Json} {bytes : List Char}
    (h : canonicalBytes event = some bytes) : ∀ c ∈ bytes, Lib.isBreak c = false := by
  obtain ⟨c, -, rfl⟩ := Option.map_eq_some_iff.mp h
  intro x hx
  have := Json.printable_dumps c x hx
  unfold Lib.isBreak
  rw [Bool.or_eq_false_iff]
  constructor
  · rw [decide_eq_false_iff_not]
    rintro rfl
    exact absurd this (by decide)
  · rw [decide_eq_false_iff_not]
    rintro rfl
    exact absurd this (by decide)

/-! ## Writing and reading back -/

/-- A file name is free for an artifact: nothing there, its own bytes, or no valid artifact. -/
def NoRival (rt : Runtime) (store : Store) (id : String) (text : List Char) : Prop :=
  ∀ existing, store.artifacts.read id = some existing →
    existing = text ∨ isValidArtifactText rt existing id = false

/-- What a successful write leaves: the artifact's canonical bytes under its id, and its line in the
log. -/
theorem writeArtifact_ok {rt : Runtime} {artifact : Json} {store store' : Store} {stem : String}
    (h : writeArtifact rt artifact store = .ok (stem, store')) :
    validateArtifact rt artifact = .ok () ∧ artifact.get "artifact_id" = some (.str stem) ∧
      ∃ bytes event, canonicalBytes artifact = some bytes ∧
        (auditEvent artifact).bind canonicalBytes = some event ∧
        NoRival rt store stem (bytes ++ ['\n']) ∧
        store' = ⟨store.artifacts.write stem (bytes ++ ['\n']),
          appendAuditLine store.audit (event ++ ['\n'])⟩ := by
  unfold writeArtifact at h
  cases hvalid : validateArtifact rt artifact with
  | error e => simp [hvalid, liftCheck, bind, Except.bind] at h
  | ok _ =>
      simp only [hvalid, liftCheck, bind, Except.bind] at h
      split at h
      · rename_i id bytes event hid hbytes hevent
        split at h
        · rename_i existing hread
          split_ifs at h with h1 h2
          · obtain ⟨rfl, rfl⟩ := Prod.mk.inj (Except.ok.inj h)
            refine ⟨rfl, hid, bytes, event, hbytes, hevent, fun e he => .inl ?_, ?_⟩
            · rw [hread] at he
              rw [← Option.some.inj he, h1]
            · rw [Directory.write_of_read (by rw [hread, h1])]
          · obtain ⟨rfl, rfl⟩ := Prod.mk.inj (Except.ok.inj h)
            refine ⟨rfl, hid, bytes, event, hbytes, hevent, fun e he => .inr ?_, rfl⟩
            rw [hread] at he
            rw [← Option.some.inj he]
            simpa using h2
        · rename_i hread
          obtain ⟨rfl, rfl⟩ := Prod.mk.inj (Except.ok.inj h)
          exact ⟨rfl, hid, bytes, event, hbytes, hevent, fun e he => by simp [hread] at he, rfl⟩
      · simp [throw, throwThe, MonadExceptOf.throw] at h

/-- A valid artifact with a free file name is written. -/
theorem writeArtifact_of_free {rt : Runtime} {artifact : Json} {store : Store} {id : String}
    {bytes event : List Char} (hvalid : validateArtifact rt artifact = .ok ())
    (hid : artifact.get "artifact_id" = some (.str id))
    (hbytes : canonicalBytes artifact = some bytes)
    (hevent : (auditEvent artifact).bind canonicalBytes = some event)
    (hfree : NoRival rt store id (bytes ++ ['\n'])) :
    writeArtifact rt artifact store = .ok (id, ⟨store.artifacts.write id (bytes ++ ['\n']),
      appendAuditLine store.audit (event ++ ['\n'])⟩) := by
  simp only [writeArtifact, hvalid, liftCheck, bind, Except.bind, hid, hbytes, hevent, pure,
    Except.pure, throw, throwThe, MonadExceptOf.throw]
  cases hread : store.artifacts.read id with
  | none => rfl
  | some existing =>
      simp only
      by_cases hsame : existing = bytes ++ ['\n']
      · rw [if_pos hsame, Directory.write_of_read (by rw [hread, hsame])]
      · rw [if_neg hsame, if_neg]
        rcases hfree existing hread with h | h
        · exact absurd h hsame
        · simp [h]

/-- A valid artifact is written, or a valid rival holds its name. -/
theorem writeArtifact_or_collision {rt : Runtime} {artifact : Json} {store : Store} {id : String}
    {bytes event : List Char} (hvalid : validateArtifact rt artifact = .ok ())
    (hid : artifact.get "artifact_id" = some (.str id))
    (hbytes : canonicalBytes artifact = some bytes)
    (hevent : (auditEvent artifact).bind canonicalBytes = some event) :
    (∃ store', writeArtifact rt artifact store = .ok (id, store')) ∨
      writeArtifact rt artifact store = .error (.collision id) ∧
        ∃ existing, store.artifacts.read id = some existing ∧
          isValidArtifactText rt existing id = true := by
  by_cases hfree : NoRival rt store id (bytes ++ ['\n'])
  · exact .inl ⟨_, writeArtifact_of_free hvalid hid hbytes hevent hfree⟩
  · unfold NoRival at hfree
    push Not at hfree
    obtain ⟨existing, hread, hdiffers, hrival⟩ := hfree
    have hrival : isValidArtifactText rt existing id = true := by simpa using hrival
    refine .inr ⟨?_, existing, hread, hrival⟩
    simp only [writeArtifact, hvalid, liftCheck, bind, Except.bind, hid, hbytes, hevent, hread,
      if_neg hdiffers, hrival, if_true, throw, throwThe, MonadExceptOf.throw]

end Golavo.Ledger
