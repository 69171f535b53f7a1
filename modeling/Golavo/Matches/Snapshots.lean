import Golavo.Lib.Interleave
import Golavo.Lib.Json
import Golavo.Lib.Table

/-! # The match index and its readers

The module names the active generation's files and caches the frame read from them. A load reads
outside the lock and publishes under it, rechecking the epoch and the paths; a repoint or a reset
starts a new epoch, drops the cached frame and then clears the readers' memos, outside the lock. A
**reader** memoizes what it computes on a snapshot, keyed by the snapshot's fingerprint and epoch.

Every critical section, every file read and every statement of a memo's `reset` is one step. -/

namespace Golavo.Matches

open Golavo.Lib (Json Table Pool)

/-! ## Snapshots -/

/-- The files of a generation. -/
structure Paths where
  index : String
  metaPath : String
  goalscorers : String
  shootouts : String
  aliases : String
  deriving DecidableEq, Repr

/-- A frame object: which file it was read from, by a load that began in which epoch. -/
structure Frame where
  ident : Nat
  path : String
  epoch : Nat
  deriving DecidableEq, Repr

/-- A fingerprint, with the paths and the epoch of the load that took it. -/
structure Fingerprint where
  text : String
  indexPath : String
  metaPath : String
  epoch : Nat
  deriving DecidableEq, Repr

/-- A frame and its provenance key (`IndexSnapshot`). -/
structure Snapshot where
  frame : Frame
  fingerprint : Fingerprint
  epoch : Nat
  goalscorersPath : String
  shootoutsPath : String
  aliasesPath : String
  metaPath : String
  deriving DecidableEq, Repr

/-- A value and the snapshot it was computed on. -/
structure Value where
  computedOn : Snapshot
  result : Json

/-- The key a value is memoized under. -/
structure Key (κ : Type) where
  extra : κ
  fingerprint : String
  epoch : Nat
  deriving DecidableEq

/-- A memoized value. -/
structure Entry (κ : Type) where
  key : Key κ
  value : Value

variable {κ : Type} [DecidableEq κ]

/-- The memo of a reader: its entries, and the order they were published in. -/
structure Reader (κ : Type) where
  maxEntries : Nat
  stampsProvenance : Bool
  entries : Table (Entry κ) Entry.key
  order : List (Key κ)

namespace Reader

/-- Drop what was published first until no more than `maxEntries` are left. -/
def evict (maxEntries : Nat) : List (Key κ) → Table (Entry κ) Entry.key →
    List (Key κ) × Table (Entry κ) Entry.key
  | [], entries => ([], entries)
  | oldest :: rest, entries =>
      if maxEntries < rest.length + 1 then evict maxEntries rest (entries.erase oldest)
      else (oldest :: rest, entries)

/-- Memoize a value (`_publish`). -/
def publish (r : Reader κ) (key : Key κ) (value : Value) : Reader κ :=
  let (order, entries) := evict r.maxEntries (r.order ++ [key]) (r.entries.put ⟨key, value⟩)
  { r with entries := entries, order := order }

end Reader

/-! ## The module's state -/

/-- The state the threads share. -/
structure Index (κ : Type) where
  paths : Paths
  cache : Option Frame
  fingerprint : Option Fingerprint
  cachePaths : Option (String × String)
  epoch : Nat
  /-- How many frames were read. -/
  frames : Nat
  readers : Nat → Reader κ
  /-- How many readers are registered. -/
  registered : Nat

namespace Index

/-- Start a new epoch without a cached frame (`_invalidate_cache_locked`). -/
def invalidate (st : Index κ) : Index κ :=
  { st with epoch := st.epoch + 1, cache := none, cachePaths := none, fingerprint := none }

/-- Whether an epoch and its paths are the current ones (`_paths_are_current`). -/
def pathsAreCurrent (st : Index κ) (epoch : Nat) (indexPath metaPath : String) : Bool :=
  epoch = st.epoch && indexPath = st.paths.index && metaPath = st.paths.metaPath

/-- The snapshot of a cached frame. -/
def snapshotOf (st : Index κ) (frame : Frame) (fingerprint : Fingerprint) : Snapshot :=
  ⟨frame, fingerprint, st.epoch, st.paths.goalscorers, st.paths.shootouts, st.paths.aliases,
    st.paths.metaPath⟩

/-- Whether a snapshot is the published one of the active generation (`snapshot_is_current`). -/
def snapshotIsCurrent (st : Index κ) (snap : Snapshot) : Bool :=
  snap.epoch = st.epoch && st.cache.map Frame.ident = some snap.frame.ident &&
    st.fingerprint.map Fingerprint.text = some snap.fingerprint.text

/-- Change one reader. -/
def setReader (st : Index κ) (i : Nat) (r : Reader κ) : Index κ :=
  { st with readers := fun j => if j = i then r else st.readers j }

/-- The epoch, the paths and the cached frame a load starts from. -/
structure Captured where
  epoch : Nat
  indexPath : String
  metaPath : String
  cachedFrame : Option Frame
  deriving DecidableEq, Repr

/-- What a load finds of a file. -/
inductive FileRead where
  | missing
  | unreadable (error : String)
  /-- A frame, and the fingerprint of the index taken after it. -/
  | readable (fingerprint : String)
  deriving DecidableEq, Repr

end Index

open Index (Captured FileRead)

/-! ## Threads -/

/-- One statement of a reader's `reset`. -/
inductive Clear where
  | entries (reader : Nat)
  | order (reader : Nat)
  deriving DecidableEq, Repr

/-- What a `compute` function comes to. -/
inductive Computed where
  | result (value : Json)
  /-- It raises `RetryGeneration`. -/
  | retry
  /-- It raises anything else. -/
  | raised (error : String)

/-- A call of `SnapshotReader.read`: what each attempt's key and file reads are, and how many
attempts were begun. -/
structure ReadCall (κ : Type) where
  reader : Nat
  key : Nat → κ
  compute : Snapshot → Computed
  files : Nat → Nat → FileRead
  attempt : Nat := 0

/-- Where a load is. -/
inductive LoadStep where
  | discard
  | clearing (todo : List Clear)
  | capture
  | readFrame (c : Captured)
  | failed (c : Captured) (error : String)
  | fingerprint (c : Captured) (frame : Frame) (text : String)
  | publish (c : Captured) (frame : Frame) (fingerprint : Fingerprint)

/-- A thread and where it is. -/
inductive Task (κ : Type) where
  /-- A load on its `tries`-th turn, for a caller or for a read. -/
  | load (step : LoadStep) (tries : Nat) (files : Nat → FileRead) (read : Option (ReadCall κ))
  | lookup (r : ReadCall κ) (snap : Snapshot)
  | checkHit (r : ReadCall κ) (snap : Snapshot) (value : Value)
  | compute (r : ReadCall κ) (snap : Snapshot)
  | publish (r : ReadCall κ) (snap : Snapshot) (value : Value)
  | repoint (paths : Paths)
  | reset
  | clearing (todo : List Clear)

/-- What a thread comes to. -/
inductive Reply where
  | snapshot (snap : Snapshot)
  /-- A read's value, in the epoch it is returned in. -/
  | value (value : Value) (epoch : Nat)
  | unavailable
  | raised (error : String)
  | done

namespace Task

/-- A call of `index_snapshot`. -/
def indexSnapshot (files : Nat → FileRead) : Task κ := .load .discard 0 files none

/-- A call of `read`. -/
def read (r : ReadCall κ) : Task κ := .load .discard 0 (r.files 0) (some r)

/-- The next attempt of a read, of three. -/
def again (r : ReadCall κ) : Task κ ⊕ Reply :=
  if r.attempt + 1 < 3 then
    .inl (.load .discard 0 (r.files (r.attempt + 1)) (some { r with attempt := r.attempt + 1 }))
  else .inr .unavailable

/-- A load's snapshot goes to its caller or on to the read. -/
def deliver (snap : Snapshot) : Option (ReadCall κ) → Task κ ⊕ Reply
  | none => .inr (.snapshot snap)
  | some r => .inl (.lookup r snap)

/-- The key of a read's attempt. -/
def fullKey (r : ReadCall κ) (snap : Snapshot) : Key κ :=
  ⟨r.key r.attempt, snap.fingerprint.text, snap.epoch⟩

/-- Stamp the fingerprint a result was computed on into its provenance. -/
def stamped (stamps : Bool) (fingerprint : String) (result : Json) : Json :=
  match stamps, result with
  | true, .obj fields =>
      match (Json.obj fields).get "provenance" with
      | none => (Json.obj fields).set "provenance" (.mk [("index_sha256", .str fingerprint)])
      | some (.obj inner) =>
          (Json.obj fields).set "provenance" ((Json.obj inner).set "index_sha256"
            (.str fingerprint))
      | some _ => result
  | _, _ => result

/-- Clear every reader's memo (`_reset_derivative_caches`). -/
def clearAll (st : Index κ) : List Clear :=
  (List.range st.registered).flatMap fun i => [.entries i, .order i]

/-- One statement of a reader's `reset`. -/
def clear (st : Index κ) : Clear → Index κ
  | .entries i => st.setReader i { st.readers i with entries := .empty }
  | .order i => st.setReader i { st.readers i with order := [] }

/-- One step of a load. -/
def actLoad (step : LoadStep) (tries : Nat) (files : Nat → FileRead) (read : Option (ReadCall κ))
    (st : Index κ) : Index κ × (Task κ ⊕ Reply) :=
  match step with
  | .discard =>
      if st.cachePaths = none ∨ st.cachePaths = some (st.paths.index, st.paths.metaPath) then
        (st, .inl (.load .capture tries files read))
      else (st.invalidate, .inl (.load (.clearing (clearAll st)) tries files read))
  | .clearing [] => (st, .inl (.load .capture tries files read))
  | .clearing (c :: todo) => (clear st c, .inl (.load (.clearing todo) tries files read))
  | .capture =>
      match st.cache, st.fingerprint with
      | some frame, some fingerprint => (st, deliver (st.snapshotOf frame fingerprint) read)
      | _, _ =>
          (st, .inl (.load (.readFrame ⟨st.epoch, st.paths.index, st.paths.metaPath, st.cache⟩)
            tries files read))
  | .readFrame c =>
      match c.cachedFrame, files tries with
      | none, .missing => (st, .inl (.load (.failed c "match index not found") tries files read))
      | none, .unreadable error => (st, .inl (.load (.failed c error) tries files read))
      | none, .readable text =>
          ({ st with frames := st.frames + 1 },
            .inl (.load (.fingerprint c ⟨st.frames, c.indexPath, c.epoch⟩ text) tries files read))
      | some frame, .readable text =>
          (st, .inl (.load (.fingerprint c frame text) tries files read))
      | some frame, _ => (st, .inl (.load (.fingerprint c frame "unknown") tries files read))
  | .failed c _ =>
      if st.pathsAreCurrent c.epoch c.indexPath c.metaPath then (st, .inr .unavailable)
      else (st, .inl (.load .discard (tries + 1) files read))
  | .fingerprint c frame text =>
      (st, .inl (.load (.publish c frame ⟨text, c.indexPath, c.metaPath, c.epoch⟩)
        tries files read))
  | .publish c frame fingerprint =>
      if st.pathsAreCurrent c.epoch c.indexPath c.metaPath then
        let st :=
          if st.cache = none then
            { st with
              cache := some frame, fingerprint := some fingerprint
              cachePaths := some (c.indexPath, c.metaPath) }
          else if st.cache.map Frame.ident = c.cachedFrame.map Frame.ident ∧
              st.fingerprint = none then
            { st with
              fingerprint := some fingerprint, cachePaths := some (c.indexPath, c.metaPath) }
          else st
        match st.cache, st.fingerprint with
        | some frame, some fingerprint => (st, deliver (st.snapshotOf frame fingerprint) read)
        | _, _ => (st, .inr (.raised "AssertionError"))
      else (st, .inl (.load .discard (tries + 1) files read))

/-- One step of a thread: a critical section, a file read, a statement of a `reset`, or local work. -/
def act (task : Task κ) (st : Index κ) : Index κ × (Task κ ⊕ Reply) :=
  match task with
  | .load step tries files read => actLoad step tries files read st
  | .lookup r snap =>
      match (st.readers r.reader).entries.get? (fullKey r snap) with
      | some entry =>
          if entry.value.result = .null then (st, .inl (.compute r snap))
          else (st, .inl (.checkHit r snap entry.value))
      | none => (st, .inl (.compute r snap))
  | .checkHit r snap value =>
      if st.snapshotIsCurrent snap then (st, .inr (.value value st.epoch)) else (st, again r)
  | .compute r snap =>
      match r.compute snap with
      | .result result =>
          (st, .inl (.publish r snap ⟨snap, stamped (st.readers r.reader).stampsProvenance
            snap.fingerprint.text result⟩))
      | .retry => (st, again r)
      | .raised error => (st, .inr (.raised error))
  | .publish r snap value =>
      if st.snapshotIsCurrent snap then
        (st.setReader r.reader ((st.readers r.reader).publish (fullKey r snap) value),
          .inr (.value value st.epoch))
      else (st, again r)
  | .repoint paths =>
      ({ st with paths := paths }.invalidate, .inl (.clearing (clearAll st)))
  | .reset => (st.invalidate, .inl (.clearing (clearAll st)))
  | .clearing [] => (st, .inr .done)
  | .clearing (c :: todo) => (clear st c, .inl (.clearing todo))

end Task

/-- The index and the threads under way. -/
abbrev Threads (κ : Type) := Pool (Index κ) (Task κ) Reply

end Golavo.Matches
