import Golavo.Refresh.Generations

/-! # Application receipts

Whoever changes the active pointer, a refresh or a rollback, does it under the activation lock: it
first writes a **marker** into the state file, then swaps the pointer, appends a receipt and takes
the marker back. A marker that stays names a change without a receipt, the **gap** that is reported.
The state file holds much else, so whoever updates it loads a copy, with the marker it had then, and
saves that copy later. -/

namespace Golavo.Refresh

open Golavo.Lib (Reaches)

/-! ## Changes, markers and receipts -/

/-- What changes the pointer. -/
inductive Operation where
  | refreshActivation
  | rollback
  deriving DecidableEq, Repr

/-- A change of the pointer, as markers and receipts are compared. -/
structure Change where
  operation : Operation
  activeGenerationId : String
  occurredAtUtc : String
  deriving DecidableEq, Repr

/-- The pending marker of the state file (`application_receipt_pending`). -/
structure Marker where
  change : Change
  previousGenerationId : Option String
  jobId : Option String
  error : Option String
  deriving DecidableEq, Repr

/-- A line of `receipts.jsonl`. -/
structure Receipt where
  change : Change
  previousGenerationId : Option String
  deriving DecidableEq, Repr

/-- The change a pointer is the outcome of. -/
def Pointer.change (p : Pointer) : Option Change := do
  let active ← p.activeGenerationId
  let activatedAt ← p.activatedAtUtc
  return ⟨if p.rollback then .rollback else .refreshActivation, active, activatedAt⟩

/-- What a gap report says. -/
structure Gap where
  jobId : Option String
  message : String
  deriving DecidableEq, Repr

/-- Whether a marker names the active generation (`_marker_targets_active`). -/
def markerTargetsActive (marker : Option Marker) (pointer : Option Pointer) : Bool :=
  match marker, pointer with
  | some m, some p => p.activeGenerationId = some m.change.activeGenerationId
  | _, _ => false

/-- The gap a state file and some receipts show (`application_receipt_gap`). -/
def applicationReceiptGap (marker : Option Marker) (pointer : Option Pointer)
    (receipts : List Receipt) (truncatedTail : Bool) : Option Gap :=
  match marker with
  | some m =>
      if markerTargetsActive marker pointer then
        if receipts.any (·.change = m.change) then none
        else some ⟨m.jobId, match m.error with
          | some error => if error = "" then stopped else error
          | none => stopped⟩
      else tail
  | none => tail
where
  stopped : String := "the process stopped after the active pointer changed and before " ++
    "receipt append was confirmed"
  tail : Option Gap := if truncatedTail then
    some ⟨none, "refresh receipt history ended with an incomplete final record"⟩ else none

/-- The latest receipts, newest first (`list_receipts`). -/
def listReceipts (receipts : List Receipt) (limit : Nat) : List Receipt :=
  (receipts.drop (receipts.length - limit)).reverse

/-- What `_finish_receipt_marker` saves over the marker it finds: nothing where that is another
operation's. -/
def finishReceiptMarker (own : Marker) (error : Option String) (current : Option Marker) :
    Option (Option Marker) :=
  match current with
  | none => none
  | some found =>
      if found.change = own.change then
        some (error.map fun message => { found with error := some message })
      else none

/-! ## The system -/

/-- How far the holder of the activation lock has come. -/
inductive Stage where
  /-- The marker is written. -/
  | marked
  /-- The pointer is swapped. -/
  | swapped
  /-- About to look for its marker, to take it back or to note an error in it. -/
  | finishing (error : Option String)
  /-- About to save the state file with another marker. -/
  | saving (marker : Option Marker)
  deriving DecidableEq, Repr

/-- The holder of the activation lock. -/
structure Holder where
  own : Marker
  stage : Stage
  deriving DecidableEq, Repr

/-- The refreshed-data store with its receipts: the files, who holds the activation lock, and the
markers in the copies of the state file that were loaded and may be saved. -/
structure ReceiptSystem (γ : Type) where
  generations : Generations γ
  receipts : List Receipt
  marker : Option Marker
  holder : Option Holder
  copies : List (Option Marker)

/-- What becomes of an append. -/
inductive AppendOutcome where
  | recorded
  /-- It raised before the file was replaced. -/
  | failed (message : String)
  /-- It raised after the file was replaced. -/
  | recordedButFailed (message : String)
  deriving DecidableEq, Repr

/-- What happens next. -/
inductive ReceiptAction (γ : Type) where
  | install (id : String) (staged : γ)
  /-- The bytes of a directory change on disk. -/
  | corrupt (id : String) (tree : Option γ)
  /-- A refresh takes the lock and writes its marker. -/
  | activate (id activatedAtUtc : String) (jobId : Option String)
  /-- A rollback takes the lock and writes its marker. -/
  | rollback (activatedAtUtc : String)
  /-- The holder swaps the pointer. -/
  | swap
  /-- The pointer file cannot be written. -/
  | swapFails
  | append (outcome : AppendOutcome)
  /-- The holder looks for its marker. -/
  | look
  /-- The holder saves the state file. -/
  | settle
  /-- The holder is killed or raises, and the lock is free again. -/
  | abort
  /-- Someone loads the state file. -/
  | load
  /-- Someone saves the copy it loaded. -/
  | save (i : Nat)
  /-- A copy is dropped, saved or not. -/
  | drop (i : Nat)

variable {γ : Type} (verify : String → γ → Verdict)

namespace ReceiptSystem

/-- Take the activation lock and write a marker (`_mark_receipt_pending`). -/
def mark (s : ReceiptSystem γ) (marker : Marker) : ReceiptSystem γ :=
  { s with marker := some marker, holder := some ⟨marker, .marked⟩ }

/-- Swap the pointer as a marker says. -/
def changePointer (s : ReceiptSystem γ) (change : Change) :
    Except GenerationError (Generations γ) :=
  match change.operation with
  | .refreshActivation =>
      activateRefreshGeneration verify s.generations change.activeGenerationId
        change.occurredAtUtc
  | .rollback => s.generations.rollback verify change.occurredAtUtc

/-- The system after what happens; what cannot happen leaves it. -/
def step (s : ReceiptSystem γ) : ReceiptAction γ → ReceiptSystem γ
  | .install id staged =>
      { s with generations := (s.generations.installGeneration verify id staged).1 }
  | .corrupt id tree => { s with generations := s.generations.corrupt id tree }
  | .activate id activatedAtUtc jobId =>
      match s.holder with
      | some _ => s
      | none => s.mark {
          change := ⟨.refreshActivation, id, activatedAtUtc⟩
          previousGenerationId := s.generations.nextPrevious id
          jobId := jobId
          error := none }
  | .rollback activatedAtUtc =>
      match s.holder, s.generations.current.previousGenerationId with
      | none, some target => s.mark {
          change := ⟨.rollback, target, activatedAtUtc⟩
          previousGenerationId := s.generations.current.activeGenerationId
          jobId := none
          error := none }
      | _, _ => s
  | .swap =>
      match s.holder with
      | some ⟨own, .marked⟩ =>
          match s.changePointer verify own.change with
          | .ok generations =>
              { s with generations := generations, holder := some ⟨own, .swapped⟩ }
          | .error _ => { s with holder := some ⟨own, .finishing none⟩ }
      | _ => s
  | .swapFails =>
      match s.holder with
      | some ⟨own, .marked⟩ => { s with holder := some ⟨own, .finishing none⟩ }
      | _ => s
  | .append outcome =>
      match s.holder with
      | some ⟨own, .swapped⟩ =>
          let receipt : Receipt :=
            ⟨own.change, s.generations.current.previousGenerationId⟩
          match outcome with
          | .recorded =>
              { s with
                receipts := s.receipts ++ [receipt]
                holder := some ⟨own, .finishing none⟩ }
          | .failed message => { s with holder := some ⟨own, .finishing (some message)⟩ }
          | .recordedButFailed message =>
              { s with
                receipts := s.receipts ++ [receipt]
                holder := some ⟨own, .finishing (some message)⟩ }
      | _ => s
  | .look =>
      match s.holder with
      | some ⟨own, .finishing error⟩ =>
          { s with
            holder := (finishReceiptMarker own error s.marker).map fun marker =>
              ⟨own, .saving marker⟩ }
      | _ => s
  | .settle =>
      match s.holder with
      | some ⟨_, .saving marker⟩ => { s with marker := marker, holder := none }
      | _ => s
  | .abort => { s with holder := none }
  | .load => { s with copies := s.copies ++ [s.marker] }
  | .save i =>
      match s.copies[i]? with
      | some marker => { s with marker := marker }
      | none => s
  | .drop i => { s with copies := s.copies.eraseIdx i }

/-- A system nothing was installed in. -/
def fresh : ReceiptSystem γ := ⟨.empty, [], none, none, []⟩

/-! ## What is to hold, and when it does -/

/-- The pointer's last change has a matching receipt. -/
def Receipted (s : ReceiptSystem γ) : Prop :=
  ∀ p, s.generations.pointer = some p → ∃ r ∈ s.receipts, p.change = some r.change

/-- **No silent gap**: the last change has its receipt, or a gap is reported however many receipts
are listed. -/
def Accounted (s : ReceiptSystem γ) : Prop :=
  s.Receipted ∨ ∀ limit, (applicationReceiptGap s.marker s.generations.pointer
    (listReceipts s.receipts limit) false).isSome = true

/-- An operation is between its marker and its receipt. -/
def Changing (s : ReceiptSystem γ) : Prop :=
  ∃ own, s.holder = some ⟨own, .marked⟩ ∨ s.holder = some ⟨own, .swapped⟩

/-- An operation that would write a marker for a change does not write over a gap, unless it is
about the active generation and has no receipt yet. -/
def MayMark (s : ReceiptSystem γ) (change : Change) : Prop :=
  s.Receipted ∨ (s.generations.current.activeGenerationId = some change.activeGenerationId ∧
    ∀ r ∈ s.receipts, r.change ≠ change)

/-- What a step must meet: no marker over a gap, none taken back but where the last change has its
receipt, and no copy of the state file saved that lost the marker of a change under way or without
its receipt. -/
def KeepsGap (s : ReceiptSystem γ) : ReceiptAction γ → Prop
  | .activate id activatedAtUtc _ =>
      s.holder = none → s.MayMark ⟨.refreshActivation, id, activatedAtUtc⟩
  | .rollback activatedAtUtc =>
      ∀ target, s.holder = none → s.generations.current.previousGenerationId = some target →
        s.MayMark ⟨.rollback, target, activatedAtUtc⟩
  | .settle => (∃ own, s.holder = some ⟨own, .saving none⟩) → s.Receipted
  | .save i => ∀ copy, s.copies[i]? = some copy →
      copy.map Marker.change = s.marker.map Marker.change ∨ (s.Receipted ∧ ¬ s.Changing)
  | _ => True

/-- A system no one is at work on, without a silent gap. -/
def Quiet (s : ReceiptSystem γ) : Prop := s.Accounted ∧ s.holder = none ∧ s.copies = []

end ReceiptSystem

end Golavo.Refresh
