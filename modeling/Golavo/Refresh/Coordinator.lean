import Golavo.Lib.Effects

/-! # The refresh coordinator

One refresh job: `_run` takes the cross-process job lock and runs the job's steps under nested
handlers that each list some families of exceptions. What a step returns, as far as the job's course
depends on it, or raises is up to the environment. -/

namespace Golavo.Refresh

open Golavo.Lib

/-! ## Steps and exceptions -/

/-- The families of exceptions the handlers list. -/
inductive Family where
  | refreshCancelled
  | refreshConflict
  | refreshSourceError
  | refreshError
  | osError
  | valueError
  | runtimeError
  deriving DecidableEq, Repr

/-- An exception: its class, and the listed families it belongs to. -/
structure Raised where
  name : String
  families : List Family
  deriving DecidableEq, Repr

/-- `RefreshCancelled()`. -/
def cancelledError : Raised := ⟨"RefreshCancelled", [.refreshCancelled, .refreshSourceError]⟩

/-- `RefreshError(f"no verified base pack for {competition}")`. -/
def noBasePack : Raised := ⟨"RefreshError", [.refreshError]⟩

/-- Whether an exception belongs to one of some families. -/
def Raised.isAny (e : Raised) (families : List Family) : Bool := families.any (· ∈ e.families)

/-- The steps of a job, by what the source calls there. -/
inductive RefreshStep where
  | refreshJobLock
  | stagingDir
  | prepareStaging
  | persistJob
  | loadState
  | saveState
  | due (sourceId : String)
  | sourceFromState (sourceId : String)
  | checkSource (sourceId : String)
  | sourceSuccess (sourceId : String)
  | sourceFailure (sourceId : String)
  | isSet
  | recordSourceRevisions
  | reconcileFollows
  | cleanStaging
  | activeGeneration
  | verifyGeneration
  | refsDiffer
  | isObserved (sourceId : String)
  | isBlocked
  | downloadSourceSnapshot (sourceId : String)
  | buildInternationalRuntimePack
  | currentPaths (sourceId : String)
  | resolvePackDir (sourceId : String)
  | buildDomesticRuntimePack (sourceId : String)
  | mergeRefreshGeneration
  | assertSafeChange
  | writeGenerationManifest
  | installGeneration
  | activationLock
  | markReceiptPending
  | activateGeneration
  | appendReceipt
  | finishReceiptMarker
  | repointToRefreshed
  | readActivatedFrame
  | syncStateToGeneration
  | dataThrough (sourceId : String)
  | sourceCompetitions
  | prepareQuarantine
  | stagingExists
  | moveToQuarantine
  | markConflicts
  | recordConflicts
  deriving DecidableEq, Repr

/-- What becomes of a step. -/
inductive Outcome where
  /-- It returns; `flag` where the job branches on it. -/
  | returns (flag : Bool)
  | raises (e : Raised)
  deriving DecidableEq, Repr

/-- The state of a job. -/
inductive JobState where
  | queued
  | running
  | done
  | failed
  | cancelled
  deriving DecidableEq, Repr

/-- Whether a job has ended. -/
def JobState.ended : JobState → Bool
  | .queued => false
  | .running => false
  | _ => true

/-- Where an exception meets a handler. -/
inductive Clause where
  /-- The `except` clauses of `_run_locked`. -/
  | runLocked
  /-- The `except` clause of `_run`. -/
  | run
  /-- The body of that clause: there is no handler any more. -/
  | lastFail
  deriving DecidableEq, Repr

/-- A job under way: what each step does at each time, how many steps were taken, the job's state
and, for the record, the exceptions that met a handler before the job had ended. -/
structure JobWorld where
  outcome : Nat → RefreshStep → Outcome
  clock : Nat
  job : JobState
  met : List (Clause × Raised)

/-- A part of the job. -/
abbrev JobEffect (α : Type) : Type := Effect JobWorld Raised α

/-! ## Building blocks -/

/-- Take a step. -/
def call (st : RefreshStep) : JobEffect Bool :=
  Effect.step fun w =>
    (match w.outcome w.clock st with
      | .returns flag => .ok flag
      | .raises e => .error e,
    { w with clock := w.clock + 1 })

/-- Take a step where there is cause. -/
def callIf (cause : Bool) (st : RefreshStep) : JobEffect Unit :=
  if cause then do let _ ← call st else pure ()

/-- Update the job in memory and persist it (`_update_job`). -/
def updateJob (state : Option JobState) : JobEffect Unit := do
  Effect.change fun w => { w with job := state.getD w.job }
  let _ ← call .persistJob

/-- The job is done (`_finish`). -/
def finish : JobEffect Unit := updateJob (some .done)

/-- The job has failed (`_fail`): the error is saved first. -/
def fail : JobEffect Unit := do
  let _ ← call .loadState
  let _ ← call .saveState
  updateJob (some .failed)

/-- Note that an exception meets a handler, where the job has not ended. -/
def JobWorld.meet (w : JobWorld) (clause : Clause) (e : Raised) : JobWorld :=
  if w.job.ended then w else { w with met := w.met ++ [(clause, e)] }

/-- Run a `try` block under its `except` clauses. -/
def trying (clause : Clause) (body : JobEffect Unit) (handler : Raised → Option (JobEffect Unit)) :
    JobEffect Unit :=
  tryCatch body fun e => do
    Effect.change fun w => w.meet clause e
    match handler e with
    | some answer => answer
    | none => throw e

/-- Raise `RefreshCancelled` where a cancellation was asked for. -/
def stopIfCancelled : JobEffect Unit := do
  let asked ← call .isSet
  if asked then throw cancelledError else pure ()

/-! ## The job -/

def martj42Id : String := "martj42-international-results"

def worldcupId : String := "openfootball-worldcup-json"

def footballId : String := "openfootball-football-json"

def domesticSourceIds : List String :=
  ["openfootball-england", "openfootball-deutschland", "openfootball-espana", "openfootball-italy",
    "openfootball-europe"]

def approvedSourceIds : List String := [martj42Id, worldcupId, footballId] ++ domesticSourceIds

/-- What a job was started with. -/
structure RefreshRequest where
  /-- `mode == "check"`. -/
  checkOnly : Bool
  /-- `scope == "followed"`. -/
  followed : Bool
  selected : List String
  deriving DecidableEq, Repr

/-- Check a selected source where it is due, and keep what it found or that it failed. -/
def checkSelected (sourceId : String) : JobEffect Unit := do
  let due ← call (.due sourceId)
  if due then do
    let checked ← tryCatch (do let _ ← call (.checkSource sourceId); return true) fun e =>
      if e.isAny [.refreshSourceError] then return false else throw e
    let _ ← call (if checked then .sourceSuccess sourceId else .sourceFailure sourceId)
    let _ ← call .saveState
    updateJob none
  else do
    let _ ← call (.sourceFromState sourceId)

/-- Check a source a generation needs and nobody selected. -/
def checkDependency (dependency : String) : JobEffect Unit := do
  let observed ← call (.isObserved dependency)
  if observed then pure () else do
    tryCatch (do let _ ← call (.checkSource dependency)) fun e =>
      if e.isAny [.refreshSourceError] then do
        let _ ← call (.sourceFailure dependency)
        let _ ← call .saveState
        throw e
      else throw e
    let _ ← call (.sourceSuccess dependency)
    let _ ← call .saveState

/-- End a job that activates nothing. -/
def finishUnchanged : JobEffect Unit := do
  let _ ← call .reconcileFollows
  finish
  let _ ← call .cleanStaging

/-- Build a country's pack where its current season is there. -/
def buildDomestic (sourceId : String) : JobEffect Unit := do
  let present ← call (.currentPaths sourceId)
  if present then do
    let based ← call (.resolvePackDir sourceId)
    if based then do
      let _ ← call (.buildDomesticRuntimePack sourceId)
    else throw noBasePack
  else pure ()

/-- Activate the installed generation under the activation lock, with its receipt. -/
def activateInstalled : JobEffect Unit := do
  let _ ← call .activationLock
  let _ ← call .markReceiptPending
  tryCatch (do let _ ← call .activateGeneration) fun e => do
    let _ ← call .finishReceiptMarker
    throw e
  tryCatch (do let _ ← call .appendReceipt) fun e =>
    if e.isAny [.osError, .runtimeError, .valueError] then pure () else throw e
  let _ ← call .finishReceiptMarker

/-- Download, build, check and activate a generation. -/
def buildGeneration : JobEffect Unit := do
  updateJob none
  approvedSourceIds.forM fun sourceId => do let _ ← call (.downloadSourceSnapshot sourceId)
  stopIfCancelled
  updateJob none
  let _ ← call .buildInternationalRuntimePack
  domesticSourceIds.forM buildDomestic
  updateJob none
  let _ ← call .mergeRefreshGeneration
  let _ ← call .assertSafeChange
  let _ ← call .writeGenerationManifest
  stopIfCancelled
  updateJob none
  let _ ← call .installGeneration
  activateInstalled
  let _ ← call .repointToRefreshed
  let _ ← call .loadState
  let _ ← call .readActivatedFrame
  let _ ← call .syncStateToGeneration
  approvedSourceIds.forM fun sourceId => do let _ ← call (.dataThrough sourceId)
  let _ ← call .sourceCompetitions
  let _ ← call .saveState
  let _ ← call .reconcileFollows
  finish

/-- The rest of a full refresh: what moved is rebuilt, unless it is quarantined. -/
def refreshChanged (request : RefreshRequest) : JobEffect Unit := do
  let active ← call .activeGeneration
  callIf active .verifyGeneration
  let moved ← call .refsDiffer
  if request.followed && active && !moved then finishUnchanged
  else do
    approvedSourceIds.forM checkDependency
    let blocked ← call .isBlocked
    if blocked then finishUnchanged
    else do
      let changed ← call .refsDiffer
      if active && !changed then finishUnchanged else buildGeneration

/-- The `try` block of `_run_locked`. -/
def attempt (request : RefreshRequest) : JobEffect Unit := do
  let _ ← call .prepareStaging
  updateJob (some .running)
  let _ ← call .loadState
  request.selected.forM checkSelected
  stopIfCancelled
  if request.checkOnly then do
    let _ ← call .recordSourceRevisions
    finishUnchanged
  else refreshChanged request

/-- The answer to a cancellation. -/
def answerCancelled : JobEffect Unit := do
  let _ ← call .cleanStaging
  updateJob (some .cancelled)

/-- The answer to a conflict: the candidate and its refs are quarantined. -/
def answerConflict : JobEffect Unit := do
  let _ ← call .prepareQuarantine
  let staged ← call .stagingExists
  callIf staged .moveToQuarantine
  let _ ← call .loadState
  let _ ← call .markConflicts
  let _ ← call .saveState
  let _ ← call .recordConflicts
  let _ ← call .reconcileFollows
  fail

/-- The answer to any other failure that is listed. -/
def answerFailure : JobEffect Unit := do
  let _ ← call .cleanStaging
  fail

/-- The `except` clauses of `_run_locked`, the first that lists an exception first. -/
def runLockedHandler (e : Raised) : Option (JobEffect Unit) :=
  if e.isAny [.refreshCancelled] then some answerCancelled
  else if e.isAny [.refreshConflict] then some answerConflict
  else if e.isAny [.refreshSourceError] then some answerFailure
  else if e.isAny [.osError, .valueError, .runtimeError, .refreshError] then some answerFailure
  else none

/-- The job under the lock (`_run_locked`). -/
def runLocked (request : RefreshRequest) : JobEffect Unit := do
  let _ ← call .stagingDir
  trying .runLocked (attempt request) runLockedHandler

/-- The `except` clause of `_run`. -/
def runHandler (e : Raised) : Option (JobEffect Unit) :=
  if e.isAny [.osError, .runtimeError] then some (trying .lastFail fail fun _ => none) else none

/-- A job from its start to its end (`_run`). -/
def runJob (request : RefreshRequest) : JobEffect Unit :=
  trying .run (do
    let _ ← call .refreshJobLock
    runLocked request) runHandler

/-! ## What is to hold, and when it does -/

/-- A job before its thread runs. -/
def JobWorld.queued (outcome : Nat → RefreshStep → Outcome) : JobWorld := ⟨outcome, 0, .queued, []⟩

/-- Whether the handler an exception meets lists it. -/
def Clause.lists (clause : Clause) (e : Raised) : Bool :=
  match clause with
  | .runLocked => e.isAny [.refreshCancelled, .refreshConflict, .refreshSourceError, .osError,
      .valueError, .runtimeError, .refreshError]
  | .run => e.isAny [.osError, .runtimeError]
  | .lastFail => false

end Golavo.Refresh
