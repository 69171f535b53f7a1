import Golavo.Identity
import Golavo.Lib.Json
import Golavo.Lib.Table
import Mathlib.Data.List.Sort

/-! # The job store

An in-memory table of jobs under one lock, so every method is one step. A job is tracked while its
worker is active and for a while after; a lane starts a job in its own first stage and reports what
the work came to. -/

namespace Golavo.Jobs

open Golavo.Lib (Json Table)

/-- A finished job is kept for fifteen minutes, in nanoseconds of the monotonic clock. -/
def ttl : Int := 900 * 1000000000

/-- How many jobs are kept. -/
def maxJobs : Nat := 64

/-- The public state of a job. -/
inductive JobState where
  | running
  | done
  | failed
  | cancelled
  deriving DecidableEq, Repr

/-- A tracked job. -/
structure Job where
  jobId : String
  /-- Which call of `start` made the object. -/
  ident : Nat
  state : JobState := .running
  stage : String := "queued"
  detail : Option String := none
  counts : Json := .mk []
  createdAt : Int
  updatedAt : Int
  error : Option String := none
  result : Option Json := none
  /-- Whether the worker has not returned yet. -/
  workerActive : Bool := true

/-- The jobs by their ids (`JobStore._jobs`). -/
abbrev JobStore := Table Job Job.jobId

/-- What may be published of a job. -/
structure Report where
  stage : Option String := none
  detail : Option String := none
  counts : Option Json := none

/-- Publish what is given. -/
def Job.publish (j : Job) (r : Report) : Job :=
  { j with
    stage := r.stage.getD j.stage
    detail := r.detail.or j.detail
    counts := r.counts.getD j.counts }

namespace JobStore

/-! ## The methods -/

/-- Whether a job may be dropped for its age. -/
def isStale (now : Int) (j : Job) : Bool := !j.workerActive && decide (ttl < now - j.updatedAt)

/-- The jobs dropped to keep within the cap: the oldest finished ones. -/
def overflow (s : JobStore) : List String :=
  (((s.entries.filter fun j => !j.workerActive).insertionSort fun a b =>
    a.updatedAt ≤ b.updatedAt).take (s.entries.length - maxJobs)).map Job.jobId

/-- Drop stale jobs, then the oldest finished ones over the cap (`_prune_locked`). -/
def prune (s : JobStore) (now : Int) : JobStore :=
  let kept := s.keep fun j => !isStale now j
  kept.keep fun j => decide (j.jobId ∉ overflow kept)

/-- Track a new job under an id no active worker holds (`start`). -/
def start (s : JobStore) (jobId : String) (r : Report) (ident : Nat) (now : Int) :
    JobStore × Option Job :=
  let s := prune s now
  match s.get? jobId with
  | some existing => if existing.workerActive then (s, none) else place s
  | none => place s
where
  /-- The job started, in its opening state. -/
  opened : Job :=
    Job.publish { jobId := jobId, ident := ident, createdAt := now, updatedAt := now } r
  place (s : JobStore) : JobStore × Option Job := (s.put opened, some opened)

/-- Publish progress of a running job (`update`). -/
def update (s : JobStore) (jobId : String) (r : Report) (now : Int) : JobStore :=
  match s.get? jobId with
  | some j => if j.state = .running then s.put { j.publish r with updatedAt := now } else s
  | none => s

/-- What a terminal report makes of a job. -/
def terminated (j : Job) (state : JobState) (error : Option String) (result : Option Json)
    (now : Int) : Job :=
  match j.state with
  | .cancelled => { j with workerActive := false, stage := "done", updatedAt := now }
  | .running =>
      { j with
        state := state, workerActive := false, stage := "done", error := error, result := result,
        updatedAt := now }
  | .done | .failed => j

/-- Record that a worker has returned (`_terminate`). A cancelled job stays cancelled. -/
def terminate (s : JobStore) (jobId : String) (state : JobState) (error : Option String)
    (result : Option Json) (now : Int) : JobStore × Bool :=
  match s.get? jobId with
  | some j => (s.put (terminated j state error result now), decide (j.state = .running))
  | none => (s, false)

/-- A worker returned (`finish`). -/
def finish (s : JobStore) (jobId : String) (result : Option Json) (now : Int) : JobStore × Bool :=
  terminate s jobId .done none result now

/-- A worker raised (`fail`). -/
def fail (s : JobStore) (jobId : String) (error : String) (now : Int) : JobStore × Bool :=
  terminate s jobId .failed (some error) none now

/-- Ask a running job to stop (`cancel`). -/
def cancel (s : JobStore) (jobId : String) (now : Int) : JobStore × Bool :=
  match s.get? jobId with
  | some j =>
      if j.state = .running then (s.put { j with state := .cancelled, updatedAt := now }, true)
      else (s, false)
  | none => (s, false)

/-- The job under an id (`get`). -/
def get (s : JobStore) (jobId : String) (now : Int) : JobStore × Option Job :=
  (prune s now, (prune s now).get? jobId)

/-- The ids whose workers are active (`running_ids`). -/
def runningIds (s : JobStore) (start : String) (now : Int) : JobStore × List String :=
  (prune s now, (((prune s now).entries.filter fun j =>
    j.workerActive && j.jobId.startsWith start).map Job.jobId).insertionSort (· ≤ ·))

/-! ## What the methods do -/

/-- Pruning drops jobs whose worker is not active, and no others. -/
theorem mem_prune {s : JobStore} {now : Int} {j : Job} (h : j ∈ (prune s now).entries) :
    j ∈ s.entries := (Table.mem_keep.mp (Table.mem_keep.mp h).1).1

/-- A job whose worker is active is not among those dropped for the cap. -/
theorem not_mem_overflow {s : JobStore} {j : Job} (hj : j ∈ s.entries)
    (hactive : j.workerActive = true) : j.jobId ∉ overflow s := by
  intro h
  obtain ⟨k, hk, hid⟩ := List.mem_map.mp h
  obtain ⟨hmem, hinactive⟩ := List.mem_filter.mp
    ((List.perm_insertionSort _ _).mem_iff.mp (List.mem_of_mem_take hk))
  rw [List.inj_on_of_nodup_map s.nodup hmem hj hid, hactive] at hinactive
  exact Bool.false_ne_true hinactive

/-- **A worker-active job is never pruned.** -/
theorem mem_prune_of_active {s : JobStore} {now : Int} {j : Job} (hj : j ∈ s.entries)
    (hactive : j.workerActive = true) : j ∈ (prune s now).entries := by
  have hkept : j ∈ (s.keep fun j => !isStale now j).entries :=
    Table.mem_keep.mpr ⟨hj, by simp [isStale, hactive]⟩
  exact Table.mem_keep.mpr ⟨hkept, by simpa using not_mem_overflow hkept hactive⟩

@[simp] theorem terminated_jobId (j : Job) (state : JobState) (error : Option String)
    (result : Option Json) (now : Int) : (terminated j state error result now).jobId = j.jobId := by
  unfold terminated
  split <;> rfl

@[simp] theorem terminated_ident (j : Job) (state : JobState) (error : Option String)
    (result : Option Json) (now : Int) : (terminated j state error result now).ident = j.ident := by
  unfold terminated
  split <;> rfl

end JobStore

end Golavo.Jobs
