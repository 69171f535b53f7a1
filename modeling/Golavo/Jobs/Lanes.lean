import Golavo.Jobs.Store

/-! # Lanes and their workers

A lane is one kind of tracked work: it starts a job in its own first stage, and its worker reports
progress and then how the work ended. The reports a worker makes to the store depend on the lane: a
lane's `run` reports once, the task around a model download reports a failure again. -/

namespace Golavo.Jobs

open Golavo.Lib (Json)

/-! ## Reports -/

/-- What a worker tells the store. -/
inductive Call where
  | update (report : Report)
  | finish (result : Option Json)
  | fail (error : String)

/-- Whether a call reports that the worker has ended. -/
def Call.terminal : Call → Bool
  | .update _ => false
  | .finish _ => true
  | .fail _ => true

/-- The store after a call about a job. -/
def Call.perform (s : JobStore) (jobId : String) (now : Int) : Call → JobStore
  | .update r => s.update jobId r now
  | .finish result => (s.finish jobId result now).1
  | .fail error => (s.fail jobId error now).1

/-- How tracked work ends. -/
inductive Ending where
  | returned (result : Option Json)
  /-- It raises an `Exception` of this text. -/
  | raised (text : String)
  /-- A download stops because it was cancelled (`_DownloadCancelled`). -/
  | downloadCancelled
  /-- It raises something that is no `Exception`, or the process ends. -/
  | killed
  deriving DecidableEq

/-- The first 240 characters of an error's text. -/
def clipped (text : String) : String := String.ofList (text.toList.take 240)

/-- The text an asynchronous job fails with (`_ai_job_error`). -/
def aiJobError (u : Unicode) (text : String) : String :=
  let stripped := String.ofList (u.strip text.toList)
  if stripped = "" then "AI generation failed before a safe fallback was produced."
  else clipped stripped

/-- What `Lane.run` reports. -/
def laneRun : Ending → List Call
  | .returned result => [.finish result]
  | .raised text => [.fail (clipped text)]
  | .downloadCancelled => [.fail ""]
  | .killed => []

/-! ## The kinds of work -/

/-- The kinds of tracked work. -/
inductive Work where
  | retrospective
  | modelDownload
  | aiRead
  | research
  deriving DecidableEq, Repr

namespace Work

/-- The first stage of a work's lane. -/
def firstStage : Work → String
  | .retrospective => "replaying"
  | .modelDownload => "downloading_model"
  | .aiRead => "assembling_evidence"
  | .research => "assembling_evidence"

/-- What the task of a model download reports: what its lane does, and an exception once more. -/
def downloadReports (u : Unicode) : Ending → List Call
  | .raised text => laneRun (.raised text) ++ [.fail (aiJobError u text)]
  | ending => laneRun ending

/-- What the task of an AI read reports. -/
def aiReadReports (u : Unicode) : Ending → List Call
  | .raised text => [.fail (aiJobError u text)]
  | ending => laneRun ending

/-- What the task of a research run reports. -/
def researchReports : Ending → List Call
  | .raised _ => [.fail "research run failed"]
  | ending => laneRun ending

/-- The terminal reports a worker makes, in order. -/
def reports (u : Unicode) : Work → Ending → List Call
  | .retrospective => laneRun
  | .modelDownload => downloadReports u
  | .aiRead => aiReadReports u
  | .research => researchReports

end Work

/-! ## The system -/

/-- A worker of a job: the calls it has still to make, and whether it has reported its end. -/
structure Worker where
  jobId : String
  ident : Nat
  calls : List Call
  reported : Bool

/-- The store and the workers that were started. -/
structure System where
  store : JobStore
  workers : List Worker
  nextIdent : Nat

/-- A process that has just started. -/
def System.empty : System := ⟨.empty, [], 0⟩

/-- What happens to a store: a client starts, cancels or asks for a job, or a worker makes its next
call. -/
inductive Action where
  | start (work : Work) (jobId : String) (opening : Report) (progress : List Report)
      (ending : Ending) (now : Int)
  | call (worker : Nat) (now : Int)
  | cancel (jobId : String) (now : Int)
  | get (jobId : String) (now : Int)
  | runningIds (start : String) (now : Int)

namespace System

variable (u : Unicode)

/-- One step of the system. A start that conflicts starts no worker. -/
def step (s : System) : Action → System
  | .start work jobId opening progress ending now =>
      match s.store.start jobId { opening with stage := some work.firstStage } s.nextIdent now with
      | (store, none) => { s with store := store }
      | (store, some job) => {
          store := store
          workers := s.workers ++ [⟨jobId, job.ident,
            progress.map .update ++ work.reports u ending, false⟩]
          nextIdent := s.nextIdent + 1 }
  | .call i now =>
      match s.workers[i]? with
      | none => s
      | some w =>
          match w.calls with
          | [] => s
          | c :: rest => { s with
              store := c.perform s.store w.jobId now
              workers := s.workers.set i
                { w with calls := rest, reported := w.reported || c.terminal } }
  | .cancel jobId now => { s with store := (s.store.cancel jobId now).1 }
  | .get jobId now => { s with store := (s.store.get jobId now).1 }
  | .runningIds start now => { s with store := (s.store.runningIds start now).1 }

/-! ## What a step must keep -/

/-- A job keeps its state and its result; only its stage may become `done`. -/
structure Settled (j k : Job) : Prop where
  state : k.state = j.state
  result : k.result = j.result
  error : k.error = j.error
  detail : k.detail = j.detail
  counts : k.counts = j.counts
  stage : k.stage = j.stage ∨ k.stage = "done"

/-- A report that a worker ended changes no other job's state, result or activity. -/
def ReportsOwn (s t : System) : Action → Prop
  | .call i _ => ∀ w c rest, s.workers[i]? = some w → w.calls = c :: rest → c.terminal = true →
      ∀ j ∈ s.store.entries, j.ident ≠ w.ident → ∃ k ∈ t.store.entries, k.ident = j.ident ∧
        k.state = j.state ∧ k.result = j.result ∧ k.workerActive = j.workerActive
  | _ => True

/-- **Job store safety** of a step: the jobs of one id that are worker-active are one job, a
worker-active job stays in the store, a terminal job keeps its state and result, and a worker's
report ends no other job. -/
structure Lawful (s : System) (a : Action) : Prop where
  oneActive : ∀ j ∈ (s.step u a).store.entries, ∀ k ∈ (s.step u a).store.entries,
    j.workerActive = true → k.workerActive = true → j.jobId = k.jobId → j = k
  activeStays : ∀ j ∈ s.store.entries, j.workerActive = true →
    ∃ k ∈ (s.step u a).store.entries, k.ident = j.ident ∧ k.jobId = j.jobId
  terminalStays : ∀ j ∈ s.store.entries, j.state ≠ .running →
    ∀ k ∈ (s.step u a).store.entries, k.ident = j.ident → Settled j k
  reportsOwn : ReportsOwn s (s.step u a) a

/-- A worker that has reported its end reports again only while no later job of the id is active. -/
def Timely (s : System) : Action → Prop
  | .call i _ => ∀ w c rest, s.workers[i]? = some w → w.calls = c :: rest → c.terminal = true →
      w.reported = true → ∀ j, s.store.get? w.jobId = some j → j.workerActive = true →
        j.ident = w.ident
  | _ => True

end System

end Golavo.Jobs
