import Golavo.Refresh.Coordinator

/-! # When a refresh job ends

A job ends exactly when every exception that meets a handler before the job has ended is one the
handler lists. `_run_locked` lists the source and refresh errors, `OSError`, `ValueError` and
`RuntimeError`, `_run` lists `OSError` and `RuntimeError` for what its `except` clauses themselves
raise, and nothing is listed for what recording that last failure raises. -/

namespace Golavo.Refresh

open Golavo.Lib
open Golavo.Lib.Effect (Keeps Ensures eval_bind eval_change eval_tryCatch eval_throw)

/-! ## What the parts of a job keep -/

/-- The job has ended. -/
def JobWorld.Ended (w : JobWorld) : Prop := w.job.ended = true

/-- Of a part that updates the job only to end it: it keeps an ended job ended, and notes no
exception. -/
structure Steady {α : Type} (m : JobEffect α) : Prop where
  ended : Keeps JobWorld.Ended m
  met : ∀ noted, Keeps (fun w => w.met = noted) m

section Steady

variable {α β : Type}

theorem Steady.pure (a : α) : Steady (Pure.pure a : JobEffect α) :=
  ⟨Keeps.pure a, fun _ => Keeps.pure a⟩

theorem Steady.throw (e : Raised) : Steady (MonadExcept.throw e : JobEffect α) :=
  ⟨Keeps.throw e, fun _ => Keeps.throw e⟩

theorem Steady.bind {m : JobEffect α} {f : α → JobEffect β} (hm : Steady m)
    (hf : ∀ a, Steady (f a)) : Steady (m >>= f) :=
  ⟨hm.ended.bind fun a => (hf a).ended, fun noted => (hm.met noted).bind fun a => (hf a).met noted⟩

theorem Steady.tryCatch {m : JobEffect α} {h : Raised → JobEffect α} (hm : Steady m)
    (hh : ∀ e, Steady (h e)) : Steady (MonadExcept.tryCatch m h) :=
  ⟨hm.ended.tryCatch fun e => (hh e).ended,
    fun noted => (hm.met noted).tryCatch fun e => (hh e).met noted⟩

theorem Steady.ite {c : Prop} [Decidable c] {m n : JobEffect α} (hm : Steady m) (hn : Steady n) :
    Steady (if c then m else n) :=
  ⟨hm.ended.ite hn.ended, fun noted => (hm.met noted).ite (hn.met noted)⟩

theorem Steady.forM {items : List β} {f : β → JobEffect PUnit} (h : ∀ b, Steady (f b)) :
    Steady (items.forM f) :=
  ⟨Keeps.forM fun b => (h b).ended, fun noted => Keeps.forM fun b => (h b).met noted⟩

end Steady

theorem steady_call (st : RefreshStep) : Steady (call st) :=
  ⟨fun _ h => h, fun _ _ h => h⟩

theorem steady_updateJob {state : Option JobState} (h : ∀ s, state = some s → s.ended = true) :
    Steady (updateJob state) := by
  refine ⟨Keeps.bind (Keeps.change fun w hw => ?_) fun _ => ?_, fun noted =>
    Keeps.bind (Keeps.change fun _ hw => hw) fun _ => ?_⟩
  · cases state with
    | none => exact hw
    | some s => exact h s rfl
  · exact Keeps.bind (steady_call _).ended fun _ => Keeps.pure _
  · exact Keeps.bind ((steady_call _).met noted) fun _ => Keeps.pure _

/-- An update that ends the job has ended it, whether or not it could be persisted. -/
theorem ensures_updateJob {s : JobState} (h : s.ended = true) :
    Ensures JobWorld.Ended (updateJob (some s)) :=
  Ensures.bind_keeps (Ensures.change fun _ => h) fun _ =>
    Keeps.bind (steady_call _).ended fun _ => Keeps.pure _

theorem steady_discard {st : RefreshStep} {α : Type} {m : JobEffect α} (hm : Steady m) :
    Steady (do let _ ← call st; m) :=
  (steady_call st).bind fun _ => hm

theorem steady_finish : Steady finish := steady_updateJob (by rintro s ⟨⟩; rfl)

theorem steady_fail : Steady fail :=
  steady_discard (steady_discard (steady_updateJob (by rintro s ⟨⟩; rfl)))

theorem ensures_fail : Ensures JobWorld.Ended fail :=
  Ensures.bind fun _ => Ensures.bind fun _ => ensures_updateJob rfl

/-! ## The parts of the job -/

theorem steady_discarded (st : RefreshStep) : Steady (do let _ ← call st : JobEffect Unit) :=
  steady_discard (Steady.pure ())

theorem steady_callIf (cause : Bool) (st : RefreshStep) : Steady (callIf cause st) :=
  Steady.ite (steady_discarded st) (Steady.pure ())

theorem steady_progress : Steady (updateJob none) := steady_updateJob nofun

theorem steady_stopIfCancelled : Steady stopIfCancelled :=
  (steady_call _).bind fun _ => Steady.ite (Steady.throw _) (Steady.pure _)

theorem steady_checkSelected (sourceId : String) : Steady (checkSelected sourceId) := by
  refine (steady_call _).bind fun due => Steady.ite ?_ (steady_discarded _)
  refine Steady.bind (Steady.tryCatch (steady_discard (Steady.pure true)) fun e =>
    Steady.ite (Steady.pure false) (Steady.throw e)) fun checked => ?_
  exact steady_discard (steady_discard steady_progress)

theorem steady_checkDependency (dependency : String) : Steady (checkDependency dependency) := by
  refine (steady_call _).bind fun observed => Steady.ite (Steady.pure ()) ?_
  refine Steady.bind (Steady.tryCatch (steady_discarded _) fun e => Steady.ite ?_ (Steady.throw e))
    fun _ => steady_discard (steady_discarded _)
  exact steady_discard (steady_discard (Steady.throw e))

theorem steady_finishUnchanged : Steady finishUnchanged :=
  steady_discard (steady_finish.bind fun _ => steady_discarded _)

theorem ensures_finishUnchanged : Ensures JobWorld.Ended finishUnchanged :=
  Ensures.bind fun _ => Ensures.bind_keeps (ensures_updateJob rfl) fun _ =>
    (steady_discarded _).ended

theorem steady_buildDomestic (sourceId : String) : Steady (buildDomestic sourceId) :=
  (steady_call _).bind fun _ => Steady.ite
    ((steady_call _).bind fun _ => Steady.ite (steady_discarded _) (Steady.throw _))
    (Steady.pure ())

theorem steady_activateInstalled : Steady activateInstalled := by
  refine steady_discard (steady_discard (Steady.bind (Steady.tryCatch (steady_discarded _) fun e =>
    steady_discard (Steady.throw e)) fun _ => ?_))
  exact Steady.bind (Steady.tryCatch (steady_discarded _) fun e =>
    Steady.ite (Steady.pure ()) (Steady.throw e)) fun _ => steady_discarded _

theorem steady_buildGeneration : Steady buildGeneration := by
  refine steady_progress.bind fun _ => (Steady.forM fun _ => steady_discarded _).bind fun _ => ?_
  refine steady_stopIfCancelled.bind fun _ => steady_progress.bind fun _ => steady_discard ?_
  refine (Steady.forM steady_buildDomestic).bind fun _ => steady_progress.bind fun _ => ?_
  refine steady_discard (steady_discard (steady_discard ?_))
  refine steady_stopIfCancelled.bind fun _ => steady_progress.bind fun _ => steady_discard ?_
  refine steady_activateInstalled.bind fun _ => ?_
  refine steady_discard (steady_discard (steady_discard (steady_discard ?_)))
  refine (Steady.forM fun _ => steady_discarded _).bind fun _ => ?_
  exact steady_discard (steady_discard (steady_discard steady_finish))

theorem ensures_buildGeneration : Ensures JobWorld.Ended buildGeneration := by
  refine Ensures.bind fun _ => Ensures.bind fun _ => Ensures.bind fun _ => Ensures.bind fun _ => ?_
  refine Ensures.bind fun _ => Ensures.bind fun _ => Ensures.bind fun _ => Ensures.bind fun _ => ?_
  refine Ensures.bind fun _ => Ensures.bind fun _ => Ensures.bind fun _ => Ensures.bind fun _ => ?_
  refine Ensures.bind fun _ => Ensures.bind fun _ => Ensures.bind fun _ => Ensures.bind fun _ => ?_
  refine Ensures.bind fun _ => Ensures.bind fun _ => Ensures.bind fun _ => Ensures.bind fun _ => ?_
  exact Ensures.bind fun _ => Ensures.bind fun _ => ensures_updateJob rfl

theorem steady_refreshChanged (request : RefreshRequest) : Steady (refreshChanged request) := by
  refine (steady_call _).bind fun active => (steady_callIf _ _).bind fun _ => ?_
  refine (steady_call _).bind fun moved => Steady.ite steady_finishUnchanged ?_
  refine (Steady.forM steady_checkDependency).bind fun _ => (steady_call _).bind fun blocked => ?_
  refine Steady.ite steady_finishUnchanged ((steady_call _).bind fun changed => ?_)
  exact Steady.ite steady_finishUnchanged steady_buildGeneration

theorem ensures_refreshChanged (request : RefreshRequest) :
    Ensures JobWorld.Ended (refreshChanged request) := by
  refine Ensures.bind fun active => Ensures.bind fun _ => Ensures.bind fun moved => ?_
  refine Ensures.ite ensures_finishUnchanged (Ensures.bind fun _ => Ensures.bind fun blocked => ?_)
  refine Ensures.ite ensures_finishUnchanged (Ensures.bind fun changed => ?_)
  exact Ensures.ite ensures_finishUnchanged ensures_buildGeneration

/-- The `try` block notes no exception. -/
theorem met_attempt (request : RefreshRequest) (noted : List (Clause × Raised)) :
    Keeps (fun w => w.met = noted) (attempt request) := by
  refine Keeps.bind ((steady_call _).met noted) fun _ => Keeps.bind ?_ fun _ => ?_
  · exact Keeps.bind (Keeps.change fun _ h => h) fun _ => (steady_discarded _).met noted
  · refine Steady.met (steady_discard ((Steady.forM steady_checkSelected).bind fun _ => ?_)) noted
    refine steady_stopIfCancelled.bind fun _ => Steady.ite ?_ (steady_refreshChanged request)
    exact steady_discard steady_finishUnchanged

/-- **Where the `try` block goes through, the job has ended.** -/
theorem ensures_attempt (request : RefreshRequest) : Ensures JobWorld.Ended (attempt request) := by
  refine Ensures.bind fun _ => Ensures.bind fun _ => Ensures.bind fun _ => Ensures.bind fun _ => ?_
  refine Ensures.bind fun _ => Ensures.ite (Ensures.bind fun _ => ensures_finishUnchanged) ?_
  exact ensures_refreshChanged request

/-- What answers an exception: it ends the job where it goes through. -/
structure Answers (m : JobEffect Unit) : Prop where
  steady : Steady m
  ensures : Ensures JobWorld.Ended m

theorem answers_cancelled : Answers answerCancelled where
  steady := steady_discard (steady_updateJob (by rintro s ⟨⟩; rfl))
  ensures := Ensures.bind fun _ => ensures_updateJob rfl

theorem answers_conflict : Answers answerConflict where
  steady := by
    refine steady_discard ((steady_call _).bind fun staged => (steady_callIf _ _).bind fun _ => ?_)
    exact steady_discard (steady_discard (steady_discard (steady_discard (steady_discard
      steady_fail))))
  ensures := by
    refine Ensures.bind fun _ => Ensures.bind fun _ => Ensures.bind fun _ => Ensures.bind fun _ => ?_
    refine Ensures.bind fun _ => Ensures.bind fun _ => Ensures.bind fun _ => ?_
    exact Ensures.bind fun _ => ensures_fail

theorem answers_failure : Answers answerFailure where
  steady := steady_discard steady_fail
  ensures := Ensures.bind fun _ => ensures_fail

/-- `_run_locked` answers the exceptions it lists, and no others. -/
theorem runLockedHandler_cases (e : Raised) :
    (Clause.runLocked.lists e = true ∧ ∃ m, runLockedHandler e = some m ∧ Answers m) ∨
      (Clause.runLocked.lists e = false ∧ runLockedHandler e = none) := by
  unfold runLockedHandler
  split_ifs with h₁ h₂ h₃ h₄
  · refine .inl ⟨?_, _, rfl, answers_cancelled⟩
    simp_all [Clause.lists, Raised.isAny]
  · refine .inl ⟨?_, _, rfl, answers_conflict⟩
    simp_all [Clause.lists, Raised.isAny]
  · refine .inl ⟨?_, _, rfl, answers_failure⟩
    simp_all [Clause.lists, Raised.isAny]
  · refine .inl ⟨?_, _, rfl, answers_failure⟩
    simp_all [Clause.lists, Raised.isAny]
  · refine .inr ⟨?_, rfl⟩
    simp_all [Clause.lists, Raised.isAny]

/-! ## The course of a job -/

/-- Every exception noted is one its handler lists. -/
def JobWorld.Listed (w : JobWorld) : Prop := ∀ x ∈ w.met, x.1.lists x.2 = true

/-- How a part of the job leaves it: ended with every noted exception listed; or still open and
raising, with every noted exception listed; or still open and raising what `_run` does not list,
with a noted exception that was not listed either. -/
inductive Course {α : Type} : Except Raised α × JobWorld → Prop where
  | ended {x : Except Raised α} {w : JobWorld} : w.Ended → w.Listed → Course (x, w)
  | raising {e : Raised} {w : JobWorld} : ¬ w.Ended → w.Listed → Course (.error e, w)
  | unlisted {e : Raised} {w : JobWorld} : ¬ w.Ended → ¬ w.Listed → Clause.run.lists e = false →
      Course (.error e, w)

theorem Listed.of_met {w w' : JobWorld} (h : w.Listed) (hmet : w'.met = w.met) : w'.Listed := by
  rw [JobWorld.Listed, hmet]
  exact h

/-- A part that notes nothing and ends the job where it goes through ends it or raises. -/
theorem ended_or_raises {α : Type} {m : JobEffect α}
    (hmet : ∀ noted, Keeps (fun w => w.met = noted) m) (hensures : Ensures JobWorld.Ended m)
    {w : JobWorld} (hw : w.Listed) :
    (m.eval w).2.Listed ∧ ((m.eval w).2.Ended ∨ ∃ e, (m.eval w).1 = .error e) := by
  refine ⟨Listed.of_met hw (hmet w.met w rfl), ?_⟩
  rcases hrun : m.eval w with ⟨x, w'⟩
  cases x with
  | ok a => exact .inl (hensures w a w' hrun)
  | error e => exact .inr ⟨e, rfl⟩

theorem eval_trying (clause : Clause) (body : JobEffect Unit)
    (handler : Raised → Option (JobEffect Unit)) (w : JobWorld) :
    (trying clause body handler).eval w = match body.eval w with
      | (.ok a, w') => (.ok a, w')
      | (.error e, w') => match handler e with
          | some answer => answer.eval (w'.meet clause e)
          | none => (.error e, w'.meet clause e) := by
  rw [trying, eval_tryCatch]
  rcases body.eval w with ⟨x, w'⟩
  cases x with
  | ok a => rfl
  | error e =>
      simp only [eval_bind, eval_change]
      cases handler e <;> rfl

theorem meet_of_ended {w : JobWorld} (h : w.Ended) (clause : Clause) (e : Raised) :
    w.meet clause e = w := if_pos h

theorem ended_meet {w : JobWorld} {clause : Clause} {e : Raised} :
    (w.meet clause e).Ended ↔ w.Ended := by
  unfold JobWorld.meet
  split_ifs <;> rfl

theorem listed_meet {w : JobWorld} (h : ¬ w.Ended) {clause : Clause} {e : Raised} :
    (w.meet clause e).Listed ↔ w.Listed ∧ clause.lists e = true := by
  have hmeet : w.meet clause e = { w with met := w.met ++ [(clause, e)] } := if_neg h
  rw [hmeet]
  simp [JobWorld.Listed, or_imp, forall_and]

/-- An answer leaves the job ended, or open and raising. -/
theorem Answers.course {m : JobEffect Unit} (h : Answers m) {w : JobWorld} (hw : w.Listed) :
    Course (m.eval w) := by
  obtain ⟨hlisted, hcase⟩ := ended_or_raises h.steady.met h.ensures hw
  rcases hrun : m.eval w with ⟨x, w'⟩
  rw [hrun] at hlisted hcase
  by_cases hended : w'.Ended
  · exact .ended hended hlisted
  · obtain ⟨e, rfl⟩ := hcase.resolve_left hended
    exact .raising hended hlisted

/-- `_run` lists nothing that `_run_locked` does not. -/
theorem run_lists_of {e : Raised} (h : Clause.runLocked.lists e = false) :
    Clause.run.lists e = false := by
  simp_all [Clause.lists, Raised.isAny]

/-- **The course under the lock.** -/
theorem course_trying (request : RefreshRequest) {w : JobWorld} (hw : w.Listed) :
    Course ((trying .runLocked (attempt request) runLockedHandler).eval w) := by
  obtain ⟨hlisted, hcase⟩ := ended_or_raises (met_attempt request) (ensures_attempt request) hw
  rw [eval_trying]
  rcases hrun : (attempt request).eval w with ⟨x, w'⟩
  rw [hrun] at hlisted hcase
  cases x with
  | ok a => exact .ended (hcase.resolve_right nofun) hlisted
  | error e =>
      by_cases hended : w'.Ended
      · simp only [meet_of_ended hended]
        rcases runLockedHandler_cases e with ⟨-, m, hm, hanswers⟩ | ⟨-, hnone⟩
        · simp only [hm]
          exact hanswers.course hlisted
        · simp only [hnone]
          exact .ended hended hlisted
      · rcases runLockedHandler_cases e with ⟨hlists, m, hm, hanswers⟩ | ⟨hlists, hnone⟩
        · simp only [hm]
          exact hanswers.course ((listed_meet hended).mpr ⟨hlisted, hlists⟩)
        · simp only [hnone]
          refine .unlisted (mt ended_meet.mp hended) (fun h => ?_) (run_lists_of hlists)
          rw [((listed_meet hended).mp h).2] at hlists
          cases hlists

/-- A step before a part does not change how the part leaves the job. -/
theorem Course.call {st : RefreshStep} {m : JobEffect Unit}
    (hm : ∀ w : JobWorld, w.Listed → Course (m.eval w)) {w : JobWorld} (hw : w.Listed) :
    Course ((do let _ ← call st; m : JobEffect Unit).eval w) := by
  rw [eval_bind]
  have hlisted : ((Golavo.Refresh.call st).eval w).2.Listed :=
    Listed.of_met hw ((steady_call st).met w.met w rfl)
  rcases hrun : (Golavo.Refresh.call st).eval w with ⟨x, w'⟩
  rw [hrun] at hlisted
  cases x with
  | ok a => exact hm w' hlisted
  | error e =>
      by_cases hended : w'.Ended
      · exact .ended hended hlisted
      · exact .raising hended hlisted

/-- What the last attempt to record a failure leaves: the job ended, or an exception noted that
nothing lists. -/
theorem lastFail_ends {w : JobWorld} (hw : w.Listed) :
    ((trying .lastFail fail fun _ => none).eval w).2.Ended ↔
      ((trying .lastFail fail fun _ => none).eval w).2.Listed := by
  obtain ⟨hlisted, hcase⟩ := ended_or_raises steady_fail.met ensures_fail hw
  rw [eval_trying]
  rcases hrun : fail.eval w with ⟨x, w'⟩
  rw [hrun] at hlisted hcase
  cases x with
  | ok a => exact iff_of_true (hcase.resolve_right nofun) hlisted
  | error e =>
      by_cases hended : w'.Ended
      · simp only [meet_of_ended hended]
        exact iff_of_true hended hlisted
      · refine iff_of_false (mt ended_meet.mp hended) fun h => ?_
        cases ((listed_meet hended).mp h).2

/-- **A refresh job ends exactly when every exception that meets a handler before it has ended is
one the handler lists**, whatever its steps return or raise. -/
theorem refresh_job_ends_iff (request : RefreshRequest) (outcome : Nat → RefreshStep → Outcome) :
    ((runJob request).eval (.queued outcome)).2.job.ended = true ↔
      ∀ x ∈ ((runJob request).eval (.queued outcome)).2.met, x.1.lists x.2 = true := by
  have hstart : (JobWorld.queued outcome).Listed := by simp [JobWorld.Listed, JobWorld.queued]
  have hcourse : Course ((do let _ ← call .refreshJobLock; runLocked request :
      JobEffect Unit).eval (.queued outcome)) :=
    Course.call (fun _ hw => Course.call (fun _ hw => course_trying request hw) hw) hstart
  change JobWorld.Ended _ ↔ JobWorld.Listed _
  rw [runJob, eval_trying]
  rcases hrun : (do let _ ← call .refreshJobLock; runLocked request :
      JobEffect Unit).eval (.queued outcome) with ⟨x, w⟩
  rw [hrun] at hcourse
  cases hcourse with
  | ended hended hlisted =>
      cases x with
      | ok a => exact iff_of_true hended hlisted
      | error e =>
          simp only [meet_of_ended hended, runHandler]
          split_ifs
          · exact lastFail_ends hlisted
          · exact iff_of_true hended hlisted
  | @raising e _ hopen hlisted =>
      simp only [runHandler]
      split_ifs with hlists
      · exact lastFail_ends ((listed_meet hopen).mpr ⟨hlisted, hlists⟩)
      · exact iff_of_false (mt ended_meet.mp hopen) fun h => hlists ((listed_meet hopen).mp h).2
  | @unlisted e _ hopen hnot hlists =>
      have hnone : runHandler e = none := if_neg (by simpa [Clause.lists] using hlists)
      simp only [hnone]
      exact iff_of_false (mt ended_meet.mp hopen) fun h => hnot ((listed_meet hopen).mp h).1

/-! ## A candidate that cannot be compared -/

/-- Every step goes through, on the way to a new generation, until comparing the candidate raises
`TypeError`: one of its scores is missing. -/
def missingScore (_ : Nat) : RefreshStep → Outcome
  | .assertSafeChange => .raises ⟨"TypeError", []⟩
  | .isSet => .returns false
  | .isBlocked => .returns false
  | _ => .returns true

/-- A full refresh of the approved sources. -/
def fullRefresh : RefreshRequest := ⟨false, false, approvedSourceIds⟩

/-- **A job that never ends**: the exception passes every handler, and the job stays running. -/
theorem missingScore_never_ends :
    ((runJob fullRefresh).eval (.queued missingScore)).2.job = .running := by
  decide +kernel

end Golavo.Refresh
