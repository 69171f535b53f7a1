import Golavo.Jobs.Lanes
import Golavo.Lib.Runs

/-! # Job store safety

A worker that has not reported its end owns the worker-active job of its id, so its report can only
end its own job. Once it has reported, its id is free: what it reports after that must not come while
a later job of the id is active. -/

namespace Golavo.Jobs

open Golavo.Lib (Json Table RunAllowed)

/-! ## What can become of a store -/

namespace JobStore

/-- What becomes of the jobs of a store: each stays, changed by `R`, or leaves with its worker
returned, and the only other job is a new one. -/
structure Succeeds (R : Job → Job → Prop) (new : Option Job) (s st : JobStore) : Prop where
  origin : ∀ k ∈ st.entries, (∃ j ∈ s.entries, R j k) ∨ new = some k
  stays : ∀ j ∈ s.entries, j.workerActive = true → ∃ k ∈ st.entries, R j k

/-- A job stays as it is, or is the one that was rewritten. -/
def Rewrites (j j' a b : Job) : Prop := b = a ∨ (a = j ∧ b = j')

/-- A store that stays. -/
theorem Succeeds.refl (s : JobStore) (j j' : Job) : Succeeds (Rewrites j j') none s s where
  origin := fun k hk => .inl ⟨k, hk, .inl rfl⟩
  stays := fun k hk _ => ⟨k, hk, .inl rfl⟩

/-- Rewriting one job leaves the others. -/
theorem Succeeds.put {s : JobStore} {j j' : Job} (hj : j ∈ s.entries) (hid : j'.jobId = j.jobId) :
    Succeeds (Rewrites j j') none s (s.put j') where
  origin := by
    intro k hk
    rcases Table.mem_put.mp hk with rfl | ⟨hk, -⟩
    · exact .inl ⟨j, hj, .inr ⟨rfl, rfl⟩⟩
    · exact .inl ⟨k, hk, .inl rfl⟩
  stays := by
    intro k hk _
    by_cases heq : k.jobId = j.jobId
    · exact ⟨j', Table.mem_put.mpr (.inl rfl),
        .inr ⟨List.inj_on_of_nodup_map s.nodup hk hj heq, rfl⟩⟩
    · exact ⟨k, Table.mem_put.mpr (.inr ⟨hk, hid ▸ heq⟩), .inl rfl⟩

/-- Pruning drops jobs whose worker has returned. -/
theorem Succeeds.prune (s : JobStore) (now : Int) :
    Succeeds (fun a b => b = a) none s (JobStore.prune s now) where
  origin := fun k hk => .inl ⟨k, mem_prune hk, rfl⟩
  stays := fun j hj hactive => ⟨j, mem_prune_of_active hj hactive, rfl⟩

/-- A new job takes an id no active worker holds. -/
theorem Succeeds.start {s : JobStore} {new : Job} {now : Int}
    (hfree : ∀ j ∈ (JobStore.prune s now).entries, j.jobId = new.jobId → j.workerActive = false) :
    Succeeds (fun a b => b = a) (some new) s ((JobStore.prune s now).put new) where
  origin := by
    intro k hk
    rcases Table.mem_put.mp hk with rfl | ⟨hk, -⟩
    · exact .inr rfl
    · exact .inl ⟨k, mem_prune hk, rfl⟩
  stays := by
    intro j hj hactive
    have hkept : j ∈ (JobStore.prune s now).entries := mem_prune_of_active hj hactive
    refine ⟨j, Table.mem_put.mpr (.inr ⟨hkept, fun hid => ?_⟩), rfl⟩
    rw [hfree j hkept hid] at hactive
    exact Bool.false_ne_true hactive

/-- **What starting does**: a conflict only prunes; otherwise the new job takes its id, which no
active worker holds. -/
theorem start_cases (s : JobStore) (jobId : String) (r : Report) (ident : Nat) (now : Int) :
    s.start jobId r ident now = (JobStore.prune s now, none) ∨
      (s.start jobId r ident now =
          ((JobStore.prune s now).put (start.opened jobId r ident now),
            some (start.opened jobId r ident now)) ∧
        ∀ j ∈ (JobStore.prune s now).entries, j.jobId = jobId → j.workerActive = false) := by
  unfold start
  simp only
  cases hget : Table.get? (JobStore.prune s now) jobId with
  | none =>
      exact .inr ⟨rfl, fun j hj hid => absurd (List.mem_map.mpr ⟨j, hj, hid⟩)
        (Table.get?_eq_none_iff.mp hget)⟩
  | some existing =>
      obtain ⟨hmem, hkey⟩ := Table.get?_eq_some_iff.mp hget
      cases hactive : existing.workerActive with
      | true => exact .inl (by simp only [hactive, if_true])
      | false =>
          refine .inr ⟨by simp only [hactive, Bool.false_eq_true, if_false, start.place],
            fun j hj hid => ?_⟩
          rw [List.inj_on_of_nodup_map (JobStore.prune s now).nodup hj hmem (hid.trans hkey.symm),
            hactive]

end JobStore

/-! ## Sound jobs -/

namespace System

open JobStore (Succeeds Rewrites)

/-- A running job is worker-active, a finished or failed one is not. -/
structure Consistent (j : Job) : Prop where
  running : j.state = .running → j.workerActive = true
  ended : j.state = .done ∨ j.state = .failed → j.workerActive = false

/-- What may become of a job: it stays who it is, and once terminal it is settled. -/
structure Becomes (j k : Job) : Prop where
  ident : k.ident = j.ident
  jobId : k.jobId = j.jobId
  settled : j.state ≠ .running → Settled j k
  consistent : Consistent j → Consistent k

/-- A settled job is what it was. -/
theorem Settled.refl (j : Job) : Settled j j := ⟨rfl, rfl, rfl, rfl, rfl, .inl rfl⟩

theorem Becomes.refl (j : Job) : Becomes j j := ⟨rfl, rfl, fun _ => .refl j, id⟩

/-- The jobs of a system are objects of their own and their states fit their workers' activity. -/
structure JobsSound (s : System) : Prop where
  inj : ∀ a ∈ s.store.entries, ∀ b ∈ s.store.entries, a.ident = b.ident → a = b
  fresh : ∀ j ∈ s.store.entries, j.ident < s.nextIdent
  consistent : ∀ j ∈ s.store.entries, Consistent j

/-- Each worker that has not reported its end owns the worker-active job of its id. -/
structure WorkersSound (s : System) : Prop where
  fresh : ∀ w ∈ s.workers, w.ident < s.nextIdent
  apart : (s.workers.map Worker.ident).Nodup
  owns : ∀ w ∈ s.workers, w.reported = false → ∃ j ∈ s.store.entries, j.jobId = w.jobId ∧
    j.ident = w.ident ∧ j.workerActive = true

section Succession

variable {R : Job → Job → Prop} {new : Option Job} {s t : System}

/-- **The succession lemma**: jobs stay sound under any succession of the store. -/
theorem JobsSound.succeeds (h : s.JobsSound) (hs : Succeeds R new s.store t.store)
    (hR : ∀ j k, R j k → Becomes j k) (hle : s.nextIdent ≤ t.nextIdent)
    (hnew : ∀ k, new = some k → s.nextIdent ≤ k.ident ∧ k.ident < t.nextIdent ∧ Consistent k) :
    t.JobsSound where
  inj := by
    intro a ha b hb heq
    rcases hs.origin a ha with ⟨j, hj, hja⟩ | hna
    · rcases hs.origin b hb with ⟨k, hk, hkb⟩ | hnb
      · have hjk : j = k := h.inj j hj k hk
          ((hR j a hja).ident.symm.trans (heq.trans (hR k b hkb).ident))
        refine List.inj_on_of_nodup_map t.store.nodup ha hb ?_
        rw [(hR j a hja).jobId, (hR k b hkb).jobId, hjk]
      · have hlt := h.fresh j hj
        have hge := (hnew b hnb).1
        rw [← heq, (hR j a hja).ident] at hge
        omega
    · rcases hs.origin b hb with ⟨k, hk, hkb⟩ | hnb
      · have hlt := h.fresh k hk
        have hge := (hnew a hna).1
        rw [heq, (hR k b hkb).ident] at hge
        omega
      · exact Option.some.inj (hna.symm.trans hnb)
  fresh := by
    intro k hk
    rcases hs.origin k hk with ⟨j, hj, hjk⟩ | hnk
    · rw [(hR j k hjk).ident]
      exact lt_of_lt_of_le (h.fresh j hj) hle
    · exact (hnew k hnk).2.1
  consistent := by
    intro k hk
    rcases hs.origin k hk with ⟨j, hj, hjk⟩ | hnk
    · exact (hR j k hjk).consistent (h.consistent j hj)
    · exact (hnew k hnk).2.2

/-- A worker-active job stays in the store. -/
theorem activeStays_of_succeeds (hs : Succeeds R new s.store t.store)
    (hR : ∀ j k, R j k → Becomes j k) : ∀ j ∈ s.store.entries, j.workerActive = true →
      ∃ k ∈ t.store.entries, k.ident = j.ident ∧ k.jobId = j.jobId := by
  intro j hj hactive
  obtain ⟨k, hk, hjk⟩ := hs.stays j hj hactive
  exact ⟨k, hk, (hR j k hjk).ident, (hR j k hjk).jobId⟩

/-- A terminal job is settled. -/
theorem terminalStays_of_succeeds (h : s.JobsSound) (hs : Succeeds R new s.store t.store)
    (hR : ∀ j k, R j k → Becomes j k) (hnew : ∀ k, new = some k → s.nextIdent ≤ k.ident) :
    ∀ j ∈ s.store.entries, j.state ≠ .running →
      ∀ k ∈ t.store.entries, k.ident = j.ident → Settled j k := by
  intro j hj hterminal k hk hident
  rcases hs.origin k hk with ⟨i, hi, hik⟩ | hnk
  · have hij : i = j := h.inj i hi j hj ((hR i k hik).ident.symm.trans hident)
    rw [← hij] at hterminal ⊢
    exact (hR i k hik).settled hterminal
  · have hge := hnew k hnk
    have hlt := h.fresh j hj
    omega

/-- Workers keep owning their jobs when the jobs they own stay active. -/
theorem owns_of_succeeds (hs : Succeeds R new s.store t.store) (hR : ∀ j k, R j k → Becomes j k)
    {w : Worker} (hactive : ∀ j ∈ s.store.entries, ∀ k, R j k → j.ident = w.ident →
      j.workerActive = true → k.workerActive = true)
    (howns : ∃ j ∈ s.store.entries, j.jobId = w.jobId ∧ j.ident = w.ident ∧
      j.workerActive = true) :
    ∃ j ∈ t.store.entries, j.jobId = w.jobId ∧ j.ident = w.ident ∧ j.workerActive = true := by
  obtain ⟨j, hj, hid, hident, hja⟩ := howns
  obtain ⟨k, hk, hjk⟩ := hs.stays j hj hja
  exact ⟨k, hk, (hR j k hjk).jobId.trans hid, (hR j k hjk).ident.trans hident,
    hactive j hj k hjk hident hja⟩

end Succession

/-! ## What each method does to jobs -/

/-- A store whose jobs may have changed, where those `p` holds of keep their workers active. -/
def Passes (p : Job → Prop) (s st : JobStore) : Prop :=
  ∃ R : Job → Job → Prop, Succeeds R none s st ∧ (∀ a b, R a b → Becomes a b) ∧
    ∀ a b, R a b → p a → a.workerActive = true → b.workerActive = true

theorem passes_refl (p : Job → Prop) (s : JobStore) : Passes p s s :=
  ⟨fun a b => b = a, ⟨fun k hk => .inl ⟨k, hk, rfl⟩, fun k hk _ => ⟨k, hk, rfl⟩⟩,
    fun a _ h => h ▸ .refl a, fun _ _ h _ ha => h ▸ ha⟩

theorem passes_prune (p : Job → Prop) (s : JobStore) (now : Int) :
    Passes p s (JobStore.prune s now) :=
  ⟨fun a b => b = a, .prune s now, fun a _ h => h ▸ .refl a, fun _ _ h _ ha => h ▸ ha⟩

theorem passes_put {p : Job → Prop} {s : JobStore} {j j' : Job} (hj : j ∈ s.entries)
    (hbecomes : Becomes j j') (hactive : p j → j.workerActive = true → j'.workerActive = true) :
    Passes p s (s.put j') := by
  refine ⟨Rewrites j j', .put hj hbecomes.jobId, ?_, ?_⟩
  · rintro a b (rfl | ⟨rfl, rfl⟩)
    · exact .refl _
    · exact hbecomes
  · rintro a b (rfl | ⟨rfl, rfl⟩) hp ha
    · exact ha
    · exact hactive hp ha

/-- Progress changes no worker's activity. -/
theorem passes_update (p : Job → Prop) (s : JobStore) (jobId : String) (r : Report) (now : Int) :
    Passes p s (s.update jobId r now) := by
  unfold JobStore.update
  split
  · rename_i j hget
    split_ifs with hrunning
    · refine passes_put (Table.get?_eq_some_iff.mp hget).1
        ⟨rfl, rfl, fun hne => absurd hrunning hne, fun hc => ⟨hc.running, hc.ended⟩⟩ fun _ => id
    · exact passes_refl p s
  · exact passes_refl p s

/-- Cancelling changes no worker's activity. -/
theorem passes_cancel (p : Job → Prop) (s : JobStore) (jobId : String) (now : Int) :
    Passes p s (s.cancel jobId now).1 := by
  unfold JobStore.cancel
  split
  · rename_i j hget
    split_ifs with hrunning
    · exact passes_put (Table.get?_eq_some_iff.mp hget).1 ⟨rfl, rfl, fun hne => absurd hrunning hne,
        fun _ => ⟨nofun, nofun⟩⟩ fun _ => id
    · exact passes_refl p s
  · exact passes_refl p s

/-- What a terminal report may make of a job. -/
theorem becomes_terminated (j : Job) {state : JobState} (hstate : state ≠ .running)
    (error : Option String) (result : Option Json) (now : Int) :
    Becomes j (JobStore.terminated j state error result now) := by
  refine ⟨JobStore.terminated_ident .., JobStore.terminated_jobId .., ?_, ?_⟩
  · intro hne
    unfold JobStore.terminated
    cases h : j.state with
    | running => exact absurd h hne
    | cancelled => exact ⟨h.symm, rfl, rfl, rfl, rfl, .inr rfl⟩
    | done => exact .refl j
    | failed => exact .refl j
  · intro hc
    unfold JobStore.terminated
    cases h : j.state with
    | running => exact ⟨fun heq => absurd heq hstate, fun _ => rfl⟩
    | cancelled => exact ⟨nofun, fun _ => rfl⟩
    | done => exact hc
    | failed => exact hc

/-- A terminal report ends the worker-active job of its id. -/
theorem terminated_inactive {j : Job} (hc : Consistent j) (state : JobState)
    (error : Option String) (result : Option Json) (now : Int) :
    (JobStore.terminated j state error result now).workerActive = false := by
  unfold JobStore.terminated
  cases h : j.state with
  | running => rfl
  | cancelled => rfl
  | done => exact hc.ended (.inl h)
  | failed => exact hc.ended (.inr h)

/-- A terminal report leaves the state, result and activity of a job whose worker has returned. -/
theorem terminated_of_inactive {j : Job} (hc : Consistent j) (hactive : j.workerActive = false)
    (state : JobState) (error : Option String) (result : Option Json) (now : Int) :
    (JobStore.terminated j state error result now).state = j.state ∧
      (JobStore.terminated j state error result now).result = j.result ∧
        (JobStore.terminated j state error result now).workerActive = j.workerActive := by
  unfold JobStore.terminated
  cases h : j.state with
  | running => exact absurd (hc.running h) (by simp [hactive])
  | cancelled => exact ⟨rfl, rfl, hactive.symm⟩
  | done => exact ⟨h, rfl, rfl⟩
  | failed => exact ⟨h, rfl, rfl⟩

/-- A terminal call is a termination with a terminal state. -/
theorem perform_terminal {c : Call} (hc : c.terminal = true) (s : JobStore) (jobId : String)
    (now : Int) : ∃ state error result, state ≠ JobState.running ∧
      c.perform s jobId now = (s.terminate jobId state error result now).1 := by
  cases c with
  | update r => exact absurd hc Bool.false_ne_true
  | finish result => exact ⟨.done, none, result, nofun, rfl⟩
  | fail error => exact ⟨.failed, some error, none, nofun, rfl⟩

/-- A call only ends the worker of its own id. -/
theorem passes_perform (c : Call) (s : JobStore) (jobId : String) (now : Int) :
    Passes (fun j => c.terminal = true → j.jobId ≠ jobId) s (c.perform s jobId now) := by
  by_cases hc : c.terminal = true
  · obtain ⟨state, error, result, hstate, heq⟩ := perform_terminal hc s jobId now
    rw [heq, JobStore.terminate]
    split
    · rename_i j hget
      obtain ⟨hj, hid⟩ := Table.get?_eq_some_iff.mp hget
      exact passes_put hj (becomes_terminated j hstate error result now) fun hne =>
        absurd hid (hne hc)
    · exact passes_refl _ s
  · cases c with
    | update r => exact passes_update _ s jobId r now
    | finish result => exact absurd rfl hc
    | fail error => exact absurd rfl hc

/-! ## The step lemma -/

/-- What every step relies on. -/
structure Sound (s : System) : Prop where
  jobs : s.JobsSound
  workers : s.WorkersSound

/-- The jobs of a store that passed into another. -/
theorem JobsSound.passes {p : Job → Prop} {s t : System} (h : s.JobsSound)
    (hp : Passes p s.store t.store) (hident : s.nextIdent = t.nextIdent) : t.JobsSound := by
  obtain ⟨R, hs, hR, -⟩ := hp
  exact h.succeeds hs hR hident.le nofun

/-- A step that passes the store on and starts no worker is lawful, but for its report. -/
theorem lawful_of_passes {u : Unicode} {p : Job → Prop} {s : System} {a : Action} (h : s.JobsSound)
    (hp : Passes p s.store (s.step u a).store) (hown : ReportsOwn s (s.step u a) a) :
    Lawful u s a := by
  obtain ⟨R, hs, hR, -⟩ := hp
  exact ⟨fun j hj k hk _ _ hid => List.inj_on_of_nodup_map (s.step u a).store.nodup hj hk hid,
    activeStays_of_succeeds hs hR, terminalStays_of_succeeds h hs hR nofun, hown⟩

/-- Workers stay sound when no job of theirs ends. -/
theorem WorkersSound.passes {s t : System} (h : s.WorkersSound)
    (hp : Passes (fun _ => True) s.store t.store) (hident : s.nextIdent = t.nextIdent)
    (hworkers : t.workers = s.workers) : t.WorkersSound := by
  obtain ⟨R, hs, hR, hactive⟩ := hp
  refine ⟨?_, ?_, ?_⟩
  · rw [hworkers, ← hident]
    exact h.fresh
  · rw [hworkers]
    exact h.apart
  · rw [hworkers]
    exact fun w hw hreported => owns_of_succeeds hs hR
      (fun j _ k hjk _ hj => hactive j k hjk trivial hj) (h.owns w hw hreported)

/-- **A report of a worker that owns its job, or comes in time, ends no other job.** -/
theorem other_of_report {s : System} (h : s.Sound) {w : Worker} (hw : w ∈ s.workers)
    (htimely : w.reported = true → ∀ j, s.store.get? w.jobId = some j → j.workerActive = true →
      j.ident = w.ident) {j : Job} (hj : j ∈ s.store.entries) (hid : j.jobId = w.jobId)
    (hne : j.ident ≠ w.ident) : j.workerActive = false := by
  cases hreported : w.reported with
  | true =>
      by_contra hactive
      exact hne (htimely hreported j (Table.get?_eq_some_iff.mpr ⟨hj, hid⟩) (by simpa using hactive))
  | false =>
      obtain ⟨k, hk, hkid, hkident, -⟩ := h.workers.owns w hw hreported
      rw [List.inj_on_of_nodup_map s.store.nodup hj hk (hid.trans hkid.symm)] at hne
      exact absurd hkident hne

/-- What a terminal call does to the other jobs. -/
theorem reportsOwn_iff_timely {u : Unicode} {s : System} (h : s.Sound) (i : Nat) (now : Int) :
    ReportsOwn s (s.step u (.call i now)) (.call i now) ↔ Timely s (.call i now) := by
  constructor
  · intro hown w c rest hget hcalls hc hreported j hj hactive
    by_contra hne
    obtain ⟨hmem, hid⟩ := Table.get?_eq_some_iff.mp hj
    obtain ⟨k, hk, hident, -, -, hka⟩ := hown w c rest hget hcalls hc j hmem hne
    obtain ⟨state, error, result, -, heq⟩ := perform_terminal hc s.store w.jobId now
    simp only [step, hget, hcalls, heq, JobStore.terminate, hj] at hk
    rcases Table.mem_put.mp hk with rfl | ⟨hks, hkid⟩
    · rw [terminated_inactive (h.jobs.consistent j hmem), hactive] at hka
      exact Bool.false_ne_true hka
    · exact hkid (by rw [h.jobs.inj k hks j hmem hident, JobStore.terminated_jobId])
  · intro htimely w c rest hget hcalls hc j hj hne
    obtain ⟨state, error, result, -, heq⟩ := perform_terminal hc s.store w.jobId now
    simp only [step, hget, hcalls, heq, JobStore.terminate]
    cases hfound : s.store.get? w.jobId with
    | none => exact ⟨j, hj, rfl, rfl, rfl, rfl⟩
    | some k =>
        obtain ⟨hk, hkid⟩ := Table.get?_eq_some_iff.mp hfound
        by_cases hjk : j = k
        · subst hjk
          have hinactive := other_of_report h (List.mem_of_getElem? hget)
            (fun hr => htimely w c rest hget hcalls hc hr) hj hkid hne
          obtain ⟨hstate, hresult, hactive⟩ :=
            terminated_of_inactive (h.jobs.consistent j hj) hinactive state error result now
          exact ⟨_, Table.mem_put.mpr (.inl rfl), JobStore.terminated_ident .., hstate, hresult,
            hactive⟩
        · refine ⟨j, Table.mem_put.mpr (.inr ⟨hj, fun hid => hjk ?_⟩), rfl, rfl, rfl, rfl⟩
          rw [JobStore.terminated_jobId] at hid
          exact List.inj_on_of_nodup_map s.store.nodup hj hk hid

/-- The opening state of a job fits its worker's activity. -/
theorem consistent_opened (jobId : String) (r : Report) (ident : Nat) (now : Int) :
    Consistent (JobStore.start.opened jobId r ident now) :=
  ⟨fun _ => rfl, nofun⟩

/-- Starting keeps a system sound and is lawful. -/
theorem start_sound_lawful {u : Unicode} {s : System} (h : s.Sound) (work : Work) (jobId : String)
    (opening : Report) (progress : List Report) (ending : Ending) (now : Int) :
    (s.step u (.start work jobId opening progress ending now)).Sound ∧
      Lawful u s (.start work jobId opening progress ending now) := by
  rcases JobStore.start_cases s.store jobId { opening with stage := some work.firstStage }
    s.nextIdent now with hstart | ⟨hstart, hfree⟩
  · have hstep : s.step u (.start work jobId opening progress ending now) =
        { s with store := JobStore.prune s.store now } := by
      simp only [step, hstart]
    have hp : ∀ p, Passes p s.store (s.step u (.start work jobId opening progress ending now)).store :=
      fun p => hstep ▸ passes_prune p s.store now
    exact ⟨⟨h.jobs.passes (hp fun _ => True) (by rw [hstep]),
      h.workers.passes (hp _) (by rw [hstep]) (by rw [hstep])⟩, lawful_of_passes h.jobs
        (hp fun _ => True) trivial⟩
  · have hs := @Succeeds.start s.store (JobStore.start.opened jobId
      { opening with stage := some work.firstStage } s.nextIdent now) now hfree
    have hR : ∀ j k : Job, k = j → Becomes j k := fun j _ heq => heq ▸ .refl j
    have hstep : s.step u (.start work jobId opening progress ending now) = {
        store := (JobStore.prune s.store now).put (JobStore.start.opened jobId
          { opening with stage := some work.firstStage } s.nextIdent now)
        workers := s.workers ++ [⟨jobId, s.nextIdent,
          progress.map .update ++ work.reports u ending, false⟩]
        nextIdent := s.nextIdent + 1 } := by
      simp only [step, hstart]
      rfl
    have hstore : (s.step u (.start work jobId opening progress ending now)).store =
        (JobStore.prune s.store now).put (JobStore.start.opened jobId
          { opening with stage := some work.firstStage } s.nextIdent now) :=
      congrArg System.store hstep
    have hworkers := congrArg System.workers hstep
    have hident := congrArg System.nextIdent hstep
    simp only at hworkers hident
    rw [← hstore] at hs
    refine ⟨⟨h.jobs.succeeds hs hR (by omega) ?_, ⟨?_, ?_, ?_⟩⟩, ⟨?_, ?_, ?_, trivial⟩⟩
    · rintro k hk
      obtain rfl := Option.some.inj hk
      exact ⟨le_refl _, by rw [hident]; exact Nat.lt_succ_self _, consistent_opened ..⟩
    · rw [hworkers, hident]
      intro w hw
      rcases List.mem_append.mp hw with hw | hw
      · exact Nat.lt_succ_of_lt (h.workers.fresh w hw)
      · rw [List.mem_singleton.mp hw]
        exact Nat.lt_succ_self _
    · rw [hworkers, List.map_append, List.nodup_append]
      refine ⟨h.workers.apart, List.nodup_singleton _, fun a ha b hb => ?_⟩
      obtain ⟨w, hw, rfl⟩ := List.mem_map.mp ha
      rw [List.map_singleton, List.mem_singleton] at hb
      exact hb ▸ (h.workers.fresh w hw).ne
    · rw [hworkers]
      intro w hw hreported
      rcases List.mem_append.mp hw with hw | hw
      · exact owns_of_succeeds hs hR (fun j _ k hjk _ ha => hjk ▸ ha)
          (h.workers.owns w hw hreported)
      · rw [List.mem_singleton.mp hw]
        rw [hstore]
        exact ⟨_, Table.mem_put.mpr (.inl rfl), rfl, rfl, rfl⟩
    · exact fun j hj k hk _ _ hid => List.inj_on_of_nodup_map
        (s.step u (.start work jobId opening progress ending now)).store.nodup hj hk hid
    · exact activeStays_of_succeeds hs hR
    · exact terminalStays_of_succeeds h.jobs hs hR fun k hk => (Option.some.inj hk) ▸ le_refl _

/-- A call that comes in time keeps a system sound. -/
theorem call_sound {u : Unicode} {s : System} (h : s.Sound) {i : Nat} {now : Int}
    (htimely : Timely s (.call i now)) : (s.step u (.call i now)).Sound := by
  cases hget : s.workers[i]? with
  | none => simpa only [step, hget] using h
  | some w =>
      cases hcalls : w.calls with
      | nil => simpa only [step, hget, hcalls] using h
      | cons c rest =>
          have hw : w ∈ s.workers := List.mem_of_getElem? hget
          have hstep : s.step u (.call i now) = { s with
              store := c.perform s.store w.jobId now
              workers := s.workers.set i
                { w with calls := rest, reported := w.reported || c.terminal } } := by
            simp only [step, hget, hcalls]
          obtain ⟨R, hs, hR, hactive⟩ := passes_perform c s.store w.jobId now
          rw [hstep]
          set w' : Worker := { w with calls := rest, reported := w.reported || c.terminal } with hw'
          have hmap : (s.workers.set i w').map Worker.ident = s.workers.map Worker.ident := by
            obtain ⟨hi, hwi⟩ := List.getElem?_eq_some_iff.mp hget
            have hi' : i < (s.workers.map Worker.ident).length := by simpa using hi
            have hident : w'.ident = (s.workers.map Worker.ident)[i] := by
              rw [List.getElem_map, hwi]
            rw [List.map_set, hident, List.set_getElem_self]
          refine ⟨h.jobs.succeeds hs hR (le_refl _) nofun, ⟨?_, ?_, ?_⟩⟩
          · intro v hv
            rcases List.mem_or_eq_of_mem_set hv with hv | rfl
            · exact h.workers.fresh v hv
            · exact h.workers.fresh w hw
          · exact hmap ▸ h.workers.apart
          · intro v hv hreported
            have hw's : w' ∈ s.workers.set i w' := by
              obtain ⟨hi, -⟩ := List.getElem?_eq_some_iff.mp hget
              exact List.mem_set hi w'
            by_cases hvw : v.ident = w.ident
            · -- The caller itself: it has not reported, so its call was progress.
              obtain rfl : v = w' :=
                List.inj_on_of_nodup_map (hmap.symm ▸ h.workers.apart) hv hw's hvw
              rw [hw', Bool.or_eq_false_iff] at hreported
              refine owns_of_succeeds (t := { s with
                store := c.perform s.store w.jobId now, workers := s.workers.set i w' }) hs hR
                (w := w') (fun j _ k hjk _ ha => hactive j k hjk ?_ ha)
                (h.workers.owns w hw hreported.1)
              exact fun hterminal => absurd hterminal (by simp [hreported.2])
            · have hvs : v ∈ s.workers := by
                rcases List.mem_or_eq_of_mem_set hv with hv | rfl
                · exact hv
                · exact absurd rfl hvw
              refine owns_of_succeeds (t := { s with
                store := c.perform s.store w.jobId now, workers := s.workers.set i w' }) hs hR
                (w := v) (fun a has b hab hai ha => hactive a b hab (fun hterminal haid => ?_) ha)
                (h.workers.owns v hvs hreported)
              have hinactive := other_of_report h hw
                (fun hr => htimely w c rest hget hcalls hterminal hr) has haid (hai ▸ hvw)
              rw [hinactive] at ha
              exact Bool.false_ne_true ha

/-- A method that starts and ends no worker keeps a system sound and is lawful. -/
theorem passed_sound_lawful {u : Unicode} {s : System} (h : s.Sound) {a : Action}
    (hp : Passes (fun _ => True) s.store (s.step u a).store)
    (hrest : s.step u a = { s with store := (s.step u a).store })
    (hown : ReportsOwn s (s.step u a) a) : (s.step u a).Sound ∧ Lawful u s a := by
  refine ⟨⟨h.jobs.passes hp ?_, h.workers.passes hp ?_ ?_⟩, lawful_of_passes h.jobs hp hown⟩
  · rw [hrest]
  · rw [hrest]
  · rw [hrest]

/-- **The step lemma**: in a sound system a step is lawful exactly when it comes in time. -/
theorem lawful_iff_timely {u : Unicode} {s : System} (h : s.Sound) (a : Action) :
    Lawful u s a ↔ Timely s a := by
  cases a with
  | start work jobId opening progress ending now =>
      exact iff_of_true (start_sound_lawful h work jobId opening progress ending now).2 trivial
  | cancel jobId now =>
      exact iff_of_true (passed_sound_lawful (a := .cancel jobId now) h
        (passes_cancel _ _ jobId now) rfl trivial).2 trivial
  | get jobId now =>
      exact iff_of_true (passed_sound_lawful (a := .get jobId now) h
        (passes_prune _ _ now) rfl trivial).2 trivial
  | runningIds start now =>
      exact iff_of_true (passed_sound_lawful (a := .runningIds start now) h
        (passes_prune _ _ now) rfl trivial).2 trivial
  | call i now =>
      rw [← @reportsOwn_iff_timely u s h i now]
      refine ⟨Lawful.reportsOwn, fun hown => ?_⟩
      cases hget : s.workers[i]? with
      | none =>
          exact @lawful_of_passes u (fun _ => True) s (.call i now) h.jobs
            (by simpa only [step, hget] using passes_refl _ s.store) hown
      | some w =>
          cases hcalls : w.calls with
          | nil =>
              exact @lawful_of_passes u (fun _ => True) s (.call i now) h.jobs
                (by simpa only [step, hget, hcalls] using passes_refl _ s.store) hown
          | cons c rest =>
              exact lawful_of_passes h.jobs (by
                simpa only [step, hget, hcalls] using passes_perform c s.store w.jobId now) hown

/-- A step that comes in time keeps a system sound. -/
theorem Sound.step {u : Unicode} {s : System} (h : s.Sound) {a : Action} (ha : Timely s a) :
    (s.step u a).Sound := by
  cases a with
  | start work jobId opening progress ending now =>
      exact (start_sound_lawful h work jobId opening progress ending now).1
  | cancel jobId now =>
      exact (passed_sound_lawful (a := .cancel jobId now) h
        (passes_cancel _ _ jobId now) rfl trivial).1
  | get jobId now =>
      exact (passed_sound_lawful (a := .get jobId now) h (passes_prune _ _ now) rfl trivial).1
  | runningIds start now =>
      exact (passed_sound_lawful (a := .runningIds start now) h (passes_prune _ _ now) rfl
        trivial).1
  | call i now => exact call_sound h ha

theorem sound_empty : System.empty.Sound :=
  ⟨⟨fun _ ha => absurd ha List.not_mem_nil, fun _ ha => absurd ha List.not_mem_nil,
    fun _ ha => absurd ha List.not_mem_nil⟩, ⟨fun _ hw => absurd hw List.not_mem_nil,
      List.nodup_nil, fun _ hw => absurd hw List.not_mem_nil⟩⟩

end System

/-- **Job store safety** holds of every step of a run exactly when no worker that has reported its
end reports again while a later job of its id is active. -/
theorem jobStore_safe_iff (u : Unicode) (actions : List Action) :
    RunAllowed (System.Lawful u) (System.step u) System.empty actions ↔
      RunAllowed System.Timely (System.step u) System.empty actions :=
  @RunAllowed.congr _ _ _ _ _ System.Sound (fun _ a hs => System.lawful_iff_timely hs a)
    (fun _ _ hs ha => hs.step ha) _ System.sound_empty actions

/-- A download fails; its lane reports it, a client retries the id, and the task reports it again. -/
def retriedDownload : List Action :=
  [.start .modelDownload "dl-abcdef12" {} [] (.raised "offline") 0, .call 0 1,
    .start .modelDownload "dl-abcdef12" {} [] (.returned none) 2, .call 0 3]

/-- The second report fails the retry. -/
theorem retriedDownload_unsafe :
    ¬ RunAllowed (System.Lawful .ascii) (System.step .ascii) System.empty retriedDownload := by
  intro h
  have hown := h.2.2.2.1.reportsOwn
  have hbefore : ((retriedDownload.take 3).foldl (System.step .ascii) System.empty).store.entries.map
      (fun j => (j.ident, j.state)) = [(1, .running)] := by decide +kernel
  have hafter : (retriedDownload.foldl (System.step .ascii) System.empty).store.entries.map
      Job.state = [.failed] := by decide +kernel
  have hworker : ((((retriedDownload.take 3).foldl (System.step .ascii) System.empty).workers[0]?).map
      fun w => (w.ident, w.calls.map Call.terminal)) = some (0, [true]) := by decide +kernel
  obtain ⟨w, hw, hcalls⟩ := Option.map_eq_some_iff.mp hworker
  obtain ⟨hident, hcalls⟩ := Prod.mk.inj hcalls
  obtain ⟨c, hc, hterminal⟩ := List.map_eq_singleton_iff.mp hcalls
  obtain ⟨j, hj, hjs⟩ := List.map_eq_singleton_iff.mp hbefore
  obtain ⟨hjident, hjstate⟩ := Prod.mk.inj hjs
  obtain ⟨k, hk, -, hstate, -⟩ := hown w c [] hw hc hterminal j (hj ▸ List.mem_singleton_self j)
    (by rw [hident, hjident]; decide)
  have hfailed : k.state = .failed := by
    have hmem := List.mem_map_of_mem (f := Job.state) hk
    exact List.mem_singleton.mp (hafter ▸ hmem)
  rw [hfailed, hjstate] at hstate
  cases hstate

end Golavo.Jobs
