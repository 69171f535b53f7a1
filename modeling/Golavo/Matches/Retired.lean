import Golavo.Matches.Snapshots

/-! # No retired generation is served

A load publishes only in the epoch it captured its paths in, so the cached frame and its fingerprint
belong to the current paths and epoch. A value is memoized under the epoch of the snapshot it was
computed on and is published and returned only while that snapshot is current. A memo stays within
its bound as long as no value is published between the two statements of a `reset`. -/

namespace Golavo.Matches

open Golavo.Lib (Json Table Pool Outline Sound Reaches RunAllowed Move)
open Index (Captured)

variable {κ : Type}

/-! ## What holds of the shared state -/

/-- A snapshot pairs a frame with the fingerprint and the meta of the same path and epoch. -/
structure Snapshot.Coherent (snap : Snapshot) : Prop where
  indexPath : snap.frame.path = snap.fingerprint.indexPath
  metaPath : snap.fingerprint.metaPath = snap.metaPath
  frameEpoch : snap.frame.epoch = snap.epoch
  fingerprintEpoch : snap.fingerprint.epoch = snap.epoch

namespace Index

/-- The cached frame and its fingerprint belong to the current paths and epoch. -/
structure Coherent (st : Index κ) : Prop where
  together : st.cache = none ↔ st.fingerprint = none
  frame : ∀ f, st.cache = some f → f.path = st.paths.index ∧ f.epoch = st.epoch
  fingerprint : ∀ g, st.fingerprint = some g →
    g.indexPath = st.paths.index ∧ g.metaPath = st.paths.metaPath ∧ g.epoch = st.epoch

/-- What is memoized under an epoch was computed in it. -/
def Dated (st : Index κ) : Prop :=
  ∀ i, ∀ e ∈ (st.readers i).entries.entries, e.value.computedOn.epoch = e.key.epoch

/-- A memo holds only what its order lists, and its order is within the bound. -/
structure Bounded (st : Index κ) (i : Nat) : Prop where
  listed : ∀ e ∈ (st.readers i).entries.entries, e.key ∈ (st.readers i).order
  order : (st.readers i).order.length ≤ (st.readers i).maxEntries

theorem coherent_invalidate (st : Index κ) : st.invalidate.Coherent :=
  ⟨iff_of_true rfl rfl, fun _ h => absurd h.symm (Option.some_ne_none _),
    fun _ h => absurd h.symm (Option.some_ne_none _)⟩

/-- The snapshot of a coherent cache is coherent. -/
theorem Coherent.snapshotOf {st : Index κ} (h : st.Coherent) {f : Frame} {g : Fingerprint}
    (hf : st.cache = some f) (hg : st.fingerprint = some g) : (st.snapshotOf f g).Coherent where
  indexPath := (h.frame f hf).1.trans (h.fingerprint g hg).1.symm
  metaPath := (h.fingerprint g hg).2.1
  frameEpoch := (h.frame f hf).2
  fingerprintEpoch := (h.fingerprint g hg).2.2

/-- A current snapshot is of the current epoch. -/
theorem epoch_of_current {st : Index κ} {snap : Snapshot} (h : st.snapshotIsCurrent snap = true) :
    snap.epoch = st.epoch := by
  simp only [snapshotIsCurrent, Bool.and_eq_true, decide_eq_true_eq] at h
  exact h.1.1

theorem of_pathsAreCurrent {st : Index κ} {epoch : Nat} {indexPath metaPath : String}
    (h : st.pathsAreCurrent epoch indexPath metaPath = true) :
    epoch = st.epoch ∧ indexPath = st.paths.index ∧ metaPath = st.paths.metaPath := by
  simpa [pathsAreCurrent, and_assoc] using h

@[simp] theorem readers_setReader_self (st : Index κ) (i : Nat) (r : Reader κ) :
    (st.setReader i r).readers i = r := if_pos rfl

theorem readers_setReader_ne {i j : Nat} (h : j ≠ i) (st : Index κ) (r : Reader κ) :
    (st.setReader i r).readers j = st.readers j := if_neg h

theorem coherent_setReader {st : Index κ} (h : st.Coherent) (i : Nat) (r : Reader κ) :
    (st.setReader i r).Coherent := ⟨h.together, h.frame, h.fingerprint⟩

end Index

/-! ## What a memo keeps -/

section Keyed

variable [DecidableEq κ]

namespace Reader

/-- What eviction keeps of a memo is what the order still lists. -/
theorem evict_spec (maxEntries : Nat) (order : List (Key κ)) (entries : Table (Entry κ) Entry.key)
    (hlisted : ∀ e ∈ entries.entries, e.key ∈ order) :
    (∀ e ∈ (evict maxEntries order entries).2.entries,
        e ∈ entries.entries ∧ e.key ∈ (evict maxEntries order entries).1) ∧
      (evict maxEntries order entries).1.length ≤ maxEntries := by
  induction order generalizing entries with
  | nil => exact ⟨fun e he => ⟨he, hlisted e he⟩, Nat.zero_le _⟩
  | cons oldest rest ih =>
      unfold evict
      split_ifs with h
      · obtain ⟨hkeep, hlength⟩ := ih (entries.erase oldest) fun e he => by
          obtain ⟨hmem, hne⟩ := Table.mem_erase.mp he
          exact (List.mem_cons.mp (hlisted e hmem)).resolve_left hne
        exact ⟨fun e he => ⟨(Table.mem_erase.mp (hkeep e he).1).1, (hkeep e he).2⟩, hlength⟩
      · exact ⟨fun e he => ⟨he, hlisted e he⟩, by simpa using h⟩

/-- Eviction only drops entries. -/
theorem mem_of_mem_evict {maxEntries : Nat} {order : List (Key κ)}
    {entries : Table (Entry κ) Entry.key} {e : Entry κ}
    (h : e ∈ (evict maxEntries order entries).2.entries) : e ∈ entries.entries := by
  induction order generalizing entries with
  | nil => exact h
  | cons oldest rest ih =>
      unfold evict at h
      split_ifs at h with hmax
      · exact (Table.mem_erase.mp (ih h)).1
      · exact h

/-- A published entry is the new one or was there. -/
theorem mem_publish {r : Reader κ} {key : Key κ} {value : Value} {e : Entry κ}
    (h : e ∈ (r.publish key value).entries.entries) : e = ⟨key, value⟩ ∨ e ∈ r.entries.entries :=
  (Table.mem_put.mp (mem_of_mem_evict h)).imp_right And.left

end Reader

end Keyed

/-! ## What a thread relies on -/

/-- The remaining statements of some `reset`s, each reader's two in a row. -/
def Paired : List Clear → Prop
  | [] => True
  | .entries i :: .order j :: rest => i = j ∧ Paired rest
  | _ => False

/-- A `reset` between two readers, or between the two statements of one. -/
def Clearing (todo : List Clear) : Prop := Paired todo ∨ ∃ i rest, todo = .order i :: rest ∧ Paired rest

/-- What a load has read is of the paths and the epoch it captured. -/
def LoadStep.Sane : LoadStep → Prop
  | .discard => True
  | .clearing todo => Clearing todo
  | .capture => True
  | .readFrame c => c.cachedFrame = none
  | .failed _ _ => True
  | .fingerprint c frame _ => c.cachedFrame = none ∧ frame.path = c.indexPath ∧ frame.epoch = c.epoch
  | .publish c frame fp =>
      c.cachedFrame = none ∧ frame.path = c.indexPath ∧ frame.epoch = c.epoch ∧
        fp.indexPath = c.indexPath ∧ fp.metaPath = c.metaPath ∧ fp.epoch = c.epoch

/-- A read holds a coherent snapshot, and a value computed in its epoch. -/
def Task.Sane : Task κ → Prop
  | .load step _ _ _ => step.Sane
  | .lookup _ snap => snap.Coherent
  | .checkHit _ snap value => snap.Coherent ∧ value.computedOn.epoch = snap.epoch
  | .compute _ snap => snap.Coherent
  | .publish _ snap value => snap.Coherent ∧ value.computedOn.epoch = snap.epoch
  | .repoint _ => True
  | .reset => True
  | .clearing todo => Clearing todo

/-- The statement of a `reset` a thread comes to. -/
def Task.nextClear : Task κ → Option Clear
  | .load (.clearing todo) _ _ _ => todo.head?
  | .clearing todo => todo.head?
  | _ => none

/-- A returned snapshot is coherent, a returned value was computed in the epoch it is returned in. -/
def Reply.Current : Reply → Prop
  | .snapshot snap => snap.Coherent
  | .value v epoch => v.computedOn.epoch = epoch
  | _ => True

/-- Where a thread goes on, or what it answers, is sane. -/
def Outcome : Task κ ⊕ Reply → Prop
  | .inl next => next.Sane
  | .inr reply => reply.Current

theorem paired_flatMap (from_ : List Nat) :
    Paired (from_.flatMap fun i => [Clear.entries i, Clear.order i]) := by
  induction from_ with
  | nil => trivial
  | cons i rest ih => exact ⟨rfl, ih⟩

namespace Task

theorem outcome_deliver {snap : Snapshot} (h : snap.Coherent) (read : Option (ReadCall κ)) :
    Outcome (deliver snap read) := by
  cases read with
  | none => exact h
  | some r => exact h

theorem outcome_again (r : ReadCall κ) : Outcome (again r) := by
  unfold again
  split_ifs <;> trivial

/-- The statements of a `reset` go on to the next one. -/
theorem clearing_cons {c : Clear} {todo : List Clear} (h : Clearing (c :: todo)) :
    Clearing todo := by
  rcases h with h | ⟨i, rest, heq, h⟩
  · cases c with
    | order i => exact absurd h id
    | entries i =>
        cases todo with
        | nil => exact absurd h id
        | cons d rest =>
            cases d with
            | entries j => exact absurd h id
            | order j => exact .inr ⟨j, rest, rfl, h.2⟩
  · obtain ⟨-, rfl⟩ := List.cons.inj heq
    exact .inl h

theorem clearing_clearAll (st : Index κ) : Clearing (clearAll st) := .inl (paired_flatMap _)

/-- Clearing changes memos only. -/
theorem clear_eq (st : Index κ) (c : Clear) :
    (clear st c).paths = st.paths ∧ (clear st c).cache = st.cache ∧
      (clear st c).fingerprint = st.fingerprint ∧ (clear st c).epoch = st.epoch := by
  cases c with
  | entries i => exact ⟨rfl, rfl, rfl, rfl⟩
  | order i => exact ⟨rfl, rfl, rfl, rfl⟩

theorem coherent_clear {st : Index κ} (h : st.Coherent) (c : Clear) : (clear st c).Coherent := by
  cases c with
  | entries i => exact Index.coherent_setReader h i _
  | order i => exact Index.coherent_setReader h i _

/-- **A step of a load** keeps the cache coherent and goes on sanely. -/
theorem actLoad_sound {st : Index κ} (h : st.Coherent) {step : LoadStep} (hstep : step.Sane)
    (tries : Nat) (files : Nat → Index.FileRead) (read : Option (ReadCall κ)) :
    (actLoad step tries files read st).1.Coherent ∧ Outcome (actLoad step tries files read st).2 := by
  cases step with
  | discard =>
      simp only [actLoad]
      split_ifs
      · exact ⟨h, trivial⟩
      · exact ⟨Index.coherent_invalidate st, clearing_clearAll st⟩
  | clearing todo =>
      cases todo with
      | nil => exact ⟨h, trivial⟩
      | cons c todo => exact ⟨coherent_clear h c, clearing_cons hstep⟩
  | capture =>
      unfold actLoad
      cases hcache : st.cache with
      | none => exact ⟨h, rfl⟩
      | some f =>
          cases hfp : st.fingerprint with
          | none => exact absurd (h.together.mpr hfp) (by simp [hcache])
          | some g => exact ⟨h, outcome_deliver (h.snapshotOf hcache hfp) read⟩
  | readFrame c =>
      have hc : c.cachedFrame = none := hstep
      unfold actLoad
      simp only [hc]
      cases files tries with
      | missing => exact ⟨h, trivial⟩
      | unreadable error => exact ⟨h, trivial⟩
      | readable text => exact ⟨⟨h.together, h.frame, h.fingerprint⟩, hc, rfl, rfl⟩
  | failed c error =>
      simp only [actLoad]
      split_ifs <;> exact ⟨h, trivial⟩
  | fingerprint c frame text =>
      obtain ⟨hc, hpath, hepoch⟩ := hstep
      exact ⟨h, hc, hpath, hepoch, rfl, rfl, rfl⟩
  | publish c frame fp =>
      obtain ⟨hc, hpath, hepoch, hindex, hmeta, hfpEpoch⟩ := hstep
      unfold actLoad
      simp only
      split_ifs with hcurrent hnone hsame
      · -- The first load of the epoch publishes its frame.
        obtain ⟨hce, hci, hcm⟩ := Index.of_pathsAreCurrent hcurrent
        have hcoherent : Index.Coherent { st with
            cache := some frame, fingerprint := some fp,
            cachePaths := some (c.indexPath, c.metaPath) } := by
          refine ⟨by simp, fun f hf => ?_, fun g hg => ?_⟩
          · obtain rfl := Option.some.inj hf
            exact ⟨hpath.trans hci, hepoch.trans hce⟩
          · obtain rfl := Option.some.inj hg
            exact ⟨hindex.trans hci, hmeta.trans hcm, hfpEpoch.trans hce⟩
        exact ⟨hcoherent, outcome_deliver (hcoherent.snapshotOf rfl rfl) read⟩
      · exact absurd (h.together.mpr hsame.2) hnone
      · -- Another load won: its frame is served.
        cases hcache : st.cache with
        | none => exact absurd hcache hnone
        | some f =>
            cases hfp : st.fingerprint with
            | none => exact absurd (h.together.mpr hfp) hnone
            | some g => exact ⟨h, outcome_deliver (h.snapshotOf hcache hfp) read⟩
      · exact ⟨h, trivial⟩

/-- A step of a load leaves the memos, but for the statements of a `reset`. -/
theorem readers_actLoad (st : Index κ) (step : LoadStep) (tries : Nat)
    (files : Nat → Index.FileRead) (read : Option (ReadCall κ)) :
    (actLoad step tries files read st).1.readers = st.readers ∨
      ∃ c todo, step = .clearing (c :: todo) ∧
        (actLoad step tries files read st).1 = clear st c := by
  cases step with
  | discard =>
      simp only [actLoad]
      split_ifs <;> exact .inl rfl
  | clearing todo =>
      cases todo with
      | nil => exact .inl rfl
      | cons c todo => exact .inr ⟨c, todo, rfl, rfl⟩
  | capture =>
      simp only [actLoad]
      split <;> exact .inl rfl
  | readFrame c =>
      simp only [actLoad]
      split <;> exact .inl rfl
  | failed c error =>
      simp only [actLoad]
      split_ifs <;> exact .inl rfl
  | fingerprint c frame text => exact .inl rfl
  | publish c frame fp =>
      unfold actLoad
      simp only
      split_ifs
      · exact .inl rfl
      · split <;> exact .inl rfl
      · split <;> exact .inl rfl
      · exact .inl rfl

/-- Clearing only drops memoized values. -/
theorem mem_clear {st : Index κ} {c : Clear} {i : Nat} {e : Entry κ}
    (h : e ∈ ((clear st c).readers i).entries.entries) : e ∈ (st.readers i).entries.entries := by
  cases c with
  | entries j =>
      by_cases hij : i = j
      · simp only [clear, hij, Index.readers_setReader_self] at h
        exact absurd h List.not_mem_nil
      · simpa only [clear, Index.readers_setReader_ne hij] using h
  | order j =>
      by_cases hij : i = j
      · simpa only [clear, hij, Index.readers_setReader_self] using h
      · simpa only [clear, Index.readers_setReader_ne hij] using h

section Keyed

variable [DecidableEq κ]

/-- **What a step does to the memos**: nothing, one statement of a `reset`, or one publication on a
current snapshot. -/
theorem act_readers (p : Task κ) (st : Index κ) :
    (act p st).1.readers = st.readers ∨
      (∃ c, p.nextClear = some c ∧ (act p st).1 = clear st c) ∨
      ∃ r snap v, p = .publish r snap v ∧ st.snapshotIsCurrent snap = true ∧ (act p st).1 =
        st.setReader r.reader ((st.readers r.reader).publish (fullKey r snap) v) := by
  cases p with
  | load step tries files read =>
      rcases readers_actLoad st step tries files read with h | ⟨c, todo, rfl, h⟩
      · exact .inl h
      · exact .inr (.inl ⟨c, rfl, h⟩)
  | lookup r snap =>
      simp only [act]
      split
      · split_ifs <;> exact .inl rfl
      · exact .inl rfl
  | checkHit r snap value =>
      simp only [act]
      split_ifs <;> exact .inl rfl
  | compute r snap =>
      simp only [act]
      split <;> exact .inl rfl
  | publish r snap value =>
      simp only [act]
      split_ifs with hcurrent
      · exact .inr (.inr ⟨r, snap, value, rfl, hcurrent, rfl⟩)
      · exact .inl rfl
  | repoint paths => exact .inl rfl
  | reset => exact .inl rfl
  | clearing todo =>
      cases todo with
      | nil => exact .inl rfl
      | cons c todo => exact .inr (.inl ⟨c, rfl, rfl⟩)

/-- **What is memoized in a step** was computed on a snapshot of the epoch the step is taken in. -/
theorem memoized_current {p : Task κ} {st : Index κ} (hp : p.Sane) {i : Nat} {e : Entry κ}
    (h : e ∈ ((act p st).1.readers i).entries.entries) :
    e ∈ (st.readers i).entries.entries ∨
      (e.value.computedOn.epoch = st.epoch ∧ e.key.epoch = st.epoch) := by
  rcases act_readers p st with heq | ⟨c, -, heq⟩ | ⟨r, snap, v, rfl, hcurrent, heq⟩
  · exact .inl (heq ▸ h)
  · rw [heq] at h
    exact .inl (mem_clear h)
  · rw [heq] at h
    by_cases hir : i = r.reader
    · rw [hir, Index.readers_setReader_self] at h
      rcases Reader.mem_publish h with rfl | h
      · have hepoch := Index.epoch_of_current hcurrent
        exact .inr ⟨hp.2.trans hepoch, hepoch⟩
      · exact .inl (hir ▸ h)
    · rw [Index.readers_setReader_ne hir] at h
      exact .inl h

/-- **A step of a thread** keeps the cache coherent and the memos dated, and goes on sanely. -/
theorem act_sound {p : Task κ} {st : Index κ} (h : st.Coherent) (hdated : st.Dated) (hp : p.Sane) :
    (act p st).1.Coherent ∧ (act p st).1.Dated ∧ Outcome (act p st).2 := by
  have hdated' : (act p st).1.Dated := by
    intro i e he
    rcases memoized_current hp he with he | ⟨hvalue, hkey⟩
    · exact hdated i e he
    · exact hvalue.trans hkey.symm
  suffices hrest : (act p st).1.Coherent ∧ Outcome (act p st).2 from ⟨hrest.1, hdated', hrest.2⟩
  cases p with
  | load step tries files read => exact actLoad_sound h hp tries files read
  | lookup r snap =>
      simp only [act]
      split
      · rename_i entry hget
        obtain ⟨hmem, hkey⟩ := Table.get?_eq_some_iff.mp hget
        split_ifs
        · exact ⟨h, hp⟩
        · exact ⟨h, hp, (hdated _ _ hmem).trans (congrArg Key.epoch hkey)⟩
      · exact ⟨h, hp⟩
  | checkHit r snap value =>
      simp only [act]
      split_ifs with hcurrent
      · exact ⟨h, hp.2.trans (Index.epoch_of_current hcurrent)⟩
      · exact ⟨h, outcome_again r⟩
  | compute r snap =>
      simp only [act]
      split
      · exact ⟨h, hp, rfl⟩
      · exact ⟨h, outcome_again r⟩
      · exact ⟨h, trivial⟩
  | publish r snap value =>
      simp only [act]
      split_ifs with hcurrent
      · exact ⟨Index.coherent_setReader h _ _, hp.2.trans (Index.epoch_of_current hcurrent)⟩
      · exact ⟨h, outcome_again r⟩
  | repoint paths => exact ⟨Index.coherent_invalidate _, clearing_clearAll st⟩
  | reset => exact ⟨Index.coherent_invalidate st, clearing_clearAll st⟩
  | clearing todo =>
      cases todo with
      | nil => exact ⟨h, trivial⟩
      | cons c todo => exact ⟨coherent_clear h c, clearing_cons hp⟩

end Keyed

end Task

/-! ## Runs -/

/-- A thread that has just been started. -/
def Task.Begins : Task κ → Prop
  | .load .discard 0 files (some r) => r.attempt = 0 ∧ files = r.files 0
  | .load .discard 0 _ none => True
  | .repoint _ => True
  | .reset => True
  | _ => False

theorem Task.Begins.sane {p : Task κ} (h : p.Begins) : p.Sane := by
  unfold Task.Begins at h
  split at h
  · trivial
  · trivial
  · trivial
  · trivial
  · exact absurd h id

/-- A process without a cached frame, and with empty memos. -/
structure Started (s : Threads κ) : Prop where
  cache : s.store.cache = none
  fingerprint : s.store.fingerprint = none
  entries : ∀ i, (s.store.readers i).entries.entries = []
  order : ∀ i, (s.store.readers i).order = []
  waiting : s.waiting = []
  replies : s.replies = []

/-- Threads start and take steps in any order. -/
def Anyhow (_ : Threads κ) : Move (Task κ) → Prop
  | .arrive p => p.Begins
  | .advance _ => True

/-- Threads start and take steps in any order, but none publishes to a memo another is between the
two statements of clearing. -/
def Undivided (s : Threads κ) : Move (Task κ) → Prop
  | .arrive p => p.Begins
  | .advance i => ∀ r snap v, s.waiting[i]? = some (.publish r snap v) →
      s.store.snapshotIsCurrent snap = true →
        ∀ q ∈ s.waiting, q.nextClear ≠ some (.order r.reader)

/-- What is served of the generations in a state and in its next step. -/
structure ServesCurrent [DecidableEq κ] (s : Threads κ) : Prop where
  /-- Every returned snapshot is of one path and one epoch. -/
  snapshots : ∀ snap, .snapshot snap ∈ s.replies → snap.Coherent
  /-- Every returned value was computed in the epoch it was returned in. -/
  values : ∀ v epoch, .value v epoch ∈ s.replies → v.computedOn.epoch = epoch
  /-- What the next step memoizes was computed in the current epoch. -/
  publications : ∀ (m : Move (Task κ)) (i : Nat),
    ∀ e ∈ ((s.move Task.act m).store.readers i).entries.entries,
      e ∈ (s.store.readers i).entries.entries ∨ e.value.computedOn.epoch = s.store.epoch

/-! ## Between two statements of a `reset` -/

/-- What remains of `reset`s with both statements of each does not start with a second one. -/
theorem head_of_paired {todo : List Clear} (h : Paired todo) (i : Nat) :
    todo.head? ≠ some (.order i) := by
  cases todo with
  | nil => exact fun heq => nomatch heq
  | cons c rest =>
      cases c with
      | entries j => exact fun heq => nomatch heq
      | order j => exact absurd h id

/-- A second statement comes after the first one of the same reader. -/
theorem head_of_clearing_cons {c : Clear} {todo : List Clear} {i : Nat}
    (h : Clearing (c :: todo)) (hhead : todo.head? = some (.order i)) : c = .entries i := by
  rcases h with h | ⟨j, rest, heq, h⟩
  · cases c with
    | order j => exact absurd h id
    | entries j =>
        cases todo with
        | nil => exact absurd hhead (fun heq => nomatch heq)
        | cons d rest =>
            cases d with
            | entries k => exact absurd h id
            | order k =>
                obtain rfl : k = i := by simpa using hhead
                exact congrArg Clear.entries h.1
  · obtain ⟨-, rfl⟩ := List.cons.inj heq
    exact absurd hhead (head_of_paired h i)

theorem nextClear_again {r : ReadCall κ} {next : Task κ} {i : Nat}
    (h : Task.again r = .inl next) (hnext : next.nextClear = some (.order i)) : False := by
  unfold Task.again at h
  split_ifs at h
  cases h
  cases hnext

/-- A load comes to the second statement of a `reset` after the first. -/
theorem nextClear_actLoad {next : Task κ} {st : Index κ} {step : LoadStep} (hstep : step.Sane) {tries : Nat}
    {files : Nat → Index.FileRead} {read : Option (ReadCall κ)} {i : Nat}
    (h : (Task.actLoad step tries files read st).2 = .inl next)
    (hnext : next.nextClear = some (.order i)) :
    (Task.actLoad step tries files read st).1 = Task.clear st (.entries i) := by
  have hdeliver : ∀ snap, Task.deliver snap read = .inl next → False := by
    intro snap heq
    cases read with
    | none => cases heq
    | some r =>
        cases heq
        cases hnext
  cases step with
  | discard =>
      simp only [Task.actLoad] at h
      split_ifs at h
      · cases h
        cases hnext
      · cases h
        exact absurd hnext (head_of_paired (paired_flatMap _) i)
  | clearing todo =>
      cases todo with
      | nil =>
          cases h
          cases hnext
      | cons c todo =>
          cases h
          exact congrArg (Task.clear st) (head_of_clearing_cons hstep hnext)
  | capture =>
      simp only [Task.actLoad] at h
      split at h
      · exact absurd h (hdeliver _)
      · cases h
        cases hnext
  | readFrame c =>
      simp only [Task.actLoad] at h
      split at h <;> cases h <;> cases hnext
  | failed c error =>
      simp only [Task.actLoad] at h
      split_ifs at h
      cases h
      cases hnext
  | fingerprint c frame text =>
      cases h
      cases hnext
  | publish c frame fp =>
      simp only [Task.actLoad] at h
      split_ifs at h
      · exact absurd h (hdeliver _)
      · split at h
        · exact absurd h (hdeliver _)
        · cases h
      · split at h
        · exact absurd h (hdeliver _)
        · cases h
      · cases h
        cases hnext

section Steps

variable [DecidableEq κ] {p next : Task κ} {st : Index κ}

/-- A thread comes to the second statement of a `reset` after the first. -/
theorem nextClear_act (hp : p.Sane) {i : Nat} (h : (Task.act p st).2 = .inl next)
    (hnext : next.nextClear = some (.order i)) :
    (Task.act p st).1 = Task.clear st (.entries i) := by
  cases p with
  | load step tries files read => exact nextClear_actLoad hp h hnext
  | lookup r snap =>
      simp only [Task.act] at h
      split at h
      · split_ifs at h <;> cases h <;> cases hnext
      · cases h
        cases hnext
  | checkHit r snap value =>
      simp only [Task.act] at h
      split_ifs at h
      exact absurd hnext fun hn => nextClear_again h hn
  | compute r snap =>
      simp only [Task.act] at h
      split at h
      · cases h
        cases hnext
      · exact absurd hnext fun hn => nextClear_again h hn
      · cases h
  | publish r snap value =>
      simp only [Task.act] at h
      split_ifs at h
      exact absurd hnext fun hn => nextClear_again h hn
  | repoint paths =>
      cases h
      exact absurd hnext (head_of_paired (paired_flatMap _) i)
  | reset =>
      cases h
      exact absurd hnext (head_of_paired (paired_flatMap _) i)
  | clearing todo =>
      cases todo with
      | nil => cases h
      | cons c todo =>
          cases h
          exact congrArg (Task.clear st) (head_of_clearing_cons hp hnext)

/-- **A step keeps every memo within its bound**, when a reader's order is cleared only while its
memo is empty. -/
theorem bounded_act (hb : ∀ i, st.Bounded i) (hclear : ∀ i, p.nextClear = some (.order i) →
      (st.readers i).entries.entries = []) (i : Nat) : (Task.act p st).1.Bounded i := by
  rcases Task.act_readers p st with heq | ⟨c, hc, heq⟩ | ⟨r, snap, v, -, -, heq⟩
  · exact ⟨heq ▸ (hb i).listed, heq ▸ (hb i).order⟩
  · rw [heq]
    cases c with
    | entries j =>
        by_cases hij : i = j
        · subst hij
          refine ⟨fun e he => ?_, ?_⟩
          · simp only [Task.clear, Index.readers_setReader_self] at he
            exact absurd he List.not_mem_nil
          · simpa only [Task.clear, Index.readers_setReader_self] using (hb i).order
        · exact ⟨by simpa only [Task.clear, Index.readers_setReader_ne hij] using (hb i).listed,
            by simpa only [Task.clear, Index.readers_setReader_ne hij] using (hb i).order⟩
    | order j =>
        by_cases hij : i = j
        · subst hij
          refine ⟨fun e he => ?_, ?_⟩
          · simp only [Task.clear, Index.readers_setReader_self, hclear i hc] at he
            exact absurd he List.not_mem_nil
          · simp only [Task.clear, Index.readers_setReader_self, List.length_nil]
            exact Nat.zero_le _
        · exact ⟨by simpa only [Task.clear, Index.readers_setReader_ne hij] using (hb i).listed,
            by simpa only [Task.clear, Index.readers_setReader_ne hij] using (hb i).order⟩
  · rw [heq]
    by_cases hir : i = r.reader
    · subst hir
      have hspec := Reader.evict_spec (st.readers r.reader).maxEntries
        ((st.readers r.reader).order ++ [Task.fullKey r snap])
        ((st.readers r.reader).entries.put ⟨Task.fullKey r snap, v⟩) fun e he => by
          rcases Table.mem_put.mp he with rfl | ⟨he, -⟩
          · exact List.mem_append_right _ (List.mem_singleton_self _)
          · exact List.mem_append_left _ ((hb r.reader).listed e he)
      refine ⟨fun e he => ?_, ?_⟩
      · rw [Index.readers_setReader_self] at he ⊢
        exact (hspec.1 e he).2
      · rw [Index.readers_setReader_self]
        exact hspec.2
    · exact ⟨by simpa only [Index.readers_setReader_ne hir] using (hb i).listed,
        by simpa only [Index.readers_setReader_ne hir] using (hb i).order⟩

/-- An empty memo stays empty, unless a value is published to it. -/
theorem empty_act {i : Nat} (hempty : (st.readers i).entries.entries = [])
    (hpublish : ∀ r snap v, p = .publish r snap v → st.snapshotIsCurrent snap = true →
      r.reader ≠ i) : ((Task.act p st).1.readers i).entries.entries = [] := by
  rcases Task.act_readers p st with heq | ⟨c, -, heq⟩ | ⟨r, snap, v, rfl, hcurrent, heq⟩
  · rw [heq, hempty]
  · refine List.eq_nil_iff_forall_not_mem.mpr fun e he => ?_
    rw [heq] at he
    have := Task.mem_clear he
    rw [hempty] at this
    exact List.not_mem_nil this
  · rw [heq, Index.readers_setReader_ne (hpublish r snap v rfl hcurrent).symm, hempty]

end Steps

/-! ## What every run keeps -/

/-- A memo whose order is within the bound is. -/
theorem length_le_of_bounded {st : Index κ} {i : Nat} (h : st.Bounded i) :
    (st.readers i).entries.entries.length ≤ (st.readers i).maxEntries := by
  have hsubset : (st.readers i).entries.entries.map Entry.key ⊆ (st.readers i).order := by
    intro k hk
    obtain ⟨e, he, rfl⟩ := List.mem_map.mp hk
    exact h.listed e he
  calc (st.readers i).entries.entries.length
      = ((st.readers i).entries.entries.map Entry.key).length := (List.length_map _).symm
    _ ≤ (st.readers i).order.length :=
        (List.Nodup.subperm (st.readers i).entries.nodup hsubset).length_le
    _ ≤ (st.readers i).maxEntries := h.order

section Runs

variable {s : Threads κ}

theorem started_sound (h : Started s) : Sound
    (fun (st : Index κ) replies => st.Coherent ∧ st.Dated ∧ ∀ reply ∈ replies, reply.Current)
    (fun p _ _ => p.Sane) (fun _ _ => True) s where
  inv := by
    refine ⟨⟨iff_of_true h.cache h.fingerprint, fun f hf => ?_, fun g hg => ?_⟩, fun i e he => ?_,
      fun r hr => ?_⟩
    · exact absurd (hf.symm.trans h.cache) (Option.some_ne_none f)
    · exact absurd (hg.symm.trans h.fingerprint) (Option.some_ne_none g)
    · rw [h.entries i] at he
      exact absurd he List.not_mem_nil
    · rw [h.replies] at hr
      exact absurd hr List.not_mem_nil
  here := by
    rw [h.waiting]
    exact fun p hp => absurd hp List.not_mem_nil
  apart := by
    rw [h.waiting]
    exact List.Pairwise.nil

variable [DecidableEq κ]

/-- What the threads keep and rely on. -/
theorem serving_outline : Outline (Task.act (κ := κ)) (fun _ _ => True)
    (fun st replies => st.Coherent ∧ st.Dated ∧ ∀ reply ∈ replies, reply.Current)
    (fun p _ _ => p.Sane) (fun _ _ => True) where
  symm := id
  goes := by
    rintro p st replies next ⟨hcoherent, hdated, hreplies⟩ hp - hnext
    obtain ⟨hc, hd, houtcome⟩ := Task.act_sound hcoherent hdated hp
    rw [hnext] at houtcome
    exact ⟨⟨hc, hd, hreplies⟩, houtcome, id⟩
  answers := by
    rintro p st replies reply ⟨hcoherent, hdated, hreplies⟩ hp - hreply
    obtain ⟨hc, hd, houtcome⟩ := Task.act_sound hcoherent hdated hp
    rw [hreply] at houtcome
    refine ⟨hc, hd, fun x hx => ?_⟩
    rcases List.mem_append.mp hx with hx | hx
    · exact hreplies x hx
    · exact List.mem_singleton.mp hx ▸ houtcome
  keeps := fun _ _ _ hq _ => hq

/-- **No retired generation is served**, in any interleaving. -/
theorem served_current (h : Reaches Started Anyhow (Pool.move Task.act) s) : ServesCurrent s := by
  have hsound := serving_outline.sound (fun _ => started_sound)
    (fun s p _ hp => ⟨Task.Begins.sane hp, fun _ _ => trivial⟩) (fun _ _ _ _ _ _ => trivial) h
  obtain ⟨hcoherent, hdated, hreplies⟩ := hsound.inv
  refine ⟨fun snap hsnap => hreplies _ hsnap, fun v epoch hv => hreplies _ hv, fun m i e he => ?_⟩
  rcases Pool.store_move Task.act s m with hsame | ⟨p, hp, hstore⟩
  · exact .inl (hsame ▸ he)
  · rw [hstore] at he
    exact (Task.memoized_current (hsound.here p hp) he).imp_right And.left

/-- What the threads keep of the memos: each is within its bound, and empty while one of them is
between the two statements of its `reset`. -/
structure Orderly (s : Threads κ) : Prop where
  coherent : s.store.Coherent
  dated : s.store.Dated
  bounded : ∀ i, s.store.Bounded i
  sane : ∀ p ∈ s.waiting, p.Sane
  midClear : ∀ p ∈ s.waiting, ∀ i, p.nextClear = some (.order i) →
    (s.store.readers i).entries.entries = []

/-- A thread that is started leaves the memos orderly. -/
theorem Orderly.arrive (h : Orderly s) {p : Task κ} (hp : p.Begins) :
    Orderly (s.move Task.act (.arrive p)) where
  coherent := h.coherent
  dated := h.dated
  bounded := h.bounded
  sane := by
    intro q hq
    rcases List.mem_append.mp hq with hq | hq
    · exact h.sane q hq
    · exact List.mem_singleton.mp hq ▸ hp.sane
  midClear := by
    intro q hq i hi
    rcases List.mem_append.mp hq with hq | hq
    · exact h.midClear q hq i hi
    · rw [List.mem_singleton.mp hq] at hi
      unfold Task.Begins at hp
      split at hp
      · cases hi
      · cases hi
      · cases hi
      · cases hi
      · exact absurd hp id

/-- A step leaves the memos orderly, when it does not publish between two statements of clearing. -/
theorem Orderly.advance (h : Orderly s) {i : Nat} (hfits : Undivided s (.advance i)) :
    Orderly (s.move Task.act (.advance i)) := by
  rcases Pool.advance_cases Task.act s i with ⟨-, hmove⟩ | ⟨pre, p, post, hget, hwaiting, hcase⟩
  · rw [hmove]
    exact h
  · have hp : p ∈ s.waiting := List.mem_of_getElem? hget
    obtain ⟨hcoherent, hdated, houtcome⟩ := Task.act_sound h.coherent h.dated (h.sane p hp)
    have hbounded := bounded_act h.bounded (h.midClear p hp)
    have hothers : ∀ q ∈ pre ++ post, q ∈ s.waiting := by
      intro q hq
      rw [hwaiting]
      exact List.mem_append.mpr ((List.mem_append.mp hq).imp id (List.mem_cons_of_mem _))
    have hmid : ∀ q ∈ pre ++ post, ∀ j, q.nextClear = some (.order j) →
        ((Task.act p s.store).1.readers j).entries.entries = [] := by
      intro q hq j hj
      refine empty_act (h.midClear q (hothers q hq) j hj) fun r snap v hpublish hcurrent heq => ?_
      exact hfits r snap v (hpublish ▸ hget) hcurrent q (hothers q hq) (heq ▸ hj)
    rcases hcase with ⟨next, hnext, hmove⟩ | ⟨reply, -, hmove⟩
    · rw [hnext] at houtcome
      have hsplit : ∀ q ∈ pre ++ next :: post, q = next ∨ q ∈ pre ++ post := by
        intro q hq
        rcases List.mem_append.mp hq with hq | hq
        · exact .inr (List.mem_append_left _ hq)
        · exact (List.mem_cons.mp hq).imp_right (List.mem_append_right _)
      rw [hmove]
      refine ⟨hcoherent, hdated, hbounded, fun q hq => ?_, fun q hq j hj => ?_⟩
      · rcases hsplit q hq with rfl | hq
        · exact houtcome
        · exact h.sane q (hothers q hq)
      · rcases hsplit q hq with rfl | hq
        · show ((Task.act p s.store).1.readers j).entries.entries = []
          rw [nextClear_act (h.sane p hp) hnext hj]
          simp only [Task.clear, Index.readers_setReader_self]
          rfl
        · exact hmid q hq j hj
    · rw [hmove]
      exact ⟨hcoherent, hdated, hbounded, fun q hq => h.sane q (hothers q hq), hmid⟩

/-- Memos that start empty stay orderly while no value is published between two statements of
clearing. -/
theorem orderly_of_undivided (h : Reaches Started Undivided (Pool.move Task.act) s) :
    Orderly s := by
  refine h.invariant (fun s hs => ?_) fun s m hs hm => ?_
  · obtain ⟨hcoherent, hdated, -⟩ := (started_sound hs).inv
    refine ⟨hcoherent, hdated, fun i => ⟨fun e he => ?_, ?_⟩, fun p hp => ?_, fun p hp => ?_⟩
    · rw [hs.entries i] at he
      exact absurd he List.not_mem_nil
    · rw [hs.order i]
      exact Nat.zero_le _
    · rw [hs.waiting] at hp
      exact absurd hp List.not_mem_nil
    · rw [hs.waiting] at hp
      exact absurd hp List.not_mem_nil
  · cases m with
    | arrive p => exact hs.arrive hm
    | advance i => exact hs.advance hm

end Runs

/-! ## A memo that outgrows its bound -/

/-- A process with one reader, which memoizes one value. -/
def oneEntry : Threads Nat := .of {
  paths := ⟨"index", "meta", "goalscorers", "shootouts", "aliases"⟩
  cache := none
  fingerprint := none
  cachePaths := none
  epoch := 0
  frames := 0
  readers := fun _ => ⟨1, false, .empty, []⟩
  registered := 1 }

theorem started_oneEntry : Started oneEntry :=
  ⟨rfl, rfl, fun _ => rfl, fun _ => rfl, rfl, rfl⟩

/-- A read of a competition. -/
def readOf (competition : Nat) : Task Nat :=
  .read ⟨0, fun _ => competition, fun _ => .result (.bool true), fun _ _ => .readable "f0", 0⟩

/-- A reset clears the entries, a read publishes, the reset clears the order, another read
publishes. -/
def dividedReset : List (Move (Task Nat)) :=
  [.arrive .reset, .advance 0, .advance 0, .arrive (readOf 1)] ++ List.replicate 8 (.advance 1) ++
    [.advance 0, .arrive (readOf 2)] ++ List.replicate 5 (.advance 1)

theorem reaches_dividedReset : Reaches Started Anyhow (Pool.move Task.act)
    (dividedReset.foldl (Pool.move Task.act) oneEntry) := by
  have hallowed : ∀ m ∈ dividedReset, ∀ s : Threads Nat, Anyhow s m := by
    simp [dividedReset, Anyhow, Task.Begins, readOf, Task.read]
  have hrun : ∀ ms : List (Move (Task Nat)), (∀ m ∈ ms, ∀ s : Threads Nat, Anyhow s m) →
      ∀ s, RunAllowed Anyhow (Pool.move Task.act) s ms := by
    intro ms hms
    induction ms with
    | nil => exact fun _ => trivial
    | cons m rest ih =>
        exact fun s => ⟨hms m List.mem_cons_self s,
          ih (fun n hn => hms n (List.mem_cons_of_mem _ hn)) _⟩
  exact Reaches.run (.start started_oneEntry) (hrun dividedReset hallowed oneEntry)

end Golavo.Matches
