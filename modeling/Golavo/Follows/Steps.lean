import Golavo.Follows.Reconcile
import Golavo.Lib.Runs

/-! # Runs of the follow store

Any sequence of operations from an empty store. Every store reached keeps its keys: subscription ids
are unique, and no two active subscriptions point at one match. -/

namespace Golavo.Follows

open Golavo.Lib (Reaches bind_ok_iff failIf_ok_iff orFail_ok_iff)
open Golavo.Ledger (Runtime)

/-- An operation on the follow store. -/
inductive FollowStep where
  | follow (req : FollowRequest)
  | unfollow (followId : String) (now : Int)
  | reconcile (req : ReconcileRequest)
  | settlements (order : ScanOrder) (scored : List SettledItem) (checkedAtUtc : Option String)
      (now : Int)
  | sourceRevisions (order : ScanOrder) (selected : List String) (sources : SourceTable) (now : Int)
  | conflicts (details : List ConflictDetail) (sources : SourceTable) (now : Int)
  | updateSettings (optIn : Bool)
  | markRead (eventIds : List String) (allEvents : Bool) (now : Int)
  | claimNotifications (limit : Nat) (batchId : String) (now : Int)
  | updateNotification (eventId : String) (status : NotificationStatus) (error : Option String)
      (now : Int)
  | removeHistory

/-- The store a transaction leaves: what it committed, or what was there. -/
def committed (db : FollowDb) : Except FollowFailure FollowDb → FollowDb
  | .ok next => next
  | .error _ => db

/-- The store a step leaves. -/
def FollowStep.run (rt : Runtime) (db : FollowDb) : FollowStep → FollowDb
  | .follow req => committed db ((followMatch rt db req).map Prod.fst)
  | .unfollow followId now => committed db (Follows.unfollow rt db followId now)
  | .reconcile req => committed db (Follows.reconcile rt db req)
  | .settlements order scored checkedAtUtc now =>
      recordSettlementReport rt db order scored checkedAtUtc now
  | .sourceRevisions order selected sources now =>
      recordSourceRevisions rt db order selected sources now
  | .conflicts details sources now => committed db (recordConflicts rt db details sources now)
  | .updateSettings optIn => Follows.updateSettings db optIn
  | .markRead eventIds allEvents now => committed db (Follows.markRead db eventIds allEvents now)
  | .claimNotifications limit batchId now => (Follows.claimNotifications db limit batchId now).1
  | .updateNotification eventId status error now =>
      committed db (Follows.updateNotification db eventId status error now)
  | .removeHistory => Follows.removeHistory db

/-- The stores reached from an empty one. -/
def ReachedStore (rt : Runtime) : FollowDb → Prop :=
  Reaches (· = emptyDb) (fun _ _ => True) fun db step => FollowStep.run rt db step

/-- What a transaction keeps when it goes through holds of the store it leaves. -/
theorem committed_invariant {P : FollowDb → Prop} {db : FollowDb}
    {result : Except FollowFailure FollowDb} (hdb : P db) (h : ∀ next, result = .ok next → P next) :
    P (committed db result) := by
  cases result with
  | ok next => exact h next rfl
  | error e => exact hdb

/-! ## The subscriptions under each write -/

section Writes

variable {rt : Runtime} {db db' : FollowDb} {r : FollowRow}

@[simp] theorem followedMatches_insertEvent (followId : String) (now : Int) (d : EventDraft) :
    (db.insertEvent rt followId now d).followedMatches = db.followedMatches := by
  unfold FollowDb.insertEvent
  dsimp only
  split_ifs <;> rfl

@[simp] theorem followedMatches_insertEvents (followId : String) (now : Int)
    (ds : List EventDraft) :
    (db.insertEvents rt followId now ds).followedMatches = db.followedMatches := by
  unfold FollowDb.insertEvents
  induction ds generalizing db with
  | nil => rfl
  | cons d rest ih => rw [List.foldl_cons, ih, followedMatches_insertEvent]

@[simp] theorem followedMatches_recordIdentity (followId : String) (kind : IdentityKind)
    (value : Option String) (sourceId : String) (now : Int) :
    (db.recordIdentity followId kind value sourceId now).followedMatches = db.followedMatches := by
  unfold FollowDb.recordIdentity
  split
  · rfl
  · split_ifs <;> rfl

@[simp] theorem followedMatches_recordIdentities (followId : String) (s : Snapshot) (now : Int) :
    (db.recordIdentities followId s now).followedMatches = db.followedMatches := by
  unfold FollowDb.recordIdentities
  dsimp only
  split_ifs <;> simp

theorem active_congr (h : db'.followedMatches = db.followedMatches) : db'.active = db.active := by
  rw [FollowDb.active, FollowDb.active, h]

theorem violatesActive_congr (h : db'.followedMatches = db.followedMatches) :
    db'.violatesActive r = db.violatesActive r := by
  rw [FollowDb.violatesActive, FollowDb.violatesActive, active_congr h]

theorem mem_active : r ∈ db.active ↔ r ∈ db.followedMatches ∧ r.isActive = true := List.mem_filter

/-- An active row violates the unique index when another active one points at its match. -/
theorem violatesActive_eq_true (hr : r.isActive = true) :
    db.violatesActive r = true ↔ ∃ other ∈ db.active, other.followId ≠ r.followId ∧
      other.canonicalMatchId = r.canonicalMatchId := by
  simp [FollowDb.violatesActive, hr]

/-- What an update does when it goes through. -/
theorem updateMatch_ok_iff : db.updateMatch r = .ok db' ↔
    db.violatesActive r = false ∧ db' = db.replaceMatch r := by
  unfold FollowDb.updateMatch
  simp only [bind_ok_iff, failIf_ok_iff, exists_const, Bool.not_eq_true, pure, Except.pure,
    Except.ok.injEq, eq_comm (a := db')]

/-- What an insertion does when it goes through. -/
theorem insertMatch_ok_iff : db.insertMatch r = .ok db' ↔
    r.followId ∉ db.followedMatches.map FollowRow.followId ∧ db.violatesActive r = false ∧
      db' = { db with followedMatches := db.followedMatches ++ [r] } := by
  unfold FollowDb.insertMatch
  simp only [bind_ok_iff, failIf_ok_iff, exists_const, Bool.not_eq_true, pure, Except.pure,
    Except.ok.injEq, eq_comm (a := db')]

/-- The rows of a store after a replacement: the new row, or one of another id. -/
theorem mem_replaceMatch {x : FollowRow} : x ∈ (db.replaceMatch r).followedMatches ↔
    (x = r ∧ ∃ old ∈ db.followedMatches, old.followId = r.followId) ∨
      (x ∈ db.followedMatches ∧ x.followId ≠ r.followId) := by
  simp only [FollowDb.replaceMatch, List.mem_map]
  constructor
  · rintro ⟨old, hold, rfl⟩
    split_ifs with h
    · exact .inl ⟨rfl, old, hold, h⟩
    · exact .inr ⟨hold, h⟩
  · rintro (⟨rfl, old, hold, h⟩ | ⟨hx, h⟩)
    · exact ⟨old, hold, if_pos h⟩
    · exact ⟨x, hx, if_neg h⟩

theorem followIds_replaceMatch :
    (db.replaceMatch r).followedMatches.map FollowRow.followId =
      db.followedMatches.map FollowRow.followId := by
  rw [FollowDb.replaceMatch, List.map_map]
  refine List.map_congr_left fun old _ => ?_
  simp only [Function.comp_apply]
  split_ifs with h
  · exact h.symm
  · rfl

end Writes

/-! ## Reads -/

section Reads

variable {db : FollowDb} {r : FollowRow}

/-- The subscription a follow finds is one of its match. -/
theorem mem_existing {order : ScanOrder} {matchId : String}
    (h : db.existing order matchId = some r) :
    r ∈ db.followedMatches ∧ r.canonicalMatchId = matchId := by
  have hmem := List.mem_of_mem_head? h
  rw [List.mem_insertionSort, (order.perm _).mem_iff, List.mem_filter, decide_eq_true_eq] at hmem
  exact hmem

/-- The subscription found by an id has it. -/
theorem find_some {followId : String} (h : db.find followId = some r) :
    r ∈ db.followedMatches ∧ r.followId = followId :=
  ⟨List.mem_of_find?_eq_some h, by simpa using List.find?_some h⟩

end Reads

/-! ## Keys -/

/-- At most one active subscription points at any match. -/
def OneActive (db : FollowDb) : Prop :=
  ∀ r ∈ db.active, ∀ s ∈ db.active, r.canonicalMatchId = s.canonicalMatchId → r = s

/-- A store that keeps its keys. -/
structure Keyed (db : FollowDb) : Prop where
  followIds : (db.followedMatches.map FollowRow.followId).Nodup
  oneActive : OneActive db

section Keys

variable {rt : Runtime} {db db' : FollowDb} {r : FollowRow}

theorem Keyed.congr (h : Keyed db) (heq : db'.followedMatches = db.followedMatches) : Keyed db' where
  followIds := by rw [heq]; exact h.followIds
  oneActive := by
    rw [OneActive, active_congr heq]
    exact h.oneActive

/-- Subscriptions with one id are one. -/
theorem Keyed.eq_of_followId (h : Keyed db) {a b : FollowRow} (ha : a ∈ db.followedMatches)
    (hb : b ∈ db.followedMatches) (heq : a.followId = b.followId) : a = b :=
  List.inj_on_of_nodup_map h.followIds ha hb heq

theorem keyed_emptyDb : Keyed emptyDb where
  followIds := List.nodup_nil
  oneActive := fun r hr => by simp [emptyDb, FollowDb.active] at hr

/-- An update that the database accepts keeps the keys. -/
theorem keyed_updateMatch (h : Keyed db) (hup : db.updateMatch r = .ok db') : Keyed db' := by
  obtain ⟨hfree, rfl⟩ := updateMatch_ok_iff.mp hup
  refine ⟨by rw [followIds_replaceMatch]; exact h.followIds, ?_⟩
  -- against the new row, the index was checked; other rows are as before
  have hnew : ∀ x, r.isActive = true → x ∈ db.active → x.followId ≠ r.followId →
      x.canonicalMatchId ≠ r.canonicalMatchId := by
    intro x hr hx hne heq
    have := (violatesActive_eq_true hr).mpr ⟨x, hx, hne, heq⟩
    rw [hfree] at this
    exact Bool.false_ne_true this
  intro a ha b hb heq
  obtain ⟨ha, haactive⟩ := mem_active.mp ha
  obtain ⟨hb, hbactive⟩ := mem_active.mp hb
  rcases mem_replaceMatch.mp ha with ⟨rfl, -⟩ | ⟨hold, hane⟩ <;>
    rcases mem_replaceMatch.mp hb with ⟨rfl, -⟩ | ⟨hold', hbne⟩
  · rfl
  · exact absurd heq.symm (hnew b haactive (mem_active.mpr ⟨hold', hbactive⟩) hbne)
  · exact absurd heq (hnew a hbactive (mem_active.mpr ⟨hold, haactive⟩) hane)
  · exact h.oneActive a (mem_active.mpr ⟨hold, haactive⟩) b (mem_active.mpr ⟨hold', hbactive⟩) heq

/-- An insertion that the database accepts keeps the keys. -/
theorem keyed_insertMatch (h : Keyed db) (hin : db.insertMatch r = .ok db') : Keyed db' := by
  obtain ⟨hfresh, hfree, rfl⟩ := insertMatch_ok_iff.mp hin
  have hnew : ∀ x, r.isActive = true → x ∈ db.active → x.canonicalMatchId ≠ r.canonicalMatchId := by
    intro x hr hx heq
    have hne : x.followId ≠ r.followId := fun hid =>
      hfresh (hid ▸ List.mem_map_of_mem (mem_active.mp hx).1)
    have := (violatesActive_eq_true hr).mpr ⟨x, hx, hne, heq⟩
    rw [hfree] at this
    exact Bool.false_ne_true this
  constructor
  · rw [List.map_append, List.nodup_append]
    refine ⟨h.followIds, List.nodup_singleton _, fun a ha b hb heq => ?_⟩
    rw [List.map_singleton, List.mem_singleton] at hb
    exact hfresh (hb ▸ heq ▸ ha)
  · intro a ha b hb heq
    obtain ⟨ha, haactive⟩ := mem_active.mp ha
    obtain ⟨hb, hbactive⟩ := mem_active.mp hb
    rcases List.mem_append.mp ha with hold | hlast <;>
      rcases List.mem_append.mp hb with hold' | hlast'
    · exact h.oneActive a (mem_active.mpr ⟨hold, haactive⟩) b (mem_active.mpr ⟨hold', hbactive⟩) heq
    · obtain rfl := List.mem_singleton.mp hlast'
      exact absurd heq (hnew a hbactive (mem_active.mpr ⟨hold, haactive⟩))
    · obtain rfl := List.mem_singleton.mp hlast
      exact absurd heq.symm (hnew b haactive (mem_active.mpr ⟨hold', hbactive⟩))
    · rw [List.mem_singleton.mp hlast, List.mem_singleton.mp hlast']

/-- Events alone change no key. -/
theorem followedMatches_foldl_insertEvents {now : Int} (events : FollowRow → List EventDraft)
    (rows : List FollowRow) :
    (rows.foldl (fun db row => db.insertEvents rt row.followId now (events row)) db).followedMatches =
      db.followedMatches := by
  induction rows generalizing db with
  | nil => rfl
  | cons row rest ih => rw [List.foldl_cons, ih, followedMatches_insertEvents]

theorem keyed_followMatch {req : FollowRequest} {reply : String × Bool} (h : Keyed db)
    (hrun : followMatch rt db req = .ok (db', reply)) : Keyed db' := by
  obtain ⟨s, -, hrun⟩ := bind_ok_iff.mp hrun
  split at hrun
  · split_ifs at hrun with hactive
    · obtain ⟨_, -, hrun⟩ := bind_ok_iff.mp hrun
      obtain ⟨rfl, -⟩ := Prod.mk.inj (Except.ok.inj hrun)
      exact h
    · obtain ⟨next, hup, hrun⟩ := bind_ok_iff.mp hrun
      obtain ⟨_, -, hrun⟩ := bind_ok_iff.mp hrun
      obtain ⟨rfl, -⟩ := Prod.mk.inj (Except.ok.inj hrun)
      exact (keyed_updateMatch h hup).congr (by simp)
  · obtain ⟨next, hin, hrun⟩ := bind_ok_iff.mp hrun
    obtain ⟨_, -, hrun⟩ := bind_ok_iff.mp hrun
    obtain ⟨rfl, -⟩ := Prod.mk.inj (Except.ok.inj hrun)
    exact (keyed_insertMatch h hin).congr (by simp)

theorem keyed_unfollow {followId : String} {now : Int} (h : Keyed db)
    (hrun : unfollow rt db followId now = .ok db') : Keyed db' := by
  obtain ⟨row, -, hrun⟩ := bind_ok_iff.mp hrun
  split_ifs at hrun with hactive
  · obtain ⟨next, hup, hrun⟩ := bind_ok_iff.mp hrun
    obtain rfl := Except.ok.inj hrun
    exact (keyed_updateMatch h hup).congr (by simp)
  · obtain rfl := Except.ok.inj hrun
    exact h

/-- A fold of transactions keeps what each of them keeps. -/
theorem foldlM_invariant {α : Type} {P : FollowDb → Prop}
    {f : FollowDb → α → Except FollowFailure FollowDb}
    (hf : ∀ db a next, P db → f db a = .ok next → P next) {items : List α} (h : P db)
    (hrun : items.foldlM f db = .ok db') : P db' := by
  induction items generalizing db with
  | nil =>
      obtain rfl := Except.ok.inj hrun
      exact h
  | cons a rest ih =>
      rw [List.foldlM_cons] at hrun
      obtain ⟨next, hnext, hrun⟩ := bind_ok_iff.mp hrun
      exact ih (hf _ _ _ h hnext) hrun

theorem keyed_settleRow {req : ReconcileRequest} {current : Snapshot} (h : Keyed db)
    (hrun : settleRow rt req r db current = .ok db') : Keyed db' :=
  keyed_updateMatch (h.congr (by simp)) hrun

theorem keyed_reconcileRow {req : ReconcileRequest} (h : Keyed db)
    (hrun : reconcileRow rt req db r = .ok db') : Keyed db' := by
  unfold reconcileRow at hrun
  split at hrun
  · exact keyed_updateMatch (h.congr (by simp)) hrun
  · obtain ⟨current, -, hrun⟩ := bind_ok_iff.mp hrun
    exact keyed_settleRow h hrun
  · obtain ⟨current, -, hrun⟩ := bind_ok_iff.mp hrun
    exact keyed_settleRow (h.congr (by simp)) hrun

/-- **Every step keeps the keys.** -/
theorem keyed_run (h : Keyed db) (step : FollowStep) : Keyed (step.run rt db) := by
  cases step with
  | follow req =>
      refine committed_invariant h fun next hnext => ?_
      cases hrun : followMatch rt db req with
      | ok result =>
          rw [hrun] at hnext
          obtain rfl := Except.ok.inj hnext
          exact keyed_followMatch h hrun
      | error e =>
          rw [hrun] at hnext
          cases hnext
  | unfollow followId now => exact committed_invariant h fun _ => keyed_unfollow h
  | reconcile req =>
      refine committed_invariant h fun next hnext => ?_
      obtain ⟨db', hrun, hnext⟩ := bind_ok_iff.mp hnext
      obtain ⟨_, -, hnext⟩ := bind_ok_iff.mp hnext
      obtain rfl := Except.ok.inj hnext
      exact foldlM_invariant (fun _ _ _ => keyed_reconcileRow) h hrun
  | settlements order scored checkedAtUtc now =>
      exact h.congr (followedMatches_foldl_insertEvents _ _)
  | sourceRevisions order selected sources now =>
      exact h.congr (followedMatches_foldl_insertEvents _ _)
  | conflicts details sources now =>
      refine committed_invariant h fun _ => foldlM_invariant (fun db c next hdb hnext => ?_) h
      unfold recordConflict at hnext
      split at hnext
      · obtain rfl := Except.ok.inj hnext
        exact hdb
      · exact keyed_updateMatch (hdb.congr (by simp)) hnext
  | updateSettings optIn => exact h.congr rfl
  | markRead eventIds allEvents now =>
      refine committed_invariant h fun next hnext => ?_
      obtain ⟨_, -, hnext⟩ := bind_ok_iff.mp hnext
      obtain rfl := Except.ok.inj hnext
      exact h.congr rfl
  | claimNotifications limit batchId now =>
      refine h.congr ?_
      simp only [FollowStep.run, claimNotifications]
      split_ifs <;> rfl
  | updateNotification eventId status error now =>
      refine committed_invariant h fun next hnext => ?_
      obtain ⟨_, -, hnext⟩ := bind_ok_iff.mp hnext
      obtain ⟨_, -, hnext⟩ := bind_ok_iff.mp hnext
      obtain rfl := Except.ok.inj hnext
      exact h.congr rfl
  | removeHistory => exact keyed_emptyDb

/-- **Every store reached keeps its keys.** -/
theorem ReachedStore.keyed (h : ReachedStore rt db) : Keyed db :=
  Reaches.invariant h (fun _ hs => hs ▸ keyed_emptyDb) fun _ step hdb _ => keyed_run hdb step

end Keys

end Golavo.Follows
