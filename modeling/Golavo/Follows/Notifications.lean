import Golavo.Follows.History
import Golavo.Lib.Interleave

/-! # Claiming notifications

A claim reads whether notifications are wanted, then reads the pending events, and then marks in one
transaction those of them that are still pending, under a batch id of its own. Any other operation
may run between the three. An event is marked by one claim at most, and is never pending again. -/

namespace Golavo.Follows

open Golavo.Lib (Json Pool Move Outline Sound Reaches insertNew)
open Golavo.Ledger (Runtime)

/-! ## Requests -/

/-- A request on the follow store, by where it is. -/
inductive FollowTask where
  /-- A claim that arrived. -/
  | claim (limit : Nat) (batchId : String) (now : Int)
  /-- A claim that found notifications wanted. -/
  | claimOpted (limit : Nat) (batchId : String) (now : Int)
  /-- A claim that read pending events. -/
  | claimRead (ids : List String) (batchId : String) (now : Int)
  /-- Another operation, in one transaction. -/
  | operation (step : FollowStep)

/-- What a request answers: the events it claimed under its batch id, or something else. -/
inductive FollowReply where
  | claimed (batchId : String) (ids : List String)
  | done

/-- Mark the events read that are still pending. -/
def FollowDb.mark (db : FollowDb) (ids : List String) (batchId : String) (now : Int) : FollowDb :=
  { db with events := db.events.map fun e =>
      if e.notificationStatus = .pending ∧ e.eventId ∈ ids then
        { e with
          notificationStatus := .claimed
          notificationBatchId := some batchId
          notificationUpdatedAtUtc := some now }
      else e }

/-- The events read that a claim finds under its batch id. -/
def FollowDb.delivered (db : FollowDb) (ids : List String) (batchId : String) : List String :=
  (db.events.filter fun e => e.notificationBatchId = some batchId ∧ e.eventId ∈ ids).map
    FollowEvent.eventId

/-- One atomic step of a request. -/
def FollowTask.act (rt : Runtime) : FollowTask → FollowDb → FollowDb × (FollowTask ⊕ FollowReply)
  | .claim limit batchId now, db =>
      (db, if db.notificationsOptIn = some true then .inl (.claimOpted limit batchId now)
        else .inr .done)
  | .claimOpted limit batchId now, db =>
      (db, if db.claimable limit = [] then .inr .done
        else .inl (.claimRead (db.claimable limit) batchId now))
  | .claimRead ids batchId now, db =>
      let next := db.mark ids batchId now
      (next, .inr (.claimed batchId (next.delivered ids batchId)))
  | .operation step, db => (step.run rt db, .inr .done)

/-- The batch id of a claim. -/
def FollowTask.batchId? : FollowTask → Option String
  | .claim _ batchId _ | .claimOpted _ batchId _ | .claimRead _ batchId _ => some batchId
  | .operation _ => none

/-- Whether a request leaves the history in place and claims in steps. -/
def FollowTask.isOrdinary : FollowTask → Bool
  | .operation step => step.isOrdinary
  | _ => true

/-- The events an answer delivers. -/
def FollowReply.ids : FollowReply → List String
  | .claimed _ ids => ids
  | .done => []

/-- What may happen: a claim arrives under a batch id drawn by none before it, another operation
arrives that does not remove the history, and requests take their steps. -/
def Arrives (s : Pool FollowDb FollowTask FollowReply) : Move FollowTask → Prop
  | .arrive (.claim _ batchId _) =>
      (∀ e ∈ s.store.events, e.notificationBatchId ≠ some batchId) ∧
        ∀ q ∈ s.waiting, q.batchId? ≠ some batchId
  | .arrive (.operation step) => step.isOrdinary = true
  | .arrive _ => False
  | .advance _ => True

/-- The pools reached from an empty store. -/
def ReachedPool (rt : Runtime) : Pool FollowDb FollowTask FollowReply → Prop :=
  Reaches (· = .of emptyDb) Arrives (Pool.move (FollowTask.act rt))

/-- The pools reached from another. -/
def ReachedFrom (rt : Runtime) (s : Pool FollowDb FollowTask FollowReply) :
    Pool FollowDb FollowTask FollowReply → Prop :=
  Reaches (· = s) Arrives (Pool.move (FollowTask.act rt))

/-! ## What the steps keep -/

section Rules

variable {rt : Runtime} {db : FollowDb} {ids : List String} {batchId : String} {now : Int}

/-- No event is in a batch while it is pending. -/
def Offered (events : List FollowEvent) : Prop :=
  ∀ e ∈ events, e.notificationBatchId ≠ none → e.notificationStatus ≠ .pending

theorem offered_rule (rt : Runtime) : HistoryRule rt Offered where
  insert := fun _ _ _ _ _ h e he hbatch => by
    rcases Lib.mem_insertAllNew (show e ∈ Lib.insertAllNew _ _ [_] from he) with he | he
    · exact h e he hbatch
    · obtain rfl := List.mem_singleton.mp he
      exact absurd rfl hbatch
  touch := fun _ f hf h e he hbatch => by
    obtain ⟨old, hold, rfl⟩ := List.mem_map.mp he
    exact (hf old).offered (h old hold ((hf old).batch ▸ hbatch))

/-- No event is in a batch. -/
def Unused (batchId : String) (events : List FollowEvent) : Prop :=
  ∀ e ∈ events, e.notificationBatchId ≠ some batchId

theorem unused_rule (rt : Runtime) (batchId : String) : HistoryRule rt (Unused batchId) where
  insert := fun _ _ _ _ _ h e he => by
    rcases Lib.mem_insertAllNew (show e ∈ Lib.insertAllNew _ _ [_] from he) with he | he
    · exact h e he
    · obtain rfl := List.mem_singleton.mp he
      exact fun heq => Option.some_ne_none _ heq.symm
  touch := fun _ f hf h e he => by
    obtain ⟨old, hold, rfl⟩ := List.mem_map.mp he
    rw [(hf old).batch]
    exact h old hold

/-- An event is there, and not pending. -/
def Taken (eventId : String) (batchId? : Option String) (events : List FollowEvent) : Prop :=
  ∃ e ∈ events, e.eventId = eventId ∧ e.notificationStatus ≠ .pending ∧
    ∀ batchId ∈ batchId?, e.notificationBatchId = some batchId

theorem taken_rule (rt : Runtime) (eventId : String) (batchId? : Option String) :
    HistoryRule rt (Taken eventId batchId?) where
  insert := fun _ _ _ _ _ ⟨e, he, h⟩ =>
    ⟨e, (Lib.prefix_insertAllNew FollowEvent.eventId _ [_]).subset he, h⟩
  touch := fun _ f hf ⟨e, he, hid, hstatus, hbatch⟩ =>
    ⟨f e, List.mem_map_of_mem he, (hf e).eventId.trans hid, (hf e).offered hstatus,
      fun b hb => (hf e).batch.trans (hbatch b hb)⟩

/-! ## The mark of a claim -/

/-- The mark keeps the names of events and what they tell of. -/
theorem addressed_mark (h : Addressed rt db.events) :
    Addressed rt (db.mark ids batchId now).events :=
  h.map fun e => by split_ifs <;> exact ⟨rfl, rfl⟩

theorem offered_mark (h : Offered db.events) : Offered (db.mark ids batchId now).events := by
  intro e he hbatch
  obtain ⟨old, hold, rfl⟩ := List.mem_map.mp he
  split_ifs at hbatch ⊢
  · exact nofun
  · exact h old hold hbatch

/-- The mark uses no batch id but its own. -/
theorem unused_mark {other : String} (h : Unused other db.events) (hne : batchId ≠ other) :
    Unused other (db.mark ids batchId now).events := by
  intro e he
  obtain ⟨old, hold, rfl⟩ := List.mem_map.mp he
  split_ifs
  · exact fun heq => hne (Option.some.inj heq)
  · exact h old hold

/-- The mark leaves what is not pending. -/
theorem taken_mark {eventId : String} {batchId? : Option String}
    (h : Taken eventId batchId? db.events) :
    Taken eventId batchId? (db.mark ids batchId now).events := by
  obtain ⟨e, he, hid, hstatus, hbatch⟩ := h
  refine ⟨e, List.mem_map.mpr ⟨e, he, ?_⟩, hid, hstatus, hbatch⟩
  rw [if_neg fun h => hstatus h.1]

/-- What a claim finds under its batch id is in the batch, and not pending. -/
theorem taken_of_delivered {eventId : String} {now : Int} (hoffered : Offered db.events)
    (h : eventId ∈ (db.mark ids batchId now).delivered ids batchId) :
    Taken eventId (some batchId) (db.mark ids batchId now).events := by
  obtain ⟨e, he, rfl⟩ := List.mem_map.mp h
  obtain ⟨hmem, htest⟩ := List.mem_filter.mp he
  obtain ⟨hbatch, -⟩ := of_decide_eq_true htest
  exact ⟨e, hmem, rfl, offered_mark hoffered e hmem (hbatch ▸ Option.some_ne_none _),
    fun b hb => hbatch.trans (congrArg some (Option.mem_some_iff.mp hb))⟩

/-- What a claim finds under its batch id: the events it read that were still pending. -/
theorem mem_delivered_mark {eventId : String} (h : Unused batchId db.events) :
    eventId ∈ (db.mark ids batchId now).delivered ids batchId ↔
      eventId ∈ ids ∧ ∃ e ∈ db.events, e.eventId = eventId ∧ e.notificationStatus = .pending := by
  simp only [FollowDb.delivered, FollowDb.mark, List.mem_map, List.mem_filter, decide_eq_true_eq]
  constructor
  · rintro ⟨-, ⟨⟨e, he, rfl⟩, hbatch, hids⟩, rfl⟩
    split_ifs at hbatch hids ⊢ with htest
    · exact ⟨hids, e, he, rfl, htest.1⟩
    · exact absurd hbatch (h e he)
  · rintro ⟨hids, e, he, rfl, hpending⟩
    refine ⟨_, ⟨⟨e, he, rfl⟩, ?_⟩, ?_⟩
    · rw [if_pos ⟨hpending, hids⟩]
      exact ⟨rfl, hids⟩
    · rw [if_pos ⟨hpending, hids⟩]

/-- What a claim takes is pending. -/
theorem pending_of_claimable {limit : Nat} {eventId : String} (h : eventId ∈ db.claimable limit) :
    ∃ e ∈ db.events, e.eventId = eventId ∧ e.notificationStatus = .pending := by
  obtain ⟨e, he, rfl⟩ := List.mem_map.mp h
  have hsorted := (List.perm_insertionSort _ _).mem_iff.mp (List.mem_of_mem_take he)
  obtain ⟨hmem, hpending⟩ := List.mem_filter.mp hsorted
  exact ⟨e, hmem, rfl, of_decide_eq_true hpending⟩

theorem mark_nil (db : FollowDb) (batchId : String) (now : Int) : db.mark [] batchId now = db := by
  have hevents : db.events.map (fun e =>
      if e.notificationStatus = .pending ∧ e.eventId ∈ ([] : List String) then
        { e with
          notificationStatus := .claimed
          notificationBatchId := some batchId
          notificationUpdatedAtUtc := some now }
      else e) = db.events :=
    List.map_id'' (fun e => if_neg fun h => List.not_mem_nil h.2) _
  rw [FollowDb.mark, hevents]

/-- **A claim that nothing interrupts** is the claim of one transaction. -/
theorem claim_alone (rt : Runtime) (db : FollowDb) (limit : Nat) (batchId : String) (now : Int)
    (h : Unused batchId db.events) :
    ∃ reply, [.arrive (.claim limit batchId now), .advance 0, .advance 0, .advance 0].foldl
        (Pool.move (FollowTask.act rt)) (.of db) =
          ⟨(claimNotifications db limit batchId now).1, [], [reply]⟩ ∧
      ∀ eventId, eventId ∈ reply.ids ↔ eventId ∈ (claimNotifications db limit batchId now).2 := by
  by_cases hopted : db.notificationsOptIn = some true
  · by_cases hnone : db.claimable limit = []
    · refine ⟨.done, ?_, ?_⟩
      · have hmark : (claimNotifications db limit batchId now).1 = db := by
          rw [claimNotifications, if_pos hopted]
          exact hnone ▸ mark_nil db batchId now
        rw [hmark]
        simp [Pool.move, Pool.of, FollowTask.act, hopted, hnone]
      · simp [claimNotifications, hopted, hnone, FollowReply.ids]
    · refine ⟨.claimed batchId ((db.mark (db.claimable limit) batchId now).delivered
        (db.claimable limit) batchId), ?_, fun eventId => ?_⟩
      · have hmark : (claimNotifications db limit batchId now).1 =
            db.mark (db.claimable limit) batchId now := by
          rw [claimNotifications, if_pos hopted]
          rfl
        rw [hmark]
        simp [Pool.move, Pool.of, FollowTask.act, hopted, hnone]
      · rw [claimNotifications, if_pos hopted]
        exact (mem_delivered_mark h).trans
          ⟨fun hmem => hmem.1, fun hmem => ⟨hmem, pending_of_claimable hmem⟩⟩
  · refine ⟨.done, ?_, ?_⟩
    · simp [Pool.move, Pool.of, FollowTask.act, claimNotifications, hopted]
    · simp [claimNotifications, hopted, FollowReply.ids]

end Rules

/-! ## Every order of the steps -/

section Orders

variable {rt : Runtime} {s s' : Pool FollowDb FollowTask FollowReply}

/-- What holds throughout: an event claimed is in its batch and in no other. -/
structure ClaimedOnce (rt : Runtime) (db : FollowDb) (replies : List FollowReply) : Prop where
  addressed : Addressed rt db.events
  offered : Offered db.events
  taken : ∀ batchId ids, .claimed batchId ids ∈ replies → ∀ eventId ∈ ids,
    Taken eventId (some batchId) db.events
  apart : replies.Pairwise fun a b => ∀ eventId ∈ a.ids, eventId ∉ b.ids

/-- What a request relies on: nothing is in its batch, and it does not remove the history. -/
def FollowTask.Ready (p : FollowTask) (db : FollowDb) : Prop :=
  (∀ batchId, p.batchId? = some batchId → Unused batchId db.events) ∧
    p.isOrdinary = true

/-- Two requests do not share a batch id. -/
def FollowTask.Apart (p q : FollowTask) : Prop :=
  ∀ batchId, p.batchId? = some batchId → q.batchId? ≠ some batchId

/-- Two batches of one event are one batch. -/
theorem batch_unique {rt : Runtime} {events : List FollowEvent} {eventId a b : String}
    (h : Addressed rt events) (ha : Taken eventId (some a) events)
    (hb : Taken eventId (some b) events) : a = b := by
  obtain ⟨e, he, hid, -, hbatch⟩ := ha
  obtain ⟨e', he', hid', -, hbatch'⟩ := hb
  obtain rfl := List.inj_on_of_nodup_map h.nodup he he' (hid.trans hid'.symm)
  exact Option.some.inj ((hbatch a rfl).symm.trans (hbatch' b rfl))

/-- A claim that marked what it read. -/
theorem ClaimedOnce.mark {db : FollowDb} {replies : List FollowReply} {ids : List String}
    {batchId : String} {now : Int} (h : ClaimedOnce rt db replies) (hunused : Unused batchId db.events) :
    ClaimedOnce rt (db.mark ids batchId now)
      (replies ++ [.claimed batchId ((db.mark ids batchId now).delivered ids batchId)]) := by
  refine ⟨addressed_mark h.addressed, offered_mark h.offered, fun b claimedIds hmem id hid => ?_,
    List.pairwise_append.mpr ⟨h.apart, List.pairwise_singleton _ _, fun a ha b hb id hid hid' => ?_⟩⟩
  · rcases List.mem_append.mp hmem with hmem | hmem
    · exact taken_mark (h.taken b claimedIds hmem id hid)
    · obtain ⟨rfl, rfl⟩ := FollowReply.claimed.inj (List.mem_singleton.mp hmem)
      exact taken_of_delivered h.offered hid
  · -- an event delivered before is in a batch that is not this one
    obtain rfl := List.mem_singleton.mp hb
    cases a with
    | done => cases hid
    | claimed other otherIds =>
        have hold := h.taken other otherIds ha id hid
        have hnew : Taken id (some batchId) (db.mark ids batchId now).events :=
          taken_of_delivered h.offered hid'
        obtain rfl := batch_unique (addressed_mark h.addressed) (taken_mark hold) hnew
        obtain ⟨e, he, -, -, hbatch⟩ := hold
        exact hunused e he (hbatch other rfl)

/-- Another operation. -/
theorem ClaimedOnce.step {db : FollowDb} {replies : List FollowReply} {step : FollowStep}
    (h : ClaimedOnce rt db replies) (hstep : step.isOrdinary = true) :
    ClaimedOnce rt (step.run rt db) replies where
  addressed := (addressed_rule rt).run h.addressed hstep
  offered := (offered_rule rt).run h.offered hstep
  taken := fun batchId ids hmem eventId hid =>
    (taken_rule rt eventId (some batchId)).run (h.taken batchId ids hmem eventId hid) hstep
  apart := h.apart

/-- An answer that claims nothing. -/
theorem ClaimedOnce.done {db : FollowDb} {replies : List FollowReply} (h : ClaimedOnce rt db replies) :
    ClaimedOnce rt db (replies ++ [.done]) := by
  refine ⟨h.addressed, h.offered, fun batchId ids hmem => ?_, List.pairwise_append.mpr
    ⟨h.apart, List.pairwise_singleton _ _, fun a _ b hb id _ hid => ?_⟩⟩
  · rcases List.mem_append.mp hmem with hmem | hmem
    · exact h.taken batchId ids hmem
    · cases List.mem_singleton.mp hmem
  · obtain rfl := List.mem_singleton.mp hb
    cases hid

/-- The outline of claims among other operations. -/
theorem claims_outline (rt : Runtime) :
    Outline (FollowTask.act rt) (fun _ _ => True) (ClaimedOnce rt) (fun p db _ => p.Ready db)
      FollowTask.Apart where
  symm := fun h batchId hq hp => h batchId hp hq
  goes := fun {p st replies next} hinv hready _ hnext => by
    cases p with
    | claim limit batchId now =>
        simp only [FollowTask.act] at hnext
        split_ifs at hnext
        obtain rfl := Sum.inl.inj hnext
        exact ⟨hinv, ⟨hready.1, rfl⟩, id⟩
    | claimOpted limit batchId now =>
        simp only [FollowTask.act] at hnext
        split_ifs at hnext
        obtain rfl := Sum.inl.inj hnext
        exact ⟨hinv, ⟨hready.1, rfl⟩, id⟩
    | claimRead ids batchId now => cases hnext
    | operation step => cases hnext
  answers := fun {p st replies reply} hinv hready _ hreply => by
    cases p with
    | claim limit batchId now =>
        simp only [FollowTask.act] at hreply
        split_ifs at hreply
        obtain rfl := Sum.inr.inj hreply
        exact hinv.done
    | claimOpted limit batchId now =>
        simp only [FollowTask.act] at hreply
        split_ifs at hreply
        obtain rfl := Sum.inr.inj hreply
        exact hinv.done
    | claimRead ids batchId now =>
        obtain rfl := Sum.inr.inj hreply
        exact hinv.mark (hready.1 batchId rfl)
    | operation step =>
        obtain rfl := Sum.inr.inj hreply
        exact (hinv.step (hready.2)).done
  keeps := fun {p q st replies} _ hp _ hq hapart => by
    refine ⟨fun batchId hbatch => ?_, hq.2⟩
    have hunused := hq.1 batchId hbatch
    cases p with
    | claim limit other now => exact hunused
    | claimOpted limit other now => exact hunused
    | claimRead ids other now =>
        exact unused_mark hunused fun heq => hapart other rfl (heq ▸ hbatch)
    | operation step => exact (unused_rule rt batchId).run hunused (hp.2)

theorem ReachedPool.sound (h : ReachedPool rt s) :
    Sound (ClaimedOnce rt) (fun p db _ => p.Ready db) FollowTask.Apart s := by
  refine (claims_outline rt).sound ?_ (fun s p _ hallowed => ?_) (fun _ _ _ _ _ _ => trivial) h
  · rintro _ rfl
    exact ⟨⟨addressed_nil rt, fun _ he => absurd he List.not_mem_nil,
      fun _ _ hmem => absurd hmem List.not_mem_nil, .nil⟩,
      fun _ hp => absurd hp List.not_mem_nil, .nil⟩
  · cases p with
    | claim limit batchId now =>
        obtain ⟨hunused, hothers⟩ := hallowed
        refine ⟨⟨fun b hb => ?_, rfl⟩, fun q hq b hb hbq => ?_⟩
        · exact Option.some.inj hb ▸ hunused
        · exact hothers q hq (hbq.trans hb.symm)
    | operation step => exact ⟨⟨fun b hb => (Option.some_ne_none b hb.symm).elim, hallowed⟩,
        fun _ _ b hb => (Option.some_ne_none b hb.symm).elim⟩
    | claimOpted => exact hallowed.elim
    | claimRead => exact hallowed.elim

theorem ReachedPool.from (h : ReachedPool rt s) (hrun : ReachedFrom rt s s') : ReachedPool rt s' :=
  @Reaches.invariant _ _ _ _ _ (ReachedPool rt) _ hrun (fun _ heq => heq ▸ h)
    fun _ _ hs hm => hs.next hm

/-- An event that is not pending stays so whatever happens. -/
theorem taken_of_reachedFrom {eventId : String} (h : ReachedPool rt s) (hrun : ReachedFrom rt s s')
    (htaken : Taken eventId none s.store.events) : Taken eventId none s'.store.events := by
  have hboth : ReachedPool rt s' ∧ Taken eventId none s'.store.events := by
    refine @Reaches.invariant _ _ _ _ _
      (fun t => ReachedPool rt t ∧ Taken eventId none t.store.events) _ hrun ?_ ?_
    · rintro _ rfl
      exact ⟨h, htaken⟩
    · rintro t m ⟨hreached, ht⟩ hm
      refine ⟨hreached.next hm, ?_⟩
      rcases Pool.store_move (FollowTask.act rt) t m with hsame | ⟨p, hp, hstore⟩
      · exact hsame ▸ ht
      · have hready := hreached.sound.here p hp
        rw [hstore]
        cases p with
        | claim limit batchId now => exact ht
        | claimOpted limit batchId now => exact ht
        | claimRead ids batchId now => exact taken_mark ht
        | operation step => exact (taken_rule rt eventId none).run ht hready.2
  exact hboth.2

/-- **Each notification is claimed at most once**: no event is in two batches, and an event that was
claimed is never pending again. -/
theorem notification_claimed_once (h : ReachedPool rt s) :
    (s.replies.Pairwise fun a b => ∀ eventId ∈ a.ids, eventId ∉ b.ids) ∧
      ∀ s', ReachedFrom rt s s' → ∀ e ∈ s.store.events,
        (e.notificationStatus = .claimed ∨ ∃ reply ∈ s.replies, e.eventId ∈ reply.ids) →
          ∀ e' ∈ s'.store.events, e'.eventId = e.eventId → e'.notificationStatus ≠ .pending := by
  refine ⟨h.sound.inv.apart, fun s' hrun e he hclaimed e' he' hid => ?_⟩
  have htaken : Taken e.eventId none s.store.events := by
    rcases hclaimed with hstatus | ⟨reply, hreply, hmem⟩
    · exact ⟨e, he, rfl, hstatus ▸ nofun, nofun⟩
    · cases reply with
      | done => cases hmem
      | claimed batchId ids =>
          obtain ⟨x, hx, hxid, hxstatus, -⟩ := h.sound.inv.taken batchId ids hreply _ hmem
          exact ⟨x, hx, hxid, hxstatus, nofun⟩
  obtain ⟨x, hx, hxid, hxstatus, -⟩ := taken_of_reachedFrom h hrun htaken
  have hreached' := h.from hrun
  rw [List.inj_on_of_nodup_map hreached'.sound.inv.addressed.nodup he' hx (hid.trans hxid.symm)]
  exact hxstatus

end Orders

/-- Two claims that both read a vanished fixture's event before either marks it. -/
def twoClaims : List (Move FollowTask) :=
  [.arrive (.claim 20 "fn_1" 2), .arrive (.claim 20 "fn_2" 2),
    .arrive (.operation (.updateSettings true)), .advance 2,
    .arrive (.operation (.follow (followOf before "fm_1" 0))), .advance 2,
    .arrive (.operation (.reconcile (reconcileOf [] 1))), .advance 2,
    .advance 0, .advance 1, .advance 0, .advance 1, .advance 1, .advance 0]

/-- The event is in one of the two batches. -/
theorem notification_claimed_once_twoClaims :
    (twoClaims.foldl (Pool.move (FollowTask.act .standard)) (.of emptyDb)).replies.Pairwise
      fun a b => ∀ eventId ∈ a.ids, eventId ∉ b.ids := by
  refine (notification_claimed_once (Reaches.run (.start rfl) ?_)).1
  exact ⟨⟨fun _ he => absurd he List.not_mem_nil, fun _ hq => absurd hq List.not_mem_nil⟩,
    ⟨fun _ he => absurd he List.not_mem_nil,
      fun q hq => List.mem_singleton.mp hq ▸ by simp [FollowTask.batchId?]⟩,
    rfl, trivial, rfl, trivial, rfl, trivial, trivial, trivial, trivial, trivial, trivial, trivial,
    trivial⟩

end Golavo.Follows
