import Golavo.Follows.OneFollow
import Golavo.Lib.KeyedLog

/-! # The history of the follow store

The id of an event is a digest of its **content**, and an event whose id is there is not written
again: the history is a keyed log. A transaction is described by the events it tries to write; which
of them are kept then depends on their ids alone. -/

namespace Golavo.Follows

open Golavo.Lib (Json Reaches insertNew insertAllNew bind_ok_iff orFail_ok_iff)
open Golavo.Ledger (Runtime)

/-! ## Contents -/

/-- What the id of an event is a digest of. -/
structure EventContent where
  followId : String
  eventType : EventType
  sourceId : String
  /-- The source's reference, or else the index's generation. -/
  reference : String
  before : Json
  after : Json
  conflict : Json
  deriving DecidableEq, Repr

/-- The id of an event with a content. -/
def EventContent.id (rt : Runtime) (c : EventContent) : String :=
  "fe_" ++ rt.sha256 (List.intercalate ['\n']
    [followSchemaVersion.toList, c.followId.toList, c.eventType.name.toList, c.sourceId.toList,
      c.reference.toList, Json.dumps c.before, Json.dumps c.after, Json.dumps c.conflict])

/-- The reference of an event: its source's, or else the generation's. -/
def referenceOf (sourceRef generationId : Option String) : String :=
  (orText sourceRef (orText generationId (some "local"))).getD ""

/-- The content of the event a draft becomes. -/
def EventDraft.content (d : EventDraft) (followId : String) : EventContent where
  followId := followId
  eventType := d.eventType
  sourceId := d.sourceId
  reference := referenceOf d.sourceRef d.generationId
  before := d.before.getD .null
  after := d.after.getD .null
  conflict := d.conflict.getD .null

/-- The content of an event. -/
def FollowEvent.content (e : FollowEvent) : EventContent where
  followId := e.followId
  eventType := e.eventType
  sourceId := e.sourceId
  reference := referenceOf e.sourceRef e.generationId
  before := e.before.getD .null
  after := e.after.getD .null
  conflict := e.conflict.getD .null

section Events

variable {rt : Runtime} {db db' : FollowDb} {followId : String} {now : Int}

/-- The id of an event is that of its content. -/
theorem eventId_eq (d : EventDraft) : eventId rt followId d = (d.content followId).id rt := rfl

@[simp] theorem content_toEvent (d : EventDraft) :
    (d.toEvent rt db followId now).content = d.content followId := rfl

@[simp] theorem eventId_toEvent (d : EventDraft) :
    (d.toEvent rt db followId now).eventId = (d.content followId).id rt := rfl

/-- Whether an event would be pending depends on the settings alone. -/
theorem toEvent_congr (h : db'.notificationsOptIn = db.notificationsOptIn) (d : EventDraft) :
    d.toEvent rt db' followId now = d.toEvent rt db followId now := by
  simp only [EventDraft.toEvent, h]

/-! ## The history under each write -/

theorem events_insertEvent (d : EventDraft) : (db.insertEvent rt followId now d).events =
    insertNew FollowEvent.eventId db.events (d.toEvent rt db followId now) := by
  unfold FollowDb.insertEvent insertNew
  dsimp only
  split_ifs <;> rfl

@[simp] theorem optIn_insertEvent (d : EventDraft) :
    (db.insertEvent rt followId now d).notificationsOptIn = db.notificationsOptIn := by
  unfold FollowDb.insertEvent
  dsimp only
  split_ifs <;> rfl

@[simp] theorem optIn_insertEvents (ds : List EventDraft) :
    (db.insertEvents rt followId now ds).notificationsOptIn = db.notificationsOptIn := by
  unfold FollowDb.insertEvents
  induction ds generalizing db with
  | nil => rfl
  | cons d rest ih => rw [List.foldl_cons, ih, optIn_insertEvent]

theorem events_insertEvents (ds : List EventDraft) : (db.insertEvents rt followId now ds).events =
    insertAllNew FollowEvent.eventId db.events (ds.map (·.toEvent rt db followId now)) := by
  unfold FollowDb.insertEvents
  induction ds generalizing db with
  | nil => rfl
  | cons d rest ih =>
      have hrest : rest.map (·.toEvent rt (db.insertEvent rt followId now d) followId now) =
          rest.map (·.toEvent rt db followId now) :=
        List.map_congr_left fun d _ => toEvent_congr (optIn_insertEvent _) d
      rw [List.foldl_cons, ih, hrest, events_insertEvent, List.map_cons, Lib.insertAllNew_cons]

@[simp] theorem optIn_recordIdentity (kind : IdentityKind) (value : Option String)
    (sourceId : String) : (db.recordIdentity followId kind value sourceId now).notificationsOptIn =
      db.notificationsOptIn := by
  unfold FollowDb.recordIdentity
  split
  · rfl
  · split_ifs <;> rfl

@[simp] theorem history_recordIdentity (kind : IdentityKind) (value : Option String)
    (sourceId : String) :
    (db.recordIdentity followId kind value sourceId now).events = db.events := by
  unfold FollowDb.recordIdentity
  split
  · rfl
  · split_ifs <;> rfl

@[simp] theorem optIn_recordIdentities (s : Snapshot) :
    (db.recordIdentities followId s now).notificationsOptIn = db.notificationsOptIn := by
  unfold FollowDb.recordIdentities
  dsimp only
  split_ifs <;> simp

@[simp] theorem history_recordIdentities (s : Snapshot) :
    (db.recordIdentities followId s now).events = db.events := by
  unfold FollowDb.recordIdentities
  dsimp only
  split_ifs <;> simp

/-- An accepted update touches the subscriptions alone. -/
theorem history_updateMatch {r : FollowRow} (h : db.updateMatch r = .ok db') :
    db'.events = db.events ∧ db'.notificationsOptIn = db.notificationsOptIn := by
  obtain ⟨-, rfl⟩ := updateMatch_ok_iff.mp h
  exact ⟨rfl, rfl⟩

end Events

/-! ## What following and unfollowing write -/

section Follow

variable {rt : Runtime} {db db' : FollowDb}

/-- What following a fixture does when it goes through: nothing to an active subscription, and an
event beside the row of one woken or made. -/
theorem followMatch_cases {req : FollowRequest} {reply : String × Bool}
    (h : followMatch rt db req = .ok (db', reply)) :
    ∃ s, snapshot req.fixture = .ok s ∧
      ((∃ old, db.existing req.order s.fixture.matchId = some old ∧ old.isActive = true ∧
          db' = db) ∨
        (∃ old, db.existing req.order s.fixture.matchId = some old ∧ old.isActive = false ∧
          db'.followedMatches = (db.replaceMatch (refollowed s req old)).followedMatches ∧
          db'.events = insertNew FollowEvent.eventId db.events
            ((followDraft .refollowed s req).toEvent rt db old.followId req.now)) ∨
        (db.existing req.order s.fixture.matchId = none ∧
          req.newId ∉ db.followedMatches.map FollowRow.followId ∧
          db'.followedMatches = db.followedMatches ++ [newFollow s req] ∧
          db'.events = insertNew FollowEvent.eventId db.events
            ((followDraft .followed s req).toEvent rt db req.newId req.now))) := by
  obtain ⟨s, hs, hrun⟩ := bind_ok_iff.mp h
  refine ⟨s, hs, ?_⟩
  split at hrun
  · rename_i old hexisting
    split_ifs at hrun with hactive
    · obtain ⟨_, -, hdone⟩ := bind_ok_iff.mp hrun
      obtain ⟨rfl, -⟩ := Prod.mk.inj (Except.ok.inj hdone)
      exact .inl ⟨old, hexisting, hactive, rfl⟩
    · obtain ⟨next, hup, hrest⟩ := bind_ok_iff.mp hrun
      obtain ⟨_, -, hdone⟩ := bind_ok_iff.mp hrest
      obtain ⟨rfl, -⟩ := Prod.mk.inj (Except.ok.inj hdone)
      obtain ⟨-, rfl⟩ := updateMatch_ok_iff.mp hup
      refine .inr (.inl ⟨old, hexisting, Bool.not_eq_true _ ▸ hactive, by simp, ?_⟩)
      rw [events_insertEvent, history_recordIdentities]
      exact congrArg _ (toEvent_congr (by simp [FollowDb.replaceMatch]) _)
  · rename_i hexisting
    obtain ⟨next, hin, hrest⟩ := bind_ok_iff.mp hrun
    obtain ⟨_, -, hdone⟩ := bind_ok_iff.mp hrest
    obtain ⟨rfl, -⟩ := Prod.mk.inj (Except.ok.inj hdone)
    obtain ⟨hfresh, -, rfl⟩ := insertMatch_ok_iff.mp hin
    refine .inr (.inr ⟨hexisting, hfresh, by simp, ?_⟩)
    rw [events_insertEvent, history_recordIdentities]
    exact congrArg _ (toEvent_congr (by simp) _)

/-- What unfollowing does when it goes through: nothing to an inactive subscription, and an event
beside the row of an active one. -/
theorem unfollow_cases {followId : String} {now : Int} (h : unfollow rt db followId now = .ok db') :
    ∃ row, db.find followId = some row ∧
      ((row.isActive = false ∧ db' = db) ∨
        (row.isActive = true ∧
          db'.followedMatches = (db.replaceMatch { row with
            subscriptionState := .unfollowed
            updatedAtUtc := now
            unfollowedAtUtc := some now }).followedMatches ∧
          db'.events = insertNew FollowEvent.eventId db.events
            ((unfollowDraft row).toEvent rt db followId now))) := by
  obtain ⟨row, hrow, hrun⟩ := bind_ok_iff.mp h
  refine ⟨row, orFail_ok_iff.mp hrow, ?_⟩
  split_ifs at hrun with hactive
  · obtain ⟨next, hup, hdone⟩ := bind_ok_iff.mp hrun
    obtain rfl := Except.ok.inj hdone
    obtain ⟨-, rfl⟩ := updateMatch_ok_iff.mp hup
    refine .inr ⟨hactive, by simp, ?_⟩
    rw [events_insertEvent]
    exact congrArg _ (toEvent_congr rfl _)
  · obtain rfl := Except.ok.inj hrun
    exact .inl ⟨Bool.not_eq_true _ ▸ hactive, rfl⟩

end Follow

/-! ## What reconciling a subscription writes -/

/-- What reconciling one subscription comes to: the events it records of what it found, the event of
a settlement it can announce in the store it then sees, and its new row. -/
inductive RowOutcome (req : ReconcileRequest) (row : FollowRow) (mid : FollowDb) :
    List EventDraft → List EventDraft → FollowRow → Prop where
  | unresolved : lookup req.frame row = .unresolved →
      RowOutcome req row mid [unresolvedDraft req row] [] (unresolvedRow req row)
  | found (current : Snapshot) : lookup req.frame row = .byMatchId current.fixture →
      RowOutcome req row mid
        (comparisonEvents req row.currentSnapshot current ++ healthEvents req row current)
        (settlementEvents req mid row current) (resolvedRow req row current)
  | repointed (current : Snapshot) : lookup req.frame row = .repointed current.fixture →
      RowOutcome req row mid (repointDraft req row current ::
          (comparisonEvents req row.currentSnapshot current ++ healthEvents req row current))
        (settlementEvents req mid row current) (resolvedRow req row current)

/-- What reconciling one subscription came to. -/
structure RowRecord (req : ReconcileRequest) where
  row : FollowRow
  mid : FollowDb
  drafts : List EventDraft
  settlement : List EventDraft
  new : FollowRow
  outcome : RowOutcome req row mid drafts settlement new

/-- The events a reconciled subscription tries to write. -/
def RowRecord.events {req : ReconcileRequest} (rt : Runtime) (db : FollowDb) (r : RowRecord req) :
    List FollowEvent :=
  (r.drafts ++ r.settlement).map (·.toEvent rt db r.row.followId req.now)

section Rows

variable {rt : Runtime} {req : ReconcileRequest} {db db' mid : FollowDb} {row new : FollowRow}
  {drafts settlement : List EventDraft}

theorem RowOutcome.followId (h : RowOutcome req row mid drafts settlement new) :
    new.followId = row.followId := by
  cases h <;> rfl

theorem RowOutcome.subscriptionState (h : RowOutcome req row mid drafts settlement new) :
    new.subscriptionState = row.subscriptionState := by
  cases h <;> rfl

/-- A settlement's event is one of availability. -/
theorem RowOutcome.settlementType (h : RowOutcome req row mid drafts settlement new) :
    ∀ d ∈ settlement, d.eventType = .settlementAvailable := by
  have hevents : ∀ current, ∀ d ∈ settlementEvents req mid row current,
      d.eventType = .settlementAvailable := by
    intro current d hd
    unfold settlementEvents at hd
    dsimp only at hd
    split_ifs at hd
    · obtain rfl := List.mem_singleton.mp hd
      rfl
    · cases hd
  cases h with
  | unresolved => exact fun d hd => absurd hd List.not_mem_nil
  | found current => exact hevents current
  | repointed current => exact hevents current

/-- The drafts a map makes under the types of what it is made from have them in order. -/
theorem types_filterMap {α : Type} {type : α → EventType} {f : α → Option EventDraft}
    (hf : ∀ a d, f a = some d → d.eventType = type a) (items : List α) :
    ((items.filterMap f).map EventDraft.eventType).Sublist (items.map type) := by
  induction items with
  | nil => exact .slnil
  | cons a rest ih =>
      cases ha : f a with
      | none =>
          rw [List.filterMap_cons_none ha]
          exact ih.cons _
      | some d =>
          rw [List.filterMap_cons_some ha, List.map_cons, List.map_cons, hf a d ha]
          exact ih.cons_cons _

/-- What differs becomes events of distinct types, in the order of the comparisons. -/
theorem types_comparisonEvents (req : ReconcileRequest) (previous : Json) (current : Snapshot) :
    ((comparisonEvents req previous current).map EventDraft.eventType).Sublist
      [.kickoffChanged, .venueChanged, .scorePublished] := by
  refine @types_filterMap _ Prod.fst _ (fun c d hd => ?_) comparisons
  obtain ⟨-, hd⟩ := Option.ite_none_left_eq_some.mp hd
  rw [← Option.some.inj hd]
  rfl

/-- What a source's health comes to: a conflict or an outage, whatever the subscription's data was, or
the fixture's own state, with an event for the subscriptions it recovers. -/
theorem healthOf_cases (req : ReconcileRequest) (current : Snapshot) :
    (∀ row, healthOf req row current = (.sourceConflict, some .sourceConflict)) ∨
      (∀ row, healthOf req row current = (.sourceUnavailable, some .sourceUnavailable)) ∨
      ∀ row, healthOf req row current = (current.dataState,
        if row.dataState = .sourceConflict ∨ row.dataState = .sourceUnavailable then
          some .sourceRecovered
        else none) := by
  unfold healthOf
  split
  · exact .inl fun _ => rfl
  · exact .inr (.inl fun _ => rfl)
  · exact .inr (.inl fun _ => rfl)
  · exact .inr (.inl fun _ => rfl)
  · exact .inr (.inl fun _ => rfl)
  · exact .inr (.inr fun _ => rfl)

/-- The event a source's health makes, if it makes one. -/
theorem healthEvents_of_eq {state : DataState} {type : Option EventType} {current : Snapshot}
    (h : healthOf req row current = (state, type)) :
    healthEvents req row current = type.toList.map fun type =>
      { draftOf req type current.json "identity" with
        before := some (.mk [("data_state", .str row.dataState.name)])
        after := some (.mk [("data_state", .str state.name)]) } := by
  unfold healthEvents
  rw [h]
  cases type <;> rfl

/-- A source's health makes at most one event, of a type of its own. -/
theorem types_healthEvents (req : ReconcileRequest) (row : FollowRow) (current : Snapshot) :
    (healthEvents req row current).map EventDraft.eventType = [] ∨
      (healthEvents req row current).map EventDraft.eventType = [.sourceConflict] ∨
      (healthEvents req row current).map EventDraft.eventType = [.sourceUnavailable] ∨
      (healthEvents req row current).map EventDraft.eventType = [.sourceRecovered] := by
  rcases healthOf_cases req current with h | h | h <;> rw [healthEvents_of_eq (h row)]
  · exact .inr (.inl rfl)
  · exact .inr (.inr (.inl rfl))
  · split_ifs
    · exact .inr (.inr (.inr rfl))
    · exact .inl rfl

/-- **One subscription's events are of distinct types.** -/
theorem RowOutcome.types_nodup (h : RowOutcome req row mid drafts settlement new) :
    ((drafts ++ settlement).map EventDraft.eventType).Nodup := by
  have hsettlement : ∀ current, (settlementEvents req mid row current).map EventDraft.eventType = [] ∨
      (settlementEvents req mid row current).map EventDraft.eventType = [.settlementAvailable] := by
    intro current
    unfold settlementEvents
    dsimp only
    split_ifs
    · exact .inr rfl
    · exact .inl rfl
  have hfound : ∀ current, ([EventType.matchRepointed] ++
      (comparisonEvents req row.currentSnapshot current).map EventDraft.eventType ++
        (healthEvents req row current).map EventDraft.eventType ++
          (settlementEvents req mid row current).map EventDraft.eventType).Nodup := by
    intro current
    -- every combination is part of one list of distinct types
    have hall : ∀ health ∈ [[], [EventType.sourceConflict], [.sourceUnavailable], [.sourceRecovered]],
        ∀ settlement ∈ [[], [EventType.settlementAvailable]],
          ([EventType.matchRepointed] ++
            [EventType.kickoffChanged, .venueChanged, .scorePublished] ++ health ++
              settlement).Nodup := by
      decide
    have hhealth := types_healthEvents req row current
    have hnodup := hall _ (by simp only [List.mem_cons, List.not_mem_nil, or_false]; exact hhealth) _
      (by simp only [List.mem_cons, List.not_mem_nil, or_false]; exact hsettlement current)
    exact hnodup.sublist (((((List.Sublist.refl _).append
      (types_comparisonEvents req row.currentSnapshot current)).append_right _).append_right _))
  cases h with
  | unresolved => exact List.nodup_singleton _
  | found current =>
      rw [List.map_append, List.map_append]
      have hnodup := hfound current
      rw [List.append_assoc, List.append_assoc, List.nodup_append] at hnodup
      rw [List.append_assoc]
      exact hnodup.2.1
  | repointed current =>
      rw [List.map_append, List.map_cons, List.map_append]
      exact hfound current

/-- What settling a subscription's row does when it goes through. -/
theorem settleRow_history {current : Snapshot} (h : settleRow rt req row db current = .ok db') :
    ∃ mid, db'.events = insertAllNew FollowEvent.eventId db.events
        (((comparisonEvents req row.currentSnapshot current ++ healthEvents req row current) ++
          settlementEvents req mid row current).map (·.toEvent rt db row.followId req.now)) ∧
      mid.events = insertAllNew FollowEvent.eventId db.events
        ((comparisonEvents req row.currentSnapshot current ++ healthEvents req row current).map
          (·.toEvent rt db row.followId req.now)) ∧
      db'.notificationsOptIn = db.notificationsOptIn := by
  obtain ⟨hevents, hoptIn⟩ := history_updateMatch h
  refine ⟨_, ?_, events_insertEvents _, by rw [hoptIn, optIn_insertEvents, optIn_insertEvents]⟩
  have hsettlement : ∀ (found ds : List EventDraft),
      ds.map (·.toEvent rt (db.insertEvents rt row.followId req.now found) row.followId req.now) =
        ds.map (·.toEvent rt db row.followId req.now) :=
    fun _ ds => List.map_congr_left fun d _ => toEvent_congr (optIn_insertEvents _) d
  rw [hevents, events_insertEvents, events_insertEvents, hsettlement, ← Lib.insertAllNew_append,
    ← List.map_append]

/-- **What reconciling one subscription writes** when it goes through. -/
theorem reconcileRow_history (h : reconcileRow rt req db row = .ok db') :
    ∃ r : RowRecord req, r.row = row ∧
      db'.followedMatches = (db.replaceMatch r.new).followedMatches ∧
      db'.events = insertAllNew FollowEvent.eventId db.events (r.events rt db) ∧
      r.mid.events = insertAllNew FollowEvent.eventId db.events
        (r.drafts.map (·.toEvent rt db row.followId req.now)) ∧
      db'.notificationsOptIn = db.notificationsOptIn := by
  unfold reconcileRow at h
  cases hlookup : lookup req.frame row with
  | unresolved =>
      simp only [hlookup] at h
      obtain ⟨-, rfl⟩ := updateMatch_ok_iff.mp h
      refine ⟨⟨row, db.insertEvent rt row.followId req.now (unresolvedDraft req row), _, _, _,
        .unresolved hlookup⟩, rfl, by simp [FollowDb.replaceMatch], events_insertEvent _,
        events_insertEvent _, optIn_insertEvent _⟩
  | byMatchId m =>
      simp only [hlookup] at h
      obtain ⟨current, hcurrent, hsettle⟩ := bind_ok_iff.mp h
      obtain rfl := snapshot_ok_iff.mp hcurrent
      obtain ⟨mid, hevents, hmid, hoptIn⟩ := settleRow_history hsettle
      obtain ⟨-, hmatches⟩ := settleRow_ok_iff hsettle
      exact ⟨⟨row, mid, _, _, _, .found current hlookup⟩, rfl, hmatches, hevents, hmid, hoptIn⟩
  | repointed m =>
      simp only [hlookup] at h
      obtain ⟨current, hcurrent, hsettle⟩ := bind_ok_iff.mp h
      obtain rfl := snapshot_ok_iff.mp hcurrent
      obtain ⟨mid, hevents, hmid, hoptIn⟩ := settleRow_history hsettle
      obtain ⟨-, hmatches⟩ := settleRow_ok_iff hsettle
      have hdrafts : ∀ ds : List EventDraft, ds.map (·.toEvent rt
          ((db.insertEvent rt row.followId req.now (repointDraft req row current)).recordIdentity
            row.followId .matchId (some current.fixture.matchId) current.sourceId req.now)
          row.followId req.now) = ds.map (·.toEvent rt db row.followId req.now) :=
        fun ds => List.map_congr_left fun d _ => toEvent_congr (by simp) d
      rw [history_recordIdentity, events_insertEvent, hdrafts] at hevents hmid
      refine ⟨⟨row, mid, _, _, _, .repointed current hlookup⟩, rfl, ?_, ?_, ?_, ?_⟩
      · rw [hmatches]
        simp [FollowDb.replaceMatch]
      · rw [hevents]
        rfl
      · rw [hmid]
        rfl
      · rw [hoptIn]
        simp

/-- **What reconciling subscriptions one after another writes** when it goes through. -/
theorem foldlM_reconcileRow_history {rows : List FollowRow}
    (h : rows.foldlM (reconcileRow rt req) db = .ok db') :
    ∃ records : List (RowRecord req), records.map RowRecord.row = rows ∧
      db'.events = insertAllNew FollowEvent.eventId db.events (records.flatMap (·.events rt db)) ∧
      (∀ x ∈ db'.followedMatches, (∃ r ∈ records, x = r.new) ∨
        (x ∈ db.followedMatches ∧ ∀ r ∈ records, r.row.followId ≠ x.followId)) ∧
      (∀ r ∈ records, r.mid.events <+: db'.events) ∧
      db'.notificationsOptIn = db.notificationsOptIn := by
  induction rows generalizing db with
  | nil =>
      obtain rfl := Except.ok.inj h
      exact ⟨[], rfl, rfl, fun x hx => .inr ⟨hx, fun r hr => absurd hr List.not_mem_nil⟩,
        fun r hr => absurd hr List.not_mem_nil, rfl⟩
  | cons row rest ih =>
      rw [List.foldlM_cons] at h
      obtain ⟨next, hnext, hrest⟩ := bind_ok_iff.mp h
      obtain ⟨r, rfl, hmatches, hevents, hmid, hoptIn⟩ := reconcileRow_history hnext
      obtain ⟨records, rfl, hevents', hrows, hmids, hoptIn'⟩ := ih hrest
      have hrecords : records.flatMap (·.events rt next) = records.flatMap (·.events rt db) := by
        refine List.flatMap_congr fun r _ => ?_
        exact List.map_congr_left fun d _ => toEvent_congr hoptIn d
      have hgrown : r.mid.events <+: next.events := by
        rw [hmid, hevents, RowRecord.events, List.map_append, Lib.insertAllNew_append]
        exact Lib.prefix_insertAllNew _ _ _
      refine ⟨r :: records, rfl, ?_, fun x hx => ?_, List.forall_mem_cons.mpr ⟨?_, hmids⟩,
        hoptIn'.trans hoptIn⟩
      · rw [hevents', hevents, hrecords, List.flatMap_cons, Lib.insertAllNew_append]
      · rcases hrows x hx with ⟨s, hs, rfl⟩ | ⟨hx, hfree⟩
        · exact .inl ⟨s, List.mem_cons_of_mem _ hs, rfl⟩
        · rw [hmatches] at hx
          rcases mem_replaceMatch.mp hx with ⟨rfl, -⟩ | ⟨hx, hne⟩
          · exact .inl ⟨r, List.mem_cons_self, rfl⟩
          · refine .inr ⟨hx, List.forall_mem_cons.mpr ⟨?_, hfree⟩⟩
            rw [r.outcome.followId] at hne
            exact fun heq => hne heq.symm
      · rw [hevents']
        exact hgrown.trans (Lib.prefix_insertAllNew _ _ _)

end Rows

/-! ## Every step's history -/

/-- What a change outside an event's content and claim may do: the notification is not offered
again. -/
structure Touched (e e' : FollowEvent) : Prop where
  eventId : e'.eventId = e.eventId
  content : e'.content = e.content
  batch : e'.notificationBatchId = e.notificationBatchId
  offered : e.notificationStatus ≠ .pending → e'.notificationStatus ≠ .pending

theorem Touched.refl (e : FollowEvent) : Touched e e := ⟨rfl, rfl, rfl, id⟩

/-- A property of histories that every insertion keeps, and every change outside an event's content
and claim. -/
structure HistoryRule (rt : Runtime) (P : List FollowEvent → Prop) : Prop where
  insert : ∀ events db followId now (d : EventDraft), P events →
    P (insertNew FollowEvent.eventId events (d.toEvent rt db followId now))
  touch : ∀ events (f : FollowEvent → FollowEvent), (∀ e, Touched e (f e)) → P events →
    P (events.map f)

/-- The same for the insertion of certain drafts, all of them but perhaps those of recorded
settlements. -/
structure DraftRule (rt : Runtime) (admits : EventDraft → Prop) (P : List FollowEvent → Prop) :
    Prop where
  other : ∀ d : EventDraft, d.eventType ≠ .settlementRecorded → admits d
  insert : ∀ events db followId now (d : EventDraft), admits d → P events →
    P (insertNew FollowEvent.eventId events (d.toEvent rt db followId now))
  touch : ∀ events (f : FollowEvent → FollowEvent), (∀ e, Touched e (f e)) → P events →
    P (events.map f)

/-- A step that neither claims notifications nor removes the history. -/
def FollowStep.isOrdinary : FollowStep → Bool
  | .claimNotifications .. | .removeHistory => false
  | _ => true

/-- The settlements a step records. -/
def FollowStep.settled : FollowStep → List SettledItem
  | .settlements _ scored _ _ => scored
  | _ => []

section Rule

variable {rt : Runtime} {P : List FollowEvent → Prop} {admits : EventDraft → Prop}
  {db db' : FollowDb}

theorem HistoryRule.draftRule (h : HistoryRule rt P) : DraftRule rt (fun _ => True) P :=
  ⟨fun _ _ => trivial, fun events db followId now d _ => h.insert events db followId now d, h.touch⟩

/-- No event of a reconciled subscription records a settlement. -/
theorem RowOutcome.not_recorded {req : ReconcileRequest} {row new : FollowRow} {mid : FollowDb}
    {drafts settlement : List EventDraft} (h : RowOutcome req row mid drafts settlement new) :
    ∀ d ∈ drafts ++ settlement, d.eventType ≠ .settlementRecorded := by
  have hfound : ∀ current, ∀ d ∈ comparisonEvents req row.currentSnapshot current ++
      healthEvents req row current, d.eventType ≠ .settlementRecorded := by
    intro current d hd heq
    have htype : EventType.settlementRecorded ∈ (comparisonEvents req row.currentSnapshot current ++
        healthEvents req row current).map EventDraft.eventType :=
      heq ▸ List.mem_map_of_mem hd
    rw [List.map_append] at htype
    rcases List.mem_append.mp htype with htype | htype
    · have hmem := (types_comparisonEvents req row.currentSnapshot current).subset htype
      revert hmem
      decide
    · rcases types_healthEvents req row current with hnil | hone | hone | hone
      all_goals simp_all
  have hdrafts : ∀ d ∈ drafts, d.eventType ≠ .settlementRecorded := by
    cases h with
    | unresolved =>
        intro d hd heq
        rw [List.mem_singleton.mp hd] at heq
        cases heq
    | found current => exact hfound current
    | repointed current =>
        refine List.forall_mem_cons.mpr ⟨fun heq => ?_, hfound current⟩
        cases heq
  intro d hd
  rcases List.mem_append.mp hd with hd | hd
  · exact hdrafts d hd
  · rw [h.settlementType d hd]
    decide

theorem DraftRule.insertAll (h : DraftRule rt admits P) {followId : String} {now : Int}
    {events : List FollowEvent} (ds : List EventDraft) (hds : ∀ d ∈ ds, admits d) (hP : P events) :
    P (insertAllNew FollowEvent.eventId events (ds.map (·.toEvent rt db followId now))) := by
  induction ds generalizing events with
  | nil => exact hP
  | cons d rest ih =>
      exact ih (fun d hd => hds d (List.mem_cons_of_mem _ hd))
        (h.insert _ _ _ _ d (hds d List.mem_cons_self) hP)

theorem DraftRule.foldl_insertEvents (h : DraftRule rt admits P) {now : Int}
    (events : FollowRow → List EventDraft) (rows : List FollowRow)
    (hds : ∀ row ∈ rows, ∀ d ∈ events row, admits d) (hP : P db.events) :
    P (rows.foldl (fun db row => db.insertEvents rt row.followId now (events row)) db).events := by
  induction rows generalizing db with
  | nil => exact hP
  | cons row rest ih =>
      refine ih (fun r hr => hds r (List.mem_cons_of_mem _ hr)) ?_
      rw [events_insertEvents]
      exact h.insertAll _ (hds row List.mem_cons_self) hP

theorem DraftRule.followMatch {req : FollowRequest} {reply : String × Bool}
    (h : DraftRule rt admits P) (hP : P db.events)
    (hrun : followMatch rt db req = .ok (db', reply)) : P db'.events := by
  obtain ⟨s, -, ⟨_, -, -, rfl⟩ | ⟨_, -, -, -, hevents⟩ | ⟨-, -, -, hevents⟩⟩ :=
    followMatch_cases hrun
  · exact hP
  · rw [hevents]
    exact h.insert _ _ _ _ _ (h.other _ fun heq => by cases heq) hP
  · rw [hevents]
    exact h.insert _ _ _ _ _ (h.other _ fun heq => by cases heq) hP

theorem DraftRule.unfollow {followId : String} {now : Int} (h : DraftRule rt admits P)
    (hP : P db.events) (hrun : unfollow rt db followId now = .ok db') : P db'.events := by
  obtain ⟨row, -, ⟨-, rfl⟩ | ⟨-, -, hevents⟩⟩ := unfollow_cases hrun
  · exact hP
  · rw [hevents]
    exact h.insert _ _ _ _ _ (h.other _ fun heq => by cases heq) hP

theorem DraftRule.reconcileRow {req : ReconcileRequest} {row : FollowRow}
    (h : DraftRule rt admits P) (hP : P db.events)
    (hrun : reconcileRow rt req db row = .ok db') : P db'.events := by
  obtain ⟨r, -, -, hevents, -⟩ := reconcileRow_history hrun
  rw [hevents]
  exact h.insertAll _ (fun d hd => h.other d (r.outcome.not_recorded d hd)) hP

theorem DraftRule.recordConflict {sources : SourceTable} {now : Int} {c : ConflictDetail}
    (h : DraftRule rt admits P) (hP : P db.events)
    (hrun : recordConflict rt sources now db c = .ok db') : P db'.events := by
  unfold Follows.recordConflict at hrun
  split at hrun
  · obtain rfl := Except.ok.inj hrun
    exact hP
  · rw [(history_updateMatch hrun).1, events_insertEvent]
    exact h.insert _ _ _ _ _ (h.other _ fun heq => by cases heq) hP

/-- **Every ordinary step keeps what insertions and changes of other columns keep**, if the
settlements it records are among the drafts. -/
theorem DraftRule.run (h : DraftRule rt admits P) (hP : P db.events) {step : FollowStep}
    (hstep : step.isOrdinary = true) (hsettled : ∀ item ∈ step.settled, ∀ row checkedAtUtc,
      admits (settledDraft row checkedAtUtc item)) : P (step.run rt db).events := by
  have hcommitted : ∀ result : Except FollowFailure FollowDb,
      (∀ next, result = .ok next → P next.events) → P (committed db result).events := by
    intro result hnext
    cases result with
    | ok next => exact hnext next rfl
    | error e => exact hP
  cases step with
  | follow req =>
      refine hcommitted _ fun next hnext => ?_
      cases hrun : Follows.followMatch rt db req with
      | ok result =>
          rw [hrun] at hnext
          obtain rfl := Except.ok.inj hnext
          exact h.followMatch hP hrun
      | error e =>
          rw [hrun] at hnext
          cases hnext
  | unfollow followId now => exact hcommitted _ fun _ => h.unfollow hP
  | reconcile req =>
      refine hcommitted _ fun next hnext => ?_
      obtain ⟨db', hrun, hnext⟩ := bind_ok_iff.mp hnext
      obtain ⟨_, -, hnext⟩ := bind_ok_iff.mp hnext
      obtain rfl := Except.ok.inj hnext
      exact @foldlM_invariant _ _ _ (fun db => P db.events) _
        (fun _ _ _ hdb hrow => h.reconcileRow hdb hrow) _ hP hrun
  | settlements order scored checkedAtUtc now =>
      refine h.foldl_insertEvents _ _ (fun row _ d hd => ?_) hP
      obtain ⟨item, hitem, rfl⟩ := List.mem_map.mp hd
      exact hsettled item (List.mem_filter.mp hitem).1 row checkedAtUtc
  | sourceRevisions order selected sources now =>
      refine h.foldl_insertEvents _ _ (fun row _ d hd => h.other d ?_) hP
      have htype : d.eventType = .sourceRevisionAvailable := by
        unfold revisionEvents at hd
        dsimp only at hd
        split at hd
        · split_ifs at hd
          · rw [List.mem_singleton.mp hd]
            rfl
          · cases hd
        · cases hd
      rw [htype]
      decide
  | conflicts details sources now =>
      exact hcommitted _ fun _ hrun => @foldlM_invariant _ _ _ (fun db => P db.events) _
        (fun _ _ _ hdb hrow => h.recordConflict hdb hrow) _ hP hrun
  | updateSettings optIn => exact hP
  | markRead eventIds allEvents now =>
      refine hcommitted _ fun next hnext => ?_
      obtain ⟨_, -, hnext⟩ := bind_ok_iff.mp hnext
      obtain rfl := Except.ok.inj hnext
      refine h.touch _ _ (fun e => ?_) hP
      split_ifs <;> exact ⟨rfl, rfl, rfl, id⟩
  | updateNotification eventId status error now =>
      refine hcommitted _ fun next hnext => ?_
      obtain ⟨_, hstatus, hnext⟩ := bind_ok_iff.mp hnext
      obtain ⟨_, -, hnext⟩ := bind_ok_iff.mp hnext
      obtain rfl := Except.ok.inj hnext
      refine h.touch _ _ (fun e => ?_) hP
      split_ifs
      · exact ⟨rfl, rfl, rfl, fun _ hpending => Lib.failIf_ok_iff.mp hstatus (.inl hpending)⟩
      · exact .refl e
  | claimNotifications => cases hstep
  | removeHistory => cases hstep

/-- **Every ordinary step keeps what insertions and changes of other columns keep.** -/
theorem HistoryRule.run (h : HistoryRule rt P) (hP : P db.events) {step : FollowStep}
    (hstep : step.isOrdinary = true) : P (step.run rt db).events :=
  h.draftRule.run hP hstep fun _ _ _ _ => trivial

end Rule

/-- A history that names every event by its content, each once. -/
structure Addressed (rt : Runtime) (events : List FollowEvent) : Prop where
  eventId : ∀ e ∈ events, e.eventId = e.content.id rt
  nodup : (events.map FollowEvent.eventId).Nodup

theorem addressed_nil (rt : Runtime) : Addressed rt [] :=
  ⟨fun _ he => absurd he List.not_mem_nil, List.nodup_nil⟩

/-- A change outside an event's content keeps its name. -/
theorem Addressed.map {rt : Runtime} {events : List FollowEvent} (h : Addressed rt events)
    {f : FollowEvent → FollowEvent}
    (hf : ∀ e, (f e).eventId = e.eventId ∧ (f e).content = e.content) :
    Addressed rt (events.map f) := by
  constructor
  · intro e he
    obtain ⟨old, hold, rfl⟩ := List.mem_map.mp he
    rw [(hf old).1, (hf old).2]
    exact h.eventId old hold
  · rw [List.map_map, show FollowEvent.eventId ∘ f = FollowEvent.eventId from
      funext fun e => (hf e).1]
    exact h.nodup

theorem addressed_rule (rt : Runtime) : HistoryRule rt (Addressed rt) where
  insert := fun events db followId now d h => by
    refine ⟨fun e he => ?_, Lib.nodup_insertAllNew [d.toEvent rt db followId now] h.nodup⟩
    rcases Lib.mem_insertAllNew (show e ∈ insertAllNew _ _ [_] from he) with he | he
    · exact h.eventId e he
    · obtain rfl := List.mem_singleton.mp he
      rfl
  touch := fun events f hf h => h.map fun e => ⟨(hf e).eventId, (hf e).content⟩

/-- **Every store reached names its events by their contents.** -/
theorem ReachedStore.addressed {rt : Runtime} {db : FollowDb} (h : ReachedStore rt db) :
    Addressed rt db.events := by
  refine @Reaches.invariant _ _ _ _ _ (fun db => Addressed rt db.events) _ h ?_ ?_
  · rintro _ rfl
    exact addressed_nil rt
  · intro db step hdb _
    cases step with
    | claimNotifications limit batchId now =>
        simp only [FollowStep.run, claimNotifications]
        split_ifs
        · refine hdb.map fun e => ?_
          split_ifs <;> exact ⟨rfl, rfl⟩
        · exact hdb
    | removeHistory => exact addressed_nil rt
    | _ => exact (addressed_rule rt).run hdb rfl

end Golavo.Follows
