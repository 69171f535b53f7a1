import Golavo.Follows.History

/-! # No follow event is lost

Every change a step makes to a followed fixture, of its subscription, of its data into or out of an
outage, or of what reconciling found, should leave one new event. Events are named by their contents,
so a change is **lost** when an event of the same content is in the history: the same subscription,
type, source, reference and payload. -/

namespace Golavo.Follows

open Golavo.Lib (Json insertNew insertAllNew bind_ok_iff orFail)
open Golavo.Ledger (Runtime)

/-! ## Changes and their events -/

/-- The events of a subscription's state. -/
def EventType.isSubscription : EventType → Bool
  | .followed | .unfollowed | .refollowed => true
  | _ => false

/-- The events that tell of a change of a subscription's data into or out of an outage. -/
def EventType.isSourceState : EventType → Bool
  | .sourceConflict | .sourceUnavailable | .sourceRecovered | .identityUnresolved | .refollowed => true
  | _ => false

/-- The data states of an outage. -/
def DataState.isOutage : DataState → Bool
  | .sourceConflict | .sourceUnavailable => true
  | _ => false

/-- Whether a snapshot shows a result: complete, with both scores. -/
def showsResult (snapshot : Json) : Bool :=
  field snapshot "is_complete" = .bool true && field snapshot "home_score" ≠ .null &&
    field snapshot "away_score" ≠ .null

/-- Exactly one event of a kind was appended for a subscription. -/
def AppendsOne (db db' : FollowDb) (followId : String) (kind : EventType → Bool) : Prop :=
  ∃ appended e, db'.events = db.events ++ appended ∧
    appended.filter (fun e => e.followId = followId && kind e.eventType) = [e]

/-- Every change of a subscription's state and every change of its data into or out of an outage left
one event. -/
structure ChangesRecorded (db db' : FollowDb) : Prop where
  followed : ∀ new ∈ db'.followedMatches,
    new.followId ∉ db.followedMatches.map FollowRow.followId →
      AppendsOne db db' new.followId EventType.isSubscription
  subscription : ∀ old ∈ db.followedMatches, ∀ new ∈ db'.followedMatches,
    new.followId = old.followId → new.subscriptionState ≠ old.subscriptionState →
      AppendsOne db db' old.followId EventType.isSubscription
  sourceState : ∀ old ∈ db.followedMatches, ∀ new ∈ db'.followedMatches,
    new.followId = old.followId → new.dataState ≠ old.dataState →
      (old.dataState.isOutage = true ∨ new.dataState.isOutage = true) →
        AppendsOne db db' old.followId EventType.isSourceState

/-- Every difference between the snapshots before and after, a score's once there is a result, left
one event. -/
def FindingsRecorded (db db' : FollowDb) : Prop :=
  ∀ old ∈ db.followedMatches, ∀ new ∈ db'.followedMatches, new.followId = old.followId →
    ∀ c ∈ comparisons, fieldsOf old.currentSnapshot c.2.2 ≠ fieldsOf new.currentSnapshot c.2.2 →
      (c.1 = .scorePublished → showsResult new.currentSnapshot = true) →
        AppendsOne db db' old.followId (· = c.1)

/-! ## What a step owes -/

/-- The events reconciling a subscription owes: those of what it found changed, and the one of its
data's state where that changes into or out of an outage. -/
def owedDrafts (req : ReconcileRequest) (row : FollowRow) : List EventDraft :=
  match (lookup req.frame row).found with
  | none => if row.dataState.isOutage then [unresolvedDraft req row] else []
  | some m =>
      match snapshot m with
      | .ok current => comparisonEvents req row.currentSnapshot current ++
          if (healthOf req row current).1 = row.dataState then [] else healthEvents req row current
      | .error _ => []

/-- The events a step owes, each with its subscription. -/
def FollowStep.owed (db : FollowDb) : FollowStep → List (String × EventDraft)
  | .follow req =>
      match snapshot req.fixture with
      | .ok s =>
          match db.existing req.order s.fixture.matchId with
          | some old =>
              if old.isActive then [] else [(old.followId, followDraft .refollowed s req)]
          | none => [(req.newId, followDraft .followed s req)]
      | .error _ => []
  | .unfollow followId _ =>
      match db.find followId with
      | some row => if row.isActive then [(followId, unfollowDraft row)] else []
      | none => []
  | .reconcile req =>
      db.active.flatMap fun row => (owedDrafts req row).map fun d => (row.followId, d)
  | _ => []

/-- The contents of the events a step may write. -/
def FollowStep.contents (db : FollowDb) : FollowStep → Set EventContent
  | .reconcile req => {c | ∃ row ∈ db.active, ∃ mid drafts settlement new,
      RowOutcome req row mid drafts settlement new ∧
        ∃ d ∈ drafts ++ settlement, c = d.content row.followId}
  | step => {c | ∃ p ∈ step.owed db, c = p.2.content p.1}

/-- A step that loses no event: the history has no event of the same content as one it owes, and no
two contents have one digest. -/
structure FollowStep.Lossless (rt : Runtime) (db : FollowDb) (step : FollowStep) : Prop where
  fresh : ∀ p ∈ step.owed db, p.2.content p.1 ∉ db.events.map FollowEvent.content
  apart : Set.InjOn (EventContent.id rt)
    {c | c ∈ db.events.map FollowEvent.content ∨ c ∈ step.contents db}

section Fresh

variable {rt : Runtime} {db db' : FollowDb} {step : FollowStep}

/-- An event whose content is new has a new id. -/
theorem id_notMem (haddressed : Addressed rt db.events)
    (hapart : Set.InjOn (EventContent.id rt)
      {c | c ∈ db.events.map FollowEvent.content ∨ c ∈ step.contents db})
    {c : EventContent} (hc : c ∈ step.contents db)
    (hfresh : c ∉ db.events.map FollowEvent.content) :
    c.id rt ∉ db.events.map FollowEvent.eventId := by
  intro hmem
  obtain ⟨e, he, hid⟩ := List.mem_map.mp hmem
  rw [haddressed.eventId e he] at hid
  have hcontent : e.content ∈ db.events.map FollowEvent.content := List.mem_map_of_mem he
  exact hfresh (hapart (.inl hcontent) (.inr hc) hid ▸ hcontent)

/-- A new event of a kind is the one appended. -/
theorem appendsOne_insertNew {followId : String} {now : Int} {d : EventDraft} {from' : FollowDb}
    {kind : EventType → Bool} (hkind : kind d.eventType = true)
    (hevents : db'.events = insertNew FollowEvent.eventId db.events (d.toEvent rt from' followId now))
    (hfresh : (d.content followId).id rt ∉ db.events.map FollowEvent.eventId) :
    AppendsOne db db' followId kind := by
  refine ⟨[d.toEvent rt from' followId now], d.toEvent rt from' followId now, ?_, ?_⟩
  · rw [hevents]
    exact if_neg hfresh
  · exact List.filter_cons_of_pos (by simp [EventDraft.toEvent, hkind])

end Fresh

/-! ## One item among many -/

/-- An item that alone passes a test is what filtering leaves. -/
theorem filter_eq_singleton {α : Type} {l : List α} {p : α → Bool} {a : α} (hnodup : l.Nodup)
    (ha : a ∈ l) (hp : p a = true) (honly : ∀ b ∈ l, p b = true → b = a) : l.filter p = [a] := by
  induction l with
  | nil => cases ha
  | cons b rest ih =>
      rw [List.nodup_cons] at hnodup
      rcases List.mem_cons.mp ha with rfl | ha
      · rw [List.filter_cons_of_pos hp, List.filter_eq_nil_iff.mpr]
        intro c hc hpc
        exact hnodup.1 (honly c (List.mem_cons_of_mem _ hc) hpc ▸ hc)
      · have hb : ¬ p b = true := fun hpb =>
          hnodup.1 (honly b List.mem_cons_self hpb ▸ ha)
        rw [List.filter_cons_of_neg hb]
        exact ih hnodup.2 ha fun c hc => honly c (List.mem_cons_of_mem _ hc)

/-- A map that gives nothing but at one item gives what it gives there. -/
theorem flatMap_eq_of_nodup {α β : Type} {l : List α} {f : α → List β} {a : α} (hnodup : l.Nodup)
    (ha : a ∈ l) (hnil : ∀ b ∈ l, b ≠ a → f b = []) : l.flatMap f = f a := by
  induction l with
  | nil => cases ha
  | cons b rest ih =>
      rw [List.nodup_cons] at hnodup
      rw [List.flatMap_cons]
      rcases List.mem_cons.mp ha with rfl | ha
      · have hrest : rest.flatMap f = [] := List.flatMap_eq_nil_iff.mpr fun c hc =>
          hnil c (List.mem_cons_of_mem _ hc) fun heq => hnodup.1 (heq ▸ hc)
        rw [hrest, List.append_nil]
      · rw [hnil b List.mem_cons_self fun heq => hnodup.1 (heq ▸ ha), List.nil_append]
        exact ih hnodup.2 ha fun c hc => hnil c (List.mem_cons_of_mem _ hc)

/-! ## What reconciling owes is written -/

section Records

variable {rt : Runtime} {req : ReconcileRequest} {db db' : FollowDb}

/-- **A record's event is the one appended**: of all events a reconciliation tries to write, an event
alone of its kind in its subscription's record, with a new id, is appended. -/
theorem appendsOne_of_record {records : List (RowRecord req)}
    (hids : (records.map fun r => r.row.followId).Nodup)
    (hkeys : ((records.flatMap (·.events rt db)).map FollowEvent.eventId).Nodup)
    (hevents : db'.events =
      insertAllNew FollowEvent.eventId db.events (records.flatMap (·.events rt db)))
    {r : RowRecord req} (hr : r ∈ records) {kind : EventType → Bool}
    (hkind : kind .settlementAvailable = false) {d : EventDraft}
    (hd : r.drafts.filter (fun d => kind d.eventType) = [d])
    (hfresh : (d.content r.row.followId).id rt ∉ db.events.map FollowEvent.eventId) :
    AppendsOne db db' r.row.followId kind := by
  have hother : ∀ s ∈ records, s ≠ r →
      (s.events rt db).filter (fun e => e.followId = r.row.followId && kind e.eventType) = [] := by
    intro s hs hne
    refine List.filter_eq_nil_iff.mpr fun e he => ?_
    obtain ⟨d, -, rfl⟩ := List.mem_map.mp he
    have hid : s.row.followId ≠ r.row.followId := fun heq =>
      hne (List.inj_on_of_nodup_map hids hs hr heq)
    simp [EventDraft.toEvent, hid]
  have hown : (r.events rt db).filter (fun e => e.followId = r.row.followId && kind e.eventType) =
      [d.toEvent rt db r.row.followId req.now] := by
    have hsettlement : r.settlement.filter (fun d => kind d.eventType) = [] :=
      List.filter_eq_nil_iff.mpr fun d hd => by
        rw [r.outcome.settlementType d hd, hkind]
        exact Bool.false_ne_true
    have hfilter : ((fun e : FollowEvent => decide (e.followId = r.row.followId) && kind e.eventType) ∘
        fun d : EventDraft => d.toEvent rt db r.row.followId req.now) = fun d => kind d.eventType := by
      funext d
      simp [EventDraft.toEvent]
    rw [RowRecord.events, List.filter_map, hfilter, List.filter_append, hd, hsettlement]
    rfl
  refine ⟨_, d.toEvent rt db r.row.followId req.now,
    hevents.trans (Lib.insertAllNew_eq hkeys), ?_⟩
  rw [List.filter_filter, List.filter_congr fun e _ => Bool.and_comm _ _, ← List.filter_filter,
    List.filter_flatMap, flatMap_eq_of_nodup hids.of_map hr hother, hown]
  exact List.filter_cons_of_pos (by simpa using hfresh)

/-- A draft alone of its kind among a record's. -/
theorem RowRecord.filter_drafts (r : RowRecord req) {kind : EventType → Bool} {d : EventDraft}
    (hd : d ∈ r.drafts) (hkind : kind d.eventType = true)
    (honly : ∀ d' ∈ r.drafts, kind d'.eventType = true → d'.eventType = d.eventType) :
    r.drafts.filter (fun d => kind d.eventType) = [d] := by
  have htypes : (r.drafts.map EventDraft.eventType).Nodup := by
    have hnodup := r.outcome.types_nodup
    rw [List.map_append, List.nodup_append] at hnodup
    exact hnodup.1
  exact filter_eq_singleton htypes.of_map hd hkind fun d' hd' hkind' =>
    List.inj_on_of_nodup_map htypes hd' hd (honly d' hd' hkind')

theorem type_comparisonEvents {previous : Json} {current : Snapshot} {d : EventDraft}
    (h : d ∈ comparisonEvents req previous current) :
    d.eventType ∈ [EventType.kickoffChanged, .venueChanged, .scorePublished] :=
  (types_comparisonEvents req previous current).subset (List.mem_map_of_mem h)

theorem type_healthEvents {row : FollowRow} {current : Snapshot} {d : EventDraft}
    (h : d ∈ healthEvents req row current) :
    d.eventType ∈ [EventType.sourceConflict, .sourceUnavailable, .sourceRecovered] := by
  have hmem : d.eventType ∈ (healthEvents req row current).map EventDraft.eventType :=
    List.mem_map_of_mem h
  rcases types_healthEvents req row current with heq | heq | heq | heq <;> rw [heq] at hmem
  · cases hmem
  · rw [List.mem_singleton.mp hmem]
    decide
  · rw [List.mem_singleton.mp hmem]
    decide
  · rw [List.mem_singleton.mp hmem]
    decide

/-- A source's health makes at most one event. -/
theorem healthEvents_unique {row : FollowRow} {current : Snapshot} {d d' : EventDraft}
    (h : d ∈ healthEvents req row current) (h' : d' ∈ healthEvents req row current) : d' = d := by
  have hlength : (healthEvents req row current).length ≤ 1 := by
    unfold healthEvents
    split <;> simp
  obtain ⟨a, ha⟩ := List.length_eq_one_iff.mp
    (le_antisymm hlength (List.length_pos_of_mem h))
  rw [ha] at h h'
  rw [List.mem_singleton.mp h, List.mem_singleton.mp h']

/-- Where a fixture's data goes into or out of an outage, its source's health makes an event. -/
theorem exists_healthEvent {row : FollowRow} {current : Snapshot}
    (houtage : row.dataState.isOutage = true ∨ (healthOf req row current).1.isOutage = true) :
    ∃ d, d ∈ healthEvents req row current := by
  have hcurrent : current.dataState.isOutage = false := by
    unfold Snapshot.dataState
    split_ifs <;> rfl
  rcases healthOf_cases req current with h | h | h
  · rw [healthEvents_of_eq (h row)]
    exact ⟨_, List.mem_singleton_self _⟩
  · rw [healthEvents_of_eq (h row)]
    exact ⟨_, List.mem_singleton_self _⟩
  · rw [h row, hcurrent] at houtage
    have hstate : row.dataState = .sourceConflict ∨ row.dataState = .sourceUnavailable := by
      have hrow := houtage.resolve_right Bool.false_ne_true
      revert hrow
      cases row.dataState <;> simp [DataState.isOutage]
    rw [healthEvents_of_eq (h row), if_pos hstate]
    exact ⟨_, List.mem_singleton_self _⟩

/-- What a record's row owes when its fixture was found. -/
theorem owedDrafts_of_found {row : FollowRow} {current : Snapshot}
    (h : (lookup req.frame row).found = some current.fixture) :
    owedDrafts req row = comparisonEvents req row.currentSnapshot current ++
      if (healthOf req row current).1 = row.dataState then [] else healthEvents req row current := by
  unfold owedDrafts
  rw [h]
  simp only [snapshot_ok_iff.mpr (show current.fixture = current.fixture from rfl)]

/-- A change of a subscription's data into or out of an outage has one event among its drafts, and
it is owed. -/
theorem RowRecord.sourceState (r : RowRecord req) (hne : r.new.dataState ≠ r.row.dataState)
    (houtage : r.row.dataState.isOutage = true ∨ r.new.dataState.isOutage = true) :
    ∃ d ∈ owedDrafts req r.row, d ∈ r.drafts ∧
      r.drafts.filter (fun d => d.eventType.isSourceState) = [d] := by
  have hcomparison : ∀ {current : Snapshot} {d : EventDraft},
      d ∈ comparisonEvents req r.row.currentSnapshot current → d.eventType.isSourceState = true →
        False := by
    intro current d hd hkind
    have := type_comparisonEvents hd
    revert this hkind
    cases d.eventType <;> simp [EventType.isSourceState]
  have hfound : ∀ (current : Snapshot), (lookup req.frame r.row).found = some current.fixture →
      r.new.dataState = (healthOf req r.row current).1 →
      (∀ d ∈ healthEvents req r.row current, d ∈ r.drafts) →
      (∀ d ∈ r.drafts, d.eventType.isSourceState = true → d ∈ healthEvents req r.row current) →
      ∃ d ∈ owedDrafts req r.row, d ∈ r.drafts ∧
        r.drafts.filter (fun d => d.eventType.isSourceState) = [d] := by
    intro current hlookup hstate hmem honly
    rw [hstate] at hne houtage
    obtain ⟨d, hd⟩ := exists_healthEvent houtage
    have hkind : d.eventType.isSourceState = true := by
      have := type_healthEvents hd
      revert this
      cases d.eventType <;> simp [EventType.isSourceState]
    refine ⟨d, ?_, hmem d hd, r.filter_drafts (hmem d hd) hkind fun d' hd' hkind' => ?_⟩
    · rw [owedDrafts_of_found hlookup, if_neg hne]
      exact List.mem_append_right _ hd
    · rw [healthEvents_unique hd (honly d' hd' hkind')]
  obtain ⟨row, mid, drafts, settlement, new, outcome⟩ := r
  dsimp only at *
  cases outcome with
  | unresolved hlookup =>
      have hrow := houtage.resolve_right (by simp [unresolvedRow, DataState.isOutage])
      refine ⟨unresolvedDraft req row, ?_, List.mem_singleton_self _, rfl⟩
      unfold owedDrafts
      rw [hlookup, Lookup.found_unresolved]
      dsimp only
      rw [if_pos hrow]
      exact List.mem_singleton_self _
  | found current hlookup =>
      refine hfound current (by rw [hlookup]; rfl) rfl
        (fun d hd => List.mem_append_right _ hd) fun d hd hkind => ?_
      exact (List.mem_append.mp hd).resolve_left fun hd => hcomparison hd hkind
  | repointed current hlookup =>
      refine hfound current (by rw [hlookup]; rfl) rfl
        (fun d hd => List.mem_cons_of_mem _ (List.mem_append_right _ hd)) fun d hd hkind => ?_
      rcases List.mem_cons.mp hd with rfl | hd
      · cases hkind
      · exact (List.mem_append.mp hd).resolve_left fun hd => hcomparison hd hkind

/-- Whether a snapshot's text shows a result is whether its fixture has one. -/
theorem showsResult_json (current : Snapshot) :
    showsResult current.json = current.fixture.hasResult := by
  have hfields : field current.json "is_complete" = .bool current.fixture.isComplete ∧
      field current.json "home_score" = nullable .int current.fixture.homeScore ∧
      field current.json "away_score" = nullable .int current.fixture.awayScore := by
    refine ⟨?_, ?_, ?_⟩ <;>
    · simp only [field, Snapshot.json, IndexMatch.snapshotJson, Json.get_mk]
      rfl
  unfold showsResult IndexMatch.hasResult
  rw [hfields.1, hfields.2.1, hfields.2.2]
  cases current.fixture.isComplete <;> cases current.fixture.homeScore <;>
    cases current.fixture.awayScore <;> simp [nullable]

/-- A difference between the snapshots has one event among a record's drafts, and it is owed. -/
theorem RowRecord.finding (r : RowRecord req) {c : EventType × String × List String}
    (hc : c ∈ comparisons)
    (hne : fieldsOf r.row.currentSnapshot c.2.2 ≠ fieldsOf r.new.currentSnapshot c.2.2)
    (hresult : c.1 = .scorePublished → showsResult r.new.currentSnapshot = true) :
    ∃ d ∈ owedDrafts req r.row, d ∈ r.drafts ∧
      r.drafts.filter (fun d => decide (d.eventType = c.1)) = [d] := by
  have hfound : ∀ (current : Snapshot), (lookup req.frame r.row).found = some current.fixture →
      r.new.currentSnapshot = current.json →
      (∀ d ∈ comparisonEvents req r.row.currentSnapshot current, d ∈ r.drafts) →
      ∃ d ∈ owedDrafts req r.row, d ∈ r.drafts ∧
        r.drafts.filter (fun d => decide (d.eventType = c.1)) = [d] := by
    intro current hlookup hnew hmem
    rw [hnew] at hne hresult
    have hd : ∃ d ∈ comparisonEvents req r.row.currentSnapshot current, d.eventType = c.1 := by
      refine ⟨_, List.mem_filterMap.mpr ⟨c, hc, if_neg ?_⟩, rfl⟩
      rintro (heq | ⟨htype, hno⟩)
      · exact hne heq
      · have hyes := hresult htype
        rw [showsResult_json, hno] at hyes
        cases hyes
    obtain ⟨d, hd, htype⟩ := hd
    refine ⟨d, ?_, hmem d hd, ?_⟩
    · rw [owedDrafts_of_found hlookup]
      exact List.mem_append_left _ hd
    · have := @RowRecord.filter_drafts _ r (fun t => decide (t = c.1)) d (hmem d hd)
        (decide_eq_true htype) fun d' _ htype' => (of_decide_eq_true htype').trans htype.symm
      exact this
  obtain ⟨row, mid, drafts, settlement, new, outcome⟩ := r
  dsimp only at *
  cases outcome with
  | unresolved hlookup => exact absurd rfl hne
  | found current hlookup =>
      exact hfound current (by rw [hlookup]; rfl) rfl fun d hd => List.mem_append_left _ hd
  | repointed current hlookup =>
      exact hfound current (by rw [hlookup]; rfl) rfl
        fun d hd => List.mem_cons_of_mem _ (List.mem_append_left _ hd)

end Records

/-! ## One step -/

section Step

variable {rt : Runtime} {db db' : FollowDb}

/-- Where no subscription is new and none changes, nothing has to be recorded. -/
theorem changesRecorded_of_same (hkeyed : Keyed db) (h : db'.followedMatches = db.followedMatches) :
    ChangesRecorded db db' := by
  have hsame : ∀ old ∈ db.followedMatches, ∀ new ∈ db'.followedMatches,
      new.followId = old.followId → new = old := by
    intro old hold new hnew hid
    rw [h] at hnew
    exact hkeyed.eq_of_followId hnew hold hid
  constructor
  · intro new hnew hnone
    rw [h] at hnew
    exact absurd (List.mem_map_of_mem hnew) hnone
  · intro old hold new hnew hid hne
    exact absurd (congrArg FollowRow.subscriptionState (hsame old hold new hnew hid)) hne
  · intro old hold new hnew hid hne
    exact absurd (congrArg FollowRow.dataState (hsame old hold new hnew hid)) hne

/-- A row put in place of its own leaves its changes to be recorded. -/
theorem changesRecorded_of_replace (hkeyed : Keyed db) {old new : FollowRow}
    (hold : old ∈ db.followedMatches)
    (h : db'.followedMatches = (db.replaceMatch new).followedMatches)
    (hid : new.followId = old.followId)
    (hsubscription : new.subscriptionState ≠ old.subscriptionState →
      AppendsOne db db' old.followId EventType.isSubscription)
    (hsource : new.dataState ≠ old.dataState →
      (old.dataState.isOutage = true ∨ new.dataState.isOutage = true) →
        AppendsOne db db' old.followId EventType.isSourceState) : ChangesRecorded db db' := by
  have hcases : ∀ a ∈ db.followedMatches, ∀ b ∈ db'.followedMatches, b.followId = a.followId →
      (a = old ∧ b = new) ∨ b = a := by
    intro a ha b hb heq
    rw [h] at hb
    rcases mem_replaceMatch.mp hb with ⟨rfl, -⟩ | ⟨hb, -⟩
    · exact .inl ⟨hkeyed.eq_of_followId ha hold (heq.symm.trans hid), rfl⟩
    · exact .inr (hkeyed.eq_of_followId hb ha heq)
  constructor
  · intro b hb hnone
    rw [h] at hb
    rcases mem_replaceMatch.mp hb with ⟨rfl, -⟩ | ⟨hb, -⟩
    · exact absurd (hid ▸ List.mem_map_of_mem hold) hnone
    · exact absurd (List.mem_map_of_mem hb) hnone
  · intro a ha b hb heq hne
    rcases hcases a ha b hb heq with ⟨rfl, rfl⟩ | rfl
    · exact hsubscription hne
    · exact absurd rfl hne
  · intro a ha b hb heq hne
    rcases hcases a ha b hb heq with ⟨rfl, rfl⟩ | rfl
    · exact hsource hne
    · exact absurd rfl hne

/-- What a follow owes is written. -/
theorem changesRecorded_followMatch {req : FollowRequest} {reply : String × Bool}
    (hkeyed : Keyed db) (haddressed : Addressed rt db.events)
    (hlossless : (FollowStep.follow req).Lossless rt db)
    (hrun : followMatch rt db req = .ok (db', reply)) : ChangesRecorded db db' := by
  have hfresh : ∀ followId (d : EventDraft), (followId, d) ∈ (FollowStep.follow req).owed db →
      (d.content followId).id rt ∉ db.events.map FollowEvent.eventId := fun followId d hd =>
    id_notMem haddressed hlossless.apart ⟨(followId, d), hd, rfl⟩ (hlossless.fresh _ hd)
  obtain ⟨s, hs, hcases⟩ := followMatch_cases hrun
  simp only [FollowStep.owed, hs] at hfresh
  obtain ⟨old, -, -, rfl⟩ | ⟨old, hexisting, hactive, hmatches, hevents⟩ |
    ⟨hexisting, hnew, hmatches, hevents⟩ := hcases
  · exact changesRecorded_of_same hkeyed rfl
  · simp only [hexisting, hactive, Bool.false_eq_true, if_false, List.mem_singleton,
      Prod.mk.injEq] at hfresh
    have hid := hfresh _ _ ⟨rfl, rfl⟩
    exact changesRecorded_of_replace hkeyed (mem_existing hexisting).1 hmatches rfl
      (fun _ => appendsOne_insertNew rfl hevents hid) fun _ _ => appendsOne_insertNew rfl hevents hid
  · simp only [hexisting, List.mem_singleton, Prod.mk.injEq] at hfresh
    have hid := hfresh _ _ ⟨rfl, rfl⟩
    have hsame : ∀ old ∈ db.followedMatches, ∀ new ∈ db'.followedMatches,
        new.followId = old.followId → new = old := by
      intro old hold new hmem heq
      rw [hmatches] at hmem
      rcases List.mem_append.mp hmem with hmem | hmem
      · exact hkeyed.eq_of_followId hmem hold heq
      · rw [List.mem_singleton.mp hmem] at heq
        have hused : (newFollow s req).followId ∈ db.followedMatches.map FollowRow.followId :=
          heq ▸ List.mem_map_of_mem hold
        exact absurd hused hnew
    constructor
    · intro new hmem hnone
      rw [hmatches] at hmem
      rcases List.mem_append.mp hmem with hmem | hmem
      · exact absurd (List.mem_map_of_mem hmem) hnone
      · rw [List.mem_singleton.mp hmem]
        exact appendsOne_insertNew rfl hevents hid
    · intro old hold new hmem heq hne
      exact absurd (congrArg FollowRow.subscriptionState (hsame old hold new hmem heq)) hne
    · intro old hold new hmem heq hne
      exact absurd (congrArg FollowRow.dataState (hsame old hold new hmem heq)) hne

/-- What an unfollow owes is written. -/
theorem changesRecorded_unfollow {followId : String} {now : Int} (hkeyed : Keyed db)
    (haddressed : Addressed rt db.events)
    (hlossless : (FollowStep.unfollow followId now).Lossless rt db)
    (hrun : unfollow rt db followId now = .ok db') : ChangesRecorded db db' := by
  obtain ⟨row, hrow, ⟨-, rfl⟩ | ⟨hactive, hmatches, hevents⟩⟩ := unfollow_cases hrun
  · exact changesRecorded_of_same hkeyed rfl
  · have howed : (followId, unfollowDraft row) ∈ (FollowStep.unfollow followId now).owed db := by
      simp only [FollowStep.owed, hrow, hactive, if_true]
      exact List.mem_singleton_self _
    have hid : ((unfollowDraft row).content followId).id rt ∉ db.events.map FollowEvent.eventId :=
      id_notMem haddressed hlossless.apart ⟨_, howed, rfl⟩ (hlossless.fresh _ howed)
    obtain ⟨hmem, rfl⟩ := find_some hrow
    exact changesRecorded_of_replace hkeyed hmem hmatches rfl
      (fun _ => appendsOne_insertNew rfl hevents hid) fun hne => absurd rfl hne

/-- **What a reconciliation owes is written.** -/
theorem recorded_reconcile {req : ReconcileRequest} (hkeyed : Keyed db)
    (haddressed : Addressed rt db.events)
    (hlossless : (FollowStep.reconcile req).Lossless rt db)
    (hrun : reconcile rt db req = .ok db') : ChangesRecorded db db' ∧ FindingsRecorded db db' := by
  obtain ⟨next, hrows, hrest⟩ := bind_ok_iff.mp hrun
  obtain ⟨_, -, hdone⟩ := bind_ok_iff.mp hrest
  obtain rfl := Except.ok.inj hdone
  obtain ⟨records, hrecords, hevents, hmatches, -, -⟩ := foldlM_reconcileRow_history hrows
  have hactive : ∀ r ∈ records, r.row ∈ db.active := fun r hr =>
    (req.order.perm _).mem_iff.mp (hrecords ▸ List.mem_map_of_mem hr)
  have hids : (records.map fun r => r.row.followId).Nodup := by
    have hscan : ((req.order.scan db.active).map FollowRow.followId).Nodup :=
      (((req.order.perm db.active).map _).nodup_iff).mpr
        (hkeyed.followIds.sublist (List.filter_sublist.map _))
    rwa [← hrecords, List.map_map] at hscan
  -- the events tried have distinct contents, and so distinct ids
  have hcontents : ((records.flatMap (·.events rt db)).map FollowEvent.content).Nodup := by
    rw [List.map_flatMap, List.nodup_flatMap]
    constructor
    · intro r hr
      have htypes := r.outcome.types_nodup
      rw [RowRecord.events, List.map_map]
      refine (List.Nodup.of_map EventContent.eventType ?_)
      rwa [List.map_map]
    · refine (List.pairwise_map.mp hids).imp fun {r s} hne => ?_
      rw [Function.onFun, List.disjoint_left]
      intro c hr hs
      obtain ⟨e, he, rfl⟩ := List.mem_map.mp hr
      obtain ⟨d, -, rfl⟩ := List.mem_map.mp he
      obtain ⟨e', he', heq⟩ := List.mem_map.mp hs
      obtain ⟨d', -, rfl⟩ := List.mem_map.mp he'
      exact hne (congrArg EventContent.followId heq).symm
  have hwritten : ∀ r ∈ records, ∀ d ∈ r.drafts ++ r.settlement,
      d.content r.row.followId ∈ (FollowStep.reconcile req).contents db := fun r hr d hd =>
    ⟨r.row, hactive r hr, r.mid, r.drafts, r.settlement, r.new, r.outcome, d, hd, rfl⟩
  have hkeys : ((records.flatMap (·.events rt db)).map FollowEvent.eventId).Nodup := by
    have hid : ∀ e ∈ records.flatMap (·.events rt db), e.eventId = e.content.id rt ∧
        e.content ∈ (FollowStep.reconcile req).contents db := by
      intro e he
      obtain ⟨r, hr, he⟩ := List.mem_flatMap.mp he
      obtain ⟨d, hd, rfl⟩ := List.mem_map.mp he
      exact ⟨rfl, hwritten r hr d hd⟩
    have hmap : (records.flatMap (·.events rt db)).map FollowEvent.eventId =
        ((records.flatMap (·.events rt db)).map FollowEvent.content).map (EventContent.id rt) := by
      rw [List.map_map]
      exact List.map_congr_left fun e he => (hid e he).1
    rw [hmap]
    refine hcontents.map_on fun c hc c' hc' heq => hlossless.apart (.inr ?_) (.inr ?_) heq
    · obtain ⟨e, he, rfl⟩ := List.mem_map.mp hc
      exact (hid e he).2
    · obtain ⟨e, he, rfl⟩ := List.mem_map.mp hc'
      exact (hid e he).2
  have hfresh : ∀ r ∈ records, ∀ d ∈ owedDrafts req r.row, d ∈ r.drafts →
      (d.content r.row.followId).id rt ∉ db.events.map FollowEvent.eventId := by
    intro r hr d howed hd
    refine id_notMem haddressed hlossless.apart (hwritten r hr d (List.mem_append_left _ hd)) ?_
    exact hlossless.fresh (r.row.followId, d)
      (List.mem_flatMap.mpr ⟨r.row, hactive r hr, List.mem_map_of_mem howed⟩)
  -- a subscription after the step is a record's new row or was not visited
  have hcases : ∀ old ∈ db.followedMatches, ∀ new ∈ next.followedMatches,
      new.followId = old.followId → (∃ r ∈ records, r.row = old ∧ r.new = new) ∨ new = old := by
    intro old hold new hnew heq
    rcases hmatches new hnew with ⟨r, hr, rfl⟩ | ⟨hnew, -⟩
    · refine .inl ⟨r, hr, hkeyed.eq_of_followId (mem_active.mp (hactive r hr)).1 hold ?_, rfl⟩
      exact r.outcome.followId.symm.trans heq
    · exact .inr (hkeyed.eq_of_followId hnew hold heq)
  refine ⟨⟨?_, ?_, ?_⟩, ?_⟩
  · intro new hnew hnone
    rcases hmatches new hnew with ⟨r, hr, rfl⟩ | ⟨hnew, -⟩
    · rw [r.outcome.followId] at hnone
      exact absurd (List.mem_map_of_mem (mem_active.mp (hactive r hr)).1) hnone
    · exact absurd (List.mem_map_of_mem hnew) hnone
  · intro old hold new hnew heq hne
    rcases hcases old hold new hnew heq with ⟨r, hr, rfl, rfl⟩ | rfl
    · exact absurd r.outcome.subscriptionState hne
    · exact absurd rfl hne
  · intro old hold new hnew heq hne houtage
    rcases hcases old hold new hnew heq with ⟨r, hr, rfl, rfl⟩ | rfl
    · obtain ⟨d, howed, hd, honly⟩ := r.sourceState hne houtage
      exact appendsOne_of_record hids hkeys hevents hr rfl honly (hfresh r hr d howed hd)
    · exact absurd rfl hne
  · intro old hold new hnew heq c hc hne hresult
    rcases hcases old hold new hnew heq with ⟨r, hr, rfl, rfl⟩ | rfl
    · obtain ⟨d, howed, hd, honly⟩ := r.finding hc hne hresult
      refine appendsOne_of_record hids hkeys hevents hr ?_ honly (hfresh r hr d howed hd)
      revert hc
      rw [decide_eq_false_iff_not]
      rintro hc htype
      revert hc
      simp only [comparisons, List.mem_cons, List.not_mem_nil, or_false]
      rintro (rfl | rfl | rfl) <;> cases htype
    · exact absurd rfl hne

end Step

/-! ## Runs -/

/-- The store a run leaves, from an empty one. -/
def storeAfter (rt : Runtime) (steps : List FollowStep) : FollowDb :=
  steps.foldl (FollowStep.run rt) emptyDb

/-- The steps that follow, unfollow, reconcile, or record settlements. -/
def FollowStep.isTracked : FollowStep → Bool
  | .follow _ | .unfollow _ _ | .reconcile _ | .settlements _ _ _ _ => true
  | _ => false

/-- What a step leaves of its changes, and of what it found where it reconciles. -/
def FollowStep.Recorded (db db' : FollowDb) : FollowStep → Prop
  | .reconcile _ => ChangesRecorded db db' ∧ FindingsRecorded db db'
  | _ => ChangesRecorded db db'

section Runs

variable {rt : Runtime} {db : FollowDb}

theorem storeAfter_append (rt : Runtime) (steps : List FollowStep) (step : FollowStep) :
    storeAfter rt (steps ++ [step]) = step.run rt (storeAfter rt steps) := by
  rw [storeAfter, List.foldl_append]
  rfl

theorem reached_storeAfter (rt : Runtime) (steps : List FollowStep) :
    ReachedStore rt (storeAfter rt steps) := by
  induction steps using List.reverseRecOn with
  | nil => exact .start rfl
  | append_singleton steps step ih =>
      rw [storeAfter_append]
      exact .next ih trivial

/-- A step that loses no event records its changes. -/
theorem recorded_run (hreached : ReachedStore rt db) {step : FollowStep}
    (htracked : step.isTracked = true) (hlossless : step.Lossless rt db) :
    step.Recorded db (step.run rt db) := by
  have hkeyed := hreached.keyed
  have haddressed := hreached.addressed
  cases step with
  | follow req =>
      show ChangesRecorded db _
      rw [FollowStep.run]
      cases hrun : followMatch rt db req with
      | ok result => exact changesRecorded_followMatch hkeyed haddressed hlossless hrun
      | error e => exact changesRecorded_of_same hkeyed rfl
  | unfollow followId now =>
      show ChangesRecorded db _
      rw [FollowStep.run]
      cases hrun : unfollow rt db followId now with
      | ok db' => exact changesRecorded_unfollow hkeyed haddressed hlossless hrun
      | error e => exact changesRecorded_of_same hkeyed rfl
  | reconcile req =>
      show ChangesRecorded db _ ∧ FindingsRecorded db _
      rw [FollowStep.run]
      cases hrun : reconcile rt db req with
      | ok db' => exact recorded_reconcile hkeyed haddressed hlossless hrun
      | error e =>
          refine ⟨changesRecorded_of_same hkeyed rfl, fun old hold new hnew heq c _ hne => ?_⟩
          exact absurd (by rw [hkeyed.eq_of_followId hnew hold heq]) hne
  | settlements order scored checkedAtUtc now =>
      exact changesRecorded_of_same hkeyed (followedMatches_foldl_insertEvents _ _)
  | _ => cases htracked

end Runs

/-! ## Following again -/

/-- A fixture followed, unfollowed and followed again. -/
@[irreducible] def followedAgain (rt : Runtime) : FollowDb :=
  storeAfter rt [.follow (followOf before "fm_1" 0), .unfollow "fm_1" 1,
    .follow (followOf before "fm_1" 2)]

theorem followedAgain_eq (rt : Runtime) : followedAgain rt =
    FollowStep.run rt (FollowStep.run rt (followedBefore rt) (.unfollow "fm_1" 1))
      (.follow (followOf before "fm_1" 2)) := by
  rw [followedAgain]
  rfl

/-- A follow only adds to the history. -/
theorem prefix_follow (rt : Runtime) (db : FollowDb) (req : FollowRequest) :
    db.events <+: (FollowStep.run rt db (.follow req)).events := by
  rw [FollowStep.run]
  cases hrun : followMatch rt db req with
  | error e => exact List.prefix_refl _
  | ok result =>
      obtain ⟨s, -, ⟨_, -, -, heq⟩ | ⟨old, -, -, -, hevents⟩ | ⟨-, -, -, hevents⟩⟩ :=
        followMatch_cases (show followMatch rt db req = .ok (result.1, result.2) from hrun)
      · exact heq ▸ List.prefix_refl _
      · exact hevents ▸ Lib.prefix_insertAllNew FollowEvent.eventId db.events [_]
      · exact hevents ▸ Lib.prefix_insertAllNew FollowEvent.eventId db.events [_]

/-- **An unfollow whose event is in the history leaves none.** -/
theorem not_recorded_unfollow {rt : Runtime} {db : FollowDb} {row : FollowRow} {followId : String}
    {now : Int} (hrow : db.find followId = some row) (hactive : row.isActive = true)
    (hid : ((unfollowDraft row).content followId).id rt ∈ db.events.map FollowEvent.eventId) :
    ¬ ChangesRecorded db (FollowStep.run rt db (.unfollow followId now)) := by
  intro hrecorded
  obtain ⟨hmem, rfl⟩ := find_some hrow
  have hup : db.updateMatch { row with
      subscriptionState := .unfollowed, updatedAtUtc := now, unfollowedAtUtc := some now } = .ok _ :=
    updateMatch_ok_iff.mpr ⟨rfl, rfl⟩
  have hok : ∃ db', unfollow rt db row.followId now = .ok db' := by
    simp only [unfollow, hrow, orFail, hactive, if_true, hup, bind, Except.bind, pure, Except.pure,
      Except.ok.injEq, exists_eq']
  obtain ⟨db', hrun⟩ := hok
  have hstep : FollowStep.run rt db (.unfollow row.followId now) = db' := by
    rw [FollowStep.run, hrun]
    rfl
  rw [hstep] at hrecorded
  obtain ⟨row', hrow', hcases⟩ := unfollow_cases hrun
  obtain rfl := Option.some.inj (hrow.symm.trans hrow')
  obtain ⟨hinactive, -⟩ | ⟨-, hmatches, hevents⟩ := hcases
  · rw [hactive] at hinactive
    cases hinactive
  · -- the row changed, but the history did not
    have hsame : db'.events = db.events := hevents.trans (if_pos hid)
    have hnew : { row with
        subscriptionState := .unfollowed
        updatedAtUtc := now
        unfollowedAtUtc := some now } ∈ db'.followedMatches := by
      rw [hmatches]
      exact mem_replaceMatch.mpr (.inl ⟨rfl, row, hmem, rfl⟩)
    have hstate : row.subscriptionState = .active := of_decide_eq_true hactive
    obtain ⟨appended, e, happended, hfilter⟩ := hrecorded.subscription row hmem _ hnew rfl
      (by rw [hstate]; intro hsame; cases hsame)
    rw [hsame] at happended
    rw [List.self_eq_append_right.mp happended] at hfilter
    cases hfilter

/-- The event of unfollowing a fixture followed again is the one of unfollowing it before. -/
theorem unfollowDraft_followedAgain :
    ((followedAgain .standard).find "fm_1").map
        (fun row => (row.isActive, (unfollowDraft row).content "fm_1")) =
      ((followedBefore .standard).find "fm_1").map
        (fun row => (row.isActive, (unfollowDraft row).content "fm_1")) ∧
      ((followedBefore .standard).find "fm_1").map FollowRow.isActive = some true ∧
      (unfollow .standard (followedBefore .standard) "fm_1" 1).isOk = true := by
  decide +kernel

end Golavo.Follows
