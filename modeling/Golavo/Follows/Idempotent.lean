import Golavo.Follows.LostEvents
import Golavo.Follows.SoundStore

/-! # Reconciling twice

A second reconciliation with the same index, generation and source statuses finds every subscription
where the first one left it. It writes an event all the same where the first one brought a
subscription into an outage: the event of an outage carries the state before it, and by then that is
the outage itself. -/

namespace Golavo.Follows

open Golavo.Lib (Json insertAllNew bind_ok_iff toOption_eq_some)
open Golavo.Ledger (Runtime)

/-! ## Timestamps -/

/-- A subscription without the times at which it was checked. -/
def FollowRow.timeless (r : FollowRow) : FollowRow :=
  { r with updatedAtUtc := 0, lastObservedAtUtc := none }

/-- An identity without the time at which it was last seen. -/
def IdentityRow.timeless (i : IdentityRow) : IdentityRow := { i with lastSeenAtUtc := 0 }

/-- A store without the times at which things were checked. -/
def FollowDb.timeless (db : FollowDb) : FollowDb :=
  { db with
    followedMatches := db.followedMatches.map FollowRow.timeless
    identities := db.identities.map IdentityRow.timeless }

/-! ## The condition -/

/-- Whether no subscription is brought into an outage: each one whose source is in an outage is in it
already, or the event of staying in it under the same reference is in the history. -/
def Settled (db : FollowDb) (req : ReconcileRequest) : Prop :=
  ∀ row ∈ db.active, ∀ current : Snapshot,
    (lookup req.frame row).found = some current.fixture →
      (healthOf req row current).1.isOutage = true →
        row.dataState = (healthOf req row current).1 ∨
          ∀ d ∈ healthEvents req (resolvedRow req row current) current,
            d.content row.followId ∈ db.events.map FollowEvent.content

/-! ## The second visit of a subscription -/

/-- A subscription whose reconciliation writes no event and changes only timestamps. -/
inductive Quiet (rt : Runtime) (req : ReconcileRequest) (db : FollowDb) (row : FollowRow) : Prop where
  | unresolved : lookup req.frame row = .unresolved →
      ((unresolvedDraft req row).content row.followId).id rt ∈ db.events.map FollowEvent.eventId →
      (unresolvedRow req row).timeless = row.timeless → Quiet rt req db row
  | found (current : Snapshot) : lookup req.frame row = .byMatchId current.fixture →
      comparisonEvents req row.currentSnapshot current = [] →
      (∀ d ∈ healthEvents req row current,
        (d.content row.followId).id rt ∈ db.events.map FollowEvent.eventId) →
      settlementEvents req db row current = [] →
      (resolvedRow req row current).timeless = row.timeless → Quiet rt req db row

section Quiet

variable {rt : Runtime} {req : ReconcileRequest} {db db' : FollowDb} {row : FollowRow}

/-- A snapshot is its fixture's. -/
theorem Snapshot.eq_of_fixture {a b : Snapshot} (h : a.fixture = b.fixture) : a = b := by
  obtain ⟨m, source, hsource, happroved⟩ := a
  obtain ⟨m', source', hsource', happroved'⟩ := b
  obtain rfl : m = m' := h
  obtain rfl := Option.some.inj (hsource.symm.trans hsource')
  rfl

/-- Events whose ids are there change nothing. -/
theorem insertEvents_of_mem {followId : String} {now : Int} {ds : List EventDraft}
    (h : ∀ d ∈ ds, (d.content followId).id rt ∈ db.events.map FollowEvent.eventId) :
    db.insertEvents rt followId now ds = db := by
  unfold FollowDb.insertEvents
  induction ds with
  | nil => rfl
  | cons d rest ih =>
      have hd : db.insertEvent rt followId now d = db := if_pos (h d List.mem_cons_self)
      rw [List.foldl_cons, hd]
      exact ih fun d hd => h d (List.mem_cons_of_mem _ hd)

/-- A quiet subscription is reconciled by refreshing its row. -/
theorem Quiet.reconcileRow (h : Quiet rt req db row) (hrun : reconcileRow rt req db row = .ok db') :
    ∃ new : FollowRow, new.followId = row.followId ∧ new.timeless = row.timeless ∧
      db' = db.replaceMatch new := by
  unfold Follows.reconcileRow at hrun
  cases h with
  | unresolved hlookup hid hrow =>
      have hsame : db.insertEvent rt row.followId req.now (unresolvedDraft req row) = db :=
        if_pos hid
      simp only [hlookup, hsame] at hrun
      exact ⟨unresolvedRow req row, rfl, hrow, (updateMatch_ok_iff.mp hrun).2⟩
  | found current hlookup hcomparison hhealth hsettlement hrow =>
      simp only [hlookup] at hrun
      obtain ⟨current', hcurrent, hsettle⟩ := bind_ok_iff.mp hrun
      obtain rfl := Snapshot.eq_of_fixture (snapshot_ok_iff.mp hcurrent)
      have hsame : db.insertEvents rt row.followId req.now
          (comparisonEvents req row.currentSnapshot current' ++ healthEvents req row current') =
            db := by
        rw [hcomparison, List.nil_append]
        exact insertEvents_of_mem hhealth
      unfold settleRow at hsettle
      simp only [hsame, hsettlement] at hsettle
      exact ⟨resolvedRow req row current', rfl, hrow, (updateMatch_ok_iff.mp hsettle).2⟩

theorem followId_timeless (r : FollowRow) : r.timeless.followId = r.followId := rfl

/-- Refreshing a row of a store changes only timestamps. -/
theorem timeless_replaceMatch {new : FollowRow}
    (h : ∀ old ∈ db.followedMatches, old.followId = new.followId → new.timeless = old.timeless) :
    (db.replaceMatch new).timeless = db.timeless := by
  have hrows : ((db.replaceMatch new).followedMatches).map FollowRow.timeless =
      db.followedMatches.map FollowRow.timeless := by
    rw [FollowDb.replaceMatch, List.map_map]
    refine List.map_congr_left fun old hold => ?_
    simp only [Function.comp_apply]
    split_ifs with hid
    · exact h old hold hid
    · rfl
  unfold FollowDb.timeless
  rw [hrows]
  rfl

/-- **Reconciling quiet subscriptions changes only timestamps.** -/
theorem foldlM_reconcileRow_quiet {rows : List FollowRow}
    (hquiet : ∀ row ∈ rows, Quiet rt req db row)
    (hrows : ∀ row ∈ rows, ∀ old ∈ db.followedMatches, old.followId = row.followId →
      old.timeless = row.timeless)
    (hrun : rows.foldlM (reconcileRow rt req) db = .ok db') : db'.timeless = db.timeless := by
  induction rows generalizing db with
  | nil =>
      obtain rfl := Except.ok.inj hrun
      rfl
  | cons row rest ih =>
      rw [List.foldlM_cons] at hrun
      obtain ⟨next, hnext, hrest⟩ := bind_ok_iff.mp hrun
      obtain ⟨new, hid, htimeless, rfl⟩ := (hquiet row List.mem_cons_self).reconcileRow hnext
      have hsame : (db.replaceMatch new).timeless = db.timeless :=
        timeless_replaceMatch fun old hold heq =>
          htimeless.trans (hrows row List.mem_cons_self old hold (heq.trans hid)).symm
      rw [← hsame]
      refine ih (fun r hr => ?_) (fun r hr old hold heq => ?_) hrest
      · cases hquiet r (List.mem_cons_of_mem _ hr) with
        | unresolved hlookup hmem hrow => exact .unresolved hlookup hmem hrow
        | found current hlookup hcomparison hhealth hsettlement hrow =>
            exact .found current hlookup hcomparison hhealth hsettlement hrow
      · rcases mem_replaceMatch.mp hold with ⟨rfl, before, hbefore, hbeforeId⟩ | ⟨hold, -⟩
        · have hbefore' := hrows row List.mem_cons_self before hbefore (hbeforeId.trans hid)
          rw [htimeless, ← hbefore']
          exact hrows r (List.mem_cons_of_mem _ hr) before hbefore (hbeforeId.trans heq)
        · exact hrows r (List.mem_cons_of_mem _ hr) old hold heq

end Quiet

/-! ## After a reconciliation -/

section Again

variable {rt : Runtime} {req : ReconcileRequest} {db db₁ db₂ : FollowDb} {row : FollowRow}
  {current : Snapshot}

/-- The same reconciliation at another time. -/
def ReconcileRequest.again (req : ReconcileRequest) (order : ScanOrder) (now : Int) :
    ReconcileRequest :=
  { req with order := order, now := now }

/-- In an index without two rows of one match id, a row is found by its match id. -/
theorem matchLookup_of_mem {frame : List IndexMatch} (hframe : (frame.map IndexMatch.matchId).Nodup)
    {m : IndexMatch} (hm : m ∈ frame) : matchLookup frame m.matchId = some m := by
  unfold matchLookup
  cases hfind : frame.find? (fun x => decide (x.matchId = m.matchId)) with
  | none => exact absurd (List.find?_eq_none.mp hfind m hm) (by simp)
  | some found =>
      have hid : found.matchId = m.matchId := by simpa using List.find?_some hfind
      rw [List.inj_on_of_nodup_map hframe (List.mem_of_find?_eq_some hfind) hm hid]

/-- A subscription moved to the fixture found is found there by its match id. -/
theorem lookup_resolvedRow (hframe : (req.frame.map IndexMatch.matchId).Nodup)
    (hfound : (lookup req.frame row).found = some current.fixture) :
    lookup req.frame (resolvedRow req row current) = .byMatchId current.fixture := by
  have hmatch := matchLookup_of_mem hframe (mem_of_found hfound)
  unfold lookup
  rw [show (resolvedRow req row current).canonicalMatchId = current.fixture.matchId from rfl, hmatch]

/-- The snapshot stored differs in nothing from the fixture it was taken of. -/
theorem comparisonEvents_self (req : ReconcileRequest) (current : Snapshot) :
    comparisonEvents req current.json current = [] :=
  List.filterMap_eq_nil_iff.mpr fun _ _ => if_pos (.inl rfl)

/-- The state of a subscription's data is the same on the second visit. -/
theorem state_resolvedRow (req : ReconcileRequest) (row : FollowRow) (current : Snapshot) :
    (healthOf req (resolvedRow req row current) current).1 = (healthOf req row current).1 := by
  rcases healthOf_cases req current with h | h | h
  · rw [h, h]
  · rw [h, h]
  · rw [h, h]

/-- A healthy source makes no event on the second visit. -/
theorem healthEvents_resolvedRow (h : (healthOf req row current).1.isOutage = false) :
    healthEvents req (resolvedRow req row current) current = [] := by
  rcases healthOf_cases req current with hcase | hcase | hcase
  · rw [hcase] at h
    cases h
  · rw [hcase] at h
    cases h
  · have hstate : (resolvedRow req row current).dataState = current.dataState := by
      show (healthOf req row current).1 = _
      rw [hcase]
    have hne : ¬ ((resolvedRow req row current).dataState = .sourceConflict ∨
        (resolvedRow req row current).dataState = .sourceUnavailable) := by
      rw [hstate, Snapshot.dataState]
      split_ifs <;> simp
    rw [healthEvents_of_eq (hcase _), if_neg hne]
    rfl

/-- A subscription whose source's state it is in already has on its first visit the event of its
second. -/
theorem healthEvents_of_same (h : row.dataState = (healthOf req row current).1) :
    healthEvents req (resolvedRow req row current) current = healthEvents req row current := by
  have hstate : (resolvedRow req row current).dataState = row.dataState := h.symm
  rcases healthOf_cases req current with hcase | hcase | hcase <;>
    rw [healthEvents_of_eq (hcase _), healthEvents_of_eq (hcase _), hstate]

/-- A subscription moved to the fixture found is quiet once its events are written. -/
theorem quiet_resolvedRow (order : ScanOrder) (now : Int)
    (hframe : (req.frame.map IndexMatch.matchId).Nodup)
    (hfound : (lookup req.frame row).found = some current.fixture)
    (hhealth : ∀ d ∈ healthEvents req (resolvedRow req row current) current,
      (d.content row.followId).id rt ∈ db₁.events.map FollowEvent.eventId)
    (havailable : (healthOf req row current).1 = .completed → pendingSeals req current.fixture ≠ [] →
      ∃ e ∈ db₁.events, e.followId = row.followId ∧ e.eventType = .settlementAvailable ∧
        e.after = some (availability req current.fixture)) :
    Quiet rt (req.again order now) db₁ (resolvedRow req row current) := by
  refine .found current (lookup_resolvedRow hframe hfound) (comparisonEvents_self _ _) hhealth ?_ ?_
  · refine if_neg ?_
    rintro ⟨hstate, hpending, hnone⟩
    obtain ⟨e, he, hid, htype, hafter⟩ :=
      havailable ((state_resolvedRow req row current).symm.trans hstate) hpending
    refine hnone (List.any_eq_true.mpr ⟨e, he, ?_⟩)
    simp only [Bool.and_eq_true, decide_eq_true_eq]
    exact ⟨⟨hid, htype⟩, hafter⟩
  · have hstate := state_resolvedRow req row current
    show FollowRow.timeless { resolvedRow req row current with
      dataState := (healthOf req (resolvedRow req row current) current).1
      lastObservedAtUtc := some now
      updatedAtUtc := now } = _
    rw [hstate]
    rfl

/-- The contents of the history, of what a reconciliation may write and of what it may write again. -/
def contentsTwice (db db₁ : FollowDb) (req : ReconcileRequest) : Set EventContent :=
  {c | c ∈ db.events.map FollowEvent.content ∨ c ∈ (FollowStep.reconcile req).contents db ∨
    c ∈ (FollowStep.reconcile req).contents db₁}

/-- What a first reconciliation leaves. -/
structure FirstRun (rt : Runtime) (req : ReconcileRequest) (db db₁ : FollowDb) where
  records : List (RowRecord req)
  rows : records.map RowRecord.row = req.order.scan db.active
  events : db₁.events =
    insertAllNew FollowEvent.eventId db.events (records.flatMap (·.events rt db))
  matches' : ∀ x ∈ db₁.followedMatches, (∃ r ∈ records, x = r.new) ∨
    (x ∈ db.followedMatches ∧ ∀ r ∈ records, r.row.followId ≠ x.followId)
  mids : ∀ r ∈ records, r.mid.events <+: db₁.events

theorem exists_firstRun (hrun : reconcile rt db req = .ok db₁) :
    Nonempty (FirstRun rt req db db₁) := by
  obtain ⟨next, hrows, hrest⟩ := bind_ok_iff.mp hrun
  obtain ⟨_, -, hdone⟩ := bind_ok_iff.mp hrest
  obtain rfl := Except.ok.inj hdone
  obtain ⟨records, hrecords, hevents, hmatches, hmids, -⟩ := foldlM_reconcileRow_history hrows
  exact ⟨⟨records, hrecords, hevents, hmatches, hmids⟩⟩

namespace FirstRun

variable (run : FirstRun rt req db db₁)

include run

theorem row_active {r : RowRecord req} (hr : r ∈ run.records) : r.row ∈ db.active :=
  (req.order.perm _).mem_iff.mp (run.rows ▸ List.mem_map_of_mem hr)

/-- The id of every event tried is in the history. -/
theorem id_mem {r : RowRecord req} (hr : r ∈ run.records) {d : EventDraft}
    (hd : d ∈ r.drafts ++ r.settlement) :
    (d.content r.row.followId).id rt ∈ db₁.events.map FollowEvent.eventId := by
  rw [run.events]
  have hitem : d.toEvent rt db r.row.followId req.now ∈ run.records.flatMap (·.events rt db) :=
    List.mem_flatMap.mpr ⟨r, hr, List.mem_map_of_mem hd⟩
  exact Lib.key_mem_insertAllNew hitem

/-- An event of the history was there or is one of those tried. -/
theorem content_cases {e : FollowEvent} (he : e ∈ db₁.events) : e ∈ db.events ∨
    ∃ r ∈ run.records, ∃ d ∈ r.drafts ++ r.settlement, e.content = d.content r.row.followId := by
  rw [run.events] at he
  rcases Lib.mem_insertAllNew he with he | he
  · exact .inl he
  · obtain ⟨r, hr, he⟩ := List.mem_flatMap.mp he
    obtain ⟨d, hd, rfl⟩ := List.mem_map.mp he
    exact .inr ⟨r, hr, d, hd, rfl⟩

/-- The contents of the history afterwards. -/
theorem content_mem {e : FollowEvent} (he : e ∈ db₁.events) :
    e.content ∈ contentsTwice db db₁ req := by
  rcases run.content_cases he with he | ⟨r, hr, d, hd, heq⟩
  · exact .inl (List.mem_map_of_mem he)
  · exact .inr (.inl ⟨r.row, run.row_active hr, r.mid, r.drafts, r.settlement, r.new, r.outcome,
      d, hd, heq⟩)

/-- Every active subscription was visited. -/
theorem exists_record {x : FollowRow} (hx : x ∈ db₁.active) : ∃ r ∈ run.records, x = r.new := by
  obtain ⟨hmem, hactive⟩ := mem_active.mp hx
  rcases run.matches' x hmem with h | ⟨hold, hfree⟩
  · exact h
  · have hscan : x ∈ run.records.map RowRecord.row := by
      rw [run.rows]
      exact (req.order.perm _).mem_iff.mpr (mem_active.mpr ⟨hold, hactive⟩)
    obtain ⟨r, hr, heq⟩ := List.mem_map.mp hscan
    exact absurd (congrArg FollowRow.followId heq) (hfree r hr)

/-- A settlement that can be announced has been. -/
theorem exists_available (haddressed : Addressed rt db₁.events)
    (hapart : Set.InjOn (EventContent.id rt) (contentsTwice db db₁ req)) {r : RowRecord req}
    (hr : r ∈ run.records)
    (hsettlement : r.settlement = settlementEvents req r.mid r.row current)
    (hstate : (healthOf req r.row current).1 = .completed)
    (hpending : pendingSeals req current.fixture ≠ []) :
    ∃ e ∈ db₁.events, e.followId = r.row.followId ∧ e.eventType = .settlementAvailable ∧
      e.after = some (availability req current.fixture) := by
  by_cases hany : r.mid.events.any fun e => e.followId = r.row.followId &&
      e.eventType = .settlementAvailable && e.after = some (availability req current.fixture)
  · obtain ⟨e, he, htest⟩ := List.any_eq_true.mp hany
    simp only [Bool.and_eq_true, decide_eq_true_eq] at htest
    exact ⟨e, (run.mids r hr).subset he, htest.1.1, htest.1.2, htest.2⟩
  · -- the event was tried, and what has its id has its content
    have hdraft : settlementEvents req r.mid r.row current =
        [{ draftOf req .settlementAvailable current.json "result" with
          after := some (availability req current.fixture) }] :=
      if_pos ⟨hstate, hpending, hany⟩
    have hd := List.mem_append_right r.drafts
      (hsettlement ▸ hdraft ▸ List.mem_singleton_self _ : _ ∈ r.settlement)
    obtain ⟨e, he, hid⟩ := List.mem_map.mp (run.id_mem hr hd)
    rw [haddressed.eventId e he] at hid
    have hcontent := hapart (run.content_mem he) (.inr (.inl ⟨r.row, run.row_active hr, r.mid,
      r.drafts, r.settlement, r.new, r.outcome, _, hd, rfl⟩)) hid
    refine ⟨e, he, congrArg EventContent.followId hcontent, congrArg EventContent.eventType hcontent,
      ?_⟩
    have hafter : e.after.getD .null = availability req current.fixture :=
      congrArg EventContent.after hcontent
    cases hvalue : e.after with
    | none =>
        rw [hvalue] at hafter
        exact absurd hafter (by simp [availability, Json.mk])
    | some value =>
        rw [hvalue] at hafter
        exact congrArg some hafter

/-- **After a settled reconciliation every active subscription is quiet.** -/
theorem quiet (hframe : (req.frame.map IndexMatch.matchId).Nodup) (haddressed : Addressed rt db.events)
    (haddressed₁ : Addressed rt db₁.events)
    (hapart : Set.InjOn (EventContent.id rt) (contentsTwice db db₁ req)) (hsettled : Settled db req)
    (order : ScanOrder) (now : Int) {x : FollowRow} (hx : x ∈ db₁.active) :
    Quiet rt (req.again order now) db₁ x := by
  obtain ⟨r, hr, rfl⟩ := run.exists_record hx
  have hactive := run.row_active hr
  have hgrown : db.events <+: db₁.events := run.events ▸ Lib.prefix_insertAllNew _ _ _
  have hfound : ∀ current : Snapshot, (lookup req.frame r.row).found = some current.fixture →
      (∀ d ∈ healthEvents req r.row current, d ∈ r.drafts) →
      r.settlement = settlementEvents req r.mid r.row current →
      Quiet rt (req.again order now) db₁ (resolvedRow req r.row current) := by
    intro current hlookup hdrafts hsettlement
    refine quiet_resolvedRow order now hframe hlookup (fun d hd => ?_)
      (run.exists_available haddressed₁ hapart hr hsettlement)
    by_cases houtage : (healthOf req r.row current).1.isOutage = true
    · rcases hsettled r.row hactive current hlookup houtage with hsame | hold
      · rw [healthEvents_of_same hsame] at hd
        exact run.id_mem hr (List.mem_append_left _ (hdrafts d hd))
      · obtain ⟨e, he, heq⟩ := List.mem_map.mp (hold d hd)
        rw [← heq, ← haddressed.eventId e he]
        exact List.mem_map_of_mem (hgrown.subset he)
    · rw [healthEvents_resolvedRow (Bool.not_eq_true _ ▸ houtage)] at hd
      cases hd
  obtain ⟨row, mid, drafts, settlement, new, outcome⟩ := r
  cases outcome with
  | unresolved hlookup =>
      exact .unresolved hlookup (run.id_mem hr (List.mem_singleton_self _)) rfl
  | found current hlookup =>
      exact hfound current (by rw [hlookup]; rfl) (fun d hd => List.mem_append_right _ hd) rfl
  | repointed current hlookup =>
      exact hfound current (by rw [hlookup]; rfl)
        (fun d hd => List.mem_cons_of_mem _ (List.mem_append_right _ hd)) rfl

end FirstRun

end Again

/-! ## The second reconciliation -/

section Second

variable {rt : Runtime} {req : ReconcileRequest} {db db₁ db₂ : FollowDb}

/-- Where every subscription points at the match it is found at, no turn finds its match taken. -/
theorem unobstructed_of_stable {frame : List IndexMatch} {visited rest : List FollowRow}
    (hstable : ∀ r ∈ visited ++ rest, target frame r = r.canonicalMatchId)
    (hnodup : ((visited ++ rest).map FollowRow.canonicalMatchId).Nodup) :
    Unobstructed frame visited rest := by
  induction rest generalizing visited with
  | nil => exact trivial
  | cons row rest ih =>
      have hrow := hstable row (List.mem_append_right _ List.mem_cons_self)
      have hne : ∀ other ∈ visited ++ rest, other.canonicalMatchId ≠ row.canonicalMatchId := by
        rw [List.map_append, List.map_cons, List.nodup_middle, List.nodup_cons] at hnodup
        intro other hother heq
        refine hnodup.1 (heq ▸ ?_)
        rw [← List.map_append]
        exact List.mem_map_of_mem hother
      rw [List.append_cons] at hstable hnodup
      refine ⟨fun other hother => ?_, fun other hother => ?_, ih hstable hnodup⟩
      · rw [hrow, hstable other (List.mem_append_left _ (List.mem_append_left _ hother))]
        exact hne other (List.mem_append_left _ hother)
      · rw [hrow]
        exact hne other (List.mem_append_right _ hother)

/-- What a record's row becomes where its fixture was found. -/
theorem RowRecord.new_of_found (r : RowRecord req) {current : Snapshot}
    (h : (lookup req.frame r.row).found = some current.fixture) :
    r.new = resolvedRow req r.row current ∧
      (∀ d ∈ healthEvents req r.row current, d ∈ r.drafts) ∧
      ∀ d ∈ r.drafts ++ r.settlement, d.eventType.isSourceState = true →
        d ∈ healthEvents req r.row current := by
  have hother : ∀ {types : List EventType} {d : EventDraft}, d.eventType ∈ types →
      (∀ t ∈ types, t.isSourceState = false) → d.eventType.isSourceState = true → False :=
    fun hd hall hkind => Bool.false_ne_true ((hall _ hd).symm.trans hkind)
  obtain ⟨row, mid, drafts, settlement, new, outcome⟩ := r
  have hsettlement : ∀ d ∈ settlement, d.eventType ∈ [EventType.settlementAvailable] := fun d hd =>
    List.mem_singleton.mpr (outcome.settlementType d hd)
  cases outcome with
  | unresolved hlookup =>
      rw [hlookup] at h
      cases h
  | found current' hlookup =>
      rw [hlookup] at h
      obtain rfl := Snapshot.eq_of_fixture (Option.some.inj h)
      refine ⟨rfl, fun d hd => List.mem_append_right _ hd, fun d hd hkind => ?_⟩
      rcases List.mem_append.mp hd with hd | hd
      · exact (List.mem_append.mp hd).resolve_left fun hd =>
          hother (type_comparisonEvents hd) (by decide) hkind
      · exact (hother (hsettlement d hd) (by decide) hkind).elim
  | repointed current' hlookup =>
      rw [hlookup] at h
      obtain rfl := Snapshot.eq_of_fixture (Option.some.inj h)
      refine ⟨rfl, fun d hd => List.mem_cons_of_mem _ (List.mem_append_right _ hd),
        fun d hd hkind => ?_⟩
      rcases List.mem_append.mp hd with hd | hd
      · rcases List.mem_cons.mp hd with rfl | hd
        · cases hkind
        · exact (List.mem_append.mp hd).resolve_left fun hd =>
            hother (type_comparisonEvents hd) (by decide) hkind
      · exact (hother (hsettlement d hd) (by decide) hkind).elim

/-- A subscription reconciled is found at the match it points at. -/
theorem RowRecord.again (r : RowRecord req) (hframe : (req.frame.map IndexMatch.matchId).Nodup) :
    target req.frame r.new = r.new.canonicalMatchId ∧ SourceApproved req.frame r.new := by
  have hresolved : ∀ current : Snapshot, (lookup req.frame r.row).found = some current.fixture →
      r.new = resolvedRow req r.row current →
      target req.frame r.new = r.new.canonicalMatchId ∧ SourceApproved req.frame r.new := by
    intro current hfound hnew
    unfold target SourceApproved
    rw [hnew, lookup_resolvedRow hframe hfound]
    refine ⟨rfl, fun m hm => ?_⟩
    obtain rfl := Option.some.inj hm
    exact ⟨current.sourceId, current.approved, current.source_eq⟩
  obtain ⟨row, mid, drafts, settlement, new, outcome⟩ := r
  cases outcome with
  | unresolved hlookup =>
      have hsame : lookup req.frame (unresolvedRow req row) = .unresolved := hlookup
      unfold target SourceApproved
      simp only [hsame]
      exact ⟨rfl, fun m hm => nomatch hm⟩
  | found current hlookup => exact hresolved current (by rw [hlookup]; rfl) rfl
  | repointed current hlookup => exact hresolved current (by rw [hlookup]; rfl) rfl

/-- A reconciliation that went through goes through again. -/
theorem goesThrough_again (hkeyed : Keyed db) (hkeyed₁ : Keyed db₁)
    (hframe : (req.frame.map IndexMatch.matchId).Nodup) (hrun : reconcile rt db req = .ok db₁)
    (order : ScanOrder) (now : Int) : GoesThrough db₁ (req.again order now) := by
  obtain ⟨run⟩ := exists_firstRun hrun
  have hrows : ∀ x ∈ db₁.active, target req.frame x = x.canonicalMatchId ∧
      SourceApproved req.frame x := by
    intro x hx
    obtain ⟨r, -, rfl⟩ := run.exists_record hx
    exact r.again hframe
  refine ⟨fun x hx => (hrows x hx).2, ?_, ((exists_reconcile_iff rt hkeyed).mp ⟨db₁, hrun⟩).generation⟩
  have hmem : ∀ x, x ∈ order.scan db₁.active ↔ x ∈ db₁.active := fun x => (order.perm _).mem_iff
  refine unobstructed_of_stable (fun x hx => (hrows x ((hmem x).mp hx)).1) ?_
  have hnodup : (order.scan db₁.active).Nodup :=
    (order.perm _).nodup_iff.mpr (hkeyed₁.followIds.of_map.sublist List.filter_sublist)
  exact hnodup.map_on fun x hx y hy heq =>
    hkeyed₁.oneActive x ((hmem x).mp hx) y ((hmem y).mp hy) heq

theorem name_injective {a b : DataState} (h : a.name = b.name) : a = b := by
  cases a <;> cases b <;> first | rfl | exact absurd h (by simp [DataState.name])

/-- **The event of staying in an outage is new** where the subscription was brought into it. -/
theorem id_notMem_of_not_settled (run : FirstRun rt req db db₁) (hkeyed : Keyed db)
    (haddressed₁ : Addressed rt db₁.events)
    (hapart : Set.InjOn (EventContent.id rt) (contentsTwice db db₁ req)) {row : FollowRow}
    (hrow : row ∈ db.active) {current : Snapshot}
    (hfound : (lookup req.frame row).found = some current.fixture)
    (houtage : (healthOf req row current).1.isOutage = true)
    (hne : row.dataState ≠ (healthOf req row current).1) {d : EventDraft}
    (hd : d ∈ healthEvents req (resolvedRow req row current) current)
    (hmem : d.content row.followId ∈ (FollowStep.reconcile req).contents db₁)
    (hfresh : d.content row.followId ∉ db.events.map FollowEvent.content) :
    (d.content row.followId).id rt ∉ db₁.events.map FollowEvent.eventId := by
  intro hid
  obtain ⟨e, he, hid⟩ := List.mem_map.mp hid
  rw [haddressed₁.eventId e he] at hid
  have hcontent := hapart (run.content_mem he) (.inr (.inr hmem)) hid
  rcases run.content_cases he with hold | ⟨r, hr, d', hd', heq⟩
  · exact hfresh (hcontent ▸ List.mem_map_of_mem hold)
  · rw [hcontent] at heq
    obtain rfl : row = r.row := hkeyed.eq_of_followId (mem_active.mp hrow).1
      (mem_active.mp (run.row_active hr)).1 (congrArg EventContent.followId heq)
    have htype : d'.eventType = d.eventType := (congrArg EventContent.eventType heq).symm
    have hkind : d.eventType.isSourceState = true := by
      have hall : ∀ t ∈ [EventType.sourceConflict, .sourceUnavailable, .sourceRecovered],
          t.isSourceState = true := by decide
      exact hall _ (type_healthEvents hd)
    have hhealth := (r.new_of_found hfound).2.2 d' hd' (htype ▸ hkind)
    -- the states before are told in the events
    have hbefore : ∀ (x : FollowRow) (c : EventDraft), c ∈ healthEvents req x current →
        (c.content x.followId).before = .mk [("data_state", .str x.dataState.name)] := by
      intro x c hc
      rw [healthEvents_of_eq (show healthOf req x current = (_, _) from rfl)] at hc
      obtain ⟨type, -, rfl⟩ := List.mem_map.mp hc
      rfl
    have hstates := (hbefore _ d' hhealth).symm.trans
      ((congrArg EventContent.before heq).symm.trans (hbefore (resolvedRow req r.row current) d hd))
    have hnames := congrArg (fun j : Json => j.get "data_state") hstates
    simp only [Json.get_mk, List.reverse_cons, List.reverse_nil, List.nil_append,
      Lib.Fields.getField, if_true, Option.some.injEq, Json.str.injEq] at hnames
    exact hne (name_injective hnames)

/-- **Reconciling again goes through, and changes nothing but timestamps exactly when the first
reconciliation brought no subscription into an outage.** -/
theorem reconcile_again_iff (hreached : ReachedStore rt db)
    (hframe : (req.frame.map IndexMatch.matchId).Nodup) (hrun : reconcile rt db req = .ok db₁)
    (hapart : Set.InjOn (EventContent.id rt) (contentsTwice db db₁ req)) (order : ScanOrder)
    (now : Int) :
    ∃ db₂, reconcile rt db₁ (req.again order now) = .ok db₂ ∧
      (db₂.timeless = db₁.timeless ↔ Settled db req) := by
  have hreached₁ : ReachedStore rt db₁ := by
    have hnext := @Lib.Reaches.next _ _ _ _ _ _ (FollowStep.reconcile req) hreached trivial
    rwa [FollowStep.run, hrun] at hnext
  have hkeyed := hreached.keyed
  have haddressed := hreached.addressed
  have haddressed₁ := hreached₁.addressed
  obtain ⟨run⟩ := exists_firstRun hrun
  obtain ⟨db₂, hagain⟩ := (exists_reconcile_iff rt hreached₁.keyed).mpr
    (goesThrough_again hkeyed hreached₁.keyed hframe hrun order now)
  refine ⟨db₂, hagain, fun hsame => ?_, fun hsettled => ?_⟩
  · -- an unsettled subscription's event is written the second time
    intro row hrow current hfound houtage
    by_contra hneither
    push Not at hneither
    obtain ⟨hne, d, hd, hfresh⟩ := hneither
    obtain ⟨run₂⟩ := exists_firstRun hagain
    obtain ⟨x, hx, hid, -⟩ := (of_reconcile hkeyed hrun).2 row hrow
    obtain ⟨r, hr, rfl⟩ := run.exists_record hx
    obtain rfl : row = r.row := hkeyed.eq_of_followId (mem_active.mp hrow).1
      (mem_active.mp (run.row_active hr)).1 (hid.symm.trans r.outcome.followId)
    have hnew := (r.new_of_found hfound).1
    have hlookup := lookup_resolvedRow hframe hfound
    have hmem : d.content r.row.followId ∈ (FollowStep.reconcile req).contents db₁ := by
      refine ⟨r.new, hx, db₁, _, _, _, .found current (hnew ▸ hlookup), d, ?_, ?_⟩
      · rw [hnew]
        exact List.mem_append_left _ (List.mem_append_right _ hd)
      · rw [hnew]
        rfl
    refine id_notMem_of_not_settled run hkeyed haddressed₁ hapart hrow hfound houtage hne hd hmem
      hfresh ?_
    have hevents : db₂.timeless.events = db₁.timeless.events := congrArg FollowDb.events hsame
    change db₂.events = db₁.events at hevents
    obtain ⟨s, hs, hsrow⟩ : ∃ s ∈ run₂.records, s.row = r.new := by
      have hscan : r.new ∈ run₂.records.map RowRecord.row := by
        rw [run₂.rows]
        exact (order.perm _).mem_iff.mpr hx
      exact List.mem_map.mp hscan
    have hsfound : (lookup (req.again order now).frame s.row).found = some current.fixture := by
      rw [hsrow, hnew]
      exact congrArg Lookup.found hlookup
    have hsdraft := (s.new_of_found hsfound).2.1 d (by rw [hsrow, hnew]; exact hd)
    have hsid := run₂.id_mem hs (List.mem_append_left _ hsdraft)
    rw [hevents, hsrow, hnew] at hsid
    exact hsid
  · obtain ⟨next, hrows, hrest⟩ := bind_ok_iff.mp hagain
    obtain ⟨_, -, hdone⟩ := bind_ok_iff.mp hrest
    obtain rfl := Except.ok.inj hdone
    have hmem : ∀ x, x ∈ order.scan db₁.active ↔ x ∈ db₁.active := fun x => (order.perm _).mem_iff
    refine foldlM_reconcileRow_quiet (fun x hx => ?_) (fun x hx old hold heq => ?_) hrows
    · exact run.quiet hframe haddressed haddressed₁ hapart hsettled order now ((hmem x).mp hx)
    · rw [hreached₁.keyed.eq_of_followId hold (mem_active.mp ((hmem x).mp hx)).1 heq]

end Second

/-! ## A healthy source and an outage -/

/-- A reconciliation that finds nothing to tell of. -/
theorem contents_reconcile_eq_empty {db : FollowDb} {req : ReconcileRequest} (current : Snapshot)
    (hfound : ∀ row ∈ db.active, lookup req.frame row = .byMatchId current.fixture)
    (hsame : ∀ row ∈ db.active, comparisonEvents req row.currentSnapshot current = [] ∧
      healthEvents req row current = [])
    (hpending : pendingSeals req current.fixture = []) :
    (FollowStep.reconcile req).contents db = ∅ := by
  refine Set.eq_empty_of_forall_notMem ?_
  rintro c ⟨row, hrow, mid, drafts, settlement, new, outcome, d, hd, rfl⟩
  have hlookup := hfound row hrow
  cases outcome with
  | unresolved h => rw [hlookup] at h; cases h
  | repointed current' h => rw [hlookup] at h; cases h
  | found current' h =>
      obtain rfl := Snapshot.eq_of_fixture (Lookup.byMatchId.inj (hlookup.symm.trans h))
      have hnone : settlementEvents req mid row current = [] := if_neg fun h => h.2.1 hpending
      rw [(hsame row hrow).1, (hsame row hrow).2, hnone] at hd
      cases hd

theorem worldcup_approved : worldcup ∈ approvedSourceIds := by decide

/-- A snapshot of the fixture before it moved. -/
def beforeSnapshot : Snapshot := ⟨before, worldcup, rfl, worldcup_approved⟩

/-- The store after the fixture followed was found where it was. -/
@[irreducible] def foundBefore (rt : Runtime) : FollowDb :=
  FollowStep.run rt (followedBefore rt) (.reconcile (reconcileOf [before] 1))

theorem reconcile_foundBefore : reconcile .standard (followedBefore .standard)
    (reconcileOf [before] 1) = .ok (foundBefore .standard) := by
  have hok : (reconcile .standard (followedBefore .standard)
      (reconcileOf [before] 1)).toOption.isSome = true := by
    decide +kernel
  rw [foundBefore, FollowStep.run]
  cases hrun : reconcile .standard (followedBefore .standard) (reconcileOf [before] 1) with
  | ok db => rfl
  | error e =>
      rw [hrun] at hok
      cases hok

/-- A followed fixture that did not move is reconciled twice. -/
theorem reconcile_again_before : ∃ db₂,
    reconcile .standard (foundBefore .standard) ((reconcileOf [before] 1).again .insertion 2) =
      .ok db₂ ∧
    (db₂.timeless = (foundBefore .standard).timeless ↔
      Settled (followedBefore .standard) (reconcileOf [before] 1)) := by
  refine reconcile_again_iff (reached_followedBefore _) (by decide) reconcile_foundBefore ?_ _ _
  have hbefore : (FollowStep.reconcile (reconcileOf [before] 1)).contents
      (followedBefore .standard) = ∅ :=
    contents_reconcile_eq_empty beforeSnapshot (by decide +kernel) (by decide +kernel) (by decide)
  have hfound : (FollowStep.reconcile (reconcileOf [before] 1)).contents
      (foundBefore .standard) = ∅ :=
    contents_reconcile_eq_empty beforeSnapshot (by decide +kernel) (by decide +kernel) (by decide)
  have hone : ((followedBefore .standard).events.map FollowEvent.content).length = 1 := by
    decide +kernel
  obtain ⟨only, honly⟩ := List.length_eq_one_iff.mp hone
  refine Set.Subsingleton.injOn ?_ _
  have hall : ∀ c ∈ contentsTwice (followedBefore .standard) (foundBefore .standard)
      (reconcileOf [before] 1), c = only := by
    rintro c (hc | hc | hc)
    · exact List.mem_singleton.mp (honly ▸ hc)
    · rw [hbefore] at hc
      cases hc
    · rw [hfound] at hc
      cases hc
  exact fun a ha b hb => (hall a ha).trans (hall b hb).symm

/-- The reconciliation of a fixture whose source is offline. -/
def outageOf (now : Int) : ReconcileRequest :=
  { reconcileOf [before] now with sources := [(worldcup, ⟨some "offline", none, none, none⟩)] }

/-- **A source's outage is recorded twice**: the second time as a change from the outage to itself. -/
theorem reconcile_again_appends : ¬ ∀ (db db₁ db₂ : FollowDb) (req : ReconcileRequest),
    ReachedStore .standard db → (req.frame.map IndexMatch.matchId).Nodup →
      reconcile .standard db req = .ok db₁ → reconcile .standard db₁ req = .ok db₂ →
        db₂.timeless = db₁.timeless := by
  intro h
  have hcounts : (reconcile .standard (followedBefore .standard) (outageOf 1)).toOption.map
      (fun db₁ => (db₁.events.length,
        (reconcile .standard db₁ (outageOf 1)).toOption.map (·.events.length))) =
      some (2, some 3) := by
    decide +kernel
  obtain ⟨db₁, hfirst, hpair⟩ := Option.map_eq_some_iff.mp hcounts
  obtain ⟨hlength₁, hsecond⟩ := Prod.mk.inj hpair
  obtain ⟨db₂, hsecond, hlength₂⟩ := Option.map_eq_some_iff.mp hsecond
  have hsame := h (followedBefore .standard) db₁ db₂ (outageOf 1) (reached_followedBefore _)
    (by decide) (toOption_eq_some.mp hfirst) (toOption_eq_some.mp hsecond)
  have hevents : db₂.timeless.events = db₁.timeless.events := congrArg FollowDb.events hsame
  have hlength : db₂.events.length = db₁.events.length := congrArg List.length hevents
  rw [hlength₁, hlength₂] at hlength
  cases hlength

end Golavo.Follows
