import Golavo.Follows.SoundStore

/-! # Runs the archive accepts

A step **keeps** the store when every fixture it stores is a valid snapshot, comes from the source its
match id was first recorded under, and brings a fixture key only where that key is recorded. Runs of
such steps leave a database the archive accepts after each of them. -/

namespace Golavo.Follows

open Golavo.Lib (Json Reaches bind_ok_iff check_bind_ok_iff failIf_ok_iff orFail_ok_iff)
open Golavo.Ledger (Runtime)

/-! ## The condition -/

/-- A fixture that may be stored for a subscription: a valid snapshot, from the source its match id is
recorded under, if it is. -/
structure FixtureKept (ids : List IdentityRow) (followId : String) (m : IndexMatch) : Prop where
  valid : validateSnapshot m.snapshotJson = .ok ()
  source : ∀ i ∈ ids, i.followId = followId → i.kind = .matchId → i.value = m.matchId →
    m.sourceId = some i.sourceId

/-- A follow that may be stored: its fixture may be, and a stable fixture key is not empty. -/
structure FollowKept (ids : List IdentityRow) (followId : String) (m : IndexMatch) : Prop
    extends FixtureKept ids followId m where
  key : m.sourceId = some worldcup → m.upstreamFixtureKey ≠ some ""

/-- A subscription whose reconciliation may be stored: the fixture found may be; one found by its match
id brings a stable fixture key only where that key is recorded; and a result that pending seals wait
for has both scores. -/
structure RowKept (req : ReconcileRequest) (ids : List IdentityRow) (row : FollowRow) : Prop where
  fixture : ∀ m, (lookup req.frame row).found = some m → FixtureKept ids row.followId m
  key : ∀ m, lookup req.frame row = .byMatchId m → m.sourceId = some worldcup →
    ∀ key, m.upstreamFixtureKey = some key →
      ∃ source, Recorded ids row.followId .upstreamFixtureKey key source
  scores : ∀ s : Snapshot, (lookup req.frame row).found = some s.fixture →
    (healthOf req row s).1 = .completed → pendingSeals req s.fixture ≠ [] →
      s.fixture.homeScore.isSome ∧ s.fixture.awayScore.isSome

/-- Whether what a step stores keeps to what is recorded. -/
def FollowStep.Keeps (db : FollowDb) : FollowStep → Prop
  | .follow req => (snapshot req.fixture).isOk = true → req.generationCommit ≠ some false →
      match db.existing req.order req.fixture.matchId with
      | some old => old.isActive = true ∨ FollowKept db.identities old.followId req.fixture
      | none => FollowKept db.identities req.newId req.fixture
  | .reconcile req => GoesThrough db req → ∀ row ∈ db.active, RowKept req db.identities row
  | .conflicts details _ _ => ∀ c ∈ details,
      (∃ r ∈ db.active, r.canonicalMatchId = c.matchId) → c.detail.depth ≤ maxJsonDepth
  | _ => True

/-! ## Lookups -/

section Lookups

variable {frame : List IndexMatch} {row : FollowRow} {m : IndexMatch}

/-- A fixture found by its match id has it. -/
theorem matchId_of_byMatchId (h : lookup frame row = .byMatchId m) :
    m.matchId = row.canonicalMatchId := by
  unfold lookup at h
  split at h
  · rename_i hfind
    obtain rfl := Lookup.byMatchId.inj h
    simpa using List.find?_some hfind
  · split at h
    · split_ifs at h
      split at h <;> cases h
    · cases h

/-- A fixture found by its key is of the subscription's source and has its key. -/
theorem key_of_repointed (h : lookup frame row = .repointed m) :
    ∃ key, row.upstreamFixtureKey = some key ∧ row.identitySourceId ∈ stableUpstreamKeySources ∧
      m.sourceId = some row.identitySourceId ∧ m.upstreamFixtureKey = some key := by
  unfold lookup at h
  split at h
  · cases h
  · split at h
    · rename_i key hkey
      split_ifs at h with hstable
      split at h
      · rename_i hup
        obtain rfl := Lookup.repointed.inj h
        unfold upstreamLookup at hup
        split at hup
        · rename_i hfilter
          obtain rfl := Option.some.inj hup
          have hm := List.mem_filter.mp (hfilter ▸ List.mem_singleton_self _)
          simp only [decide_eq_true_eq] at hm
          exact ⟨key, hkey, hstable.1, hm.2.1, hm.2.2⟩
        · cases hup
      · cases h
    · cases h

end Lookups

/-! ## Snapshots as they are stored -/

section Stored

variable {ids : List IdentityRow} {followId : String} {s : Snapshot}

theorem textAt_matchId (s : Snapshot) : textAt s.json "match_id" = s.fixture.matchId := by
  rw [textAt, Snapshot.json, get_snapshotJson_matchId]
  rfl

theorem get_sourceId (s : Snapshot) : s.json.get "source_id" = some (.str s.sourceId) := by
  rw [Snapshot.json, get_snapshotJson_sourceId, s.source_eq]
  rfl

theorem textAt_sourceId (s : Snapshot) : textAt s.json "source_id" = s.sourceId := by
  rw [textAt, get_sourceId]
  rfl

theorem FixtureKept.snapshotOk (h : FixtureKept ids followId s.fixture) : SnapshotOk s.json :=
  ⟨depth_snapshotJson _, h.valid⟩

theorem FixtureKept.matchId_ne (h : FixtureKept ids followId s.fixture) : s.fixture.matchId ≠ "" := by
  have := (validateSnapshot_ok_iff.mp h.valid).2.1
  rw [get_snapshotJson_matchId] at this
  simpa [isNonemptyText] using this

/-- A stored snapshot agrees with the identities once its match id, and its key where that is stable,
are recorded under its source. -/
theorem kept_of_recorded (hid : Recorded ids followId .matchId s.fixture.matchId s.sourceId)
    (hkey : s.sourceId ∈ stableUpstreamKeySources → ∀ key, s.fixture.upstreamFixtureKey = some key →
      Recorded ids followId .upstreamFixtureKey key s.sourceId) : Kept ids followId s.json := by
  constructor
  · rw [textAt_matchId, textAt_sourceId]
    exact hid
  · rw [textAt_sourceId, textAt, Snapshot.json, get_snapshotJson_key]
    intro hstable hne
    cases hnull : s.fixture.upstreamFixtureKey with
    | none => exact absurd (by rw [hnull]; rfl) hne
    | some key => exact hkey hstable key hnull

/-- A row that shows a stored snapshot is accepted when its first one is. -/
theorem rowOk_of_snapshot {r : FollowRow} (hs : SnapshotOk s.json) (hkept : Kept ids r.followId s.json)
    (hinitial : SnapshotOk r.initialSnapshot) (hinitialKept : Kept ids r.followId r.initialSnapshot)
    (hcurrent : r.currentSnapshot = s.json) (hid : r.canonicalMatchId = s.fixture.matchId)
    (hsource : r.identitySourceId = s.sourceId)
    (hkey : r.upstreamFixtureKey = s.fixture.upstreamFixtureKey) : RowOk ids r where
  initial := hinitial
  current := hcurrent ▸ hs
  initialKept := hinitialKept
  currentKept := hcurrent ▸ hkept
  matchId := by rw [hcurrent, hid, Snapshot.json, get_snapshotJson_matchId]
  sourceId := by rw [hcurrent, hsource, get_sourceId]
  key := by rw [hcurrent, hkey, Snapshot.json, get_snapshotJson_key]

theorem RowOk.approved {r : FollowRow} (h : RowOk ids r) : r.identitySourceId ∈ approvedSourceIds := by
  obtain ⟨source, hsource, heq, -⟩ := h.current.source
  rw [h.sourceId] at heq
  rwa [Json.str.inj (Option.some.inj heq)]

end Stored

section Steps

variable {rt : Runtime} {db db' : FollowDb} {skip : String → Prop} {followId : String} {now : Int}

/-! ## Following -/

theorem worldcup_of_stable {source : String} (h : source ∈ stableUpstreamKeySources) :
    source = worldcup := List.mem_singleton.mp h

theorem grows_recordIdentities {s : Snapshot} :
    Grows db.identities (db.recordIdentities followId s now).identities := by
  unfold FollowDb.recordIdentities
  dsimp only
  split_ifs
  · exact fun _ _ _ _ h => grows_recordIdentity _ _ _ _ (grows_recordIdentity _ _ _ _ h)
  · exact grows_recordIdentity

theorem SoundBut.recordIdentities {s : Snapshot} (h : SoundBut skip db) (hhas : db.Has followId) :
    SoundBut skip (db.recordIdentities followId s now) := by
  unfold FollowDb.recordIdentities
  dsimp only
  have hfirst := h.recordIdentity .matchId (some s.fixture.matchId) now hhas s.approved nofun
  split_ifs with hstable
  · exact hfirst.recordIdentity _ _ _ ((has_congr (followedMatches_recordIdentity _ _ _ _ _)).mpr hhas)
      s.approved fun _ => worldcup_of_stable hstable
  · exact hfirst

/-- A followed fixture agrees with the identities recorded with it. -/
theorem kept_recordIdentities (now : Int) {s : Snapshot} (h : SoundBut skip db) (hhas : db.Has followId)
    (hkept : FollowKept db.identities followId s.fixture) :
    Kept (db.recordIdentities followId s now).identities followId s.json := by
  have hsource : ∀ i ∈ db.identities, i.followId = followId → i.kind = .matchId →
      i.value = s.fixture.matchId → i.sourceId = s.sourceId := by
    intro i hi hid hkind hvalue
    have := hkept.source i hi hid hkind hvalue
    exact (Option.some.inj (s.source_eq.symm.trans this)).symm
  have hid := recorded_recordIdentity now hkept.matchId_ne hsource
  have hfirst := h.recordIdentity .matchId (some s.fixture.matchId) now hhas s.approved nofun
  unfold FollowDb.recordIdentities
  dsimp only
  split_ifs with hstable
  · refine kept_of_recorded (grows_recordIdentity _ _ _ _ hid) fun _ key hkey => ?_
    have hcup := worldcup_of_stable hstable
    rw [hkey]
    refine recorded_recordIdentity _ (fun hempty => ?_) fun i hi _ hkind _ => ?_
    · exact hkept.key (hcup ▸ s.source_eq) (hempty ▸ hkey)
    · rw [hfirst.keySources i hi hkind, hcup]
  · exact kept_of_recorded hid fun hin => absurd hin hstable

/-- Inserting a subscription leaves only that one to be checked. -/
theorem SoundBut.insertMatch {r : FollowRow} (h : Sound db)
    (hsource : r.identitySourceId ∈ approvedSourceIds) :
    SoundBut (· = r.followId) { db with followedMatches := db.followedMatches ++ [r] } := by
  have hhas : ∀ {followId}, db.Has followId →
      ({ db with followedMatches := db.followedMatches ++ [r] } : FollowDb).Has followId :=
    fun ⟨old, hold, hid⟩ => ⟨old, List.mem_append_left _ hold, hid⟩
  refine { h with rows := ?_, rowSources := ?_, identityRefs := ?_, eventRefs := ?_ }
  · intro x hx hskip
    rcases List.mem_append.mp hx with hold | hnew
    · exact h.rows x hold id
    · exact absurd (congrArg _ (List.mem_singleton.mp hnew)) hskip
  · exact List.forall_mem_append.mpr ⟨h.rowSources, List.forall_mem_singleton.mpr hsource⟩
  · exact fun i hi => hhas (h.identityRefs i hi)
  · exact fun e he => hhas (h.eventRefs e he)

/-- A subscription just stored is sound once its identities and its event are. -/
theorem sound_followed {s : Snapshot} {req : FollowRequest} {type : EventType}
    (htype : type = .followed ∨ type = .refollowed) (h : SoundBut (· = followId) db)
    (hhas : db.Has followId) (hkept : FollowKept db.identities followId s.fixture)
    (hrows : ∀ r ∈ db.followedMatches, r.followId = followId →
      ∀ ids, Grows db.identities ids → Kept ids followId s.json → RowOk ids r) :
    Sound ((db.recordIdentities followId s now).insertEvent rt followId now
      (followDraft type s req)) := by
  have hmatches := kept_recordIdentities now h hhas hkept
  refine (SoundBut.insertEvent (h.recordIdentities hhas)
    ((has_congr (followedMatches_recordIdentities _ _ _)).mpr hhas)
    (draftOk_follow htype hkept.snapshotOk hmatches)).close fun r hr hid => ?_
  rw [identities_insertEvent]
  rw [followedMatches_insertEvent, followedMatches_recordIdentities] at hr
  exact hrows r hr hid _ grows_recordIdentities hmatches

theorem sound_followMatch {req : FollowRequest} {reply : String × Bool} (h : Sound db)
    (hkeeps : (FollowStep.follow req).Keeps db) (hrun : followMatch rt db req = .ok (db', reply)) :
    Sound db' := by
  obtain ⟨s, hs, hrun⟩ := bind_ok_iff.mp hrun
  have hkeeps := hkeeps (by rw [hs]; rfl)
  rw [← snapshot_ok_iff.mp hs] at hkeeps
  split at hrun
  · rename_i old hexisting
    obtain ⟨hold, hid⟩ := mem_existing hexisting
    split_ifs at hrun with hactive
    · obtain ⟨_, -, hrun⟩ := bind_ok_iff.mp hrun
      obtain ⟨rfl, -⟩ := Prod.mk.inj (Except.ok.inj hrun)
      exact h
    · obtain ⟨next, hup, hrun⟩ := bind_ok_iff.mp hrun
      obtain ⟨_, hgeneration, hrun⟩ := bind_ok_iff.mp hrun
      obtain ⟨rfl, -⟩ := Prod.mk.inj (Except.ok.inj hrun)
      obtain ⟨-, rfl⟩ := updateMatch_ok_iff.mp hup
      have hkept := hkeeps (failIf_ok_iff.mp hgeneration)
      rw [hexisting] at hkept
      have hkept := hkept.resolve_left hactive
      have hbut := SoundBut.replaceMatch (r := refollowed s req old) h.weaken s.approved
      refine sound_followed (.inr rfl) hbut ⟨_, mem_replaceMatch.mpr (.inl ⟨rfl, old, hold, rfl⟩), rfl⟩
        hkept fun r hr hrid ids hgrow hsnapshot => ?_
      rcases mem_replaceMatch.mp hr with ⟨rfl, -⟩ | ⟨-, hne⟩
      · have hfirst := h.rows old hold id
        exact rowOk_of_snapshot hkept.snapshotOk hsnapshot hfirst.initial
          (hfirst.initialKept.mono hgrow) rfl hid rfl rfl
      · exact absurd hrid hne
  · rename_i hexisting
    obtain ⟨next, hin, hrun⟩ := bind_ok_iff.mp hrun
    obtain ⟨_, hgeneration, hrun⟩ := bind_ok_iff.mp hrun
    obtain ⟨rfl, -⟩ := Prod.mk.inj (Except.ok.inj hrun)
    obtain ⟨hfresh, -, rfl⟩ := insertMatch_ok_iff.mp hin
    have hkept := hkeeps (failIf_ok_iff.mp hgeneration)
    rw [hexisting] at hkept
    refine sound_followed (.inl rfl) (SoundBut.insertMatch (r := newFollow s req) h s.approved)
      ⟨_, List.mem_append_right _ (List.mem_singleton_self _), rfl⟩ hkept
        fun r hr hrid ids hgrow hsnapshot => ?_
    rcases List.mem_append.mp hr with hold | hnew
    · exact absurd (List.mem_map.mpr ⟨r, hold, hrid⟩) hfresh
    · obtain rfl := List.mem_singleton.mp hnew
      exact rowOk_of_snapshot hkept.snapshotOk hsnapshot hkept.snapshotOk hsnapshot rfl rfl rfl rfl

theorem sound_unfollow (h : Sound db) (hrun : unfollow rt db followId now = .ok db') :
    Sound db' := by
  obtain ⟨row, hfind, hrun⟩ := bind_ok_iff.mp hrun
  obtain ⟨hrow, rfl⟩ := find_some (orFail_ok_iff.mp hfind)
  split_ifs at hrun with hactive
  · obtain ⟨next, hup, hrun⟩ := bind_ok_iff.mp hrun
    obtain rfl := Except.ok.inj hrun
    obtain ⟨-, rfl⟩ := updateMatch_ok_iff.mp hup
    have hok := h.rows row hrow id
    refine SoundBut.insertEvent (h.replaceMatch { hok with } hok.approved) ?_
      (draftOk_unfollow hok.approved hok.current hok.currentKept)
    exact ⟨_, mem_replaceMatch.mpr (.inl ⟨rfl, row, hrow, rfl⟩), rfl⟩
  · obtain rfl := Except.ok.inj hrun
    exact h

/-! ## Source checks, settlements and notifications -/

/-- Appending accepted events of subscriptions keeps a store sound. -/
theorem sound_foldl_insertEvents (events : FollowRow → List EventDraft) {rows : List FollowRow}
    (h : Sound db) (hrows : ∀ r ∈ rows, r ∈ db.followedMatches)
    (hds : ∀ r ∈ rows, ∀ d ∈ events r, DraftOk db.identities r.followId d) :
    Sound (rows.foldl (fun db row => db.insertEvents rt row.followId now (events row)) db) := by
  induction rows generalizing db with
  | nil => exact h
  | cons row rest ih =>
      refine ih (h.insertEvents ⟨row, hrows row List.mem_cons_self, rfl⟩
        (hds row List.mem_cons_self)) ?_ ?_
      · rw [followedMatches_insertEvents]
        exact fun r hr => hrows r (List.mem_cons_of_mem _ hr)
      · rw [identities_insertEvents]
        exact fun r hr => hds r (List.mem_cons_of_mem _ hr)

theorem mem_scan {order : ScanOrder} {r : FollowRow} (h : r ∈ order.scan db.active) :
    r ∈ db.followedMatches := (mem_active.mp ((order.perm _).mem_iff.mp h)).1

/-- Recording a conflict moves no subscription. -/
theorem canonicalMatchId_recordConflict {sources : SourceTable} {c : ConflictDetail}
    (hrun : recordConflict rt sources now db c = .ok db') {r : FollowRow} (hr : r ∈ db'.active) :
    ∃ old ∈ db.active, old.canonicalMatchId = r.canonicalMatchId := by
  unfold recordConflict at hrun
  split at hrun
  · obtain rfl := Except.ok.inj hrun
    exact ⟨r, hr, rfl⟩
  · rename_i row hfind
    obtain ⟨-, rfl⟩ := updateMatch_ok_iff.mp hrun
    obtain ⟨hr, hactive⟩ := mem_active.mp hr
    rcases mem_replaceMatch.mp hr with ⟨rfl, -⟩ | ⟨hold, -⟩
    · exact ⟨row, List.mem_of_find?_eq_some hfind, rfl⟩
    · rw [followedMatches_insertEvent] at hold
      exact ⟨r, mem_active.mpr ⟨hold, hactive⟩, rfl⟩

theorem sound_recordConflict {sources : SourceTable} {c : ConflictDetail} (h : Sound db)
    (hdepth : (∃ r ∈ db.active, r.canonicalMatchId = c.matchId) → c.detail.depth ≤ maxJsonDepth)
    (hrun : recordConflict rt sources now db c = .ok db') : Sound db' := by
  unfold recordConflict at hrun
  split at hrun
  · obtain rfl := Except.ok.inj hrun
    exact h
  · rename_i row hfind
    have hrow := (mem_active.mp (List.mem_of_find?_eq_some hfind)).1
    have hok := h.rows row hrow id
    have hdepth := hdepth
      ⟨row, List.mem_of_find?_eq_some hfind, by simpa using List.find?_some hfind⟩
    obtain ⟨-, rfl⟩ := updateMatch_ok_iff.mp hrun
    refine Sound.replaceMatch (h.insertEvent ⟨row, hrow, rfl⟩
      (draftOk_conflict hok.approved hok.current hok.currentKept hdepth)) ?_ hok.approved
    rw [identities_insertEvent]
    exact { hok with }

/-- Changing what the archive does not check of events keeps a store sound. -/
theorem sound_mapEvents {f : FollowEvent → FollowEvent} (h : Sound db)
    (hf : ∀ e, (f e).followId = e.followId ∧ (f e).eventType = e.eventType ∧
      (f e).sourceId = e.sourceId ∧ (f e).before = e.before ∧ (f e).after = e.after ∧
      (f e).conflict = e.conflict) : Sound { db with events := db.events.map f } := by
  refine { h with eventRefs := ?_, eventSources := ?_, events := ?_ }
  all_goals
    intro e he
    obtain ⟨old, hold, rfl⟩ := List.mem_map.mp he
    obtain ⟨hid, htype, hsource, hbefore, hafter, hconflict⟩ := hf old
  · rw [hid]
    exact h.eventRefs old hold
  · rw [hsource]
    exact h.eventSources old hold
  · have hok := h.events old hold
    refine ⟨?_, ?_, ?_, ?_⟩
    · rw [hbefore]
      exact hok.beforeDepth
    · rw [hafter]
      exact hok.afterDepth
    · rw [hconflict]
      exact hok.conflictDepth
    · rw [hid, htype, hbefore, hafter, hconflict]
      exact hok.evidence

/-! ## Reconciling -/

/-- What reconciling one subscription leaves of the others: the identities of every other one are
those it had. -/
structure RowStep (followId : String) (db db' : FollowDb) : Prop where
  grows : Grows db.identities db'.identities
  others : ∀ i ∈ db'.identities, i.followId ≠ followId → ∃ old ∈ db.identities,
    i.followId = old.followId ∧ i.kind = old.kind ∧ i.value = old.value ∧ i.sourceId = old.sourceId
  has : ∀ other, db.Has other → db'.Has other

theorem FixtureKept.step {followId' : String} {m : IndexMatch}
    (h : FixtureKept db.identities followId' m) (hstep : RowStep followId db db')
    (hne : followId' ≠ followId) : FixtureKept db'.identities followId' m := by
  refine ⟨h.valid, fun i hi hid hkind hvalue => ?_⟩
  obtain ⟨old, hold, hid', hkind', hvalue', hsource'⟩ := hstep.others i hi (hid ▸ hne)
  rw [hsource']
  exact h.source old hold (hid' ▸ hid) (hkind' ▸ hkind) (hvalue' ▸ hvalue)

theorem RowKept.step {req : ReconcileRequest} {row : FollowRow} (h : RowKept req db.identities row)
    (hstep : RowStep followId db db') (hne : row.followId ≠ followId) :
    RowKept req db'.identities row where
  fixture := fun m hm => (h.fixture m hm).step hstep hne
  key := fun m hm hcup key hkey =>
    let ⟨source, hsource⟩ := h.key m hm hcup key hkey
    ⟨source, hstep.grows _ _ _ _ hsource⟩
  scores := h.scores

theorem RowStep.of_eq (hids : db'.identities = db.identities)
    (hrows : db'.followedMatches.map FollowRow.followId =
      db.followedMatches.map FollowRow.followId) : RowStep followId db db' where
  grows := fun _ _ _ _ h => hids ▸ h
  others := fun i hi _ => ⟨i, hids ▸ hi, rfl, rfl, rfl, rfl⟩
  has := fun other hhas => by
    rw [has_iff, hrows]
    exact has_iff.mp hhas

/-- Recording an identity after an event is recording it before. -/
theorem recordIdentity_insertEvent (d : EventDraft) (kind : IdentityKind) (value : Option String)
    (source : String) :
    (db.insertEvent rt followId now d).recordIdentity followId kind value source now =
      (db.recordIdentity followId kind value source now).insertEvent rt followId now d := by
  have hoptIn : (db.recordIdentity followId kind value source now).notificationsOptIn =
      db.notificationsOptIn := by
    unfold FollowDb.recordIdentity
    split
    · rfl
    · split_ifs <;> rfl
  have hevent : d.toEvent rt (db.recordIdentity followId kind value source now) followId now =
      d.toEvent rt db followId now := by
    simp only [EventDraft.toEvent, hoptIn]
  unfold FollowDb.insertEvent
  simp only [hevent, events_recordIdentity]
  split_ifs
  · rfl
  · unfold FollowDb.recordIdentity
    split
    · rfl
    · split_ifs <;> rfl

/-- Storing the fixture found for a subscription keeps a store sound. -/
theorem sound_settleRow {req : ReconcileRequest} {row : FollowRow} {current : Snapshot}
    (h : Sound db) (hhas : db.Has row.followId) (hrow : RowOk db.identities row)
    (hs : SnapshotOk current.json) (hkept : Kept db.identities row.followId current.json)
    (hscores : (healthOf req row current).1 = .completed → pendingSeals req current.fixture ≠ [] →
      current.fixture.homeScore.isSome ∧ current.fixture.awayScore.isSome)
    (hrun : settleRow rt req row db current = .ok db') :
    Sound db' ∧ db'.identities = db.identities ∧
      db'.followedMatches.map FollowRow.followId = db.followedMatches.map FollowRow.followId := by
  obtain ⟨-, rfl⟩ := updateMatch_ok_iff.mp hrun
  have hds : ∀ d ∈ comparisonEvents req row.currentSnapshot current ++ healthEvents req row current,
      DraftOk db.identities row.followId d :=
    List.forall_mem_append.mpr
      ⟨draftOk_comparisonEvents hrow.current hs, draftOk_healthEvents hs⟩
  have hhas' : (db.insertEvents rt row.followId req.now
      (comparisonEvents req row.currentSnapshot current ++ healthEvents req row current)).Has
        row.followId := (has_congr (by simp)).mpr hhas
  refine ⟨Sound.replaceMatch ((h.insertEvents hhas hds).insertEvents hhas' ?_) ?_ current.approved,
    by simp [FollowDb.replaceMatch], ?_⟩
  · rw [identities_insertEvents]
    exact draftOk_settlementEvents hs hscores
  · rw [identities_insertEvents, identities_insertEvents]
    exact rowOk_of_snapshot hs hkept hrow.initial hrow.initialKept rfl rfl rfl rfl
  · rw [followIds_replaceMatch, followedMatches_insertEvents, followedMatches_insertEvents]

/-- The identity recorded for a subscription's match id is under the source of the fixture found. -/
theorem recorded_of_fixtureKept {ids : List IdentityRow} {s : Snapshot} {source : String}
    (hkept : FixtureKept ids followId s.fixture)
    (h : Recorded ids followId .matchId s.fixture.matchId source) :
    Recorded ids followId .matchId s.fixture.matchId s.sourceId := by
  obtain ⟨i, hi, hid, hkind, hvalue, -⟩ := h
  have := hkept.source i hi hid hkind hvalue
  exact ⟨i, hi, hid, hkind, hvalue, (Option.some.inj (s.source_eq.symm.trans this)).symm⟩

/-- **Reconciling one subscription keeps a store sound** when what it stores keeps to what is
recorded. -/
theorem sound_reconcileRow {req : ReconcileRequest} {row : FollowRow} (h : Sound db)
    (hhas : db.Has row.followId) (hrow : RowOk db.identities row)
    (hkept : RowKept req db.identities row) (hrun : reconcileRow rt req db row = .ok db') :
    Sound db' ∧ RowStep row.followId db db' := by
  unfold reconcileRow at hrun
  split at hrun
  · obtain ⟨-, rfl⟩ := updateMatch_ok_iff.mp hrun
    refine ⟨Sound.replaceMatch (h.insertEvent hhas (draftOk_unresolved hrow.current hrow.recorded)) ?_
      hrow.approved, .of_eq (by simp [FollowDb.replaceMatch]) ?_⟩
    · rw [identities_insertEvent]
      exact { hrow with }
    · rw [followIds_replaceMatch, followedMatches_insertEvent]
  · rename_i m hlookup
    obtain ⟨current, hcurrent, hsettle⟩ := bind_ok_iff.mp hrun
    obtain rfl := snapshot_ok_iff.mp hcurrent
    have hfound : (lookup req.frame row).found = some current.fixture := by rw [hlookup]; rfl
    have hfixture := hkept.fixture _ hfound
    have hold : Recorded db.identities row.followId .matchId current.fixture.matchId
        row.identitySourceId := by
      rw [matchId_of_byMatchId hlookup]
      exact hrow.recorded
    have hid := recorded_of_fixtureKept hfixture hold
    have hsnapshot : Kept db.identities row.followId current.json := by
      refine kept_of_recorded hid fun hstable key hkey => ?_
      have hcup := worldcup_of_stable hstable
      obtain ⟨source, i, hi, hiid, hikind, hivalue, -⟩ :=
        hkept.key _ hlookup (hcup ▸ current.source_eq) key hkey
      exact ⟨i, hi, hiid, hikind, hivalue, (h.keySources i hi hikind).trans hcup.symm⟩
    obtain ⟨hsound, hids, hrows⟩ := sound_settleRow h hhas hrow hfixture.snapshotOk hsnapshot
      (hkept.scores current hfound) hsettle
    exact ⟨hsound, .of_eq hids hrows⟩
  · rename_i m hlookup
    obtain ⟨current, hcurrent, hsettle⟩ := bind_ok_iff.mp hrun
    obtain rfl := snapshot_ok_iff.mp hcurrent
    have hfound : (lookup req.frame row).found = some current.fixture := by rw [hlookup]; rfl
    have hfixture := hkept.fixture _ hfound
    have hnew : Recorded (db.recordIdentity row.followId .matchId (some current.fixture.matchId)
        current.sourceId req.now).identities row.followId .matchId current.fixture.matchId
          current.sourceId :=
      recorded_recordIdentity _ hfixture.matchId_ne fun i hi hiid hikind hivalue =>
        (Option.some.inj (current.source_eq.symm.trans
          (hfixture.source i hi hiid hikind hivalue))).symm
    -- the event's evidence names the new match id, which is recorded right after it
    dsimp only at hsettle
    rw [recordIdentity_insertEvent] at hsettle
    set mid := db.recordIdentity row.followId .matchId (some current.fixture.matchId)
      current.sourceId req.now with hmid
    have hgrow : Grows db.identities mid.identities := grows_recordIdentity
    have hmidrows : mid.followedMatches = db.followedMatches :=
      followedMatches_recordIdentity _ _ _ _ _
    have hmidhas : mid.Has row.followId := (has_congr hmidrows).mpr hhas
    have hmidsound : Sound mid := h.recordIdentity _ _ _ hhas current.approved
      fun hkind => IdentityKind.noConfusion hkind
    have hevent : Sound (mid.insertEvent rt row.followId req.now (repointDraft req row current)) :=
      hmidsound.insertEvent hmidhas
        (draftOk_repoint hfixture.snapshotOk (hgrow _ _ _ _ hrow.recorded) hnew)
    have hsnapshot : Kept mid.identities row.followId current.json := by
      refine kept_of_recorded hnew fun hstable key hkey => ?_
      obtain ⟨key', hkey', hstable', hsource, hkey''⟩ := key_of_repointed hlookup
      obtain rfl := Option.some.inj (hkey.symm.trans hkey'')
      rw [Option.some.inj (current.source_eq.symm.trans hsource)]
      exact hgrow _ _ _ _ (hrow.recordedKey hstable' hkey')
    obtain ⟨hsound, hids, hrows⟩ := sound_settleRow hevent
      ((has_congr (followedMatches_insertEvent _ _ _)).mpr hmidhas)
      (by rw [identities_insertEvent]; exact hrow.mono hgrow) hfixture.snapshotOk
      (by rw [identities_insertEvent]; exact hsnapshot) (hkept.scores current hfound) hsettle
    rw [identities_insertEvent] at hids
    rw [followedMatches_insertEvent, hmidrows] at hrows
    refine ⟨hsound, hids ▸ hgrow, fun i hi hne => ?_, fun other hother => ?_⟩
    · rw [hids] at hi
      rcases mem_recordIdentity hi with hold | ⟨hid, -⟩
      · exact hold
      · exact absurd hid hne
    · rw [has_iff, hrows]
      exact has_iff.mp hother

/-- Reconciling the subscriptions one after another keeps a store sound. -/
theorem sound_foldlM_reconcileRow {req : ReconcileRequest} {rows : List FollowRow} (h : Sound db)
    (hids : (rows.map FollowRow.followId).Nodup)
    (hrows : ∀ row ∈ rows, db.Has row.followId ∧ RowOk db.identities row ∧
      RowKept req db.identities row)
    (hrun : rows.foldlM (reconcileRow rt req) db = .ok db') : Sound db' := by
  induction rows generalizing db with
  | nil =>
      obtain rfl := Except.ok.inj hrun
      exact h
  | cons row rest ih =>
      rw [List.foldlM_cons] at hrun
      obtain ⟨next, hnext, hrun⟩ := bind_ok_iff.mp hrun
      obtain ⟨hhas, hrow, hkept⟩ := hrows row List.mem_cons_self
      obtain ⟨hsound, hstep⟩ := sound_reconcileRow h hhas hrow hkept hnext
      rw [List.map_cons, List.nodup_cons] at hids
      refine ih hsound hids.2 (fun other hother => ?_) hrun
      obtain ⟨hhas', hrow', hkept'⟩ := hrows other (List.mem_cons_of_mem _ hother)
      have hne : other.followId ≠ row.followId := fun heq =>
        hids.1 (heq ▸ List.mem_map_of_mem hother)
      exact ⟨hstep.has _ hhas', hrow'.mono hstep.grows, hkept'.step hstep hne⟩

theorem sound_reconcile {req : ReconcileRequest} (h : Sound db) (hkeyed : Keyed db)
    (hkeeps : (FollowStep.reconcile req).Keeps db) (hrun : reconcile rt db req = .ok db') :
    Sound db' := by
  have hkept := hkeeps ((exists_reconcile_iff rt hkeyed).mp ⟨db', hrun⟩)
  obtain ⟨next, hrows, hrun⟩ := bind_ok_iff.mp hrun
  obtain ⟨_, -, hrun⟩ := bind_ok_iff.mp hrun
  obtain rfl := Except.ok.inj hrun
  have hids : ((req.order.scan db.active).map FollowRow.followId).Nodup :=
    (((req.order.perm db.active).map _).nodup_iff).mpr
      (hkeyed.followIds.sublist (List.filter_sublist.map _))
  refine sound_foldlM_reconcileRow h hids (fun row hrow => ?_) hrows
  have hmem := mem_scan hrow
  exact ⟨⟨row, hmem, rfl⟩, h.rows row hmem id, hkept row ((req.order.perm _).mem_iff.mp hrow)⟩

/-! ## Runs -/

/-- **A step that keeps to what is recorded keeps a store sound.** -/
theorem sound_run (h : Sound db) (hkeyed : Keyed db) (step : FollowStep) (hkeeps : step.Keeps db) :
    Sound (step.run rt db) := by
  cases step with
  | follow req =>
      refine committed_invariant h fun next hnext => ?_
      cases hrun : followMatch rt db req with
      | ok result =>
          rw [hrun] at hnext
          obtain rfl := Except.ok.inj hnext
          exact sound_followMatch h hkeeps hrun
      | error e =>
          rw [hrun] at hnext
          cases hnext
  | unfollow followId now => exact committed_invariant h fun _ => sound_unfollow h
  | reconcile req => exact committed_invariant h fun _ => sound_reconcile h hkeyed hkeeps
  | settlements order scored checkedAtUtc now =>
      refine sound_foldl_insertEvents _ h (fun r => mem_scan) fun r _ d hd => ?_
      obtain ⟨item, -, rfl⟩ := List.mem_map.mp hd
      exact draftOk_settled
  | sourceRevisions order selected sources now =>
      refine sound_foldl_insertEvents _ h (fun r => mem_scan) fun r hr d hd => ?_
      unfold revisionEvents at hd
      dsimp only at hd
      split at hd
      · split_ifs at hd
        · rw [List.mem_singleton.mp hd]
          exact draftOk_revision (h.rows r (mem_scan hr) id).approved
        · exact absurd hd List.not_mem_nil
      · exact absurd hd List.not_mem_nil
  | conflicts details sources now =>
      refine committed_invariant h fun next hnext => ?_
      change ∀ c ∈ details, _ at hkeeps
      unfold recordConflicts at hnext
      clear hkeyed
      induction details generalizing db with
      | nil =>
          obtain rfl := Except.ok.inj hnext
          exact h
      | cons c rest ih =>
          rw [List.foldlM_cons] at hnext
          obtain ⟨mid, hmid, hnext⟩ := bind_ok_iff.mp hnext
          exact ih (sound_recordConflict h (hkeeps c List.mem_cons_self) hmid) hnext
            fun c' hc' ⟨r, hr, hid⟩ =>
              let ⟨old, hold, hid'⟩ := canonicalMatchId_recordConflict hmid hr
              hkeeps c' (List.mem_cons_of_mem _ hc') ⟨old, hold, hid'.trans hid⟩
  | updateSettings optIn => exact { h with }
  | markRead eventIds allEvents now =>
      refine committed_invariant h fun next hnext => ?_
      obtain ⟨_, -, hnext⟩ := bind_ok_iff.mp hnext
      obtain rfl := Except.ok.inj hnext
      refine sound_mapEvents h fun e => ?_
      split_ifs <;> exact ⟨rfl, rfl, rfl, rfl, rfl, rfl⟩
  | claimNotifications limit batchId now =>
      simp only [FollowStep.run, claimNotifications]
      split_ifs
      · refine sound_mapEvents h fun e => ?_
        split_ifs <;> exact ⟨rfl, rfl, rfl, rfl, rfl, rfl⟩
      · exact h
  | updateNotification eventId status error now =>
      refine committed_invariant h fun next hnext => ?_
      obtain ⟨_, -, hnext⟩ := bind_ok_iff.mp hnext
      obtain ⟨_, -, hnext⟩ := bind_ok_iff.mp hnext
      obtain rfl := Except.ok.inj hnext
      refine sound_mapEvents h fun e => ?_
      split_ifs <;> exact ⟨rfl, rfl, rfl, rfl, rfl, rfl⟩
  | removeHistory => exact sound_emptyDb

/-- The stores reached from an empty one by steps that keep to what is recorded. -/
def KeptStore (rt : Runtime) : FollowDb → Prop :=
  Reaches (· = emptyDb) (fun db step => FollowStep.Keeps db step) fun db step =>
    FollowStep.run rt db step

theorem KeptStore.sound (h : KeptStore rt db) : Sound db := by
  have hboth : Keyed db ∧ Sound db := by
    refine @Reaches.invariant _ _ _ _ _ (fun db => Keyed db ∧ Sound db) _ h ?_ ?_
    · rintro _ rfl
      exact ⟨keyed_emptyDb, sound_emptyDb⟩
    · exact fun _ step hdb hkeeps => ⟨keyed_run hdb.1 step, sound_run hdb.2 hdb.1 step hkeeps⟩
  exact hboth.2

/-- **Writer and validator agree on every run of steps that keep to what is recorded**: the archive
accepts every store reached, and every subscription's source and stable fixture key have an identity
row. -/
theorem keptStore_validates (h : KeptStore rt db) :
    validateFollowDatabase db = .ok () ∧ ∀ r ∈ db.followedMatches,
      Recorded db.identities r.followId .matchId r.canonicalMatchId r.identitySourceId ∧
        (r.identitySourceId ∈ stableUpstreamKeySources → ∀ key, r.upstreamFixtureKey = some key →
          Recorded db.identities r.followId .upstreamFixtureKey key r.identitySourceId) :=
  ⟨h.sound.validates, fun r hr =>
    ⟨(h.sound.rows r hr id).recorded, fun hstable _ => (h.sound.rows r hr id).recordedKey hstable⟩⟩

end Steps

/-! ## A fixture that moved, and one that changed its source -/

/-- The fixture before it moved, shown by another source under the same match id. -/
def resourced : IndexMatch := { before with sourceId := some martj42 }

theorem valid_before : validateSnapshot before.snapshotJson = .ok () := by decide +kernel

theorem valid_after : validateSnapshot after.snapshotJson = .ok () := by decide +kernel

theorem kept_followedBefore : KeptStore .standard (followedBefore .standard) :=
  .next (.start rfl) fun _ _ =>
    ⟨⟨valid_before, fun _ hi => absurd hi List.not_mem_nil⟩, fun _ => by decide⟩

/-- A reconciliation that moves a subscription keeps to what is recorded. -/
theorem keeps_reconcileOf_after :
    (FollowStep.reconcile (reconcileOf [after] 2)).Keeps (followedBefore .standard) := by
  have hids : ∀ i ∈ (followedBefore .standard).identities, i.value ≠ after.matchId := by
    decide +kernel
  have hrows : ∀ r ∈ (followedBefore .standard).active, r.canonicalMatchId ≠ after.matchId := by
    decide +kernel
  intro _ row hrow
  refine ⟨fun m hm => ?_, fun m hm _ key _ => ?_, fun s hs _ hpending => ?_⟩
  · obtain rfl := List.mem_singleton.mp (mem_of_found hm)
    exact ⟨valid_after, fun i hi _ _ hvalue => absurd hvalue (hids i hi)⟩
  · have hmem : m ∈ [after] := mem_of_found
      (show (lookup (reconcileOf [after] 2).frame row).found = some m by rw [hm]; rfl)
    obtain rfl := List.mem_singleton.mp hmem
    exact absurd (matchId_of_byMatchId hm).symm (hrows row hrow)
  · have hmem : s.fixture ∈ [after] := mem_of_found hs
    rw [List.mem_singleton.mp hmem] at hpending
    exact absurd (by decide) hpending

/-- The store after a fixture that moved was reconciled. -/
theorem keptStore_validates_moved :
    validateFollowDatabase (FollowStep.run .standard (followedBefore .standard)
      (.reconcile (reconcileOf [after] 2))) = .ok () :=
  (keptStore_validates (.next kept_followedBefore keeps_reconcileOf_after)).1

/-- **A fixture whose source changes under its match id breaks the export**: its subscription moves to
the new source, and no identity row names it. -/
theorem reached_not_valid :
    ∃ db, ReachedStore .standard db ∧ validateFollowDatabase db ≠ .ok () := by
  refine ⟨FollowStep.run .standard (followedBefore .standard)
    (.reconcile (reconcileOf [resourced] 2)), .next (reached_followedBefore _) trivial, fun h => ?_⟩
  have hrow : ∃ r ∈ (FollowStep.run .standard (followedBefore .standard)
      (.reconcile (reconcileOf [resourced] 2))).followedMatches, r.identitySourceId = martj42 := by
    decide +kernel
  have hids : ∀ i ∈ (FollowStep.run .standard (followedBefore .standard)
      (.reconcile (reconcileOf [resourced] 2))).identities, i.sourceId ≠ martj42 := by
    decide +kernel
  obtain ⟨r, hr, hsource⟩ := hrow
  obtain ⟨i, hi, -, -, -, hsource'⟩ := (rowOk_of_validates h r hr).recorded
  exact hids i hi (hsource'.trans hsource)

end Golavo.Follows
