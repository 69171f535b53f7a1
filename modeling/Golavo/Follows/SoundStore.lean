import Golavo.Follows.Evidence
import Golavo.Follows.OneFollow

/-! # Stores the archive accepts

Every step that stores a snapshot under the identity its subscription was first seen with leaves a
database the archive accepts. A fixture that comes back from another source under the same match id
does not: the identity keeps its first source, and the export refuses the database from then on. -/

namespace Golavo.Follows

open Golavo.Lib (Json Reaches bind_ok_iff check_bind_ok_iff failIf_ok_iff forM_ok_iff orFail_ok_iff)
open Golavo.Ledger (Runtime)

/-! ## What the archive accepts -/

/-- A subscription the archive accepts. -/
structure RowOk (ids : List IdentityRow) (r : FollowRow) : Prop where
  initial : SnapshotOk r.initialSnapshot
  current : SnapshotOk r.currentSnapshot
  initialKept : Kept ids r.followId r.initialSnapshot
  currentKept : Kept ids r.followId r.currentSnapshot
  matchId : r.currentSnapshot.get "match_id" = some (.str r.canonicalMatchId)
  sourceId : r.currentSnapshot.get "source_id" = some (.str r.identitySourceId)
  key : r.currentSnapshot.get "upstream_fixture_key" = some (nullable .str r.upstreamFixtureKey)

theorem checkDepth_ok_iff {v : Json} : checkDepth v = .ok () ↔ v.depth ≤ maxJsonDepth := by
  rw [checkDepth, failIf_ok_iff, not_lt]

theorem validateFollowRow_ok_iff {db : FollowDb} {r : FollowRow} :
    validateFollowRow db r = .ok () ↔ RowOk db.identities r := by
  unfold validateFollowRow
  rw [identitiesOf_eq]
  simp only [check_bind_ok_iff, failIf_ok_iff, checkDepth_ok_iff,
    snapshotMatchesFollowIdentity_ok_iff, not_or, not_not, Bool.not_eq_false]
  constructor
  · rintro ⟨hdepth, hvalid, hdepth', hvalid', hkept, hkept', hid, hsource, hkey, -⟩
    exact ⟨⟨hdepth, hvalid⟩, ⟨hdepth', hvalid'⟩, hkept, hkept', hid, hsource, hkey⟩
  · rintro ⟨⟨hdepth, hvalid⟩, ⟨hdepth', hvalid'⟩, hkept, hkept', hid, hsource, hkey⟩
    exact ⟨hdepth, hvalid, hdepth', hvalid', hkept, hkept', hid, hsource, hkey,
      (validateSnapshot_ok_iff.mp hvalid).2.2.2.1⟩

/-- An event the archive accepts. -/
structure EventOk (ids : List IdentityRow) (e : FollowEvent) : Prop where
  beforeDepth : (e.before.getD .null).depth ≤ maxJsonDepth
  afterDepth : (e.after.getD .null).depth ≤ maxJsonDepth
  conflictDepth : (e.conflict.getD .null).depth ≤ maxJsonDepth
  evidence : validateEventEvidence (idsOf ids e.followId) e.eventType (e.before.getD .null)
    (e.after.getD .null) (e.conflict.getD .null) = .ok ()

theorem validateFollowEvent_ok_iff {db : FollowDb} {e : FollowEvent} :
    validateFollowEvent db e = .ok () ↔ EventOk db.identities e := by
  unfold validateFollowEvent
  rw [identitiesOf_eq]
  simp only [check_bind_ok_iff, checkDepth_ok_iff]
  exact ⟨fun ⟨hbefore, hafter, hconflict, h⟩ => ⟨hbefore, hafter, hconflict, h⟩,
    fun ⟨hbefore, hafter, hconflict, h⟩ => ⟨hbefore, hafter, hconflict, h⟩⟩

/-- A subscription's id. -/
def FollowDb.Has (db : FollowDb) (followId : String) : Prop :=
  ∃ r ∈ db.followedMatches, r.followId = followId

/-- A store all of whose rows the archive accepts, but perhaps some subscriptions. Fixture keys are
recorded for the sources with stable ones alone. -/
structure SoundBut (skip : String → Prop) (db : FollowDb) : Prop where
  rows : ∀ r ∈ db.followedMatches, ¬ skip r.followId → RowOk db.identities r
  rowSources : ∀ r ∈ db.followedMatches, r.identitySourceId ∈ approvedSourceIds
  identityRefs : ∀ i ∈ db.identities, db.Has i.followId
  identitySources : ∀ i ∈ db.identities, i.sourceId ∈ approvedSourceIds
  keySources : ∀ i ∈ db.identities, i.kind = .upstreamFixtureKey → i.sourceId = worldcup
  eventRefs : ∀ e ∈ db.events, db.Has e.followId
  eventSources : ∀ e ∈ db.events, e.sourceId ∈ approvedSourceIds
  events : ∀ e ∈ db.events, EventOk db.identities e

/-- A store all of whose rows the archive accepts. -/
abbrev Sound (db : FollowDb) : Prop := SoundBut (fun _ => False) db

section Sound

variable {rt : Runtime} {db db' : FollowDb} {skip : String → Prop} {r : FollowRow}
  {followId : String} {now : Int}

theorem has_iff : db.Has followId ↔ followId ∈ db.followedMatches.map FollowRow.followId := by
  simp [FollowDb.Has, List.mem_map]

/-- **The archive accepts a sound store.** -/
theorem Sound.validates (h : Sound db) : validateFollowDatabase db = .ok () := by
  simp only [validateFollowDatabase, check_bind_ok_iff, failIf_ok_iff, forM_ok_iff,
    Bool.not_eq_false]
  refine ⟨?_, ?_, fun r hr => validateFollowRow_ok_iff.mpr (h.rows r hr id),
    fun e he => validateFollowEvent_ok_iff.mpr (h.events e he)⟩
  · simp only [FollowDb.foreignKeysOk, Bool.and_eq_true, List.all_eq_true, decide_eq_true_eq]
    exact ⟨fun i hi => has_iff.mp (h.identityRefs i hi), fun e he => has_iff.mp (h.eventRefs e he)⟩
  · simp only [FollowDb.sourcesOk, Bool.and_eq_true, List.all_eq_true, decide_eq_true_eq]
    exact ⟨⟨h.rowSources, h.identitySources⟩, h.eventSources⟩

/-- A store the archive accepts has a recorded identity for every subscription. -/
theorem rowOk_of_validates (h : validateFollowDatabase db = .ok ()) :
    ∀ r ∈ db.followedMatches, RowOk db.identities r := by
  simp only [validateFollowDatabase, check_bind_ok_iff, forM_ok_iff] at h
  exact fun r hr => validateFollowRow_ok_iff.mp (h.2.2.1 r hr)

/-- The identity of a subscription the archive accepts. -/
theorem RowOk.recorded {ids : List IdentityRow} (h : RowOk ids r) :
    Recorded ids r.followId .matchId r.canonicalMatchId r.identitySourceId := by
  have := h.currentKept.matchId
  rwa [textAt, textAt, h.matchId, h.sourceId] at this

/-- The fixture key of a subscription the archive accepts. -/
theorem RowOk.recordedKey {ids : List IdentityRow} (h : RowOk ids r)
    (hstable : r.identitySourceId ∈ stableUpstreamKeySources) {key : String}
    (hkey : r.upstreamFixtureKey = some key) :
    Recorded ids r.followId .upstreamFixtureKey key r.identitySourceId := by
  have := h.currentKept.key
  rw [textAt, textAt, h.sourceId, h.key, hkey] at this
  exact this hstable (by intro hnull; cases hnull)

theorem RowOk.mono {ids ids' : List IdentityRow} (h : RowOk ids r) (hgrow : Grows ids ids') :
    RowOk ids' r :=
  { h with initialKept := h.initialKept.mono hgrow, currentKept := h.currentKept.mono hgrow }

theorem EventOk.mono {ids ids' : List IdentityRow} {e : FollowEvent} (h : EventOk ids e)
    (hgrow : Grows ids ids') : EventOk ids' e :=
  { h with evidence := validateEventEvidence_mono hgrow h.evidence }

theorem sound_emptyDb : Sound emptyDb where
  rows := fun _ hr => absurd hr List.not_mem_nil
  rowSources := fun _ hr => absurd hr List.not_mem_nil
  identityRefs := fun _ hi => absurd hi List.not_mem_nil
  identitySources := fun _ hi => absurd hi List.not_mem_nil
  keySources := fun _ hi => absurd hi List.not_mem_nil
  eventRefs := fun _ he => absurd he List.not_mem_nil
  eventSources := fun _ he => absurd he List.not_mem_nil
  events := fun _ he => absurd he List.not_mem_nil

/-- A store is sound once the subscriptions left out are. -/
theorem SoundBut.close (h : SoundBut (· = followId) db)
    (hrow : ∀ r ∈ db.followedMatches, r.followId = followId → RowOk db.identities r) :
    Sound db := by
  refine { h with rows := fun r hr _ => ?_ }
  by_cases hid : r.followId = followId
  · exact hrow r hr hid
  · exact h.rows r hr hid

theorem SoundBut.weaken (h : Sound db) : SoundBut skip db :=
  { h with rows := fun r hr _ => h.rows r hr id }

/-! ## Each write -/

/-- Appending an event keeps a store sound. -/
theorem SoundBut.insertEvent {d : EventDraft} (h : SoundBut skip db) (hhas : db.Has followId)
    (hd : DraftOk db.identities followId d) : SoundBut skip (db.insertEvent rt followId now d) := by
  unfold FollowDb.insertEvent
  dsimp only
  split_ifs
  · exact h
  · refine { h with eventRefs := ?_, eventSources := ?_, events := ?_ }
    · exact List.forall_mem_append.mpr ⟨h.eventRefs, List.forall_mem_singleton.mpr hhas⟩
    · exact List.forall_mem_append.mpr ⟨h.eventSources, List.forall_mem_singleton.mpr hd.approved⟩
    · exact List.forall_mem_append.mpr ⟨h.events, List.forall_mem_singleton.mpr
        ⟨hd.beforeDepth, hd.afterDepth, hd.conflictDepth, hd.evidence⟩⟩

@[simp] theorem identities_insertEvent (d : EventDraft) :
    (db.insertEvent rt followId now d).identities = db.identities := by
  unfold FollowDb.insertEvent
  dsimp only
  split_ifs <;> rfl

@[simp] theorem identities_insertEvents (ds : List EventDraft) :
    (db.insertEvents rt followId now ds).identities = db.identities := by
  unfold FollowDb.insertEvents
  induction ds generalizing db with
  | nil => rfl
  | cons d rest ih => rw [List.foldl_cons, ih, identities_insertEvent]

theorem has_congr (h : db'.followedMatches = db.followedMatches) :
    db'.Has followId ↔ db.Has followId := by
  rw [FollowDb.Has, FollowDb.Has, h]

/-- Appending events keeps a store sound. -/
theorem SoundBut.insertEvents {ds : List EventDraft} (h : SoundBut skip db)
    (hhas : db.Has followId) (hds : ∀ d ∈ ds, DraftOk db.identities followId d) :
    SoundBut skip (db.insertEvents rt followId now ds) := by
  unfold FollowDb.insertEvents
  induction ds generalizing db with
  | nil => exact h
  | cons d rest ih =>
      refine ih (h.insertEvent hhas (hds d List.mem_cons_self)) ((has_congr (by simp)).mpr hhas) ?_
      intro d' hd'
      rw [identities_insertEvent]
      exact hds d' (List.mem_cons_of_mem _ hd')

/-- Recording an identity drops none. -/
theorem grows_recordIdentity {kind : IdentityKind} {value : Option String} {source : String} :
    Grows db.identities (db.recordIdentity followId kind value source now).identities := by
  rintro followId' kind' value' source' ⟨i, hi, hid, hkind, hvalue, hsource⟩
  unfold FollowDb.recordIdentity
  split
  · exact ⟨i, hi, hid, hkind, hvalue, hsource⟩
  · split_ifs
    · exact ⟨i, hi, hid, hkind, hvalue, hsource⟩
    · refine ⟨_, List.mem_map_of_mem hi, ?_⟩
      split_ifs
      · exact ⟨hid, hkind, hvalue, hsource⟩
      · exact ⟨hid, hkind, hvalue, hsource⟩
    · exact ⟨i, List.mem_append_left _ hi, hid, hkind, hvalue, hsource⟩

/-- What the identities after a recording are: one there before, but for when it was last seen, or the
one recorded. -/
theorem mem_recordIdentity {kind : IdentityKind} {value : Option String} {source : String}
    {i : IdentityRow} (h : i ∈ (db.recordIdentity followId kind value source now).identities) :
    (∃ old ∈ db.identities, i.followId = old.followId ∧ i.kind = old.kind ∧ i.value = old.value ∧
        i.sourceId = old.sourceId) ∨
      (i.followId = followId ∧ i.kind = kind ∧ i.sourceId = source) := by
  unfold FollowDb.recordIdentity at h
  split at h
  · exact .inl ⟨i, h, rfl, rfl, rfl, rfl⟩
  · split_ifs at h
    · exact .inl ⟨i, h, rfl, rfl, rfl, rfl⟩
    · obtain ⟨old, hold, rfl⟩ := List.mem_map.mp h
      refine .inl ⟨old, hold, ?_⟩
      split_ifs <;> exact ⟨rfl, rfl, rfl, rfl⟩
    · rcases List.mem_append.mp h with hold | hnew
      · exact .inl ⟨i, hold, rfl, rfl, rfl, rfl⟩
      · obtain rfl := List.mem_singleton.mp hnew
        exact .inr ⟨rfl, rfl, rfl⟩

/-- An identity is recorded under the source given, unless another one has it. -/
theorem recorded_recordIdentity (now : Int) {kind : IdentityKind} {value source : String}
    (hvalue : value ≠ "")
    (hkept : ∀ i ∈ db.identities, i.followId = followId → i.kind = kind → i.value = value →
      i.sourceId = source) :
    Recorded (db.recordIdentity followId kind (some value) source now).identities followId kind value
      source := by
  by_cases hany : db.identities.any fun i =>
      i.followId = followId && i.kind = kind && i.value = value
  · obtain ⟨i, hi, htest⟩ := List.any_eq_true.mp hany
    simp only [Bool.and_eq_true, decide_eq_true_eq] at htest
    exact grows_recordIdentity _ _ _ _
      ⟨i, hi, htest.1.1, htest.1.2, htest.2, hkept i hi htest.1.1 htest.1.2 htest.2⟩
  · refine ⟨⟨followId, kind, value, source, now, now⟩, ?_, rfl, rfl, rfl, rfl⟩
    simp only [FollowDb.recordIdentity, if_neg hvalue, if_neg hany]
    exact List.mem_append_right _ (List.mem_singleton_self _)

@[simp] theorem events_recordIdentity {kind : IdentityKind} {value : Option String}
    {source : String} : (db.recordIdentity followId kind value source now).events = db.events := by
  unfold FollowDb.recordIdentity
  split
  · rfl
  · split_ifs <;> rfl

/-- Recording an identity keeps a store sound. -/
theorem SoundBut.recordIdentity (kind : IdentityKind) (value : Option String) (now : Int)
    {source : String} (h : SoundBut skip db) (hhas : db.Has followId) (hsource : source ∈ approvedSourceIds)
    (hkind : kind = .upstreamFixtureKey → source = worldcup) :
    SoundBut skip (db.recordIdentity followId kind value source now) := by
  have hgrow : Grows db.identities (db.recordIdentity followId kind value source now).identities :=
    grows_recordIdentity
  constructor
  · rw [followedMatches_recordIdentity]
    exact fun r hr hskip => (h.rows r hr hskip).mono hgrow
  · rw [followedMatches_recordIdentity]
    exact h.rowSources
  · intro i hi
    rw [has_congr (followedMatches_recordIdentity _ _ _ _ _)]
    rcases mem_recordIdentity hi with ⟨old, hold, heq, -⟩ | ⟨heq, -⟩
    · rw [heq]
      exact h.identityRefs old hold
    · rwa [heq]
  · intro i hi
    rcases mem_recordIdentity hi with ⟨old, hold, -, -, -, heq⟩ | ⟨-, -, heq⟩
    · rw [heq]
      exact h.identitySources old hold
    · rwa [heq]
  · intro i hi hkey
    rcases mem_recordIdentity hi with ⟨old, hold, -, hkeq, -, heq⟩ | ⟨-, hkeq, heq⟩
    · rw [heq]
      exact h.keySources old hold (hkeq ▸ hkey)
    · rw [heq]
      exact hkind (hkeq ▸ hkey)
  · intro e he
    rw [has_congr (followedMatches_recordIdentity _ _ _ _ _)]
    exact h.eventRefs e (events_recordIdentity ▸ he)
  · rw [events_recordIdentity]
    exact h.eventSources
  · rw [events_recordIdentity]
    exact fun e he => (h.events e he).mono hgrow

/-- Putting another row in place of a subscription leaves only that one to be checked. -/
theorem SoundBut.replaceMatch (h : SoundBut (· = r.followId) db)
    (hsource : r.identitySourceId ∈ approvedSourceIds) :
    SoundBut (· = r.followId) (db.replaceMatch r) := by
  have hhas : ∀ followId, db.Has followId → (db.replaceMatch r).Has followId := fun followId hhas => by
    rw [has_iff, followIds_replaceMatch]
    exact has_iff.mp hhas
  constructor
  · intro x hx hskip
    rcases mem_replaceMatch.mp hx with ⟨rfl, -⟩ | ⟨hold, -⟩
    · exact absurd rfl hskip
    · exact h.rows x hold hskip
  · intro x hx
    rcases mem_replaceMatch.mp hx with ⟨rfl, -⟩ | ⟨hold, -⟩
    · exact hsource
    · exact h.rowSources x hold
  · exact fun i hi => hhas _ (h.identityRefs i hi)
  · exact h.identitySources
  · exact h.keySources
  · exact fun e he => hhas _ (h.eventRefs e he)
  · exact h.eventSources
  · exact h.events

/-- Putting a sound row in place of a subscription keeps a store sound. -/
theorem Sound.replaceMatch (h : Sound db) (hrow : RowOk db.identities r)
    (hsource : r.identitySourceId ∈ approvedSourceIds) : Sound (db.replaceMatch r) := by
  refine (SoundBut.replaceMatch h.weaken hsource).close fun x hx hid => ?_
  rcases mem_replaceMatch.mp hx with ⟨rfl, -⟩ | ⟨-, hne⟩
  · exact hrow
  · exact absurd hid hne

theorem Sound.updateMatch (h : Sound db) (hrow : RowOk db.identities r)
    (hsource : r.identitySourceId ∈ approvedSourceIds) (hrun : db.updateMatch r = .ok db') :
    Sound db' := by
  obtain ⟨-, rfl⟩ := updateMatch_ok_iff.mp hrun
  exact h.replaceMatch hrow hsource

end Sound

end Golavo.Follows
