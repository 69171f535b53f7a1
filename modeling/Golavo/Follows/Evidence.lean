import Golavo.Follows.Reconcile
import Golavo.Follows.Validate

/-! # Evidence the service writes

What the archive's checks say of a snapshot, and that every event the service drafts carries evidence
those checks accept. Identities only ever grow, so evidence once accepted stays accepted. -/

namespace Golavo.Follows

open Golavo.Lib (Json bind_ok_iff failIf_ok_iff)
open Golavo.Lib.Fields (getField mem_of_getField)

/-! ## Snapshots -/

/-- A snapshot the archive accepts. -/
structure SnapshotOk (v : Json) : Prop where
  depth : v.depth ≤ maxJsonDepth
  valid : validateSnapshot v = .ok ()

/-- What a valid snapshot holds. -/
theorem validateSnapshot_ok_iff {v : Json} : validateSnapshot v = .ok () ↔
    v.hasExactly snapshotFields = true ∧ isNonemptyText (v.get "match_id") = true ∧
      isUnhashable (v.get "source_id") = false ∧ isApproved (v.get "source_id") = true ∧
      isBoolean (v.get "is_complete") = true ∧
      (∀ key ∈ snapshotTextFields, isTextOrNull (v.get key) = true) ∧
      isKickoff (v.get "kickoff_utc") = true ∧
      (∀ key ∈ ["home_score", "away_score"], isScoreOrNull (v.get key) = true) ∧
      isBooleanOrNull (v.get "neutral") = true ∧ isProvenance (v.get "provenance") = true := by
  simp only [validateSnapshot, bind_ok_iff, failIf_ok_iff, exists_const, not_exists, not_and,
    Bool.not_eq_false, Bool.not_eq_true]

theorem isApproved_iff {v : Option Json} :
    isApproved v = true ↔ ∃ s ∈ approvedSourceIds, v = some (.str s) := by
  unfold isApproved
  split
  · rename_i s
    simp only [decide_eq_true_eq]
    exact ⟨fun h => ⟨s, h, rfl⟩, fun ⟨t, ht, heq⟩ => Json.str.inj (Option.some.inj heq) ▸ ht⟩
  · rename_i h
    simp only [Bool.false_eq_true, false_iff]
    rintro ⟨s, -, rfl⟩
    exact h s rfl

section Snapshot

variable {v : Json} (h : SnapshotOk v)

include h

/-- A valid snapshot names its approved source. -/
theorem SnapshotOk.source :
    ∃ s ∈ approvedSourceIds, v.get "source_id" = some (.str s) ∧ textAt v "source_id" = s := by
  obtain ⟨s, hs, heq⟩ := isApproved_iff.mp (validateSnapshot_ok_iff.mp h.valid).2.2.2.1
  exact ⟨s, hs, heq, by simp [textAt, heq, Json.text?]⟩

/-- The source behind a group of a valid snapshot's fields is approved. -/
theorem SnapshotOk.detailSource (group : String) : detailSource v group ∈ approvedSourceIds := by
  unfold Follows.detailSource
  split
  · rename_i source hget
    obtain ⟨provenance, hprovenance, hgroup⟩ := Option.bind_eq_some_iff.mp hget
    have hvalid := (validateSnapshot_ok_iff.mp h.valid).2.2.2.2.2.2.2.2.2
    rw [hprovenance] at hvalid
    cases provenance with
    | obj fields =>
        simp only [isProvenance, List.all_eq_true] at hvalid
        have := hvalid _ (mem_of_getField hgroup)
        simpa [isApproved] using this
    | _ => simp [Json.get] at hgroup
  · obtain ⟨s, hs, heq, -⟩ := h.source
    rw [heq]
    exact hs

end Snapshot

theorem depth_nullable {α : Type} {f : α → Json} (hf : ∀ a, (f a).depth = 1) (o : Option α) :
    (nullable f o).depth = 1 := by
  cases o with
  | none => rfl
  | some a => exact hf a

/-- A fixture's snapshot is three levels deep. -/
theorem depth_snapshotJson (m : IndexMatch) : m.snapshotJson.depth ≤ maxJsonDepth := by
  have hprovenance : (Json.mk (m.provenance.map fun p => (p.1, nullable Json.str p.2))).depth ≤ 2 := by
    refine Json.depth_mk_le fun field hfield => ?_
    obtain ⟨p, -, rfl⟩ := List.mem_map.mp hfield
    exact (depth_nullable (fun _ => rfl) _).le
  have hnullable : ∀ {α : Type} (f : α → Json), (∀ a, (f a).depth = 1) → ∀ o,
      (nullable f o).depth ≤ 2 := fun f hf o => (depth_nullable hf o).le.trans (by decide)
  rw [IndexMatch.snapshotJson]
  refine (Json.depth_mk_le (n := 2) fun field hfield => ?_).trans (by decide)
  simp only [List.mem_cons, List.not_mem_nil, or_false] at hfield
  rcases hfield with rfl | rfl | rfl | rfl | rfl | rfl | rfl | rfl | rfl | rfl | rfl | rfl | rfl |
    rfl | rfl | rfl <;> first
    | exact hprovenance
    | exact hnullable _ (fun _ => rfl) _
    | exact Nat.le_succ 1

theorem get_snapshotJson_matchId (m : IndexMatch) :
    m.snapshotJson.get "match_id" = some (.str m.matchId) := by
  simp [IndexMatch.snapshotJson, Json.get_mk, getField]

theorem get_snapshotJson_sourceId (m : IndexMatch) :
    m.snapshotJson.get "source_id" = some (nullable .str m.sourceId) := by
  simp [IndexMatch.snapshotJson, Json.get_mk, getField]

theorem get_snapshotJson_key (m : IndexMatch) :
    m.snapshotJson.get "upstream_fixture_key" = some (nullable .str m.upstreamFixtureKey) := by
  simp [IndexMatch.snapshotJson, Json.get_mk, getField]

theorem get_snapshotJson_homeScore (m : IndexMatch) :
    m.snapshotJson.get "home_score" = some (nullable .int m.homeScore) := by
  simp [IndexMatch.snapshotJson, Json.get_mk, getField]

theorem get_snapshotJson_awayScore (m : IndexMatch) :
    m.snapshotJson.get "away_score" = some (nullable .int m.awayScore) := by
  simp [IndexMatch.snapshotJson, Json.get_mk, getField]

/-! ## Recorded identities -/

/-- Whether a subscription was seen under an identity, first from a source. -/
def Recorded (ids : List IdentityRow) (followId : String) (kind : IdentityKind) (value : String)
    (source : String) : Prop :=
  ∃ i ∈ ids, i.followId = followId ∧ i.kind = kind ∧ i.value = value ∧ i.sourceId = source

/-- Every identity recorded before is recorded after. -/
def Grows (ids ids' : List IdentityRow) : Prop :=
  ∀ followId kind value source, Recorded ids followId kind value source →
    Recorded ids' followId kind value source

/-- The identities of one subscription. -/
def idsOf (ids : List IdentityRow) (followId : String) : List IdentityRow :=
  ids.filter (·.followId = followId)

theorem identitiesOf_eq (db : FollowDb) (followId : String) :
    db.identitiesOf followId = idsOf db.identities followId := rfl

theorem mem_sourcesOf {ids : List IdentityRow} {followId value source : String}
    {kind : IdentityKind} :
    source ∈ sourcesOf (idsOf ids followId) kind value ↔
      Recorded ids followId kind value source := by
  simp only [sourcesOf, idsOf, List.mem_map, List.mem_filter, decide_eq_true_eq, Recorded]
  constructor
  · rintro ⟨i, ⟨⟨hi, hid⟩, hkind, hvalue⟩, hsource⟩
    exact ⟨i, hi, hid, hkind, hvalue, hsource⟩
  · rintro ⟨i, hi, hid, hkind, hvalue, hsource⟩
    exact ⟨i, ⟨⟨hi, hid⟩, hkind, hvalue⟩, hsource⟩

/-- A snapshot agrees with the identities recorded for its subscription. -/
structure Kept (ids : List IdentityRow) (followId : String) (v : Json) : Prop where
  matchId : Recorded ids followId .matchId (textAt v "match_id") (textAt v "source_id")
  key : textAt v "source_id" ∈ stableUpstreamKeySources →
    v.get "upstream_fixture_key" ≠ some .null →
    Recorded ids followId .upstreamFixtureKey (textAt v "upstream_fixture_key")
      (textAt v "source_id")

theorem snapshotMatchesFollowIdentity_ok_iff {ids : List IdentityRow} {followId : String}
    {v : Json} :
    snapshotMatchesFollowIdentity v (idsOf ids followId) = .ok () ↔ Kept ids followId v := by
  unfold snapshotMatchesFollowIdentity
  simp only [bind_ok_iff, failIf_ok_iff, not_not, mem_sourcesOf, exists_const]
  constructor
  · rintro ⟨hmatch, hkey⟩
    refine ⟨hmatch, fun hstable hnull => ?_⟩
    rw [if_pos ⟨hstable, hnull⟩] at hkey
    simpa only [failIf_ok_iff, not_not, mem_sourcesOf] using hkey
  · rintro ⟨hmatch, hkey⟩
    refine ⟨hmatch, ?_⟩
    split_ifs with hstable
    · simpa only [failIf_ok_iff, not_not, mem_sourcesOf] using hkey hstable.1 hstable.2
    · rfl

theorem Kept.mono {ids ids' : List IdentityRow} {followId : String} {v : Json}
    (h : Kept ids followId v) (hgrow : Grows ids ids') : Kept ids' followId v :=
  ⟨hgrow _ _ _ _ h.matchId, fun hstable hnull => hgrow _ _ _ _ (h.key hstable hnull)⟩

theorem validateIdentified_ok_iff {ids : List IdentityRow} {followId : String} {v : Json} :
    validateIdentified v (idsOf ids followId) = .ok () ↔
      validateSnapshot v = .ok () ∧ Kept ids followId v := by
  simp only [validateIdentified, bind_ok_iff, snapshotMatchesFollowIdentity_ok_iff]
  exact ⟨fun ⟨_, h⟩ => h, fun h => ⟨(), h⟩⟩

/-- A match id that was recorded is known. -/
theorem validateKnownMatchId_ok_iff {ids : List IdentityRow} {followId : String} {v : Json} :
    validateKnownMatchId v (idsOf ids followId) = .ok () ↔
      isText (v.get "match_id") = true ∧
        ∃ source, Recorded ids followId .matchId (textAt v "match_id") source := by
  unfold validateKnownMatchId
  rw [failIf_ok_iff, not_or, Bool.not_eq_false]
  refine and_congr_right fun _ => ?_
  rw [← ne_eq, ← List.length_pos_iff, List.length_pos_iff_exists_mem]
  simp only [mem_sourcesOf]

/-! ## Evidence under more identities -/

/-- **Evidence once accepted stays accepted**: identities only grow. -/
theorem validateEventEvidence_mono {ids ids' : List IdentityRow} (hgrow : Grows ids ids')
    {followId : String} {type : EventType} {before after conflict : Json}
    (h : validateEventEvidence (idsOf ids followId) type before after conflict = .ok ()) :
    validateEventEvidence (idsOf ids' followId) type before after conflict = .ok () := by
  have hidentified : ∀ v, validateIdentified v (idsOf ids followId) = .ok () →
      validateIdentified v (idsOf ids' followId) = .ok () := fun v hv => by
    rw [validateIdentified_ok_iff] at hv ⊢
    exact ⟨hv.1, hv.2.mono hgrow⟩
  have hknown : ∀ v, validateKnownMatchId v (idsOf ids followId) = .ok () →
      validateKnownMatchId v (idsOf ids' followId) = .ok () := fun v hv => by
    rw [validateKnownMatchId_ok_iff] at hv ⊢
    obtain ⟨htext, source, hsource⟩ := hv
    exact ⟨htext, source, hgrow _ _ _ _ hsource⟩
  cases type with
  | followed | refollowed =>
      obtain ⟨u, hcheck, hv⟩ := bind_ok_iff.mp h
      exact bind_ok_iff.mpr ⟨u, hcheck, hidentified _ hv⟩
  | unfollowed =>
      obtain ⟨u, hcheck, hv⟩ := bind_ok_iff.mp h
      exact bind_ok_iff.mpr ⟨u, hcheck, hidentified _ hv⟩
  | identityUnresolved =>
      simp only [validateEventEvidence, validateUnresolved, bind_ok_iff] at h ⊢
      obtain ⟨u, hu, u', hu', u'', hu'', hv⟩ := h
      exact ⟨u, hu, u', hu', u'', hu'', hknown _ hv⟩
  | sourceConflict =>
      unfold validateEventEvidence at h ⊢
      split_ifs at h ⊢ with hconflict
      · obtain ⟨u, hcheck, hv⟩ := bind_ok_iff.mp h
        exact bind_ok_iff.mpr ⟨u, hcheck, hidentified _ hv⟩
      · exact h
  | matchRepointed =>
      simp only [validateEventEvidence, validateRepointed, bind_ok_iff] at h ⊢
      obtain ⟨u, hu, u', hu', u'', hu'', u₃, hbefore, hafter⟩ := h
      exact ⟨u, hu, u', hu', u'', hu'', u₃, hknown _ hbefore, hknown _ hafter⟩
  | _ => exact h

/-! ## Drafts -/

/-- A draft the archive accepts as an event of a subscription. -/
structure DraftOk (ids : List IdentityRow) (followId : String) (d : EventDraft) : Prop where
  approved : d.sourceId ∈ approvedSourceIds
  beforeDepth : (d.before.getD .null).depth ≤ maxJsonDepth
  afterDepth : (d.after.getD .null).depth ≤ maxJsonDepth
  conflictDepth : (d.conflict.getD .null).depth ≤ maxJsonDepth
  evidence : validateEventEvidence (idsOf ids followId) d.eventType (d.before.getD .null)
    (d.after.getD .null) (d.conflict.getD .null) = .ok ()

theorem depth_null_le : Json.null.depth ≤ maxJsonDepth := by decide

section Drafts

variable {ids : List IdentityRow} {followId : String}

/-- An object made from fields has the shape their keys give. -/
@[simp] theorem requireShape_mk {fields : List (String × Json)} {keys : List String}
    (h : fields.map Prod.fst = keys) : requireShape (.mk fields) keys = .ok () := by
  rw [requireShape, failIf_ok_iff, Bool.not_eq_false]
  refine Json.hasExactly_mk (fun field hfield => ?_) fun key hkey => ?_
  · rw [← h]
    exact List.mem_map_of_mem hfield
  · rwa [h]

/-- The event of a follow is accepted when its snapshot is and agrees with the identities. -/
theorem draftOk_follow {type : EventType} (htype : type = .followed ∨ type = .refollowed)
    {s : Snapshot} {req : FollowRequest} (hs : SnapshotOk s.json) (hkept : Kept ids followId s.json) :
    DraftOk ids followId (followDraft type s req) where
  approved := s.approved
  beforeDepth := depth_null_le
  afterDepth := hs.depth
  conflictDepth := depth_null_le
  evidence := by
    have hv := validateIdentified_ok_iff.mpr ⟨hs.valid, hkept⟩
    rcases htype with rfl | rfl
    · exact bind_ok_iff.mpr ⟨(), failIf_ok_iff.mpr (by simp [followDraft]), hv⟩
    · exact bind_ok_iff.mpr ⟨(), failIf_ok_iff.mpr (by simp [followDraft]), hv⟩

/-- The event of an unfollow is accepted when the subscription is. -/
theorem draftOk_unfollow {row : FollowRow} (hsource : row.identitySourceId ∈ approvedSourceIds)
    (hs : SnapshotOk row.currentSnapshot) (hkept : Kept ids followId row.currentSnapshot) :
    DraftOk ids followId (unfollowDraft row) where
  approved := hsource
  beforeDepth := hs.depth
  afterDepth := depth_null_le
  conflictDepth := depth_null_le
  evidence := bind_ok_iff.mpr ⟨(), failIf_ok_iff.mpr (by simp [unfollowDraft]),
    validateIdentified_ok_iff.mpr ⟨hs.valid, hkept⟩⟩

/-- The event of a conflict is accepted when the subscription is and its detail nests no deeper than
the archive allows. -/
theorem draftOk_conflict {row : FollowRow} {status : SourceStatus} {c : ConflictDetail}
    (hsource : row.identitySourceId ∈ approvedSourceIds) (hs : SnapshotOk row.currentSnapshot)
    (hkept : Kept ids followId row.currentSnapshot) (hdepth : c.detail.depth ≤ maxJsonDepth) :
    DraftOk ids followId (conflictDraft row status c) where
  approved := hsource
  beforeDepth := hs.depth
  afterDepth := depth_null_le
  conflictDepth := hdepth
  evidence := by
    have hne : c.detail ≠ .null := fun heq => by
      have := c.isObj
      simp [heq, Json.isObj] at this
    refine (if_pos hne).trans ?_
    exact bind_ok_iff.mpr ⟨(), failIf_ok_iff.mpr (by simp [conflictDraft, c.isObj]),
      validateIdentified_ok_iff.mpr ⟨hs.valid, hkept⟩⟩

/-- A revision's event is accepted. -/
theorem draftOk_revision {row : FollowRow} {status : SourceStatus} {observed : String}
    (hsource : row.identitySourceId ∈ approvedSourceIds) :
    DraftOk ids followId (revisionDraft row status observed) where
  approved := hsource
  beforeDepth := by
    refine (Json.depth_mk_le (n := 1) fun field hfield => ?_).trans (by decide)
    rw [List.mem_singleton.mp hfield]
    exact (depth_nullable (fun _ => rfl) _).le
  afterDepth := by
    refine (Json.depth_mk_le (n := 1) fun field hfield => ?_).trans (by decide)
    rw [List.mem_singleton.mp hfield]
    exact le_refl _
  conflictDepth := depth_null_le
  evidence := by
    have hactive : isTextOrNull (some (nullable Json.str status.activeRef)) = true := by
      cases status.activeRef <;> rfl
    have hobserved : isTextOrNull (some (Json.str observed)) = true := rfl
    simp [revisionDraft, validateEventEvidence, validateRevision, bind_ok_iff, failIf_ok_iff,
      Json.get_mk, getField, hactive, hobserved]

/-- A settlement's event is accepted. -/
theorem draftOk_settled {row : FollowRow} {checkedAtUtc : Option String} {item : SettledItem} :
    DraftOk ids followId (settledDraft row checkedAtUtc item) where
  approved := item.approved
  beforeDepth := depth_null_le
  afterDepth := by
    refine (Json.depth_mk_le (n := 1) fun field hfield => ?_).trans (by decide)
    simp only [List.mem_cons, List.not_mem_nil, or_false] at hfield
    rcases hfield with rfl | rfl <;> exact le_refl _
  conflictDepth := depth_null_le
  evidence := by
    simp [settledDraft, validateEventEvidence, validateSettled, bind_ok_iff, failIf_ok_iff,
      Json.get_mk, getField, isNonemptyText, item.sealed_ne, item.scored_ne]

end Drafts

/-! ## The events of a reconciliation -/

section Reconcile

variable {ids : List IdentityRow} {followId : String} {req : ReconcileRequest} {row : FollowRow}
  {current : Snapshot}

/-- A one-field object of a text nests two levels. -/
theorem depth_textField (key s : String) :
    (Json.mk [(key, .str s)]).depth ≤ maxJsonDepth := by
  refine (Json.depth_mk_le (n := 1) fun field hfield => ?_).trans (by decide)
  rw [List.mem_singleton.mp hfield]
  exact le_refl _

/-- A match id recorded is evidence the archive knows. -/
theorem validateKnownMatchId_mk {matchId source : String}
    (h : Recorded ids followId .matchId matchId source) :
    validateKnownMatchId (.mk [("match_id", .str matchId)]) (idsOf ids followId) = .ok () := by
  refine validateKnownMatchId_ok_iff.mpr ⟨?_, source, ?_⟩
  · simp [Json.get_mk, getField, isText]
  · simpa [textAt, Json.get_mk, getField, Json.text?] using h

/-- The event of a fixture that is not found is accepted when the subscription's match id was
recorded. -/
theorem draftOk_unresolved {source : String} (hs : SnapshotOk row.currentSnapshot)
    (hid : Recorded ids followId .matchId row.canonicalMatchId source) :
    DraftOk ids followId (unresolvedDraft req row) where
  approved := hs.detailSource "identity"
  beforeDepth := depth_textField _ _
  afterDepth := depth_null_le
  conflictDepth := depth_textField _ _
  evidence := by
    have hknown := validateKnownMatchId_mk hid
    simp [unresolvedDraft, draftOf, validateEventEvidence, validateUnresolved, bind_ok_iff,
      failIf_ok_iff, Json.get_mk, getField, isText, hknown]

/-- The event of a fixture found under another match id is accepted when both ids are recorded. -/
theorem draftOk_repoint {source source' : String} (hs : SnapshotOk current.json)
    (hid : Recorded ids followId .matchId row.canonicalMatchId source)
    (hid' : Recorded ids followId .matchId current.fixture.matchId source') :
    DraftOk ids followId (repointDraft req row current) where
  approved := hs.detailSource "identity"
  beforeDepth := depth_textField _ _
  afterDepth := depth_textField _ _
  conflictDepth := depth_null_le
  evidence := by
    have hknown := validateKnownMatchId_mk hid
    have hknown' := validateKnownMatchId_mk hid'
    simp [repointDraft, draftOf, validateEventEvidence, validateRepointed, bind_ok_iff,
      failIf_ok_iff, hknown, hknown']

/-- Whether a value passes one of the tests of snapshot fields that events compare. -/
theorem depth_of_test {v : Json}
    (h : isTextOrNull (some v) = true ∨ isScoreOrNull (some v) = true ∨
      isBoolean (some v) = true) : v.depth ≤ 1 := by
  cases v with
  | arr _ | obj _ => simp [isTextOrNull, isText, isScoreOrNull, isScore, isBoolean] at h
  | _ => exact le_refl _

/-- What a valid snapshot holds under a key of its own is what events read there. -/
theorem get_eq_field {v : Json} (hs : SnapshotOk v) {key : String} (hkey : key ∈ snapshotFields) :
    v.get key = some (field v key) := by
  obtain ⟨value, hvalue⟩ :=
    Json.get_of_hasExactly (validateSnapshot_ok_iff.mp hs.valid).1 hkey
  rw [field, hvalue]
  rfl

theorem isTextOrNull_field {v : Json} (hs : SnapshotOk v) {key : String}
    (hkey : key ∈ snapshotTextFields) (hmem : key ∈ snapshotFields) :
    isTextOrNull (some (field v key)) = true := by
  rw [← get_eq_field hs hmem]
  exact (validateSnapshot_ok_iff.mp hs.valid).2.2.2.2.2.1 key hkey

theorem isTextOrNull_kickoff {v : Json} (hs : SnapshotOk v) :
    isTextOrNull (some (field v "kickoff_utc")) = true := by
  rw [← get_eq_field hs (by decide)]
  have := (validateSnapshot_ok_iff.mp hs.valid).2.2.2.2.2.2.1
  unfold isKickoff at this
  split at this
  · rename_i hnull
    rw [hnull]
    rfl
  · rename_i htext
    rw [htext]
    rfl
  · cases this

theorem isScoreOrNull_field {v : Json} (hs : SnapshotOk v) {key : String}
    (hkey : key ∈ ["home_score", "away_score"]) (hmem : key ∈ snapshotFields) :
    isScoreOrNull (some (field v key)) = true := by
  rw [← get_eq_field hs hmem]
  exact (validateSnapshot_ok_iff.mp hs.valid).2.2.2.2.2.2.2.1 key hkey

theorem isBoolean_complete {v : Json} (hs : SnapshotOk v) :
    isBoolean (some (field v "is_complete")) = true := by
  rw [← get_eq_field hs (by decide)]
  exact (validateSnapshot_ok_iff.mp hs.valid).2.2.2.2.1

/-- The compared fields of a snapshot nest two levels when their values are texts, scores or truth
values. -/
theorem depth_fieldsOf {v : Json} {keys : List String}
    (h : ∀ key ∈ keys, (field v key).depth ≤ 1) : (fieldsOf v keys).depth ≤ maxJsonDepth := by
  refine (Json.depth_mk_le (n := 1) fun f hf => ?_).trans (by decide)
  obtain ⟨key, hkey, rfl⟩ := List.mem_map.mp hf
  exact h key hkey

/-- A comparison's event is accepted when both snapshots' fields pass its test. -/
theorem draftOk_comparison {previous : Json} {c : EventType × String × List String}
    (hc : c ∈ comparisons) (hprevious : SnapshotOk previous) (hs : SnapshotOk current.json) :
    DraftOk ids followId { draftOf req c.1 current.json c.2.1 with
      before := some (fieldsOf previous c.2.2)
      after := some (fieldsOf current.json c.2.2)
      effectiveAtUtc := if c.1 = .kickoffChanged then current.fixture.kickoffUtc else none } := by
  have hkickoff : ∀ {v}, SnapshotOk v → ∀ key ∈ ["kickoff_utc", "kickoff_precision"],
      isTextOrNull (some (field v key)) = true := by
    intro v hv key hkey
    simp only [List.mem_cons, List.not_mem_nil, or_false] at hkey
    rcases hkey with rfl | rfl
    · exact isTextOrNull_kickoff hv
    · exact isTextOrNull_field hv (by decide) (by decide)
  have hvenue : ∀ {v}, SnapshotOk v → ∀ key ∈ ["city", "country"],
      isTextOrNull (some (field v key)) = true := by
    intro v hv key hkey
    simp only [List.mem_cons, List.not_mem_nil, or_false] at hkey
    rcases hkey with rfl | rfl
    · exact isTextOrNull_field hv (by decide) (by decide)
    · exact isTextOrNull_field hv (by decide) (by decide)
  have hscore : ∀ {v}, SnapshotOk v → ∀ key ∈ ["home_score", "away_score", "is_complete"],
      (field v key).depth ≤ 1 := by
    intro v hv key hkey
    simp only [List.mem_cons, List.not_mem_nil, or_false] at hkey
    rcases hkey with rfl | rfl | rfl
    · exact depth_of_test (.inr (.inl (isScoreOrNull_field hv (by decide) (by decide))))
    · exact depth_of_test (.inr (.inl (isScoreOrNull_field hv (by decide) (by decide))))
    · exact depth_of_test (.inr (.inr (isBoolean_complete hv)))
  simp only [comparisons, List.mem_cons, List.not_mem_nil, or_false] at hc
  rcases hc with rfl | rfl | rfl
  · refine ⟨hs.detailSource _,
      depth_fieldsOf fun key hkey => depth_of_test (.inl (hkickoff hprevious key hkey)),
      depth_fieldsOf fun key hkey => depth_of_test (.inl (hkickoff hs key hkey)), depth_null_le, ?_⟩
    have h₁ := hkickoff hprevious
    have h₂ := hkickoff hs
    simp only [List.forall_mem_cons] at h₁ h₂
    simp [draftOf, validateEventEvidence, validateComparison, bind_ok_iff, failIf_ok_iff, fieldsOf,
      Json.get_mk, getField, h₁, h₂]
  · refine ⟨hs.detailSource _,
      depth_fieldsOf fun key hkey => depth_of_test (.inl (hvenue hprevious key hkey)),
      depth_fieldsOf fun key hkey => depth_of_test (.inl (hvenue hs key hkey)), depth_null_le, ?_⟩
    have h₁ := hvenue hprevious
    have h₂ := hvenue hs
    simp only [List.forall_mem_cons] at h₁ h₂
    simp [draftOf, validateEventEvidence, validateComparison, bind_ok_iff, failIf_ok_iff, fieldsOf,
      Json.get_mk, getField, h₁, h₂]
  · refine ⟨hs.detailSource _, depth_fieldsOf (hscore hprevious), depth_fieldsOf (hscore hs),
      depth_null_le, ?_⟩
    have h₁ := fun {v} (hv : SnapshotOk v) =>
      isScoreOrNull_field hv (show "home_score" ∈ ["home_score", "away_score"] by decide) (by decide)
    have h₂ := fun {v} (hv : SnapshotOk v) =>
      isScoreOrNull_field hv (show "away_score" ∈ ["home_score", "away_score"] by decide) (by decide)
    simp [draftOf, validateEventEvidence, validateScore, bind_ok_iff, failIf_ok_iff, fieldsOf,
      Json.get_mk, getField, h₁ hprevious, h₁ hs, h₂ hprevious, h₂ hs,
      isBoolean_complete hprevious, isBoolean_complete hs]

theorem draftOk_comparisonEvents {previous : Json} (hprevious : SnapshotOk previous)
    (hs : SnapshotOk current.json) :
    ∀ d ∈ comparisonEvents req previous current, DraftOk ids followId d := by
  intro d hd
  obtain ⟨c, hc, hd⟩ := List.mem_filterMap.mp hd
  dsimp only at hd
  split at hd
  · cases hd
  · rw [← Option.some.inj hd]
    exact draftOk_comparison hc hprevious hs

/-- The event of a source's health is accepted. -/
theorem draftOk_healthEvents (hs : SnapshotOk current.json) :
    ∀ d ∈ healthEvents req row current, DraftOk ids followId d := by
  have hname : ∀ state : DataState, isDataState (some (.str state.name)) = true := by
    intro state
    cases state <;> decide
  have htype : ∀ state type, healthOf req row current = (state, some type) →
      type = .sourceConflict ∨ type = .sourceUnavailable ∨ type = .sourceRecovered := by
    intro state type h
    unfold healthOf at h
    split at h
    · exact .inl (Option.some.inj (Prod.mk.inj h).2).symm
    all_goals first
      | exact .inr (.inl (Option.some.inj (Prod.mk.inj h).2).symm)
      | skip
    have h := (Prod.mk.inj h).2
    split_ifs at h
    exact .inr (.inr (Option.some.inj h).symm)
  intro d hd
  unfold healthEvents at hd
  split at hd
  · rename_i state type heq
    rw [List.mem_singleton.mp hd]
    refine ⟨hs.detailSource _, depth_textField _ _, depth_textField _ _, depth_null_le, ?_⟩
    have hhealth : validateHealth (.mk [("data_state", .str row.dataState.name)])
        (.mk [("data_state", .str state.name)]) = .ok () := by
      simp [validateHealth, bind_ok_iff, failIf_ok_iff, Json.get_mk, getField, isUnhashable, hname]
    rcases htype state type heq with rfl | rfl | rfl
    · simpa [draftOf, validateEventEvidence] using hhealth
    · simpa [draftOf, validateEventEvidence, bind_ok_iff, failIf_ok_iff] using hhealth
    · simpa [draftOf, validateEventEvidence, bind_ok_iff, failIf_ok_iff] using hhealth
  · simp at hd

/-- The event of a result is accepted when both of its scores are there. -/
theorem draftOk_settlementEvents {db : FollowDb} (hs : SnapshotOk current.json)
    (hscores : (healthOf req row current).1 = .completed → pendingSeals req current.fixture ≠ [] →
      current.fixture.homeScore.isSome ∧ current.fixture.awayScore.isSome) :
    ∀ d ∈ settlementEvents req db row current, DraftOk ids followId d := by
  intro d hd
  simp only [settlementEvents] at hd
  split_ifs at hd with h
  · rw [List.mem_singleton.mp hd]
    obtain ⟨hhome, haway⟩ := hscores h.1 h.2.1
    obtain ⟨home, hhome⟩ := Option.isSome_iff_exists.mp hhome
    obtain ⟨away, haway⟩ := Option.isSome_iff_exists.mp haway
    have hscore := (validateSnapshot_ok_iff.mp hs.valid).2.2.2.2.2.2.2.1
    have hhomeScore := hscore "home_score" (by decide)
    have hawayScore := hscore "away_score" (by decide)
    rw [Snapshot.json, get_snapshotJson_homeScore, hhome] at hhomeScore
    rw [Snapshot.json, get_snapshotJson_awayScore, haway] at hawayScore
    have hhomeScore : isScore (some (.int home)) = true := hhomeScore
    have hawayScore : isScore (some (.int away)) = true := hawayScore
    have hids : isTextList (some (.arr ((pendingSeals req current.fixture).map Json.str))) = true := by
      simp [isTextList, isText]
    refine ⟨hs.detailSource _, depth_null_le, ?_, depth_null_le, ?_⟩
    · refine (Json.depth_mk_le (n := 2) fun field hfield => ?_).trans (by decide)
      simp only [List.mem_cons, List.not_mem_nil, or_false] at hfield
      rcases hfield with rfl | rfl | rfl
      · refine Json.depth_arr_le fun x hx => ?_
        obtain ⟨s, -, rfl⟩ := List.mem_map.mp hx
        exact le_refl _
      · exact (depth_nullable (fun _ => rfl) _).le.trans (by decide)
      · exact (depth_nullable (fun _ => rfl) _).le.trans (by decide)
    · simp [draftOf, availability, validateEventEvidence, validateAvailability, bind_ok_iff,
        failIf_ok_iff, Json.get_mk, getField, hids, hhome, haway, nullable, hhomeScore, hawayScore]
  · simp at hd

end Reconcile

end Golavo.Follows
