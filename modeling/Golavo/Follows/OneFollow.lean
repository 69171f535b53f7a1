import Golavo.Follows.Steps

/-! # One active follow per match

Reconciling moves subscriptions one at a time while the unique index is in force. It completes
exactly when no subscription is found at a match that another active one holds at that moment: one
visited before it by the match it was found at, one still to be visited by the match it points at. -/

namespace Golavo.Follows

open Golavo.Lib (bind_ok_iff failIf_ok_iff)
open Golavo.Ledger (Runtime)

/-! ## Where a subscription goes -/

/-- The fixture a lookup found. -/
def Lookup.found : Lookup → Option IndexMatch
  | .byMatchId m | .repointed m => some m
  | .unresolved => none

@[simp] theorem Lookup.found_unresolved : Lookup.unresolved.found = none := rfl

@[simp] theorem Lookup.found_byMatchId (m : IndexMatch) : (Lookup.byMatchId m).found = some m := rfl

@[simp] theorem Lookup.found_repointed (m : IndexMatch) : (Lookup.repointed m).found = some m := rfl

/-- The match a subscription points at once reconciled. -/
def target (frame : List IndexMatch) (row : FollowRow) : String :=
  ((lookup frame row).found.map IndexMatch.matchId).getD row.canonicalMatchId

/-- Whether the fixture found for a subscription, if any, is of an approved source. -/
def SourceApproved (frame : List IndexMatch) (row : FollowRow) : Prop :=
  ∀ m, (lookup frame row).found = some m → ∃ source ∈ approvedSourceIds, m.sourceId = some source

/-- The matches that subscriptions are found at are free when their turns come: no subscription
visited before was found there, and none still to be visited points there. -/
def Unobstructed (frame : List IndexMatch) : List FollowRow → List FollowRow → Prop
  | _, [] => True
  | visited, row :: rest =>
      (∀ other ∈ visited, target frame other ≠ target frame row) ∧
        (∀ other ∈ rest, other.canonicalMatchId ≠ target frame row) ∧
        Unobstructed frame (visited ++ [row]) rest

instance decidableUnobstructed (frame : List IndexMatch) :
    ∀ visited rest, Decidable (Unobstructed frame visited rest)
  | _, [] => .isTrue trivial
  | visited, row :: rest =>
      have := decidableUnobstructed frame (visited ++ [row]) rest
      inferInstanceAs (Decidable (_ ∧ _ ∧ _))

/-- A fixture that is found is a row of the index. -/
theorem mem_of_found {frame : List IndexMatch} {row : FollowRow} {m : IndexMatch}
    (h : (lookup frame row).found = some m) : m ∈ frame := by
  unfold lookup at h
  split at h
  · rename_i hfind
    obtain rfl := Option.some.inj h
    exact List.mem_of_find?_eq_some hfind
  · split at h
    · split_ifs at h
      · split at h
        · rename_i hup
          obtain rfl := Option.some.inj h
          unfold upstreamLookup at hup
          split at hup
          · rename_i hfilter
            obtain rfl := Option.some.inj hup
            exact (List.mem_filter.mp (hfilter ▸ List.mem_singleton_self _)).1
          · cases hup
        · cases h
      · cases h
    · cases h

/-- An index of approved sources shows every subscription one. -/
theorem sourceApproved_of_frame {frame : List IndexMatch}
    (h : ∀ m ∈ frame, ∃ source ∈ approvedSourceIds, m.sourceId = some source) (row : FollowRow) :
    SourceApproved frame row :=
  fun m hm => h m (mem_of_found hm)

/-- When a reconciliation goes through. -/
structure GoesThrough (db : FollowDb) (req : ReconcileRequest) : Prop where
  approved : ∀ row ∈ db.active, SourceApproved req.frame row
  unobstructed : Unobstructed req.frame [] (req.order.scan db.active)
  generation : req.generationCommit ≠ some false

/-! ## One row -/

section Row

variable {rt : Runtime} {req : ReconcileRequest} {db db' : FollowDb} {row : FollowRow}

/-- The row a reconciliation puts in place of a subscription. -/
def Reconciled (req : ReconcileRequest) (row new : FollowRow) : Prop :=
  match (lookup req.frame row).found with
  | none => new = unresolvedRow req row
  | some m => ∃ current : Snapshot, current.fixture = m ∧ new = resolvedRow req row current

theorem Reconciled.followId {new : FollowRow} (h : Reconciled req row new) :
    new.followId = row.followId := by
  unfold Reconciled at h
  split at h
  · rw [h]
    rfl
  · obtain ⟨current, -, rfl⟩ := h
    rfl

theorem Reconciled.isActive {new : FollowRow} (h : Reconciled req row new) :
    new.isActive = row.isActive := by
  unfold Reconciled at h
  split at h
  · rw [h]
    rfl
  · obtain ⟨current, -, rfl⟩ := h
    rfl

theorem Reconciled.canonicalMatchId {new : FollowRow} (h : Reconciled req row new) :
    new.canonicalMatchId = target req.frame row := by
  unfold Reconciled at h
  unfold target
  split at h
  · rename_i hfound
    rw [h, hfound]
    rfl
  · rename_i m hfound
    obtain ⟨current, rfl, rfl⟩ := h
    rw [hfound]
    rfl

/-- A row is reconciled by putting its new row in place, if the database accepts it. -/
theorem settleRow_ok_iff {current : Snapshot} : settleRow rt req row db current = .ok db' →
    db.violatesActive (resolvedRow req row current) = false ∧
      db'.followedMatches = (db.replaceMatch (resolvedRow req row current)).followedMatches := by
  intro h
  obtain ⟨hfree, rfl⟩ := updateMatch_ok_iff.mp h
  rw [violatesActive_congr (show _ = db.followedMatches by simp)] at hfree
  exact ⟨hfree, by simp [FollowDb.replaceMatch]⟩

theorem exists_settleRow (rt : Runtime) {current : Snapshot}
    (h : db.violatesActive (resolvedRow req row current) = false) :
    ∃ db', settleRow rt req row db current = .ok db' :=
  ⟨_, updateMatch_ok_iff.mpr ⟨by rw [violatesActive_congr (show _ = db.followedMatches by simp)]; exact h, rfl⟩⟩

/-- What reconciling one subscription leaves of the subscriptions. -/
theorem reconcileRow_ok (h : reconcileRow rt req db row = .ok db') :
    SourceApproved req.frame row ∧ ∃ new, Reconciled req row new ∧
      db.violatesActive new = false ∧
      db'.followedMatches = (db.replaceMatch new).followedMatches := by
  unfold reconcileRow at h
  unfold SourceApproved Reconciled
  cases hlookup : lookup req.frame row with
  | unresolved =>
      simp only [hlookup] at h
      obtain ⟨hfree, rfl⟩ := updateMatch_ok_iff.mp h
      rw [violatesActive_congr (show _ = db.followedMatches by simp)] at hfree
      exact ⟨fun m hm => absurd hm (by simp), _, rfl, hfree, by simp [FollowDb.replaceMatch]⟩
  | byMatchId m =>
      simp only [hlookup] at h
      obtain ⟨current, hcurrent, hsettle⟩ := bind_ok_iff.mp h
      obtain ⟨hfree, heq⟩ := settleRow_ok_iff hsettle
      obtain rfl := snapshot_ok_iff.mp hcurrent
      refine ⟨fun m hm => ?_, _, ⟨current, rfl, rfl⟩, hfree, heq⟩
      obtain rfl := Option.some.inj hm
      exact ⟨current.sourceId, current.approved, current.source_eq⟩
  | repointed m =>
      simp only [hlookup] at h
      obtain ⟨current, hcurrent, hsettle⟩ := bind_ok_iff.mp h
      obtain ⟨hfree, heq⟩ := settleRow_ok_iff hsettle
      obtain rfl := snapshot_ok_iff.mp hcurrent
      rw [violatesActive_congr (show _ = db.followedMatches by simp)] at hfree
      refine ⟨fun m hm => ?_, _, ⟨current, rfl, rfl⟩, hfree, ?_⟩
      · obtain rfl := Option.some.inj hm
        exact ⟨current.sourceId, current.approved, current.source_eq⟩
      · rw [heq]
        simp [FollowDb.replaceMatch]

/-- Reconciling one subscription goes through when the fixture's source is approved and the match it
is found at is free. -/
theorem exists_reconcileRow (rt : Runtime) (happroved : SourceApproved req.frame row)
    (hfree : ∀ new, Reconciled req row new → db.violatesActive new = false) :
    ∃ db', reconcileRow rt req db row = .ok db' := by
  unfold reconcileRow
  unfold SourceApproved at happroved
  unfold Reconciled at hfree
  cases hlookup : lookup req.frame row with
  | unresolved =>
      simp only [hlookup] at hfree ⊢
      refine ⟨_, updateMatch_ok_iff.mpr ⟨?_, rfl⟩⟩
      rw [violatesActive_congr (show _ = db.followedMatches by simp)]
      exact hfree _ rfl
  | byMatchId m =>
      simp only [hlookup] at hfree happroved ⊢
      obtain ⟨source, hsource, heq⟩ := happroved m rfl
      have hcurrent : snapshot m = .ok ⟨m, source, heq, hsource⟩ := snapshot_ok_iff.mpr rfl
      obtain ⟨db', hdb'⟩ := exists_settleRow rt (hfree _ ⟨⟨m, source, heq, hsource⟩, rfl, rfl⟩)
      exact ⟨db', bind_ok_iff.mpr ⟨_, hcurrent, hdb'⟩⟩
  | repointed m =>
      simp only [hlookup] at hfree happroved ⊢
      obtain ⟨source, hsource, heq⟩ := happroved m rfl
      have hcurrent : snapshot m = .ok ⟨m, source, heq, hsource⟩ := snapshot_ok_iff.mpr rfl
      have hviolates := hfree _ ⟨⟨m, source, heq, hsource⟩, rfl, rfl⟩
      rw [← violatesActive_congr (show ((db.insertEvent rt row.followId req.now (repointDraft req row
        ⟨m, source, heq, hsource⟩)).recordIdentity row.followId .matchId (some m.matchId) source
          req.now).followedMatches = db.followedMatches by simp)] at hviolates
      obtain ⟨db', hdb'⟩ := exists_settleRow rt hviolates
      exact ⟨db', bind_ok_iff.mpr ⟨_, hcurrent, hdb'⟩⟩

end Row

/-! ## All rows -/

/-- How far a reconciliation has come: the active subscriptions visited point at the matches they
were found at, the others at the ones they pointed at. -/
def Progress (frame : List IndexMatch) (visited rest : List FollowRow) (db : FollowDb) : Prop :=
  ∀ followId matchId,
    (∃ r ∈ db.active, r.followId = followId ∧ r.canonicalMatchId = matchId) ↔
      (∃ r ∈ visited, r.followId = followId ∧ target frame r = matchId) ∨
        ∃ r ∈ rest, r.followId = followId ∧ r.canonicalMatchId = matchId

section Rows

variable {rt : Runtime} {req : ReconcileRequest} {db db' : FollowDb} {visited rest : List FollowRow}
  {row new : FollowRow}

/-- The match a subscription is found at is free exactly when no other one holds it. -/
theorem violatesActive_eq_false_iff (hprogress : Progress req.frame visited (row :: rest) db)
    (hids : ((visited ++ row :: rest).map FollowRow.followId).Nodup)
    (hactive : row.isActive = true) (hnew : Reconciled req row new) :
    db.violatesActive new = false ↔
      (∀ other ∈ visited, target req.frame other ≠ target req.frame row) ∧
        ∀ other ∈ rest, other.canonicalMatchId ≠ target req.frame row := by
  have hne : ∀ other ∈ visited ++ rest, other.followId ≠ row.followId := by
    rw [List.map_append, List.map_cons, List.nodup_middle, List.nodup_cons] at hids
    intro other hother heq
    refine hids.1 (heq ▸ ?_)
    rw [← List.map_append]
    exact List.mem_map_of_mem hother
  rw [← Bool.not_eq_true, violatesActive_eq_true (hnew.isActive.trans hactive), hnew.followId,
    hnew.canonicalMatchId]
  constructor
  · intro hfree
    refine ⟨fun other hother heq => hfree ?_, fun other hother heq => hfree ?_⟩
    · obtain ⟨r, hr, hid, hmatch⟩ := (hprogress other.followId (target req.frame row)).mpr
        (.inl ⟨other, hother, rfl, heq⟩)
      exact ⟨r, hr, hid ▸ hne other (List.mem_append_left _ hother), hmatch⟩
    · obtain ⟨r, hr, hid, hmatch⟩ := (hprogress other.followId (target req.frame row)).mpr
        (.inr ⟨other, List.mem_cons_of_mem _ hother, rfl, heq⟩)
      exact ⟨r, hr, hid ▸ hne other (List.mem_append_right _ hother), hmatch⟩
  · rintro ⟨hvisited, hrest⟩ ⟨r, hr, hid, hmatch⟩
    rcases (hprogress r.followId (target req.frame row)).mp ⟨r, hr, rfl, hmatch⟩ with
      ⟨other, hother, -, heq⟩ | ⟨other, hother, hother', heq⟩
    · exact hvisited other hother heq
    · rcases List.mem_cons.mp hother with rfl | hother
      · exact hid hother'.symm
      · exact hrest other hother heq

/-- Reconciling the next subscription makes progress. -/
theorem progress_reconcileRow (hprogress : Progress req.frame visited (row :: rest) db)
    (hids : ((visited ++ row :: rest).map FollowRow.followId).Nodup)
    (hactive : row.isActive = true) (hnew : Reconciled req row new)
    (heq : db'.followedMatches = (db.replaceMatch new).followedMatches) :
    Progress req.frame (visited ++ [row]) rest db' := by
  have hne : ∀ other ∈ visited ++ rest, other.followId ≠ row.followId := by
    rw [List.map_append, List.map_cons, List.nodup_middle, List.nodup_cons] at hids
    intro other hother heq
    refine hids.1 (heq ▸ ?_)
    rw [← List.map_append]
    exact List.mem_map_of_mem hother
  intro followId matchId
  have hmem : ∀ r, r ∈ db'.active ↔
      (r = new ∧ ∃ old ∈ db.followedMatches, old.followId = new.followId) ∨
        (r ∈ db.active ∧ r.followId ≠ new.followId) := by
    intro r
    rw [mem_active, heq, mem_replaceMatch, mem_active]
    constructor
    · rintro ⟨⟨rfl, hold⟩ | ⟨hr, hid⟩, hr'⟩
      · exact .inl ⟨rfl, hold⟩
      · exact .inr ⟨⟨hr, hr'⟩, hid⟩
    · rintro (⟨rfl, hold⟩ | ⟨⟨hr, hr'⟩, hid⟩)
      · exact ⟨.inl ⟨rfl, hold⟩, hnew.isActive.trans hactive⟩
      · exact ⟨.inr ⟨hr, hid⟩, hr'⟩
  obtain ⟨held, hheld, hheldid, -⟩ := (hprogress row.followId row.canonicalMatchId).mpr
    (.inr ⟨row, List.mem_cons_self, rfl, rfl⟩)
  constructor
  · rintro ⟨r, hr, rfl, rfl⟩
    rcases (hmem r).mp hr with ⟨rfl, -⟩ | ⟨hr, hid⟩
    · exact .inl ⟨row, List.mem_append_right _ List.mem_cons_self, hnew.followId.symm,
        hnew.canonicalMatchId.symm⟩
    · rw [hnew.followId] at hid
      rcases (hprogress _ _).mp ⟨r, hr, rfl, rfl⟩ with ⟨o, ho, hoid, hot⟩ | ⟨o, ho, hoid, hoc⟩
      · exact .inl ⟨o, List.mem_append_left _ ho, hoid, hot⟩
      · rcases List.mem_cons.mp ho with rfl | ho
        · exact absurd hoid.symm hid
        · exact .inr ⟨o, ho, hoid, hoc⟩
  · rintro (⟨o, ho, rfl, rfl⟩ | ⟨o, ho, rfl, rfl⟩)
    · rcases List.mem_append.mp ho with ho | ho
      · obtain ⟨r, hr, hid, hmatch⟩ := (hprogress _ _).mpr (.inl ⟨o, ho, rfl, rfl⟩)
        refine ⟨r, (hmem r).mpr (.inr ⟨hr, ?_⟩), hid, hmatch⟩
        rw [hid, hnew.followId]
        exact hne o (List.mem_append_left _ ho)
      · obtain rfl := List.mem_singleton.mp ho
        exact ⟨new, (hmem new).mpr (.inl ⟨rfl, held, (mem_active.mp hheld).1,
          hheldid.trans hnew.followId.symm⟩), hnew.followId, hnew.canonicalMatchId⟩
    · obtain ⟨r, hr, hid, hmatch⟩ := (hprogress _ _).mpr
        (.inr ⟨o, List.mem_cons_of_mem _ ho, rfl, rfl⟩)
      refine ⟨r, (hmem r).mpr (.inr ⟨hr, ?_⟩), hid, hmatch⟩
      rw [hid, hnew.followId]
      exact hne o (List.mem_append_right _ ho)

/-- **The rows go through one after another exactly when every turn finds its match free**, and then
every subscription points at the match it was found at. -/
theorem foldlM_reconcileRow (rt : Runtime) (hprogress : Progress req.frame visited rest db)
    (hids : ((visited ++ rest).map FollowRow.followId).Nodup)
    (hactive : ∀ r ∈ rest, r.isActive = true) :
    ((∃ db', rest.foldlM (reconcileRow rt req) db = .ok db') ↔
        (∀ r ∈ rest, SourceApproved req.frame r) ∧ Unobstructed req.frame visited rest) ∧
      ∀ db', rest.foldlM (reconcileRow rt req) db = .ok db' →
        Progress req.frame (visited ++ rest) [] db' := by
  induction rest generalizing visited db with
  | nil =>
      refine ⟨⟨fun _ => ⟨fun r hr => absurd hr List.not_mem_nil, trivial⟩, fun _ => ⟨db, rfl⟩⟩, ?_⟩
      intro db' h
      obtain rfl := Except.ok.inj h
      rw [List.append_nil]
      exact hprogress
  | cons row rest ih =>
      have hrow := hactive row List.mem_cons_self
      have hids' : ((visited ++ [row] ++ rest).map FollowRow.followId).Nodup := by
        rw [List.append_assoc]
        exact hids
      have hrest := fun {next : FollowDb} {new : FollowRow} (hnew : Reconciled req row new)
          (heq : next.followedMatches = (db.replaceMatch new).followedMatches) =>
        ih (progress_reconcileRow hprogress hids hrow hnew heq) hids'
          fun r hr => hactive r (List.mem_cons_of_mem _ hr)
      refine ⟨⟨?_, ?_⟩, ?_⟩
      · rintro ⟨db', h⟩
        rw [List.foldlM_cons] at h
        obtain ⟨next, hnext, h⟩ := bind_ok_iff.mp h
        obtain ⟨happroved, new, hnew, hfree, heq⟩ := reconcileRow_ok hnext
        obtain ⟨hvisited, hlater⟩ :=
          (violatesActive_eq_false_iff hprogress hids hrow hnew).mp hfree
        obtain ⟨hall, hclear⟩ := (hrest hnew heq).1.mp ⟨db', h⟩
        exact ⟨List.forall_mem_cons.mpr ⟨happroved, hall⟩, hvisited, hlater, hclear⟩
      · rintro ⟨hall, hvisited, hlater, hclear⟩
        obtain ⟨next, hnext⟩ := exists_reconcileRow rt (hall row List.mem_cons_self)
          fun new hnew =>
            (violatesActive_eq_false_iff hprogress hids hrow hnew).mpr ⟨hvisited, hlater⟩
        obtain ⟨-, new, hnew, -, heq⟩ := reconcileRow_ok hnext
        obtain ⟨db', h⟩ := (hrest hnew heq).1.mpr
          ⟨fun r hr => hall r (List.mem_cons_of_mem _ hr), hclear⟩
        exact ⟨db', by rw [List.foldlM_cons]; exact bind_ok_iff.mpr ⟨next, hnext, h⟩⟩
      · intro db' h
        rw [List.foldlM_cons] at h
        obtain ⟨next, hnext, h⟩ := bind_ok_iff.mp h
        obtain ⟨-, new, hnew, -, heq⟩ := reconcileRow_ok hnext
        have := (hrest hnew heq).2 db' h
        rwa [List.append_assoc] at this

end Rows

/-! ## The reconciliation -/

section Reconcile

variable {rt : Runtime} {db db' : FollowDb} {req : ReconcileRequest}

theorem progress_start : Progress req.frame [] (req.order.scan db.active) db := by
  intro followId matchId
  constructor
  · rintro ⟨r, hr, hid⟩
    exact .inr ⟨r, (req.order.perm _).mem_iff.mpr hr, hid⟩
  · rintro (⟨r, hr, -⟩ | ⟨r, hr, hid⟩)
    · exact absurd hr List.not_mem_nil
    · exact ⟨r, (req.order.perm _).mem_iff.mp hr, hid⟩

/-- A reconciliation of a store that keeps its keys. -/
theorem reconcile_rows (rt : Runtime) (h : Keyed db) :
    ((∃ db', (req.order.scan db.active).foldlM (reconcileRow rt req) db = .ok db') ↔
        (∀ r ∈ req.order.scan db.active, SourceApproved req.frame r) ∧
          Unobstructed req.frame [] (req.order.scan db.active)) ∧
      ∀ db', (req.order.scan db.active).foldlM (reconcileRow rt req) db = .ok db' →
        Progress req.frame (req.order.scan db.active) [] db' := by
  have hids : ((req.order.scan db.active).map FollowRow.followId).Nodup :=
    (((req.order.perm db.active).map _).nodup_iff).mpr
      (h.followIds.sublist (List.filter_sublist.map _))
  have := foldlM_reconcileRow rt progress_start (by rwa [List.nil_append])
    fun r hr => (mem_active.mp ((req.order.perm _).mem_iff.mp hr)).2
  rwa [List.nil_append] at this

/-- When a reconciliation of a store that keeps its keys goes through. -/
theorem exists_reconcile_iff (rt : Runtime) (h : Keyed db) :
    (∃ db', reconcile rt db req = .ok db') ↔ GoesThrough db req := by
  have hmem : ∀ r, r ∈ req.order.scan db.active ↔ r ∈ db.active :=
    fun r => (req.order.perm _).mem_iff
  constructor
  · rintro ⟨db', hrun⟩
    obtain ⟨next, hrows, hrun⟩ := bind_ok_iff.mp hrun
    obtain ⟨_, hgeneration, -⟩ := bind_ok_iff.mp hrun
    obtain ⟨happroved, hclear⟩ := (reconcile_rows rt h).1.mp ⟨next, hrows⟩
    exact ⟨fun r hr => happroved r ((hmem r).mpr hr), hclear, failIf_ok_iff.mp hgeneration⟩
  · rintro ⟨happroved, hclear, hgeneration⟩
    obtain ⟨next, hrows⟩ := (reconcile_rows rt h).1.mpr
      ⟨fun r hr => happroved r ((hmem r).mp hr), hclear⟩
    exact ⟨next, bind_ok_iff.mpr ⟨next, hrows, bind_ok_iff.mpr
      ⟨(), failIf_ok_iff.mpr hgeneration, rfl⟩⟩⟩

/-- What a reconciliation does when it goes through: no two active subscriptions point at one match,
and every active subscription is still active and points at the match it was found at. -/
theorem of_reconcile (h : Keyed db) (hrun : reconcile rt db req = .ok db') :
    OneActive db' ∧ ∀ r ∈ db.active, ∃ r' ∈ db'.active,
      r'.followId = r.followId ∧ r'.canonicalMatchId = target req.frame r := by
  obtain ⟨next, hrows, hrun⟩ := bind_ok_iff.mp hrun
  obtain ⟨_, -, hrun⟩ := bind_ok_iff.mp hrun
  obtain rfl := Except.ok.inj hrun
  refine ⟨(foldlM_invariant (fun _ _ _ => keyed_reconcileRow) h hrows).oneActive, fun r hr => ?_⟩
  exact ((reconcile_rows rt h).2 _ hrows r.followId (target req.frame r)).mpr
    (.inl ⟨r, (req.order.perm _).mem_iff.mpr hr, rfl, rfl⟩)

/-- **Reconciling a store reached completes and keeps one active follow per match exactly when it goes
through**: the fixtures found are of approved sources, the index's generation stands, and no
subscription is found at a match another active one holds at its turn. -/
theorem reconcile_oneFollow (hreached : ReachedStore rt db) :
    (∃ db', reconcile rt db req = .ok db' ∧ OneActive db' ∧
        ∀ r ∈ db.active, ∃ r' ∈ db'.active,
          r'.followId = r.followId ∧ r'.canonicalMatchId = target req.frame r) ↔
      GoesThrough db req := by
  rw [← exists_reconcile_iff rt hreached.keyed]
  constructor
  · rintro ⟨db', hrun, -⟩
    exact ⟨db', hrun⟩
  · rintro ⟨db', hrun⟩
    exact ⟨db', hrun, of_reconcile hreached.keyed hrun⟩

end Reconcile

/-! ## A fixture followed before and after it moved -/

/-- A World Cup fixture under a match id and a kickoff; its fixture key stays. -/
def cupFixture (matchId kickoffUtc : String) : IndexMatch where
  matchId := matchId
  kickoffUtc := some kickoffUtc
  kickoffPrecision := some "day"
  homeTeam := some "France"
  awayTeam := some "Spain"
  homeScore := none
  awayScore := none
  competition := some "FIFA World Cup"
  country := some "United States"
  city := some "Dallas"
  neutral := some true
  isComplete := false
  sourceKind := some "international"
  sourceId := some worldcup
  upstreamFixtureKey := some "openfootball-worldcup-json:2026:72"
  provenance := [("identity", some worldcup), ("kickoff", some worldcup), ("venue", some worldcup),
    ("result", some worldcup)]
  forecasts := []

/-- A follow of a fixture, under a new id. -/
def followOf (fixture : IndexMatch) (newId : String) (now : Int) : FollowRequest where
  fixture := fixture
  sourceRef := none
  sourceCheckedAtUtc := none
  generationId := none
  indexFingerprint := none
  newId := newId
  now := now
  generationCommit := none
  order := .insertion

/-- A reconciliation with an index. -/
def reconcileOf (frame : List IndexMatch) (now : Int) : ReconcileRequest where
  frame := frame
  indexFingerprint := "f"
  generationId := none
  sources := []
  resolvedArtifacts := []
  now := now
  generationCommit := none
  order := .insertion

/-- The fixture before it moved. -/
def before : IndexMatch := cupFixture "match-1" "2026-07-19T00:00:00Z"

/-- The fixture after it moved. -/
def after : IndexMatch := cupFixture "match-2" "2026-07-20T00:00:00Z"

/-- A store with the fixture followed before it moved. -/
def followedBefore (rt : Runtime) : FollowDb :=
  FollowStep.run rt emptyDb (.follow (followOf before "fm_1" 0))

/-- The same fixture followed again under its new match id, before any reconciliation. -/
@[irreducible] def followedTwice (rt : Runtime) : FollowDb :=
  FollowStep.run rt (followedBefore rt) (.follow (followOf after "fm_2" 1))

theorem reached_followedBefore (rt : Runtime) : ReachedStore rt (followedBefore rt) :=
  .next (.start rfl) trivial

theorem reached_followedTwice (rt : Runtime) : ReachedStore rt (followedTwice rt) := by
  rw [followedTwice]
  exact .next (reached_followedBefore rt) trivial

theorem after_approved : ∀ m ∈ [after], ∃ source ∈ approvedSourceIds, m.sourceId = some source :=
  fun m hm => ⟨worldcup, by decide, by rw [List.mem_singleton.mp hm]; rfl⟩

/-- A fixture that moved is found under its new match id, and its subscription moves with it. -/
theorem reconcile_oneFollow_moved :
    ∃ db', reconcile .standard (followedBefore .standard) (reconcileOf [after] 2) = .ok db' ∧
      OneActive db' ∧ ∀ r ∈ (followedBefore .standard).active, ∃ r' ∈ db'.active,
        r'.followId = r.followId ∧ r'.canonicalMatchId = target [after] r :=
  (reconcile_oneFollow (reached_followedBefore _)).mpr
    ⟨fun row _ => sourceApproved_of_frame after_approved row, by decide +kernel, nofun⟩

theorem unobstructed_of_reconcileOf {db : FollowDb} {frame : List IndexMatch} {now : Int}
    (h : GoesThrough db (reconcileOf frame now)) : Unobstructed frame [] db.active :=
  h.unobstructed

theorem obstructed_followedTwice :
    ¬ Unobstructed [after] [] (followedTwice .standard).active := by
  decide +kernel

/-- **A fixture followed under both of its match ids stops every reconciliation**: the subscription
made before it moved is found at the match the other one points at. -/
theorem reconcile_obstructed :
    ¬ ∀ (db : FollowDb) (req : ReconcileRequest), ReachedStore .standard db →
      (∀ m ∈ req.frame, ∃ source ∈ approvedSourceIds, m.sourceId = some source) →
      req.generationCommit = none →
      ∃ db', reconcile .standard db req = .ok db' ∧ OneActive db' ∧
        ∀ r ∈ db.active, ∃ r' ∈ db'.active, r'.followId = r.followId := by
  intro h
  obtain ⟨db', hrun, -⟩ := h (followedTwice .standard) (reconcileOf [after] 2)
    (reached_followedTwice _) after_approved rfl
  exact obstructed_followedTwice (unobstructed_of_reconcileOf
    ((exists_reconcile_iff .standard (reached_followedTwice .standard).keyed).mp ⟨db', hrun⟩))

end Golavo.Follows
