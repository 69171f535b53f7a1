import Golavo.Follows.OneFollow
import Golavo.Refresh.RuntimePack

/-! # Fixtures that are keyed anew

A fixture gets a new match id when its date, teams or venue are corrected; its key upstream stays.
Reconciling finds a subscription's fixture by that key where the index says that the World Cup source
supplied the row. The index says so of a pack's rows by the pack's own source, whatever the provenance
of their fields, and the packs with World Cup fixtures are the international results' own. -/

namespace Golavo.Follows

open Golavo.Ingest
open Golavo.Lib (Reaches bind_ok_iff exists_of_mapM_eq_ok toOption_eq_some)
open Golavo.Ledger (Runtime)
open Golavo.Refresh (internationalRuntimePack)

/-! ## Rows of the index -/

/-- An index row as the application shows it (`_row_to_dict`). -/
def indexMatch (links : MatchRow → List ForecastLink) (r : MatchRow) : IndexMatch where
  matchId := r.matchIdText
  kickoffUtc := r.kickoffUtc.map fun stamp => isoText stamp.toUtc
  kickoffPrecision := some r.kickoffPrecision
  homeTeam := some r.homeTeam
  awayTeam := some r.awayTeam
  homeScore := r.homeScore
  awayScore := r.awayScore
  competition := r.competition
  country := r.country
  city := r.city
  neutral := r.neutral
  isComplete := r.complete
  sourceKind := r.sourceKind
  sourceId := r.sourceId
  upstreamFixtureKey := r.provenance.upstreamFixtureKey
  provenance := [("identity", r.provenance.identitySourceId),
    ("result", r.provenance.resultSourceId), ("kickoff", r.provenance.kickoffSourceId),
    ("venue", r.provenance.venueSourceId), ("training", r.provenance.trainingSourceId)]
  forecasts := links r

/-- The rows of an index as the application shows them. -/
def indexFrame (links : MatchRow → List ForecastLink) (t : MatchTable) : List IndexMatch :=
  t.rows.map (indexMatch links)

section Index

variable {u : Unicode} {packs : List Pack} {p : Pack} {t : MatchTable} {rows : List MatchRow}

/-- What the index takes from a pack for each of its rows. -/
structure RowOf (p : Pack) (r : MatchRow) : Prop where
  sourceId : r.sourceId = some p.manifest.sourceId
  matchId : ∃ id, r.matchId = some id

/-- Overriding a row's provenance leaves its source and its match id. -/
theorem RowOf.overrideRow {r : MatchRow} (h : RowOf p r) (u : Unicode) (sheet : ProvenanceSheet) :
    RowOf p (overrideRow u sheet r) := by
  unfold Ingest.overrideRow
  dsimp only
  split_ifs <;> exact ⟨h.sourceId, h.matchId⟩

/-- The rows of a pack carry the pack's own source. -/
theorem rowOf_of_packIndexRows (h : packIndexRows u p = .ok rows) : ∀ r ∈ rows, RowOf p r := by
  unfold packIndexRows at h
  split_ifs at h with hlicense
  swap
  · obtain ⟨_, hthrow, -⟩ := bind_ok_iff.mp h
    cases hthrow
  obtain ⟨frame, hframe, hrows⟩ := bind_ok_iff.mp h
  obtain rfl := loadMatches_ok hframe
  have hbase : ∀ r ∈ ((p.rows.map (loadedRow u p)).map (withSourceColumns u p.manifest.sourceId)).map
      (withDefaultProvenance p.manifest), RowOf p r := by
    intro r hr
    simp only [List.map_map, List.mem_map, Function.comp_apply] at hr
    obtain ⟨s, -, rfl⟩ := hr
    exact ⟨rfl, s.matchId, loadedRow_matchId u p s⟩
  unfold addFieldProvenance at hrows
  dsimp only at hrows
  split at hrows
  · obtain rfl := Except.ok.inj hrows
    exact hbase
  · split_ifs at hrows
    obtain rfl := Except.ok.inj hrows
    intro r hr
    obtain ⟨_, hbefore, rfl⟩ := List.mem_map.mp hr
    exact (hbase _ hbefore).overrideRow u _

/-- **An index row's source is its pack's**, whatever its field provenance says. -/
theorem rowOf_of_buildMatchIndex (h : buildMatchIndex u packs = .ok t) :
    (t.rows.map MatchRow.matchId).Nodup ∧ ∀ r ∈ t.rows, ∃ p ∈ packs, RowOf p r := by
  obtain ⟨frames, hframes, hrest⟩ := bind_ok_iff.mp h
  dsimp only at hrest
  split_ifs at hrest with hnodup
  swap
  · obtain ⟨_, hthrow, -⟩ := bind_ok_iff.mp hrest
    cases hthrow
  obtain rfl := Except.ok.inj hrest
  have hperm := List.perm_insertionSort (indexBefore · ·) frames.flatten
  refine ⟨(hperm.map _).nodup_iff.mpr hnodup, fun r hr => ?_⟩
  obtain ⟨rows, hrows, hmem⟩ := List.mem_flatten.mp (hperm.mem_iff.mp hr)
  obtain ⟨p, hp, hpack⟩ := exists_of_mapM_eq_ok hframes hrows
  exact ⟨p, hp, rowOf_of_packIndexRows hpack r hmem⟩

/-- No two rows the application shows have one match id. -/
theorem nodup_indexFrame (links : MatchRow → List ForecastLink) (h : buildMatchIndex u packs = .ok t) :
    ((indexFrame links t).map IndexMatch.matchId).Nodup := by
  obtain ⟨hnodup, hrows⟩ := rowOf_of_buildMatchIndex h
  rw [indexFrame, List.map_map]
  refine hnodup.of_map.map_on fun a ha b hb heq => ?_
  obtain ⟨_, -, -, ida, hida⟩ := hrows a ha
  obtain ⟨_, -, -, idb, hidb⟩ := hrows b hb
  refine List.inj_on_of_nodup_map hnodup ha hb ?_
  simp only [Function.comp_apply, indexMatch, MatchRow.matchIdText, hida, hidb,
    Option.getD_some] at heq
  rw [hida, hidb, heq]

end Index

/-! ## A subscription after its fixture was keyed anew -/

section Rekeyed

variable {rt : Runtime} {db db' : FollowDb} {req : ReconcileRequest} {r : FollowRow}
  {m m' : IndexMatch} {key : String}

/-- Whether a subscription is to a fixture as the index has it. -/
structure FollowRow.IsOf (r : FollowRow) (m : IndexMatch) : Prop where
  matchId : r.canonicalMatchId = m.matchId
  sourceId : m.sourceId = some r.identitySourceId
  key : r.upstreamFixtureKey = m.upstreamFixtureKey

/-- A new subscription is to the fixture followed. -/
theorem isOf_newFollow (s : Snapshot) (req : FollowRequest) : (newFollow s req).IsOf s.fixture :=
  ⟨rfl, s.source_eq, rfl⟩

/-- A subscription moved to a fixture is to that fixture. -/
theorem isOf_resolvedRow (req : ReconcileRequest) (r : FollowRow) (s : Snapshot) :
    (resolvedRow req r s).IsOf s.fixture :=
  ⟨rfl, s.source_eq, rfl⟩

/-- Whether a row is the only one of the World Cup source with a key. -/
def OnlyWithKey (frame : List IndexMatch) (key : String) (m : IndexMatch) : Prop :=
  frame.filter (fun x => x.sourceId = some worldcup ∧ x.upstreamFixtureKey = some key) = [m]

theorem upstreamLookup_eq_some : upstreamLookup req.frame worldcup key = some m' ↔
    OnlyWithKey req.frame key m' := by
  unfold upstreamLookup OnlyWithKey
  split
  next x hx =>
    rw [hx, Option.some.injEq]
    exact ⟨fun h => h ▸ rfl, fun h => List.cons.inj h |>.1⟩
  next hne => exact ⟨nofun, fun h => absurd h (hne m')⟩

/-- Where a subscription is found whose match id is gone. -/
theorem lookup_of_gone (hr : r.IsOf m) (hkey : m.upstreamFixtureKey = some key) (hne : key ≠ "")
    (hgone : ∀ x ∈ req.frame, x.matchId ≠ m.matchId) :
    (∃ x, m.sourceId = some worldcup ∧ OnlyWithKey req.frame key x ∧
        lookup req.frame r = .repointed x) ∨
      ((m.sourceId = some worldcup → ∀ x, ¬ OnlyWithKey req.frame key x) ∧
        lookup req.frame r = .unresolved) := by
  have hnone : matchLookup req.frame r.canonicalMatchId = none :=
    List.find?_eq_none.mpr fun x hx => by
      simpa [hr.matchId] using hgone x hx
  unfold lookup
  simp only [hnone, hr.key, hkey]
  by_cases hsource : m.sourceId = some worldcup
  · have hid : r.identitySourceId = worldcup := Option.some.inj (hr.sourceId.symm.trans hsource)
    rw [if_pos ⟨hid ▸ List.mem_singleton_self _, hne⟩, hid]
    cases hfind : upstreamLookup req.frame worldcup key with
    | some x => exact .inl ⟨x, hsource, upstreamLookup_eq_some.mp hfind, rfl⟩
    | none =>
        refine .inr ⟨fun _ x hx => ?_, rfl⟩
        rw [upstreamLookup_eq_some.mpr hx] at hfind
        cases hfind
  · rw [if_neg]
    · exact .inr ⟨fun h => absurd h hsource, rfl⟩
    · rintro ⟨hmem, -⟩
      exact hsource (hr.sourceId.trans (congrArg some (List.mem_singleton.mp hmem)))

/-- **A subscription is moved to the fixture's new row exactly when** its source is the World Cup's
and the new row is that source's only one with the key. -/
theorem moved_iff (hreached : ReachedStore rt db) (hmem : r ∈ db.active) (hr : r.IsOf m)
    (hkey : m.upstreamFixtureKey = some key) (hne : key ≠ "")
    (hnodup : (req.frame.map IndexMatch.matchId).Nodup)
    (hgone : ∀ x ∈ req.frame, x.matchId ≠ m.matchId) (hm' : m' ∈ req.frame)
    (hrun : reconcile rt db req = .ok db') :
    (∃ r' ∈ db'.active, r'.followId = r.followId ∧ r'.canonicalMatchId = m'.matchId) ↔
      m.sourceId = some worldcup ∧ OnlyWithKey req.frame key m' := by
  have hkeyed' : Keyed db' := by
    have hnext := @Reaches.next _ _ _ _ _ _ (FollowStep.reconcile req) hreached trivial
    rw [FollowStep.run, hrun] at hnext
    exact ReachedStore.keyed hnext
  obtain ⟨s, hs, hid, htarget⟩ := (of_reconcile hreached.keyed hrun).2 r hmem
  have hmoved : (∃ r' ∈ db'.active, r'.followId = r.followId ∧ r'.canonicalMatchId = m'.matchId) ↔
      target req.frame r = m'.matchId := by
    constructor
    · rintro ⟨r', hr', hid', hmatch⟩
      obtain rfl := hkeyed'.eq_of_followId (mem_active.mp hr').1 (mem_active.mp hs).1
        (hid'.trans hid.symm)
      exact htarget.symm.trans hmatch
    · intro h
      exact ⟨s, hs, hid, htarget.trans h⟩
  rw [hmoved]
  unfold target
  rcases lookup_of_gone hr hkey hne hgone with ⟨x, hsource, honly, hlookup⟩ | ⟨hnone, hlookup⟩
  · have hx : x ∈ req.frame := (List.mem_filter.mp (honly ▸ List.mem_singleton_self x)).1
    rw [hlookup]
    constructor
    · intro h
      obtain rfl := List.inj_on_of_nodup_map hnodup hx hm' h
      exact ⟨hsource, honly⟩
    · rintro ⟨-, honly'⟩
      exact congrArg IndexMatch.matchId (List.cons.inj (honly.symm.trans honly')).1
  · rw [hlookup]
    constructor
    · intro h
      exact absurd (h.symm.trans hr.matchId) (hgone m' hm')
    · rintro ⟨hsource, honly⟩
      exact absurd honly (hnone hsource m')

/-! ## Two generations -/

variable {u : Unicode} {links links' : MatchRow → List ForecastLink} {old new : List Pack}
  {told tnew : MatchTable} {row row' : MatchRow}

/-- A fixture of one generation that the next has under another match id and the same key. -/
structure KeyedAnew (u : Unicode) (old new : List Pack) (told tnew : MatchTable) (row row' : MatchRow)
    (key : String) : Prop where
  built : buildMatchIndex u old = .ok told
  built' : buildMatchIndex u new = .ok tnew
  mem : row ∈ told.rows
  mem' : row' ∈ tnew.rows
  keyed : row.provenance.upstreamFixtureKey = some key
  kept : row'.provenance.upstreamFixtureKey = some key
  nonempty : key ≠ ""
  gone : ∀ x ∈ tnew.rows, x.matchIdText ≠ row.matchIdText

/-- The rows of the packs a refresh writes never meet the condition. -/
theorem sourceId_of_runtimePack {rev : Refresh.Revisions} {doc : List Refresh.Listing}
    {reference rows : List SourceRow} {r : MatchRow}
    (h : RowOf (internationalRuntimePack u rev doc reference rows) r) :
    r.sourceId ≠ some worldcup := by
  rw [h.sourceId]
  show some martj42 ≠ some worldcup
  decide

end Rekeyed

/-! ## A fixture whose date is corrected -/

/-- The listing of a fixture under a date. -/
def listingOn (date : String) (day : Int) : Refresh.Listing :=
  ⟨some "72", some "France", some "Spain", some date, some (day, midnight day + 72000000000000)⟩

/-- The row of the fixture under a date and a match id. -/
def sourceRowOn (matchId : String) (day : Int) : SourceRow where
  matchId := matchId
  date := day
  homeTeam := "France"
  awayTeam := "Spain"
  tournament := "FIFA World Cup"
  city := some "Dallas"
  country := some "United States"
  neutral := true

/-- The pack a refresh writes of the fixture. -/
def packOn (matchId date : String) (day : Int) : Pack :=
  internationalRuntimePack .ascii ⟨"r1", "", "w1", "", ""⟩ [listingOn date day] []
    [sourceRowOn matchId day]

/-- The index of the fixture's pack. -/
def indexOn (matchId date : String) (day : Int) : MatchTable :=
  ((buildMatchIndex .ascii [packOn matchId date day]).toOption).getD ⟨{}, []⟩

/-- The index row of the fixture. -/
def rowOn (matchId date : String) (day : Int) : MatchRow :=
  (indexOn matchId date day).rows.headD
    { matchId := none, date := none, homeTeam := "", awayTeam := "" }

/-- The fixture in one generation, and in the next with its date a day later. -/
def firstDay : MatchRow := rowOn "match-1" "2026-07-14" 20648

def secondDay : MatchRow := rowOn "match-2" "2026-07-15" 20649

theorem build_indexOn {matchId date : String} {day : Int}
    (h : (buildMatchIndex .ascii [packOn matchId date day]).toOption.isSome = true) :
    buildMatchIndex .ascii [packOn matchId date day] = .ok (indexOn matchId date day) := by
  rw [indexOn]
  cases hbuild : buildMatchIndex .ascii [packOn matchId date day] with
  | ok t => rfl
  | error e =>
      rw [hbuild] at h
      cases h

theorem keyedAnew_days : KeyedAnew .ascii [packOn "match-1" "2026-07-14" 20648]
    [packOn "match-2" "2026-07-15" 20649] (indexOn "match-1" "2026-07-14" 20648)
    (indexOn "match-2" "2026-07-15" 20649) firstDay secondDay "openfootball-worldcup-json:2026:72" where
  built := build_indexOn (by decide +kernel)
  built' := build_indexOn (by decide +kernel)
  mem := by decide +kernel
  mem' := by decide +kernel
  keyed := by decide +kernel
  kept := by decide +kernel
  nonempty := by decide
  gone := by decide +kernel

/-- The fixture followed on its first day. -/
def followedFirst : FollowDb :=
  FollowStep.run .standard emptyDb (.follow (followOf (indexMatch (fun _ => []) firstDay) "fm_1" 0))

theorem reached_followedFirst : ReachedStore .standard followedFirst :=
  .next (.start rfl) trivial

/-- The reconciliation with the next generation. -/
def nextGeneration : ReconcileRequest :=
  reconcileOf (indexFrame (fun _ => []) (indexOn "match-2" "2026-07-15" 20649)) 1

/-- The subscription to the fixture. -/
theorem exists_followedFirst : ∃ r ∈ followedFirst.active,
    r.IsOf (indexMatch (fun _ => []) firstDay) := by
  have hone : followedFirst.active.any (fun r =>
      r.canonicalMatchId = (indexMatch (fun _ => []) firstDay).matchId ∧
        (indexMatch (fun _ => []) firstDay).sourceId = some r.identitySourceId ∧
          r.upstreamFixtureKey = (indexMatch (fun _ => []) firstDay).upstreamFixtureKey) = true := by
    decide +kernel
  obtain ⟨r, hr, htest⟩ := List.any_eq_true.mp hone
  obtain ⟨hid, hsource, hkey⟩ := of_decide_eq_true htest
  exact ⟨r, hr, hid, hsource, hkey⟩

theorem exists_nextGeneration :
    ∃ db', reconcile .standard followedFirst nextGeneration = .ok db' ∧
      ∀ r' ∈ db'.active, r'.canonicalMatchId ≠ secondDay.matchIdText := by
  have hrun : (reconcile .standard followedFirst nextGeneration).toOption.map (fun db' =>
      decide (∀ r' ∈ db'.active, r'.canonicalMatchId ≠ secondDay.matchIdText)) = some true := by
    decide +kernel
  obtain ⟨db', hdb', htest⟩ := Option.map_eq_some_iff.mp hrun
  exact ⟨db', toOption_eq_some.mp hdb', of_decide_eq_true htest⟩

end Golavo.Follows
