import Golavo.Ingest.MatchTable

/-! # Leak-safe training views

`training_rows` selects what may be learned from at a cutoff and asserts that no row after the
cutoff came through; `leak_safe_training_view` is the one owner of a fixture's information boundary:
the cutoff is `kickoff - 1s` or an earlier `as_of`, history is scoped to the fixture's own source
(and competition, for a club), and the fixture's own row never trains its own forecast. -/

namespace Golavo.Ingest

/-- The failures of the training path. -/
inductive IngestError where
  /-- `NoKickoffAnchor`: the fixture carries no kickoff instant. -/
  | noKickoffAnchor
  /-- `assert_no_future_rows`: a row of the frame lies after the cutoff. -/
  | trainingLeakage (row : MatchRow) (cutoff : Int)
  deriving DecidableEq, Repr

/-- Fail closed if a frame contains even one row after its cutoff (`assert_no_future_rows`). The
error names the earliest offender. -/
def assertNoFutureRows (t : MatchTable) (cutoff : Int) : Except IngestError Unit :=
  let offenders := t.rows.filter fun r => (t.orderInstant r).any (cutoff < ·)
  match @List.argmin _ Int Int.instLinearOrder.toPreorder _
      (fun r => (t.orderInstant r).getD 0) offenders with
  | some first => .error (.trainingLeakage first cutoff)
  | none => .ok ()

/-- What `training_rows` selects: completed and eligible rows at or before the cutoff. -/
def trains (t : MatchTable) (cutoff : Int) (r : MatchRow) : Bool :=
  t.orderedBy cutoff r && r.complete && t.eligible r

/-- Select a training frame and assert the invariant (`training_rows`). -/
def trainingRows (t : MatchTable) (cutoff : Int) : Except IngestError MatchTable := do
  let selected := t.select (trains t cutoff)
  assertNoFutureRows selected cutoff
  return selected

/-- The boundary of a fixture: one second before kickoff (`leak_safe_cutoff`). -/
def leakSafeCutoff (kickoff : Int) : Int := kickoff - secondNs

/-- Whether a row is of the fixture's own source, and for a club fixture of its own competition. A
scope applies only where the fixture names it and the frame has the column. -/
def inFixtureScope (t : MatchTable) (target r : MatchRow) : Bool :=
  (if target.sourceId.isSome && t.columns.sourceId then
      r.sourceId.isSome && r.sourceId == target.sourceId else true) &&
    (if target.sourceKind == some "club" && target.competition.isSome && t.columns.competition then
      r.competition.isSome && r.competition == target.competition else true)

/-- Narrow history to the fixture's own source (`_scope_to_fixture_source`). -/
def scopeToFixtureSource (t : MatchTable) (target : MatchRow) : MatchTable :=
  t.select (inFixtureScope t target)

/-- One fixture's training history, and the instant it was cut off at. -/
structure TrainingView where
  rows : List MatchRow
  cutoffUtc : Int
  kickoffUtc : Int
  deriving DecidableEq, Repr

/-- The cutoff of a view: `kickoff - 1s`, which an `as_of` may only tighten. -/
def viewCutoff (kickoff : Int) (asOf : Option Stamp) : Int :=
  match asOf with
  | some stamp => min stamp.toUtc (leakSafeCutoff kickoff)
  | none => leakSafeCutoff kickoff

/-- Everything one fixture may honestly learn from (`leak_safe_training_view`). -/
def leakSafeTrainingView (t : MatchTable) (target : MatchRow) (asOf : Option Stamp) :
    Except IngestError TrainingView :=
  match target.kickoffUtc with
  | none => .error .noKickoffAnchor
  | some stamp => do
      let kickoff := stamp.toUtc
      let cutoff := viewCutoff kickoff asOf
      let train ← trainingRows (scopeToFixtureSource t target) cutoff
      return ⟨train.rows.filter (·.hasOtherId target.matchIdText), cutoff, kickoff⟩

/-! ## What the functions compute -/

/-- A frame without a row after the cutoff passes the guard. -/
theorem assertNoFutureRows_ok {t : MatchTable} {cutoff : Int}
    (h : ∀ r ∈ t.rows, t.orderedBy cutoff r = true) : assertNoFutureRows t cutoff = .ok () := by
  have hnone : t.rows.filter (fun r => (t.orderInstant r).any (cutoff < ·)) = [] := by
    rw [List.filter_eq_nil_iff]
    intro r hr
    obtain ⟨i, hi, hle⟩ := MatchTable.orderedBy_iff.mp (h r hr)
    simpa [hi] using hle
  simp [assertNoFutureRows, hnone]

/-- `training_rows` never raises: what it selects has passed the comparison the guard repeats. -/
theorem trainingRows_eq (t : MatchTable) (cutoff : Int) :
    trainingRows t cutoff = .ok (t.select (trains t cutoff)) := by
  have hguard : assertNoFutureRows (t.select (trains t cutoff)) cutoff = .ok () := by
    refine assertNoFutureRows_ok fun r hr => ?_
    simp only [MatchTable.select_rows, List.mem_filter, trains, Bool.and_eq_true] at hr
    exact hr.2.1.1
  simp [trainingRows, hguard, bind, Except.bind, pure, Except.pure]

/-- What a view keeps of a table, as one test on a row. -/
def inView (t : MatchTable) (target : MatchRow) (cutoff : Int) (r : MatchRow) : Bool :=
  r.hasOtherId target.matchIdText && (trains t cutoff r && inFixtureScope t target r)

/-- A fixture with a kickoff has a view, and the view is one filter of the table. -/
theorem leakSafeTrainingView_eq {t : MatchTable} {target : MatchRow} {stamp : Stamp}
    (hk : target.kickoffUtc = some stamp) (asOf : Option Stamp) :
    leakSafeTrainingView t target asOf = .ok
      ⟨t.rows.filter (inView t target (viewCutoff stamp.toUtc asOf)),
        viewCutoff stamp.toUtc asOf, stamp.toUtc⟩ := by
  have htrains : ∀ cutoff r,
      trains (t.select (inFixtureScope t target)) cutoff r = trains t cutoff r := fun _ _ => rfl
  simp only [leakSafeTrainingView, hk, trainingRows_eq, scopeToFixtureSource, bind, Except.bind,
    pure, Except.pure, MatchTable.select_rows, List.filter_filter, htrains]
  rfl

theorem leakSafeTrainingView_blank {t : MatchTable} {target : MatchRow}
    (hk : target.kickoffUtc = none) (asOf : Option Stamp) :
    leakSafeTrainingView t target asOf = .error .noKickoffAnchor := by
  simp [leakSafeTrainingView, hk]

/-- Tightening `as_of` tightens the cutoff. -/
theorem viewCutoff_mono (kickoff : Int) {early late : Stamp} (h : early.toUtc ≤ late.toUtc) :
    viewCutoff kickoff (some early) ≤ viewCutoff kickoff (some late) :=
  min_le_min_right _ h

theorem viewCutoff_le_none (kickoff : Int) (asOf : Option Stamp) :
    viewCutoff kickoff asOf ≤ viewCutoff kickoff none := by
  cases asOf with
  | none => exact le_rfl
  | some stamp => exact min_le_right _ _

theorem trains_mono {t : MatchTable} {early late : Int} (hle : early ≤ late) {r : MatchRow}
    (h : trains t early r = true) : trains t late r = true := by
  simp only [trains, Bool.and_eq_true] at h ⊢
  exact ⟨⟨MatchTable.orderedBy_mono hle h.1.1, h.1.2⟩, h.2⟩

/-- A tighter cutoff keeps a sublist: rows leave, none arrives and none moves. -/
theorem filter_inView_sublist (t : MatchTable) (target : MatchRow) {early late : Int}
    (hle : early ≤ late) :
    (t.rows.filter (inView t target early)).Sublist (t.rows.filter (inView t target late)) := by
  refine List.monotone_filter_right _ fun r h => ?_
  simp only [inView, Bool.and_eq_true] at h ⊢
  exact ⟨h.1, trains_mono hle h.2.1, h.2.2⟩

/-! ## Training leak safety -/

/-- The rows a fixture may learn from at `as_of`: its source's (and competition's) completed and
eligible rows, ordered at or before `min(as_of, kickoff - 1s)`, other than the fixture itself. -/
def admissibleRows (t : MatchTable) (target : MatchRow) (asOf : Option Stamp) : List MatchRow :=
  match target.kickoffUtc with
  | none => []
  | some stamp => t.rows.filter fun r =>
      inFixtureScope t target r && t.orderedBy (viewCutoff stamp.toUtc asOf) r &&
        r.complete && t.eligible r && r.matchId != some target.matchIdText

/-- The view is read off the admissible rows: it drops only those whose `match_id` is blank. -/
theorem filter_inView_eq {t : MatchTable} {target : MatchRow} {stamp : Stamp}
    (hk : target.kickoffUtc = some stamp) (asOf : Option Stamp) :
    t.rows.filter (inView t target (viewCutoff stamp.toUtc asOf)) =
      (admissibleRows t target asOf).filter (·.matchId.isSome) := by
  simp only [admissibleRows, hk, List.filter_filter]
  refine List.filter_congr fun r _ => ?_
  cases hid : r.matchId with
  | none => simp [inView, MatchRow.hasOtherId, hid]
  | some id =>
      simp only [inView, trains, MatchRow.hasOtherId, hid, Option.any_some, Option.isSome_some,
        Bool.true_and]
      have hne : (some id != some target.matchIdText) = (id != target.matchIdText) := by
        simp [bne]
      rw [hne]
      ac_rfl

/-- A finished friendly and an exact World Cup kickoff, before and after its result is known. -/
private def friendly : MatchRow :=
  { matchId := some "m_1", date := some (.naive (midnight 3)), homeTeam := "Peru",
    awayTeam := "Chile", homeScore := some 1, awayScore := some 0, isComplete := some true }

private def upcoming : MatchRow :=
  { matchId := some "m_2", date := some (.naive (midnight 5)),
    kickoffUtc := some (.aware (midnight 5 + 1000 * secondNs) 0), homeTeam := "Peru",
    awayTeam := "Brazil" }

private def finished : MatchRow :=
  { upcoming with homeScore := some 0, awayScore := some 4, isComplete := some true }

end Golavo.Ingest
