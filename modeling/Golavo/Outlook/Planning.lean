import Golavo.Outlook.Schedule
import Golavo.Lib.Runs

/-! # What an outlook simulates

`season_outlook` up to its simulation: the season's schedule, the **forced results** of a scenario
entered into it, and the gates that block an outlook instead of simulating. -/

namespace Golavo.Outlook

open Golavo.Lib (failIf orFail failIf_ok_iff orFail_ok_iff bind_ok_iff)

/-! ## Scenarios -/

/-- Why an outlook raises before it simulates. -/
inductive OutlookError where
  | iterations
  | noRule
  | tooManyForced
  | forcedId
  | forcedScores
  | forcedRange
  | notInSeason (matchId : String)
  | notUpcoming (matchId : String)
  /-- The truth value of a blank flag. -/
  | blankFlag
  deriving DecidableEq, Repr

/-- A forced result, as asked for: `str(match_id or "")`, and each score where it is a plain
integer. -/
structure ForcedResult where
  matchId : String
  homeScore : Option Int
  awayScore : Option Int
  deriving DecidableEq, Repr

/-- The most fixtures a scenario may force. -/
def maxForced : Nat := 12

/-- Whether a fixture has an id. -/
def Fixture.hasId (id : String) (f : Fixture) : Bool := f.matchId = some id

/-- Enter one score into the fixture of an id. -/
def force (id : String) (score : Int × Int) (f : Fixture) : Fixture :=
  if f.hasId id then
    { f with homeScore := some score.1, awayScore := some score.2, isComplete := some true }
  else f

/-- Check one forced result against the schedule, and enter it. -/
def applyForcedResult (asOf : Int) (state : List Fixture × List String) (item : ForcedResult) :
    Except OutlookError (List Fixture × List String) := do
  failIf (item.matchId = "" ∨ item.matchId ∈ state.2) .forcedId
  let home ← orFail .forcedScores item.homeScore
  let away ← orFail .forcedScores item.awayScore
  failIf (¬ ((0 ≤ home ∧ home ≤ 20) ∧ 0 ≤ away ∧ away ≤ 20)) .forcedRange
  match state.1.filter (Fixture.hasId item.matchId) with
  | [row] =>
      let flag ← orFail .blankFlag row.isComplete
      failIf (flag = true ∨ row.kickoffUtc.any (· ≤ asOf) = true) (.notUpcoming item.matchId)
      .ok (state.1.map (force item.matchId (home, away)), state.2 ++ [item.matchId])
  | _ => .error (.notInSeason item.matchId)

/-- Enter a scenario's forced results (`_apply_forced_results`): the schedule with them, and the
ids of the fixtures forced. -/
def applyForcedResults (schedule : List Fixture) (forced : List ForcedResult) (asOf : Int) :
    Except OutlookError (List Fixture × List String) := do
  failIf (maxForced < forced.length) .tooManyForced
  forced.foldlM (applyForcedResult asOf) (schedule, [])

/-- How a row of the scenario's schedule relates to the row it came from: it is that row, or an
unplayed fixture not yet kicked off with a forced score. -/
def Applied (asOf : Int) (forced : List String) (row row' : Fixture) : Prop :=
  (∀ id ∈ forced, row.hasId id = false) ∧ row' = row ∨
    (∃ id ∈ forced, row.hasId id = true) ∧ row.complete = false ∧
      row.kickoffUtc.any (· ≤ asOf) = false ∧
      ∃ home away : Int, (0 ≤ home ∧ home ≤ 20) ∧ (0 ≤ away ∧ away ≤ 20) ∧
        row' = { row with homeScore := some home, awayScore := some away, isComplete := some true }

/-- One forced result keeps the relation. -/
theorem applyForcedResult_ok {asOf : Int} {schedule : List Fixture}
    {state state' : List Fixture × List String} {item : ForcedResult}
    (hstate : List.Forall₂ (Applied asOf state.2) schedule state.1)
    (h : applyForcedResult asOf state item = .ok state') :
    List.Forall₂ (Applied asOf state'.2) schedule state'.1 := by
  obtain ⟨_, hid, h⟩ := bind_ok_iff.mp h
  obtain ⟨home, _, h⟩ := bind_ok_iff.mp h
  obtain ⟨away, _, h⟩ := bind_ok_iff.mp h
  obtain ⟨_, hrange, h⟩ := bind_ok_iff.mp h
  rw [failIf_ok_iff] at hid hrange
  rw [not_or] at hid
  have hrange := not_not.mp hrange
  split at h
  · rename_i row hselected
    obtain ⟨flag, hflag, h⟩ := bind_ok_iff.mp h
    obtain ⟨_, hupcoming, h⟩ := bind_ok_iff.mp h
    rw [orFail_ok_iff] at hflag
    rw [failIf_ok_iff, not_or, Bool.not_eq_true, Bool.not_eq_true] at hupcoming
    obtain rfl := Except.ok.inj h
    -- the selected row is the only one with this id, so every pair is as it was but that one's
    have hone : ∀ x ∈ state.1, x.hasId item.matchId = true → x = row := fun x hx hxid => by
      have hmem := List.mem_filter.mpr ⟨hx, hxid⟩
      rw [hselected] at hmem
      exact List.mem_singleton.mp hmem
    have hstep : ∀ x y, y ∈ state.1 → Applied asOf state.2 x y →
        Applied asOf (state.2 ++ [item.matchId]) x (force item.matchId (home, away) y) := by
      rintro x y hy (⟨hx, rfl⟩ | ⟨⟨id, hmem, hx⟩, hplayed, hkickoff, hs, as, hh, ha, rfl⟩)
      · by_cases hyid : y.hasId item.matchId = true
        · obtain rfl := hone y hy hyid
          refine .inr ⟨⟨_, List.mem_append_right _ List.mem_cons_self, hyid⟩, ?_, hupcoming.2,
            home, away, hrange.1, hrange.2, ?_⟩
          · rw [Fixture.complete, hflag, Option.getD_some, hupcoming.1]
          · rw [force, if_pos hyid]
        · refine .inl ⟨fun id hid' => ?_, ?_⟩
          · rcases List.mem_append.mp hid' with hid' | hid'
            · exact hx id hid'
            · rw [List.mem_singleton.mp hid']
              exact Bool.not_eq_true _ ▸ hyid
          · rw [force, if_neg hyid]
      · have hother : x.hasId item.matchId = false := by
          rw [Bool.eq_false_iff]
          intro hxid
          rw [Fixture.hasId, decide_eq_true_iff] at hx hxid
          rw [hx] at hxid
          exact hid.2 (Option.some.inj hxid ▸ hmem)
        refine .inr ⟨⟨id, List.mem_append_left _ hmem, hx⟩, hplayed, hkickoff, hs, as, hh, ha, ?_⟩
        rw [force, if_neg]
        exact fun hforced => Bool.false_ne_true (hother.symm.trans hforced)
    have hmap : ∀ {xs ys : List Fixture}, (∀ y ∈ ys, y ∈ state.1) →
        List.Forall₂ (Applied asOf state.2) xs ys →
        List.Forall₂ (Applied asOf (state.2 ++ [item.matchId])) xs
          (ys.map (force item.matchId (home, away))) := by
      intro xs ys hys hall
      induction hall with
      | nil => exact .nil
      | cons hhead _ ih =>
          exact .cons (hstep _ _ (hys _ List.mem_cons_self) hhead)
            (ih fun y hy => hys y (List.mem_cons_of_mem _ hy))
    exact hmap (fun _ hy => hy) hstate
  · cases h

/-- **What a scenario changes**: nothing but unplayed fixtures not yet kicked off. -/
theorem applyForcedResults_ok {schedule schedule' : List Fixture} {forced : List ForcedResult}
    {asOf : Int} {ids : List String}
    (h : applyForcedResults schedule forced asOf = .ok (schedule', ids)) :
    List.Forall₂ (Applied asOf ids) schedule schedule' := by
  obtain ⟨_, hcount, hfold⟩ := bind_ok_iff.mp h
  have hrefl : List.Forall₂ (Applied asOf []) schedule schedule :=
    List.forall₂_same.mpr fun x _ => .inl ⟨fun _ hid => absurd hid List.not_mem_nil, rfl⟩
  suffices ∀ (state : List Fixture × List String),
      List.Forall₂ (Applied asOf state.2) schedule state.1 →
      forced.foldlM (applyForcedResult asOf) state = .ok (schedule', ids) →
      List.Forall₂ (Applied asOf ids) schedule schedule' from this _ hrefl hfold
  clear h hcount hfold hrefl
  induction forced with
  | nil =>
      rintro state hstate h
      obtain rfl := Except.ok.inj h
      exact hstate
  | cons item forced ih =>
      intro state hstate h
      rw [List.foldlM_cons] at h
      obtain ⟨next, hnext, h⟩ := bind_ok_iff.mp h
      exact ih next (applyForcedResult_ok hstate hnext) h

/-! ## The season's schedule -/

/-- The rows of a competition. -/
def competitionRows (frame : Frame) (rule : LeagueRule) : List Fixture :=
  frame.rows.filter fun f => f.competition = some rule.sourceName

/-- The order a schedule is sorted in: by kickoff, then by id, blanks last. -/
def scheduleOrder (a b : Fixture) : Prop :=
  let ranked {α : Type} [LT α] [DecidableLT α] [DecidableEq α] : Option α → Option α → Ordering
    | some x, some y => compareOfLessAndEq x y
    | some _, none => .lt
    | none, some _ => .gt
    | none, none => .eq
  ((ranked a.kickoffUtc b.kickoffUtc).then (ranked a.matchId b.matchId)).isLE = true

instance (a b : Fixture) : Decidable (scheduleOrder a b) := inferInstanceAs (Decidable (_ = true))

/-- The rows of one season of a competition, in order. -/
def seasonSchedule (frame : Frame) (rule : LeagueRule) (season : String) : List Fixture :=
  ((competitionRows frame rule).filter fun f =>
    footballSeason f.kickoffUtc = season).insertionSort scheduleOrder

/-- The training rows of a competition up to an instant (`training_rows`). -/
def trainingRows (frame : Frame) (rule : LeagueRule) (asOf : Int) : List Fixture :=
  (competitionRows frame rule).filter fun f =>
    (f.kickoffUtc.or f.date).any (· ≤ asOf) && f.complete &&
      if frame.trainingEligible then f.trainingEligible.getD false else f.complete

/-- The fewest training matches an outlook asks for. -/
def minTrainingMatches : Nat := 20

/-! ## The gates -/

/-- Why an outlook is blocked. -/
inductive BlockReason where
  | fixturesNotPublished
  | futureResultLeak
  | pastResultGaps
  | incompleteFixtureList
  | insufficientTrainingHistory
  deriving DecidableEq, Repr

/-- What is asked for. -/
structure OutlookRequest where
  competitionId : String
  asOf : Int
  /-- The season asked for; blank means the running one. -/
  season : Option String := none
  iterations : Int := 10000
  seed : Int := 20260715
  forced : List ForcedResult := []

/-- Everything a simulation is given, and what the outlook publishes beside it. -/
structure Plan where
  rule : LeagueRule
  season : String
  certificate : Certificate
  /-- The fixtures listed. -/
  remaining : List Fixture
  /-- The schedule with the scenario's results. -/
  schedule : List Fixture
  /-- The ids of the forced fixtures. -/
  forced : List String
  /-- The table before the cutoff and with the scenario's results. -/
  table : Tallies
  training : List Fixture

/-- How far an outlook gets before it simulates. -/
inductive Stage where
  | blocked (reason : BlockReason)
  | complete
  | simulate (plan : Plan)

/-- The season a request is about. -/
def OutlookRequest.seasonId (req : OutlookRequest) : String :=
  match req.season with
  | some season => if season = "" then footballSeason (some req.asOf) else season
  | none => footballSeason (some req.asOf)

/-- The schedule as the cutoff sees it: a fixture after it counts as unplayed, unless forced. -/
def visibleSchedule (schedule : List Fixture) (forced : List String) (asOf : Int) : List Fixture :=
  schedule.map fun f =>
    if f.after asOf && !forced.any (fun id => f.hasId id) then { f with isComplete := some false }
    else f

/-- The gates, in their order: what the certificate blocks, a finished season, and too little
training history. -/
def gate (plan : Plan) (schedule : List Fixture) : Stage :=
  if schedule = [] then .blocked .fixturesNotPublished
  else if plan.certificate.futureCompletedResults ≠ 0 then .blocked .futureResultLeak
  else if plan.certificate.pastResultGaps ≠ 0 then .blocked .pastResultGaps
  else if plan.certificate.completeFixtureList = false then .blocked .incompleteFixtureList
  else if plan.certificate.incompleteFixtures = 0 then .complete
  else if plan.training.length < minTrainingMatches then .blocked .insufficientTrainingHistory
  else .simulate plan

/-- Everything `season_outlook` does before it fits and simulates. -/
def planOutlook (frame : Frame) (req : OutlookRequest) : Except OutlookError Stage := do
  failIf (req.iterations ≤ 0) .iterations
  let rule ← orFail .noRule (leagueRule req.competitionId)
  let season := req.seasonId
  let schedule := seasonSchedule frame rule season
  let scenario ← applyForcedResults schedule req.forced req.asOf
  let table := standingsTable (visibleSchedule scenario.1 scenario.2 req.asOf)
    req.competitionId season
  .ok (gate
    { rule := rule
      season := season
      certificate := certifySchedule schedule rule.expectedTeams req.asOf
      remaining := remainingFixtures schedule req.asOf
      schedule := scenario.1
      forced := scenario.2
      table := table
      training := trainingRows frame rule req.asOf } schedule)

/-! ## What reaches the simulation -/

theorem gate_eq_simulate {plan plan' : Plan} {schedule : List Fixture}
    (h : gate plan schedule = .simulate plan') :
    plan' = plan ∧ plan.certificate.futureCompletedResults = 0 ∧
      plan.certificate.pastResultGaps = 0 ∧ plan.certificate.completeFixtureList = true := by
  unfold gate at h
  split_ifs at h with _ hfuture hpast hlist
  exact ⟨(Stage.simulate.inj h).symm, not_not.mp hfuture, not_not.mp hpast,
    (Bool.not_eq_false _).mp hlist⟩

/-- **What reaches the simulation**: a certified schedule, the fixtures it lists, and the same rows
with the forced results entered. -/
theorem planOutlook_simulate {frame : Frame} {req : OutlookRequest} {plan : Plan}
    (h : planOutlook frame req = .ok (.simulate plan)) :
    plan.season = req.seasonId ∧ plan.rule.competitionId = req.competitionId ∧
      plan.remaining =
        remainingFixtures (seasonSchedule frame plan.rule req.seasonId) req.asOf ∧
      List.Forall₂ (Applied req.asOf plan.forced)
        (seasonSchedule frame plan.rule req.seasonId) plan.schedule ∧
      plan.certificate = certifySchedule (seasonSchedule frame plan.rule req.seasonId)
        plan.rule.expectedTeams req.asOf ∧
      plan.certificate.pastResultGaps = 0 ∧ plan.certificate.completeFixtureList = true := by
  obtain ⟨_, _, h⟩ := bind_ok_iff.mp h
  obtain ⟨rule, hrule, h⟩ := bind_ok_iff.mp h
  obtain ⟨⟨scenario, ids⟩, hscenario, h⟩ := bind_ok_iff.mp h
  obtain ⟨rfl, _, hpast, hlist⟩ := gate_eq_simulate (Except.ok.inj h)
  rw [orFail_ok_iff, leagueRule] at hrule
  have hid := List.find?_some hrule
  exact ⟨rfl, by simpa using hid, rfl, applyForcedResults_ok hscenario, rfl, hpast, hlist⟩

/-- A certified schedule has no past gaps. -/
theorem not_before_of_gaps {schedule : List Fixture} {n : Nat} {asOf : Int}
    (h : (certifySchedule schedule n asOf).pastResultGaps = 0) {f : Fixture} (hf : f ∈ schedule)
    (hdone : (f.complete && f.scored) = false) : f.before asOf = false := by
  have hall := List.countP_eq_zero.mp h f hf
  simpa [hdone] using hall

end Golavo.Outlook
