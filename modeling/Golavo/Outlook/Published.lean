import Golavo.Outlook.Simulation

/-! # The simulated set

An outlook **plays what it publishes** when the fixtures every voice samples are exactly the listed
ones but for the forced, every other fixture enters its recorded score once, nothing raises, and no
fixture of the competition is passed over for want of a kickoff. It does exactly when no unfinished
fixture kicks off at the cutoff itself, none is flagged complete without scores the arrays can hold,
and none has a blank kickoff (`published_iff`). -/

namespace Golavo.Outlook

open Golavo.Lib (bind_ok_iff)

/-! ## Clubs of a certified schedule -/

/-- Names that are all there. -/
theorem isSome_of_filterMap_length {α β : Type} {f : α → Option β} {items : List α}
    (h : items.length ≤ (items.filterMap f).length) : ∀ a ∈ items, (f a).isSome = true := by
  rw [List.length_filterMap_eq_countP] at h
  exact List.countP_eq_length.mp (le_antisymm List.countP_le_length h)

/-- **A certified schedule names every club.** -/
theorem clubs_of_certified {schedule : List Fixture} {n : Nat} {asOf : Int}
    (h : (certifySchedule schedule n asOf).completeFixtureList = true) {f : Fixture}
    (hf : f ∈ schedule) :
    Fixture.nameText f.homeTeam ∈ teamsOf schedule ∧
      Fixture.nameText f.awayTeam ∈ teamsOf schedule := by
  simp only [certifySchedule, decide_eq_true_eq] at h
  obtain ⟨-, hlength, hunique, -, -⟩ := h
  -- as many pairs as rows, so no name was dropped from either side
  have hpairs : schedule.length ≤ (orderedPairs schedule).length := by
    rw [hlength, ← hunique]
    exact (List.dedup_sublist _).length_le
  rw [orderedPairs, List.length_zip, le_min_iff] at hpairs
  have hhome := isSome_of_filterMap_length hpairs.1 f hf
  have haway := isSome_of_filterMap_length hpairs.2 f hf
  obtain ⟨home, hhome⟩ := Option.isSome_iff_exists.mp hhome
  obtain ⟨away, haway⟩ := Option.isSome_iff_exists.mp haway
  have hmem : ∀ name : String, name ∈ teamsOf schedule ↔
      name ∈ schedule.filterMap Fixture.homeTeam ++ schedule.filterMap Fixture.awayTeam :=
    fun name => (List.mem_insertionSort _).trans List.mem_dedup
  rw [hhome, haway, hmem, hmem]
  exact ⟨List.mem_append_left _ (List.mem_filterMap.mpr ⟨f, hf, hhome⟩),
    List.mem_append_right _ (List.mem_filterMap.mpr ⟨f, hf, haway⟩)⟩

/-! ## What an outlook owes -/

/-- The fixtures a run has sampled. -/
def sampledFixtures (schedule : List Fixture) (columns : List ScoreColumn) : List Fixture :=
  (schedule.zip columns).filterMap fun entry => if entry.2.isSampled then some entry.1 else none

/-- Whether a scenario forces a fixture. -/
def isForced (forced : List String) (f : Fixture) : Bool := forced.any fun id => f.hasId id

/-- One voice plays what is published: it samples the listed fixtures but for the forced ones, every
fixture has one column, and every iteration's tallies are the worth of its scores, each once. -/
structure Plays (plan : Plan) (req : OutlookRequest) (sim : Simulation) : Prop where
  sampled : sampledFixtures plan.schedule sim.columns =
    plan.remaining.filter fun f => !isForced plan.forced f
  columns : List.Forall₂ (Enters req.iterations.toNat) plan.schedule sim.columns
  once : ∀ k team, sim.tallies k team =
    ((plan.schedule.zip sim.columns).map (columnWorth k team)).sum +
      ⟨pointAdjustment plan.rule.competitionId plan.season team, 0, 0, 0⟩

/-- The simulated set is the published one: no fixture of the competition is passed over for want of
a kickoff, and every voice ends and plays what is published. -/
def Published (host : Host) (frame : Frame) (req : OutlookRequest) (plan : Plan) : Prop :=
  (∀ f ∈ competitionRows frame plan.rule, f.kickoffUtc = none → f ∈ plan.remaining) ∧
    ∀ voice, ∃ sim, voiceSimulation host plan req voice = .ok sim ∧ Plays plan req sim

/-- What has to be clear of a competition's rows: none has a blank kickoff, and in the season's
schedule no unfinished one kicks off at the cutoff itself and none is flagged complete without
scores the arrays can hold. -/
structure Clear (frame : Frame) (rule : LeagueRule) (season : String) (asOf : Int) : Prop where
  dated : ∀ f ∈ competitionRows frame rule, f.kickoffUtc ≠ none
  noneAt : ∀ f ∈ seasonSchedule frame rule season, f.complete = false → f.kickoffUtc ≠ some asOf
  readable : ∀ f ∈ seasonSchedule frame rule season, f.readable = true

theorem mem_competitionRows {frame : Frame} {rule : LeagueRule} {season : String} {f : Fixture}
    (h : f ∈ seasonSchedule frame rule season) : f ∈ competitionRows frame rule :=
  (List.mem_filter.mp ((List.mem_insertionSort _).mp h)).1

/-- Only a fixture after the cutoff is listed. -/
theorem after_of_mem_remaining {schedule : List Fixture} {asOf : Int} {f : Fixture}
    (h : f ∈ remainingFixtures schedule asOf) : f.after asOf = true := by
  have := (List.mem_filter.mp h).2
  rw [Bool.and_eq_true] at this
  exact this.2

/-! ## One row of a scenario -/

section Row

variable {asOf : Int} {forced : List String} {row row' : Fixture}

/-- Names and ids survive a scenario. -/
theorem Applied.names (h : Applied asOf forced row row') :
    row'.homeTeam = row.homeTeam ∧ row'.awayTeam = row.awayTeam := by
  rcases h with ⟨-, rfl⟩ | ⟨-, -, -, home, away, -, -, rfl⟩
  · exact ⟨rfl, rfl⟩
  · exact ⟨rfl, rfl⟩

theorem isForced_eq_false_iff : isForced forced row = false ↔
    ∀ id ∈ forced, row.hasId id = false := by
  simp only [isForced, List.any_eq_false, Bool.not_eq_true]

/-- A forced score fits the arrays. -/
theorem Applied.readable_iff (h : Applied asOf forced row row') :
    row'.readable = true ↔ row.readable = true := by
  rcases h with ⟨-, rfl⟩ | ⟨-, hplayed, -, home, away, hhome, haway, rfl⟩
  · rfl
  · have hfits : ∀ z : Int, 0 ≤ z ∧ z ≤ 20 → fitsByte z = true := fun z hz => by
      rw [fitsByte, Bool.and_eq_true, decide_eq_true_iff, decide_eq_true_iff]
      omega
    refine iff_of_true ?_ (by rw [Fixture.readable, hplayed]; rfl)
    simp only [Fixture.readable, Option.any_some, hfits _ hhome, hfits _ haway, Bool.and_self,
      Bool.or_true]

/-- **A row is sampled exactly when it is listed and not forced**, where it has a kickoff that is
neither a past gap nor the cutoff itself; and it is then the row that was listed. -/
theorem Applied.sampled_iff (h : Applied asOf forced row row') (hdated : row.kickoffUtc ≠ none)
    (hgap : row.complete = false → row.before asOf = false)
    (hat : row.complete = false → row.kickoffUtc ≠ some asOf) :
    row'.complete = false ↔
      (!row.complete && row.after asOf) = true ∧ (!isForced forced row) = true := by
  rw [Bool.not_eq_true']
  rcases h with ⟨hfree, rfl⟩ | ⟨⟨id, hid, hrow⟩, hplayed, -, home, away, -, -, rfl⟩
  · rw [isForced_eq_false_iff]
    rw [Bool.and_eq_true, Bool.not_eq_true']
    refine ⟨fun hplayed => ⟨⟨hplayed, ?_⟩, hfree⟩, fun h => h.1.1⟩
    obtain ⟨t, ht⟩ := Option.ne_none_iff_exists'.mp hdated
    have hgap := hgap hplayed
    have hat := hat hplayed
    rw [Fixture.before, ht, Option.any_some, decide_eq_false_iff_not] at hgap
    rw [Fixture.after, ht, Option.any_some, decide_eq_true_iff]
    have hne : t ≠ asOf := fun heq => hat (heq ▸ ht)
    omega
  · constructor
    · intro hcomplete
      cases hcomplete
    · rintro ⟨-, hfree⟩
      rw [isForced_eq_false_iff] at hfree
      rw [hfree id hid] at hrow
      cases hrow

/-- An unforced row is as it was. -/
theorem Applied.eq_of_incomplete (h : Applied asOf forced row row') (hrow' : row'.complete = false) :
    row' = row := by
  rcases h with ⟨-, rfl⟩ | ⟨-, -, -, home, away, -, -, rfl⟩
  · rfl
  · cases hrow'

end Row

/-! ## The whole schedule -/

/-- What is sampled is what is listed but for the forced, row by row. -/
theorem sampledFixtures_eq {asOf : Int} {forced : List String} {iterations : Nat}
    {schedule schedule' : List Fixture} {columns : List ScoreColumn}
    (happlied : List.Forall₂ (Applied asOf forced) schedule schedule')
    (hcolumns : List.Forall₂ (Enters iterations) schedule' columns)
    (hrow : ∀ f ∈ schedule, f.kickoffUtc ≠ none ∧
      (f.complete = false → f.before asOf = false ∧ f.kickoffUtc ≠ some asOf)) :
    sampledFixtures schedule' columns =
      (remainingFixtures schedule asOf).filter fun f => !isForced forced f := by
  induction happlied generalizing columns with
  | nil =>
      cases hcolumns
      rfl
  | @cons row row' schedule schedule' hhead _ ih =>
      cases hcolumns with
      | @cons _ column _ columns henters htail =>
          obtain ⟨⟨hdated, hopen⟩, hrest⟩ := List.forall_mem_cons.mp hrow
          have hiff := hhead.sampled_iff hdated (fun h => (hopen h).1) fun h => (hopen h).2
          have ih := ih htail hrest
          rw [remainingFixtures] at ih ⊢
          rw [List.filter_filter] at ih ⊢
          rw [List.filter_cons, ← ih]
          simp only [sampledFixtures, List.zip_cons_cons, List.filterMap_cons]
          cases henters with
          | recorded hcomplete _ _ =>
              have hlisted : ¬ (!isForced forced row && (!row.complete && row.after asOf)) = true := by
                rw [Bool.and_eq_true, and_comm, ← hiff, hcomplete]
                exact Bool.noConfusion
              rw [if_neg hlisted]
              rfl
          | sampled hcomplete _ =>
              have hlisted : (!isForced forced row && (!row.complete && row.after asOf)) = true := by
                rw [Bool.and_eq_true, and_comm, ← hiff, hcomplete]
              rw [if_pos hlisted, hhead.eq_of_incomplete hcomplete]
              rfl

/-- An unfinished row of the scenario is sampled. -/
theorem mem_sampledFixtures {iterations : Nat} {schedule : List Fixture}
    {columns : List ScoreColumn} (h : List.Forall₂ (Enters iterations) schedule columns)
    {f : Fixture} (hf : f ∈ schedule) (hplayed : f.complete = false) :
    f ∈ sampledFixtures schedule columns := by
  induction h with
  | nil => cases hf
  | @cons row column schedule columns henters _ ih =>
      simp only [sampledFixtures, List.zip_cons_cons, List.filterMap_cons]
      rcases List.mem_cons.mp hf with rfl | hf
      · cases henters with
        | recorded hcomplete _ _ => rw [hcomplete] at hplayed; cases hplayed
        | sampled _ _ => exact List.mem_cons_self
      · have ih := ih hf
        split
        · exact ih
        · exact List.mem_cons_of_mem _ ih

section Outlook

variable {host : Host} {frame : Frame} {req : OutlookRequest} {plan : Plan}

/-- What is simulated as published has clear rows. -/
theorem clear_of_published (h : planOutlook frame req = .ok (.simulate plan))
    (hpublished : Published host frame req plan) :
    Clear frame plan.rule req.seasonId req.asOf := by
  obtain ⟨-, -, hremaining, happlied, -, -, -⟩ := planOutlook_simulate h
  obtain ⟨hblank, hvoices⟩ := hpublished
  obtain ⟨sim, hsim, hplays⟩ := hvoices .ratings
  obtain ⟨hreadable, hcolumns, -⟩ := voiceSimulation_spec hsim
  have hafter : ∀ f ∈ plan.remaining, f.after req.asOf = true := fun f hf =>
    after_of_mem_remaining (hremaining ▸ hf)
  refine ⟨fun f hf hnone => ?_, fun f hf hplayed hat => ?_, fun f hf => ?_⟩
  · have := hafter f (hblank f hf hnone)
    rw [Fixture.after, hnone] at this
    cases this
  · -- an unfinished fixture at the cutoff cannot be forced, so it is sampled, but it is not listed
    obtain ⟨f', hf', hrow⟩ := Lib.exists_of_mem_items happlied hf
    have hsame : f' = f := by
      rcases hrow with ⟨-, rfl⟩ | ⟨-, -, hkickoff, -⟩
      · rfl
      · rw [hat, Option.any_some, decide_eq_false_iff_not] at hkickoff
        exact absurd le_rfl hkickoff
    subst hsame
    have hmem := mem_sampledFixtures hcolumns hf' hplayed
    rw [hplays.sampled] at hmem
    have := hafter _ (List.mem_of_mem_filter hmem)
    rw [Fixture.after, hat, Option.any_some, decide_eq_true_iff] at this
    exact absurd this (lt_irrefl _)
  · obtain ⟨f', hf', hrow⟩ := Lib.exists_of_mem_items happlied hf
    exact hrow.readable_iff.mp (hreadable f' hf')

/-- Clear rows are simulated as published. -/
theorem published_of_clear (h : planOutlook frame req = .ok (.simulate plan))
    (hclear : Clear frame plan.rule req.seasonId req.asOf) : Published host frame req plan := by
  obtain ⟨-, -, hremaining, happlied, hcertificate, hgaps, hlist⟩ := planOutlook_simulate h
  rw [hcertificate] at hgaps hlist
  obtain ⟨hdated, hnoneAt, hreadable⟩ := hclear
  refine ⟨fun f hf hnone => absurd hnone (hdated f hf), fun voice => ?_⟩
  have hclubs : ∀ f ∈ plan.schedule, Fixture.nameText f.homeTeam ∈ plan.certificate.teams ∧
      Fixture.nameText f.awayTeam ∈ plan.certificate.teams := by
    intro f hf
    obtain ⟨row, hmem, hrow⟩ := Lib.exists_of_mem_results happlied hf
    rw [hrow.names.1, hrow.names.2, hcertificate]
    exact clubs_of_certified hlist hmem
  have hreadable' : ∀ f ∈ plan.schedule, f.readable = true := by
    intro f hf
    obtain ⟨row, hmem, hrow⟩ := Lib.exists_of_mem_results happlied hf
    exact hrow.readable_iff.mpr (hreadable row hmem)
  obtain ⟨sim, hsim⟩ := @exists_voiceSimulation host plan req voice hclubs hreadable'
  obtain ⟨-, hcolumns, honce⟩ := voiceSimulation_spec hsim
  refine ⟨sim, hsim, ?_, hcolumns, honce⟩
  rw [hremaining]
  exact sampledFixtures_eq happlied hcolumns fun f hf =>
    ⟨hdated f (mem_competitionRows hf), fun hplayed =>
      ⟨not_before_of_gaps hgaps hf (by rw [hplayed, Bool.false_and]), hnoneAt f hf hplayed⟩⟩

/-- **The simulated set is the published one exactly when** no row of the competition has a blank
kickoff, no unfinished fixture of the season kicks off at the cutoff itself, and none is flagged
complete without scores the arrays can hold. -/
theorem published_iff (h : planOutlook frame req = .ok (.simulate plan)) :
    Published host frame req plan ↔ Clear frame plan.rule req.seasonId req.asOf :=
  ⟨clear_of_published h, published_of_clear h⟩

end Outlook

/-! ## A matchday at the cutoff -/

/-- The Bundesliga's rule. -/
def bundesliga : LeagueRule where
  competitionId := "germany-bundesliga"
  sourceName := "Bundesliga"
  ruleId := "germany-2024.1"
  expectedTeams := 18
  championsLeagueSlots := 4
  relegationSlots := 2
  primary := [.points, .goalDifference, .goalsFor, .wins, .headToHead]

/-- Eighteen clubs. -/
def clubs : List String :=
  ["A", "B", "C", "D", "E", "F", "G", "H", "I", "J", "K", "L", "M", "N", "O", "P", "Q", "R"]

/-- A fixture of two clubs. -/
def fixtureOf (kickoff : Int) (home away : String) : Fixture :=
  { matchId := some (home ++ away), kickoffUtc := some kickoff, date := none, homeTeam := some home,
    awayTeam := some away, competition := some "Bundesliga" }

/-- 31 July 2026, 18:00 UTC. -/
def kickoffTime : Int := 1785520800000000000

/-- A double round robin that kicks off at one instant. -/
def matchday : List Fixture :=
  clubs.flatMap fun home => (clubs.filter (· ≠ home)).map (fixtureOf kickoffTime home)

/-- Twenty results of the season before, and the matchday. -/
def matchdayFrame : Frame where
  rows := List.replicate 20 { fixtureOf 1754000000000000000 "A" "B" with
    isComplete := some true, homeScore := some 1, awayScore := some 0 } ++ matchday

/-- The outlook at the very kickoff. -/
def kickoffRequest : OutlookRequest := { competitionId := "germany-bundesliga", asOf := kickoffTime }

theorem seasonSchedule_matchday :
    seasonSchedule matchdayFrame bundesliga kickoffRequest.seasonId = matchday := by
  decide +kernel

/-- Its certificate passes every gate, so it is simulated. -/
theorem planOutlook_matchday : ∃ plan, planOutlook matchdayFrame kickoffRequest =
    .ok (.simulate plan) ∧ plan.rule = bundesliga := by
  have hrule : leagueRule kickoffRequest.competitionId = some bundesliga := by decide +kernel
  have hcertificate :
      (certifySchedule matchday 18 kickoffTime).futureCompletedResults = 0 ∧
        (certifySchedule matchday 18 kickoffTime).pastResultGaps = 0 ∧
        (certifySchedule matchday 18 kickoffTime).completeFixtureList = true ∧
        (certifySchedule matchday 18 kickoffTime).incompleteFixtures = 306 := by
    decide +kernel
  have htraining : (trainingRows matchdayFrame bundesliga kickoffTime).length = 20 := by
    decide +kernel
  have hne : matchday ≠ [] := by decide
  obtain ⟨hfuture, hgaps, hlist, hopen⟩ := hcertificate
  have hgate : ∀ plan : Plan, plan.certificate = certifySchedule matchday 18 kickoffTime →
      plan.training = trainingRows matchdayFrame bundesliga kickoffTime →
      gate plan matchday = .simulate plan := by
    intro plan hplan htrain
    rw [gate, hplan, htrain, if_neg hne, hfuture, hgaps, hlist, hopen, htraining]
    rfl
  refine ⟨⟨bundesliga, kickoffRequest.seasonId, certifySchedule matchday 18 kickoffTime,
    remainingFixtures matchday kickoffTime, matchday, [],
    standingsTable (visibleSchedule matchday [] kickoffTime) "germany-bundesliga"
      kickoffRequest.seasonId, trainingRows matchdayFrame bundesliga kickoffTime⟩, ?_, rfl⟩
  rw [planOutlook, hrule]
  dsimp only
  refine bind_ok_iff.mpr ⟨(), rfl, bind_ok_iff.mpr ⟨bundesliga, rfl, ?_⟩⟩
  rw [seasonSchedule_matchday]
  exact bind_ok_iff.mpr ⟨(matchday, []), rfl, congrArg Except.ok (hgate _ rfl rfl)⟩

/-- No draw but zero, and every match goalless. -/
def goallessHost : Host where
  dixonColes _ _ _ _ := Forecast.goallessMatrix
  ratings _ _ _ _ := Forecast.goallessMatrix.outcomeProbabilities
  uniform _ _ := 0

/-- The matchday is not simulated as published: every voice samples it, and nothing of it is
listed. -/
theorem matchday_unlisted : ∃ plan, planOutlook matchdayFrame kickoffRequest =
    .ok (.simulate plan) ∧ ¬ Published goallessHost matchdayFrame kickoffRequest plan := by
  obtain ⟨plan, hplan, hrule⟩ := planOutlook_matchday
  refine ⟨plan, hplan, fun hpublished => ?_⟩
  have hnone := (clear_of_published hplan hpublished).noneAt (fixtureOf kickoffTime "A" "B")
  rw [hrule, seasonSchedule_matchday] at hnone
  exact hnone (by decide +kernel) rfl rfl

theorem published_iff_matchday : ∃ plan, planOutlook matchdayFrame kickoffRequest =
    .ok (.simulate plan) ∧ (Published goallessHost matchdayFrame kickoffRequest plan ↔
      Clear matchdayFrame plan.rule kickoffRequest.seasonId kickoffTime) := by
  obtain ⟨plan, hplan, -⟩ := planOutlook_matchday
  exact ⟨plan, hplan, published_iff hplan⟩

end Golavo.Outlook
