import Golavo.Outlook.SeasonSlots
import Golavo.Outlook.TableInvariance
import Mathlib.Data.Finset.Prod

/-! # A simulated table is the table

A voice ranks the clubs of an iteration from arrays of its own: the current table with the sampled
scores added, and the scores of all fixtures for head to head. It never asks whether a group met.
The main result: **every iteration is ranked as the league table of the season it played would be**
(`rankedOrder_eq_standingsOrder`). It rests on the certificate: in a whole double round robin every
group has met. -/

namespace Golavo.Outlook

open Golavo.Lib.Ranking (rank perm_rank rank_eq_of_perm)

/-! ## What a certificate says -/

/-- The clubs of a fixture. -/
def Fixture.sides (f : Fixture) : String × String :=
  (Fixture.nameText f.homeTeam, Fixture.nameText f.awayTeam)

/-- A schedule in which `n` clubs meet each other once at home and once away, and nobody else. -/
structure DoubleRoundRobin (n : Nat) (teams : List String) (schedule : List Fixture) : Prop where
  named : ∀ f ∈ schedule, f.homeTeam.isSome = true ∧ f.awayTeam.isSome = true
  teams_nodup : teams.Nodup
  teams_length : teams.length = n
  clubs : ∀ f ∈ schedule, f.sides.1 ∈ teams ∧ f.sides.2 ∈ teams
  apart : ∀ f ∈ schedule, f.sides.1 ≠ f.sides.2
  met : ((schedule.map Fixture.sides).toFinset).card = n * (n - 1)

section Certificate

variable {schedule : List Fixture} {n : Nat} {asOf : Int}

/-- Names that are all kept were all there. -/
theorem isSome_of_length_filterMap {α β : Type*} {f : α → Option β} {items : List α}
    (h : (items.filterMap f).length = items.length) : ∀ a ∈ items, (f a).isSome = true := by
  rw [List.length_filterMap_eq_countP, List.countP_eq_length] at h
  exact h

/-- Where every name is there, keeping the names keeps them all. -/
theorem filterMap_name {name : Fixture → Option String}
    (h : ∀ f ∈ schedule, (name f).isSome = true) :
    schedule.filterMap name = schedule.map fun f => Fixture.nameText (name f) := by
  rw [← List.filterMap_eq_map]
  refine List.filterMap_congr fun f hf => ?_
  obtain ⟨text, htext⟩ := Option.isSome_iff_exists.mp (h f hf)
  rw [Function.comp_apply, htext]
  rfl

/-- **A certified schedule is a double round robin.** -/
theorem doubleRoundRobin_of_certified
    (h : (certifySchedule schedule n asOf).completeFixtureList = true) :
    DoubleRoundRobin n (certifySchedule schedule n asOf).teams schedule := by
  simp only [certifySchedule, decide_eq_true_eq] at h
  obtain ⟨hteams, hobserved, hunique, hduplicate, hself⟩ := h
  -- no pair is left out, so no name was blank
  have hle := (List.dedup_sublist (orderedPairs schedule)).length_le
  have hlength : (orderedPairs schedule).length = schedule.length := by omega
  have hzip := @List.length_zip _ _ (schedule.filterMap Fixture.homeTeam)
    (schedule.filterMap Fixture.awayTeam)
  have hhomes := List.length_filterMap_le Fixture.homeTeam schedule
  have haways := List.length_filterMap_le Fixture.awayTeam schedule
  rw [← orderedPairs, hlength] at hzip
  have hhome : ∀ f ∈ schedule, f.homeTeam.isSome = true :=
    isSome_of_length_filterMap (by omega)
  have haway : ∀ f ∈ schedule, f.awayTeam.isSome = true :=
    isSome_of_length_filterMap (by omega)
  have hpairs : orderedPairs schedule = schedule.map Fixture.sides := by
    rw [orderedPairs, filterMap_name hhome, filterMap_name haway, List.zip_map']
    rfl
  have hmem (team : String) : team ∈ teamsOf schedule ↔
      ∃ f ∈ schedule, f.sides.1 = team ∨ f.sides.2 = team := by
    rw [teamsOf, List.mem_insertionSort, List.mem_dedup, List.mem_append, filterMap_name hhome,
      filterMap_name haway, List.mem_map, List.mem_map]
    constructor
    · rintro (⟨f, hf, rfl⟩ | ⟨f, hf, rfl⟩)
      · exact ⟨f, hf, .inl rfl⟩
      · exact ⟨f, hf, .inr rfl⟩
    · rintro ⟨f, hf, rfl | rfl⟩
      · exact .inl ⟨f, hf, rfl⟩
      · exact .inr ⟨f, hf, rfl⟩
  exact {
    named := fun f hf => ⟨hhome f hf, haway f hf⟩
    teams_nodup := (List.perm_insertionSort _ _).nodup_iff.mpr (List.nodup_dedup _)
    teams_length := hteams
    clubs := fun f hf => ⟨(hmem _).mpr ⟨f, hf, .inl rfl⟩, (hmem _).mpr ⟨f, hf, .inr rfl⟩⟩
    apart := fun f hf heq => by
      rw [List.countP_eq_zero] at hself
      exact hself f.sides (hpairs ▸ List.mem_map_of_mem hf) (decide_eq_true heq)
    met := by rw [← hpairs, List.card_toFinset, hunique] }

/-- Its pairs are all pairs of different clubs. -/
theorem DoubleRoundRobin.pairs_eq {teams : List String} (h : DoubleRoundRobin n teams schedule) :
    (schedule.map Fixture.sides).toFinset = teams.toFinset.offDiag := by
  refine Finset.eq_of_subset_of_card_le (fun pair hpair => ?_) ?_
  · obtain ⟨f, hf, rfl⟩ := List.mem_map.mp (List.mem_toFinset.mp hpair)
    rw [Finset.mem_offDiag, List.mem_toFinset, List.mem_toFinset]
    exact ⟨(h.clubs f hf).1, (h.clubs f hf).2, h.apart f hf⟩
  · rw [h.met, Finset.offDiag_card, List.toFinset_card_of_nodup h.teams_nodup, h.teams_length,
      Nat.mul_sub_one]

end Certificate

/-! ## The season an iteration plays -/

/-- A fixture with a score entered. -/
def Fixture.played (f : Fixture) (score : Int × Int) : Fixture :=
  { f with homeScore := some score.1, awayScore := some score.2, isComplete := some true }

/-- The season of an iteration: every fixture with the score of its column. -/
def playedOut (schedule : List Fixture) (sim : Simulation) (k : Nat) : List Fixture :=
  (schedule.zip sim.columns).map fun entry => entry.1.played (entry.2.at k)

@[simp] theorem recordedResult_played (f : Fixture) (score : Int × Int) :
    recordedResult (f.played score) = some score := rfl

@[simp] theorem sides_played (f : Fixture) (score : Int × Int) :
    (f.played score).sides = f.sides := rfl

section Iteration

variable {schedule : List Fixture} {teams group : List String} {n : Nat} {sim : Simulation}
  {k : Nat}

/-- The fixtures of a double round robin stay its fixtures when they are played. -/
theorem DoubleRoundRobin.mem_zip (h : DoubleRoundRobin n teams schedule)
    {entry : Fixture × ScoreColumn} (hentry : entry ∈ schedule.zip sim.columns) :
    entry.1 ∈ schedule ∧ entry.1.homeTeam.isSome = true ∧ entry.1.awayTeam.isSome = true := by
  have hmem := (List.of_mem_zip hentry).1
  exact ⟨hmem, h.named _ hmem⟩

/-- The table of a group's own fixtures is the table of its own scores. -/
theorem DoubleRoundRobin.miniTable_playedOut (h : DoubleRoundRobin n teams schedule) :
    miniTable (playedOut schedule sim k) group =
      miniScores (iterationScores schedule sim k) group := by
  unfold miniTable recordedTallies scopedFixtures miniScores iterationScores playedOut
  rw [List.filter_map, List.filter_map, List.foldl_map, List.foldl_map]
  have hscope : (schedule.zip sim.columns).filter ((fun f : Fixture => (recordedResult f).isSome &&
      f.homeTeam.any (· ∈ group) && f.awayTeam.any (· ∈ group)) ∘
        fun entry => entry.1.played (entry.2.at k)) =
      (schedule.zip sim.columns).filter ((fun entry : (String × String) × Int × Int =>
        entry.1.1 ∈ group && entry.1.2 ∈ group) ∘ fun entry =>
          ((Fixture.nameText entry.1.homeTeam, Fixture.nameText entry.1.awayTeam),
            entry.2.at k)) := by
    refine List.filter_congr fun entry hentry => ?_
    obtain ⟨-, hhome, haway⟩ := h.mem_zip hentry
    obtain ⟨home, hhome⟩ := Option.isSome_iff_exists.mp hhome
    obtain ⟨away, haway⟩ := Option.isSome_iff_exists.mp haway
    simp [Fixture.played, recordedResult, Fixture.complete, hhome, haway, Fixture.nameText]
  rw [hscope]
  rfl

/-- The fixtures of a group are those between its clubs. -/
theorem DoubleRoundRobin.mem_scopedFixtures (h : DoubleRoundRobin n teams schedule) {f : Fixture} :
    f ∈ scopedFixtures (playedOut schedule sim k) group ↔
      f ∈ playedOut schedule sim k ∧ f.sides.1 ∈ group ∧ f.sides.2 ∈ group := by
  rw [scopedFixtures, List.mem_filter]
  refine and_congr_right fun hf => ?_
  obtain ⟨entry, hentry, rfl⟩ := List.mem_map.mp hf
  obtain ⟨-, hhome, haway⟩ := h.mem_zip hentry
  obtain ⟨home, hhome⟩ := Option.isSome_iff_exists.mp hhome
  obtain ⟨away, haway⟩ := Option.isSome_iff_exists.mp haway
  simp [Fixture.played, recordedResult, Fixture.complete, hhome, haway, Fixture.nameText,
    Fixture.sides]

/-- **In a season played out every group has met.** -/
theorem DoubleRoundRobin.headToHeadComplete_playedOut (h : DoubleRoundRobin n teams schedule)
    (hcolumns : sim.columns.length = schedule.length) (hgroup : group.Nodup)
    (hsub : group ⊆ teams) : headToHeadComplete (playedOut schedule sim k) group = true := by
  rw [headToHeadComplete, Bool.or_eq_true, decide_eq_true_iff, decide_eq_true_iff]
  refine .inr ?_
  have hall : (playedOut schedule sim k).map Fixture.sides = schedule.map Fixture.sides := by
    rw [playedOut, List.map_map]
    show (schedule.zip sim.columns).map (Fixture.sides ∘ Prod.fst) = _
    rw [← List.map_map, List.map_fst_zip (Nat.le_of_eq hcolumns.symm)]
  -- as sets: the pairs of the group's own fixtures are the pairs within the group
  have hpairs : ((scopedFixtures (playedOut schedule sim k) group).map Fixture.sides).toFinset =
      group.toFinset.offDiag := by
    ext ⟨home, away⟩
    have hfull : (∃ f ∈ playedOut schedule sim k, f.sides = (home, away)) ↔
        home ∈ teams ∧ away ∈ teams ∧ home ≠ away := by
      rw [← List.mem_map, hall, ← List.mem_toFinset, h.pairs_eq, Finset.mem_offDiag,
        List.mem_toFinset, List.mem_toFinset]
    rw [List.mem_toFinset, List.mem_map, Finset.mem_offDiag, List.mem_toFinset, List.mem_toFinset]
    constructor
    · rintro ⟨f, hf, hsides⟩
      obtain ⟨hf, hhome, haway⟩ := h.mem_scopedFixtures.mp hf
      rw [hsides] at hhome haway
      exact ⟨hhome, haway, (hfull.mp ⟨f, hf, hsides⟩).2.2⟩
    · rintro ⟨hhome, haway, hne⟩
      obtain ⟨f, hf, hsides⟩ := hfull.mpr ⟨hsub hhome, hsub haway, hne⟩
      refine ⟨f, h.mem_scopedFixtures.mpr ⟨hf, ?_⟩, hsides⟩
      rw [hsides]
      exact ⟨hhome, haway⟩
  have hcard := congrArg Finset.card hpairs
  rw [List.card_toFinset, Finset.offDiag_card, List.toFinset_card_of_nodup hgroup,
    ← Nat.mul_sub_one] at hcard
  exact hcard

/-- The clubs of a season played out are the certificate's. -/
theorem DoubleRoundRobin.perm_tableTeams (h : DoubleRoundRobin n teams schedule) :
    (tableTeams (playedOut schedule sim k) teams).Perm teams := by
  refine (List.perm_ext_iff_of_nodup (List.nodup_dedup _) h.teams_nodup).mpr fun team => ?_
  rw [List.mem_dedup, List.mem_append]
  refine ⟨fun hteam => hteam.elim id fun hteam => ?_, .inl⟩
  obtain ⟨f, hf, hside⟩ := List.mem_flatMap.mp hteam
  obtain ⟨entry, hentry, rfl⟩ := List.mem_map.mp (List.mem_filter.mp hf).1
  obtain ⟨hhome, haway⟩ := h.clubs _ (h.mem_zip hentry).1
  simp only [List.mem_cons, List.not_mem_nil, or_false] at hside
  rcases hside with rfl | rfl
  · exact hhome
  · exact haway

/-- Forced results leave the clubs of a schedule as they are. -/
theorem DoubleRoundRobin.applied {asOf : Int} {forced : List String} {scenario : List Fixture}
    (h : DoubleRoundRobin n teams schedule)
    (happlied : List.Forall₂ (Applied asOf forced) schedule scenario) :
    DoubleRoundRobin n teams scenario := by
  have hnames : ∀ f f', Applied asOf forced f f' →
      f'.homeTeam = f.homeTeam ∧ f'.awayTeam = f.awayTeam := by
    rintro f f' (⟨-, rfl⟩ | ⟨-, -, -, _, _, -, -, rfl⟩)
    · exact ⟨rfl, rfl⟩
    · exact ⟨rfl, rfl⟩
  have hsides : ∀ f f', Applied asOf forced f f' → f'.sides = f.sides := by
    intro f f' hf
    rw [Fixture.sides, Fixture.sides, (hnames f f' hf).1, (hnames f f' hf).2]
  have hmap : scenario.map Fixture.sides = schedule.map Fixture.sides := by
    rw [← List.forall₂_eq_eq_eq, List.forall₂_map_left_iff, List.forall₂_map_right_iff]
    exact happlied.flip.imp fun f' f hf => hsides f f' hf
  have hsource : ∀ f' ∈ scenario, ∃ f ∈ schedule, Applied asOf forced f f' := fun f' hf' =>
    Lib.exists_of_mem_results happlied hf'
  exact {
    named := fun f' hf' => by
      obtain ⟨f, hf, hrow⟩ := hsource f' hf'
      rw [(hnames f f' hrow).1, (hnames f f' hrow).2]
      exact h.named f hf
    teams_nodup := h.teams_nodup
    teams_length := h.teams_length
    clubs := fun f' hf' => by
      obtain ⟨f, hf, hrow⟩ := hsource f' hf'
      rw [hsides f f' hrow]
      exact h.clubs f hf
    apart := fun f' hf' => by
      obtain ⟨f, hf, hrow⟩ := hsource f' hf'
      rw [hsides f f' hrow]
      exact h.apart f hf
    met := by rw [hmap, h.met] }

end Iteration

/-! ## The order -/

section Order

variable {host : Host} {frame : Frame} {req : OutlookRequest} {plan : Plan} {voice : Voice}
  {sim : Simulation}

/-- What is simulated is a double round robin. -/
theorem doubleRoundRobin_of_plan (hplan : planOutlook frame req = .ok (.simulate plan)) :
    DoubleRoundRobin plan.rule.expectedTeams plan.certificate.teams plan.schedule := by
  obtain ⟨_, -, h⟩ := Lib.bind_ok_iff.mp hplan
  obtain ⟨rule, -, h⟩ := Lib.bind_ok_iff.mp h
  obtain ⟨scenario, hscenario, h⟩ := Lib.bind_ok_iff.mp h
  obtain ⟨rfl, -, -, hlist⟩ := gate_eq_simulate (Except.ok.inj h)
  exact (doubleRoundRobin_of_certified hlist).applied (applyForcedResults_ok hscenario)

/-- **An iteration's tallies are those of the season it plays.** -/
theorem tallies_eq_tableTallies (hsim : voiceSimulation host plan req voice = .ok sim) (k : Nat) :
    sim.tallies k =
      tableTallies (playedOut plan.schedule sim k) plan.rule.competitionId (some plan.season) := by
  obtain ⟨-, -, htallies⟩ := voiceSimulation_spec hsim
  funext team
  rw [htallies k team]
  show _ = standingsTable _ _ _ team
  rw [standingsTable_apply, playedOut, List.map_map]
  rfl

/-- **Every iteration of a voice is ranked as the league table of the season it played would be**:
of any certified schedule, rule, split into played and sampled fixtures, and scores. -/
theorem rankedOrder_eq_standingsOrder (hplan : planOutlook frame req = .ok (.simulate plan))
    (hsim : voiceSimulation host plan req voice = .ok sim) (k : Nat) :
    rankedOrder plan.rule plan.certificate.teams (sim.tallies k)
        (iterationScores plan.schedule sim k) =
      standingsOrder plan.rule (playedOut plan.schedule sim k) (some plan.season)
        plan.certificate.teams := by
  have hrobin := doubleRoundRobin_of_plan hplan
  have hteams := (@DoubleRoundRobin.perm_tableTeams _ _ _ sim k hrobin).symm
  have hcolumns := (voiceSimulation_spec hsim).2.1.length_eq.symm
  unfold rankedOrder standingsOrder
  rw [tallies_eq_tableTallies hsim k]
  split_ifs
  · -- the simulation lists its groups by the overall key, the table by first appearance
    have hlisted := (perm_rank (overallCriteria plan.rule (tableTallies
      (playedOut plan.schedule sim k) plan.rule.competitionId (some plan.season)))
        plan.certificate.teams).trans hteams
    refine flatMap_pointsGroups hlisted fun points => ?_
    refine rankGroup_congr (perm_pointsGroup hlisted points) (fun _ => ?_) ?_
    · refine (hrobin.headToHeadComplete_playedOut hcolumns ?_ fun team hteam => ?_).symm
      · exact (hteams.nodup_iff.mp hrobin.teams_nodup).filter _
      · exact hteams.mem_iff.mpr (List.mem_filter.mp hteam).1
    · rw [← hrobin.miniTable_playedOut]
      exact miniTable_perm (List.Perm.refl _) (perm_pointsGroup hlisted points)
  · exact rank_eq_of_perm _ hteams

end Order

/-- A goalless matchday's season ends as its table does. -/
theorem rankedOrder_matchday : ∃ plan sim, planOutlook matchdayFrame kickoffRequest =
    .ok (.simulate plan) ∧ voiceSimulation goallessHost plan kickoffRequest .goals = .ok sim ∧
      rankedOrder plan.rule plan.certificate.teams (sim.tallies 0)
          (iterationScores plan.schedule sim 0) =
        standingsOrder plan.rule (playedOut plan.schedule sim 0) (some plan.season)
          plan.certificate.teams := by
  obtain ⟨plan, hplan, hrule⟩ := planOutlook_matchday
  have hrobin := doubleRoundRobin_of_plan hplan
  obtain ⟨-, -, -, happlied, -⟩ := planOutlook_simulate hplan
  rw [hrule, seasonSchedule_matchday] at happlied
  have hreadable : ∀ f ∈ plan.schedule, f.readable = true := by
    intro f hf
    obtain ⟨row, hrow, hfrom⟩ := Lib.exists_of_mem_results happlied hf
    rcases hfrom with ⟨-, rfl⟩ | ⟨-, -, -, home, away, hhome, haway, rfl⟩
    · -- a row of the matchday is not played yet
      obtain ⟨club, -, hrow⟩ := List.mem_flatMap.mp hrow
      obtain ⟨other, -, rfl⟩ := List.mem_map.mp hrow
      rfl
    · simp only [Fixture.readable, Fixture.complete, Option.getD_some, Bool.not_true,
        Bool.false_or, Option.any_some, fitsByte, Bool.and_eq_true, decide_eq_true_eq]
      omega
  obtain ⟨sim, hsim⟩ := @exists_voiceSimulation goallessHost plan kickoffRequest .goals
    hrobin.clubs hreadable
  exact ⟨plan, sim, hplan, hsim, rankedOrder_eq_standingsOrder hplan hsim 0⟩

end Golavo.Outlook
