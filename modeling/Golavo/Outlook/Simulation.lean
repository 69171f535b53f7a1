import Golavo.Forecast.Probabilities
import Golavo.Outlook.Planning
import Golavo.Outlook.ScoreSampling

/-! # Season simulations

Every voice plays the rest of a season many times: a fixture that counts as complete enters its
recorded score, any other one a score sampled from the voice's matrix. Fitting and the random draws
are taken as given. The main result says what a run that ends has entered
(`voiceSimulation_spec`). -/

namespace Golavo.Outlook

open Golavo.Lib (failIf orFail failIf_ok_iff bind_ok_iff)
open Golavo.Forecast (JointMatrix Outcome Triple)

/-! ## Sampling -/

/-- The fitted models of a competition at a cutoff, and the draws of `default_rng(seed)`. -/
structure Host where
  dixonColes : List Fixture → Int → String → String → JointMatrix
  ratings : List Fixture → Int → String → String → Triple
  uniform : Int → Nat → ℚ

/-- The three voices. -/
inductive Voice where
  | ratings
  | goals
  | baseline
  deriving DecidableEq, Repr

/-- The voices, in the order they are simulated in. -/
def Voice.all : List Voice := [.ratings, .goals, .baseline]

/-- The seed of a voice. -/
def Voice.seed (seed : Int) : Voice → Int
  | .ratings => seed
  | .goals => seed + 1
  | .baseline => seed + 2

/-- The matrix a voice samples a fixture from. -/
def voiceMatrix (host : Host) (plan : Plan) (asOf : Int) (voice : Voice) (home away : String) :
    Nat → Nat → ℚ :=
  let m := host.dixonColes plan.training asOf home away
  let matrix := fun i j => (m.mass i j).toRat
  match voice with
  | .goals => matrix
  | .ratings => conditionalScoreMatrix m.resolution matrix fun o =>
      ((host.ratings plan.training asOf home away).at o).toRat
  | .baseline => conditionalScoreMatrix m.resolution matrix fun _ => 1 / 3

/-! ## One voice -/

/-- Why a simulation raises. -/
inductive SimulationError where
  /-- A club of a fixture is none of the certificate's. -/
  | unknownClub
  /-- `int(...)` of a blank score. -/
  | blankScore
  /-- A score the arrays of eight bits cannot hold. -/
  | overflow
  deriving DecidableEq, Repr

/-- The scores of one fixture over all iterations: one recorded score, or a sampled one each. -/
inductive ScoreColumn where
  | recorded (score : Int × Int)
  | sampled (scores : List (Nat × Nat))
  deriving DecidableEq, Repr

/-- The score of an iteration. -/
def ScoreColumn.at (k : Nat) : ScoreColumn → Int × Int
  | .recorded score => score
  | .sampled scores => ((scores.getD k (0, 0)).1, (scores.getD k (0, 0)).2)

/-- Whether a column is sampled. -/
def ScoreColumn.isSampled : ScoreColumn → Bool
  | .recorded _ => false
  | .sampled _ => true

/-- The state of a simulation: how many draws are used up, a column for each fixture so far, and the
points, goals and wins of each iteration. The arrays of sixteen bits have room for what a club can
collect in a season of scores of eight bits. -/
structure Simulation where
  draws : Nat
  columns : List ScoreColumn
  tallies : Nat → Tallies

/-- Whether an array of eight bits has room for a score. -/
def fitsByte (z : Int) : Bool := -128 ≤ z && z ≤ 127

/-- A recorded score, put into an array of eight bits. -/
def scoreCell : Option Int → Except SimulationError Int
  | none => .error .blankScore
  | some z => if fitsByte z then .ok z else .error .overflow

/-- A fixture with its recorded score. -/
def Simulation.record (sim : Simulation) (score : Int × Int) : Simulation :=
  { sim with columns := sim.columns ++ [.recorded score] }

/-- A fixture with a score sampled for every iteration, which is entered into the tallies. -/
def Simulation.enter (sim : Simulation) (f : Fixture) (scores : List (Nat × Nat)) : Simulation :=
  { draws := sim.draws + scores.length
    columns := sim.columns ++ [.sampled scores]
    tallies := fun k => applyScore (sim.tallies k) (Fixture.nameText f.homeTeam)
      (Fixture.nameText f.awayTeam) ((ScoreColumn.sampled scores).at k) }

/-- One fixture of the simulation's loop. -/
def simulateFixture (host : Host) (plan : Plan) (req : OutlookRequest) (voice : Voice)
    (sim : Simulation) (f : Fixture) : Except SimulationError Simulation :=
  if f.complete then do
    let home ← scoreCell f.homeScore
    let away ← scoreCell f.awayScore
    .ok (sim.record (home, away))
  else
    let home := Fixture.nameText f.homeTeam
    let away := Fixture.nameText f.awayTeam
    let m := host.dixonColes plan.training req.asOf home away
    .ok (sim.enter f ((List.range req.iterations.toNat).map fun k =>
      sampleScore m.resolution (voiceMatrix host plan req.asOf voice home away)
        (host.uniform (voice.seed req.seed) (sim.draws + k))))

/-- The position of a club in the arrays has to exist. -/
def knownClub (teams : List String) (name : Option String) : Except SimulationError Unit :=
  failIf (Fixture.nameText name ∉ teams) .unknownClub

/-- The seasons one voice plays (`_voice_simulation`, before its ranking, which cannot fail). -/
def voiceSimulation (host : Host) (plan : Plan) (req : OutlookRequest) (voice : Voice) :
    Except SimulationError Simulation := do
  plan.schedule.forM fun f => knownClub plan.certificate.teams f.homeTeam
  plan.schedule.forM fun f => knownClub plan.certificate.teams f.awayTeam
  plan.schedule.foldlM (simulateFixture host plan req voice)
    ⟨0, [], fun _ => standingsTable plan.schedule plan.rule.competitionId plan.season⟩

/-! ## What a run enters -/

/-- Whether a fixture that counts as complete has a score the arrays can hold. -/
def Fixture.readable (f : Fixture) : Bool :=
  !f.complete || f.homeScore.any fitsByte && f.awayScore.any fitsByte

/-- What the column of a fixture has to be. -/
inductive Enters (iterations : Nat) (f : Fixture) : ScoreColumn → Prop where
  | recorded {home away : Int} (hcomplete : f.complete = true) (hhome : f.homeScore = some home)
      (haway : f.awayScore = some away) : Enters iterations f (.recorded (home, away))
  | sampled {scores : List (Nat × Nat)} (hcomplete : f.complete = false)
      (hlength : scores.length = iterations) : Enters iterations f (.sampled scores)

/-- What the score of a fixture in one iteration is worth to a club. -/
def columnWorth (k : Nat) (team : String) (entry : Fixture × ScoreColumn) : Tally :=
  Tally.worth (Fixture.nameText entry.1.homeTeam) (Fixture.nameText entry.1.awayTeam)
    (entry.2.at k) team

/-- What a sampled score is worth: recorded ones are in the table already. -/
def sampledWorth (k : Nat) (team : String) (entry : Fixture × ScoreColumn) : Tally :=
  if entry.2.isSampled then columnWorth k team entry else 0

theorem scoreCell_ok_iff {score : Option Int} {z : Int} :
    scoreCell score = .ok z ↔ score = some z ∧ fitsByte z = true := by
  cases score with
  | none => simp [scoreCell]
  | some x =>
      rw [scoreCell]
      split_ifs with hx
      · constructor
        · intro h
          obtain rfl := Except.ok.inj h
          exact ⟨rfl, hx⟩
        · rintro ⟨h, -⟩
          rw [Option.some.inj h]
      · constructor
        · intro h
          cases h
        · rintro ⟨h, hfits⟩
          exact absurd (Option.some.inj h ▸ hfits) hx

section Run

variable {host : Host} {plan : Plan} {req : OutlookRequest} {voice : Voice}

/-- One fixture: it is readable, its column is appended, and what it samples is entered. -/
theorem simulateFixture_ok {sim sim' : Simulation} {f : Fixture}
    (h : simulateFixture host plan req voice sim f = .ok sim') :
    f.readable = true ∧ ∃ column, Enters req.iterations.toNat f column ∧
      sim'.columns = sim.columns ++ [column] ∧
      ∀ k team, sim'.tallies k team = sim.tallies k team + sampledWorth k team (f, column) := by
  unfold simulateFixture at h
  split_ifs at h with hcomplete
  · obtain ⟨home, hhome, h⟩ := bind_ok_iff.mp h
    obtain ⟨away, haway, h⟩ := bind_ok_iff.mp h
    obtain rfl := Except.ok.inj h
    rw [scoreCell_ok_iff] at hhome haway
    refine ⟨?_, _, .recorded hcomplete hhome.1 haway.1, rfl, fun k team => (add_zero _).symm⟩
    rw [Fixture.readable, hhome.1, haway.1, Option.any_some, Option.any_some, hhome.2, haway.2]
    exact Bool.or_true _
  · obtain rfl := Except.ok.inj h
    rw [Bool.not_eq_true] at hcomplete
    refine ⟨?_, _, .sampled hcomplete (by rw [List.length_map, List.length_range]), rfl,
      fun k team => applyScore_apply _ _ _ _ _⟩
    rw [Fixture.readable, hcomplete]
    rfl

/-- A readable fixture does not stop the loop. -/
theorem exists_simulateFixture {sim : Simulation} {f : Fixture} (h : f.readable = true) :
    ∃ sim', simulateFixture host plan req voice sim f = .ok sim' := by
  unfold simulateFixture
  split_ifs with hcomplete
  · rw [Fixture.readable, hcomplete, Bool.not_true, Bool.false_or, Bool.and_eq_true,
      Option.any_eq_true, Option.any_eq_true] at h
    obtain ⟨⟨home, hhome, hfits⟩, away, haway, hfits'⟩ := h
    exact ⟨_, bind_ok_iff.mpr ⟨home, scoreCell_ok_iff.mpr ⟨hhome, hfits⟩,
      bind_ok_iff.mpr ⟨away, scoreCell_ok_iff.mpr ⟨haway, hfits'⟩, rfl⟩⟩⟩
  · exact ⟨_, rfl⟩

/-- The loop: every fixture is readable, has its column, and what is sampled is entered once. -/
theorem simulateFixtures_ok {fixtures : List Fixture} {sim sim' : Simulation}
    (h : fixtures.foldlM (simulateFixture host plan req voice) sim = .ok sim') :
    (∀ f ∈ fixtures, f.readable = true) ∧ ∃ columns,
      List.Forall₂ (Enters req.iterations.toNat) fixtures columns ∧
      sim'.columns = sim.columns ++ columns ∧
      ∀ k team, sim'.tallies k team =
        sim.tallies k team + ((fixtures.zip columns).map (sampledWorth k team)).sum := by
  induction fixtures generalizing sim with
  | nil =>
      obtain rfl := Except.ok.inj h
      exact ⟨fun _ hf => absurd hf List.not_mem_nil, [], .nil, (List.append_nil _).symm,
        fun k team => (add_zero _).symm⟩
  | cons f fixtures ih =>
      rw [List.foldlM_cons] at h
      obtain ⟨next, hnext, h⟩ := bind_ok_iff.mp h
      obtain ⟨hreadable, column, henters, hcolumn, htally⟩ := simulateFixture_ok hnext
      obtain ⟨hall, columns, hcolumns, happend, htallies⟩ := ih h
      refine ⟨List.forall_mem_cons.mpr ⟨hreadable, hall⟩, column :: columns,
        .cons henters hcolumns, ?_, fun k team => ?_⟩
      · rw [happend, hcolumn, List.append_assoc, List.singleton_append]
      · rw [htallies, htally, List.zip_cons_cons, List.map_cons, List.sum_cons, add_assoc]

theorem exists_simulateFixtures {fixtures : List Fixture} {sim : Simulation}
    (h : ∀ f ∈ fixtures, f.readable = true) :
    ∃ sim', fixtures.foldlM (simulateFixture host plan req voice) sim = .ok sim' := by
  induction fixtures generalizing sim with
  | nil => exact ⟨sim, rfl⟩
  | cons f fixtures ih =>
      obtain ⟨hf, hall⟩ := List.forall_mem_cons.mp h
      obtain ⟨next, hnext⟩ := @exists_simulateFixture host plan req voice sim f hf
      obtain ⟨sim', h'⟩ := @ih next hall
      exact ⟨sim', by rw [List.foldlM_cons]; exact bind_ok_iff.mpr ⟨next, hnext, h'⟩⟩

/-- Table and sampled scores together count every column once. -/
theorem recordedWorth_add_sampledWorth {iterations : Nat} {fixtures : List Fixture}
    {columns : List ScoreColumn} (h : List.Forall₂ (Enters iterations) fixtures columns) (k : Nat)
    (team : String) :
    (fixtures.map (recordedWorth team)).sum + ((fixtures.zip columns).map (sampledWorth k team)).sum
      = ((fixtures.zip columns).map (columnWorth k team)).sum := by
  induction h with
  | nil => exact add_zero 0
  | cons henters _ ih =>
      simp only [List.map_cons, List.sum_cons, List.zip_cons_cons, ← ih]
      rw [add_add_add_comm]
      congr 1
      cases henters with
      | recorded hcomplete hhome haway =>
          simp only [recordedWorth, recordedResult, hcomplete, hhome, haway, sampledWorth,
            ScoreColumn.isSampled, add_zero, columnWorth, ScoreColumn.at, Bool.false_eq_true,
            if_false]
      | sampled hcomplete _ =>
          simp only [recordedWorth, recordedResult, hcomplete, sampledWorth,
            ScoreColumn.isSampled, zero_add, if_true]

/-- **What a run enters**: every fixture of the schedule has one column, recorded where it counts as
complete and sampled elsewhere, and every iteration's tallies are the worth of its scores, each
once. -/
theorem voiceSimulation_spec {sim : Simulation}
    (h : voiceSimulation host plan req voice = .ok sim) :
    (∀ f ∈ plan.schedule, f.readable = true) ∧
      List.Forall₂ (Enters req.iterations.toNat) plan.schedule sim.columns ∧
      ∀ k team, sim.tallies k team =
        ((plan.schedule.zip sim.columns).map (columnWorth k team)).sum +
          ⟨pointAdjustment plan.rule.competitionId plan.season team, 0, 0, 0⟩ := by
  obtain ⟨_, _, h⟩ := bind_ok_iff.mp h
  obtain ⟨_, _, h⟩ := bind_ok_iff.mp h
  obtain ⟨hreadable, columns, hcolumns, happend, htallies⟩ := simulateFixtures_ok h
  obtain rfl : sim.columns = columns := happend
  refine ⟨hreadable, hcolumns, fun k team => ?_⟩
  rw [htallies]
  show standingsTable _ _ _ _ + _ = _
  rw [standingsTable_apply, ← recordedWorth_add_sampledWorth hcolumns k team, add_right_comm]

/-- A schedule of known clubs and readable fixtures is simulated. -/
theorem exists_voiceSimulation
    (hclubs : ∀ f ∈ plan.schedule, Fixture.nameText f.homeTeam ∈ plan.certificate.teams ∧
      Fixture.nameText f.awayTeam ∈ plan.certificate.teams)
    (hreadable : ∀ f ∈ plan.schedule, f.readable = true) :
    ∃ sim, voiceSimulation host plan req voice = .ok sim := by
  obtain ⟨sim, hsim⟩ := @exists_simulateFixtures host plan req voice plan.schedule
    ⟨0, [], fun _ => standingsTable plan.schedule plan.rule.competitionId plan.season⟩ hreadable
  have hhome : plan.schedule.forM (fun f => knownClub plan.certificate.teams f.homeTeam) =
      .ok () := Lib.forM_ok_iff.mpr fun f hf => failIf_ok_iff.mpr (not_not.mpr (hclubs f hf).1)
  have haway : plan.schedule.forM (fun f => knownClub plan.certificate.teams f.awayTeam) =
      .ok () := Lib.forM_ok_iff.mpr fun f hf => failIf_ok_iff.mpr (not_not.mpr (hclubs f hf).2)
  exact ⟨sim, bind_ok_iff.mpr ⟨(), hhome, bind_ok_iff.mpr ⟨(), haway, hsim⟩⟩⟩

end Run

end Golavo.Outlook
