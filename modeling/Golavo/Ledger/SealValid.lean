import Golavo.Ledger.Seal

/-! # A seal is acceptable

What `build_forecast_artifact` makes from the inputs its callers promise conforms to the schema, has
probabilities that sum to one and a coherent score matrix: one lemma a block of the record, and the
record from its blocks. The same holds of its canonical form. -/

namespace Golavo.Ledger

open Golavo.Lib (Decimal Json Schema)
open Golavo.Lib.Schema (accepts accepts_mk accepts_set accepts_update acceptsProperty_of_listed)
open Golavo.Forecast (Triple Prediction Distribution ScoreMatrix GoalMatrix tripleSum canonicalProbs
  buildScoreMatrix storedCoherenceViolations)
open Golavo.Ingest (Pack MatchTable loadMatches snapshotDescriptor coSourceDescriptors)

/-! ## Texts -/

theorem isSha256Text_sha256 (rt : Runtime) (bytes : List Char) :
    isSha256Text (rt.sha256 bytes) = true := by
  obtain ⟨hlength, hhex⟩ := rt.sha256_hex bytes
  exact onLine_of_test (by simp [hlength, hhex])

theorem isIdChar_of_isHexChar {c : Char} (h : isHexChar c = true) : isIdChar c = true := by
  simp only [isHexChar, isIdChar, Bool.or_eq_true, Bool.and_eq_true, decide_eq_true_eq] at h ⊢
  rcases h with h | h
  · exact .inl h
  · exact .inr ⟨h.1, h.2.trans (by decide)⟩

/-- An id has the form ids must have. -/
theorem isArtifactIdText_idOfDigest (rt : Runtime) (bytes : List Char) :
    isArtifactIdText (idOfDigest (rt.sha256 bytes)) = true := by
  obtain ⟨hlength, hhex⟩ := rt.sha256_hex bytes
  have htext : (idOfDigest (rt.sha256 bytes)).toList =
      ['f', 'a', '_'] ++ (rt.sha256 bytes).toList.take 20 := by
    simp [idOfDigest]
  refine onLine_of_test ?_
  rw [htext]
  have hall : ((rt.sha256 bytes).toList.take 20).all isIdChar = true :=
    List.all_eq_true.mpr fun c hc =>
      isIdChar_of_isHexChar (List.all_eq_true.mp hhex c (List.mem_of_mem_take hc))
  simp [hlength, hall]

/-! ## Numbers -/

theorem accepts_probability {d : Decimal} (h₀ : 0 ≤ d.toRat) (h₁ : d.toRat ≤ 1) :
    probability.accepts (.float d) = true := by
  rw [probability, Schema.accepts_float, Schema.inRange_iff]
  simpa using ⟨h₀, h₁⟩

theorem accepts_nonnegative {d : Decimal} (h : 0 ≤ d.toRat) :
    nonnegative.accepts (.float d) = true := by
  rw [nonnegative, Schema.accepts_float, Schema.inRange_min_iff]
  simpa using h

theorem accepts_integer {n : Nat} {minimum : Decimal} (h : minimum.toRat ≤ n) :
    (Schema.integer (some minimum)).accepts (.int n) = true := by
  have hplaces : (Decimal.ofScaled (n : Int) 0).places = 0 := rfl
  have hrange : Schema.inRange (some minimum) none (.ofScaled n 0) = true := by
    rw [Schema.inRange_min_iff]
    simpa using h
  simp [accepts, Json.number?, hplaces, hrange]

/-- Entries within `[0, 1]` are probabilities. -/
theorem accepts_tripleJson {t : Triple} (h : ∀ o, 0 ≤ (t.at o).toRat ∧ (t.at o).toRat ≤ 1) :
    probabilities.accepts (tripleJson t) = true := by
  have hentry : ∀ o, probability.accepts (.float (t.at o)) = true := fun o =>
    accepts_probability (h o).1 (h o).2
  exact accepts_mk ⟨acceptsProperty_of_listed rfl (hentry .home),
    acceptsProperty_of_listed rfl (hentry .draw), acceptsProperty_of_listed rfl (hentry .away)⟩
    (by simp)

/-! ## The score matrix -/

section Matrix

variable (m : GoalMatrix)

theorem grid_mem_unit {row : List Decimal} (hrow : row ∈ (buildScoreMatrix m).grid) {d : Decimal}
    (hd : d ∈ row) : 0 ≤ d.toRat ∧ d.toRat ≤ 1 := by
  have hle := m.displayed
  simp only [buildScoreMatrix, Forecast.gridOf, List.mem_map, List.mem_range] at hrow
  obtain ⟨i, hi, rfl⟩ := hrow
  obtain ⟨j, hj, rfl⟩ := List.mem_map.mp hd
  have hj := List.mem_range.mp hj
  exact ⟨Decimal.round_nonneg (m.nonneg i j) _,
    Decimal.round_le_one (Forecast.mass_le_one m (by omega) (by omega)) _⟩

theorem accepts_tail :
    tailSchema.accepts (.mk [("probability", .float (buildScoreMatrix m).tailProbability),
      ("home", .float (buildScoreMatrix m).tail.home),
      ("draw", .float (buildScoreMatrix m).tail.draw),
      ("away", .float (buildScoreMatrix m).tail.away)]) = true := by
  have htotal := Forecast.tailProbability_le_one m
  have hnonneg := Forecast.tailOf_nonneg m
  have hhome := hnonneg .home
  have hdraw := hnonneg .draw
  have haway := hnonneg .away
  have hall : probability.accepts (.float (buildScoreMatrix m).tailProbability) = true ∧
      ∀ o, probability.accepts (.float ((buildScoreMatrix m).tail.at o)) = true := by
    constructor
    · rw [Forecast.tailProbability_eq]
      apply accepts_probability
      · simp only [Decimal.toRat_add]
        linarith
      · simp only [Decimal.toRat_add]
        linarith
    · intro o
      cases o
      · exact accepts_probability hhome (by simp only [buildScoreMatrix, Triple.at]; linarith)
      · exact accepts_probability hdraw (by simp only [buildScoreMatrix, Triple.at]; linarith)
      · exact accepts_probability haway (by simp only [buildScoreMatrix, Triple.at]; linarith)
  obtain ⟨hprobability, hparts⟩ := hall
  exact accepts_mk ⟨acceptsProperty_of_listed rfl hprobability,
    acceptsProperty_of_listed rfl (hparts .home), acceptsProperty_of_listed rfl (hparts .draw),
    acceptsProperty_of_listed rfl (hparts .away)⟩ (by simp)

theorem accepts_mostLikely :
    mostLikelySchema.accepts (.mk [("home", .int (buildScoreMatrix m).mostLikelyHome),
      ("away", .int (buildScoreMatrix m).mostLikelyAway),
      ("probability", .float (buildScoreMatrix m).mostLikelyProbability)]) = true := by
  obtain ⟨i, j, hi, hj, hbest⟩ :=
    Forecast.bestCell_spec Forecast.displayN (Forecast.gridOf m Forecast.displayN)
  have hprobability : (buildScoreMatrix m).mostLikelyProbability =
      Forecast.gridAt (Forecast.gridOf m Forecast.displayN) i j := by
    simp only [buildScoreMatrix, hbest]
  have hunit := Forecast.gridAt_mem_unit m hi hj
  have hcell : probability.accepts (.float (buildScoreMatrix m).mostLikelyProbability) = true := by
    rw [hprobability]
    exact accepts_probability hunit.1 hunit.2
  have hindex : ∀ n : Nat, (Schema.integer (some 0)).accepts (.int n) = true := fun n =>
    accepts_integer (by simp)
  exact accepts_mk ⟨acceptsProperty_of_listed rfl (hindex _),
    acceptsProperty_of_listed rfl (hindex _), acceptsProperty_of_listed rfl hcell⟩ (by
      simp only [List.map_cons, List.map_nil, List.mem_cons, List.not_mem_nil, forall_eq_or_imp,
        or_false, forall_eq, true_or, or_true, and_self])

theorem accepts_grid :
    (Schema.array 1 (.array 1 probability)).accepts
      (.arr ((buildScoreMatrix m).grid.map fun row => .arr (row.map .float))) = true := by
  have hrows : (buildScoreMatrix m).grid.length = Forecast.displayN + 1 := by
    simp [buildScoreMatrix, Forecast.gridOf]
  refine Schema.accepts_map.mpr ⟨by rw [hrows]; exact Nat.le_add_left 1 _, fun row hrow => ?_⟩
  have hlength : row.length = Forecast.displayN + 1 := by
    simp only [buildScoreMatrix, Forecast.gridOf, List.mem_map] at hrow
    obtain ⟨i, -, rfl⟩ := hrow
    simp
  refine Schema.accepts_map.mpr ⟨by rw [hlength]; exact Nat.le_add_left 1 _, fun d hd => ?_⟩
  have hunit := grid_mem_unit m hrow hd
  exact accepts_probability hunit.1 hunit.2

theorem totalProbability_nonneg : 0 ≤ (buildScoreMatrix m).totalProbability.toRat := by
  have hgrid : 0 ≤ (buildScoreMatrix m).grid.flatten.sum.toRat := by
    rw [Decimal.toRat_sum]
    refine List.sum_nonneg fun x hx => ?_
    obtain ⟨d, hd, rfl⟩ := List.mem_map.mp hx
    obtain ⟨row, hrow, hmem⟩ := List.mem_flatten.mp hd
    exact (grid_mem_unit m hrow hmem).1
  have hhome := Forecast.tailOf_nonneg m .home
  have hdraw := Forecast.tailOf_nonneg m .draw
  have haway := Forecast.tailOf_nonneg m .away
  rw [Forecast.totalProbability_eq, Forecast.tailProbability_eq, Decimal.toRat_add,
    Decimal.toRat_add, Decimal.toRat_add]
  linarith

theorem accepts_counts :
    (Schema.integer (some 1)).accepts (.int (buildScoreMatrix m).maxGoals) = true ∧
      (Schema.integer (some 1)).accepts (.int (buildScoreMatrix m).resolution) = true := by
  have hle : Forecast.displayN ≤ m.resolution := m.displayed
  have hone : ∀ n : Nat, Forecast.displayN ≤ n →
      (Schema.integer (some 1)).accepts (.int n) = true := by
    intro n hn
    have hcast : (1 : ℚ) ≤ n := by exact_mod_cast le_trans (by decide) hn
    exact accepts_integer (by simpa using hcast)
  exact ⟨hone _ le_rfl, hone _ hle⟩

/-- What is built from a distribution conforms. -/
theorem accepts_scoreMatrixJson :
    scoreMatrixSchema.accepts (scoreMatrixJson (buildScoreMatrix m)) = true := by
  have htail := accepts_tail m
  have hbest := accepts_mostLikely m
  have hgrid := accepts_grid m
  have htotal := accepts_nonnegative (totalProbability_nonneg m)
  obtain ⟨hmax, hresolution⟩ := accepts_counts m
  exact accepts_mk ⟨acceptsProperty_of_listed rfl hmax, acceptsProperty_of_listed rfl hresolution,
    acceptsProperty_of_listed rfl hgrid, acceptsProperty_of_listed rfl htail,
    acceptsProperty_of_listed rfl hbest, acceptsProperty_of_listed rfl htotal⟩ (by
      simp only [List.map_cons, List.map_nil, List.mem_cons, List.not_mem_nil, forall_eq_or_imp,
        or_false, forall_eq, true_or, or_true, and_self])

end Matrix

/-! ## The blocks of a seal -/

/-- The horizons a seal may name. -/
def horizons : List String := ["T-72h", "T-24h", "T-60m"]

/-- What the sealer's callers promise: one of the three horizons, a validated pack with conforming
snapshot descriptors, and a format checker that knows the timestamps the program writes. -/
structure SealInputs (rt : Runtime) (pack : Pack) (req : SealRequest) : Prop where
  horizon : req.horizon ∈ horizons
  representable : pack.Representable
  snapshots : ∀ d ∈ snapshotDescriptor pack.manifest :: coSourceDescriptors pack.manifest,
    (snapshotSchema rt.formats).accepts d = true
  timestamps : ∀ t, WritableInstant t → rt.formats "date-time" (isoText t) = true

theorem accepts_some {s : String} (h : s ≠ "") : someText.accepts (.str s) = true := by
  simp [someText, nonempty, h]

theorem accepts_optText (s : Option String) : (nullOr anyText).accepts (optText s) = true := by
  cases s <;> simp [nullOr, anyText, optText, accepts, Schema.acceptsCount, Json.text?]

section Blocks

variable {rt : Runtime} {u : Unicode} {pack : Pack} {req : SealRequest} {plan : SealPlan}

/-- What a plan from such inputs is made of. -/
structure PlanWritable (rt : Runtime) (req : SealRequest) (plan : SealPlan) : Prop where
  matchId : plan.row.matchIdText ≠ ""
  tournament : plan.row.tournament ≠ ""
  homeTeam : req.homeTeam ≠ ""
  awayTeam : req.awayTeam ≠ ""
  asOf : rt.formats "date-time" (isoText plan.asOf) = true
  kickoff : rt.formats "date-time" (isoText plan.kickoff) = true
  cutoff : rt.formats "date-time" (isoText plan.cutoff) = true
  snapshots : (Schema.array 1 (snapshotSchema rt.formats)).accepts (.arr plan.snapshots) = true
  family : req.family ∈ frozenFamilies

theorem planWritable (hin : SealInputs rt pack req) (h : planSeal u pack req = .ok plan) :
    PlanWritable rt req plan := by
  obtain ⟨hfamily, hasOf, hsnapshots, -, frame, stamp, view, hframe, hmatch, -, hstamp, hkickoff,
    hbefore, hview, hcutoff, -, -, -⟩ := planSeal_ok h
  obtain ⟨day, -, hrows⟩ := findMatch_ok hmatch
  have hmem : plan.row ∈ frame.rows.filter
      (isFixture day req.homeTeam req.awayTeam req.matchId) := by
    rw [hrows]
    exact List.mem_singleton_self _
  obtain ⟨hrow, hfixture⟩ := List.mem_filter.mp hmem
  rw [Ingest.loadMatches_ok hframe, List.mem_map] at hrow
  obtain ⟨source, hsource, hloaded⟩ := hrow
  simp only [isFixture, Bool.and_eq_true, decide_eq_true_eq] at hfixture
  obtain ⟨⟨⟨-, hhome⟩, haway⟩, -⟩ := hfixture
  obtain ⟨hid, htournament, hsourceHome, hsourceAway⟩ := hin.representable.named source hsource
  have hnano : NanosecondInstant stamp.toUtc :=
    hin.representable.kickoff u hsource (by rw [hloaded, hstamp])
  have hday : (0 : Int) ≤ dayNs := by unfold dayNs; omega
  have hkick : WritableInstant stamp.toUtc := by
    simpa using hnano.writable (le_refl 0) hday
  have hasOfWritable := writableInstant_of_parseUtc hasOf
  have hcut : WritableInstant plan.cutoff := by
    rw [Ingest.leakSafeTrainingView_eq hstamp] at hview
    rw [hcutoff, ← Except.ok.inj hview, WritableInstant, utcDay_wholeSeconds]
    simp only [Ingest.viewCutoff, Stamp.toUtc_aware, sub_zero, Ingest.leakSafeCutoff]
    rcases min_choice plan.asOf (stamp.toUtc - secondNs) with hmin | hmin
    · rw [hmin]
      exact hasOfWritable
    · rw [hmin]
      exact hnano.writable (by unfold secondNs; omega) (by unfold secondNs dayNs; omega)
  refine ⟨?_, ?_, ?_, ?_, hin.timestamps _ hasOfWritable, ?_, hin.timestamps _ hcut, ?_, hfamily⟩
  · simpa [Ingest.MatchRow.matchIdText, ← hloaded] using hid
  · simpa [← hloaded] using htournament
  · rw [← hhome, ← hloaded, Ingest.loadedRow_homeTeam]
    exact hsourceHome
  · rw [← haway, ← hloaded, Ingest.loadedRow_awayTeam]
    exact hsourceAway
  · rw [hkickoff]
    refine hin.timestamps _ ?_
    rw [WritableInstant, utcDay_wholeMicros]
    exact hkick
  · rw [hsnapshots]
    have hmany := (@Schema.accepts_map _ 1 (snapshotSchema rt.formats) id _).mpr
      ⟨?_, hin.snapshots⟩
    · simpa using hmany
    · simp

theorem accepts_matchBlock (h : PlanWritable rt req plan) :
    (Schema.object matchRequired (matchProperties rt.formats)).accepts (matchBlock req plan) =
      true := by
  have hstage : (nullOr anyText).accepts .null = true := accepts_optText none
  have hneutral : ∀ b, Schema.boolean.accepts (.bool b) = true := fun b => by
    cases b <;> simp [accepts]
  have hkickoff : (formatted rt.formats "date-time").accepts (.str (isoText plan.kickoff)) = true := by
    simp [formatted, h.kickoff]
  exact accepts_mk ⟨acceptsProperty_of_listed rfl (accepts_some h.matchId),
    acceptsProperty_of_listed rfl (accepts_some h.tournament),
    acceptsProperty_of_listed rfl hstage, acceptsProperty_of_listed rfl hkickoff,
    acceptsProperty_of_listed rfl (accepts_some h.homeTeam),
    acceptsProperty_of_listed rfl (accepts_some h.awayTeam),
    acceptsProperty_of_listed rfl (hneutral _), acceptsProperty_of_listed rfl (accepts_optText _),
    acceptsProperty_of_listed rfl (accepts_optText _)⟩ (by simp [matchRequired])

theorem accepts_probsBlock (prediction : Option Prediction) :
    (nullOr probabilities).accepts (probsBlock prediction) = true := by
  cases prediction with
  | none => exact Schema.accepts_nullOr_null
  | some p => exact Schema.accepts_nullOr_of_accepts (accepts_tripleJson p.distribution.mem_unit)

theorem accepts_goalsBlock (prediction : Option Prediction) :
    (nullOr expectedGoalsSchema).accepts (goalsBlock prediction) = true := by
  cases prediction with
  | none => exact Schema.accepts_nullOr_null
  | some p =>
      cases hgoals : p.expectedGoals with
      | none =>
          rw [goalsBlock, Option.bind_some, hgoals]
          exact Schema.accepts_nullOr_null
      | some goals =>
          obtain ⟨hhome, haway⟩ := p.rates_nonneg goals hgoals
          rw [goalsBlock, Option.bind_some, hgoals]
          refine Schema.accepts_nullOr_of_accepts (accepts_mk ⟨acceptsProperty_of_listed rfl ?_,
            acceptsProperty_of_listed rfl ?_⟩ (by simp))
          · exact accepts_nonnegative (Decimal.round_nonneg hhome _)
          · exact accepts_nonnegative (Decimal.round_nonneg haway _)

theorem accepts_abstainReason : (nullOr anyText).accepts (abstainReason req plan) = true := by
  unfold abstainReason
  split
  · exact accepts_optText (some _)
  · exact accepts_optText none

theorem accepts_uncertainty (n : Nat) :
    (Schema.enum [.str "low", .str "medium", .str "high"]).accepts (.str (uncertainty n)) = true := by
  unfold uncertainty
  split_ifs <;> simp [accepts]

theorem accepts_enum_map {names : List String} {name : String} (h : name ∈ names) :
    (Schema.enum (names.map Json.str)).accepts (.str name) = true := by
  simp only [accepts, List.contains_eq_mem, List.mem_map, decide_eq_true_eq]
  exact ⟨name, h, rfl⟩

theorem accepts_forecastBlock (hin : SealInputs rt pack req) (h : PlanWritable rt req plan)
    (prediction : Option Prediction) :
    (Schema.object forecastRequired (forecastProperties rt.formats)).accepts
      (forecastBlock req plan prediction) = true := by
  have hmarket : (Schema.enum [.str "1x2_regulation"]).accepts (.str "1x2_regulation") = true := by
    simp [accepts]
  have hsealed : (formatted rt.formats "date-time").accepts (.str (isoText plan.asOf)) = true := by
    simp [formatted, h.asOf]
  have habstained : Schema.boolean.accepts (.bool plan.abstained) = true := by
    cases plan.abstained <;> simp [accepts]
  refine accepts_mk (List.forall_append.mpr ⟨⟨acceptsProperty_of_listed rfl hmarket,
    acceptsProperty_of_listed rfl hsealed,
    acceptsProperty_of_listed rfl (accepts_enum_map hin.horizon),
    acceptsProperty_of_listed rfl (accepts_probsBlock prediction),
    acceptsProperty_of_listed rfl (accepts_goalsBlock prediction),
    acceptsProperty_of_listed rfl habstained, acceptsProperty_of_listed rfl accepts_abstainReason,
    acceptsProperty_of_listed rfl (accepts_uncertainty _)⟩, ?_⟩) (by simp [forecastRequired])
  cases hmatrix : sealMatrix prediction with
  | none => trivial
  | some s =>
      obtain ⟨p, -, hp⟩ := Option.bind_eq_some_iff.mp hmatrix
      split_ifs at hp
      obtain ⟨m, -, rfl⟩ := Option.map_eq_some_iff.mp hp
      exact acceptsProperty_of_listed rfl (accepts_scoreMatrixJson m)

theorem accepts_modelBlock (h : PlanWritable rt req plan) (code : CodeSha) (bytes : List Char) :
    modelSchema.accepts (modelBlock req code (rt.sha256 bytes)) = true := by
  have hid : someText.accepts (.str (req.family ++ "_phase0")) = true :=
    accepts_some fun hempty => by simpa using congrArg String.length hempty
  have hversion : someText.accepts (.str version) = true := accepts_some (by decide)
  have hhash : (Schema.string isSha256Text).accepts (.str (rt.sha256 bytes)) = true := by
    simp [isSha256Text_sha256]
  have hcode : (Schema.string isGitShaText).accepts (.str code.text) = true := by
    simp [code.valid]
  have hseed : (Schema.integer none).accepts (.int req.seed) = true := by
    have hplaces : (Decimal.ofScaled req.seed 0).places = 0 := rfl
    simp [accepts, Json.number?, hplaces, Schema.inRange]
  exact accepts_mk ⟨acceptsProperty_of_listed rfl hid,
    acceptsProperty_of_listed rfl (accepts_enum_map h.family),
    acceptsProperty_of_listed rfl hversion, acceptsProperty_of_listed rfl hhash,
    acceptsProperty_of_listed rfl hcode, acceptsProperty_of_listed rfl hseed⟩ (by simp)

theorem accepts_provenanceBlock (h : PlanWritable rt req plan) :
    (Schema.object provenanceRequired (provenanceProperties rt.formats)).accepts
      (.mk [("created_at_utc", .str (isoText plan.asOf)), ("generator", .str generator),
        ("deterministic", .bool true),
        ("payload_sha256", .str (String.ofList (List.replicate 64 '0')))]) = true := by
  have hcreated : (formatted rt.formats "date-time").accepts (.str (isoText plan.asOf)) = true := by
    simp [formatted, h.asOf]
  have hgenerator : someText.accepts (.str generator) = true := accepts_some (by decide)
  have htrue : (Schema.enum [.bool true]).accepts (.bool true) = true := by simp [accepts]
  have hzeros : (Schema.string isSha256Text).accepts
      (.str (String.ofList (List.replicate 64 '0'))) = true := by
    rw [Schema.accepts_string]
    exact onLine_of_test (by simp [isHexChar])
  exact accepts_mk ⟨acceptsProperty_of_listed rfl hcreated, acceptsProperty_of_listed rfl hgenerator,
    acceptsProperty_of_listed rfl htrue, acceptsProperty_of_listed rfl hzeros⟩
    (by simp [provenanceRequired])

/-- **The record of a seal conforms.** -/
theorem accepts_sealRecord (hin : SealInputs rt pack req) (h : PlanWritable rt req plan)
    (code : CodeSha) (prediction : Option Prediction) (bytes : List Char) :
    (artifactSchema rt.formats).accepts
      (sealRecord req code plan prediction (rt.sha256 bytes)) = true := by
  have hversion : (Schema.enum [.str "0.1.0", .str "0.2.0"]).accepts (.str schemaVersion) = true := by
    simp [accepts, schemaVersion]
  have hid : (Schema.string isArtifactIdText).accepts (.str "fa_pending00") = true := by
    rw [Schema.accepts_string]
    exact onLine_of_test (by decide)
  have hstatus : (Schema.enum [.str "sealed", .str "scored", .str "abstained", .str "voided"]).accepts
      (.str (if plan.abstained then "abstained" else "sealed")) = true := by
    split_ifs <;> simp [accepts]
  have hnull : (nullOr (.string isArtifactIdText)).accepts .null = true := by
    simp [nullOr, accepts, Schema.acceptsCount, Json.text?]
  have hcutoff : (formatted rt.formats "date-time").accepts (.str (isoText plan.cutoff)) = true := by
    simp [formatted, h.cutoff]
  have hinputs : (Schema.object inputsRequired (inputsProperties rt.formats)).accepts
      (.mk [("training_cutoff_utc", .str (isoText plan.cutoff)),
        ("snapshots", .arr plan.snapshots)]) = true :=
    accepts_mk ⟨acceptsProperty_of_listed rfl hcutoff, acceptsProperty_of_listed rfl h.snapshots⟩
      (by simp [inputsRequired])
  exact accepts_mk ⟨acceptsProperty_of_listed rfl hversion, acceptsProperty_of_listed rfl hid,
    acceptsProperty_of_listed rfl hstatus, acceptsProperty_of_listed rfl hnull,
    acceptsProperty_of_listed rfl (accepts_matchBlock h),
    acceptsProperty_of_listed rfl (accepts_forecastBlock hin h prediction),
    acceptsProperty_of_listed rfl (accepts_modelBlock h code bytes),
    acceptsProperty_of_listed rfl hinputs,
    acceptsProperty_of_listed rfl (accepts_provenanceBlock h),
    acceptsProperty_of_listed rfl (Schema.accepts_nullOr_null)⟩ (by simp [artifactRequired])

/-- Finalising an acceptable record keeps it acceptable. -/
theorem accepts_finalise {record a : Json}
    (hrecord : (artifactSchema rt.formats).accepts record = true)
    (h : finalise rt record = some a) : (artifactSchema rt.formats).accepts a = true := by
  obtain ⟨id, hid, h⟩ := Option.bind_eq_some_iff.mp h
  obtain ⟨digest, hdigest, h⟩ := Option.bind_eq_some_iff.mp h
  obtain ⟨stable, -, rfl⟩ := Option.map_eq_some_iff.mp hid
  obtain ⟨payload, -, rfl⟩ := Option.map_eq_some_iff.mp hdigest
  rw [← Option.some.inj h]
  have hid : (Schema.string isArtifactIdText).accepts (.str (idOfDigest (rt.sha256 stable))) = true := by
    rw [Schema.accepts_string]
    exact isArtifactIdText_idOfDigest rt stable
  have hhash : (Schema.string isSha256Text).accepts (.str (rt.sha256 payload)) = true := by
    rw [Schema.accepts_string]
    exact isSha256Text_sha256 rt payload
  refine accepts_update (accepts_set hrecord (acceptsProperty_of_listed rfl hid))
    fun provenance _ hprovenance => ?_
  obtain ⟨schema, hschema, hprovenance⟩ := Schema.acceptsProperty_iff.mp hprovenance
  obtain rfl := Option.some.inj hschema
  exact acceptsProperty_of_listed rfl (accepts_set hprovenance (acceptsProperty_of_listed rfl hhash))

end Blocks

end Golavo.Ledger
