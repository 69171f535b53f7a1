import Golavo.Ledger.Resolution
import Golavo.Ledger.SealValid

/-! # Seal identity round trip

An artifact **round-trips** when its canonical bytes, written and read back, verify under the same
id with the same digest, and writing it again changes neither its file nor the audit log. Whatever
the sealer, the scorer and the voider make does. -/

namespace Golavo.Ledger

open Golavo.Lib (Decimal Json Schema CompleteLines bind_ok_iff orFail_ok_iff failIf_ok_iff
  wrapError_ok_iff failIf orFail)
open Golavo.Lib.Schema (accepts accepts_set accepts_update acceptsProperty acceptsProperty_of_listed
  get_of_required acceptsProperty_of_get)
open Golavo.Forecast (Triple Prediction Engine Distribution JointMatrix tripleSum canonicalProbs
  buildScoreMatrix storedCoherenceViolations)
open Golavo.Ingest (Pack)

/-! ## Rewritten probabilities -/

/-- Putting probabilities into an acceptable record keeps it acceptable. -/
theorem accepts_withProbs {formats : String → String → Bool} {a : Json}
    (h : (artifactSchema formats).accepts a = true) {t : Triple}
    (ht : ∀ o, 0 ≤ (t.at o).toRat ∧ (t.at o).toRat ≤ 1) :
    (artifactSchema formats).accepts (withProbs a t) = true := by
  refine accepts_update h fun forecast _ hforecast => ?_
  obtain ⟨schema, hschema, hforecast⟩ := Schema.acceptsProperty_iff.mp hforecast
  obtain rfl := Option.some.inj hschema
  exact acceptsProperty_of_listed rfl (accepts_set hforecast
    (acceptsProperty_of_listed rfl (Schema.accepts_nullOr_of_accepts (accepts_tripleJson ht))))

@[simp] theorem matrixOf_withProbs (a : Json) (t : Triple) : matrixOf (withProbs a t) = matrixOf a := by
  unfold matrixOf
  rw [withProbs, Json.get_update_self]
  cases a.get "forecast" with
  | none => rfl
  | some forecast =>
      simp only [Option.map_some, Option.bind_some]
      rw [Json.get_set_ne (by decide)]

/-! ## The forecast of a seal -/

/-- Probabilities that sum to one, with a matrix built from a distribution near them, are sound. -/
theorem soundForecast_of {a : Json} {t : Triple} (hprobs : probsOf a = some (tripleJson t))
    (hsum : (tripleSum t).toRat = 1)
    (hmatrix : ∀ stored, matrixOf a = some stored → ∃ m : JointMatrix,
      stored = scoreMatrixJson (buildScoreMatrix m) ∧
        ∀ o, |(m.outcomeMass o).toRat - (t.at o).toRat| ≤ 2 / 10 ^ 6) : SoundForecast a := by
  have htolerance : ¬ sumTolerance < (tripleSum t - 1).abs := by
    rw [Decimal.lt_iff, Decimal.toRat_abs, Decimal.toRat_sub, hsum, sumTolerance]
    simp
  rw [SoundForecast, hprobs]
  refine ⟨t, tripleOf_tripleJson t, htolerance, fun stored hstored => ?_⟩
  obtain ⟨m, rfl, hnear⟩ := hmatrix stored hstored
  exact ⟨buildScoreMatrix m, scoreMatrixOf_scoreMatrixJson _,
    Forecast.buildScoreMatrix_coherent m hnear⟩

/-- **An exact-score grid never fails its own load**: the record built from a joint matrix is
coherent with the written 1X2 probabilities of the same matrix, a record that carries both passes
the load-time checks once written canonically, and grid and tail keep the mass up to rounding. -/
theorem scoreGrid_coherent (m : JointMatrix) :
    storedCoherenceViolations (buildScoreMatrix m) (canonicalProbs m.outcomeProbabilities) = [] ∧
      (∀ a c, probsOf a = some (tripleJson m.outcomeProbabilities) →
        matrixOf a = some (scoreMatrixJson (buildScoreMatrix m)) → canonical a = some c →
          validateForecast c = .ok ()) ∧
      |((buildScoreMatrix m).grid.flatten.sum + (buildScoreMatrix m).tailProbability).toRat - 1| ≤
        67 * (1 / 2 / 10 ^ 9) ∧
      ∀ o, |(Forecast.storedMarginal (buildScoreMatrix m) o).toRat - (m.outcomeMass o).toRat| ≤
        65 * (1 / 2 / 10 ^ 9) := by
  have hnear := m.abs_outcomeMass_sub
  refine ⟨Forecast.buildScoreMatrix_coherent m hnear, fun a c hprobs hmatrix hc => ?_,
    Forecast.abs_total_sub_one m, Forecast.abs_storedMarginal_sub m⟩
  rw [canonical_of_some hprobs (tripleOf_tripleJson _)] at hc
  obtain rfl := Option.some.inj hc
  rw [validateForecast_ok_iff]
  refine soundForecast_of (probsOf_withProbs hprobs _) (Forecast.canonicalProbs_sum _)
    fun stored hstored => ⟨m, ?_, hnear⟩
  rw [matrixOf_withProbs, hmatrix] at hstored
  exact (Option.some.inj hstored).symm

/-- A record with nothing but a joint matrix and its probabilities. -/
def gridRecord (m : JointMatrix) : Json :=
  .mk [("forecast", .mk [("probs", tripleJson m.outcomeProbabilities),
    ("score_matrix", scoreMatrixJson (buildScoreMatrix m))])]

theorem scoreGrid_coherent_goalless :
    ∃ c, canonical (gridRecord Forecast.goallessMatrix) = some c ∧ validateForecast c = .ok () := by
  have hprobs : probsOf (gridRecord Forecast.goallessMatrix) =
      some (tripleJson Forecast.goallessMatrix.outcomeProbabilities) := by
    rw [probsOf, gridRecord, tripleJson]
    simp only [Json.get_mk, List.reverse_cons, List.reverse_nil, List.nil_append,
      Lib.Fields.getField]
    rfl
  have hmatrix : matrixOf (gridRecord Forecast.goallessMatrix) =
      some (scoreMatrixJson (buildScoreMatrix Forecast.goallessMatrix)) := by
    rw [matrixOf, gridRecord, scoreMatrixJson]
    simp only [Json.get_mk, List.reverse_cons, List.reverse_nil, List.nil_append,
      Lib.Fields.getField]
    rfl
  have hcanonical := canonical_of_some hprobs (tripleOf_tripleJson _)
  exact ⟨_, hcanonical, (scoreGrid_coherent Forecast.goallessMatrix).2.1 _ _ hprobs hmatrix hcanonical⟩

section Seal

variable {req : SealRequest} {plan : SealPlan} {prediction : Option Prediction} {a : Json}

theorem probsOf_seal (h : a.get "forecast" = some (forecastBlock req plan prediction)) :
    probsOf a = prediction.map fun p => tripleJson p.probs := by
  have hprobs : (forecastBlock req plan prediction).get "probs" = some (probsBlock prediction) := by
    unfold forecastBlock
    cases sealMatrix prediction <;> simp [Json.get_mk, Lib.Fields.getField]
  rw [probsOf, h, Option.bind_some, hprobs]
  cases prediction with
  | none => rfl
  | some p => simp [probsBlock, tripleJson, Json.mk]

theorem matrixOf_seal (h : a.get "forecast" = some (forecastBlock req plan prediction)) :
    matrixOf a = (sealMatrix prediction).map scoreMatrixJson := by
  have hmatrix : (forecastBlock req plan prediction).get "score_matrix" =
      (sealMatrix prediction).map scoreMatrixJson := by
    unfold forecastBlock
    cases sealMatrix prediction <;> simp [Json.get_mk, Lib.Fields.getField]
  rw [matrixOf, h, Option.bind_some, hmatrix]
  cases sealMatrix prediction with
  | none => rfl
  | some s => simp [scoreMatrixJson, Json.mk]

/-- The matrix a seal carries is built from the distribution its probabilities come from. -/
theorem mem_sealMatrix {p : Prediction} {stored : Json}
    (h : (sealMatrix (some p)).map scoreMatrixJson = some stored) :
    ∃ m : JointMatrix, stored = scoreMatrixJson (buildScoreMatrix m) ∧
      ∀ o, m.outcomeMass o = p.probs.at o := by
  obtain ⟨s, hs, rfl⟩ := Option.map_eq_some_iff.mp h
  rw [sealMatrix, Option.bind_some] at hs
  split_ifs at hs
  obtain ⟨m, hm, rfl⟩ := Option.map_eq_some_iff.mp hs
  refine ⟨m, rfl, fun o => ?_⟩
  rw [← p.outcomes m hm]
  cases o <;> rfl

/-- The forecast of a seal is sound, and so is its canonical form. -/
theorem soundForecast_seal (h : a.get "forecast" = some (forecastBlock req plan prediction)) :
    SoundForecast a ∧ ∀ c, canonical a = some c → SoundForecast c := by
  have hprobs := probsOf_seal h
  have hmatrix := matrixOf_seal h
  cases prediction with
  | none =>
      have hsound : SoundForecast a := by
        rw [SoundForecast, hprobs]
        exact hmatrix
      refine ⟨hsound, fun c hc => ?_⟩
      rw [canonical_of_none hprobs] at hc
      rwa [← Option.some.inj hc]
  | some p =>
      constructor
      · refine soundForecast_of hprobs p.distribution.sum_one fun stored hstored => ?_
        obtain ⟨m, hm, hmass⟩ := mem_sealMatrix (hmatrix ▸ hstored)
        refine ⟨m, hm, fun o => ?_⟩
        rw [hmass o, sub_self, abs_zero]
        positivity
      · intro c hc
        rw [canonical_of_some hprobs (tripleOf_tripleJson _)] at hc
        rw [← Option.some.inj hc]
        refine soundForecast_of (probsOf_withProbs hprobs _) (Forecast.canonicalProbs_sum _)
          fun stored hstored => ?_
        rw [matrixOf_withProbs] at hstored
        obtain ⟨m, hm, hmass⟩ := mem_sealMatrix (hmatrix ▸ hstored)
        refine ⟨m, hm, fun o => ?_⟩
        rw [hmass o, abs_sub_comm]
        exact p.distribution.abs_canonicalProbs_sub o

end Seal

/-! ## The audit event -/

/-- An acceptable artifact has an audit event, and the event has no probabilities to rewrite. -/
theorem auditEvent_of_accepts {formats : String → String → Bool} {a : Json}
    (h : (artifactSchema formats).accepts a = true) :
    ∃ event, auditEvent a = some event ∧ canonicalBytes event = some (Json.dumps event) := by
  obtain ⟨id, hid⟩ := get_of_required h (show "artifact_id" ∈ _ by decide)
  obtain ⟨status, hstatus⟩ := get_of_required h (show "status" ∈ _ by decide)
  obtain ⟨provenance, hprovenance⟩ := get_of_required h (show "provenance" ∈ _ by decide)
  have haccepts := acceptsProperty_of_get h hprovenance
  obtain ⟨schema, hschema, haccepts⟩ := Schema.acceptsProperty_iff.mp haccepts
  obtain rfl := Option.some.inj hschema
  obtain ⟨created, hcreated⟩ := get_of_required haccepts (show "created_at_utc" ∈ _ by decide)
  obtain ⟨digest, hdigest⟩ := get_of_required haccepts (show "payload_sha256" ∈ _ by decide)
  refine ⟨_, by rw [auditEvent, hid, hprovenance]; simp [hcreated, hdigest, hstatus]; rfl, ?_⟩
  rw [canonicalBytes, canonical_of_none, Option.map_some]
  simp [probsOf, Json.get_mk, Lib.Fields.getField]

/-! ## Round trips -/

/-- An artifact carries an id and a payload digest. -/
def Carries (a : Json) (id digest : String) : Prop :=
  a.get "artifact_id" = some (.str id) ∧
    (a.get "provenance").bind (·.get "payload_sha256") = some (.str digest)

/-- An artifact round-trips: its canonical bytes read back as an artifact with its id and digest; it
can be written wherever no valid rival holds its name; and once written it is loaded verified, and
writing it again changes neither file nor log. -/
def RoundTrips (rt : Runtime) (a : Json) : Prop :=
  ∃ id digest bytes c, Carries a id digest ∧ canonicalBytes a = some bytes ∧
    Json.loads (bytes ++ ['\n']) = some c ∧ Carries c id digest ∧ canonicalBytes c = some bytes ∧
    (∀ store, NoRival rt store id (bytes ++ ['\n']) →
      ∃ store', writeArtifact rt a store = .ok (id, store')) ∧
    ∀ store stem store', writeArtifact rt a store = .ok (stem, store') →
      stem = id ∧ store'.artifacts.read stem = some (bytes ++ ['\n']) ∧
        loadVerifiedArtifact rt store' stem = .ok c ∧
        (CompleteLines store.audit → CompleteLines store'.audit ∧
          writeArtifact rt a store' = .ok (stem, store'))

/-- **An identified artifact that is acceptable, and whose canonical form is, round-trips.** -/
theorem roundTrips_of {rt : Runtime} {a c : Json} {id digest : String} (hwf : a.WF)
    (hident : Identified rt a id digest) (hvalid : validateArtifact rt a = .ok ())
    (hc : canonical a = some c) (hcvalid : validateArtifact rt c = .ok ()) : RoundTrips rt a := by
  have hcident := hident.canonical hwf hc
  have hbytes : canonicalBytes a = some (Json.dumps c) := by rw [canonicalBytes, hc, Option.map_some]
  have hcbytes : canonicalBytes c = some (Json.dumps c) := by
    rw [canonicalBytes, canonical_idem hc, Option.map_some]
  have hloads := loads_canonicalBytes hwf hc
  obtain ⟨event, hevent, heventBytes⟩ := auditEvent_of_accepts (validateArtifact_ok_iff.mp hvalid).1
  have hline : (auditEvent a).bind canonicalBytes = some (Json.dumps event) := by
    rw [hevent, Option.bind_some, heventBytes]
  refine ⟨id, digest, Json.dumps c, c, ⟨hident.artifact_id, hident.payload⟩, hbytes, hloads,
    ⟨hcident.artifact_id, hcident.payload⟩, hcbytes, fun store hfree => ?_, ?_⟩
  · exact ⟨_, writeArtifact_of_free hvalid hident.artifact_id hbytes hline hfree⟩
  · intro store stem store' hwrite
    obtain ⟨-, hid, bytes, line, hbytes', hline', -, rfl⟩ := writeArtifact_ok hwrite
    obtain rfl := Json.str.inj (Option.some.inj (hident.artifact_id.symm.trans hid))
    obtain rfl := Option.some.inj (hbytes.symm.trans hbytes')
    obtain rfl := Option.some.inj (hline.symm.trans hline')
    have hread : (store.artifacts.write id (Json.dumps c ++ ['\n'])).read id =
        some (Json.dumps c ++ ['\n']) := Lib.Directory.read_write_self _ _ _
    refine ⟨rfl, hread, ?_, fun haudit => ⟨completeLines_appendAuditLine haudit _, ?_⟩⟩
    · rw [loadVerifiedArtifact]
      simp only [hread, Option.bind_some, hloads]
      have hverify : verifyArtifactIntegrity rt c (some id) = .ok c :=
        verifyArtifactIntegrity_ok_iff.mpr ⟨rfl, hcvalid, id, digest, hcident, by simp⟩
      rw [hverify]
      rfl
    · rw [writeArtifact_of_free hvalid hident.artifact_id hbytes hline]
      · rw [Lib.Directory.write_of_read hread,
          appendAuditLine_idem haudit (isBreak_of_canonicalBytes heventBytes)]
      · intro existing hexisting
        rw [hread] at hexisting
        exact .inl (Option.some.inj hexisting).symm

/-- A finalised record that is acceptable is identified. -/
theorem identified_of_accepts {rt : Runtime} {record a : Json} (hwf : record.WF)
    (h : finalise rt record = some a) (haccepts : (artifactSchema rt.formats).accepts a = true) :
    ∃ id digest, Identified rt a id digest := by
  obtain ⟨provenance, hprovenance⟩ := get_of_required haccepts (show "provenance" ∈ _ by decide)
  obtain ⟨schema, hschema, hblock⟩ :=
    Schema.acceptsProperty_iff.mp (acceptsProperty_of_get haccepts hprovenance)
  obtain rfl := Option.some.inj hschema
  have hobj := Schema.isObj_of_accepts hblock
  obtain ⟨id, hid, hfinal⟩ := Option.bind_eq_some_iff.mp h
  obtain ⟨digest, hdigest, hfinal⟩ := Option.bind_eq_some_iff.mp hfinal
  rw [← Option.some.inj hfinal, Json.get_update_self, Json.get_set_ne (by decide)] at hprovenance
  obtain ⟨original, horiginal, rfl⟩ := Option.map_eq_some_iff.mp hprovenance
  exact identified_finalise hwf horiginal (by simpa using hobj) h

/-! ## What the sealer makes -/

section Build

variable {rt : Runtime} {u : Unicode} {engine : Engine} {code : CodeSha} {pack : Pack}
  {req : SealRequest} {a : Json}

theorem buildForecastArtifact_ok (h : buildForecastArtifact rt u engine code pack req = .ok a) :
    ∃ plan bytes, planSeal u pack req = .ok plan ∧
      finalise rt (sealRecord req code plan (planPrediction engine req plan) (rt.sha256 bytes)) =
        some a := by
  obtain ⟨plan, hplan, h⟩ := bind_ok_iff.mp h
  obtain ⟨_, -, h⟩ := bind_ok_iff.mp h
  obtain ⟨hash, hhash, h⟩ := bind_ok_iff.mp h
  obtain ⟨bytes, -, rfl⟩ := Option.map_eq_some_iff.mp (orFail_ok_iff.mp hhash)
  exact ⟨plan, bytes, hplan, orFail_ok_iff.mp h⟩

theorem wf_descriptor (sourceId url upstreamRef retrieved sha256 license : String)
    (committed : Option String) :
    (Ingest.descriptor sourceId url upstreamRef retrieved sha256 license committed).WF := by
  refine Json.wf_mk fun field hfield => ?_
  rcases List.mem_append.mp hfield with hfield | hfield
  · simp only [List.mem_cons, List.not_mem_nil, or_false] at hfield
    rcases hfield with rfl | rfl | rfl | rfl | rfl | rfl | rfl <;> exact Json.wf_str _
  · split at hfield
    · split_ifs at hfield
      · simp at hfield
      · rw [List.mem_singleton.mp hfield]
        exact Json.wf_str _
    · simp at hfield

theorem wf_snapshots {plan : SealPlan} (h : planSeal u pack req = .ok plan) :
    (Json.arr plan.snapshots).WF := by
  obtain ⟨-, -, hsnapshots, -⟩ := planSeal_ok h
  rw [hsnapshots, Json.wf_arr]
  intro d hd
  rcases List.mem_cons.mp hd with rfl | hd
  · exact wf_descriptor _ _ _ _ _ _ _
  · obtain ⟨source, -, rfl⟩ := List.mem_map.mp hd
    exact wf_descriptor _ _ _ _ _ _ _

theorem wf_optText (s : Option String) : (optText s).WF := by
  cases s <;> exact trivial

theorem wf_forecastBlock (plan : SealPlan) (prediction : Option Prediction) :
    (forecastBlock req plan prediction).WF := by
  have hprobs : (probsBlock prediction).WF := by
    cases prediction with
    | none => exact trivial
    | some p => exact wf_tripleJson _
  have hgoals : (goalsBlock prediction).WF := by
    unfold goalsBlock
    split
    · exact Json.wf_mk (by simp)
    · exact trivial
  have hreason : (abstainReason req plan).WF := by
    unfold abstainReason
    split <;> exact trivial
  refine Json.wf_mk fun field hfield => ?_
  rcases List.mem_append.mp hfield with hfield | hfield
  · simp only [List.mem_cons, List.not_mem_nil, or_false] at hfield
    rcases hfield with rfl | rfl | rfl | rfl | rfl | rfl | rfl | rfl <;>
      first | exact trivial | exact hprobs | exact hgoals | exact hreason
  · split at hfield
    · rw [List.mem_singleton.mp hfield]
      exact wf_scoreMatrixJson _
    · simp at hfield

theorem wf_sealRecord {plan : SealPlan} (hplan : planSeal u pack req = .ok plan)
    (prediction : Option Prediction) (hash : String) :
    (sealRecord req code plan prediction hash).WF := by
  have hmatch : (matchBlock req plan).WF := by
    refine Json.wf_mk fun field hfield => ?_
    simp only [List.mem_cons, List.not_mem_nil, or_false] at hfield
    rcases hfield with rfl | rfl | rfl | rfl | rfl | rfl | rfl | rfl | rfl <;>
      first | exact trivial | exact wf_optText _
  have hforecast : (forecastBlock req plan prediction).WF := wf_forecastBlock plan prediction
  have hmodel : (modelBlock req code hash).WF := Json.wf_mk (by simp)
  have hsnapshots := wf_snapshots hplan
  refine Json.wf_mk fun field hfield => ?_
  simp only [List.mem_cons, List.not_mem_nil, or_false] at hfield
  rcases hfield with rfl | rfl | rfl | rfl | rfl | rfl | rfl | rfl | rfl | rfl
  · exact trivial
  · exact trivial
  · exact trivial
  · exact trivial
  · exact hmatch
  · exact hforecast
  · exact hmodel
  · refine Json.wf_mk fun field hfield => ?_
    simp only [List.mem_cons, List.not_mem_nil, or_false] at hfield
    rcases hfield with rfl | rfl
    · exact trivial
    · exact hsnapshots
  · exact Json.wf_mk (by simp)
  · exact trivial

theorem exists_finalise_seal {plan : SealPlan} (hplan : planSeal u pack req = .ok plan)
    (prediction : Option Prediction) (hash : String) :
    ∃ a, finalise rt (sealRecord req code plan prediction hash) = some a := by
  have hwf : (sealRecord req code plan prediction hash).WF := wf_sealRecord hplan prediction hash
  have hforecast : (sealRecord req code plan prediction hash).get "forecast" =
      some (forecastBlock req plan prediction) := by
    simp [sealRecord, Json.get_mk, Lib.Fields.getField]
  have hprobs := probsOf_seal hforecast
  cases prediction with
  | none => exact exists_finalise hwf (canonical_of_none hprobs)
  | some p => exact exists_finalise hwf (canonical_of_some hprobs (tripleOf_tripleJson _))

/-- The sealer goes through once its plan does and its matrix is coherent. -/
theorem buildForecastArtifact_total {plan : SealPlan} (hplan : planSeal u pack req = .ok plan)
    (hcoherent : sealViolations (planPrediction engine req plan) = []) :
    ∃ a, buildForecastArtifact rt u engine code pack req = .ok a := by
  have hparams : ∀ params : Json, paramsHash rt params =
      some (rt.sha256 (Json.dumps (.mk [("params", params)]))) := fun params => by
    rw [paramsHash, canonicalBytes, canonical_of_none, Option.map_some, Option.map_some]
    simp [probsOf, Json.get_mk, Lib.Fields.getField]
  obtain ⟨a, hfinal⟩ : ∃ a, finalise rt (sealRecord req code plan (planPrediction engine req plan)
      (rt.sha256 (Json.dumps
        (.mk [("params", sealParams (planPrediction engine req plan))])))) = some a :=
    exists_finalise_seal hplan _ _
  refine ⟨a, ?_⟩
  simp only [buildForecastArtifact, hplan, hcoherent, failIf, hparams, hfinal, orFail, bind,
    Except.bind, ne_eq, not_true_eq_false, if_false]

/-- The forecast block of what the sealer makes. -/
theorem get_forecast_build {plan : SealPlan} {prediction : Option Prediction} {hash : String}
    (h : finalise rt (sealRecord req code plan prediction hash) = some a) :
    a.get "forecast" = some (forecastBlock req plan prediction) := by
  rw [get_finalise h (by decide) (by decide)]
  simp [sealRecord, Json.get_mk, Lib.Fields.getField]

/-- **What the sealer makes from the inputs its callers promise is acceptable.** -/
theorem validateArtifact_build (hin : SealInputs rt pack req)
    (h : buildForecastArtifact rt u engine code pack req = .ok a) :
    validateArtifact rt a = .ok () := by
  obtain ⟨plan, bytes, hplan, hfinal⟩ := buildForecastArtifact_ok h
  have hrecord := accepts_sealRecord hin (planWritable hin hplan) code
    (planPrediction engine req plan) bytes
  exact validateArtifact_ok_iff.mpr ⟨accepts_finalise hrecord hfinal,
    (soundForecast_seal (get_forecast_build hfinal)).1⟩

/-- **What the sealer makes round-trips**, if it is acceptable at all. -/
theorem roundTrips_build (h : buildForecastArtifact rt u engine code pack req = .ok a)
    (hvalid : validateArtifact rt a = .ok ()) : RoundTrips rt a := by
  obtain ⟨plan, bytes, hplan, hfinal⟩ := buildForecastArtifact_ok h
  have hwf : (sealRecord req code plan (planPrediction engine req plan) (rt.sha256 bytes)).WF :=
    wf_sealRecord hplan _ _
  have haccepts := (validateArtifact_ok_iff.mp hvalid).1
  obtain ⟨id, digest, hident⟩ := identified_of_accepts hwf hfinal haccepts
  have hforecast := get_forecast_build hfinal
  have hsound := soundForecast_seal hforecast
  have hprobs := probsOf_seal hforecast
  cases hprediction : planPrediction engine req plan with
  | none =>
      rw [hprediction, Option.map_none] at hprobs
      exact roundTrips_of (wf_finalise hwf hfinal) hident hvalid (canonical_of_none hprobs) hvalid
  | some p =>
      rw [hprediction, Option.map_some] at hprobs
      have hc := canonical_of_some hprobs (tripleOf_tripleJson _)
      exact roundTrips_of (wf_finalise hwf hfinal) hident hvalid hc (validateArtifact_ok_iff.mpr
        ⟨accepts_withProbs haccepts p.distribution.canonical.mem_unit, hsound.2 _ hc⟩)

end Build

/-! ## What the scorer and the voider make -/

/-- What a file `_write_artifact` wrote reads back as. -/
def ReadBack (j : Json) : Prop :=
  ∃ original bytes, original.WF ∧ canonicalBytes original = some bytes ∧
    Json.loads (bytes ++ ['\n']) = some j

/-- What was written canonical reads back canonical. -/
theorem ReadBack.canonical_eq {j : Json} (h : ReadBack j) : j.WF ∧ canonical j = some j := by
  obtain ⟨original, bytes, hwf, hbytes, hloads⟩ := h
  obtain ⟨c, hc, rfl⟩ := Option.map_eq_some_iff.mp hbytes
  obtain rfl := Option.some.inj ((loads_canonicalBytes hwf hc).symm.trans hloads)
  exact ⟨wf_canonical hwf hc, canonical_idem hc⟩

/-- A record with the forecast of a canonical one is canonical. -/
theorem canonical_eq_self {j a : Json} (hj : canonical j = some j) (ha : a.WF)
    (h : a.get "forecast" = j.get "forecast") : canonical a = some a := by
  have hprobs : probsOf a = probsOf j := by rw [probsOf, probsOf, h]
  cases hp : probsOf j with
  | none => exact canonical_of_none (hprobs.trans hp)
  | some probs =>
      simp only [canonical, hp] at hj
      obtain ⟨t, ht, hself⟩ := Option.map_eq_some_iff.mp hj
      rw [canonical_of_some (hprobs.trans hp) ht]
      refine congrArg some (Json.update_eq_self ha fun forecast hforecast => ?_)
      have hget := congrArg (·.get "forecast") hself
      simp only [withProbs, Json.get_update_self, ← h, hforecast, Option.map_some] at hget
      exact Option.some.inj hget

section Successors

variable {rt : Runtime} {sealed : Json}

theorem wf_renewProvenance {artifact : Json} (h : artifact.WF) (created : Int) :
    (renewProvenance artifact created).WF :=
  Json.wf_update h _ fun _ hv => Json.wf_set (Json.wf_set hv (Json.wf_str _) _) (Json.wf_str _) _

theorem wf_evaluationBlock (rt : Runtime) (t : Triple) (scoredAt homeGoals awayGoals : Int) :
    (evaluationBlock rt t scoredAt homeGoals awayGoals).WF := by
  refine Json.wf_mk fun field hfield => ?_
  simp only [List.mem_cons, List.not_mem_nil, or_false] at hfield
  rcases hfield with rfl | rfl | rfl
  · exact Json.wf_mk (by simp)
  · exact trivial
  · exact Json.wf_mk (by simp)

theorem wf_scoreRecord (hsealed : sealed.WF) {resultSnapshot id : Json} (hsnapshot : resultSnapshot.WF)
    (hid : sealed.get "artifact_id" = some id) {snapshots : List Json}
    (hsnapshots : snapshotsOf sealed = some snapshots) (t : Triple)
    (newAnchor homeGoals awayGoals : Int) :
    (scoreRecord rt sealed resultSnapshot id t snapshots newAnchor homeGoals awayGoals).WF := by
  have hitems : (Json.arr (snapshots ++ [resultSnapshot])).WF := by
    unfold snapshotsOf at hsnapshots
    split at hsnapshots
    · rename_i items hitems
      obtain rfl := Option.some.inj hsnapshots
      obtain ⟨inputs, hinputs, hget⟩ := Option.bind_eq_some_iff.mp hitems
      have hold := Json.wf_arr.mp (Json.wf_get (Json.wf_get hsealed hinputs) hget)
      rw [Json.wf_arr]
      intro d hd
      rcases List.mem_append.mp hd with hd | hd
      · exact hold d hd
      · rw [List.mem_singleton.mp hd]
        exact hsnapshot
    · simp at hsnapshots
  refine wf_renewProvenance (Json.wf_set ?_ (wf_evaluationBlock _ _ _ _ _) _) _
  exact Json.wf_update (Json.wf_set (Json.wf_set hsealed (Json.wf_str _) _)
    (Json.wf_get hsealed hid) _) _ fun _ hv => Json.wf_set hv hitems _

/-- What a verdict adds to a seal is well formed. -/
def Verdict.WF : Verdict → Prop
  | .scored resultSnapshot _ _ => resultSnapshot.WF
  | .voided _ _ => True

/-- The record a successor is finalised from keeps the seal's forecast. -/
theorem record_of_successor {v : Verdict} {a : Json} (hsealed : sealed.WF) (hv : v.WF)
    (h : successor rt sealed v = some a) :
    ∃ record, record.WF ∧ record.get "forecast" = sealed.get "forecast" ∧
      finalise rt record = some a := by
  cases v with
  | scored resultSnapshot homeGoals awayGoals =>
      obtain ⟨newAnchor, t, id, snapshots, -, -, -, hid, hsnapshots, hfinal⟩ :=
        successor_scored_eq_some.mp h
      refine ⟨_, wf_scoreRecord hsealed hv hid hsnapshots t newAnchor homeGoals awayGoals, ?_,
        hfinal⟩
      rw [scoreRecord, renewProvenance, Json.get_update_ne (by decide), Json.get_set_ne (by decide),
        Json.get_update_ne (by decide), Json.get_set_ne (by decide), Json.get_set_ne (by decide)]
  | voided voidedAt reason =>
      obtain ⟨-, id, hid, hfinal⟩ := successor_voided_eq_some.mp h
      refine ⟨_, wf_renewProvenance (Json.wf_set (Json.wf_set (Json.wf_set hsealed (Json.wf_str _) _)
        (Json.wf_get hsealed hid) _) (Json.wf_str _) _) _, ?_, hfinal⟩
      rw [renewProvenance, Json.get_update_ne (by decide), Json.get_set_ne (by decide),
        Json.get_set_ne (by decide), Json.get_set_ne (by decide)]

/-- The successor of a canonical seal is well formed and canonical. -/
theorem canonical_successor {v : Verdict} {a : Json} (hsealed : ReadBack sealed) (hv : v.WF)
    (h : successor rt sealed v = some a) : a.WF ∧ canonical a = some a := by
  obtain ⟨hwf, hcanonical⟩ := hsealed.canonical_eq
  obtain ⟨record, hrecord, hforecast, hfinal⟩ := record_of_successor hwf hv h
  have ha := wf_finalise hrecord hfinal
  refine ⟨ha, canonical_eq_self hcanonical ha ?_⟩
  rw [get_finalise hfinal (by decide) (by decide), hforecast]

/-- A successor that can be written is identified. -/
theorem identified_successor {v : Verdict} {a : Json} (hsealed : ReadBack sealed) (hv : v.WF)
    (h : successor rt sealed v = some a) (hvalid : validateArtifact rt a = .ok ()) :
    ∃ id digest, Identified rt a id digest := by
  obtain ⟨record, hrecord, -, hfinal⟩ := record_of_successor hsealed.canonical_eq.1 hv h
  exact identified_of_accepts hrecord hfinal (validateArtifact_ok_iff.mp hvalid).1

/-- A successor of a canonical seal round-trips, if it can be written. -/
theorem roundTrips_successor {v : Verdict} {a : Json} {store store' : Store} {stem : String}
    (hsealed : ReadBack sealed) (hv : v.WF) (h : successor rt sealed v = some a)
    (hwrite : writeArtifact rt a store = .ok (stem, store')) : RoundTrips rt a := by
  obtain ⟨hvalid, -⟩ := writeArtifact_ok hwrite
  obtain ⟨id, digest, hident⟩ := identified_successor hsealed hv h hvalid
  obtain ⟨hwf, hself⟩ := canonical_successor hsealed hv h
  exact roundTrips_of hwf hident hvalid hself hvalid

/-- **What the scorer makes round-trips.** -/
theorem roundTrips_score (hsealed : ReadBack sealed) {resultSnapshot : Json}
    (hsnapshot : resultSnapshot.WF) {homeGoals awayGoals : Int} {store store' : Store}
    {stem : String}
    (h : scoreVerifiedSeal rt sealed resultSnapshot homeGoals awayGoals store = .ok (stem, store')) :
    ∃ a, writeArtifact rt a store = .ok (stem, store') ∧ RoundTrips rt a := by
  obtain ⟨a, ha, hwrite⟩ := successor_of_scoreVerifiedSeal h
  exact ⟨a, hwrite, roundTrips_successor hsealed (v := .scored resultSnapshot _ _) hsnapshot ha
    hwrite⟩

/-- **What the voider makes round-trips.** -/
theorem roundTrips_void {u : Unicode} {file voidedAtUtc reason : String} {store store' : Store}
    (hsealed : ∀ text, store.artifacts.read file = some text →
      ∃ j, Json.loads text = some j ∧ ReadBack j) {stem : String}
    (h : voidForecast rt u file voidedAtUtc reason store = .ok (stem, store')) :
    ∃ a, writeArtifact rt a store = .ok (stem, store') ∧ RoundTrips rt a := by
  obtain ⟨sealed, voidedAt, a, hload, -, ha, hwrite⟩ := successor_of_voidForecast h
  have hread : ReadBack sealed := by
    obtain ⟨⟨text, htext, hjson⟩, -⟩ := loadVerifiedArtifact_ok hload
    obtain ⟨j, hj, hreadBack⟩ := hsealed text htext
    rwa [Option.some.inj (hjson.symm.trans hj)]
  exact ⟨a, hwrite, roundTrips_successor hread (v := .voided voidedAt _) trivial ha hwrite⟩

end Successors

end Golavo.Ledger
