import Golavo.Ledger.RoundTrip

/-! # A successor is acceptable

Scoring or voiding an acceptable seal gives an acceptable record, so a resolution fails only for a
reason the operation itself names: a seal that is not open, a snapshot that is not newer, a score
that is no score, an empty reason, or a rival file. -/

namespace Golavo.Ledger

open Golavo.Lib (Decimal Json Schema CompleteLines bind_ok_iff orFail_ok_iff failIf_ok_iff
  wrapError_ok_iff failIf orFail wrapError)
open Golavo.Lib.Schema (accepts accepts_mk accepts_set accepts_update acceptsProperty
  acceptsProperty_of_listed get_of_required acceptsProperty_of_get)
open Golavo.Forecast (Triple Outcome)

/-! ## The evaluation -/

/-- What `float` reads of an acceptable probability is one. -/
theorem mem_unit_of_accepts {j : Json} {d : Decimal} (h : probability.accepts j = true)
    (hd : floatOf j = some d) : 0 ≤ d.toRat ∧ d.toRat ≤ 1 := by
  have hrange : ∀ e, j.number? = some e → 0 ≤ e.toRat ∧ e.toRat ≤ 1 := by
    intro e he
    simp only [probability, accepts, he, Option.any_some, Schema.inRange_iff] at h
    simpa using h
  cases j with
  | int z => exact hrange d (by simpa [Json.number?, floatOf] using hd)
  | float e => exact hrange d (by simpa [Json.number?, floatOf] using hd)
  | _ => simp [probability, accepts, Json.number?] at h

/-- The probabilities of an acceptable record lie within `[0, 1]`. -/
theorem tripleOf_mem_unit {formats : String → String → Bool} {a probs : Json} {t : Triple}
    (h : (artifactSchema formats).accepts a = true) (hprobs : probsOf a = some probs)
    (ht : tripleOf probs = some t) (o : Outcome) : 0 ≤ (t.at o).toRat ∧ (t.at o).toRat ≤ 1 := by
  obtain ⟨forecast, hforecast, hget⟩ := Option.bind_eq_some_iff.mp hprobs
  obtain ⟨schema, hschema, hblock⟩ :=
    Schema.acceptsProperty_iff.mp (acceptsProperty_of_get h hforecast)
  obtain rfl := Option.some.inj hschema
  have hvalue : forecast.get "probs" = some probs ∧ probs ≠ .null := by
    split at hget
    · cases hget
    · rename_i hnull
      refine ⟨hget, fun hprobs => hnull ?_⟩
      rw [← hprobs, hget]
  obtain ⟨schema, hschema, haccepts⟩ :=
    Schema.acceptsProperty_iff.mp (acceptsProperty_of_get hblock hvalue.1)
  obtain rfl := Option.some.inj hschema
  have htriple : probabilities.accepts probs = true :=
    (Schema.accepts_nullOr haccepts).resolve_left hvalue.2
  have hentry : ∀ key d, Lib.Fields.getField key tripleProperties = some probability →
      (probs.get key).bind floatOf = some d → 0 ≤ d.toRat ∧ d.toRat ≤ 1 := by
    intro key d hlisted hd
    obtain ⟨value, hvalue, hd⟩ := Option.bind_eq_some_iff.mp hd
    obtain ⟨schema, hschema, haccepts⟩ :=
      Schema.acceptsProperty_iff.mp (acceptsProperty_of_get htriple hvalue)
    obtain rfl := Option.some.inj (hlisted.symm.trans hschema)
    exact mem_unit_of_accepts haccepts hd
  obtain ⟨home, hhome, ht⟩ := Option.bind_eq_some_iff.mp ht
  obtain ⟨draw, hdraw, ht⟩ := Option.bind_eq_some_iff.mp ht
  obtain ⟨away, haway, ht⟩ := Option.bind_eq_some_iff.mp ht
  obtain rfl := Option.some.inj ht
  cases o
  · exact hentry "home" home rfl hhome
  · exact hentry "draw" draw rfl hdraw
  · exact hentry "away" away rfl haway

theorem brier_nonneg (t : Triple) (o : Outcome) : 0 ≤ (brier t o).toRat := by
  simp only [brier, Decimal.toRat_add, Decimal.toRat_mul]
  exact add_nonneg (add_nonneg (mul_self_nonneg _) (mul_self_nonneg _)) (mul_self_nonneg _)

theorem accepts_evaluationBlock {rt : Runtime} {t : Triple}
    (ht : ∀ o, 0 ≤ (t.at o).toRat ∧ (t.at o).toRat ≤ 1) {scoredAt : Int}
    (hscored : rt.formats "date-time" (isoText scoredAt) = true) {homeGoals awayGoals : Int}
    (hhome : 0 ≤ homeGoals) (haway : 0 ≤ awayGoals) :
    (evaluationSchema rt.formats).accepts
      (evaluationBlock rt t scoredAt homeGoals awayGoals) = true := by
  have hgoals : ∀ goals : Int, 0 ≤ goals → (Schema.integer (some 0)).accepts (.int goals) = true := by
    intro goals hgoals
    obtain ⟨n, rfl⟩ := Int.eq_ofNat_of_zero_le hgoals
    exact accepts_integer (by simp)
  have houtcome : (Schema.enum [.str "home", .str "draw", .str "away"]).accepts
      (.str (outcomeOfGoals homeGoals awayGoals).key) = true := by
    cases outcomeOfGoals homeGoals awayGoals <;> simp [accepts, Outcome.key]
  obtain ⟨hzero, hone⟩ := ht (outcomeOfGoals homeGoals awayGoals)
  have hlog : nonnegative.accepts (.float ((rt.negLog
      (if t.at (outcomeOfGoals homeGoals awayGoals) < logFloor then logFloor
        else t.at (outcomeOfGoals homeGoals awayGoals))).round 6)) = true := by
    refine accepts_nonnegative (Decimal.round_nonneg (rt.negLog_nonneg _ ?_) _)
    split_ifs
    · rw [logFloor, Decimal.toRat_ofScaled]
      norm_num
    · exact hone
  have hbrier := accepts_nonnegative (Decimal.round_nonneg
    (brier_nonneg t (outcomeOfGoals homeGoals awayGoals)) 6)
  have hassigned := accepts_probability (Decimal.round_nonneg hzero 6) (Decimal.round_le_one hone 6)
  have hactual : actualSchema.accepts (.mk [("home_goals", .int homeGoals),
      ("away_goals", .int awayGoals), ("outcome", .str (outcomeOfGoals homeGoals awayGoals).key)]) =
      true :=
    accepts_mk ⟨acceptsProperty_of_listed rfl (hgoals _ hhome),
      acceptsProperty_of_listed rfl (hgoals _ haway), acceptsProperty_of_listed rfl houtcome⟩
      (by simp)
  have hscoredAt : (formatted rt.formats "date-time").accepts (.str (isoText scoredAt)) = true := by
    simp [formatted, hscored]
  exact accepts_mk ⟨acceptsProperty_of_listed rfl hactual, acceptsProperty_of_listed rfl hscoredAt,
    acceptsProperty_of_listed rfl (accepts_mk ⟨acceptsProperty_of_listed rfl hlog,
      acceptsProperty_of_listed rfl hbrier, acceptsProperty_of_listed rfl hassigned⟩ (by simp))⟩
    (by simp)

/-! ## The records -/

section Records

variable {rt : Runtime} {sealed : Json} (h : (artifactSchema rt.formats).accepts sealed = true)

include h

/-- The id of an acceptable artifact may be named as superseded. -/
theorem accepts_supersedes {id : Json} (hid : sealed.get "artifact_id" = some id) :
    (nullOr (.string isArtifactIdText)).accepts id = true := by
  obtain ⟨schema, hschema, haccepts⟩ := Schema.acceptsProperty_iff.mp (acceptsProperty_of_get h hid)
  obtain rfl := Option.some.inj hschema
  have hnull : id ≠ .null := by
    rintro rfl
    simp [accepts, Json.text?] at haccepts
  simp only [nullOr, accepts, Schema.acceptsCount] at haccepts ⊢
  simp [hnull, haccepts]

theorem accepts_renewProvenance {created : Int}
    (hcreated : rt.formats "date-time" (isoText created) = true) :
    (artifactSchema rt.formats).accepts (renewProvenance sealed created) = true := by
  have hzeros : (Schema.string isSha256Text).accepts
      (.str (String.ofList (List.replicate 64 '0'))) = true := by
    rw [Schema.accepts_string]
    exact onLine_of_test (by simp [isHexChar])
  have htime : (formatted rt.formats "date-time").accepts (.str (isoText created)) = true := by
    simp [formatted, hcreated]
  refine accepts_update h fun provenance _ hprovenance => ?_
  obtain ⟨schema, hschema, hprovenance⟩ := Schema.acceptsProperty_iff.mp hprovenance
  obtain rfl := Option.some.inj hschema
  exact acceptsProperty_of_listed rfl (accepts_set (accepts_set hprovenance
    (acceptsProperty_of_listed rfl htime)) (acceptsProperty_of_listed rfl hzeros))

theorem accepts_status {status : String} (hstatus : status ∈ ["sealed", "scored", "abstained", "voided"]) :
    (artifactSchema rt.formats).accepts (sealed.set "status" (.str status)) = true :=
  accepts_set h (acceptsProperty_of_listed rfl (accepts_enum_map hstatus))

theorem accepts_scoreRecord {resultSnapshot id : Json} {snapshots : List Json}
    (hid : sealed.get "artifact_id" = some id) (hsnapshots : snapshotsOf sealed = some snapshots)
    (hsnapshot : (snapshotSchema rt.formats).accepts resultSnapshot = true) {t : Triple}
    (ht : ∀ o, 0 ≤ (t.at o).toRat ∧ (t.at o).toRat ≤ 1) {newAnchor : Int}
    (htime : rt.formats "date-time" (isoText newAnchor) = true) {homeGoals awayGoals : Int}
    (hhome : 0 ≤ homeGoals) (haway : 0 ≤ awayGoals) :
    (artifactSchema rt.formats).accepts
      (scoreRecord rt sealed resultSnapshot id t snapshots newAnchor homeGoals awayGoals) = true := by
  have hitems : (Schema.array 1 (snapshotSchema rt.formats)).accepts
      (.arr (snapshots ++ [resultSnapshot])) = true := by
    unfold snapshotsOf at hsnapshots
    split at hsnapshots
    · rename_i items hitems
      obtain rfl := Option.some.inj hsnapshots
      obtain ⟨inputs, hinputs, hget⟩ := Option.bind_eq_some_iff.mp hitems
      obtain ⟨schema, hschema, hblock⟩ :=
        Schema.acceptsProperty_iff.mp (acceptsProperty_of_get h hinputs)
      obtain rfl := Option.some.inj hschema
      obtain ⟨schema, hschema, hold⟩ :=
        Schema.acceptsProperty_iff.mp (acceptsProperty_of_get hblock hget)
      obtain rfl := Option.some.inj hschema
      simp only [accepts, Bool.and_eq_true, List.all_eq_true, decide_eq_true_eq,
        List.length_append, List.length_singleton] at hold ⊢
      refine ⟨by omega, fun d hd => ?_⟩
      rcases List.mem_append.mp hd with hd | hd
      · exact hold.2 d hd
      · rw [List.mem_singleton.mp hd]
        exact hsnapshot
    · simp at hsnapshots
  have hstatus := accepts_status h (show "scored" ∈ _ by simp)
  have hsupersedes := accepts_set hstatus
    (@acceptsProperty_of_listed _ "supersedes" _ id rfl (accepts_supersedes h hid))
  have hinputs : (artifactSchema rt.formats).accepts
      (((sealed.set "status" (.str "scored")).set "supersedes" id).update "inputs"
        (·.set "snapshots" (.arr (snapshots ++ [resultSnapshot])))) = true := by
    refine accepts_update hsupersedes fun inputs _ hblock => ?_
    obtain ⟨schema, hschema, hblock⟩ := Schema.acceptsProperty_iff.mp hblock
    obtain rfl := Option.some.inj hschema
    exact acceptsProperty_of_listed rfl (accepts_set hblock (acceptsProperty_of_listed rfl hitems))
  exact accepts_renewProvenance (accepts_set hinputs (acceptsProperty_of_listed rfl
    (Schema.accepts_nullOr_of_accepts (accepts_evaluationBlock ht htime hhome haway)))) htime

theorem accepts_voidRecord {id : Json} (hid : sealed.get "artifact_id" = some id) {voidedAt : Int}
    (htime : rt.formats "date-time" (isoText voidedAt) = true) {reason : String} (hreason : reason ≠ "") :
    (artifactSchema rt.formats).accepts (voidRecord sealed id voidedAt reason) = true := by
  have htext : (nullOr someText).accepts (.str reason) = true := by
    have hsome := accepts_some hreason
    simp only [nullOr, accepts, Schema.acceptsCount, someText] at hsome ⊢
    simp [hsome]
  have hstatus := accepts_status h (show "voided" ∈ _ by simp)
  have hsupersedes := accepts_set hstatus
    (@acceptsProperty_of_listed _ "supersedes" _ id rfl (accepts_supersedes h hid))
  exact accepts_renewProvenance (accepts_set hsupersedes (acceptsProperty_of_listed rfl htext)) htime

end Records

/-! ## Resolutions go through -/

section Resolve

variable {rt : Runtime} {sealed : Json}

theorem snapshotsOf_of_valid (hvalid : validateArtifact rt sealed = .ok ()) :
    ∃ snapshots, snapshotsOf sealed = some snapshots := by
  have haccepts := (validateArtifact_ok_iff.mp hvalid).1
  obtain ⟨inputs, hinputs⟩ := get_of_required haccepts (show "inputs" ∈ _ by decide)
  obtain ⟨schema, hschema, hblock⟩ :=
    Schema.acceptsProperty_iff.mp (acceptsProperty_of_get haccepts hinputs)
  obtain rfl := Option.some.inj hschema
  obtain ⟨items, hitems⟩ := get_of_required hblock (show "snapshots" ∈ _ by decide)
  obtain ⟨schema, hschema, harray⟩ :=
    Schema.acceptsProperty_iff.mp (acceptsProperty_of_get hblock hitems)
  obtain rfl := Option.some.inj hschema
  cases items with
  | arr xs => exact ⟨xs, by rw [snapshotsOf, hinputs, Option.bind_some, hitems]⟩
  | _ => simp [accepts] at harray

/-- A verdict an open seal takes: a conforming, newer result with a score, or a reason. -/
def Verdict.Conforming (rt : Runtime) (sealed : Json) : Verdict → Prop
  | .scored resultSnapshot homeGoals awayGoals =>
      (snapshotSchema rt.formats).accepts resultSnapshot = true ∧ 0 ≤ homeGoals ∧ 0 ≤ awayGoals ∧
        ∃ newAnchor, scoreSnapshotAnchor sealed resultSnapshot = .ok newAnchor ∧
          rt.formats "date-time" (isoText newAnchor) = true
  | .voided voidedAt reason =>
      (statusOf sealed = some "sealed" ∨ statusOf sealed = some "abstained") ∧ reason ≠ "" ∧
        rt.formats "date-time" (isoText voidedAt) = true

/-- **A conforming verdict makes an acceptable successor.** -/
theorem exists_successor (hsealed : ReadBack sealed) (hvalid : validateArtifact rt sealed = .ok ())
    {v : Verdict} (hv : v.WF) (hconforming : v.Conforming rt sealed) :
    ∃ a, successor rt sealed v = some a ∧ validateArtifact rt a = .ok () := by
  obtain ⟨hwf, hcanonical⟩ := hsealed.canonical_eq
  obtain ⟨haccepts, hsound⟩ := validateArtifact_ok_iff.mp hvalid
  obtain ⟨id, hid⟩ := get_of_required haccepts (show "artifact_id" ∈ _ by decide)
  -- an acceptable record that keeps the forecast is finalised into a valid artifact
  have hfinalise : ∀ record : Json, record.WF →
      record.get "forecast" = sealed.get "forecast" →
      (artifactSchema rt.formats).accepts record = true →
      ∃ a, finalise rt record = some a ∧ validateArtifact rt a = .ok () := by
    intro record hrecord hforecast hrecordAccepts
    obtain ⟨a, hfinal⟩ : ∃ a, finalise rt record = some a :=
      exists_finalise hrecord (canonical_eq_self hcanonical hrecord hforecast)
    refine ⟨a, hfinal, validateArtifact_ok_iff.mpr ⟨accepts_finalise hrecordAccepts hfinal, ?_⟩⟩
    exact (soundForecast_congr
      ((get_finalise hfinal (by decide) (by decide)).trans hforecast)).mpr hsound
  cases v with
  | scored resultSnapshot homeGoals awayGoals =>
      obtain ⟨hsnapshot, hhome, haway, newAnchor, hanchor, htime⟩ := hconforming
      obtain ⟨_, hopen, -⟩ := bind_ok_iff.mp hanchor
      have hopen := failIf_ok_iff.mp hopen
      push Not at hopen
      obtain ⟨probs, hprobs⟩ := Option.ne_none_iff_exists'.mp hopen.2
      obtain ⟨t, ht⟩ : ∃ t, tripleOf probs = some t := by
        rw [SoundForecast, hprobs] at hsound
        exact ⟨_, hsound.choose_spec.1⟩
      obtain ⟨snapshots, hsnapshots⟩ := snapshotsOf_of_valid hvalid
      obtain ⟨a, hfinal, hvalid⟩ := hfinalise _
        (wf_scoreRecord hwf hv hid hsnapshots t newAnchor homeGoals awayGoals)
        (by rw [scoreRecord, renewProvenance, Json.get_update_ne (by decide),
              Json.get_set_ne (by decide), Json.get_update_ne (by decide),
              Json.get_set_ne (by decide), Json.get_set_ne (by decide)])
        (accepts_scoreRecord haccepts hid hsnapshots hsnapshot
          (tripleOf_mem_unit haccepts hprobs ht) htime hhome haway)
      exact ⟨a, successor_scored_eq_some.mpr ⟨newAnchor, t, id, snapshots, hanchor,
        ⟨hhome, haway⟩, by rw [hprobs, Option.bind_some, ht], hid, hsnapshots, hfinal⟩, hvalid⟩
  | voided voidedAt reason =>
      obtain ⟨hopen, hreason, htime⟩ := hconforming
      obtain ⟨a, hfinal, hvalid⟩ := hfinalise _
        (wf_renewProvenance (Json.wf_set (Json.wf_set (Json.wf_set hwf (Json.wf_str _) _)
          (Json.wf_get hwf hid) _) (Json.wf_str _) _) _)
        (by rw [renewProvenance, Json.get_update_ne (by decide), Json.get_set_ne (by decide),
              Json.get_set_ne (by decide), Json.get_set_ne (by decide)])
        (accepts_voidRecord haccepts hid htime hreason)
      exact ⟨a, successor_voided_eq_some.mpr ⟨hopen, id, hid, hfinal⟩, hvalid⟩

/-- A valid artifact other than the one written holds its name. -/
def Rival (rt : Runtime) (store : Store) (id : String) : Prop :=
  ∃ existing, store.artifacts.read id = some existing ∧ isValidArtifactText rt existing id = true

/-- An acceptable successor is written, unless a rival holds its name. -/
theorem write_successor (hsealed : ReadBack sealed) {v : Verdict} (hv : v.WF) {a : Json}
    (h : successor rt sealed v = some a) (hvalid : validateArtifact rt a = .ok ())
    (store : Store) : ∃ id, a.get "artifact_id" = some (.str id) ∧
      ((∃ store', writeArtifact rt a store = .ok (id, store')) ∨
        writeArtifact rt a store = .error (.collision id) ∧ Rival rt store id) := by
  obtain ⟨id, digest, hident⟩ := identified_successor hsealed hv h hvalid
  obtain ⟨hwf, hself⟩ := canonical_successor hsealed hv h
  obtain ⟨event, hevent, heventBytes⟩ := auditEvent_of_accepts (validateArtifact_ok_iff.mp hvalid).1
  have hline : (auditEvent a).bind canonicalBytes = some (Json.dumps event) := by
    rw [hevent, Option.bind_some, heventBytes]
  have hbytes : canonicalBytes a = some (Json.dumps a) := by
    rw [canonicalBytes, hself, Option.map_some]
  exact ⟨id, hident.artifact_id, writeArtifact_or_collision hvalid hident.artifact_id hbytes hline⟩

/-- Scoring writes the successor of a scored verdict. -/
theorem scoreVerifiedSeal_eq {resultSnapshot a : Json} {homeGoals awayGoals : Int}
    (h : successor rt sealed (.scored resultSnapshot homeGoals awayGoals) = some a)
    (store : Store) :
    scoreVerifiedSeal rt sealed resultSnapshot homeGoals awayGoals store =
      wrapError .store (writeArtifact rt a store) := by
  obtain ⟨newAnchor, t, id, snapshots, hanchor, hgoals, ht, hid, hsnapshots, hfinal⟩ :=
    successor_scored_eq_some.mp h
  have hgoals : ¬ (homeGoals < 0 ∨ awayGoals < 0) := by omega
  simp only [scoreVerifiedSeal, hanchor, failIf, if_neg hgoals, ht, hid, hsnapshots, hfinal, orFail,
    bind, Except.bind]

/-- Voiding a loaded seal for a reason writes the successor of a voided verdict. -/
theorem voidForecast_eq {u : Unicode} {file voidedAtUtc reason : String} {store : Store}
    (hload : loadVerifiedArtifact rt store file = .ok sealed)
    (hreason : String.ofList (u.strip reason.toList) ≠ "") {voidedAt : Int}
    (hvoidedAt : parseUtc voidedAtUtc = some voidedAt) {a : Json}
    (h : successor rt sealed (.voided voidedAt (String.ofList (u.strip reason.toList))) = some a) :
    voidForecast rt u file voidedAtUtc reason store =
      wrapError .store (writeArtifact rt a store) := by
  obtain ⟨hopen, id, hid, hfinal⟩ := successor_voided_eq_some.mp h
  have hstatus : ¬ (statusOf sealed ≠ some "sealed" ∧ statusOf sealed ≠ some "abstained") := by
    tauto
  simp only [voidForecast, hload, wrapError, failIf, if_neg hstatus, if_neg hreason, hvoidedAt,
    hid, hfinal, orFail, bind, Except.bind]

end Resolve

end Golavo.Ledger
