import Golavo.Ledger.SealIdentity

/-! # Tampering with a seal

Two artifacts that verify under one id have one canonical form. So an edit is caught exactly when it
changes anything but the three probabilities, moves these to another canonical triple, or breaks what
validation asks; an edit **below the rounding** is not. -/

namespace Golavo.Ledger

open Golavo.Lib (Decimal Json Schema)
open Golavo.Lib.Schema (accepts accepts_set accepts_update acceptsProperty acceptsProperty_of_listed
  get_of_required acceptsProperty_of_get)
open Golavo.Forecast (Triple canonicalProbs tripleSum)

/-! ## Edits -/

mutual

/-- Whether two values differ at most in their numbers and strings. -/
def sameShape : Json → Json → Bool
  | .null, .null => true
  | .bool a, .bool b => a = b
  | .int _, .int _ => true
  | .int _, .float _ => true
  | .float _, .int _ => true
  | .float _, .float _ => true
  | .str _, .str _ => true
  | .arr xs, .arr ys => sameShapes xs ys
  | .obj xs, .obj ys => sameFields xs ys
  | _, _ => false

/-- `sameShape`, item by item. -/
def sameShapes : List Json → List Json → Bool
  | [], [] => true
  | x :: xs, y :: ys => sameShape x y && sameShapes xs ys
  | _, _ => false

/-- `sameShape`, field by field. -/
def sameFields : List (String × Json) → List (String × Json) → Bool
  | [], [] => true
  | (k, x) :: xs, (l, y) :: ys => k = l && sameShape x y && sameFields xs ys
  | _, _ => false

end

/-- `b` is `a` with some number or string changed, under the same id. -/
structure Tampered (a b : Json) : Prop where
  shape : sameShape a b = true
  changed : b ≠ a
  id : b.get "artifact_id" = a.get "artifact_id"

/-- The probabilities of a record, as they are written. -/
def writtenProbs (a : Json) : Option Triple := ((probsOf a).bind tripleOf).map canonicalProbs

/-- Two records agree outside their three probabilities, and these are written alike. -/
structure SameUpToRounding (a b : Json) : Prop where
  outside : ∀ key, key ≠ "forecast" → b.get key = a.get key
  forecast : ∀ key, key ≠ "probs" →
    (b.get "forecast").bind (·.get key) = (a.get "forecast").bind (·.get key)
  probs : writtenProbs b = writtenProbs a

/-- The two artifacts' contents do not collide in the digits their ids keep. -/
def NoCollision (rt : Runtime) (a b : Json) : Prop :=
  ∀ x y, canonicalBytes (stablePayload a) = some x → canonicalBytes (stablePayload b) = some y →
    idOfDigest (rt.sha256 x) = idOfDigest (rt.sha256 y) → x = y

/-! ## One canonical form -/

section OneForm

variable {rt : Runtime} {a b : Json}

theorem isObj_of_valid (h : validateArtifact rt a = .ok ()) : a.isObj = true :=
  Schema.isObj_of_accepts (validateArtifact_ok_iff.mp h).1

/-- A block of an acceptable artifact that must be an object is one. -/
theorem exists_forecast (h : validateArtifact rt a = .ok ()) :
    ∃ forecast, a.get "forecast" = some forecast ∧ forecast.isObj = true ∧
      ∃ probs, forecast.get "probs" = some probs := by
  have haccepts := (validateArtifact_ok_iff.mp h).1
  obtain ⟨forecast, hforecast⟩ := get_of_required haccepts (show "forecast" ∈ _ by decide)
  obtain ⟨schema, hschema, hblock⟩ :=
    Schema.acceptsProperty_iff.mp (acceptsProperty_of_get haccepts hforecast)
  obtain rfl := Option.some.inj hschema
  exact ⟨forecast, hforecast, Schema.isObj_of_accepts hblock,
    get_of_required hblock (show "probs" ∈ _ by decide)⟩

/-- Records that hash alike, under one id and one digest, have one canonical form. -/
theorem canonical_eq_of_stable {ca cb : Json} (hawf : ca.WF) (hbwf : cb.WF) (haobj : ca.isObj = true)
    (hbobj : cb.isObj = true) (hstable : stablePayload ca = stablePayload cb)
    (hid : ca.get "artifact_id" = cb.get "artifact_id")
    (hprovenance : ∀ p, ca.get "provenance" = some p → p.isObj = true)
    (hprovenance' : ∀ p, cb.get "provenance" = some p → p.isObj = true)
    (hdigest : (ca.get "provenance").bind (·.get "payload_sha256") =
      (cb.get "provenance").bind (·.get "payload_sha256")) : ca = cb := by
  refine Json.obj_ext hawf hbwf haobj hbobj fun key => ?_
  have hget := congrArg (·.get key) hstable
  simp only [stablePayload, withoutDigest] at hget
  by_cases hkey : key = "artifact_id"
  · rw [hkey, hid]
  · by_cases hprov : key = "provenance"
    · subst hprov
      rw [Json.get_update_self, Json.get_update_self, Json.get_erase_ne (by decide),
        Json.get_erase_ne (by decide)] at hget
      cases hpa : ca.get "provenance" with
      | none =>
          rw [hpa, Option.map_none, eq_comm, Option.map_eq_none_iff] at hget
          rw [hget]
      | some pa =>
          rw [hpa, Option.map_some] at hget
          obtain ⟨pb, hpb, herase⟩ := Option.map_eq_some_iff.mp hget.symm
          rw [hpa, hpb] at hdigest
          rw [hpb, Option.some.injEq]
          refine Json.obj_ext (Json.wf_get hawf hpa) (Json.wf_get hbwf hpb) (hprovenance pa hpa)
            (hprovenance' pb hpb) fun k => ?_
          by_cases hk : k = "payload_sha256"
          · rw [hk]
            exact hdigest
          · have hk' := congrArg (·.get k) herase
            simp only [Json.get_erase_ne hk] at hk'
            exact hk'.symm
    · rwa [Json.get_update_ne hprov, Json.get_update_ne hprov, Json.get_erase_ne hkey,
        Json.get_erase_ne hkey] at hget

theorem get_forecast_canonical {c : Json} (hc : canonical a = some c) {key : String}
    (hkey : key ≠ "probs") :
    (c.get "forecast").bind (·.get key) = (a.get "forecast").bind (·.get key) := by
  cases hprobs : probsOf a with
  | none => rw [← Option.some.inj ((canonical_of_none hprobs).symm.trans hc)]
  | some probs =>
      simp only [canonical, hprobs] at hc
      obtain ⟨t, -, rfl⟩ := Option.map_eq_some_iff.mp hc
      rw [withProbs, Json.get_update_self]
      cases a.get "forecast" with
      | none => rfl
      | some forecast => exact Json.get_set_ne hkey _ _

/-- The canonical form carries the written probabilities. -/
theorem probsOf_canonical {c : Json} (hc : canonical a = some c) :
    probsOf c = (writtenProbs a).map tripleJson := by
  cases hprobs : probsOf a with
  | none =>
      rw [← Option.some.inj ((canonical_of_none hprobs).symm.trans hc), writtenProbs, hprobs]
      rfl
  | some probs =>
      simp only [canonical, hprobs] at hc
      obtain ⟨t, ht, rfl⟩ := Option.map_eq_some_iff.mp hc
      rw [probsOf_withProbs hprobs, writtenProbs, hprobs, Option.bind_some, ht]
      rfl

/-- The forecast of an acceptable record's canonical form holds the written probabilities, or null. -/
theorem get_probs_canonical {c : Json} (hvalid : validateArtifact rt a = .ok ())
    (hc : canonical a = some c) :
    (c.get "forecast").bind (·.get "probs") =
      some (match writtenProbs a with
        | some w => tripleJson w
        | none => .null) := by
  obtain ⟨forecast, hforecast, hobj, probs, hprobs⟩ := exists_forecast hvalid
  obtain ⟨-, hsound⟩ := validateArtifact_ok_iff.mp hvalid
  by_cases hnull : probs = .null
  · subst hnull
    have hnone : probsOf a = none := by rw [probsOf, hforecast, Option.bind_some, hprobs]
    rw [← Option.some.inj ((canonical_of_none hnone).symm.trans hc), hforecast, Option.bind_some,
      hprobs, writtenProbs, hnone]
    rfl
  · have hsome : probsOf a = some probs := by
      rw [probsOf, hforecast, Option.bind_some, hprobs]
      split
      · rename_i heq
        exact absurd (Option.some.inj heq) hnull
      · rfl
    rw [SoundForecast, hsome] at hsound
    obtain ⟨t, ht, -⟩ := hsound
    rw [← Option.some.inj ((canonical_of_some hsome ht).symm.trans hc), withProbs,
      Json.get_update_self, hforecast, Option.map_some, Option.bind_some,
      Json.get_set_self hobj, writtenProbs, hsome, Option.bind_some, ht]
    rfl

theorem tripleJson_injective {s t : Triple} (h : tripleJson s = tripleJson t) : s = t := by
  have := congrArg tripleOf h
  rw [tripleOf_tripleJson, tripleOf_tripleJson] at this
  exact Option.some.inj this

/-- The forecast of an acceptable record's canonical form is an object. -/
theorem exists_forecast_canonical {c : Json} (hwf : a.WF) (hvalid : validateArtifact rt a = .ok ())
    (hc : canonical a = some c) :
    ∃ forecast, c.get "forecast" = some forecast ∧ forecast.isObj = true ∧ forecast.WF := by
  have hprobs := get_probs_canonical hvalid hc
  obtain ⟨forecast, hforecast, hprobs⟩ := Option.bind_eq_some_iff.mp hprobs
  exact ⟨forecast, hforecast, Json.isObj_of_get hprobs,
    Json.wf_get (wf_canonical hwf hc) hforecast⟩

/-- **Two acceptable records have one canonical form exactly when they agree up to rounding.** -/
theorem canonical_eq_iff {ca cb : Json} (hawf : a.WF) (hbwf : b.WF)
    (ha : validateArtifact rt a = .ok ()) (hb : validateArtifact rt b = .ok ())
    (hca : canonical a = some ca) (hcb : canonical b = some cb) :
    cb = ca ↔ SameUpToRounding a b := by
  constructor
  · rintro rfl
    refine ⟨fun key hkey => ?_, fun key hkey => ?_, ?_⟩
    · rw [← get_canonical hcb hkey, get_canonical hca hkey]
    · rw [← get_forecast_canonical hcb hkey, get_forecast_canonical hca hkey]
    · have hprobs := (probsOf_canonical hcb).symm.trans (probsOf_canonical hca)
      exact Option.map_injective (fun _ _ => tripleJson_injective) hprobs
  · intro h
    have hobj : ∀ {x c : Json}, validateArtifact rt x = .ok () → x.WF → canonical x = some c →
        c.isObj = true := fun hx hwf hc => by
      obtain ⟨forecast, hforecast, -⟩ := exists_forecast_canonical hwf hx hc
      exact Json.isObj_of_get hforecast
    refine Json.obj_ext (wf_canonical hbwf hcb) (wf_canonical hawf hca) (hobj hb hbwf hcb)
      (hobj ha hawf hca) fun key => ?_
    by_cases hkey : key = "forecast"
    · subst hkey
      obtain ⟨fa, hfa, haobj, hfawf⟩ := exists_forecast_canonical hawf ha hca
      obtain ⟨fb, hfb, hbobj, hfbwf⟩ := exists_forecast_canonical hbwf hb hcb
      rw [hfa, hfb, Option.some.injEq]
      refine Json.obj_ext hfbwf hfawf hbobj haobj fun k => ?_
      by_cases hk : k = "probs"
      · have hprobs := get_probs_canonical hb hcb
        rw [h.probs, ← get_probs_canonical ha hca, hfa, hfb] at hprobs
        rw [hk]
        exact hprobs
      · have hother := get_forecast_canonical hcb hk
        rw [h.forecast k hk, ← get_forecast_canonical hca hk, hfa, hfb] at hother
        exact hother
    · rw [get_canonical hcb hkey, get_canonical hca hkey]
      exact h.outside key hkey

theorem exists_canonical (h : validateArtifact rt a = .ok ()) : ∃ c, canonical a = some c := by
  obtain ⟨-, hsound⟩ := validateArtifact_ok_iff.mp h
  cases hprobs : probsOf a with
  | none => exact ⟨a, canonical_of_none hprobs⟩
  | some probs =>
      rw [SoundForecast, hprobs] at hsound
      obtain ⟨t, ht, -⟩ := hsound
      exact ⟨_, canonical_of_some hprobs ht⟩

theorem isObj_provenance (h : validateArtifact rt a = .ok ()) {p : Json}
    (hp : a.get "provenance" = some p) : p.isObj = true := by
  obtain ⟨schema, hschema, hblock⟩ :=
    Schema.acceptsProperty_iff.mp (acceptsProperty_of_get (validateArtifact_ok_iff.mp h).1 hp)
  obtain rfl := Option.some.inj hschema
  exact Schema.isObj_of_accepts hblock

/-- **One id, one canonical form**: two acceptable artifacts identified by one id have the same. -/
theorem canonical_eq_of_identified {ca cb : Json} {id da db : String} (hawf : a.WF) (hbwf : b.WF)
    (ha : validateArtifact rt a = .ok ()) (hb : validateArtifact rt b = .ok ())
    (hca : canonical a = some ca) (hcb : canonical b = some cb) (hno : NoCollision rt a b)
    (hia : Identified rt a id da) (hib : Identified rt b id db) : cb = ca := by
  have hsa : canonicalBytes (stablePayload a) = some (Json.dumps (stablePayload ca)) := by
    rw [canonicalBytes, canonical_stablePayload hawf, hca]
    rfl
  have hsb : canonicalBytes (stablePayload b) = some (Json.dumps (stablePayload cb)) := by
    rw [canonicalBytes, canonical_stablePayload hbwf, hcb]
    rfl
  have hcawf := wf_canonical hawf hca
  have hcbwf := wf_canonical hbwf hcb
  have hstable : stablePayload ca = stablePayload cb := by
    have hida := hia.id_eq
    have hidb := hib.id_eq
    rw [artifactId, hsa, Option.map_some] at hida
    rw [artifactId, hsb, Option.map_some] at hidb
    exact Json.dumps_injective (wf_withoutDigest (Json.wf_erase hcawf _))
      (wf_withoutDigest (Json.wf_erase hcbwf _))
      (hno _ _ hsa hsb (Option.some.inj (hida.trans hidb.symm)))
  have hid : ca.get "artifact_id" = cb.get "artifact_id" := by
    rw [get_canonical hca (by decide), get_canonical hcb (by decide), hia.artifact_id,
      hib.artifact_id]
  have hobjA := isObj_of_valid ha
  have hobjB := isObj_of_valid hb
  have hcaobj : ca.isObj = true := by
    obtain ⟨f, hf, -⟩ := exists_forecast_canonical hawf ha hca
    exact Json.isObj_of_get hf
  have hcbobj : cb.isObj = true := by
    obtain ⟨f, hf, -⟩ := exists_forecast_canonical hbwf hb hcb
    exact Json.isObj_of_get hf
  -- the digest is over the same content too: the stable payload and the id
  have hwithout : withoutDigest ca = withoutDigest cb := by
    refine Json.obj_ext (wf_withoutDigest hcawf) (wf_withoutDigest hcbwf) (by simpa [withoutDigest])
      (by simpa [withoutDigest]) fun key => ?_
    by_cases hkey : key = "artifact_id"
    · rw [hkey, withoutDigest, withoutDigest, Json.get_update_ne (by decide),
        Json.get_update_ne (by decide), hid]
    · have hget := congrArg (·.get key) hstable
      simp only [stablePayload, withoutDigest] at hget ⊢
      by_cases hprov : key = "provenance"
      · subst hprov
        rwa [Json.get_update_self, Json.get_update_self, Json.get_erase_ne (by decide),
          Json.get_erase_ne (by decide), ← Json.get_update_self, ← Json.get_update_self] at hget
      · rw [Json.get_update_ne hprov, Json.get_update_ne hprov]
        rwa [Json.get_update_ne hprov, Json.get_update_ne hprov, Json.get_erase_ne hkey,
          Json.get_erase_ne hkey] at hget
  have hdigest : da = db := by
    have hda := hia.digest_eq
    have hdb := hib.digest_eq
    rw [payloadSha256, canonicalBytes, canonical_withoutDigest hawf, hca, Option.map_some,
      hwithout] at hda
    rw [payloadSha256, canonicalBytes, canonical_withoutDigest hbwf, hcb, Option.map_some] at hdb
    exact Option.some.inj (hda.symm.trans hdb)
  refine (canonical_eq_of_stable hcawf hcbwf hcaobj hcbobj hstable hid
    (fun p hp => isObj_provenance ha (by rwa [get_canonical hca (by decide)] at hp))
    (fun p hp => isObj_provenance hb (by rwa [get_canonical hcb (by decide)] at hp)) ?_).symm
  rw [get_canonical hca (by decide), get_canonical hcb (by decide), hia.payload, hib.payload,
    hdigest]

/-- An edit that leaves the canonical form leaves the identity. -/
theorem identified_of_canonical_eq {c : Json} {id digest : String} (hawf : a.WF) (hbwf : b.WF)
    (hca : canonical a = some c) (hcb : canonical b = some c) (h : Identified rt a id digest) :
    Identified rt b id digest where
  artifact_id := by
    rw [← get_canonical hcb (by decide), get_canonical hca (by decide)]
    exact h.artifact_id
  payload := by
    rw [← get_canonical hcb (by decide), get_canonical hca (by decide)]
    exact h.payload
  id_eq := by
    have hid := h.id_eq
    rw [artifactId, canonicalBytes, canonical_stablePayload hawf, hca] at hid
    rw [artifactId, canonicalBytes, canonical_stablePayload hbwf, hcb]
    exact hid
  digest_eq := by
    have hdigest := h.digest_eq
    rw [payloadSha256, canonicalBytes, canonical_withoutDigest hawf, hca] at hdigest
    rw [payloadSha256, canonicalBytes, canonical_withoutDigest hbwf, hcb]
    exact hdigest

end OneForm

/-! ## What verification catches -/

/-- The friendly's probabilities with one unit more in the seventh decimal. -/
def nudged : Triple := ⟨.ofScaled 5000001 7, .ofScaled 25 2, .ofScaled 25 2⟩

/-- The nudged friendly: acceptable, of the same shape, written the same, and not the same. -/
theorem nudged_friendly : ∃ c store id, loadVerifiedArtifact .standard store id = .ok c ∧ c.WF ∧
    Tampered c (withProbs c nudged) ∧ validateArtifact .standard (withProbs c nudged) = .ok () ∧
    canonical c = some c ∧ canonical (withProbs c nudged) = some c := by
  obtain ⟨a, id, bytes, c, store, ha, -, hc, -, hback, hid, -, -, -, -, hload⟩ := seal_friendly
  obtain ⟨hwf, hself⟩ := hback.canonical_eq
  obtain ⟨-, hvalid, -⟩ := loadVerifiedArtifact_ok hload
  have hsealed : sealedFriendly = some c := by
    rw [sealedFriendly, ha]
    exact hc
  have hshape : sealedFriendly.all (fun c => sameShape c (withProbs c nudged)) = true := by
    decide +kernel
  have hmatrix : sealedFriendly.bind matrixOf = none := by decide +kernel
  have hprobs : sealedFriendly.bind probsOf =
      some (tripleJson ⟨.ofScaled 5 1, .ofScaled 25 2, .ofScaled 25 2⟩) := by decide +kernel
  rw [hsealed] at hshape
  rw [hsealed, Option.bind_some] at hmatrix hprobs
  have hwritten : canonicalProbs nudged = ⟨.ofScaled 5 1, .ofScaled 25 2, .ofScaled 25 2⟩ := by
    decide +kernel
  have hnudged := @probsOf_withProbs c _ hprobs nudged
  have hc' : canonical (withProbs c nudged) = some c := by
    rw [canonical_of_some hnudged (tripleOf_tripleJson _), withProbs_withProbs, hwritten, ← hself]
    exact (canonical_of_some hprobs (tripleOf_tripleJson _)).symm
  have hsum : ¬ sumTolerance < (tripleSum nudged - 1).abs := by decide +kernel
  refine ⟨c, store, id, hload, hwf, ⟨hshape, fun heq => ?_, ?_⟩, ?_, hself, hc'⟩
  · rw [heq, hprobs] at hnudged
    exact absurd (Option.some.inj hnudged) (by decide +kernel)
  · exact Json.get_update_ne (by decide) _ _
  · refine validateArtifact_ok_iff.mpr ⟨accepts_withProbs (validateArtifact_ok_iff.mp hvalid).1 ?_, ?_⟩
    · intro o
      cases o <;> simp only [nudged, Triple.at, Decimal.toRat_ofScaled] <;> norm_num
    · rw [SoundForecast, hnudged]
      refine ⟨nudged, tripleOf_tripleJson _, hsum, fun stored hstored => ?_⟩
      rw [matrixOf_withProbs, hmatrix] at hstored
      cases hstored

end Golavo.Ledger
