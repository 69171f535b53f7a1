import Golavo.Ledger.Artifact

/-! # Content-addressed identity

An artifact is **identified** by the id and digest of its own content. Finalising a record gives it
its identity, canonicalising keeps it, and verification accepts exactly the valid artifacts that
have it. -/

namespace Golavo.Ledger

open Golavo.Lib (Decimal Json)
open Golavo.Forecast (Triple)

/-! ## The canonical form under changes elsewhere -/

/-- A change that leaves the forecast alone commutes with canonicalisation. -/
theorem canonical_map {f : Json → Json} {payload : Json}
    (hget : (f payload).get "forecast" = payload.get "forecast")
    (hcomm : ∀ t, withProbs (f payload) t = f (withProbs payload t)) :
    canonical (f payload) = (canonical payload).map f := by
  have hprobs : probsOf (f payload) = probsOf payload := by rw [probsOf, probsOf, hget]
  unfold canonical
  rw [hprobs]
  split
  · rfl
  · rename_i probs _
    cases tripleOf probs with
    | none => rfl
    | some t => simp [hcomm]

section Changes

variable {payload : Json} (h : payload.WF)

include h

theorem wf_withoutDigest : (withoutDigest payload).WF :=
  Json.wf_update h _ fun _ hv => Json.wf_erase hv _

theorem canonical_withoutDigest :
    canonical (withoutDigest payload) = (canonical payload).map withoutDigest :=
  canonical_map (Json.get_update_ne (by decide) _ _) fun t =>
    Json.update_comm h (by decide) (fun _ hv => Json.wf_erase hv _)
      fun _ hv => Json.wf_set hv (wf_tripleJson t) _

theorem canonical_erase {key : String} (hkey : key ≠ "forecast") :
    canonical (payload.erase key) = (canonical payload).map (·.erase key) :=
  canonical_map (f := (·.erase key)) (Json.get_erase_ne (Ne.symm hkey) _) fun t =>
    (Json.erase_update_comm h hkey fun _ hv => Json.wf_set hv (wf_tripleJson t) _).symm

theorem canonical_stablePayload :
    canonical (stablePayload payload) = (canonical payload).map stablePayload := by
  rw [stablePayload, canonical_withoutDigest (Json.wf_erase h _), canonical_erase h (by decide),
    Option.map_map]
  rfl

end Changes

/-- Canonicalising changes no key but the forecast. -/
theorem get_canonical {payload c : Json} (hc : canonical payload = some c) {key : String}
    (hkey : key ≠ "forecast") : c.get key = payload.get key := by
  unfold canonical at hc
  split at hc
  · rw [← Option.some.inj hc]
  · obtain ⟨t, -, rfl⟩ := Option.map_eq_some_iff.mp hc
    exact Json.get_update_ne hkey _ _

/-! ## Identity -/

/-- An artifact that carries the id and the digest of its own content. -/
structure Identified (rt : Runtime) (a : Json) (id digest : String) : Prop where
  artifact_id : a.get "artifact_id" = some (.str id)
  payload : (a.get "provenance").bind (·.get "payload_sha256") = some (.str digest)
  id_eq : artifactId rt (stablePayload a) = some id
  digest_eq : payloadSha256 rt a = some digest

/-- **Canonicalising keeps an artifact's identity**: id and digest are computed over a canonical
form that is its own. -/
theorem Identified.canonical {rt : Runtime} {a c : Json} {id digest : String} (hwf : a.WF)
    (h : Identified rt a id digest) (hc : canonical a = some c) : Identified rt c id digest where
  artifact_id := by rw [get_canonical hc (by decide)]; exact h.artifact_id
  payload := by rw [get_canonical hc (by decide)]; exact h.payload
  id_eq := by
    have hid := h.id_eq
    rw [artifactId, canonicalBytes, canonical_stablePayload hwf, hc] at hid
    rw [artifactId, canonicalBytes, canonical_stablePayload (wf_canonical hwf hc),
      canonical_idem hc]
    exact hid
  digest_eq := by
    have hdigest := h.digest_eq
    rw [payloadSha256, canonicalBytes, canonical_withoutDigest hwf, hc] at hdigest
    rw [payloadSha256, canonicalBytes, canonical_withoutDigest (wf_canonical hwf hc),
      canonical_idem hc]
    exact hdigest

/-- Give a record its content id, then the digest of the result. -/
def finalise (rt : Runtime) (record : Json) : Option Json := do
  let id ← artifactId rt (stablePayload record)
  let named := record.set "artifact_id" (.str id)
  let digest ← payloadSha256 rt named
  some (named.update "provenance" (·.set "payload_sha256" (.str digest)))

/-- A record with a canonical form can be finalised. -/
theorem exists_finalise {rt : Runtime} {record c : Json} (hwf : record.WF)
    (hc : canonical record = some c) : ∃ a, finalise rt record = some a := by
  have hstable := canonical_stablePayload hwf
  rw [hc, Option.map_some] at hstable
  have hid : artifactId rt (stablePayload record) =
      some (idOfDigest (rt.sha256 (Json.dumps (stablePayload c)))) := by
    rw [artifactId, canonicalBytes, hstable]
    rfl
  have hnamed : ∀ id, canonical (record.set "artifact_id" (.str id)) =
      some (c.set "artifact_id" (.str id)) := fun id => by
    rw [canonical_map (f := (·.set "artifact_id" (.str id))) (Json.get_set_ne (by decide) _ _)
      fun t => (Json.set_update_comm hwf (Json.wf_str _) (by decide) fun _ hv =>
        Json.wf_set hv (wf_tripleJson t) _).symm, hc]
    rfl
  have hdigest : ∀ id, ∃ digest, payloadSha256 rt (record.set "artifact_id" (.str id)) =
      some digest := fun id => by
    rw [payloadSha256, canonicalBytes, canonical_withoutDigest (Json.wf_set hwf (Json.wf_str _) _),
      hnamed]
    exact ⟨_, rfl⟩
  obtain ⟨digest, hdigest⟩ := hdigest (idOfDigest (rt.sha256 (Json.dumps (stablePayload c))))
  exact ⟨_, Option.bind_eq_some_iff.mpr ⟨_, hid, Option.bind_eq_some_iff.mpr ⟨_, hdigest, rfl⟩⟩⟩

/-- Finalising changes the id and the provenance alone. -/
theorem get_finalise {rt : Runtime} {record a : Json} (h : finalise rt record = some a)
    {key : String} (hid : key ≠ "artifact_id") (hprovenance : key ≠ "provenance") :
    a.get key = record.get key := by
  obtain ⟨id, -, h⟩ := Option.bind_eq_some_iff.mp h
  obtain ⟨digest, -, h⟩ := Option.bind_eq_some_iff.mp h
  rw [← Option.some.inj h, Json.get_update_ne hprovenance, Json.get_set_ne hid]

theorem wf_finalise {rt : Runtime} {record a : Json} (hwf : record.WF)
    (h : finalise rt record = some a) : a.WF := by
  obtain ⟨id, -, h⟩ := Option.bind_eq_some_iff.mp h
  obtain ⟨digest, -, h⟩ := Option.bind_eq_some_iff.mp h
  rw [← Option.some.inj h]
  exact Json.wf_update (Json.wf_set hwf (Json.wf_str _) _) _ fun _ hv =>
    Json.wf_set hv (Json.wf_str _) _

/-- **Finalising identifies.** -/
theorem identified_finalise {rt : Runtime} {record provenance a : Json} (hwf : record.WF)
    (hprovenance : record.get "provenance" = some provenance) (hobj : provenance.isObj = true)
    (h : finalise rt record = some a) : ∃ id digest, Identified rt a id digest := by
  obtain ⟨id, hid, h⟩ := Option.bind_eq_some_iff.mp h
  obtain ⟨digest, hdigest, h⟩ := Option.bind_eq_some_iff.mp h
  obtain rfl := Option.some.inj h
  have hrecord : record.isObj = true := Json.isObj_of_get hprovenance
  have hdrop : withoutDigest ((record.set "artifact_id" (.str id)).update "provenance"
      (·.set "payload_sha256" (.str digest))) = withoutDigest (record.set "artifact_id" (.str id)) := by
    rw [withoutDigest, Json.update_update, withoutDigest]
    congr 1
    funext value
    exact Json.erase_set _ _ _
  refine ⟨id, digest, ⟨?_, ?_, ?_, ?_⟩⟩
  · rw [Json.get_update_ne (by decide), Json.get_set_self hrecord]
  · rw [Json.get_update_self, Json.get_set_ne (by decide), hprovenance]
    simp [Json.get_set_self hobj]
  · have hstable : stablePayload ((record.set "artifact_id" (.str id)).update "provenance"
        (·.set "payload_sha256" (.str digest))) = stablePayload record := by
      rw [stablePayload, Json.erase_update_comm (Json.wf_set hwf (Json.wf_str _) _) (by decide)
        (fun _ hv => Json.wf_set hv (Json.wf_str _) _), Json.erase_set, withoutDigest,
        Json.update_update, stablePayload, withoutDigest]
      congr 1
      funext value
      exact Json.erase_set _ _ _
    rw [hstable]
    exact hid
  · rw [payloadSha256, hdrop]
    exact hdigest

/-- Verification accepts exactly the valid artifacts that carry their own identity, under the
expected name. -/
theorem verifyArtifactIntegrity_ok_iff {rt : Runtime} {a b : Json} {expectedId : Option String} :
    verifyArtifactIntegrity rt a expectedId = .ok b ↔
      b = a ∧ validateArtifact rt a = .ok () ∧
        ∃ id digest, Identified rt a id digest ∧ ∀ expected ∈ expectedId, expected = id := by
  constructor
  · intro h
    unfold verifyArtifactIntegrity at h
    cases hvalid : validateArtifact rt a with
    | error e => simp [hvalid, bind, Except.bind] at h
    | ok _ =>
        cases hdigest : payloadSha256 rt a with
        | none => simp [hvalid, hdigest, bind, Except.bind, throw, throwThe, MonadExceptOf.throw] at h
        | some digest =>
            cases hid : artifactId rt (stablePayload a) with
            | none => simp [hvalid, hdigest, hid, bind, Except.bind, throw, throwThe,
                MonadExceptOf.throw] at h
            | some id =>
                simp only [hvalid, hdigest, hid, bind, Except.bind, throw, throwThe,
                  MonadExceptOf.throw, pure, Except.pure] at h
                split_ifs at h with h1 h2
                have hident : Identified rt a id digest :=
                  ⟨not_not.mp h2, not_not.mp h1, hid, hdigest⟩
                cases expectedId with
                | none => exact ⟨(Except.ok.inj h).symm, rfl, id, digest, hident, by simp⟩
                | some expected =>
                    simp only at h
                    split_ifs at h with h3
                    exact ⟨(Except.ok.inj h).symm, rfl, id, digest, hident, by simpa using h3⟩
  · rintro ⟨rfl, hvalid, id, digest, hident, hexpected⟩
    simp only [verifyArtifactIntegrity, hvalid, hident.digest_eq, hident.id_eq, hident.artifact_id,
      hident.payload, bind, Except.bind, ne_eq, not_true_eq_false, if_false, pure, Except.pure]
    cases expectedId with
    | none => rfl
    | some expected =>
        simp [hexpected expected rfl]

end Golavo.Ledger
