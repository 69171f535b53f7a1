import Golavo.Forecast.Probabilities
import Golavo.Lib.JsonRoundTrip

/-! # Canonical bytes

`canonical_bytes` replaces a forecast's probabilities by their canonical triple and writes sorted
compact JSON. The canonical form of a record is its own canonical form, and what is written reads
back as it. -/

namespace Golavo.Ledger

open Golavo.Lib (Decimal Json)
open Golavo.Forecast (Triple canonicalProbs canonicalProbs_idem)

/-! ## Canonical artifacts -/

/-- `float(value)` of a JSON value. -/
def floatOf : Json → Option Decimal
  | .int z => some (.ofScaled z 0)
  | .float d => some d
  | .bool b => some (if b then 1 else 0)
  | _ => none

/-- The three probabilities of a record. -/
def tripleOf (probs : Json) : Option Triple := do
  let home ← (probs.get "home").bind floatOf
  let draw ← (probs.get "draw").bind floatOf
  let away ← (probs.get "away").bind floatOf
  some ⟨home, draw, away⟩

/-- A record of three probabilities. -/
def tripleJson (t : Triple) : Json :=
  .mk [("home", .float t.home), ("draw", .float t.draw), ("away", .float t.away)]

@[simp] theorem tripleOf_tripleJson (t : Triple) : tripleOf (tripleJson t) = some t := by
  simp [tripleOf, tripleJson, Json.get_mk, Lib.Fields.getField, floatOf]

@[simp] theorem wf_tripleJson (t : Triple) : (tripleJson t).WF :=
  Json.wf_mk (by simp)

/-- The probabilities of an artifact's forecast, if it has any (`payload["forecast"]["probs"]`). -/
def probsOf (payload : Json) : Option Json :=
  (payload.get "forecast").bind fun forecast =>
    match forecast.get "probs" with
    | some .null => none
    | other => other

/-- Put probabilities into an artifact's forecast. -/
def withProbs (payload : Json) (t : Triple) : Json :=
  payload.update "forecast" fun forecast => forecast.set "probs" (tripleJson t)

/-- The payload `canonical_bytes` writes; nothing where its probabilities cannot be read. -/
def canonical (payload : Json) : Option Json :=
  match probsOf payload with
  | none => some payload
  | some probs => (tripleOf probs).map fun t => withProbs payload (canonicalProbs t)

theorem canonical_of_none {payload : Json} (h : probsOf payload = none) :
    canonical payload = some payload := by
  simp only [canonical, h]

theorem canonical_of_some {payload probs : Json} {t : Triple} (h : probsOf payload = some probs)
    (ht : tripleOf probs = some t) :
    canonical payload = some (withProbs payload (canonicalProbs t)) := by
  simp only [canonical, h, ht, Option.map_some]

/-- Sorted canonical JSON with the forecast probabilities rounded (`canonical_bytes`). -/
def canonicalBytes (payload : Json) : Option (List Char) := (canonical payload).map Json.dumps

theorem probsOf_withProbs {payload probs : Json} (h : probsOf payload = some probs) (t : Triple) :
    probsOf (withProbs payload t) = some (tripleJson t) := by
  unfold probsOf at h ⊢
  obtain ⟨forecast, hforecast, hprobs⟩ := Option.bind_eq_some_iff.mp h
  have hobj : forecast.isObj = true := by
    cases hget : forecast.get "probs" with
    | none => simp [hget] at hprobs
    | some value => exact Json.isObj_of_get hget
  have hnull : tripleJson t ≠ .null := by simp [tripleJson, Json.mk]
  rw [withProbs, Json.get_update_self, hforecast]
  simp only [Option.map_some, Option.bind_some, Json.get_set_self hobj]
  split
  · rename_i heq
    exact absurd (Option.some.inj heq) hnull
  · rfl

/-- Of two rewrites of the probabilities the later one stays. -/
@[simp] theorem withProbs_withProbs (payload : Json) (s t : Triple) :
    withProbs (withProbs payload s) t = withProbs payload t := by
  rw [withProbs, withProbs, Json.update_update, withProbs]
  congr 1
  funext forecast
  exact Json.set_set _ _ _ _

theorem wf_withProbs {payload : Json} (h : payload.WF) (t : Triple) : (withProbs payload t).WF :=
  Json.wf_update h _ fun _ hforecast => Json.wf_set hforecast (wf_tripleJson t) _

theorem wf_canonical {payload c : Json} (h : payload.WF) (hc : canonical payload = some c) :
    c.WF := by
  unfold canonical at hc
  split at hc
  · rw [← Option.some.inj hc]
    exact h
  · obtain ⟨t, -, rfl⟩ := Option.map_eq_some_iff.mp hc
    exact wf_withProbs h _

/-- **The canonical form is its own canonical form.** -/
theorem canonical_idem {payload c : Json} (hc : canonical payload = some c) :
    canonical c = some c := by
  unfold canonical at hc
  split at hc
  · rename_i hnone
    rw [← Option.some.inj hc, canonical, hnone]
  · rename_i probs hprobs
    obtain ⟨t, ht, rfl⟩ := Option.map_eq_some_iff.mp hc
    simp only [canonical, probsOf_withProbs hprobs, tripleOf_tripleJson, Option.map_some,
      canonicalProbs_idem, withProbs_withProbs]

/-- What `canonical_bytes` writes reads back as the canonical form, with white space after it too. -/
theorem loads_canonicalBytes {payload c : Json} (h : payload.WF) (hc : canonical payload = some c) :
    Json.loads (Json.dumps c ++ ['\n']) = some c :=
  Json.loads_dumps_append (wf_canonical h hc) rfl
    ⟨by decide, by decide, by decide, by decide⟩

end Golavo.Ledger
