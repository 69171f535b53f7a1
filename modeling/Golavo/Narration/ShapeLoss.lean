import Golavo.Lib.Runs
import Golavo.Narration.ShapeRepair

/-! # What the shape repair loses

A canonical narration is reviewed as it is and reviewed repaired. Both reviews serve their items one
by one, so the repair loses none exactly when each item that is served is served repaired, and no
repaired item has a credential shape (`shape_repair_iff`). -/

namespace Golavo.Narration

open Golavo.Lib (Json bind_ok_iff)

variable {F : Type} {u : TextTables} (fl : Floats F)

/-! ## The review of a canonical document -/

/-- A review serves something when nothing is rejected and something grounded is left. -/
theorem narration_conclude_iff {claims scenarios : List Claim × Notes F}
    {facts : List Fact × List (Rejection F)} {verdict : Option Claim × List Drop}
    {background : List BackgroundNote × List Drop} {research : List Fact × List Drop}
    {drops : List Drop} {n : ServedNarration} :
    (conclude claims scenarios facts verdict background research drops).narration = some n ↔
      claims.2.rejections = [] ∧ scenarios.2.rejections = [] ∧ facts.2 = [] ∧
        ¬(claims.1 = [] ∧ scenarios.1 = []) ∧
        n = ⟨verdict.1, claims.1, scenarios.1, facts.1, research.1, background.1⟩ := by
  unfold conclude
  dsimp only
  by_cases hrejected : claims.2.rejections ++ scenarios.2.rejections ++ facts.2 = []
  · rw [hrejected]
    obtain ⟨hlanes, hfacts⟩ := List.append_eq_nil_iff.mp hrejected
    obtain ⟨hclaims, hscenarios⟩ := List.append_eq_nil_iff.mp hlanes
    by_cases hnothing : claims.1 = [] ∧ scenarios.1 = []
    · simp [hnothing]
    · simp only [List.isEmpty_nil, Bool.not_true, Bool.false_eq_true, if_false, hnothing,
        Option.some.injEq, hclaims, hscenarios, hfacts, true_and, not_false_eq_true]
      exact eq_comm
  · rw [if_pos (by simpa using hrejected)]
    refine iff_of_false nofun ?_
    rintro ⟨hclaims, hscenarios, hfacts, -⟩
    exact hrejected (by rw [hclaims, hscenarios, hfacts]; rfl)

/-- The candidate facts a review reads of a raw output. -/
def factsOf (u : TextTables) (raw : Json) (options : Options) : List Fact :=
  (conformFacts (pruneUnknown (stripCot u raw)) options.allowCandidateFacts).1

/-- What a review takes out of a raw output beside its claims, its scenarios and its verdict. -/
structure Aside (u : TextTables) (fl : Floats F) (bundle : Bundle F) (options : Options)
    (raw : Json) (facts research : List Fact) (background : List BackgroundNote) : Prop where
  facts : reviewCandidateFacts u fl bundle (factsOf u raw options) = .ok (facts, [])
  research : ∃ drops, reviewResearch u fl bundle options
    ((pruneUnknown (stripCot u raw)).get "research_notes") = .ok (research, drops)
  background : background = (reviewBackground u bundle options.allowBackground
    ((pruneUnknown (stripCot u raw)).get "background")).1

/-- No item of a lane that conforms has a credential shape. -/
def SecretFree (u : TextTables) (items : List Claim) : Prop :=
  ∀ k ∈ items.filterMap (conformed u), containsSecretPattern u k.text = []

/-- The verdict of a canonical document as the review serves it. -/
theorem reviewVerdict_canonical (hkeys : PlainKeys u) {raw : Json} {claims scenarios : List Claim}
    {verdict : Option Claim} (h : CanonicalShape raw claims scenarios verdict) (bundle : Bundle F) :
    (reviewVerdict u bundle ((pruneUnknown (stripCot u raw)).get "verdict")).1 =
      verdict.bind (servedVerdict u bundle) := by
  have hplain : ¬(isCotKey u "verdict" = true ∨ "verdict" ∉ topKeys) := by
    rw [hkeys "verdict" (by decide)]
    decide
  rw [get_pruneUnknown_stripCot, if_neg hplain]
  have hverdict := h.verdict
  cases verdict with
  | none =>
      cases hget : raw.get "verdict" with
      | none => rfl
      | some value =>
          rw [hget] at hverdict
          obtain rfl : value = .null := hverdict
          rfl
  | some c =>
      cases hget : raw.get "verdict" with
      | none =>
          rw [hget, Option.map_some, toJson_eq] at hverdict
          cases hverdict
      | some value =>
          rw [hget] at hverdict
          obtain rfl : value = c.toJson := hverdict
          have hprune : pruneLane "verdict" c.toJson = c.toJson := by
            conv_rhs => rw [← pruneItem_toJson c]
            rw [toJson_eq]
            rfl
          rw [Option.map_some, stripCot_toJson hkeys, hprune, reviewVerdict_toJson,
            Option.bind_some]

theorem reviewLane_conformed (bundle : Bundle F) (kind : String) (items : List Claim) :
    (reviewLane (reviewItem u bundle kind) (items.filterMap (conformed u))).1 =
      items.filterMap (served u bundle) := by
  rw [reviewLane_served, List.filterMap_filterMap]
  rfl

/-- **The review of a canonical document** serves its items one by one. -/
theorem review_canonical (hkeys : PlainKeys u) {raw : Json} {claims scenarios : List Claim}
    {verdict : Option Claim} (h : CanonicalShape raw claims scenarios verdict) {bundle : Bundle F}
    {options : Options} {n : ServedNarration} :
    (∃ r, reviewNarration u fl raw bundle options = .ok r ∧ r.narration = some n) ↔
      Aside u fl bundle options raw n.candidateFacts n.researchNotes n.background ∧
        SecretFree u claims ∧ SecretFree u scenarios ∧
        ¬(n.claims = [] ∧ n.scenarios = []) ∧
        n.verdict = verdict.bind (servedVerdict u bundle) ∧
        n.claims = claims.filterMap (served u bundle) ∧
        n.scenarios = scenarios.filterMap (served u bundle) := by
  have hreview := reviewNarration_of_isObj u fl h.isObj bundle options
  dsimp only at hreview
  have hclaims : (conformArrays u (pruneUnknown (stripCot u raw))
      options.allowCandidateFacts).1.claims = claims.filterMap (conformed u) :=
    conformLane_canonical hkeys (by decide) h.claims
  have hscenarios : (conformArrays u (pruneUnknown (stripCot u raw))
      options.allowCandidateFacts).1.scenarios = scenarios.filterMap (conformed u) :=
    conformLane_canonical hkeys (by decide) h.scenarios
  rw [hreview, hclaims, hscenarios]
  constructor
  · rintro ⟨r, hr, hn⟩
    obtain ⟨⟨facts, rejected⟩, hfacts, hr⟩ := bind_ok_iff.mp hr
    obtain ⟨⟨research, drops⟩, hresearch, hr⟩ := bind_ok_iff.mp hr
    obtain rfl := Except.ok.inj hr
    obtain ⟨hfirst, hsecond, hrejected, hsome, rfl⟩ := narration_conclude_iff.mp hn
    simp only [reviewLane_conformed, reviewVerdict_canonical hkeys h] at hsome ⊢
    obtain rfl : rejected = [] := hrejected
    exact ⟨⟨hfacts, ⟨drops, hresearch⟩, rfl⟩, reviewLane_rejections _ _ _ |>.mp hfirst,
      reviewLane_rejections _ _ _ |>.mp hsecond, hsome, trivial, trivial, trivial⟩
  · rintro ⟨haside, hfirst, hsecond, hsome, hverdict, hserved, hserved'⟩
    obtain ⟨drops, hresearch⟩ := haside.research
    refine ⟨_, bind_ok_iff.mpr ⟨_, haside.facts, bind_ok_iff.mpr ⟨_, hresearch, rfl⟩⟩, ?_⟩
    rw [narration_conclude_iff]
    simp only [reviewLane_conformed, reviewVerdict_canonical hkeys h, ← hserved, ← hserved',
      ← hverdict, ← haside.background]
    exact ⟨(reviewLane_rejections _ _ _).mpr hfirst, (reviewLane_rejections _ _ _).mpr hsecond,
      trivial, hsome, trivial⟩

/-! ## The repair of a canonical document -/

variable (pyStr : Json → String) {bundle : EvidenceBundle F}

theorem texts_elementText (l : List String) : (l.map Json.str).map (elementText pyStr) = l := by
  rw [List.map_map]
  exact List.map_id l

theorem stringItem_canonical (scenario : Bool) (c : Claim) :
    stringItem u pyStr bundle scenario c.text (c.toJson.get "source_ids")
      (c.toJson.get "number_refs") = .ok ((repaired u bundle scenario c).map Claim.toJson) := by
  rw [get_sourceIds, get_numberRefs, stringItem, repaired]
  by_cases hblank : u.strip c.text.toList = []
  · rw [if_pos hblank, repairItem, if_pos hblank]
    rfl
  · rw [if_neg hblank]
    show Except.ok ((repairItem u bundle scenario c.text _ _).map Claim.toJson) = _
    rw [texts_elementText, texts_elementText]

theorem laneItem_canonical {key : String} (hkey : key ∈ ["claims", "scenarios"]) (c : Claim) :
    laneItem u pyStr bundle key c.toJson =
      .ok ((repaired u bundle (key = "scenarios") c).map Claim.toJson) := by
  rw [← stringItem_canonical pyStr]
  have hget := get_text c
  rw [toJson_eq] at hget ⊢
  rw [laneItem, if_pos hkey, hget]

/-- A canonical lane is repaired item by item. -/
theorem laneItems_canonical {key : String} (hkey : key ∈ ["claims", "scenarios"]) {raw : Json}
    {items : List Claim} (h : raw.get key = some (.arr (items.map Claim.toJson))) :
    laneItems u pyStr bundle raw key =
      .ok ((items.filterMap (repaired u bundle (key = "scenarios"))).map Claim.toJson) := by
  have hitems : (items.map Claim.toJson).mapM (laneItem u pyStr bundle key) =
      .ok (items.map fun c => (repaired u bundle (key = "scenarios") c).map Claim.toJson) := by
    rw [Lib.mapM_eq_ok_iff, List.forall₂_map_left_iff, List.forall₂_map_right_iff,
      List.forall₂_same]
    exact fun c _ => laneItem_canonical pyStr hkey c
  rw [laneItems, itemsAt, h]
  show (_ >>= fun items => _) = _
  rw [Option.getD_some, hitems]
  show Except.ok (List.filterMap id _) = _
  rw [List.filterMap_map, List.map_filterMap]
  rfl

/-- What the review reads of an item among the candidate facts. -/
def factOf (u : TextTables) (item : Json) : Option Fact :=
  conformFact (pruneItem ["text", "quote", "source_url"] (stripCot u item))

theorem factOf_toJson (hkeys : PlainKeys u) (c : Claim) : factOf u c.toJson = none := by
  rw [factOf, stripCot_toJson hkeys, toJson_eq, pruneItem, conformFact]
  cases textWithin 1 400 _ "text" <;> rfl

/-- The repair keeps an item among the candidate facts: what it makes of a text has no quote. -/
theorem laneItem_fact (hkeys : PlainKeys u) (item : Json) :
    ∃ kept, laneItem u pyStr bundle "candidate_facts" item = .ok kept ∧
      kept.bind (factOf u) = factOf u item := by
  cases item with
  | str text =>
      rw [laneItem, stringItem]
      split
      · exact ⟨none, rfl, rfl⟩
      · refine ⟨_, rfl, ?_⟩
        rw [Option.bind_map]
        cases repairItem u bundle _ text _ _ with
        | none => rfl
        | some c => exact factOf_toJson hkeys c
  | obj fields => exact ⟨_, by rw [laneItem, if_neg (by decide)], rfl⟩
  | _ => exact ⟨_, rfl, rfl⟩

/-- The repair keeps the candidate facts. -/
theorem laneItems_facts (hkeys : PlainKeys u) (raw : Json) :
    ∃ facts, laneItems u pyStr bundle raw "candidate_facts" = .ok facts ∧
      facts.filterMap (factOf u) =
        ((itemsAt raw "candidate_facts").getD []).filterMap (factOf u) := by
  rw [laneItems]
  generalize (itemsAt raw "candidate_facts").getD [] = items
  induction items with
  | nil => exact ⟨[], rfl, rfl⟩
  | cons item rest ih =>
      obtain ⟨facts, hfacts, heq⟩ := ih
      obtain ⟨kept, hkept, hitem⟩ := laneItem_fact pyStr hkeys item
      obtain ⟨results, hresults, hdone⟩ := bind_ok_iff.mp hfacts
      obtain rfl := Except.ok.inj hdone
      refine ⟨(kept :: results).filterMap id, ?_, ?_⟩
      · have hall : (item :: rest).mapM (laneItem u pyStr bundle "candidate_facts") =
            .ok (kept :: results) :=
          Lib.mapM_eq_ok_iff.mpr (.cons hkept (Lib.mapM_eq_ok_iff.mp hresults))
        rw [hall]
        rfl
      · rw [List.filterMap_cons (f := factOf u), ← hitem, ← heq]
        cases kept <;> rfl

/-- The facts a review reads are those of the lane. -/
theorem factsOf_eq (hkeys : PlainKeys u) (raw : Json) (options : Options) :
    factsOf u raw options = if options.allowCandidateFacts then
      ((itemsAt raw "candidate_facts").getD []).filterMap (factOf u) else [] := by
  have hplain : ¬(isCotKey u "candidate_facts" = true ∨ "candidate_facts" ∉ topKeys) := by
    rw [hkeys "candidate_facts" (by decide)]
    decide
  have hitems : itemsAt (pruneUnknown (stripCot u raw)) "candidate_facts" =
      (itemsAt raw "candidate_facts").map fun items => items.map fun item =>
        pruneItem ["text", "quote", "source_url"] (stripCot u item) := by
    rw [itemsAt, itemsAt, get_pruneUnknown_stripCot, if_neg hplain]
    cases hget : raw.get "candidate_facts" with
    | none => rfl
    | some value =>
        cases value with
        | arr items =>
            rw [Option.map_some, stripCot, stripCotItems_eq]
            simp [pruneLane, itemKeys, Lib.Fields.getField, claimKeys]
        | _ => rfl
  rw [factsOf, conformFacts.eq_def, hitems]
  cases itemsAt raw "candidate_facts" with
  | none => cases options.allowCandidateFacts <;> rfl
  | some items =>
      cases options.allowCandidateFacts with
      | false => rfl
      | true =>
          simp only [Option.map_some, List.filterMap_map, if_true, Option.getD_some]
          rfl

section Canonical

variable {raw : Json} {claims scenarios : List Claim} {verdict : Option Claim}

/-- A canonical document is no envelope. -/
theorem unwrap_canonical (h : CanonicalShape raw claims scenarios verdict) (n : Nat) :
    unwrap n raw = raw := by
  cases n with
  | zero => rfl
  | succ n =>
      cases hraw : raw with
      | obj fields =>
          have htop : fields.any (·.1 ∈ topKeys) = true := by
            have hget := h.claims
            rw [hraw, Json.get] at hget
            exact List.any_eq_true.mpr ⟨_, Lib.Fields.mem_of_getField hget,
              decide_eq_true (show "claims" ∈ topKeys by decide)⟩
          rw [unwrap.eq_def]
          exact if_pos htop
      | _ => rfl

/-- Its verdict holds no lanes. -/
theorem liftVerdict_canonical (h : CanonicalShape raw claims scenarios verdict) :
    liftVerdict raw = raw := by
  have hverdict := h.verdict
  rw [liftVerdict]
  cases hget : raw.get "verdict" with
  | none => rfl
  | some value =>
      rw [hget, Option.getD_some] at hverdict
      subst hverdict
      cases verdict with
      | none => rfl
      | some c =>
          rw [Option.map_some, Option.getD_some, toJson_eq]
          rfl

theorem repairVerdict_canonical (h : CanonicalShape raw claims scenarios verdict) :
    repairVerdict u pyStr bundle (raw.get "verdict") =
      .ok (((verdict.bind (repaired u bundle false)).map Claim.toJson).getD .null) := by
  have hverdict := h.verdict
  cases hget : raw.get "verdict" with
  | none =>
      rw [hget, Option.getD_none] at hverdict
      cases verdict with
      | none => rfl
      | some c =>
          rw [Option.map_some, toJson_eq] at hverdict
          cases hverdict
  | some value =>
      rw [hget, Option.getD_some] at hverdict
      subst hverdict
      cases verdict with
      | none => rfl
      | some c =>
          rw [Option.map_some, Option.getD_some, Option.bind_some]
          have hitem : stringItem u pyStr bundle false c.text (c.toJson.get "source_ids")
              (c.toJson.get "number_refs") = .ok ((repaired u bundle false c).map Claim.toJson) :=
            stringItem_canonical pyStr false c
          have hget := get_text c
          rw [toJson_eq] at hget hitem ⊢
          rw [repairVerdict, hget]
          dsimp only
          rw [hitem]
          rfl
          exact nofun

/-- **The repair of a canonical document** is one, of the repaired items, with the rest as it was. -/
theorem normalize_canonical (bundle : EvidenceBundle F) (hkeys : PlainKeys u)
    (h : CanonicalShape raw claims scenarios verdict) :
    ∃ raw', normalizeNarrationShape u pyStr raw bundle = .ok raw' ∧
      CanonicalShape raw' (claims.filterMap (repaired u bundle false))
        (scenarios.filterMap (repaired u bundle true)) (verdict.bind (repaired u bundle false)) ∧
      (∀ options, factsOf u raw' options = factsOf u raw options) ∧
      ∀ key ∈ ["background", "research_notes"], raw'.get key = raw.get key := by
  obtain ⟨facts, hfacts, hsame⟩ : ∃ facts, laneItems u pyStr bundle raw "candidate_facts" =
      .ok facts ∧ facts.filterMap (factOf u) =
        ((itemsAt raw "candidate_facts").getD []).filterMap (factOf u) :=
    laneItems_facts pyStr hkeys raw
  have hclaims : laneItems u pyStr bundle raw "claims" =
      .ok ((claims.filterMap (repaired u bundle false)).map Claim.toJson) :=
    laneItems_canonical pyStr (by decide) h.claims
  have hscenarios : laneItems u pyStr bundle raw "scenarios" =
      .ok ((scenarios.filterMap (repaired u bundle true)).map Claim.toJson) :=
    laneItems_canonical pyStr (by decide) h.scenarios
  have hobj := h.isObj
  set v := ((verdict.bind (repaired u bundle false)).map Claim.toJson).getD .null with hv
  set cs := Json.arr ((claims.filterMap (repaired u bundle false)).map Claim.toJson) with hcs
  set ss := Json.arr ((scenarios.filterMap (repaired u bundle true)).map Claim.toJson) with hss
  refine ⟨(((raw.set "verdict" v).set "claims" cs).set "scenarios" ss).set "candidate_facts"
    (.arr facts), ?_, ⟨?_, ?_, ?_, ?_⟩, ?_, ?_⟩
  · rw [normalizeNarrationShape, hobj, unwrap_canonical h, liftVerdict_canonical h]
    simp only [Bool.true_eq_false, if_false]
    rw [repairVerdict_canonical pyStr h, hclaims, hscenarios, hfacts]
    rfl
  · simp [hobj]
  · rw [Json.get_set_ne (by decide), Json.get_set_ne (by decide), Json.get_set_self (by simp [hobj])]
  · rw [Json.get_set_ne (by decide), Json.get_set_self (by simp [hobj])]
  · rw [Json.get_set_ne (by decide), Json.get_set_ne (by decide), Json.get_set_ne (by decide),
      Json.get_set_self hobj, Option.getD_some]
  · intro options
    rw [factsOf_eq hkeys, factsOf_eq hkeys, itemsAt, Json.get_set_self (by simp [hobj])]
    simp only [Option.getD_some, hsame]
  · intro key hkey
    simp only [List.mem_cons, List.not_mem_nil, or_false] at hkey
    obtain rfl | rfl := hkey <;>
      rw [Json.get_set_ne (by decide), Json.get_set_ne (by decide), Json.get_set_ne (by decide),
        Json.get_set_ne (by decide)]

/-! ## What is kept -/

/-- A claim or a scenario that is served as it is is served repaired, under its tidied text. -/
def KeptItem (u : TextTables) (bundle : EvidenceBundle F) (scenario : Bool) (c : Claim) : Prop :=
  served u bundle.toBundle c ≠ none →
    ∃ s, (repaired u bundle scenario c).bind (served u bundle.toBundle) = some s ∧
      s.text = String.ofList (tidied u bundle scenario c).text

/-- The same of a verdict. -/
def KeptVerdict (u : TextTables) (bundle : EvidenceBundle F) (c : Claim) : Prop :=
  servedVerdict u bundle.toBundle c ≠ none →
    ∃ s, (repaired u bundle false c).bind (servedVerdict u bundle.toBundle) = some s ∧
      s.text = String.ofList (tidied u bundle false c).text

/-- The repaired document is accepted; each of its items is what is served of the item it was made of,
and none that was served before is lost. -/
structure LosesNothing (u : TextTables) (fl : Floats F) (pyStr : Json → String)
    (bundle : EvidenceBundle F) (options : Options) (raw : Json) (claims scenarios : List Claim)
    (verdict : Option Claim) : Prop where
  accepted : ∃ raw' r n, normalizeNarrationShape u pyStr raw bundle = .ok raw' ∧
    reviewNarration u fl raw' bundle.toBundle options = .ok r ∧ r.narration = some n ∧
    n.claims = claims.filterMap (fun c =>
      (repaired u bundle false c).bind (served u bundle.toBundle)) ∧
    n.scenarios = scenarios.filterMap (fun c =>
      (repaired u bundle true c).bind (served u bundle.toBundle)) ∧
    n.verdict = verdict.bind fun c =>
      (repaired u bundle false c).bind (servedVerdict u bundle.toBundle)
  claims : ∀ c ∈ claims, KeptItem u bundle false c
  scenarios : ∀ c ∈ scenarios, KeptItem u bundle true c
  verdict : ∀ c ∈ verdict, KeptVerdict u bundle c

/-- Every item that is served can be said again without its ids, and no repaired text has a credential
shape. -/
structure AllRestated (u : TextTables) (bundle : EvidenceBundle F) (claims scenarios : List Claim)
    (verdict : Option Claim) : Prop where
  secretFree : SecretFree u (claims.filterMap (repaired u bundle false)) ∧
    SecretFree u (scenarios.filterMap (repaired u bundle true))
  claims : ∀ c ∈ claims, served u bundle.toBundle c ≠ none → Restated u bundle false c
  scenarios : ∀ c ∈ scenarios, served u bundle.toBundle c ≠ none → Restated u bundle true c
  verdict : ∀ c ∈ verdict, servedVerdict u bundle.toBundle c ≠ none → Restated u bundle false c ∧
    containsSecretPattern u (String.ofList (tidied u bundle false c).text) = []

/-- An item that is served cites a source of the bundle. -/
theorem citedBy_of_served {c : Claim} (h : served u bundle.toBundle c ≠ none) :
    citedBy u bundle.toBundle c.sourceIds ≠ [] := by
  obtain ⟨s, hs⟩ := Option.ne_none_iff_exists'.mp h
  obtain ⟨k, hk, hserve⟩ := Option.bind_eq_some_iff.mp hs
  rw [conformed] at hk
  split_ifs at hk
  obtain rfl := Option.some.inj hk
  exact (serve_eq_some_iff.mp hserve).2.2.1

theorem keptItem_iff (hvalid : ValidNumbers u bundle.toBundle) {scenario : Bool} {c : Claim} :
    KeptItem u bundle scenario c ↔
      (served u bundle.toBundle c ≠ none → Restated u bundle scenario c) :=
  forall_congr' fun h => served_repaired_iff hvalid (citedBy_of_served h)

/-- A repaired item has the tidied text. -/
theorem text_of_repaired {scenario : Bool} {c k : Claim}
    (h : repaired u bundle scenario c = some k) :
    k.text = String.ofList (tidied u bundle scenario c).text := by
  rw [repaired, repairItem] at h
  split_ifs at h
  rw [← Option.some.inj h]
  rfl

theorem keptVerdict_iff (hvalid : ValidNumbers u bundle.toBundle) {c : Claim} :
    KeptVerdict u bundle c ↔ (servedVerdict u bundle.toBundle c ≠ none →
      Restated u bundle false c ∧
        containsSecretPattern u (String.ofList (tidied u bundle false c).text) = []) := by
  refine forall_congr' fun h => ?_
  have hserved : served u bundle.toBundle c ≠ none := by
    intro hnone
    rw [servedVerdict, hnone] at h
    exact h rfl
  rw [← served_repaired_iff hvalid (citedBy_of_served hserved)]
  cases hrepaired : repaired u bundle false c with
  | none => simp
  | some k =>
      rw [← text_of_repaired hrepaired]
      simp only [Option.bind_some, servedVerdict, Option.filter_eq_some_iff, decide_eq_true_eq]
      constructor
      · rintro ⟨s, ⟨hs, hsecret⟩, htext⟩
        exact ⟨⟨s, hs, htext⟩, hsecret⟩
      · rintro ⟨⟨s, hs, htext⟩, hsecret⟩
        exact ⟨s, ⟨hs, hsecret⟩, htext⟩

/-- A lane whose served items are all kept is left with some if it had some. -/
theorem served_eq_nil {scenario : Bool} {items : List Claim}
    (hkept : ∀ c ∈ items, KeptItem u bundle scenario c)
    (h : (items.filterMap (repaired u bundle scenario)).filterMap (served u bundle.toBundle) = []) :
    items.filterMap (served u bundle.toBundle) = [] := by
  rw [List.filterMap_filterMap] at h
  rw [List.filterMap_eq_nil_iff] at h ⊢
  intro c hc
  by_contra hserved
  obtain ⟨s, hs, -⟩ := hkept c hc hserved
  rw [h c hc] at hs
  cases hs

/-- What is taken out of a raw output beside its lanes does not depend on them. -/
theorem Aside.congr {bundle : Bundle F} {options : Options} {raw raw' : Json}
    {facts research : List Fact} {background : List BackgroundNote}
    (hfacts : factsOf u raw' options = factsOf u raw options)
    (hsoft : ∀ key ∈ ["background", "research_notes"], raw'.get key = raw.get key)
    (h : Aside u fl bundle options raw facts research background) :
    Aside u fl bundle options raw' facts research background := by
  have hget : ∀ key ∈ ["background", "research_notes"],
      (pruneUnknown (stripCot u raw')).get key = (pruneUnknown (stripCot u raw)).get key := by
    intro key hkey
    rw [get_pruneUnknown_stripCot, get_pruneUnknown_stripCot, hsoft key hkey]
  constructor
  · rw [hfacts]
    exact h.facts
  · rw [hget _ (by decide)]
    exact h.research
  · rw [hget _ (by decide)]
    exact h.background

/-- **What the shape repair loses.** Of a canonical narration that is accepted, the repair loses nothing
exactly when every item that is served can be said again without its ids: each of its numbers is a
display that stands on its own by the repair's boundary rule, taken for a number of a source it
cites. -/
theorem shape_repair_iff (hkeys : PlainKeys u) (hvalid : ValidNumbers u bundle.toBundle)
    {options : Options} (h : CanonicalShape raw claims scenarios verdict)
    (haccepted : ∃ r n, reviewNarration u fl raw bundle.toBundle options = .ok r ∧
      r.narration = some n) :
    LosesNothing u fl pyStr bundle options raw claims scenarios verdict ↔
      AllRestated u bundle claims scenarios verdict := by
  obtain ⟨r, n, hr, hn⟩ := haccepted
  obtain ⟨haside, -, -, hsome, -, hclaims, hscenarios⟩ := (review_canonical fl hkeys h).mp ⟨r, hr, hn⟩
  obtain ⟨raw', hraw', hcanonical, hfacts, hsoft⟩ := normalize_canonical pyStr bundle hkeys h
  constructor
  · rintro ⟨⟨raw'', r', n', hraw'', hr', hn', -, -, -⟩, hclaims', hscenarios', hverdict'⟩
    obtain rfl := Except.ok.inj (hraw'.symm.trans hraw'')
    obtain ⟨-, hfree, hfree', -⟩ := (review_canonical fl hkeys hcanonical).mp ⟨r', hr', hn'⟩
    exact ⟨⟨hfree, hfree'⟩, fun c hc => (keptItem_iff hvalid).mp (hclaims' c hc),
      fun c hc => (keptItem_iff hvalid).mp (hscenarios' c hc),
      fun c hc => (keptVerdict_iff hvalid).mp (hverdict' c hc)⟩
  · intro hall
    have hkept : ∀ c ∈ claims, KeptItem u bundle false c := fun c hc =>
      (keptItem_iff hvalid).mpr (hall.claims c hc)
    have hkept' : ∀ c ∈ scenarios, KeptItem u bundle true c := fun c hc =>
      (keptItem_iff hvalid).mpr (hall.scenarios c hc)
    refine ⟨?_, hkept, hkept', fun c hc => (keptVerdict_iff hvalid).mpr (hall.verdict c hc)⟩
    have hleft : ¬((claims.filterMap (repaired u bundle false)).filterMap
        (served u bundle.toBundle) = [] ∧ (scenarios.filterMap (repaired u bundle true)).filterMap
          (served u bundle.toBundle) = []) := by
      rintro ⟨hnone, hnone'⟩
      rw [hclaims, hscenarios] at hsome
      exact hsome ⟨served_eq_nil hkept hnone, served_eq_nil hkept' hnone'⟩
    obtain ⟨r', hr', hn'⟩ := (review_canonical fl hkeys hcanonical
      (n := ⟨(verdict.bind (repaired u bundle false)).bind (servedVerdict u bundle.toBundle),
        (claims.filterMap (repaired u bundle false)).filterMap (served u bundle.toBundle),
        (scenarios.filterMap (repaired u bundle true)).filterMap (served u bundle.toBundle),
        n.candidateFacts, n.researchNotes, n.background⟩)).mpr
        ⟨haside.congr fl (hfacts options) hsoft, hall.secretFree.1, hall.secretFree.2, hleft, rfl,
          rfl, rfl⟩
    exact ⟨raw', r', _, hraw', hr', hn', List.filterMap_filterMap, List.filterMap_filterMap,
      Option.bind_assoc ..⟩

end Canonical

/-! ## A hyphenated scoreline -/

/-- A final with the goals of each side. -/
def scoreBundle : EvidenceBundle Int where
  homeTeam := "Spain"
  awayTeam := "France"
  competition := "UEFA Euro"
  stage := none
  city := none
  country := none
  sources := [("pack", "Golavo pack")]
  allowedNumbers := [⟨"g2", 2, "2", ["pack"]⟩, ⟨"g1", 1, "1", ["pack"]⟩]
  label := fun place => if place = 0 then "Spain goals" else "France goals"

/-- A claim that gives both goals. -/
def scoreClaim (text : String) : Claim := ⟨text, ["pack"], ["g2", "g1"]⟩

/-- A narration of one claim. -/
def scoreNarration (text : String) : Json :=
  .mk [("claims", .arr [(scoreClaim text).toJson]), ("scenarios", .arr [])]

theorem scoreNarration_canonical (text : String) :
    CanonicalShape (scoreNarration text) [scoreClaim text] [] none := by
  constructor
  · rfl
  · rw [scoreNarration, Json.get_mk]
    rfl
  · rw [scoreNarration, Json.get_mk]
    rfl
  · rw [scoreNarration, Json.get_mk]
    rfl

theorem scoreBundle_valid : ValidNumbers TextTables.ascii scoreBundle.toBundle :=
  ⟨by decide, by decide +kernel⟩

theorem plainKeys_ascii : PlainKeys TextTables.ascii := by
  unfold PlainKeys
  decide +kernel

/-- A review that accepts serves something. -/
theorem served_of_accepted {raw : Json} {bundle : Bundle F} {options : Options}
    (h : (reviewNarration u fl raw bundle options).toOption.map (·.accepted) = some true) :
    ∃ r n, reviewNarration u fl raw bundle options = .ok r ∧ r.narration = some n := by
  obtain ⟨r, hr, haccepted⟩ := Option.map_eq_some_iff.mp h
  obtain ⟨n, hn⟩ := Option.isSome_iff_exists.mp haccepted
  exact ⟨r, n, Lib.toOption_eq_some.mp hr, hn⟩

/-- Goals that stand apart survive the repair. -/
theorem shape_repair_apart :
    LosesNothing TextTables.ascii wholeFloats (fun _ => "") scoreBundle {}
      (scoreNarration "Spain won with 2 goals to 1.") [scoreClaim "Spain won with 2 goals to 1."] []
      none := by
  refine (shape_repair_iff wholeFloats (fun _ => "") plainKeys_ascii scoreBundle_valid
    (scoreNarration_canonical _) (served_of_accepted wholeFloats (by decide +kernel))).mpr
      ⟨⟨?_, nofun⟩, ?_, nofun, nofun⟩
  · unfold SecretFree
    decide +kernel
  · intro c hc _
    obtain rfl := List.mem_singleton.mp hc
    exact ⟨by decide +kernel, by decide +kernel, by decide +kernel, by decide +kernel,
      by decide +kernel, by decide +kernel, fun m hm => (mem_shown_iff scoreBundle_valid).mp
        ((by decide +kernel : ∀ m ∈ (numberRe TextTables.ascii).findAll _, m.text ∈ shown _ _ _) m
          hm)⟩

/-- A scoreline with a hyphen is accepted as it is, and not once it is repaired: the goals behind the
hyphen do not stand on their own. -/
theorem shape_repair_hyphen :
    CanonicalShape (scoreNarration "Spain won 2-1.") [scoreClaim "Spain won 2-1."] [] none ∧
      (reviewNarration TextTables.ascii wholeFloats (scoreNarration "Spain won 2-1.")
        scoreBundle.toBundle {}).toOption.map (·.accepted) = some true ∧
      ((normalizeNarrationShape TextTables.ascii (fun _ => "") (scoreNarration "Spain won 2-1.")
        scoreBundle).toOption.bind fun raw => (reviewNarration TextTables.ascii wholeFloats raw
          scoreBundle.toBundle {}).toOption.map (·.accepted)) = some false :=
  ⟨scoreNarration_canonical _, by decide +kernel, by decide +kernel⟩

end Golavo.Narration
