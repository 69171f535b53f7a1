import Golavo.Narration.Shape
import Golavo.Narration.SoftLanes
import Golavo.Narration.Tokens

/-! # Reviewing a repaired item

A narration in canonical shape goes through the repair on its way to the review. The repair takes ids
out of its texts and derives the number references anew, by a boundary rule of its own. A repaired
item is served exactly when it can be said again without its ids (`served_repaired_iff`). -/

namespace Golavo.Narration

open Golavo.Lib (Json Regex bind_ok_iff)

variable {F : Type} {u : TextTables}

/-! ## The number that is chosen -/

theorem mem_of_firstBest {α : Type} {score : α → Nat} {l : List α} {a : α}
    (h : firstBest score l = some a) : a ∈ l := by
  cases l with
  | nil => cases h
  | cons x rest =>
      rw [firstBest, Option.some.injEq] at h
      suffices hfold : ∀ (rest : List α) (x : α), rest.foldl
          (fun best y => if score best < score y then y else best) x ∈ x :: rest from h ▸ hfold rest x
      intro rest
      induction rest with
      | nil => exact fun x => List.mem_singleton_self x
      | cons y rest ih =>
          intro x
          rw [List.foldl_cons]
          obtain heq | hmem := List.mem_cons.mp (ih (if score x < score y then y else x))
          · rw [heq]
            split
            · exact List.mem_cons_of_mem _ List.mem_cons_self
            · exact List.mem_cons_self
          · exact List.mem_cons_of_mem _ (List.mem_cons_of_mem _ hmem)

theorem mem_of_numberById {bundle : Bundle F} {id : String} {n : AllowedNumber F}
    (h : bundle.numberById id = some n) : n ∈ bundle.allowedNumbers ∧ n.id = id := by
  rw [Bundle.numberById] at h
  exact ⟨List.mem_reverse.mp (List.mem_of_find?_eq_some h), by simpa using List.find?_some h⟩

/-- What `validate_evidence_bundle` guarantees of the numbers: their ids are not blank, and none
stands twice. -/
structure ValidNumbers (u : TextTables) (bundle : Bundle F) : Prop where
  distinct : (bundle.allowedNumbers.map (·.id)).Nodup
  visible : ∀ n ∈ bundle.allowedNumbers, u.strip n.id.toList ≠ []

theorem ValidNumbers.numberById {bundle : Bundle F} (h : ValidNumbers u bundle)
    {n : AllowedNumber F} (hn : n ∈ bundle.allowedNumbers) : bundle.numberById n.id = some n := by
  cases hfind : bundle.numberById n.id with
  | none =>
      rw [Bundle.numberById, List.find?_eq_none] at hfind
      exact absurd (decide_eq_true rfl) (hfind n (List.mem_reverse.mpr hn))
  | some m =>
      obtain ⟨hm, hid⟩ := mem_of_numberById hfind
      rw [List.inj_on_of_nodup_map h.distinct hm hn hid]

variable {bundle : EvidenceBundle F}

/-- The number chosen for a display is one of the bundle's that shows it. -/
theorem of_chooseNumber {t : Tidied} {display : String} {n : AllowedNumber F}
    (h : chooseNumber u bundle t display = some n) :
    n ∈ bundle.allowedNumbers ∧ isCandidate t display n = true := by
  unfold chooseNumber at h
  split at h
  · next m hfind =>
      cases h
      obtain ⟨ref, -, href⟩ := List.mem_filterMap.mp (List.mem_of_find?_eq_some hfind)
      exact ⟨(mem_of_numberById href).1, List.find?_some hfind⟩
  · obtain ⟨⟨m, label⟩, hbest, rfl⟩ := Option.map_eq_some_iff.mp h
    obtain ⟨hmem, hcandidate⟩ := List.mem_filter.mp (mem_of_firstBest hbest)
    obtain ⟨⟨k, i⟩, hk, heq⟩ := List.mem_map.mp hmem
    cases heq
    exact ⟨List.mem_of_getElem? (List.mem_zipIdx_iff_getElem?.mp hk), hcandidate⟩

theorem display_of_chooseNumber {t : Tidied} {display : String} {n : AllowedNumber F}
    (h : chooseNumber u bundle t display = some n) : n.display = display := by
  have := (of_chooseNumber h).2
  rw [isCandidate, Bool.and_eq_true] at this
  exact of_decide_eq_true this.1

/-- A display that stands on its own in a text occurs there. -/
theorem occursIn_of_displayInText {display text : List Char}
    (h : displayInText u display text = true) : occursIn display text = true := by
  rw [displayInText, List.any_eq_true] at h
  obtain ⟨i, -, hi⟩ := h
  simp only [standsAt, Bool.and_eq_true] at hi
  exact List.any_eq_true.mpr ⟨text.drop i, (List.mem_tails _ _).mpr (List.drop_suffix i text), hi.1.1⟩

/-! ## Reviewing a repaired item -/

/-- The source ids of an item that the review goes by. -/
def citedBy (u : TextTables) (bundle : Bundle F) (sources : List String) : List String :=
  (sources.filter fun s => u.strip s.toList ≠ []).filter (· ∈ bundle.sourceIds)

/-- What a review serves of an item, wherever it stands. -/
def serve (u : TextTables) (bundle : Bundle F) (item : Claim) : Option Claim :=
  (reviewItem u bundle "" 0 item).1

theorem reviewItem_fst (bundle : Bundle F) (kind : String) (index : Nat) (item : Claim) :
    (reviewItem u bundle kind index item).1 = serve u bundle item := by
  unfold serve reviewItem
  dsimp only
  split_ifs <;> rfl

/-- The rejections of an item: it has a credential shape. -/
theorem rejections_reviewItem (bundle : Bundle F) (kind : String) (index : Nat) (item : Claim) :
    (reviewItem u bundle kind index item).2.rejections =
      if containsSecretPattern u item.text ≠ [] then [.credential kind index] else [] := by
  unfold reviewItem
  dsimp only
  split_ifs <;> rfl

theorem serve_eq_some_iff {bundle : Bundle F} {item s : Claim} :
    serve u bundle item = some s ↔
      containsBettingLexicon u item.text = [] ∧ (cotMarkerRe u).found item.text.toList = false ∧
      item.sourceIds.filter (· ∈ bundle.sourceIds) ≠ [] ∧
      unsupportedNumberTokens u item.text bundle.allowedNumbers (survivingRefs bundle item.text
        (item.sourceIds.filter (· ∈ bundle.sourceIds)) item.numberRefs) (safeLiterals bundle) = [] ∧
      s = ⟨item.text, item.sourceIds.filter (· ∈ bundle.sourceIds), survivingRefs bundle item.text
        (item.sourceIds.filter (· ∈ bundle.sourceIds)) item.numberRefs⟩ := by
  unfold serve reviewItem
  dsimp only
  generalize item.sourceIds.filter (· ∈ bundle.sourceIds) = cited
  by_cases hbetting : containsBettingLexicon u item.text = []
  · by_cases hcot : (cotMarkerRe u).found item.text.toList = true
    · simp [hbetting, hcot]
    · by_cases hcited : cited = []
      · simp [hbetting, hcot, hcited]
      · by_cases hnumbers : unsupportedNumberTokens u item.text bundle.allowedNumbers
            (survivingRefs bundle item.text cited item.numberRefs) (safeLiterals bundle) = []
        · simpa [hbetting, hcot, hcited, hnumbers] using eq_comm
        · simp [hbetting, hcot, hcited, hnumbers]
  · simp [hbetting]

/-- An item as the review conforms it. -/
def conformed (u : TextTables) (c : Claim) : Option Claim :=
  if 1 ≤ c.text.length ∧ c.text.length ≤ 600 then
    some ⟨c.text, c.sourceIds.filter fun s => u.strip s.toList ≠ [],
      c.numberRefs.filter fun s => u.strip s.toList ≠ []⟩
  else none

/-- What is served of an item of a lane. -/
def served (u : TextTables) (bundle : Bundle F) (c : Claim) : Option Claim :=
  (conformed u c).bind (serve u bundle)

/-! ## What a repair keeps of an item -/

/-- An item once its ids are taken out. -/
def tidied (u : TextTables) (bundle : EvidenceBundle F) (scenario : Bool) (c : Claim) : Tidied :=
  tidy u bundle.toBundle scenario c.text.toList c.sourceIds c.numberRefs

/-- A canonical item repaired. -/
def repaired (u : TextTables) (bundle : EvidenceBundle F) (scenario : Bool) (c : Claim) :
    Option Claim :=
  repairItem u bundle scenario c.text c.sourceIds c.numberRefs

/-- A number of a tidied text is recovered: it is a display that stands on its own there, and the
number chosen for that display is of a source the item cites. -/
def Recovered (u : TextTables) (bundle : EvidenceBundle F) (t : Tidied) (token : List Char) : Prop :=
  ∃ display ∈ standingDisplays u bundle.toBundle t.text, ∃ n,
    chooseNumber u bundle t display = some n ∧
      n.sourceIds.any (· ∈ citedBy u bundle.toBundle t.cited) = true ∧
      u.nfkc display.toList = token

/-- An item can be said again without its ids: its text is not blank and fits, has no betting term and
no marker of reasoning, no number word and no fraction, and each of its numbers is recovered. -/
structure Restated (u : TextTables) (bundle : EvidenceBundle F) (scenario : Bool) (c : Claim) :
    Prop where
  visible : u.strip c.text.toList ≠ []
  fits : 1 ≤ (tidied u bundle scenario c).text.length ∧
    (tidied u bundle scenario c).text.length ≤ 600
  betting : containsBettingLexicon u (String.ofList (tidied u bundle scenario c).text) = []
  reasoning : (cotMarkerRe u).found (tidied u bundle scenario c).text = false
  fractions : (fractionRe u).findAll (cleanedText u
    (String.ofList (tidied u bundle scenario c).text) (safeLiterals bundle.toBundle)) = []
  words : (narrationWordRe u).findAll (cleanedText u
    (String.ofList (tidied u bundle scenario c).text) (safeLiterals bundle.toBundle)) = []
  numbers : ∀ m ∈ (numberRe u).findAll (cleanedText u
    (String.ofList (tidied u bundle scenario c).text) (safeLiterals bundle.toBundle)),
      Recovered u bundle (tidied u bundle scenario c) m.text

/-- What an item cites stays cited. -/
theorem citedBy_tidied (scenario : Bool) {c : Claim} (h : citedBy u bundle.toBundle c.sourceIds ≠ []) :
    citedBy u bundle.toBundle (tidied u bundle scenario c).cited ≠ [] := by
  obtain ⟨s, hs⟩ := List.exists_mem_of_ne_nil _ h
  obtain ⟨hvisible, hin⟩ := List.mem_filter.mp hs
  obtain ⟨hmem, hvisible⟩ := List.mem_filter.mp hvisible
  refine List.ne_nil_of_mem (a := s) (List.mem_filter.mpr ⟨List.mem_filter.mpr ⟨?_, hvisible⟩, hin⟩)
  have hnamed : ∀ others : List String,
      s ∈ (c.sourceIds.filter (· ∈ bundle.sourceIds) ++ others).eraseDups := fun others =>
    List.mem_eraseDups.mpr (List.mem_append_left _ (List.mem_filter.mpr ⟨hmem, hin⟩))
  simp only [tidied, tidy]
  cases inlineSources u bundle.toBundle _ with
  | none => exact hnamed _
  | some found => exact List.mem_eraseDups.mpr (List.mem_append_left _ (hnamed _))

/-- The references of a repaired item that survive its review show exactly what is recovered. -/
theorem mem_shown_iff (hvalid : ValidNumbers u bundle.toBundle) {t : Tidied} {token : List Char} :
    token ∈ shown u bundle.allowedNumbers (survivingRefs bundle.toBundle (String.ofList t.text)
      (citedBy u bundle.toBundle t.cited) (derivedRefs u bundle t)) ↔
        Recovered u bundle t token := by
  simp only [shown, List.mem_map, List.mem_filter, decide_eq_true_eq, survivingRefs, derivedRefs,
    List.mem_filterMap, String.toList_ofList]
  constructor
  · rintro ⟨m, ⟨hm, ⟨display, hdisplay, hchosen⟩, hsurvives⟩, rfl⟩
    obtain ⟨n, hn, hid⟩ := Option.map_eq_some_iff.mp hchosen
    have hnm : n = m := List.inj_on_of_nodup_map hvalid.distinct (of_chooseNumber hn).1 hm hid
    subst hnm
    rw [hvalid.numberById hm, Option.any_some, Bool.and_eq_true] at hsurvives
    exact ⟨display, hdisplay, n, hn, hsurvives.1, by rw [display_of_chooseNumber hn]⟩
  · rintro ⟨display, hdisplay, n, hn, hcites, rfl⟩
    obtain ⟨hmem, -⟩ := of_chooseNumber hn
    refine ⟨n, ⟨hmem, ⟨display, hdisplay, by rw [hn]; rfl⟩, ?_⟩, by rw [display_of_chooseNumber hn]⟩
    rw [hvalid.numberById hmem, Option.any_some, hcites, Bool.true_and, display_of_chooseNumber hn]
    exact occursIn_of_displayInText (List.mem_filter.mp (List.mem_eraseDups.mp hdisplay)).2

/-- **What becomes of a served item.** Its repaired form is served exactly when it is restated, and
then under the tidied text. -/
theorem served_repaired_iff (hvalid : ValidNumbers u bundle.toBundle) {scenario : Bool} {c : Claim}
    (hcited : citedBy u bundle.toBundle c.sourceIds ≠ []) :
    (∃ s, (repaired u bundle scenario c).bind (served u bundle.toBundle) = some s ∧
      s.text = String.ofList (tidied u bundle scenario c).text) ↔ Restated u bundle scenario c := by
  have hne := citedBy_tidied scenario hcited
  set t := tidied u bundle scenario c with ht
  have hcitedNe : t.cited ≠ [] := by
    rintro hnil
    rw [hnil] at hne
    exact hne rfl
  have hrefs : (derivedRefs u bundle t).filter (fun s => u.strip s.toList ≠ []) =
      derivedRefs u bundle t := by
    refine List.filter_eq_self.mpr fun s hs => ?_
    obtain ⟨display, -, hchosen⟩ := List.mem_filterMap.mp hs
    obtain ⟨n, hn, rfl⟩ := Option.map_eq_some_iff.mp hchosen
    exact decide_eq_true (hvalid.visible n (of_chooseNumber hn).1)
  by_cases hvisible : u.strip c.text.toList = []
  · refine iff_of_false ?_ fun h => h.visible hvisible
    rintro ⟨s, hs, -⟩
    rw [repaired, repairItem, if_pos hvisible] at hs
    cases hs
  · have hrepaired : repaired u bundle scenario c =
        some ⟨String.ofList t.text, t.cited, derivedRefs u bundle t⟩ := by
      rw [repaired, repairItem, if_neg hvisible]
      dsimp only
      rw [← tidied, ← ht, derivedSources, if_neg hcitedNe]
    rw [hrepaired, Option.bind_some, served, conformed]
    have hlength : (String.ofList t.text).length = t.text.length := String.length_ofList
    by_cases hfits : 1 ≤ t.text.length ∧ t.text.length ≤ 600
    · rw [hlength, if_pos hfits, Option.bind_some, hrefs]
      simp only [serve_eq_some_iff, String.toList_ofList]
      constructor
      · rintro ⟨s, ⟨hbetting, hreasoning, -, hsupported, -⟩, -⟩
        obtain ⟨hfractions, hwords, hnumbers⟩ := unsupportedNumberTokens_eq_nil_iff.mp hsupported
        exact ⟨hvisible, hfits, hbetting, hreasoning, hfractions, hwords, fun m hm =>
          (mem_shown_iff hvalid).mp (hnumbers m hm)⟩
      · rintro ⟨-, -, hbetting, hreasoning, hfractions, hwords, hnumbers⟩
        exact ⟨_, ⟨hbetting, hreasoning, hne, unsupportedNumberTokens_eq_nil_iff.mpr ⟨hfractions,
          hwords, fun m hm => (mem_shown_iff hvalid).mpr (hnumbers m hm)⟩, rfl⟩, rfl⟩
    · rw [hlength, if_neg hfits]
      refine iff_of_false ?_ fun h => hfits h.fits
      rintro ⟨s, hs, -⟩
      cases hs

/-! ## Documents in canonical shape -/

/-- The keys of the wire schema carry no reasoning: `str.lower` leaves them as they are. -/
def PlainKeys (u : TextTables) : Prop := ∀ key ∈ topKeys ++ claimKeys, isCotKey u key = false

/-- A narration in canonical shape: lanes of claims, and a claim or nothing for a verdict. -/
structure CanonicalShape (raw : Json) (claims scenarios : List Claim) (verdict : Option Claim) :
    Prop where
  isObj : raw.isObj = true
  claims : raw.get "claims" = some (.arr (claims.map Claim.toJson))
  scenarios : raw.get "scenarios" = some (.arr (scenarios.map Claim.toJson))
  verdict : (raw.get "verdict").getD .null = (verdict.map Claim.toJson).getD .null

theorem toJson_eq (c : Claim) : c.toJson = .obj [("number_refs", .arr (c.numberRefs.map .str)),
    ("source_ids", .arr (c.sourceIds.map .str)), ("text", .str c.text)] := by
  have htext : ("source_ids" : String) < "text" := by decide
  have hrefs : ("number_refs" : String) < "source_ids" := by decide
  simp [Claim.toJson, Json.mk, Lib.Fields.setField, htext, hrefs]

theorem get_text (c : Claim) : c.toJson.get "text" = some (.str c.text) := by
  simp [toJson_eq, Json.get, Lib.Fields.getField]

theorem get_sourceIds (c : Claim) :
    c.toJson.get "source_ids" = some (.arr (c.sourceIds.map .str)) := by
  simp [toJson_eq, Json.get, Lib.Fields.getField]

theorem get_numberRefs (c : Claim) :
    c.toJson.get "number_refs" = some (.arr (c.numberRefs.map .str)) := by
  simp [toJson_eq, Json.get, Lib.Fields.getField]

theorem stripCotItems_eq (items : List Json) : stripCotItems u items = items.map (stripCot u) := by
  induction items with
  | nil => rfl
  | cons item rest ih => rw [stripCotItems, ih, List.map_cons]

theorem stripCot_toJson (hkeys : PlainKeys u) (c : Claim) : stripCot u c.toJson = c.toJson := by
  have htexts : ∀ l : List String, stripCotItems u (l.map .str) = l.map .str := fun l => by
    rw [stripCotItems_eq, List.map_map]
    rfl
  have hplain : isCotKey u "number_refs" = false ∧ isCotKey u "source_ids" = false ∧
      isCotKey u "text" = false := ⟨hkeys _ (by decide), hkeys _ (by decide), hkeys _ (by decide)⟩
  simp [toJson_eq, stripCot, stripCotFields, hplain, htexts]

theorem pruneItem_toJson (c : Claim) : pruneItem claimKeys c.toJson = c.toJson := by
  rw [toJson_eq, pruneItem]
  rfl

theorem cleanStrList_texts (l : List String) : cleanStrList u (some (.arr (l.map .str))) =
    l.filter fun s => u.strip s.toList ≠ [] := by
  rw [cleanStrList, List.filterMap_map]
  induction l with
  | nil => rfl
  | cons s rest ih =>
      rw [List.filterMap_cons, List.filter_cons, ih]
      by_cases h : u.strip s.toList = [] <;> simp [Json.text?, Option.filter, h]

theorem conformClaim_toJson (c : Claim) : conformClaim u c.toJson = conformed u c := by
  rw [conformClaim, textWithin, textAt, get_text, get_sourceIds, get_numberRefs,
    cleanStrList_texts, cleanStrList_texts, Option.bind_some, Json.text?, conformed]
  by_cases h : 1 ≤ c.text.length ∧ c.text.length ≤ 600 <;> simp [Option.filter, h]

/-- A canonical lane as the review conforms it. -/
theorem conformLane_canonical (hkeys : PlainKeys u) {raw : Json} {key : String}
    (hkey : key ∈ ["claims", "scenarios"]) {items : List Claim}
    (h : raw.get key = some (.arr (items.map Claim.toJson))) :
    (conformLane u (pruneUnknown (stripCot u raw)) key).1 = items.filterMap (conformed u) := by
  have htop : key ∈ topKeys ∧ Lib.Fields.getField key itemKeys = some claimKeys := by
    simp only [List.mem_cons, List.not_mem_nil, or_false] at hkey
    obtain rfl | rfl := hkey <;> exact ⟨by decide, rfl⟩
  have hget : (pruneUnknown (stripCot u raw)).get key = some (.arr (items.map Claim.toJson)) := by
    rw [get_pruneUnknown_stripCot, h, if_neg, Option.map_some, stripCot, pruneLane, htop.2,
      stripCotItems_eq]
    · simp only [List.map_map]
      refine congrArg (fun l => some (Json.arr l)) (List.map_congr_left fun c _ => ?_)
      rw [Function.comp_apply, Function.comp_apply, stripCot_toJson hkeys, pruneItem_toJson]
    · rw [not_or, not_not, Bool.not_eq_true]
      exact ⟨hkeys _ (List.mem_append_left _ htop.1), htop.1⟩
  rw [conformLane, itemsAt, hget]
  simp only [List.filterMap_map]
  exact List.filterMap_congr fun c _ => conformClaim_toJson c

/-! ## The review of a canonical document -/

variable (fl : Floats F)

theorem foldl_rejections {α β : Type} (review : Nat → α → Option β × Notes F)
    (items : List (α × Nat)) (notes : Notes F) :
    (items.foldl (fun notes item => notes ++ (review item.2 item.1).2) notes).rejections =
      notes.rejections ++ items.flatMap fun item => (review item.2 item.1).2.rejections := by
  induction items generalizing notes with
  | nil => rw [List.foldl_nil, List.flatMap_nil, List.append_nil]
  | cons item rest ih =>
      rw [List.foldl_cons, ih, List.flatMap_cons, ← List.append_assoc]
      rfl

/-- A lane is rejected for nothing but credential shapes. -/
theorem reviewLane_rejections (bundle : Bundle F) (kind : String) (items : List Claim) :
    (reviewLane (reviewItem u bundle kind) items).2.rejections = [] ↔
      ∀ k ∈ items, containsSecretPattern u k.text = [] := by
  rw [reviewLane, foldl_rejections, List.nil_append, List.flatMap_eq_nil_iff]
  constructor
  · intro h k hk
    obtain ⟨i, hi⟩ := List.getElem?_of_mem hk
    have := h (k, i) (List.mem_zipIdx_iff_getElem?.mpr hi)
    rw [rejections_reviewItem] at this
    by_contra hsecret
    rw [if_pos hsecret] at this
    cases this
  · rintro h ⟨k, i⟩ hki
    rw [rejections_reviewItem, if_neg (not_not.mpr (h k ?_))]
    exact List.mem_of_getElem? (List.mem_zipIdx_iff_getElem?.mp hki)

theorem reviewLane_served (bundle : Bundle F) (kind : String) (items : List Claim) :
    (reviewLane (reviewItem u bundle kind) items).1 = items.filterMap (serve u bundle) := by
  rw [reviewLane]
  simp only [reviewItem_fst]
  conv_rhs => rw [← List.zipIdx_map_fst 0 items, List.filterMap_map]
  rfl

/-- The verdict that is served of a claim: its credential shapes drop it alone. -/
def servedVerdict (u : TextTables) (bundle : Bundle F) (c : Claim) : Option Claim :=
  (served u bundle c).filter fun _ => containsSecretPattern u c.text = []

/-- The verdict that is served of what conforms. -/
def conformedVerdict (u : TextTables) (bundle : Bundle F) : Option Claim → Option Claim × List Drop
  | none => (none, [.verdictMalformed])
  | some claim =>
      match reviewItem u bundle "verdict" 0 claim with
      | (some reviewed, ⟨[], drops⟩) => (some reviewed, drops)
      | (_, notes) => (none, notes.dropped ++ [.verdictFailed])

theorem reviewVerdict_toJson (bundle : Bundle F) (c : Claim) :
    (reviewVerdict u bundle (some c.toJson)).1 = servedVerdict u bundle c := by
  have hunfold : (reviewVerdict u bundle (some c.toJson)).1 =
      (conformedVerdict u bundle (conformClaim u c.toJson)).1 := by
    rw [toJson_eq]
    rfl
  rw [hunfold, conformClaim_toJson, servedVerdict, served, conformed]
  by_cases hfits : 1 ≤ c.text.length ∧ c.text.length ≤ 600
  · rw [if_pos hfits, Option.bind_some, conformedVerdict]
    generalize hk : (⟨c.text, c.sourceIds.filter fun s => u.strip s.toList ≠ [],
      c.numberRefs.filter fun s => u.strip s.toList ≠ []⟩ : Claim) = k
    have htext : k.text = c.text := by rw [← hk]
    have hfst := reviewItem_fst (u := u) bundle "verdict" 0 k
    have hrejections := rejections_reviewItem (u := u) bundle "verdict" 0 k
    rw [htext] at hrejections
    rcases hreview : reviewItem u bundle "verdict" 0 k with ⟨reviewed, rejections, drops⟩
    rw [hreview] at hfst hrejections
    simp only at hfst hrejections
    subst hfst hrejections
    by_cases hsecret : containsSecretPattern u c.text = []
    · rw [if_neg (not_not.mpr hsecret)]
      cases serve u bundle k <;> simp [hsecret, Option.filter]
    · rw [if_pos hsecret]
      cases serve u bundle k <;> simp [hsecret, Option.filter]
  · rw [if_neg hfits]
    rfl

end Golavo.Narration
