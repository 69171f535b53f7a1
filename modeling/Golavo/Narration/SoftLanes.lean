import Golavo.Narration.Review
import Golavo.Lib.Runs

/-! # Soft lanes

The verdict, the research notes and the background ride alongside the grounded lanes. Two narrations
that differ in nothing else are reviewed alike in their grounded part, unless the research notes of
one of them hold a number word `extract_numbers` matches but cannot look up, which raises. -/

namespace Golavo.Narration

open Golavo.Lib (Json Schema bind_ok_iff exists_mapM_ok_iff)
open Golavo.Lib (Fields.getField)

variable {F : Type} (u : TextTables) (fl : Floats F)

/-! ## What the review reads of a raw output -/

theorem getField_stripCotFields (key : String) (fields : List (String × Json)) :
    Fields.getField key (stripCotFields u fields) =
      if isCotKey u key then none else (Fields.getField key fields).map (stripCot u) := by
  induction fields with
  | nil => simp [stripCotFields, Fields.getField]
  | cons field rest ih =>
      obtain ⟨k, value⟩ := field
      rw [stripCotFields]
      by_cases hk : k = key
      · subst hk
        by_cases hcot : isCotKey u k
        · simp [hcot, ih]
        · simp [hcot, Fields.getField]
      · by_cases hcot : isCotKey u k <;> simp [hcot, Fields.getField, hk, ih]

theorem getField_pruned (key : String) (fields : List (String × Json)) :
    Fields.getField key ((fields.filter fun field => field.1 ∈ topKeys).map fun field =>
      (field.1, pruneLane field.1 field.2)) =
        if key ∈ topKeys then (Fields.getField key fields).map (pruneLane key) else none := by
  induction fields with
  | nil => simp [Fields.getField]
  | cons field rest ih =>
      obtain ⟨k, value⟩ := field
      rw [List.filter_cons]
      by_cases hk : k = key
      · subst hk
        by_cases htop : k ∈ topKeys
        · simp [htop, Fields.getField]
        · simpa [htop] using ih
      · by_cases htop : k ∈ topKeys <;> simp [htop, Fields.getField, hk, ih]

/-- What a lane of a stripped and pruned output holds depends on that lane alone. -/
theorem get_pruneUnknown_stripCot (raw : Json) (key : String) :
    (pruneUnknown (stripCot u raw)).get key =
      if isCotKey u key = true ∨ key ∉ topKeys then none
      else (raw.get key).map fun value => pruneLane key (stripCot u value) := by
  cases raw with
  | obj fields =>
      rw [stripCot, pruneUnknown, Json.get, getField_pruned, getField_stripCotFields, Json.get]
      by_cases htop : key ∈ topKeys <;> by_cases hcot : isCotKey u key <;> simp [htop, hcot]
      rfl
  | _ => simp [stripCot, pruneUnknown, Json.get]

/-- A raw output without its soft lanes. -/
def grounded (raw : Json) : Json :=
  ((raw.erase "background").erase "research_notes").erase "verdict"

/-- The keys of the soft lanes. -/
def softKeys : List String := ["background", "research_notes", "verdict"]

theorem get_grounded {key : String} (h : key ∉ softKeys) (raw : Json) :
    (grounded raw).get key = raw.get key := by
  simp only [softKeys, List.mem_cons, List.not_mem_nil, or_false, not_or] at h
  rw [grounded, Json.get_erase_ne h.2.2, Json.get_erase_ne h.2.1, Json.get_erase_ne h.1]

@[simp] theorem isObj_grounded (raw : Json) : (grounded raw).isObj = raw.isObj := by
  simp [grounded]

/-- Outputs equal but for their soft lanes are conformed alike. -/
theorem conformArrays_congr {raw raw' : Json} (h : grounded raw = grounded raw') (allow : Bool) :
    conformArrays u (pruneUnknown (stripCot u raw)) allow =
      conformArrays u (pruneUnknown (stripCot u raw')) allow := by
  have hget : ∀ key, key ∉ softKeys → itemsAt (pruneUnknown (stripCot u raw)) key =
      itemsAt (pruneUnknown (stripCot u raw')) key := by
    intro key hkey
    rw [itemsAt, itemsAt, get_pruneUnknown_stripCot, get_pruneUnknown_stripCot,
      ← get_grounded hkey raw, ← get_grounded hkey raw', h]
  simp only [conformArrays, conformLane, conformFacts, hget "claims" (by decide),
    hget "scenarios" (by decide), hget "candidate_facts" (by decide)]

/-! ## The wire schema never rejects what was conformed -/

theorem textWithin_eq_some {minimum maximum : Nat} {item : Json} {key s : String}
    (h : textWithin minimum maximum item key = some s) :
    minimum ≤ s.length ∧ s.length ≤ maximum := by
  have := (Option.filter_eq_some_iff.mp h).2
  simpa using this

theorem accepts_boundedText {minimum maximum : Nat} {s : String}
    (h : minimum ≤ s.length ∧ s.length ≤ maximum) :
    (boundedText minimum maximum).accepts (.str s) = true := by
  simpa [boundedText] using h

theorem accepts_cleanStrList (value : Option Json) :
    (Schema.array 0 (.string fun s => 1 ≤ s.length)).accepts
      (.arr ((cleanStrList u value).map .str)) = true := by
  refine Schema.accepts_map.mpr ⟨Nat.zero_le _, fun s hs => ?_⟩
  cases value with
  | none => simp [cleanStrList] at hs
  | some j =>
      cases j with
      | arr items =>
          obtain ⟨item, -, hitem⟩ := List.mem_filterMap.mp hs
          have hblank := (Option.filter_eq_some_iff.mp hitem).2
          have hne : s.toList ≠ [] := by
            intro hnil
            simp [hnil, Unicode.strip] at hblank
          simp only [Schema.accepts_string, decide_eq_true_eq]
          rw [← String.length_toList]
          exact List.length_pos_iff.mpr hne
      | _ => simp [cleanStrList] at hs

theorem accepts_claim {item : Json} {c : Claim} (h : conformClaim u item = some c) :
    claimSchema.accepts c.toJson = true := by
  obtain ⟨text, htext, rfl⟩ := Option.map_eq_some_iff.mp h
  refine Schema.accepts_mk ⟨?_, ?_, ?_⟩ (by simp)
  · exact Schema.acceptsProperty_of_listed rfl (accepts_boundedText (textWithin_eq_some htext))
  · exact Schema.acceptsProperty_of_listed rfl (accepts_cleanStrList u _)
  · exact Schema.acceptsProperty_of_listed rfl (accepts_cleanStrList u _)

theorem accepts_fact {item : Json} {f : Fact} (h : conformFact item = some f) :
    factSchema.accepts f.toJson = true := by
  obtain ⟨text, htext, h⟩ := Option.bind_eq_some_iff.mp h
  obtain ⟨quote, hquote, h⟩ := Option.bind_eq_some_iff.mp h
  obtain ⟨url, hurl, h⟩ := Option.bind_eq_some_iff.mp h
  obtain rfl := Option.some.inj h
  refine Schema.accepts_mk ⟨?_, ?_, ?_⟩ (by simp)
  · exact Schema.acceptsProperty_of_listed rfl (accepts_boundedText (textWithin_eq_some htext))
  · exact Schema.acceptsProperty_of_listed rfl (accepts_boundedText (textWithin_eq_some hquote))
  · exact Schema.acceptsProperty_of_listed rfl (accepts_boundedText (textWithin_eq_some hurl))

theorem accepts_conformLane (cleaned : Json) (key : String) :
    (Schema.array 0 claimSchema).accepts
      (.arr ((conformLane u cleaned key).1.map Claim.toJson)) = true := by
  refine Schema.accepts_map.mpr ⟨Nat.zero_le _, fun c hc => ?_⟩
  unfold conformLane at hc
  split at hc
  · obtain ⟨item, -, hitem⟩ := List.mem_filterMap.mp hc
    exact accepts_claim u hitem
  · cases hc

theorem accepts_conformFacts (cleaned : Json) (allow : Bool) :
    (Schema.array 0 factSchema).accepts
      (.arr ((conformFacts cleaned allow).1.map Fact.toJson)) = true := by
  refine Schema.accepts_map.mpr ⟨Nat.zero_le _, fun f hf => ?_⟩
  unfold conformFacts at hf
  split at hf
  · cases hf
  · cases hf
  · obtain ⟨item, -, hitem⟩ := List.mem_filterMap.mp hf
    exact accepts_fact hitem
  · cases hf

/-- **The wire schema accepts whatever was conformed to it.** -/
theorem accepts_conformArrays (cleaned : Json) (allow : Bool) :
    narrationSchema.accepts (conformArrays u cleaned allow).1.toJson = true := by
  refine Schema.accepts_mk ⟨?_, ?_, ?_⟩ (by simp)
  · exact Schema.acceptsProperty_of_listed rfl (accepts_conformLane u cleaned _)
  · exact Schema.acceptsProperty_of_listed rfl (accepts_conformLane u cleaned _)
  · exact Schema.acceptsProperty_of_listed rfl (accepts_conformFacts cleaned allow)

/-! ## Stray number words -/

/-- A text has a number word that is matched but is no key of the table once it is lowered. -/
def HasStrayWord (text : String) (literals : List String) : Prop :=
  ∃ m ∈ (wordRe u).findAll (cleanedText u text literals),
    ∀ entry ∈ wordUnits, entry.1.toList ≠ u.lower m.text

theorem unitOfWord_ok_iff {word : List Char} :
    (∃ n, unitOfWord u word = .ok n) ↔ ∃ entry ∈ wordUnits, entry.1.toList = u.lower word := by
  unfold unitOfWord
  split
  · rename_i entry hfind
    refine ⟨fun _ => ⟨entry, List.mem_of_find?_eq_some hfind, ?_⟩, fun _ => ⟨_, rfl⟩⟩
    simpa using List.find?_some hfind
  · rename_i hfind
    rw [List.find?_eq_none] at hfind
    simp only [decide_eq_true_eq] at hfind
    refine ⟨nofun, fun ⟨entry, hmem, heq⟩ => absurd heq (hfind entry hmem)⟩

/-- **Extraction raises** exactly at a stray number word. -/
theorem extractNumbers_ok_iff {text : String} {literals : List String} :
    (∃ values, extractNumbers u fl text literals = .ok values) ↔ ¬HasStrayWord u text literals := by
  have hwords : (∃ words, ((wordRe u).findAll (cleanedText u text literals)).mapM
      (fun m => unitOfWord u m.text) = .ok words) ↔ ¬HasStrayWord u text literals := by
    rw [exists_mapM_ok_iff, HasStrayWord]
    push Not
    exact forall₂_congr fun m _ => unitOfWord_ok_iff u
  rw [← hwords]
  constructor
  · rintro ⟨values, h⟩
    obtain ⟨words, hwords, -⟩ := bind_ok_iff.mp h
    exact ⟨words, hwords⟩
  · rintro ⟨words, hwords⟩
    exact ⟨_, bind_ok_iff.mpr ⟨words, hwords, rfl⟩⟩

theorem ungrounded_ok_iff {values : List F} {text quote : String} {literals : List String} :
    (∃ token, ungrounded u fl values text quote literals = .ok token) ↔
      ¬HasStrayWord u quote literals ∧ ¬HasStrayWord u text literals := by
  rw [← extractNumbers_ok_iff u fl, ← extractNumbers_ok_iff u fl]
  constructor
  · rintro ⟨token, h⟩
    obtain ⟨quoted, hquoted, h⟩ := bind_ok_iff.mp h
    obtain ⟨stated, hstated, -⟩ := bind_ok_iff.mp h
    exact ⟨⟨quoted, hquoted⟩, ⟨stated, hstated⟩⟩
  · rintro ⟨⟨quoted, hquoted⟩, ⟨stated, hstated⟩⟩
    exact ⟨_, bind_ok_iff.mpr ⟨quoted, hquoted, bind_ok_iff.mpr ⟨stated, hstated, rfl⟩⟩⟩

/-! ## The research lane -/

/-- A research note raises: it passes the gates before its numbers, and its quote or its text has a
stray number word. -/
def NoteStumbles (bundle : Bundle F) (corpus : List (String × String)) (index : Nat)
    (note : Json) : Prop :=
  ∃ fact, quotedFact u corpus index note = .ok fact ∧
    (HasStrayWord u fact.quote (safeLiterals bundle) ∨
      HasStrayWord u fact.text (safeLiterals bundle))

/-- The research notes of a raw output raise: the lane is on, and one of the first eight notes
does. -/
def Stumbles (bundle : Bundle F) (options : Options) (raw : Json) : Prop :=
  (options.allowResearch = true ∧ options.researchCorpus ≠ []) ∧
    ∃ items, (pruneUnknown (stripCot u raw)).get "research_notes" = some (.arr items) ∧
      ∃ note ∈ (items.take 8).zipIdx,
        NoteStumbles u bundle options.researchCorpus note.2 note.1

theorem reviewResearchNote_ok_iff {bundle : Bundle F} {corpus : List (String × String)}
    {index : Nat} {note : Json} :
    (∃ reviewed, reviewResearchNote u fl bundle corpus index note = .ok reviewed) ↔
      ¬NoteStumbles u bundle corpus index note := by
  unfold reviewResearchNote NoteStumbles
  cases hfact : quotedFact u corpus index note with
  | error reason => simp
  | ok fact =>
      simp only [Except.ok.injEq, exists_eq_left', not_or]
      rw [← (ungrounded_ok_iff u fl : (∃ token, ungrounded u fl [] _ _ _ = .ok token) ↔ _)]
      constructor
      · rintro ⟨reviewed, h⟩
        obtain ⟨token, htoken, -⟩ := bind_ok_iff.mp h
        exact ⟨token, htoken⟩
      · rintro ⟨token, htoken⟩
        simp only [htoken, bind, Except.bind]
        cases token with
        | some _ => exact ⟨_, rfl⟩
        | none => split_ifs <;> exact ⟨_, rfl⟩

theorem reviewResearch_ok_iff {bundle : Bundle F} {options : Options} {raw : Json} :
    (∃ reviewed, reviewResearch u fl bundle options
      ((pruneUnknown (stripCot u raw)).get "research_notes") = .ok reviewed) ↔
        ¬Stumbles u bundle options raw := by
  unfold reviewResearch Stumbles
  split
  · rename_i items hon hlane
    simp only [Bool.and_eq_true, decide_eq_true_eq] at hon
    simp only [hlane, hon.1, hon.2, ne_eq, not_false_eq_true, and_self, true_and, Option.some.injEq,
      Json.arr.injEq, exists_eq_left', not_exists, not_and]
    rw [← forall_congr' fun note => forall_congr' fun _ => reviewResearchNote_ok_iff u fl,
      ← exists_mapM_ok_iff]
    constructor
    · rintro ⟨reviewed, h⟩
      obtain ⟨results, hresults, -⟩ := bind_ok_iff.mp h
      exact ⟨results, hresults⟩
    · rintro ⟨results, hresults⟩
      exact ⟨_, bind_ok_iff.mpr ⟨results, hresults, rfl⟩⟩
  · rename_i hoff
    refine ⟨fun _ => ?_, fun _ => ⟨_, rfl⟩⟩
    rintro ⟨hon, items, hlane, -⟩
    exact hoff items (by simp [hon.1, hon.2]) hlane

/-! ## Noninterference -/

/-- What a review says of the grounded lanes: whether it accepts, what it rejects, and what it serves
of them. -/
def NarrationReview.grounded (r : NarrationReview F) :
    Bool × List (Rejection F) × Option (List Claim × List Claim × List Fact) :=
  (r.accepted, r.notes.rejections,
    r.narration.map fun n => (n.claims, n.scenarios, n.candidateFacts))

/-- What a review gives of the grounded lanes; nothing where it raises. -/
def outcome (raw : Json) (bundle : Bundle F) (options : Options) :
    Option (Bool × List (Rejection F) × Option (List Claim × List Claim × List Fact)) :=
  (reviewNarration u fl raw bundle options).toOption.map NarrationReview.grounded

/-- The grounded lanes end the review before it gets to the soft ones: the output is no object, or a
candidate fact raises. -/
def EndsEarly (bundle : Bundle F) (options : Options) (raw : Json) : Prop :=
  raw.isObj = false ∨ ∃ e, reviewCandidateFacts u fl bundle
    (conformArrays u (pruneUnknown (stripCot u raw)) options.allowCandidateFacts).1.candidateFacts =
      .error e

/-- The soft lanes reach nothing of the grounded part of a conclusion. -/
theorem grounded_conclude (claims scenarios : List Claim × Notes F)
    (facts : List Fact × List (Rejection F)) (verdict verdict' : Option Claim × List Drop)
    (background background' : List BackgroundNote × List Drop)
    (research research' : List Fact × List Drop) (drops drops' : List Drop) :
    (conclude claims scenarios facts verdict background research drops).grounded =
      (conclude claims scenarios facts verdict' background' research' drops').grounded := by
  unfold conclude
  dsimp only
  split_ifs <;> rfl

/-- Once an object has conformed, the candidate facts and the research notes are all that can
raise. -/
theorem reviewNarration_of_isObj {raw : Json} (hobj : raw.isObj = true) (bundle : Bundle F)
    (options : Options) :
    let cleaned := pruneUnknown (stripCot u raw)
    let lanes := conformArrays u cleaned options.allowCandidateFacts
    reviewNarration u fl raw bundle options = (do
      let facts ← reviewCandidateFacts u fl bundle lanes.1.candidateFacts
      let research ← reviewResearch u fl bundle options (cleaned.get "research_notes")
      return conclude (reviewLane (reviewItem u bundle "claims") lanes.1.claims)
        (reviewLane (reviewItem u bundle "scenarios") lanes.1.scenarios) facts
        (reviewVerdict u bundle (cleaned.get "verdict"))
        (reviewBackground u bundle options.allowBackground (cleaned.get "background")) research
        lanes.2) := by
  intro cleaned lanes
  have haccepts : narrationSchema.accepts lanes.1.toJson = true :=
    accepts_conformArrays u cleaned options.allowCandidateFacts
  unfold reviewNarration
  simp only [hobj, Bool.true_eq_false, if_false]
  show (if narrationSchema.accepts lanes.1.toJson = false then _ else _) = _
  rw [haccepts]
  rfl

/-- What the conformed lanes and the reviewed candidate facts come to, with nothing in the soft
lanes. -/
def groundedOutcome (bundle : Bundle F) (lanes : Cleaned)
    (facts : List Fact × List (Rejection F)) :
    Bool × List (Rejection F) × Option (List Claim × List Claim × List Fact) :=
  (conclude (reviewLane (reviewItem u bundle "claims") lanes.claims)
    (reviewLane (reviewItem u bundle "scenarios") lanes.scenarios) facts (none, []) ([], []) ([], [])
    []).grounded

/-- What a review gives, once the candidate facts have been reviewed, and whether the research notes
raise. -/
theorem outcome_of_facts {raw : Json} (hobj : raw.isObj = true) {bundle : Bundle F}
    {options : Options} {facts : List Fact × List (Rejection F)}
    (hfacts : reviewCandidateFacts u fl bundle (conformArrays u (pruneUnknown (stripCot u raw))
      options.allowCandidateFacts).1.candidateFacts = .ok facts) :
    (Stumbles u bundle options raw → outcome u fl raw bundle options = none) ∧
      (¬Stumbles u bundle options raw → outcome u fl raw bundle options =
        some (groundedOutcome u bundle (conformArrays u (pruneUnknown (stripCot u raw))
          options.allowCandidateFacts).1 facts)) := by
  have hreview := reviewNarration_of_isObj u fl hobj bundle options
  dsimp only at hreview
  rw [hfacts] at hreview
  constructor
  · intro hstumbles
    rw [← not_not (a := Stumbles u bundle options raw), ← reviewResearch_ok_iff u fl] at hstumbles
    cases hresearch : reviewResearch u fl bundle options
        ((pruneUnknown (stripCot u raw)).get "research_notes") with
    | ok research => exact absurd ⟨research, hresearch⟩ hstumbles
    | error e =>
        rw [hresearch] at hreview
        rw [outcome, hreview]
        rfl
  · intro hsteady
    obtain ⟨research, hresearch⟩ := (reviewResearch_ok_iff u fl).mpr hsteady
    rw [hresearch] at hreview
    rw [outcome, hreview]
    exact congrArg some (grounded_conclude _ _ _ _ _ _ _ _ _ _ _)

/-- **The soft lanes cannot affect the grounded lanes**, exactly where the review ends before it gets
to them, or the research notes of both outputs raise or those of neither. -/
theorem soft_lanes_apart_iff (bundle : Bundle F) (options : Options) (raw raw' : Json)
    (h : grounded raw = grounded raw') :
    outcome u fl raw bundle options = outcome u fl raw' bundle options ↔
      EndsEarly u fl bundle options raw ∨
        (Stumbles u bundle options raw ↔ Stumbles u bundle options raw') := by
  have hobj : raw.isObj = raw'.isObj := by
    rw [← isObj_grounded, ← isObj_grounded raw', h]
  have hlanes := conformArrays_congr u h options.allowCandidateFacts
  cases hisObj : raw.isObj with
  | false =>
      have hnone : ∀ j : Json, j.isObj = false → outcome u fl j bundle options =
          some (false, [.notObject], none) := by
        intro j hj
        simp only [outcome, reviewNarration, hj, if_true]
        rfl
      rw [hnone raw hisObj, hnone raw' (hobj ▸ hisObj)]
      exact iff_of_true rfl (.inl (.inl hisObj))
  | true =>
      cases hfacts : reviewCandidateFacts u fl bundle (conformArrays u
          (pruneUnknown (stripCot u raw)) options.allowCandidateFacts).1.candidateFacts with
      | error e =>
          have hnone : ∀ j : Json, j.isObj = true → reviewCandidateFacts u fl bundle (conformArrays u
              (pruneUnknown (stripCot u j)) options.allowCandidateFacts).1.candidateFacts =
                .error e → outcome u fl j bundle options = none := by
            intro j hj he
            have hreview := reviewNarration_of_isObj u fl hj bundle options
            dsimp only at hreview
            rw [he] at hreview
            rw [outcome, hreview]
            rfl
          rw [hnone raw hisObj hfacts, hnone raw' (hobj ▸ hisObj) (hlanes ▸ hfacts)]
          exact iff_of_true rfl (.inl (.inr ⟨e, hfacts⟩))
      | ok facts =>
          have hearly : ¬EndsEarly u fl bundle options raw := by
            rintro (hfalse | ⟨e, he⟩)
            · rw [hisObj] at hfalse
              cases hfalse
            · rw [hfacts] at he
              cases he
          obtain ⟨hraises, hgives⟩ := outcome_of_facts u fl hisObj hfacts
          obtain ⟨hraises', hgives'⟩ := outcome_of_facts u fl (hobj ▸ hisObj) (hlanes ▸ hfacts)
          rw [← hlanes] at hgives'
          by_cases hleft : Stumbles u bundle options raw <;>
            by_cases hright : Stumbles u bundle options raw' <;>
            simp only [hleft, hright, hearly, iff_true, iff_false, or_true, or_false,
              not_true_eq_false]
          · rw [hraises hleft, hraises' hright]
          · rw [hraises hleft, hgives' hright]
            exact nofun
          · rw [hraises' hright, hgives hleft]
            exact nofun
          · rw [hgives hleft, hgives' hright]

/-! ## A dotless number word -/

/-- ASCII tables in which the dotless i is a case variant of the i, as under `re.IGNORECASE`. -/
def dotlessTables : TextTables where
  toUnicode := { Unicode.ascii with
    isWord := fun c => Unicode.ascii.isWord c || c = 'ı'
    isAlpha := fun c => Unicode.ascii.isAlpha c || c = 'ı'
    sameCase := fun a b =>
      a.toLower = b.toLower || (a.toLower = 'i' && b = 'ı') || (a = 'ı' && b.toLower = 'i') }
  lower := TextTables.ascii.lower
  setOrder := TextTables.ascii.setOrder
  perm_setOrder := TextTables.ascii.perm_setOrder

/-- Whole numbers, on texts without digits. -/
def wholeFloats : Floats Int := ⟨fun _ => none, Int.ofNat, fun value _ => value, fun a b => a = b⟩

def finalBundle : Bundle Int :=
  ⟨"Spain", "France", "UEFA Euro", none, none, none, [("engine", "Golavo engine")], []⟩

def researchOptions : Options :=
  { allowResearch := true
    researchCorpus := [("https://example.org", "Spain scored often this year")] }

/-- A narration with one claim and the given research notes. -/
def claimWith (notes : List Json) : Json :=
  .mk [("claims", .arr [.mk [("text", .str "Spain look strong"),
      ("source_ids", .arr [.str "engine"]), ("number_refs", .arr [])]]),
    ("scenarios", .arr []), ("candidate_facts", .arr []), ("research_notes", .arr notes)]

/-- A research note whose text has the number word of the given spelling. -/
def noteOf (word : String) : Json :=
  .mk [("text", .str (word ++ " goals")), ("quote", .str "Spain scored often"),
    ("source_url", .str "https://example.org")]

theorem soft_lanes_apart_of_six :
    outcome dotlessTables wholeFloats (claimWith [noteOf "six"]) finalBundle researchOptions =
        outcome dotlessTables wholeFloats (claimWith []) finalBundle researchOptions ↔
      EndsEarly dotlessTables wholeFloats finalBundle researchOptions (claimWith [noteOf "six"]) ∨
        (Stumbles dotlessTables finalBundle researchOptions (claimWith [noteOf "six"]) ↔
          Stumbles dotlessTables finalBundle researchOptions (claimWith [])) :=
  soft_lanes_apart_iff dotlessTables wholeFloats finalBundle researchOptions _ _ (by decide +kernel)

/-- A note that spells six with a dotless i takes the narration's claim with it. -/
theorem dotless_note_raises :
    grounded (claimWith [noteOf "sıx"]) = grounded (claimWith []) ∧
      outcome dotlessTables wholeFloats (claimWith [noteOf "sıx"]) finalBundle researchOptions =
        none ∧
      (outcome dotlessTables wholeFloats (claimWith []) finalBundle researchOptions).map (·.1) =
        some true := by
  decide +kernel

end Golavo.Narration
