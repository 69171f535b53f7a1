import Golavo.Narration.Whitelist
import Golavo.Lib.Schema
import Golavo.Lib.Check

/-! # Reviewing a narration

`review_narration` between a model's output and the user: it strips reasoning and unknown keys, pops
the soft lanes (the verdict, the research notes, the background), conforms the rest to the wire
schema, and reviews each lane item by item. -/

namespace Golavo.Narration

open Golavo.Lib (Json Schema Regex)
open Golavo.Lib.Regex (sequence oneOf optional)
open Pattern

variable {F : Type} (u : TextTables) (fl : Floats F)

/-! ## Bundles and options -/

/-- The part of an evidence bundle a review reads. -/
structure Bundle (F : Type) where
  homeTeam : String
  awayTeam : String
  competition : String
  stage : Option String
  city : Option String
  country : Option String
  sources : List (String × String)
  allowedNumbers : List (AllowedNumber F)

/-- The opt-ins of a review, and the pages fetched for it. -/
structure Options where
  allowCandidateFacts : Bool := false
  allowBackground : Bool := false
  allowResearch : Bool := false
  researchCorpus : List (String × String) := []

/-- The exact identifiers the model may echo (`_safe_literals`). -/
def safeLiterals (bundle : Bundle F) : List String :=
  ([some bundle.homeTeam, some bundle.awayTeam, some bundle.competition, bundle.stage, bundle.city,
    bundle.country].filterMap fun value => value.filter (· ≠ "")) ++
    bundle.sources.flatMap fun source => [source.1, source.2]

def Bundle.sourceIds (bundle : Bundle F) : List String := bundle.sources.map Prod.fst

/-- The number under an id, the last of equal ones (`number_by_id`). -/
def Bundle.numberById (bundle : Bundle F) (id : String) : Option (AllowedNumber F) :=
  bundle.allowedNumbers.reverse.find? fun n => n.id = id

/-! ## Stripping and pruning -/

/-- `_COT_KEYS`. -/
def cotKeys : List String :=
  ["reasoning", "reason", "thoughts", "thought", "chain_of_thought", "cot", "analysis",
    "scratchpad", "reflection", "deliberation", "internal", "rationale", "thinking", "plan",
    "planning", "notes", "explanation", "explanation_of_reasoning", "steps", "work"]

/-- Whether a key carries reasoning. -/
def isCotKey (key : String) : Bool := cotKeys.any fun k => k.toList = u.lower key.toList

mutual

/-- A value without its reasoning keys, at every level (`_strip_cot`). -/
def stripCot : Json → Json
  | .obj fields => .obj (stripCotFields fields)
  | .arr items => .arr (stripCotItems items)
  | other => other

def stripCotItems : List Json → List Json
  | [] => []
  | item :: rest => stripCot item :: stripCotItems rest

def stripCotFields : List (String × Json) → List (String × Json)
  | [] => []
  | (key, value) :: rest =>
      if isCotKey u key then stripCotFields rest
      else (key, stripCot value) :: stripCotFields rest

end

/-- `_TOP_KEYS`. -/
def topKeys : List String :=
  ["verdict", "claims", "scenarios", "candidate_facts", "research_notes", "background"]

/-- `_CLAIM_KEYS`. -/
def claimKeys : List String := ["text", "source_ids", "number_refs"]

/-- `_ITEM_KEYS`. -/
def itemKeys : List (String × List String) :=
  [("claims", claimKeys), ("scenarios", claimKeys),
    ("candidate_facts", ["text", "quote", "source_url"]),
    ("research_notes", ["text", "quote", "source_url"]), ("background", ["text", "about"])]

/-- An object with only some keys; anything else unchanged. -/
def pruneItem (allowed : List String) : Json → Json
  | .obj fields => .obj (fields.filter fun field => field.1 ∈ allowed)
  | other => other

/-- A lane with its items pruned. -/
def pruneLane (key : String) : Json → Json
  | .arr items =>
      match Lib.Fields.getField key itemKeys with
      | some allowed => .arr (items.map (pruneItem allowed))
      | none => .arr items
  | other => if key = "verdict" then pruneItem claimKeys other else other

/-- Drop the keys the wire schema does not define (`_prune_unknown`). -/
def pruneUnknown : Json → Json
  | .obj fields =>
      .obj ((fields.filter fun field => field.1 ∈ topKeys).map fun field =>
        (field.1, pruneLane field.1 field.2))
  | other => other

/-! ## Conforming -/

/-- A claim, a scenario or a verdict. -/
structure Claim where
  text : String
  sourceIds : List String
  numberRefs : List String
deriving DecidableEq, Repr

/-- A candidate fact, or a research note. -/
structure Fact where
  text : String
  quote : String
  sourceUrl : String
deriving DecidableEq, Repr

/-- A background note. -/
structure BackgroundNote where
  text : String
  about : Option String
deriving DecidableEq, Repr

/-- The text under a key. -/
def textAt (item : Json) (key : String) : Option String := (item.get key).bind Json.text?

/-- A text whose length is in a range. -/
def textWithin (minimum maximum : Nat) (item : Json) (key : String) : Option String :=
  (textAt item key).filter fun s => minimum ≤ s.length && s.length ≤ maximum

/-- Non-blank string items only (`_clean_str_list`). -/
def cleanStrList : Option Json → List String
  | some (.arr items) => items.filterMap fun item =>
      item.text?.filter fun s => u.strip s.toList ≠ []
  | _ => []

/-- `_conform_claim`. -/
def conformClaim (item : Json) : Option Claim :=
  (textWithin 1 600 item "text").map fun text =>
    ⟨text, cleanStrList u (item.get "source_ids"), cleanStrList u (item.get "number_refs")⟩

/-- `_conform_fact`. -/
def conformFact (item : Json) : Option Fact := do
  let text ← textWithin 1 400 item "text"
  let quote ← textWithin 1 600 item "quote"
  let url ← textWithin 1 400 item "source_url"
  return ⟨text, quote, url⟩

/-- The items under a key, if it holds a list. -/
def itemsAt (j : Json) (key : String) : Option (List Json) :=
  match j.get key with
  | some (.arr items) => some items
  | _ => none

/-- What voids a narration. -/
inductive Rejection (F : Type) where
  | notObject
  /-- The wire schema turned it away. -/
  | schema
  | credential (kind : String) (index : Nat)
  | factBetting (index : Nat) (terms : List (List Char))
  | factCredential (index : Nat)
  | factUngrounded (index : Nat) (token : F)
  | nothingGrounded

/-- What a review leaves out without voiding the rest. -/
inductive Drop where
  | malformedItems (kind : String) (count : Nat)
  | factsDisabled (count : Nat)
  | betting (kind : String) (index : Nat) (terms : List (List Char))
  | cotMarker (kind : String) (index : Nat)
  | uncited (kind : String) (index : Nat)
  | unbacked (kind : String) (index : Nat) (count : Nat)
  | verdictFailed
  | verdictMalformed
  | laneCut (kind : String) (kept total : Nat)
  | laneDropped (kind : String) (count : Nat)
  | malformedNote (kind : String) (index : Nat)
  | textLength (kind : String) (index : Nat)
  | quoteLength (index : Nat)
  | numbered (kind : String) (index : Nat)
  | notFetched (index : Nat)
  | notVerbatim (index : Nat)
  | credential (kind : String) (index : Nat)
deriving DecidableEq, Repr

/-- What is rejected and dropped along the way. -/
structure Notes (F : Type) where
  rejections : List (Rejection F) := []
  dropped : List Drop := []

def Notes.append (a b : Notes F) : Notes F :=
  ⟨a.rejections ++ b.rejections, a.dropped ++ b.dropped⟩

instance : Append (Notes F) := ⟨Notes.append⟩

/-- The grounded lanes once they conform. -/
structure Cleaned where
  claims : List Claim
  scenarios : List Claim
  candidateFacts : List Fact

/-- A lane of claims with the malformed items left out. -/
def conformLane (cleaned : Json) (key : String) : List Claim × List Drop :=
  match itemsAt cleaned key with
  | some items =>
      let conformed := items.filterMap (conformClaim u)
      (conformed, if conformed.length ≠ items.length then
        [.malformedItems key (items.length - conformed.length)] else [])
  | none => ([], [])

/-- The candidate facts that conform; none where they are disabled. -/
def conformFacts (cleaned : Json) (allow : Bool) : List Fact × List Drop :=
  match allow, itemsAt cleaned "candidate_facts" with
  | false, some items => ([], if items ≠ [] then [.factsDisabled items.length] else [])
  | false, none => ([], [])
  | true, some items => (items.filterMap conformFact, [])
  | true, none => ([], [])

/-- `_conform_arrays`. -/
def conformArrays (cleaned : Json) (allow : Bool) : Cleaned × List Drop :=
  let claims := conformLane u cleaned "claims"
  let scenarios := conformLane u cleaned "scenarios"
  let facts := conformFacts cleaned allow
  (⟨claims.1, scenarios.1, facts.1⟩, claims.2 ++ scenarios.2 ++ facts.2)

/-! ## The wire schema -/

/-- A text of some length. -/
def boundedText (minimum maximum : Nat) : Schema :=
  .string fun s => minimum ≤ s.length && s.length ≤ maximum

def claimSchema : Schema :=
  .object ["text", "source_ids", "number_refs"]
    [("text", boundedText 1 600), ("source_ids", .array 0 (.string fun s => 1 ≤ s.length)),
      ("number_refs", .array 0 (.string fun s => 1 ≤ s.length))]

def factSchema : Schema :=
  .object ["text", "quote", "source_url"]
    [("text", boundedText 1 400), ("quote", boundedText 1 600), ("source_url", boundedText 1 400)]

/-- `ai_narration.schema.json`, without the lanes that are popped before it is applied. -/
def narrationSchema : Schema :=
  .object ["claims", "scenarios", "candidate_facts"]
    [("claims", .array 0 claimSchema), ("scenarios", .array 0 claimSchema),
      ("candidate_facts", .array 0 factSchema)]

def Claim.toJson (c : Claim) : Json :=
  .mk [("text", .str c.text), ("source_ids", .arr (c.sourceIds.map .str)),
    ("number_refs", .arr (c.numberRefs.map .str))]

def Fact.toJson (f : Fact) : Json :=
  .mk [("text", .str f.text), ("quote", .str f.quote), ("source_url", .str f.sourceUrl)]

def Cleaned.toJson (c : Cleaned) : Json :=
  .mk [("claims", .arr (c.claims.map Claim.toJson)),
    ("scenarios", .arr (c.scenarios.map Claim.toJson)),
    ("candidate_facts", .arr (c.candidateFacts.map Fact.toJson))]

/-! ## Reviewing items -/

/-- `_COT_MARKER_RE`: `(?i)</?think|<\|.*?\|>|chain[-_ ]of[-_ ]thought`. -/
def cotMarkerRe : Regex :=
  oneOf [sequence [exactly "<", optional (exactly "/"), literalIgnoringCase u "think"],
    sequence [exactly "<|", .lazyStar (.char (· ≠ '\n')), exactly "|>"],
    sequence [literalIgnoringCase u "chain", charOf "-_ ", literalIgnoringCase u "of", charOf "-_ ",
      literalIgnoringCase u "thought"]]

/-- Whether a text stands inside another (`needle in text`). -/
def occursIn (needle text : List Char) : Bool := text.tails.any fun tail => needle.isPrefixOf tail

/-- The references of an item that name an allowed number of a cited source whose display is in the
text. -/
def survivingRefs (bundle : Bundle F) (text : String) (cited refs : List String) : List String :=
  refs.filter fun ref =>
    (bundle.numberById ref).any fun n =>
      n.sourceIds.any (· ∈ cited) && occursIn n.display.toList text.toList

/-- Review a claim, a scenario or a verdict (`_review_item`): what is served of it, and what is noted
of it. -/
def reviewItem (bundle : Bundle F) (kind : String) (index : Nat) (item : Claim) :
    Option Claim × Notes F :=
  let secret : List (Rejection F) :=
    if containsSecretPattern u item.text ≠ [] then [.credential kind index] else []
  let betting := containsBettingLexicon u item.text
  let cited := item.sourceIds.filter (· ∈ bundle.sourceIds)
  let refs := survivingRefs bundle item.text cited item.numberRefs
  let unsupported :=
    unsupportedNumberTokens u item.text bundle.allowedNumbers refs (safeLiterals bundle)
  if betting ≠ [] then (none, ⟨secret, [.betting kind index betting.dedup]⟩)
  else if (cotMarkerRe u).found item.text.toList then (none, ⟨secret, [.cotMarker kind index]⟩)
  else if cited = [] then (none, ⟨secret, [.uncited kind index]⟩)
  else if unsupported ≠ [] then (none, ⟨secret, [.unbacked kind index unsupported.length]⟩)
  else (some ⟨item.text, cited, refs⟩, ⟨secret, []⟩)

/-- Review the items of a lane in order. -/
def reviewLane {α β : Type} (review : Nat → α → Option β × Notes F) (items : List α) :
    List β × Notes F :=
  (items.zipIdx.filterMap fun item => (review item.2 item.1).1,
    items.zipIdx.foldl (fun notes item => notes ++ (review item.2 item.1).2) ⟨[], []⟩)

/-- The first number of a text that no number of the quote, nor any of some values, matches. -/
def ungrounded (values : List F) (text quote : String) (literals : List String) :
    Except KeyError (Option F) := do
  let quoted ← extractNumbers u fl quote literals
  let stated ← extractNumbers u fl text literals
  return stated.find? fun token => !(quoted ++ values).any (numberMatches fl token)

/-- `_review_candidate_fact`. -/
def reviewCandidateFact (bundle : Bundle F) (index : Nat) (fact : Fact) :
    Except KeyError (Option Fact × List (Rejection F)) := do
  let betting := containsBettingLexicon u fact.text ++ containsBettingLexicon u fact.quote
  if betting ≠ [] then return (none, [.factBetting index betting.dedup])
  if containsSecretPattern u fact.text ≠ [] || containsSecretPattern u fact.quote ≠ [] then
    return (none, [.factCredential index])
  let values := bundle.allowedNumbers.map (·.value)
  match ← ungrounded u fl values fact.text fact.quote (safeLiterals bundle) with
  | some token => return (none, [.factUngrounded index token])
  | none => return (some fact, [])

/-- Review the candidate facts in order. -/
def reviewCandidateFacts (bundle : Bundle F) (facts : List Fact) :
    Except KeyError (List Fact × List (Rejection F)) := do
  let reviewed ← facts.zipIdx.mapM fun fact => reviewCandidateFact u fl bundle fact.2 fact.1
  return (reviewed.filterMap (·.1), reviewed.flatMap (·.2))

/-- `_review_background_note`. -/
def reviewBackgroundNote (bundle : Bundle F) (index : Nat) (note : Json) :
    Option BackgroundNote × Notes F :=
  match textAt note "text" with
  | none => (none, ⟨[], [.malformedNote "background" index]⟩)
  | some text =>
      let drop (reason : Drop) : Option BackgroundNote × Notes F := (none, ⟨[], [reason]⟩)
      if !(1 ≤ text.length && text.length ≤ 360) then drop (.textLength "background" index)
      else if unsupportedNumberTokens u text ([] : List (AllowedNumber F)) []
          (safeLiterals bundle) ≠ [] then
        drop (.numbered "background" index)
      else if containsBettingLexicon u text ≠ [] then drop (.betting "background" index [])
      else if containsSecretPattern u text ≠ [] then drop (.credential "background" index)
      else if (cotMarkerRe u).found text.toList then drop (.cotMarker "background" index)
      else (some ⟨text, (textAt note "about").filter (· ∈ ["home", "away", "match"])⟩, ⟨[], []⟩)

/-- `_QUOTE_FOLD`. -/
def foldQuote (x : Char) : Char :=
  if x ∈ ['\u2018', '\u2019'] then '\''
  else if x ∈ ['\u201c', '\u201d'] then '"'
  else if x ∈ ['\u2013', '\u2014', '\u2012', '\u2212'] then '-'
  else x

/-- `_normalize_for_quote_match`. -/
def normalizeForQuoteMatch (text : String) : List Char :=
  u.strip ((Regex.plus (.char u.isSpace)).replaceAll [' ']
    (u.casefold ((u.nfkc text.toList).map foldQuote)))

/-- The gates of a research note before its numbers: its shape, and its quote in the fetched page. -/
def quotedFact (corpus : List (String × String)) (index : Nat) (note : Json) : Except Drop Fact := do
  Lib.failIf (note.isObj = false) (.malformedNote "research_notes" index)
  let text ← Lib.orFail (.textLength "research_notes" index) (textWithin 1 400 note "text")
  let quote ← Lib.orFail (.quoteLength index) (textWithin 12 600 note "quote")
  let url ← Lib.orFail (.notFetched index) (textAt note "source_url")
  let page ← Lib.orFail (.notFetched index) (Lib.Fields.getField url corpus)
  Lib.failIf (!occursIn (normalizeForQuoteMatch u quote) (normalizeForQuoteMatch u page))
    (.notVerbatim index)
  return ⟨text, quote, url⟩

/-- `_review_research_note`. -/
def reviewResearchNote (bundle : Bundle F) (corpus : List (String × String)) (index : Nat)
    (note : Json) : Except KeyError (Option Fact × List Drop) :=
  match quotedFact u corpus index note with
  | .error reason => .ok (none, [reason])
  | .ok fact => do
      match ← ungrounded u fl [] fact.text fact.quote (safeLiterals bundle) with
      | some _ => return (none, [.numbered "research_notes" index])
      | none =>
          if containsBettingLexicon u fact.text ≠ [] || containsBettingLexicon u fact.quote ≠ [] then
            return (none, [.betting "research_notes" index []])
          else if containsSecretPattern u fact.text ≠ [] ||
              containsSecretPattern u fact.quote ≠ [] then
            return (none, [.credential "research_notes" index])
          else if (cotMarkerRe u).found fact.text.toList ||
              (cotMarkerRe u).found fact.quote.toList then
            return (none, [.cotMarker "research_notes" index])
          else return (some fact, [])

/-! ## The soft lanes -/

/-- Whether a value counts as given (`if raw:`). -/
def isGiven : Option Json → Bool
  | none | some .null | some (.bool false) | some (.str "") | some (.arr []) | some (.obj []) => false
  | some (.int z) => z ≠ 0
  | some (.float d) => d ≠ 0
  | some _ => true

/-- How many items a lane has that is dropped as a whole. -/
def laneCount : Option Json → Nat
  | some (.arr items) => items.length
  | _ => 1

/-- The verdict that is served, under a claim's rules; its own rejections only drop it. -/
def reviewVerdict (bundle : Bundle F) : Option Json → Option Claim × List Drop
  | none | some .null => (none, [])
  | some raw =>
      match conformClaim u raw with
      | none => (none, [.verdictMalformed])
      | some claim =>
          match reviewItem u bundle "verdict" 0 claim with
          | (some reviewed, ⟨[], drops⟩) => (some reviewed, drops)
          | (_, notes) => (none, notes.dropped ++ [.verdictFailed])

/-- The background notes that are served. -/
def reviewBackground (bundle : Bundle F) (allow : Bool) (raw : Option Json) :
    List BackgroundNote × List Drop :=
  match allow, raw with
  | true, some (.arr items) =>
      let reviewed := reviewLane (reviewBackgroundNote u bundle) (items.take 4)
      (reviewed.1, (if 4 < items.length then [.laneCut "background" 4 items.length] else []) ++
        reviewed.2.dropped)
  | _, _ => ([], if isGiven raw then [.laneDropped "background" (laneCount raw)] else [])

/-- The research notes that are served. -/
def reviewResearch (bundle : Bundle F) (options : Options) (raw : Option Json) :
    Except KeyError (List Fact × List Drop) :=
  match options.allowResearch && options.researchCorpus ≠ [], raw with
  | true, some (.arr items) => do
      let reviewed ← (items.take 8).zipIdx.mapM fun note =>
        reviewResearchNote u fl bundle options.researchCorpus note.2 note.1
      return (reviewed.filterMap (·.1),
        (if 8 < items.length then [.laneCut "research_notes" 8 items.length] else []) ++
          reviewed.flatMap (·.2))
  | _, _ => return ([], if isGiven raw then [.laneDropped "research_notes" (laneCount raw)] else [])

/-! ## The review -/

/-- A narration that is served. -/
structure ServedNarration where
  verdict : Option Claim
  claims : List Claim
  scenarios : List Claim
  candidateFacts : List Fact
  researchNotes : List Fact
  background : List BackgroundNote
deriving DecidableEq, Repr

/-- `NarrationReview`: what is accepted, or why nothing is. -/
structure NarrationReview (F : Type) where
  narration : Option ServedNarration
  notes : Notes F

def NarrationReview.accepted (r : NarrationReview F) : Bool := r.narration.isSome

/-- The end of a review, from what each lane gave. -/
def conclude (claims scenarios : List Claim × Notes F) (facts : List Fact × List (Rejection F))
    (verdict : Option Claim × List Drop) (background : List BackgroundNote × List Drop)
    (research : List Fact × List Drop) (drops : List Drop) : NarrationReview F :=
  let rejections := claims.2.rejections ++ scenarios.2.rejections ++ facts.2
  let dropped := drops ++ claims.2.dropped ++ scenarios.2.dropped ++ verdict.2 ++ background.2 ++
    research.2
  if !rejections.isEmpty then ⟨none, ⟨rejections, dropped⟩⟩
  else if claims.1 = [] ∧ scenarios.1 = [] then ⟨none, ⟨[.nothingGrounded], dropped⟩⟩
  else ⟨some ⟨verdict.1, claims.1, scenarios.1, facts.1, research.1, background.1⟩, ⟨[], dropped⟩⟩

/-- Review a raw model output (`review_narration`). -/
def reviewNarration (raw : Json) (bundle : Bundle F) (options : Options) :
    Except KeyError (NarrationReview F) := do
  if raw.isObj = false then return ⟨none, ⟨[.notObject], []⟩⟩
  let cleaned := pruneUnknown (stripCot u raw)
  let (lanes, drops) := conformArrays u cleaned options.allowCandidateFacts
  if narrationSchema.accepts lanes.toJson = false then return ⟨none, ⟨[.schema], drops⟩⟩
  let claims := reviewLane (reviewItem u bundle "claims") lanes.claims
  let scenarios := reviewLane (reviewItem u bundle "scenarios") lanes.scenarios
  let verdict := reviewVerdict u bundle (cleaned.get "verdict")
  let facts ← reviewCandidateFacts u fl bundle lanes.candidateFacts
  let background := reviewBackground u bundle options.allowBackground (cleaned.get "background")
  let research ← reviewResearch u fl bundle options (cleaned.get "research_notes")
  return conclude claims scenarios facts verdict background research drops

end Golavo.Narration
