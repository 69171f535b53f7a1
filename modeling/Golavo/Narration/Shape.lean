import Golavo.Narration.Review

/-! # Repairing a narration's shape

`normalize_narration_shape` between a model's output and its review: it unwraps envelopes, turns texts
into claims, takes source ids and number ids out of the prose and derives the number references anew
from the displays that stand in the text. -/

namespace Golavo.Narration

open Golavo.Lib (Json Regex)
open Golavo.Lib.Regex (sequence plus atLeast)
open Pattern

variable {F : Type} (u : TextTables)

/-! ## Bundles -/

/-- A bundle whose numbers carry labels. -/
structure EvidenceBundle (F : Type) extends Bundle F where
  /-- The label of the number at a place. -/
  label : Nat → String

/-- The numbers with their labels. -/
def EvidenceBundle.labelled (bundle : EvidenceBundle F) : List (AllowedNumber F × String) :=
  bundle.allowedNumbers.zipIdx.map fun number => (number.1, bundle.label number.2)

/-- The ids of the numbers, each once (`number_by_id`). -/
def Bundle.numberIds (bundle : Bundle F) : List String :=
  (bundle.allowedNumbers.map (·.id)).eraseDups

/-! ## Displays in a text -/

/-- Whether what stands behind a display goes on with it: `(?!\w)(?!\.\d)` fails. -/
def goesOn (behind : List Char) : Bool :=
  behind.head?.any u.isWord || (behind.head? = some '.' && behind.tail.head?.any u.isDecimal)

/-- Whether a display stands on its own at a position of a text. -/
def standsAt (display text : List Char) (position : Nat) : Bool :=
  display.isPrefixOf (text.drop position) &&
    !((text.take position).getLast?.any fun x => u.isWord x || x ∈ ['.', '+', '-']) &&
    !goesOn u (text.drop (position + display.length))

/-- Whether a display stands on its own in a text (`_display_in_text`). -/
def displayInText (display text : List Char) : Bool :=
  (List.range (text.length + 1)).any (standsAt u display text)

/-- The words of four letters or more in a text. -/
def labelWords (text : List Char) : List (List Char) :=
  (((atLeast 4 (.char Char.isLower)).findAll (u.casefold text)).map (·.text)).dedup

/-- How many words a label shares with a text (`_label_score`). -/
def labelScore (label : String) (text : List Char) : Nat :=
  ((labelWords u text).filter (labelWords u label.toList).contains).length

/-- The first of those with the highest score (`max` over the bundle's order). -/
def firstBest {α : Type} (score : α → Nat) : List α → Option α
  | [] => none
  | x :: rest => some (rest.foldl (fun best y => if score best < score y then y else best) x)

/-! ## Taking ids out of a text -/

/-- `_SCENARIO_PREFIX_RE`. -/
def scenarioPrefixRe : Regex :=
  sequence [.notBehind fun _ => true, .star (.char u.isSpace), literalIgnoringCase u "scenario",
    plus (.char u.isSpace), plus (digit u), .star (.char u.isSpace), plus (charOf ":.-)"),
    .star (.char u.isSpace)]

/-- A text before and behind the last occurrence of a character (`rfind`). -/
def lastSplit (x : Char) (text : List Char) : Option (List Char × List Char) :=
  match text.reverse.dropWhile (· ≠ x) with
  | [] => none
  | _ :: front => some (front.reverse, (text.reverse.takeWhile (· ≠ x)).reverse)

/-- The source ids in brackets at the end of a text, and the text without them. -/
def inlineSources (bundle : Bundle F) (text : List Char) : Option (List String × List Char) :=
  match lastSplit '[' text, lastSplit ']' text with
  | some (front, _), some (upTo, behind) =>
      let tokens := ((upTo.drop (front.length + 1)).splitOn ',').map fun token =>
        String.ofList (u.strip token)
      if front.length < upTo.length && behind.all (· ∈ [' ', '.']) &&
          tokens.all (· ∈ bundle.sourceIds) then
        some (tokens, u.strip ((front.reverse.dropWhile u.isSpace).reverse ++ behind))
      else none
  | _, _ => none

/-- Take one `(ref)` out of a text; the reference is explicit if its display stands there. -/
def dropMarker (bundle : Bundle F) (state : List Char × List String) (ref : String) :
    List Char × List String :=
  let marker := "(" ++ ref ++ ")"
  if occursIn marker.toList state.1 then
    (u.strip ((exactly "  ").replaceAll [' '] ((exactly marker).replaceAll [] state.1)),
      if (bundle.numberById ref).any fun n => displayInText u n.display.toList state.1 then
        state.2 ++ [ref] else state.2)
  else state

/-- An item once its ids are taken out of its text. -/
structure Tidied where
  text : List Char
  cited : List String
  explicit : List String
  deriving DecidableEq, Repr

/-- Take the scenario label, the source ids and the number ids out of a text. -/
def tidy (bundle : Bundle F) (scenario : Bool) (text : List Char) (sources refs : List String) :
    Tidied :=
  let plain := if scenario then (scenarioPrefixRe u).replaceAll [] (u.strip text) else u.strip text
  let named := (sources.filter (· ∈ bundle.sourceIds) ++
    bundle.sourceIds.filter fun id => occursIn id.toList plain).eraseDups
  let inline := inlineSources u bundle plain
  let body := (inline.map Prod.snd).getD plain
  let marked := bundle.numberIds.foldl (dropMarker u bundle)
    (body, refs.filter (· ∈ bundle.numberIds))
  ⟨(exactly " .").replaceAll ['.'] marked.1,
    (inline.map fun found => (named ++ found.1).eraseDups).getD named, marked.2⟩

/-! ## Deriving the references -/

/-- Whether a number may stand for a display: it shows it, and it is of a cited source. -/
def isCandidate (t : Tidied) (display : String) (n : AllowedNumber F) : Bool :=
  n.display = display && (t.cited = [] || n.sourceIds.any (· ∈ t.cited))

/-- The number a display is taken for: the first explicit one, else the one whose label fits best. -/
def chooseNumber (bundle : EvidenceBundle F) (t : Tidied) (display : String) :
    Option (AllowedNumber F) :=
  match (t.explicit.filterMap bundle.numberById).find? (isCandidate t display) with
  | some n => some n
  | none =>
      (firstBest (fun number => labelScore u number.2 t.text)
        (bundle.labelled.filter fun number => isCandidate t display number.1)).map Prod.fst

/-- The displays that stand on their own in a text, each once. -/
def standingDisplays (bundle : Bundle F) (text : List Char) : List String :=
  ((bundle.allowedNumbers.map (·.display)).filter fun display =>
    displayInText u display.toList text).eraseDups

/-- The references an item is given. -/
def derivedRefs (bundle : EvidenceBundle F) (t : Tidied) : List String :=
  (standingDisplays u bundle.toBundle t.text).filterMap fun display =>
    (chooseNumber u bundle t display).map (·.id)

/-- The sources an item is given: those it cites, else those of its references. -/
def derivedSources (bundle : Bundle F) (t : Tidied) (refs : List String) : List String :=
  if t.cited = [] then
    ((refs.flatMap fun ref => ((bundle.numberById ref).map (·.sourceIds)).getD []).filter
      (· ∈ bundle.sourceIds)).eraseDups
  else t.cited

/-- An item repaired from its text and what was provided with it; none where the text is blank. -/
def repairItem (bundle : EvidenceBundle F) (scenario : Bool) (text : String)
    (sources refs : List String) : Option Claim :=
  if u.strip text.toList = [] then none
  else
    let t := tidy u bundle.toBundle scenario text.toList sources refs
    let derived := derivedRefs u bundle t
    some ⟨String.ofList t.text, derivedSources bundle.toBundle t derived, derived⟩

/-! ## Repairing a document -/

/-- A value that is given is no iterable. -/
structure NotIterable where
  value : Json
  deriving DecidableEq

/-- The elements of what was provided (`value or ()`). -/
def iterated : Option Json → Except NotIterable (List Json)
  | some (.arr items) => .ok items
  | some (.obj fields) => .ok (fields.map fun field => .str field.1)
  | some (.str s) => .ok (s.toList.map fun x => .str (String.singleton x))
  | some value => if isGiven (some value) then .error ⟨value⟩ else .ok []
  | none => .ok []

/-- `str` of an element; of a text it is the text. -/
def elementText (pyStr : Json → String) : Json → String
  | .str s => s
  | other => pyStr other

variable (pyStr : Json → String)

/-- Repair a text with what was provided beside it (`_string_item`). -/
def stringItem (bundle : EvidenceBundle F) (scenario : Bool) (text : String)
    (sources refs : Option Json) : Except NotIterable (Option Json) :=
  if u.strip text.toList = [] then .ok none
  else do
    let sources ← iterated sources
    let refs ← iterated refs
    return (repairItem u bundle scenario text (sources.map (elementText pyStr))
      (refs.map (elementText pyStr))).map Claim.toJson

/-- Repair an item of a lane. -/
def laneItem (bundle : EvidenceBundle F) (key : String) (item : Json) :
    Except NotIterable (Option Json) :=
  match item with
  | .str text => stringItem u pyStr bundle (key = "scenarios") text none none
  | .obj fields =>
      if key ∈ ["claims", "scenarios"] then
        match item.get "text" with
        | some (.str text) => stringItem u pyStr bundle (key = "scenarios") text
            (item.get "source_ids") (item.get "number_refs")
        | _ => .ok none
      else .ok (some (.obj fields))
  | other => .ok (some other)

/-- Repair a lane (`_items`). -/
def laneItems (bundle : EvidenceBundle F) (current : Json) (key : String) :
    Except NotIterable (List Json) := do
  let items ← ((itemsAt current key).getD []).mapM (laneItem u pyStr bundle key)
  return items.filterMap id

/-- Unwrap envelopes of a single object, as often as allowed. -/
def unwrap : Nat → Json → Json
  | n + 1, .obj fields =>
      if fields.any (·.1 ∈ topKeys) then .obj fields
      else
        match fields with
        | [(_, .obj child)] => unwrap n (.obj child)
        | _ => .obj fields
  | _, j => j

/-- Whether a value is a list. -/
def isList : Option Json → Bool
  | some (.arr _) => true
  | _ => false

/-- Lift the lanes out of a verdict that holds them. -/
def liftVerdict (current : Json) : Json :=
  match current.get "verdict" with
  | some (.obj fields) =>
      let verdict := Json.obj fields
      if isList (verdict.get "claims") || isList (verdict.get "scenarios") then
        let lane (key : String) :=
          (current.get key).getD ((verdict.get key).getD (.arr []))
        ((current.set "verdict" .null).set "claims" (lane "claims")).set "scenarios"
          (lane "scenarios")
      else current
  | _ => current

/-- Repair the verdict. -/
def repairVerdict (bundle : EvidenceBundle F) (verdict : Option Json) :
    Except NotIterable Json :=
  match verdict with
  | some (.str text) => do
      let item ← stringItem u pyStr bundle false text none none
      return item.getD .null
  | some item =>
      match item.get "text" with
      | some (.str text) => do
          let repaired ← stringItem u pyStr bundle false text (item.get "source_ids")
            (item.get "number_refs")
          return repaired.getD .null
      | _ => .ok item
  | none => .ok .null

/-- Conform a model's output before its review (`normalize_narration_shape`). -/
def normalizeNarrationShape (raw : Json) (bundle : EvidenceBundle F) : Except NotIterable Json :=
  if raw.isObj = false then .ok raw
  else do
    let current := liftVerdict (unwrap 3 raw)
    let verdict ← repairVerdict u pyStr bundle (current.get "verdict")
    let claims ← laneItems u pyStr bundle current "claims"
    let scenarios ← laneItems u pyStr bundle current "scenarios"
    let facts ← laneItems u pyStr bundle current "candidate_facts"
    return (((current.set "verdict" verdict).set "claims" (.arr claims)).set "scenarios"
      (.arr scenarios)).set "candidate_facts" (.arr facts)

end Golavo.Narration
