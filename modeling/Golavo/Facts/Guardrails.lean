import Golavo.Facts.History
import Golavo.Lib.Calendar
import Golavo.Lib.Check
import Golavo.Narration.Whitelist
import Mathlib.Data.Prod.Lex

/-! # Guardrails

A candidate becomes a **fact** only if its sample reaches its template's floor, it cites a source, it is
not stale and its text states no number it does not declare. Coincidences are then capped. What is left
out is recorded, except for an undisciplined text: that raises. -/

namespace Golavo.Facts

open Golavo.Lib (Json Decimal bind_ok_iff orFail)
open Golavo.Lib.Calendar (isoDay isoUtc)
open Golavo.Narration (TextTables numberRe)

/-! ## Templates -/

inductive FactLabel where
  | predictive
  | context
  | coincidence
  deriving DecidableEq, Repr

/-- `_LABEL_RANK`. -/
def FactLabel.rank : FactLabel → Nat
  | .predictive => 0
  | .context => 1
  | .coincidence => 2

inductive FactScope where
  | team
  | headToHead
  | competition
  deriving DecidableEq, Repr

/-- The dataset a template reads (`_DATASETS`). -/
inductive Dataset where
  | results
  | goalscorers
  | shootouts
  | standings
  | awards
  deriving DecidableEq, Repr

/-- A pre-registered template and the guardrail parameters it runs under (`Template`). -/
structure Template where
  id : String
  version : String := "1.0.0"
  label : FactLabel
  scope : FactScope
  arity : Nat
  minSample : Int
  stalenessDays : Option Int
  fn : Rendering → TemplateContext → Except FactError (List Candidate)
  dataset : Dataset := .results

/-! ## Facts -/

/-- How fresh a fact is. -/
structure Freshness where
  asOfUtc : List Char
  lastEventUtc : List Char
  ageDays : Int
  stale : Bool
  stalenessDays : Option Int
  deriving DecidableEq

/-- A fact of a notebook. -/
structure Fact where
  id : String
  version : String
  label : FactLabel
  scope : FactScope
  subject : String
  text : String
  values : Json
  numbers : List FactNumber
  sampleN : Int
  denominator : Int
  baseRate : Option Decimal
  dateRange : List Char × List Char
  sourceIds : List String
  freshness : Freshness
  minSample : Int
  specificity : Decimal
  deriving DecidableEq

/-- Why a candidate is left out, with the numbers its audit line states. -/
inductive SuppressionReason where
  | minSample (sampleN floor : Int)
  | noSource
  | stale (ageDays : Int) (window : Option Int)
  | coincidenceCap (specificity : Decimal) (cap : Nat)
  deriving DecidableEq

/-- The name of a reason. -/
def SuppressionReason.name : SuppressionReason → String
  | .minSample _ _ => "min_sample"
  | .noSource => "no_source"
  | .stale _ _ => "stale"
  | .coincidenceCap _ _ => "coincidence_cap"

/-- An entry of the audit trail. -/
structure Suppression where
  id : String
  subject : String
  reason : SuppressionReason
  deriving DecidableEq

/-- The wall-clock day of a timestamp (`as_date_iso`). -/
def dateIso : Stamp → List Char
  | .naive wall | .aware wall _ => isoDay (wall / dayNs)

/-- The displays a fact declares. -/
def displays (numbers : List FactNumber) : List String := numbers.map (·.display)

/-- Raise where a text states a number that is not declared (`assert_number_discipline`). -/
def assertNumberDiscipline (u : TextTables) (fact : Fact) : Except FactError Unit :=
  match ((numberRe u).findAll fact.text.toList).find? fun m =>
      String.ofList m.text ∉ displays fact.numbers with
  | some m => .error (.undisciplined fact.id m.text ((displays fact.numbers).dedup.insertionSort (· ≤ ·)))
  | none => .ok ()

/-- The fact a candidate makes, and whether it is stale (`build_fact`). -/
def buildFact (host : Rendering) (candidate : Candidate) (template : Template)
    (sourceIds : List String) (asOf : Int) : Except FactError (Fact × Bool) := do
  let last ← orFail .blankDate candidate.lastDate
  let first ← orFail .blankDate candidate.firstDate
  let ageDays := max ((asOf - last.toUtc) / dayNs) 0
  let stale := template.stalenessDays.any (· < ageDays)
  return ({
    id := template.id
    version := template.version
    label := template.label
    scope := template.scope
    subject := candidate.subject
    text := candidate.text
    values := .mk candidate.values
    numbers := candidate.numbers
    sampleN := candidate.sampleN
    denominator := candidate.denominator
    baseRate := candidate.baseRate.map fun rate => host.round rate 6
    dateRange := (dateIso first, dateIso last)
    sourceIds := sourceIds
    freshness := ⟨isoUtc asOf, isoUtc last.toUtc, ageDays, stale, template.stalenessDays⟩
    minSample := template.minSample
    specificity := host.round candidate.specificity 6 }, stale)

/-! ## The guardrails -/

/-- Take a candidate through the guardrails of its own. -/
def guardCandidate (u : TextTables) (host : Rendering) (sourceIds : List String) (asOf : Int)
    (proposal : Template × Candidate) : Except FactError (Fact ⊕ Suppression) := do
  let (template, candidate) := proposal
  let suppress (reason : SuppressionReason) : Fact ⊕ Suppression :=
    .inr ⟨template.id, candidate.subject, reason⟩
  let cited := candidate.sourceIds.getD sourceIds
  if candidate.sampleN < template.minSample then
    return suppress (.minSample candidate.sampleN template.minSample)
  if cited = [] then return suppress .noSource
  let built ← buildFact host candidate template cited asOf
  if built.2 then return suppress (.stale built.1.freshness.ageDays template.stalenessDays)
  assertNumberDiscipline u built.1
  return .inl built.1

/-- What coincidences are ranked by: the most specific first. -/
def capKey (fact : Fact) : ℚ ×ₗ String ×ₗ String :=
  toLex (-fact.specificity.toRat, toLex (fact.id, fact.subject))

/-- What a notebook's facts are ordered by. -/
def factKey (fact : Fact) : Nat ×ₗ ℚ ×ₗ String ×ₗ String := toLex (fact.label.rank, capKey fact)

/-- What an audit trail is ordered by. -/
def suppressionKey (s : Suppression) : String ×ₗ String ×ₗ String :=
  toLex (s.reason.name, toLex (s.id, s.subject))

/-- The coincidences among the accepted facts with their places, ranked. -/
def rankedCoincidences (accepted : List Fact) : List (Fact × Nat) :=
  (accepted.zipIdx.filter (·.1.label = .coincidence)).insertionSort
    fun a b => capKey a.1 ≤ capKey b.1

/-- The accepted facts that stay under the cap. -/
def underCap (accepted : List Fact) (cap : Nat) : List Fact :=
  (accepted.zipIdx.filter fun fact => fact.1.label ≠ .coincidence ||
    fact.2 ∈ ((rankedCoincidences accepted).take cap).map Prod.snd).map Prod.fst

/-- What the cap leaves out. -/
def beyondCap (accepted : List Fact) (cap : Nat) : List Suppression :=
  ((rankedCoincidences accepted).drop cap).map fun fact =>
    ⟨fact.1.id, fact.1.subject, .coincidenceCap fact.1.specificity cap⟩

/-- Run every guardrail (`apply_guardrails`): the accepted facts and the audit trail, both sorted. -/
def applyGuardrails (u : TextTables) (host : Rendering) (proposals : List (Template × Candidate))
    (sourceIds : List String) (asOf : Int) (cap : Nat) :
    Except FactError (List Fact × List Suppression) := do
  let outcomes ← proposals.mapM (guardCandidate u host sourceIds asOf)
  let accepted := outcomes.filterMap Sum.getLeft?
  let suppressed := outcomes.filterMap Sum.getRight? ++ beyondCap accepted cap
  return ((underCap accepted cap).insertionSort fun a b => factKey a ≤ factKey b,
    suppressed.insertionSort fun a b => suppressionKey a ≤ suppressionKey b)

/-! ## What is accepted is disciplined -/

/-- Every number a text states, as the guard reads it, is one of the declared displays. -/
def Disciplined (u : TextTables) (text : String) (declared : List String) : Prop :=
  ∀ m ∈ (numberRe u).findAll text.toList, String.ofList m.text ∈ declared

theorem assertNumberDiscipline_ok_iff {u : TextTables} {fact : Fact} :
    assertNumberDiscipline u fact = .ok () ↔ Disciplined u fact.text (displays fact.numbers) := by
  rw [assertNumberDiscipline]
  cases hfind : ((numberRe u).findAll fact.text.toList).find? fun m =>
      String.ofList m.text ∉ displays fact.numbers with
  | none =>
      rw [List.find?_eq_none] at hfind
      exact iff_of_true rfl fun m hm => by simpa using hfind m hm
  | some m =>
      refine iff_of_false (by simp) fun h => ?_
      have := List.find?_some hfind
      simp only [decide_not, Bool.not_eq_eq_eq_not, Bool.not_true, decide_eq_false_iff_not] at this
      exact this (h m (List.mem_of_find?_eq_some hfind))

theorem disciplined_of_guardCandidate {u : TextTables} {host : Rendering} {sourceIds : List String}
    {asOf : Int} {proposal : Template × Candidate} {fact : Fact}
    (h : guardCandidate u host sourceIds asOf proposal = .ok (.inl fact)) :
    Disciplined u fact.text (displays fact.numbers) := by
  obtain ⟨template, candidate⟩ := proposal
  simp only [guardCandidate] at h
  split at h
  · cases h
  · split at h
    · cases h
    · obtain ⟨built, hbuilt, h⟩ := bind_ok_iff.mp h
      split at h
      · cases h
      · obtain ⟨⟨⟩, hdisciplined, h⟩ := bind_ok_iff.mp h
        cases h
        exact assertNumberDiscipline_ok_iff.mp hdisciplined

end Golavo.Facts
