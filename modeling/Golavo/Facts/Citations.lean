import Golavo.Facts.Events
import Golavo.Facts.Evidence
import Golavo.Lib.Runs
import Golavo.Narration.Tokens

/-! # Citing a notebook fact

A fact the guardrails accept states only numbers it declares, so a narration should be able to cite it
word for word. The narration guard reads more than the facts' own guard, though: number words,
fractions, and what normalising and the removal of terms and names bring out; and neither guard reads
digits that are glued to a letter. `citable_iff` says exactly which facts can be cited. -/

namespace Golavo.Facts

open Golavo.Lib (bind_ok_iff exists_of_mem_results mapM_eq_ok_iff)
open Golavo.Narration (TextTables AllowedNumber cleanedText containsBettingLexicon fractionRe
  narrationWordRe numberRe unsupportedNumberTokens unsupportedNumberTokens_eq_nil_iff shown Covers
  isFree exists_token_of_free)

/-! ## Digits -/

/-- A run of digits of a text, as long as it can be. -/
structure DigitRun (u : TextTables) (text front digits behind : List Char) : Prop where
  split : text = front ++ digits ++ behind
  ne_nil : digits ≠ []
  decimal : ∀ x ∈ digits, u.isDecimal x = true
  starts : front.getLast?.any u.isDecimal = false
  ends : behind.head?.any u.isDecimal = false

/-- Some characters stand inside a declared display. -/
def InsideDisplay (declared : List String) (digits : List Char) : Prop :=
  ∃ d ∈ declared, digits <:+: d.toList

/-- Digits that no number of the text covers. -/
def Unread (u : TextTables) (text front digits : List Char) : Prop :=
  ∀ m ∈ (numberRe u).findAll text, ¬ Covers m front digits

/-- Digits that are not read are glued to a word character or a point. -/
theorem isFree_of_unread {u : TextTables} (hpercent : u.isDecimal '%' = false)
    {text front digits behind : List Char} (h : DigitRun u text front digits behind)
    (hunread : Unread u text front digits) : isFree u front.getLast? = false := by
  by_contra hfree
  obtain ⟨m, hm, hcovers⟩ : ∃ m ∈ (numberRe u).findAll (front ++ digits ++ behind),
      Covers m front digits :=
    exists_token_of_free hpercent h.ne_nil h.decimal (Bool.of_not_eq_false hfree)
  exact hunread m (h.split ▸ hm) hcovers

/-! ## Citing -/

/-- The displays a bundle shows for some references, as the narration guard compares them. -/
def referenced (u : TextTables) (bundle : FoldedNotebook) (refs : List String) : List (List Char) :=
  shown u (bundle.numbers.map (·.allowed)) refs

/-- A fact of a bundle can be cited word for word: the narration guard finds nothing unsupported, and
every run of digits lies inside a display. -/
structure Citable (u : TextTables) (bundle : FoldedNotebook) (literals declared : List String)
    (fact : EvidenceFact) : Prop where
  supported : unsupportedNumberTokens u fact.text (bundle.numbers.map (·.allowed)) fact.numberRefs
    literals = []
  digits : ∀ front digits behind, DigitRun u fact.text.toList front digits behind →
    InsideDisplay declared digits

/-- A text without what only one of the guards reads. -/
structure PlainlyNumbered (u : TextTables) (literals declared : List String)
    (references : List (List Char)) (text : String) : Prop where
  /-- It writes no number in words and no fraction. -/
  words : (narrationWordRe u).findAll (cleanedText u text literals) = []
  fractions : (fractionRe u).findAll (cleanedText u text literals) = []
  /-- A number that stands in the cleaned text alone is a display. -/
  cleaned : ∀ m ∈ (numberRe u).findAll (cleanedText u text literals),
    (∀ n ∈ (numberRe u).findAll text.toList, u.nfkc n.text ≠ m.text) → m.text ∈ references
  /-- Digits that are glued to a letter and part of no number stand inside a display. -/
  glued : ∀ front digits behind, DigitRun u text.toList front digits behind →
    isFree u front.getLast? = false → Unread u text.toList front digits →
      InsideDisplay declared digits

/-! ## What the guardrails accept -/

/-- The discipline of the accepted facts. -/
theorem disciplined_of_accepted {u : TextTables} {host : Rendering}
    {proposals : List (Template × Candidate)} {sourceIds : List String} {asOf : Int} {cap : Nat}
    {facts : List Fact} {suppressed : List Suppression}
    (h : applyGuardrails u host proposals sourceIds asOf cap = .ok (facts, suppressed)) {fact : Fact}
    (hmem : fact ∈ facts) : Disciplined u fact.text (displays fact.numbers) := by
  rw [applyGuardrails] at h
  obtain ⟨outcomes, hrun, h⟩ := bind_ok_iff.mp h
  cases h
  have haccepted : fact ∈ outcomes.filterMap Sum.getLeft? := by
    obtain ⟨⟨f, i⟩, hf, rfl⟩ := List.mem_map.mp ((List.mem_insertionSort _).mp hmem)
    exact (List.mem_zipIdx (List.mem_filter.mp hf).1).2.2 ▸ List.getElem_mem _
  obtain ⟨outcome, hout, hleft⟩ := List.mem_filterMap.mp haccepted
  obtain ⟨proposal, -, hguard⟩ := exists_of_mem_results (mapM_eq_ok_iff.mp hrun) hout
  rw [Sum.getLeft?_eq_some_iff.mp hleft] at hguard
  exact disciplined_of_guardCandidate hguard

/-- **When a notebook fact can be cited**: exactly when its text writes no number in words and no
fraction, cleaning brings out no number that is not a display, and the digits glued to letters stand
inside displays. -/
theorem citable_iff {u : TextTables} {host : Rendering} {proposals : List (Template × Candidate)}
    {sourceIds : List String} {asOf : Int} {cap : Nat} {facts : List Fact}
    {suppressed : List Suppression} {datasetByTemplate : List (String × Dataset)}
    {labels : List FactLabel} {scopeDatasets : Bool} (literals : List String)
    (hpercent : u.isDecimal '%' = false)
    (h : applyGuardrails u host proposals sourceIds asOf cap = .ok (facts, suppressed))
    {fact : Fact} {index : Nat} (hfact : facts[index]? = some fact)
    (hfolded : isFolded u labels fact = true) :
    Citable u (notebookToEvidence datasetByTemplate u facts labels scopeDatasets) literals
        (displays fact.numbers) (evidenceFact datasetByTemplate scopeDatasets fact index) ↔
      PlainlyNumbered u literals (displays fact.numbers)
        (referenced u (notebookToEvidence datasetByTemplate u facts labels scopeDatasets)
          (fact.numbers.map (numberId fact index))) fact.text := by
  have hdisciplined := disciplined_of_accepted h (List.mem_of_getElem? hfact)
  have hshown : ∀ d ∈ displays fact.numbers, u.nfkc d.toList ∈ referenced u
      (notebookToEvidence datasetByTemplate u facts labels scopeDatasets)
      (fact.numbers.map (numberId fact index)) := by
    intro d hd
    obtain ⟨number, hnumber, rfl⟩ := List.mem_map.mp hd
    refine List.mem_map.mpr ⟨_, List.mem_filter.mpr ⟨List.mem_map.mpr ⟨_, List.mem_flatMap.mpr
      ⟨(fact, index), ?_, List.mem_map.mpr ⟨number, hnumber, rfl⟩⟩, rfl⟩, ?_⟩, rfl⟩
    · exact List.mem_filter.mpr ⟨List.mem_zipIdx_iff_getElem?.mpr hfact, hfolded⟩
    · exact decide_eq_true (List.mem_map.mpr ⟨number, hnumber, rfl⟩)
  constructor
  · rintro ⟨hsupported, hdigits⟩
    obtain ⟨hfractions, hwords, hnumbers⟩ := unsupportedNumberTokens_eq_nil_iff.mp hsupported
    exact ⟨hwords, hfractions, fun m hm _ => hnumbers m hm,
      fun front digits behind hrun _ _ => hdigits front digits behind hrun⟩
  · rintro ⟨hwords, hfractions, hcleaned, hglued⟩
    refine ⟨unsupportedNumberTokens_eq_nil_iff.mpr ⟨hfractions, hwords, fun m hm => ?_⟩,
      fun front digits behind hrun => ?_⟩
    · by_cases hnew : ∀ n ∈ (numberRe u).findAll fact.text.toList, u.nfkc n.text ≠ m.text
      · exact hcleaned m hm hnew
      · push Not at hnew
        obtain ⟨n, hn, heq⟩ := hnew
        rw [← heq]
        have := hshown _ (hdisciplined n hn)
        rwa [String.toList_ofList] at this
    · by_cases hunread : Unread u fact.text.toList front digits
      · exact hglued front digits behind hrun (isFree_of_unread hpercent hrun hunread) hunread
      · simp only [Unread, not_forall, not_not] at hunread
        obtain ⟨m, hm, hcovers⟩ := hunread
        refine ⟨_, hdisciplined m hm, ?_⟩
        rw [String.toList_ofList]
        have hm' := hm
        rw [show fact.text.toList = front ++ digits ++ behind from hrun.split] at hm'
        exact hcovers.infix hm'

/-! ## A fact that cannot be cited -/

/-- The template of half-time comebacks. -/
def comebackTemplate : Template where
  id := "ht_comeback_record"
  label := .context
  scope := .team
  arity := 2
  minSample := 10
  stalenessDays := some 400
  fn := htComebackRecord

/-- A match that was turned round after half-time. -/
def comebackRow : Golavo.Ingest.MatchRow :=
  { matchId := some "m", date := some (.naive 0), homeTeam := "Spain", awayTeam := "France"
    homeScore := some 2, awayScore := some 1, isComplete := some true
    htHomeScore := some 0, htAwayScore := some 1 }

/-- A fixture of a team that turned ten matches round. -/
def comebackContext : TemplateContext where
  rows := List.replicate 10 comebackRow
  homeTeam := "Spain"
  awayTeam := "Italy"
  competition := "Friendly"
  neutral := false
  asOf := dayNs
  kickoff := 2 * dayNs
  sourceIds := ["pack"]

/-- What is said of that team. -/
def comebackFact : Fact where
  id := "ht_comeback_record"
  version := "1.0.0"
  label := .context
  scope := .team
  subject := "Spain"
  text := "After trailing at half-time in 10 matches in this data, Spain recovered to win 10 and draw 0."
  values := .mk [("ht_deficits", .int 10), ("comeback_wins", .int 10), ("comeback_draws", .int 0)]
  numbers := [countNumber "ht_deficits" 10, countNumber "comeback_wins" 10,
    countNumber "comeback_draws" 0]
  sampleN := 10
  denominator := 10
  baseRate := some (.ofScaled 1 0)
  dateRange := ("1970-01-01".toList, "1970-01-01".toList)
  sourceIds := ["pack"]
  freshness := ⟨"1970-01-02T00:00:00Z".toList, "1970-01-01T00:00:00Z".toList, 1, false, some 400⟩
  minSample := 10
  specificity := .ofScaled 1 0

/-- The notebook of that fixture, as far as half-time comebacks go. -/
def comebackNotebook : Except FactError (List Fact × List Suppression) := do
  let candidates ← htComebackRecord .exact comebackContext
  applyGuardrails .ascii .exact (candidates.map (comebackTemplate, ·)) ["pack"] dayNs 3

theorem comebackNotebook_eq : comebackNotebook = .ok ([comebackFact], []) := by
  decide +kernel

theorem isFolded_comebackFact : isFolded .ascii foldedLabels comebackFact = true := by
  decide +kernel

/-- The fact is accepted and folded, and its text states "half" beside the numbers it declares. -/
theorem comeback_unsupported : comebackNotebook = .ok ([comebackFact], []) ∧
    isFolded .ascii foldedLabels comebackFact = true ∧
    unsupportedNumberTokens .ascii comebackFact.text
      ((notebookToEvidence [] .ascii [comebackFact] foldedLabels true).numbers.map (·.allowed))
      (evidenceFact [] true comebackFact 0).numberRefs [] = ["half".toList] :=
  ⟨comebackNotebook_eq, isFolded_comebackFact, by decide +kernel⟩

/-- Its text is not plainly numbered, so it cannot be cited. -/
theorem citable_iff_comeback : ¬ Citable .ascii
    (notebookToEvidence [] .ascii [comebackFact] foldedLabels true) [] (displays comebackFact.numbers)
    (evidenceFact [] true comebackFact 0) := by
  obtain ⟨candidates, -, haccepted⟩ := bind_ok_iff.mp comebackNotebook_eq
  intro h
  have hwords := ((citable_iff [] rfl haccepted rfl isFolded_comebackFact).mp h).words
  exact absurd hwords (by decide +kernel)

end Golavo.Facts
