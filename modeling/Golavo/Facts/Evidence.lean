import Golavo.Facts.Guardrails

/-! # Notebook facts as evidence

`notebook_to_evidence` folds a notebook into an evidence bundle: each fact with its own text, each
number it declares under an id of its own. Coincidences and betting language are left out. -/

namespace Golavo.Facts

open Golavo.Lib (Json)
open Golavo.Lib.Fields (getField)
open Golavo.Narration (TextTables AllowedNumber containsBettingLexicon)

/-! ## Sources -/

/-- `_DATASET_TITLES`. -/
def Dataset.title : Dataset → Option String
  | .results => none
  | .goalscorers => some "goalscorer records"
  | .shootouts => some "penalty shootouts"
  | .standings => some "World Cup standings"
  | .awards => some "World Cup awards"

def Dataset.name : Dataset → String
  | .results => "results"
  | .goalscorers => "goalscorers"
  | .shootouts => "shootouts"
  | .standings => "standings"
  | .awards => "awards"

/-- A source entry for one dataset of a pack. -/
structure DatasetSource where
  sourceId : String
  baseSourceId : String
  dataset : Dataset
  title : String
  license : String
  deriving DecidableEq, Repr

/-- The entry of a pack's dataset. -/
def datasetSource (dataset : Dataset) (title sourceId : String) : DatasetSource where
  sourceId := sourceId ++ "#" ++ dataset.name
  baseSourceId := sourceId
  dataset := dataset
  title := "Vendored data pack · " ++ sourceId ++ " · " ++ title
  license := if sourceId = "fjelstul-worldcup" then "CC-BY-SA-4.0" else "CC0-1.0"

variable (datasetByTemplate : List (String × Dataset))

/-- The sources of a fact, by dataset where it reads one of the side tables (`_scope_sources`). -/
def scopeSources (fact : Fact) : List String × List DatasetSource :=
  let dataset := (getField fact.id datasetByTemplate).getD .results
  match dataset.title with
  | none => (fact.sourceIds, [])
  | some title =>
      let entries := fact.sourceIds.map (datasetSource dataset title)
      (entries.map (·.sourceId), entries)

/-! ## Folding -/

/-- A number of an evidence bundle. -/
structure EvidenceNumber where
  id : String
  value : Json
  unit : NumberUnit
  label : String
  display : String
  sourceIds : List String

/-- The number as the narration guard reads it. -/
def EvidenceNumber.allowed (n : EvidenceNumber) : AllowedNumber Json :=
  ⟨n.id, n.value, n.display, n.sourceIds⟩

/-- A fact of an evidence bundle. -/
structure EvidenceFact where
  factId : String
  text : String
  kind : String
  sourceIds : List String
  numberRefs : List String

/-- What a notebook adds to a bundle. -/
structure FoldedNotebook where
  facts : List EvidenceFact
  numbers : List EvidenceNumber
  extraSources : List DatasetSource

/-- The id a number has in the bundle. -/
def numberId (fact : Fact) (index : Nat) (number : FactNumber) : String :=
  "nb_" ++ fact.id ++ "_" ++ toString index ++ "_" ++ number.key

/-- The sources a folded fact cites, and the entries they need. -/
def citedSources (scopeDatasets : Bool) (fact : Fact) : List String × List DatasetSource :=
  if scopeDatasets then scopeSources datasetByTemplate fact else (fact.sourceIds, [])

/-- The numbers of the fact at an index. -/
def evidenceNumbers (scopeDatasets : Bool) (fact : Fact) (index : Nat) : List EvidenceNumber :=
  fact.numbers.map fun number =>
    { id := numberId fact index number
      value := number.value
      unit := number.unit
      label := fact.subject ++ " · " ++ fact.id ++ " · " ++ number.key
      display := number.display
      sourceIds := (citedSources datasetByTemplate scopeDatasets fact).1 }

/-- The fact at an index as evidence. -/
def evidenceFact (scopeDatasets : Bool) (fact : Fact) (index : Nat) : EvidenceFact where
  factId := "nb_" ++ fact.id ++ "_" ++ toString index
  text := fact.text
  kind := "context"
  sourceIds := (citedSources datasetByTemplate scopeDatasets fact).1
  numberRefs := fact.numbers.map (numberId fact index)

/-- Whether a fact is folded: its label is one of those, and its text has no betting language. -/
def isFolded (u : TextTables) (labels : List FactLabel) (fact : Fact) : Bool :=
  fact.label ∈ labels && containsBettingLexicon u fact.text = []

/-- `_FOLDED_LABELS`. -/
def foldedLabels : List FactLabel := [.context, .predictive]

/-- Set a source entry that is not there yet (`setdefault`). -/
def addSource (entries : List DatasetSource) (entry : DatasetSource) : List DatasetSource :=
  if entries.any (·.sourceId = entry.sourceId) then entries else entries ++ [entry]

/-- Fold a notebook's facts (`notebook_to_evidence`). -/
def notebookToEvidence (u : TextTables) (facts : List Fact) (labels : List FactLabel)
    (scopeDatasets : Bool) : FoldedNotebook :=
  let folded := facts.zipIdx.filter fun fact => isFolded u labels fact.1
  { facts := folded.map fun fact => evidenceFact datasetByTemplate scopeDatasets fact.1 fact.2
    numbers := folded.flatMap fun fact =>
      evidenceNumbers datasetByTemplate scopeDatasets fact.1 fact.2
    extraSources := (folded.flatMap fun fact =>
      (citedSources datasetByTemplate scopeDatasets fact.1).2).foldl addSource [] }

end Golavo.Facts
