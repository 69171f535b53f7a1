import Mathlib.Data.List.Sort
import Mathlib.Data.String.Basic
import Golavo.Lib.Runs
import Golavo.Refresh.Coordinator

/-! # Runs over upstream refs

What a refresh run does with the refs of its sources: `check_source` reads a source's latest commit
against the state file, `_source_success` records it, and `_run_locked` decides from the refs
observed whether to stop or to build and activate. What becomes of the build is up to the caller;
each run is one action, as the job lock makes it. -/

namespace Golavo.Refresh

/-! ## Sources and answers -/

/-- What the state file keeps of a source, as far as its refs are concerned. -/
structure SourceState where
  observedRef : Option String
  activeRef : Option String
  quarantinedRef : Option String
  season : Option String
  currentPaths : List String
  deriving DecidableEq, Repr

/-- A source the state file says nothing of. -/
def SourceState.unseen : SourceState := ⟨none, none, none, none, []⟩

/-- `observed_ref or active_ref or ""`. -/
def SourceState.savedRef (s : SourceState) : String :=
  match s.observedRef with
  | none => s.activeRef.getD ""
  | some ref => if ref = "" then s.activeRef.getD "" else ref

/-- `SourceObservation`: what a check found. -/
structure Observation where
  sourceId : String
  ref : String
  changed : Bool
  season : Option String
  currentPaths : List String
  deriving DecidableEq, Repr

/-- The answer to the request for the latest commit. -/
inductive CommitAnswer where
  | notModified
  | commit (ref : String)
  /-- No answer, another status, or a body that is no commit. -/
  | failed
  deriving DecidableEq, Repr

/-- What upstream answers to one check: the commit, and the paths of its tree if that was sent. -/
structure Answer where
  commit : CommitAnswer
  tree : Option (List String)
  deriving DecidableEq, Repr

/-- `_SHA_RE`. -/
def isSha (ref : String) : Bool :=
  ref.length == 40 && ref.toList.all fun c => ('0' ≤ c && c ≤ '9') || ('a' ≤ c && c ≤ 'f')

/-- `LEAGUE_CODES`. -/
def leagueCodes : List String := ["en.1", "es.1", "de.1", "it.1", "fr.1"]

/-- The path of `DOMESTIC_CONFIG`, for a season. -/
def domesticPath (season : String) : String → Option String
  | "openfootball-england" => some (season ++ "/1-premierleague.txt")
  | "openfootball-deutschland" => some (season ++ "/1-bundesliga.txt")
  | "openfootball-espana" => some (season ++ "/1-liga.txt")
  | "openfootball-italy" => some (season ++ "/1-seriea.txt")
  | "openfootball-europe" => some ("france/" ++ season ++ "_fr1.txt")
  | _ => none

/-- `expected_current_paths`. -/
def expectedCurrentPaths (sourceId season : String) : List String :=
  if sourceId = footballId then leagueCodes.map fun code => season ++ "/" ++ code ++ ".json"
  else (domesticPath season sourceId).toList

/-- Whether a source publishes by season. -/
def isDynamic (sourceId : String) : Bool :=
  sourceId == footballId || domesticSourceIds.contains sourceId

/-- `_published_paths`. -/
def publishedPaths (sourceId season : String) (tree : List String) : List String :=
  (expectedCurrentPaths sourceId season).filter (· ∈ tree)

/-- The ref a commit answer stands for, and whether it is another one than was saved. -/
def readCommit (previous : SourceState) : CommitAnswer → Option (String × Bool)
  | .notModified => if isSha previous.savedRef then some (previous.savedRef, false) else none
  | .commit ref => if isSha ref then some (ref, ref ≠ previous.savedRef) else none
  | .failed => none

/-- The season's paths of a source: the saved ones where nothing was modified within the season. -/
def readPaths (season sourceId : String) (previous : SourceState) (answer : Answer) :
    Option (List String) :=
  if !isDynamic sourceId then some []
  else if answer.commit = .notModified ∧ previous.season = some season then
    some previous.currentPaths
  else answer.tree.map (publishedPaths sourceId season)

/-- `check_source`, without a result where it raises a `RefreshSourceError`. -/
def checkSource (season sourceId : String) (previous : SourceState) (answer : Answer) :
    Option Observation := do
  let (ref, changed) ← readCommit previous answer.commit
  let paths ← readPaths season sourceId previous answer
  some ⟨sourceId, ref, changed, if isDynamic sourceId then some season else none, paths⟩

/-- `_source_from_state`. -/
def sourceFromState (sourceId : String) (value : SourceState) : Option Observation :=
  if value.savedRef.length = 40 then
    some ⟨sourceId, value.savedRef, false, value.season, value.currentPaths⟩
  else none

/-- `_source_success`: a ref other than the quarantined one lifts the quarantine. -/
def sourceSuccess (sources : String → SourceState) (o : Observation) : String → SourceState :=
  let previous := sources o.sourceId
  Function.update sources o.sourceId
    ⟨some o.ref, previous.activeRef,
      if previous.quarantinedRef = some o.ref then some o.ref else none, o.season, o.currentPaths⟩

/-! ## A run -/

/-- What becomes of the build a run goes into. -/
inductive BuildResult where
  | accepted
  | conflict
  | failed
  | cancelled
  deriving DecidableEq, Repr

/-- A run, and all that it meets. -/
structure SourceRun where
  /-- `mode == "check"`. -/
  checkOnly : Bool
  /-- `scope == "followed"`. -/
  followed : Bool
  selected : List String
  due : String → Bool
  /-- The current European season. -/
  season : String
  /-- What upstream answers in the loop over the selected sources and in the one after it. -/
  answer : Bool → String → Answer
  /-- Whether a cancellation was asked for before the first loop was over. -/
  cancelled : Bool
  build : BuildResult

/-- How a run ends. -/
inductive RunEnd where
  /-- `start` raised `ValueError`. -/
  | refused
  | cancelled
  | checked (observed : List (String × String))
  | unchanged
  /-- The check of a source the generation needs failed. -/
  | sourceFailed (sourceId : String)
  /-- `quarantined_ref_unchanged`. -/
  | quarantined (sources : List String)
  | buildCancelled
  | buildFailed
  | conflict
  | activated
  deriving DecidableEq, Repr

/-- The state file's sources, and the refs the manifest of the active generation names, if there is
one. -/
structure SourceWorld where
  sources : String → SourceState
  activeRefs : Option (String → Option String)

/-- What `start` validates. -/
def SourceRun.startable (input : SourceRun) : Bool :=
  input.selected ≠ [] && input.selected.Nodup &&
    input.selected.all (· ∈ approvedSourceIds) &&
    (input.checkOnly || input.followed || approvedSourceIds.all (· ∈ input.selected))

/-- The checks of a run so far. -/
structure Checks where
  sources : String → SourceState
  observations : List Observation

/-- Whether a source was observed. -/
def Checks.observed (c : Checks) (sourceId : String) : Bool :=
  c.observations.any (·.sourceId == sourceId)

/-- Record an observation. -/
def Checks.succeed (c : Checks) (o : Observation) : Checks :=
  ⟨sourceSuccess c.sources o, c.observations ++ [o]⟩

/-- The loop over the selected sources. A failed check leaves the refs as they were. -/
def observeSelected (input : SourceRun) (c : Checks) (sourceId : String) : Checks :=
  let previous := c.sources sourceId
  if input.due sourceId then
    match checkSource input.season sourceId previous (input.answer false sourceId) with
    | some o => c.succeed o
    | none => c
  else
    match sourceFromState sourceId previous with
    | some o => { c with observations := c.observations ++ [o] }
    | none => c

/-- The loop over the approved sources not observed yet, with the first that failed. -/
def observeDependencies (input : SourceRun) : Checks → List String → Checks × Option String
  | c, [] => (c, none)
  | c, dependency :: rest =>
      if c.observed dependency then observeDependencies input c rest
      else
        match checkSource input.season dependency (c.sources dependency)
            (input.answer true dependency) with
        | some o => observeDependencies input (c.succeed o) rest
        | none => (c, some dependency)

/-- Whether a source observed stands at another ref than in the active generation. -/
def changedFrom (activeRefs : Option (String → Option String)) (observations : List Observation) :
    Bool :=
  observations.any fun o =>
    (activeRefs.bind (· o.sourceId)) ≠ some o.ref &&
      (o.sourceId ≠ footballId || !o.currentPaths.isEmpty)

/-- The sources observed at their quarantined ref. -/
def blocked (c : Checks) : List String :=
  (c.observations.filter fun o => (c.sources o.sourceId).quarantinedRef = some o.ref).map
    (·.sourceId)

/-- The conflict handler: what changed in this run is quarantined. -/
def quarantine (sources : String → SourceState) (observations : List Observation) :
    String → SourceState :=
  observations.foldl (fun sources o =>
    if o.changed then
      Function.update sources o.sourceId
        { sources o.sourceId with quarantinedRef := some o.ref }
    else sources) sources

/-- `_sync_state_to_generation`, as far as the refs go. -/
def syncState (sources : String → SourceState) (refs : String → Option String) :
    String → SourceState := fun sourceId =>
  if sourceId ∈ approvedSourceIds then { sources sourceId with activeRef := refs sourceId }
  else sources sourceId

/-- The refs of the generation built from some observations. -/
def refsOf (observations : List Observation) (sourceId : String) : Option String :=
  (observations.find? (·.sourceId == sourceId)).map (·.ref)

/-- The checks of the selected sources. -/
def SourceWorld.firstChecks (w : SourceWorld) (input : SourceRun) : Checks :=
  input.selected.foldl (observeSelected input) ⟨w.sources, []⟩

/-- All checks of a run that goes on to build. -/
def SourceWorld.allChecks (w : SourceWorld) (input : SourceRun) : Checks × Option String :=
  observeDependencies input (w.firstChecks input) approvedSourceIds

/-- The build and what follows it. -/
def SourceWorld.build (w : SourceWorld) (c : Checks) : BuildResult → SourceWorld × RunEnd
  | .accepted =>
      let refs := refsOf c.observations
      (⟨syncState c.sources refs, some refs⟩, .activated)
  | .conflict => (⟨quarantine c.sources c.observations, w.activeRefs⟩, .conflict)
  | .failed => (⟨c.sources, w.activeRefs⟩, .buildFailed)
  | .cancelled => (⟨c.sources, w.activeRefs⟩, .buildCancelled)

/-- The part of `_run_locked` after the checks of the selected sources. -/
def SourceWorld.refresh (w : SourceWorld) (input : SourceRun) : SourceWorld × RunEnd :=
  match w.allChecks input with
  | (c, some sourceId) => (⟨c.sources, w.activeRefs⟩, .sourceFailed sourceId)
  | (c, none) =>
      if blocked c ≠ [] then
        (⟨c.sources, w.activeRefs⟩, .quarantined ((blocked c).insertionSort (· ≤ ·)))
      else if w.activeRefs.isSome && !changedFrom w.activeRefs c.observations then
        (⟨c.sources, w.activeRefs⟩, .unchanged)
      else w.build c input.build

/-- One run: `start` and `_run_locked`. -/
def SourceWorld.run (w : SourceWorld) (input : SourceRun) : SourceWorld × RunEnd :=
  let first := w.firstChecks input
  if !input.startable then (w, .refused)
  else if input.cancelled then (⟨first.sources, w.activeRefs⟩, .cancelled)
  else if input.checkOnly then
    (⟨first.sources, w.activeRefs⟩,
      .checked (first.observations.map fun o => (o.sourceId, o.ref)))
  else if input.followed && w.activeRefs.isSome &&
      !changedFrom w.activeRefs first.observations then
    (⟨first.sources, w.activeRefs⟩, .unchanged)
  else w.refresh input

/-- What happens to the state file and the pointer: runs, and rollbacks in between. -/
inductive SourceAction where
  | run (input : SourceRun)
  /-- `rollback`, to a generation of these refs. -/
  | rollback (refs : String → Option String)

/-- Take an action. -/
def SourceWorld.act (w : SourceWorld) : SourceAction → SourceWorld
  | .run input => (w.run input).1
  | .rollback refs => ⟨syncState w.sources refs, some refs⟩

end Golavo.Refresh
