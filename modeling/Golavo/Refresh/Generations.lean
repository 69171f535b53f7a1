import Golavo.Lib.Check
import Golavo.Lib.Directory
import Golavo.Lib.Runs

/-! # Generations

A refresh installs a **generation**, a directory named by its id, and activates it by replacing the
pointer file, which names the active generation and the one before. What is served is the active
generation while it verifies and the previous one otherwise. The refreshed-data store keeps every
directory; the OpenLigaDB store prunes the ones its pointer does not name. -/

namespace Golavo.Refresh

open Golavo.Lib (Directory RunAllowed orFail failIf bind_ok_iff check_bind_ok_iff failIf_ok_iff
  orFail_ok_iff)

/-! ## Pointers and stores -/

/-- The pointer file (`active.json`). -/
structure Pointer where
  activeGenerationId : Option String
  previousGenerationId : Option String
  activatedAtUtc : Option String
  rollback : Bool := false
  deriving DecidableEq, Repr

/-- What `load_pointer() or {}` names when there is no pointer. -/
def Pointer.absent : Pointer := ⟨none, none, none, false⟩

/-- What `verify_generation` makes of a directory. -/
inductive Verdict where
  | verified
  /-- It raised `OSError` or `ValueError`. -/
  | refused
  /-- It raised anything else. -/
  | crashed
  deriving DecidableEq, Repr

/-- What makes an operation on generations fail. -/
inductive GenerationError where
  /-- The id is malformed, or the directory does not verify. -/
  | notVerified (id : String) (found : Verdict)
  /-- `no previous … generation is available`. -/
  | noPrevious
  deriving DecidableEq, Repr

/-- A store of generations: the pointer file and the directories by their names. -/
structure Generations (γ : Type) where
  pointer : Option Pointer
  trees : Directory γ

variable {γ : Type} (verify : String → γ → Verdict)

namespace Generations

/-- A store nothing was installed in. -/
def empty : Generations γ := ⟨none, .empty⟩

/-- The pointer read as `load_pointer() or {}`. -/
def current (s : Generations γ) : Pointer := s.pointer.getD .absent

/-! ## The operations -/

/-- Whether `generation_dir` takes an id. -/
def isGenerationId (id : String) : Bool := id.toList.take 2 = ['g', '_'] && id.toList.length = 66

/-- What becomes of `verify_generation(generation_dir(id))`: a malformed id and a missing directory
are refused. -/
def inspect (s : Generations γ) (id : String) : Verdict :=
  if isGenerationId id then
    match s.trees.read id with
    | some tree => verify id tree
    | none => .refused
  else .refused

/-- Require a generation to verify. -/
def require (s : Generations γ) (id : String) : Except GenerationError Unit :=
  failIf (s.inspect verify id ≠ .verified) (.notVerified id (s.inspect verify id))

/-- The first of some candidates that verifies, with whether it is the fallback. -/
def firstVerified (s : Generations γ) :
    List (Option String × Bool) → Except GenerationError (Option (String × Bool))
  | [] => .ok none
  | (none, _) :: rest => firstVerified s rest
  | (some id, fallback) :: rest =>
      match s.inspect verify id with
      | .verified => .ok (some (id, fallback))
      | .refused => firstVerified s rest
      | .crashed => .error (.notVerified id .crashed)

/-- The generation that is served and whether it is the fallback (`active_generation`). -/
def activeGeneration (s : Generations γ) : Except GenerationError (Option (String × Bool)) :=
  match s.pointer with
  | none => .ok none
  | some p =>
      s.firstVerified verify [(p.activeGenerationId, false), (p.previousGenerationId, true)]

/-- Move a staged directory into place and verify it (`install_generation`): one that is there
already is verified and kept, and one that does not verify stays where it was moved. -/
def installGeneration (s : Generations γ) (id : String) (staged : γ) :
    Generations γ × Except GenerationError Unit :=
  if isGenerationId id then
    match s.trees.read id with
    | some _ => (s, s.require verify id)
    | none =>
        let installed := { s with trees := s.trees.write id staged }
        (installed, installed.require verify id)
  else (s, s.require verify id)

/-- The generation an activation records as the previous one. -/
def nextPrevious (s : Generations γ) (id : String) : Option String :=
  match s.current.activeGenerationId with
  | some oldActive => if oldActive ≠ id then some oldActive else s.current.previousGenerationId
  | none => s.current.previousGenerationId

/-- Remove the directories a pointer does not name (`_prune_generations`). -/
def pruneGenerations (p : Pointer) (trees : Directory γ) : Directory γ :=
  trees.keep fun name =>
    p.activeGenerationId = some name || p.previousGenerationId = some name

/-- Make a verified generation the active one and the active one the previous; a store that `prunes`
then removes the directories neither is. -/
def activateGeneration (prunes : Bool) (s : Generations γ) (id activatedAtUtc : String) :
    Except GenerationError (Generations γ) := do
  s.require verify id
  let pointer : Pointer := {
    activeGenerationId := some id
    previousGenerationId := s.nextPrevious id
    activatedAtUtc := some activatedAtUtc }
  return {
    pointer := some pointer
    trees := if prunes then pruneGenerations pointer s.trees else s.trees }

/-- Swap the active generation with the previous one, which has to verify (`rollback`). -/
def rollback (s : Generations γ) (activatedAtUtc : String) :
    Except GenerationError (Generations γ) := do
  let previous ← orFail .noPrevious s.current.previousGenerationId
  s.require verify previous
  return { s with pointer := some {
    activeGenerationId := some previous
    previousGenerationId := s.current.activeGenerationId
    activatedAtUtc := some activatedAtUtc
    rollback := true } }

/-- The bytes of a directory change, or the directory goes. -/
def corrupt (s : Generations γ) (id : String) (tree : Option γ) : Generations γ :=
  { s with trees := match tree with
      | some tree => s.trees.write id tree
      | none => s.trees.remove id }

end Generations

/-- `refresh_state._activate_generation_unlocked`. -/
def activateRefreshGeneration (s : Generations γ) (id activatedAtUtc : String) :
    Except GenerationError (Generations γ) :=
  s.activateGeneration verify false id activatedAtUtc

/-- `openligadb_state.activate_generation`. -/
def activateOpenligadbGeneration (s : Generations γ) (id activatedAtUtc : String) :
    Except GenerationError (Generations γ) :=
  s.activateGeneration verify true id activatedAtUtc

/-! ## Runs -/

/-- What happens to a store of generations. -/
inductive GenerationAction (γ : Type) where
  | install (id : String) (staged : γ)
  | activate (id activatedAtUtc : String)
  /-- The bytes of a directory change on disk. -/
  | corrupt (id : String) (tree : Option γ)
  | rollback (activatedAtUtc : String)

/-- The store after an action; an operation that fails leaves it, but for what it installed. -/
def Generations.step (prunes : Bool) (s : Generations γ) : GenerationAction γ → Generations γ
  | .install id staged => (s.installGeneration verify id staged).1
  | .activate id at_ => (s.activateGeneration verify prunes id at_).toOption.getD s
  | .corrupt id tree => s.corrupt id tree
  | .rollback at_ => (s.rollback verify at_).toOption.getD s

end Golavo.Refresh
