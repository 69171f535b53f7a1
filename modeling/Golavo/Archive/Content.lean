import Golavo.Archive.Host

/-! # Checking an archive's files

Each kind of file has its own check (`_validate_content`): an artifact and a locked pick are verified
against the id in their name, a draft against its match, the audit line by line, the follow database
as a whole, and a checkpoint file only has to be an object. -/

namespace Golavo.Archive

open Golavo.Lib (Json orFail failIf wrapError)
open Golavo.Ledger (verifyArtifactIntegrity)
open Golavo.Picks (verifyPickFile verifyDraftFile)

/-! ## Lines -/

def lineFeed : UInt8 := 10

def carriageReturn : UInt8 := 13

/-- Cut bytes at their line breaks, with `acc` the line read so far. -/
def byteLinesFrom (acc : Bytes) : Bytes → List Bytes
  | [] => if acc = [] then [] else [acc]
  | [b] => if b = lineFeed ∨ b = carriageReturn then [acc] else [acc ++ [b]]
  | b :: c :: rest =>
      if b = carriageReturn ∧ c = lineFeed then acc :: byteLinesFrom [] rest
      else if b = lineFeed ∨ b = carriageReturn then acc :: byteLinesFrom [] (c :: rest)
      else byteLinesFrom (acc ++ [b]) (c :: rest)

/-- The lines of some bytes without their breaks (`data.splitlines()`). -/
def byteLines (data : Bytes) : List Bytes := byteLinesFrom [] data

/-! ## The checks -/

/-- A JSON file that has to be an object. -/
def checkObject (host : Host) (message : String) (data : Bytes) : Except Failure Unit := do
  let value ← readJson host data
  failIf (value.isObj = false) (.refused message)

/-- Check a file by the entry it is (`_validate_content`). -/
def validateContent (host : Host) (e : Entry) (data : Bytes) : Except Failure Unit :=
  match e with
  | .artifact digits => do
      let value ← readJson host data
      let _ ← wrapError Failure.artifact
        (verifyArtifactIntegrity host.runtime value (some ("fa_" ++ digits)))
  | .locked digits => do
      let value ← readJson host data
      wrapError Failure.pick (verifyPickFile host.runtime value ("pk_" ++ digits))
  | .draft matchId => do
      let value ← readJson host data
      wrapError Failure.pick (verifyDraftFile host.runtime value matchId)
  | .audit => (byteLines data).forM (checkObject host "pick audit contains a non-object row")
  | .follows => do
      let db ← orFail (.refused "follow history is not a valid Golavo database")
        (host.openFollows data)
      wrapError Failure.follows (Follows.validateFollowDatabase db)
  | .head | .record _ => checkObject host "checkpoint archive entry is not an object" data

/-- Check a file by its name; a name that is no entry's is not checked. -/
def validateNamed (host : Host) (name : String) (data : Bytes) : Except Failure Unit :=
  match entryOf name with
  | some e => validateContent host e data
  | none => .ok ()

end Golavo.Archive
