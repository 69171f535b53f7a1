import Golavo.Picks.Record
import Golavo.Lib.Directory
import Golavo.Lib.Check

/-! # The pick service

Drafts are files named by a match id, locked picks files named by their content. Every operation
works on a snapshot of the match index and starts over, at most twice, when the index moved on before it
could write. A read that finds a draft's lock in the past locks it. -/

namespace Golavo.Picks

open Golavo.Lib (Json Directory failIf orFail)
open Golavo.Ledger (Runtime)
open Golavo.Ingest (MatchRow)

/-! ## The ledger -/

inductive PickEvent where
  | saved
  | locked
  | deleted
  deriving DecidableEq, Repr

/-- One line of the audit log. -/
structure AuditEntry where
  event : PickEvent
  matchId : String
  pickId : Option String
  atUtc : Int
  payloadSha256 : String
  deriving DecidableEq, Repr

/-- The pick files of a ledger: drafts by match id, locked picks by pick id, the audit log. -/
structure PickLedger where
  drafts : Directory UserPick
  locked : Directory UserPick
  audit : List AuditEntry

/-- A ledger without picks. -/
def emptyPicks : PickLedger := ⟨.empty, .empty, []⟩

/-- Put a draft's file, under its match id. -/
def PickLedger.putDraft (ledger : PickLedger) (record : UserPick) : PickLedger :=
  { ledger with drafts := ledger.drafts.write record.fixture.matchId record }

/-- Remove a draft's file. -/
def PickLedger.dropDraft (ledger : PickLedger) (matchId : String) : PickLedger :=
  { ledger with drafts := ledger.drafts.remove matchId }

/-- Put a locked pick's file, under its pick id. -/
def PickLedger.putLocked (ledger : PickLedger) (id : String) (record : UserPick) : PickLedger :=
  { ledger with locked := ledger.locked.write id record }

/-- The audit log's line about a record (`_append_audit`). -/
def auditEntry (rt : Runtime) (event : PickEvent) (record : UserPick) (atUtc : Int) : AuditEntry :=
  ⟨event, record.fixture.matchId, record.pickId, atUtc,
    record.payloadSha256.getD (rt.sha256 (canonicalPickBytes record))⟩

/-- Add a line to the audit log. -/
def PickLedger.log (ledger : PickLedger) (entry : AuditEntry) : PickLedger :=
  { ledger with audit := ledger.audit ++ [entry] }

/-! ## Failures -/

/-- A failure with its status and reason. -/
structure PickError where
  statusCode : Nat
  reasonCode : String
  detail : String
  deriving DecidableEq, Repr

/-- A typed failure, or an exception of the code below. -/
inductive PickFailure where
  | error (e : PickError)
  | exception
  deriving DecidableEq, Repr

def matchNotFound : PickFailure :=
  .error ⟨404, "match_not_found", "no indexed match with that id"⟩

def draftCorrupt : PickFailure :=
  .error ⟨500, "integrity_error", "the saved pick draft is corrupt"⟩

def lockedCorrupt : PickFailure :=
  .error ⟨500, "integrity_error", "the locked pick failed integrity verification"⟩

def noKickoff : PickFailure :=
  .error ⟨422, "no_kickoff", "this fixture has no usable kickoff time"⟩

def pickCollision (id : String) : PickFailure :=
  .error ⟨409, "pick_collision", "immutable pick collision at " ++ id⟩

def invalidScore : PickFailure :=
  .error ⟨422, "invalid_score", "home_goals and away_goals must be integers 0..20"⟩

def fixtureComplete : PickFailure :=
  .error ⟨422, "fixture_complete", "this fixture already has a final result"⟩

def pickLocked : PickFailure := .error ⟨409, "pick_locked", "this pick locked at kickoff"⟩

def councilUnavailable : PickFailure :=
  .error ⟨503, "analysis_unavailable", "the model council is unavailable, so this pick was not saved"⟩

def noRivals : PickFailure :=
  .error ⟨503, "analysis_unavailable",
    "the model council returned no rivals, so this pick was not saved"⟩

def generationChanged (detail : String) : PickFailure :=
  .error ⟨409, "index_generation_changed", detail⟩

def invalidStatus : PickFailure :=
  .error ⟨422, "invalid_status", "status must be draft, locked, scored, or void"⟩

def invalidPagination : PickFailure :=
  .error ⟨422, "invalid_pagination", "limit must be 1..500 and offset must be >= 0"⟩

/-! ## Rows of the index -/

/-- The row with an id (`_find_row_in_frame`). -/
def findRow (matchId : String) (frame : List MatchRow) : Option MatchRow :=
  frame.find? (·.matchId = some matchId)

/-- A row's kickoff, to the microsecond. -/
def rowKickoff (row : MatchRow) : Option Int := row.kickoffUtc.map fun s => wholeMicros s.toUtc

/-- A row's kickoff, which must be there (`_row_iso`). -/
def rowIso (row : MatchRow) : Except PickFailure Int := orFail noKickoff (rowKickoff row)

/-- What a fixture is told by where ids differ: its UTC day and its teams. -/
structure FixtureKey where
  day : Int
  homeNorm : String
  awayNorm : String
  deriving DecidableEq, Repr

/-- The key of a record (`_fixture_key_from_record`). -/
def fixtureKey (record : UserPick) : FixtureKey :=
  ⟨utcDay record.fixture.kickoffUtc, record.fixture.homeNorm, record.fixture.awayNorm⟩

/-- The key of a row, if it has a kickoff. -/
def rowKey (row : MatchRow) : Option FixtureKey :=
  (rowKickoff row).map fun k => ⟨utcDay k, row.homeNorm, row.awayNorm⟩

/-- Whether a row sorts before another by id; rows without one come last. -/
def idBefore (a b : MatchRow) : Bool :=
  match a.matchId, b.matchId with
  | some i, some j => i < j
  | some _, none => true
  | none, _ => false

/-- The first of some rows by id, the earlier one of equal ids. -/
def firstById : List MatchRow → Option MatchRow
  | [] => none
  | row :: rest => some (rest.foldl (fun best r => if idBefore r best then r else best) row)

/-- The row with a record's key (`_fallback_row`). -/
def fallbackRow (record : UserPick) (frame : List MatchRow) : Option MatchRow :=
  firstById (frame.filter (rowKey · = some (fixtureKey record)))

/-- The row of a record's fixture (`_current_row`). -/
def currentRow (record : UserPick) (frame : List MatchRow) : Option MatchRow :=
  (findRow record.fixture.matchId frame).orElse fun _ => fallbackRow record frame

/-- When a record locks: at its stored lock, or at the row's kickoff if that is earlier
(`_effective_lock`). -/
def effectiveLock (record : UserPick) (row : Option MatchRow) : Except PickFailure Int :=
  match row with
  | none => .ok record.lockAtUtc
  | some r => do
      let kickoff ← rowIso r
      return min record.lockAtUtc kickoff

/-- What a pick keeps of a row (`_match_snapshot`). -/
def matchSnapshot (row : MatchRow) (kickoff : Int) : MatchSnapshot :=
  let isDayProxy := row.sourceKind = some "international" ∧ kickoff = midnight (utcDay kickoff)
  ⟨row.matchIdText, kickoff, !decide isDayProxy, row.homeTeam, row.awayTeam, row.homeNorm,
    row.awayNorm, row.competition⟩

/-! ## Files -/

/-- A character a match id may have where it names a file. -/
def isSafeChar (c : Char) : Bool := c.isAlphanum || c = '_' || c = '.' || c = '-'

/-- Whether a match id may name a file. -/
def safeMatchId (matchId : String) : Bool := matchId ≠ "" && matchId.toList.all isSafeChar

/-- Read a draft (`_load_draft`). -/
def loadDraft (rt : Runtime) (ledger : PickLedger) (matchId : String) :
    Except PickFailure (Option UserPick) := do
  failIf (safeMatchId matchId = false) matchNotFound
  match ledger.drafts.read matchId with
  | none => return none
  | some record => do
      failIf (validateUserPick rt record = false) draftCorrupt
      return some record

/-- Look for a locked pick among files: by its match id, else the last one with the row's key. One
that fails verification is refused if it is the one asked for, else passed over. -/
def findLockedIn (rt : Runtime) (matchId : String) (key : Option FixtureKey) :
    List (String × UserPick) → Option (String × UserPick) →
      Except PickFailure (Option (String × UserPick))
  | [], fallback => .ok fallback
  | (name, record) :: rest, fallback =>
      if verifyPickIntegrity rt record name then
        if record.fixture.matchId = matchId then .ok (some (name, record))
        else findLockedIn rt matchId key rest
          (if key = some (fixtureKey record) then some (name, record) else fallback)
      else if record.fixture.matchId = matchId ∨ key = some (fixtureKey record) then
        .error lockedCorrupt
      else findLockedIn rt matchId key rest fallback

/-- The locked pick of a match (`_find_locked`). -/
def findLocked (rt : Runtime) (ledger : PickLedger) (matchId : String) (row : Option MatchRow) :
    Except PickFailure (Option (String × UserPick)) :=
  match row with
  | none => findLockedIn rt matchId none ledger.locked.files none
  | some r => do
      let _ ← rowIso r
      findLockedIn rt matchId (rowKey r) ledger.locked.files none

/-! ## Freezing -/

/-- What commits a write: whether the snapshot is still the index's. A stale one is told apart from
other failures, since it is tried again. -/
inductive Committed (α : Type) where
  | stale
  | failed (e : PickFailure)
  | done (a : α)

/-- Write a locked pick and remove its draft, if the index has not moved on (`_write_locked`). -/
def writeLocked (rt : Runtime) (record : UserPick) (current : Bool) (ledger : PickLedger) :
    Committed PickLedger :=
  let id := record.pickId.getD ""
  if verifyPickIntegrity rt record id = false then .failed .exception
  else
    let collides := match ledger.locked.read id with
      | some existing =>
          decide (canonicalPickBytes existing ≠ canonicalPickBytes record) &&
            verifyPickIntegrity rt existing id
      | none => false
    if collides then .failed (pickCollision id)
    else if current then .done ((ledger.putLocked id record).dropDraft record.fixture.matchId)
    else .stale

/-- Lock a draft (`_freeze`). -/
def freeze (rt : Runtime) (draft : UserPick) (row : Option MatchRow) (current : Bool)
    (ledger : PickLedger) : Committed (PickLedger × UserPick) :=
  match effectiveLock draft row with
  | .error e => .failed e
  | .ok lockAt =>
      let record := sealedRecord rt draft lockAt
      if validateUserPick rt record = false then .failed .exception
      else
        match writeLocked rt record current ledger with
        | .stale => .stale
        | .failed e => .failed e
        | .done next =>
            .done (next.log (auditEntry rt .locked record (wholeSeconds lockAt)), record)

/-! ## Views -/

inductive ViewStatus where
  | draft
  | locked
  | scored
  | void
  deriving DecidableEq, Repr

/-- A pick as it is shown. -/
structure PickView where
  status : ViewStatus
  record : UserPick
  result : Option (Score × Outcome)
  scoring : Option PickScoring

/-- Show a record with its fixture's row (`_view`). -/
def view (record : UserPick) (row : Option MatchRow) : Except PickFailure PickView :=
  match record.status, row with
  | .draft, _ => .ok ⟨.draft, record, none, none⟩
  | .locked, none => .ok ⟨.void, record, none, none⟩
  | .locked, some r =>
      if r.complete = false then .ok ⟨.locked, record, none, none⟩
      else
        match r.homeScore, r.awayScore with
        | some home, some away =>
            .ok ⟨.scored, record, some (⟨home, away⟩, outcomeOf home away),
              some (scorePick record ⟨home, away⟩)⟩
        | _, _ => .error .exception

/-! ## Attempts -/

/-- What one attempt of an operation meets: the index it reads, what the council says of the match in
it, and whether that index is still the newest when the council has answered and when the attempt
ends. -/
structure Attempt where
  frame : List MatchRow
  fingerprint : String
  council : Option Council
  currentAfterCouncil : Bool
  current : Bool

/-- How an attempt ends: over again, or with an answer. -/
inductive Attempted (α : Type) where
  | retry
  | done (answer : Except PickFailure α)

/-- An answer that holds if the index has not moved on. -/
def Attempt.answer {α : Type} (a : Attempt) (answer : Except PickFailure α) : Attempted α :=
  if a.current then .done answer else .retry

/-- Make attempts on a ledger until one gives an answer. -/
def tryAttempts {α : Type} (attempt : PickLedger → Attempt → PickLedger × Attempted α)
    (detail : String) : List Attempt → PickLedger → PickLedger × Except PickFailure α
  | [], ledger => (ledger, .error (generationChanged detail))
  | a :: rest, ledger =>
      match attempt ledger a with
      | (next, .retry) => tryAttempts attempt detail rest next
      | (next, .done answer) => (next, answer)

/-- The attempts an operation makes. -/
structure Attempts where
  first : Attempt
  second : Attempt
  third : Attempt

def Attempts.toList (as : Attempts) : List Attempt := [as.first, as.second, as.third]

/-- One attempt of `get_pick`. -/
def getAttempt (rt : Runtime) (matchId : String) (now : Int) (ledger : PickLedger) (a : Attempt) :
    PickLedger × Attempted (Option PickView) :=
  match loadDraft rt ledger matchId with
  | .error e => (ledger, .done (.error e))
  | .ok draft =>
      match findLocked rt ledger matchId (findRow matchId a.frame) with
      | .error e => (ledger, .done (.error e))
      | .ok (some (_, locked)) =>
          -- crash repair: the locked pick is there, so the draft goes
          (ledger.dropDraft matchId,
            a.answer ((view locked (currentRow locked a.frame)).map some))
      | .ok none =>
          match draft with
          | none => (ledger, a.answer (.ok none))
          | some d =>
              match effectiveLock d (currentRow d a.frame) with
              | .error e => (ledger, .done (.error e))
              | .ok lockAt =>
                  if lockAt ≤ now then
                    match freeze rt d (currentRow d a.frame) a.current ledger with
                    | .stale => (ledger, .retry)
                    | .failed e => (ledger, .done (.error e))
                    | .done (next, frozen) =>
                        (next, .done ((view frozen (currentRow d a.frame)).map some))
                  else (ledger, a.answer ((view d (currentRow d a.frame)).map some))

/-- The lock of a save: the kickoff, or the stored lock of the draft there is if that is earlier. -/
def saveLock (existing : Option UserPick) (kickoff : Int) : Int :=
  match existing with
  | some d => min d.lockAtUtc kickoff
  | none => kickoff

/-- The draft a save writes. -/
def savedRecord (row : MatchRow) (kickoff : Int) (existing : Option UserPick) (score : Score)
    (derived : AnalysisFingerprint × List Rival) (effective now : Int) : UserPick where
  pickId := none
  status := .draft
  fixture := (existing.map (·.fixture)).getD (matchSnapshot row kickoff)
  userPick := ⟨score, outcomeOf score.homeGoals score.awayGoals⟩
  rivals := derived.2
  analysisFingerprint := derived.1
  createdAtUtc := (existing.map (·.createdAtUtc)).getD now
  updatedAtUtc := now
  lockAtUtc := wholeSeconds effective
  lockedAtUtc := none
  payloadSha256 := none

/-- One attempt of `save_pick`, the goals checked. -/
def saveAttempt (rt : Runtime) (matchId : String) (score : Score) (now : Int) (ledger : PickLedger)
    (a : Attempt) : PickLedger × Attempted PickView :=
  match findRow matchId a.frame with
  | none => (ledger, a.answer (.error matchNotFound))
  | some row =>
      if row.complete then (ledger, a.answer (.error fixtureComplete))
      else
        match findLocked rt ledger matchId (some row) with
        | .error e => (ledger, .done (.error e))
        | .ok (some _) => (ledger, .done (.error pickLocked))
        | .ok none =>
            match loadDraft rt ledger matchId, rowIso row with
            | .error e, _ | _, .error e => (ledger, .done (.error e))
            | .ok existing, .ok kickoff =>
                let effective := saveLock existing kickoff
                if effective ≤ now then
                  match existing with
                  | none => (ledger, .done (.error pickLocked))
                  | some d =>
                      match freeze rt d (some row) a.current ledger with
                      | .stale => (ledger, .retry)
                      | .failed e => (ledger, .done (.error e))
                      | .done (next, _) => (next, .done (.error pickLocked))
                else if a.currentAfterCouncil = false then (ledger, .retry)
                else
                  match a.council with
                  | none => (ledger, .done (.error councilUnavailable))
                  | some council =>
                      let derived := deriveRivalPicks a.fingerprint council
                      if derived.2 = [] then (ledger, .done (.error noRivals))
                      else
                        let record := savedRecord row kickoff existing score derived effective now
                        if validateUserPick rt record = false then
                          (ledger, .done (.error .exception))
                        else if a.current then
                          ((ledger.putDraft record).log (auditEntry rt .saved record now),
                            .done (view record (some row)))
                        else (ledger, .retry)

/-- One attempt of `delete_pick`. -/
def deleteAttempt (rt : Runtime) (matchId : String) (now : Int) (ledger : PickLedger) (a : Attempt) :
    PickLedger × Attempted Bool :=
  match loadDraft rt ledger matchId with
  | .error e => (ledger, .done (.error e))
  | .ok draft =>
      let row := draft.bind (currentRow · a.frame)
      match findLocked rt ledger matchId row with
      | .error e => (ledger, .done (.error e))
      | .ok (some _) => (ledger, .done (.error pickLocked))
      | .ok none =>
          match draft with
          | none => (ledger, a.answer (.ok false))
          | some d =>
              match effectiveLock d row with
              | .error e => (ledger, .done (.error e))
              | .ok lockAt =>
                  if lockAt ≤ now then
                    match freeze rt d row a.current ledger with
                    | .stale => (ledger, .retry)
                    | .failed e => (ledger, .done (.error e))
                    | .done (next, _) => (next, .done (.error pickLocked))
                  else if a.current then
                    ((ledger.dropDraft matchId).log (auditEntry rt .deleted d now),
                      .done (.ok true))
                  else (ledger, .retry)

/-! ## Operations -/

/-- Read a pick (`get_pick`). -/
def getPick (rt : Runtime) (matchId : String) (now : Int) (attempts : Attempts)
    (ledger : PickLedger) : PickLedger × Except PickFailure (Option PickView) :=
  tryAttempts (getAttempt rt matchId (wholeSeconds now))
    "verified match index kept changing; retry this pick" attempts.toList ledger

/-- The goals of a request (`_validate_goals`). -/
def validateGoals (homeGoals awayGoals : Json) : Except PickFailure Score :=
  match homeGoals, awayGoals with
  | .int home, .int away =>
      if 0 ≤ home ∧ home ≤ 20 ∧ 0 ≤ away ∧ away ≤ 20 then .ok ⟨home, away⟩ else .error invalidScore
  | _, _ => .error invalidScore

/-- Save a call (`save_pick`). -/
def savePick (rt : Runtime) (matchId : String) (homeGoals awayGoals : Json) (now : Int)
    (attempts : Attempts) (ledger : PickLedger) : PickLedger × Except PickFailure PickView :=
  match validateGoals homeGoals awayGoals with
  | .error e => (ledger, .error e)
  | .ok score =>
      tryAttempts (saveAttempt rt matchId score (wholeSeconds now))
        "verified match index kept changing; reload before saving this pick" attempts.toList ledger

/-- Delete a draft (`delete_pick`). -/
def deletePick (rt : Runtime) (matchId : String) (now : Int) (attempts : Attempts)
    (ledger : PickLedger) : PickLedger × Except PickFailure Bool :=
  tryAttempts (deleteAttempt rt matchId (wholeSeconds now))
    "verified match index kept changing; retry deleting this pick" attempts.toList ledger

/-- Every match id with a draft or a locked pick, in order (`_all_match_ids`). -/
def allMatchIds (rt : Runtime) (ledger : PickLedger) : List String :=
  ((ledger.drafts.files.map Prod.fst ++
    (ledger.locked.files.filter fun p => verifyPickIntegrity rt p.2 p.1).map
      fun p => p.2.fixture.matchId).dedup).insertionSort (· ≤ ·)

/-- What a listing's reads meet: each match id is read at its own time, with its own attempts. -/
structure ListingInput where
  now : String → Int
  attempts : String → Attempts

/-- Read every pick in turn; one that fails its integrity check is passed over. -/
def listViews (rt : Runtime) (input : ListingInput) : List String → PickLedger →
    PickLedger × Except PickFailure (List PickView)
  | [], ledger => (ledger, .ok [])
  | matchId :: rest, ledger =>
      match getPick rt matchId (input.now matchId) (input.attempts matchId) ledger with
      | (next, .error (.error e)) =>
          if e.reasonCode = "integrity_error" then listViews rt input rest next
          else (next, .error (.error e))
      | (next, .error .exception) => (next, .error .exception)
      | (next, .ok shown) =>
          match listViews rt input rest next with
          | (last, .ok views) => (last, .ok (shown.toList ++ views))
          | (last, .error e) => (last, .error e)

/-- Whether a view belongs on a listing. -/
def PickView.matchesFilter (status : Option String) (season : Option String) (v : PickView) : Bool :=
  let name := match v.status with
    | .draft => "draft"
    | .locked => "locked"
    | .scored => "scored"
    | .void => "void"
  status.all (· = name) && season.all (· = footballSeason v.record.fixture.kickoffUtc)

/-- Whether a view is listed before another: later kickoffs first, then larger ids. -/
def listedBefore (a b : PickView) : Bool :=
  let fa := a.record.fixture
  let fb := b.record.fixture
  isoText fb.kickoffUtc < isoText fa.kickoffUtc ||
    (isoText fa.kickoffUtc = isoText fb.kickoffUtc && fb.matchId ≤ fa.matchId)

/-- A page of picks. -/
structure Listing where
  items : List PickView
  total : Nat
  limit : Int
  offset : Int

def listStatuses : List String := ["draft", "locked", "scored", "void"]

/-- List picks, newest first (`list_picks`). -/
def listPicks (rt : Runtime) (status season : Option String) (limit offset : Int)
    (input : ListingInput) (ledger : PickLedger) : PickLedger × Except PickFailure Listing :=
  if status.any (· ∉ listStatuses) then (ledger, .error invalidStatus)
  else if limit < 1 ∨ 500 < limit ∨ offset < 0 then (ledger, .error invalidPagination)
  else
    match listViews rt input (allMatchIds rt ledger) ledger with
    | (next, .error e) => (next, .error e)
    | (next, .ok views) =>
        let kept := (views.filter (·.matchesFilter status season)).insertionSort
          (fun a b => listedBefore a b)
        (next, .ok ⟨(kept.drop offset.toNat).take limit.toNat, kept.length, limit, offset⟩)

/-- The picks a season's summary is made from (`picks_summary`). -/
def picksSummary (rt : Runtime) (season : Option String) (input : ListingInput)
    (ledger : PickLedger) : PickLedger × Except PickFailure (List PickView) :=
  match listPicks rt none none 500 0 input ledger with
  | (next, .error e) => (next, .error e)
  | (next, .ok listing) => (next, .ok (listing.items.filter (·.matchesFilter none season)))

end Golavo.Picks
