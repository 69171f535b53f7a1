import Golavo.Picks.Service
import Golavo.Lib.Runs

/-! # What the pick service does

One attempt of an operation does one of five things to the ledger: nothing, the removal of a draft beside
its locked pick, a lock, a save or a deletion. An operation is attempts, a listing reads, so what every
attempt keeps every run keeps. -/

namespace Golavo.Picks

open Golavo.Lib (Json Directory Reaches)
open Golavo.Ledger (Runtime)
open Golavo.Ingest (MatchRow)

/-- The operations attempts belong to. -/
inductive Request where
  | get
  | save
  | delete
  deriving DecidableEq, Repr

/-- The row a request looks for a locked pick with. -/
def Request.lookup (request : Request) (matchId : String) (ledger : PickLedger) (a : Attempt) :
    Option MatchRow :=
  match request with
  | .delete => (ledger.drafts.read matchId).bind (currentRow · a.frame)
  | _ => findRow matchId a.frame

/-- The ledger a lock leaves: the locked pick in place of its draft. -/
def lockedLedger (rt : Runtime) (ledger : PickLedger) (draft : UserPick) (lockAt : Int) : PickLedger :=
  let record := sealedRecord rt draft lockAt
  ((ledger.putLocked (record.pickId.getD "") record).dropDraft record.fixture.matchId).log
    (auditEntry rt .locked record (wholeSeconds lockAt))

/-- Whether an attempt finds a draft due: no locked pick is found for it, its lock has come, and the
index has not moved on. -/
structure Due (rt : Runtime) (request : Request) (matchId : String) (now : Int) (ledger : PickLedger)
    (a : Attempt) (draft : UserPick) (row : Option MatchRow) (lockAt : Int) : Prop where
  draft_read : ledger.drafts.read matchId = some draft
  unlocked : findLocked rt ledger matchId (request.lookup matchId ledger a) = .ok none
  row_eq : row = currentRow draft a.frame ∨ ∃ r, row = some r ∧ findRow matchId a.frame = some r
  lock_eq : effectiveLock draft row = .ok lockAt
  due : lockAt ≤ now
  current : a.current = true

/-- Whether a locked pick may be written: a verified pick under its address has the same bytes. -/
def Addressable (rt : Runtime) (ledger : PickLedger) (record : UserPick) : Prop :=
  ∀ existing, ledger.locked.read (record.pickId.getD "") = some existing →
    verifyPickIntegrity rt existing (record.pickId.getD "") = true →
    canonicalPickBytes existing = canonicalPickBytes record

/-- A save that goes through: the call it makes of the row and the draft there was. -/
structure Saves (rt : Runtime) (matchId : String) (now : Int) (ledger : PickLedger) (a : Attempt)
    (record : UserPick) : Prop where
  request : ∃ row kickoff score derived effective, findRow matchId a.frame = some row ∧
    rowKickoff row = some kickoff ∧
    record = savedRecord row kickoff (ledger.drafts.read matchId) score derived effective now ∧
    now < effective ∧ effective = saveLock (ledger.drafts.read matchId) kickoff ∧
    findLocked rt ledger matchId (some row) = .ok none
  valid : validateUserPick rt record = true
  current : a.current = true

/-- What an attempt does to the ledger. -/
inductive PickStep (rt : Runtime) (matchId : String) (now : Int) (ledger : PickLedger) (a : Attempt) :
    Request → PickLedger → Prop where
  | same {request : Request} : PickStep rt matchId now ledger a request ledger
  | repaired {name : String} {locked : UserPick} :
      findLocked rt ledger matchId (findRow matchId a.frame) = .ok (some (name, locked)) →
      PickStep rt matchId now ledger a .get (ledger.dropDraft matchId)
  | locked {request : Request} {draft : UserPick} {row : Option MatchRow} {lockAt : Int} :
      Due rt request matchId now ledger a draft row lockAt →
      validateUserPick rt (sealedRecord rt draft lockAt) = true →
      Addressable rt ledger (sealedRecord rt draft lockAt) →
      PickStep rt matchId now ledger a request (lockedLedger rt ledger draft lockAt)
  | saved {record : UserPick} : Saves rt matchId now ledger a record →
      PickStep rt matchId now ledger a .save
        ((ledger.putDraft record).log (auditEntry rt .saved record now))
  | deleted {draft : UserPick} : ledger.drafts.read matchId = some draft →
      PickStep rt matchId now ledger a .delete
        ((ledger.dropDraft matchId).log (auditEntry rt .deleted draft now))

section Attempts

variable {rt : Runtime} {matchId : String} {now : Int} {ledger : PickLedger} {a : Attempt}

theorem loadDraft_ok {draft : Option UserPick} (h : loadDraft rt ledger matchId = .ok draft) :
    ledger.drafts.read matchId = draft := by
  obtain ⟨_, -, h⟩ := Lib.bind_ok_iff.mp h
  cases hread : ledger.drafts.read matchId with
  | none =>
      rw [hread] at h
      exact Except.ok.inj h
  | some record =>
      rw [hread] at h
      obtain ⟨_, -, h⟩ := Lib.bind_ok_iff.mp h
      exact Except.ok.inj h

/-- What a freeze that goes through leaves. -/
theorem freeze_done {draft : UserPick} {row : Option MatchRow} {current : Bool} {next : PickLedger}
    {frozen : UserPick} (h : freeze rt draft row current ledger = .done (next, frozen)) :
    ∃ lockAt, effectiveLock draft row = .ok lockAt ∧ current = true ∧
      validateUserPick rt (sealedRecord rt draft lockAt) = true ∧
      Addressable rt ledger (sealedRecord rt draft lockAt) ∧
      frozen = sealedRecord rt draft lockAt ∧ next = lockedLedger rt ledger draft lockAt := by
  unfold freeze at h
  split at h
  · cases h
  · rename_i lockAt hlock
    by_cases hvalid : validateUserPick rt (sealedRecord rt draft lockAt) = false
    · rw [if_pos hvalid] at h
      cases h
    · rw [if_neg hvalid] at h
      split at h
      · cases h
      · cases h
      · rename_i written hwritten
        obtain ⟨rfl, rfl⟩ := Prod.mk.inj (Committed.done.inj h)
        unfold writeLocked at hwritten
        simp only at hwritten
        split_ifs at hwritten with h₁ h₂ h₃
        obtain rfl := Committed.done.inj hwritten
        refine ⟨lockAt, hlock, h₃, by simpa using hvalid, fun existing hread hverify => ?_, rfl, rfl⟩
        by_contra hne
        rw [hread] at h₂
        exact h₂ (by simp [hne, hverify])

/-- A freeze in an attempt is a lock or nothing. -/
theorem pickStep_freeze {request : Request} {draft : UserPick} {row : Option MatchRow} {lockAt : Int}
    {next : PickLedger} {frozen : UserPick} (hread : ledger.drafts.read matchId = some draft)
    (hfree : findLocked rt ledger matchId (request.lookup matchId ledger a) = .ok none)
    (hrow : row = currentRow draft a.frame ∨ ∃ r, row = some r ∧ findRow matchId a.frame = some r)
    (hlock : effectiveLock draft row = .ok lockAt) (hdue : lockAt ≤ now)
    (h : freeze rt draft row a.current ledger = .done (next, frozen)) :
    PickStep rt matchId now ledger a request next := by
  obtain ⟨lockAt', hlock', hcurrent, hvalid, haddress, -, rfl⟩ := freeze_done h
  obtain rfl := Except.ok.inj (hlock.symm.trans hlock')
  exact .locked ⟨hread, hfree, hrow, hlock, hdue, hcurrent⟩ hvalid haddress

/-- **What reading a pick does.** -/
theorem pickStep_getAttempt (rt : Runtime) (matchId : String) (now : Int) (ledger : PickLedger)
    (a : Attempt) :
    PickStep rt matchId now ledger a .get (getAttempt rt matchId now ledger a).1 := by
  unfold getAttempt
  cases hload : loadDraft rt ledger matchId with
  | error e => exact .same
  | ok draft =>
      have hread := loadDraft_ok hload
      cases hfind : findLocked rt ledger matchId (findRow matchId a.frame) with
      | error e => exact .same
      | ok found =>
          cases found with
          | some p => exact .repaired hfind
          | none =>
              cases draft with
              | none => exact .same
              | some d =>
                  simp only
                  cases hlock : effectiveLock d (currentRow d a.frame) with
                  | error e => exact .same
                  | ok lockAt =>
                      simp only
                      by_cases hdue : lockAt ≤ now
                      · rw [if_pos hdue]
                        cases hfreeze : freeze rt d (currentRow d a.frame) a.current ledger with
                        | stale => exact .same
                        | failed e => exact .same
                        | done p => exact pickStep_freeze hread hfind (.inl rfl) hlock hdue hfreeze
                      · rw [if_neg hdue]
                        exact .same

/-- **What saving a call does.** -/
theorem pickStep_saveAttempt (rt : Runtime) (matchId : String) (score : Score) (now : Int)
    (ledger : PickLedger) (a : Attempt) :
    PickStep rt matchId now ledger a .save (saveAttempt rt matchId score now ledger a).1 := by
  unfold saveAttempt
  cases hrow : findRow matchId a.frame with
  | none => exact .same
  | some row =>
      simp only
      by_cases hcomplete : row.complete = true
      · rw [if_pos hcomplete]
        exact .same
      · rw [if_neg hcomplete]
        cases hfind : findLocked rt ledger matchId (some row) with
        | error e => exact .same
        | ok found =>
            cases found with
            | some p => exact .same
            | none =>
                simp only
                cases hload : loadDraft rt ledger matchId with
                | error e => exact .same
                | ok existing =>
                    have hread := loadDraft_ok hload
                    cases hiso : rowIso row with
                    | error e => exact .same
                    | ok kickoff =>
                        simp only
                        generalize heffective : saveLock existing kickoff = effective
                        have hfree : findLocked rt ledger matchId
                            (Request.save.lookup matchId ledger a) = .ok none := by
                          rw [← hrow] at hfind
                          exact hfind
                        by_cases hdue : effective ≤ now
                        · rw [if_pos hdue]
                          cases existing with
                          | none => exact .same
                          | some d =>
                              simp only
                              have hlock : effectiveLock d (some row) = .ok effective := by
                                rw [← heffective, effectiveLock, hiso]
                                rfl
                              cases hfreeze : freeze rt d (some row) a.current ledger with
                              | stale => exact .same
                              | failed e => exact .same
                              | done p =>
                                  exact pickStep_freeze hread hfree (.inr ⟨row, rfl, hrow⟩) hlock hdue
                                    hfreeze
                        · rw [if_neg hdue]
                          by_cases hcouncil : a.currentAfterCouncil = false
                          · rw [if_pos hcouncil]
                            exact .same
                          · rw [if_neg hcouncil]
                            cases a.council with
                            | none => exact .same
                            | some council =>
                                simp only
                                split_ifs with hrivals hvalid hcurrent
                                · exact .same
                                · exact .same
                                · refine .saved ⟨⟨row, kickoff, score,
                                    deriveRivalPicks a.fingerprint council, effective, hrow,
                                    Lib.orFail_ok_iff.mp hiso, ?_, by omega, ?_, hfind⟩,
                                    by simpa using hvalid, hcurrent⟩
                                  · rw [hread]
                                  · rw [← heffective, hread]
                                · exact .same

/-- **What deleting a pick does.** -/
theorem pickStep_deleteAttempt (rt : Runtime) (matchId : String) (now : Int) (ledger : PickLedger)
    (a : Attempt) :
    PickStep rt matchId now ledger a .delete (deleteAttempt rt matchId now ledger a).1 := by
  unfold deleteAttempt
  cases hload : loadDraft rt ledger matchId with
  | error e => exact .same
  | ok draft =>
      have hread := loadDraft_ok hload
      simp only
      cases hfind : findLocked rt ledger matchId (draft.bind (currentRow · a.frame)) with
      | error e => exact .same
      | ok found =>
          cases found with
          | some p => exact .same
          | none =>
              cases draft with
              | none => exact .same
              | some d =>
                  simp only [Option.bind_some]
                  have hfree : findLocked rt ledger matchId
                      (Request.delete.lookup matchId ledger a) = .ok none := by
                    rw [Request.lookup, hread]
                    exact hfind
                  cases hlock : effectiveLock d (currentRow d a.frame) with
                  | error e => exact .same
                  | ok lockAt =>
                      simp only
                      by_cases hdue : lockAt ≤ now
                      · rw [if_pos hdue]
                        cases hfreeze : freeze rt d (currentRow d a.frame) a.current ledger with
                        | stale => exact .same
                        | failed e => exact .same
                        | done p => exact pickStep_freeze hread hfree (.inl rfl) hlock hdue hfreeze
                      · rw [if_neg hdue]
                        split_ifs
                        · exact .deleted hread
                        · exact .same

end Attempts

/-! ## Operations as attempts -/

/-- Whether every attempt an operation makes meets a condition on the ledger it is made on. -/
def AttemptsMeet {α : Type} (attempt : PickLedger → Attempt → PickLedger × Attempted α)
    (cond : PickLedger → Attempt → Prop) : List Attempt → PickLedger → Prop
  | [], _ => True
  | a :: rest, ledger => cond ledger a ∧
      match attempt ledger a with
      | (next, .retry) => AttemptsMeet attempt cond rest next
      | (_, .done _) => True

/-- **The rule for attempts**: what an attempt keeps, attempts until one gives an answer keep. -/
theorem tryAttempts_invariant {α : Type}
    {attempt : PickLedger → Attempt → PickLedger × Attempted α}
    {cond : PickLedger → Attempt → Prop} {inv : PickLedger → Prop}
    (hstep : ∀ ledger a, inv ledger → cond ledger a → inv (attempt ledger a).1) (detail : String)
    (attempts : List Attempt) {ledger : PickLedger} (h : inv ledger)
    (hmeet : AttemptsMeet attempt cond attempts ledger) :
    inv (tryAttempts attempt detail attempts ledger).1 := by
  induction attempts generalizing ledger with
  | nil => exact h
  | cons a rest ih =>
      have hnext := hstep ledger a h hmeet.1
      have hrest := hmeet.2
      rw [tryAttempts]
      cases hattempt : attempt ledger a with
      | mk next outcome =>
          rw [hattempt] at hnext hrest
          cases outcome with
          | retry => exact ih hnext hrest
          | done answer => exact hnext

/-- A condition on the attempts of a service. -/
abbrev AttemptCondition := Request → String → Int → PickLedger → Attempt → Prop

/-- Whether every attempt of a listing's reads meets a condition. -/
def ListingMeets (rt : Runtime) (cond : AttemptCondition) (input : ListingInput) :
    List String → PickLedger → Prop
  | [], _ => True
  | matchId :: rest, ledger =>
      AttemptsMeet (getAttempt rt matchId (wholeSeconds (input.now matchId)))
        (cond .get matchId (wholeSeconds (input.now matchId))) (input.attempts matchId).toList
        ledger ∧
      ListingMeets rt cond input rest
        (getPick rt matchId (input.now matchId) (input.attempts matchId) ledger).1

/-- Whether a listing's request is accepted. -/
def ListingRequest (status : Option String) (limit offset : Int) : Prop :=
  ¬ status.any (· ∉ listStatuses) = true ∧ ¬ (limit < 1 ∨ 500 < limit ∨ offset < 0)

/-- A call of the service. -/
inductive PickCall where
  | get (matchId : String) (now : Int) (attempts : Attempts)
  | save (matchId : String) (homeGoals awayGoals : Json) (now : Int) (attempts : Attempts)
  | delete (matchId : String) (now : Int) (attempts : Attempts)
  | list (status season : Option String) (limit offset : Int) (input : ListingInput)
  | summary (season : Option String) (input : ListingInput)

/-- The requests a call makes, each for a match. -/
def PickCall.Makes : PickCall → Request → String → Prop
  | .get matchId _ _, request, other => request = .get ∧ other = matchId
  | .save matchId _ _ _ _, request, other => request = .save ∧ other = matchId
  | .delete matchId _ _, request, other => request = .delete ∧ other = matchId
  | .list _ _ _ _ _, request, _ => request = .get
  | .summary _ _, request, _ => request = .get

/-- The ledger a call leaves. -/
def PickCall.run (rt : Runtime) (ledger : PickLedger) : PickCall → PickLedger
  | .get matchId now attempts => (getPick rt matchId now attempts ledger).1
  | .save matchId homeGoals awayGoals now attempts =>
      (savePick rt matchId homeGoals awayGoals now attempts ledger).1
  | .delete matchId now attempts => (deletePick rt matchId now attempts ledger).1
  | .list status season limit offset input =>
      (listPicks rt status season limit offset input ledger).1
  | .summary season input => (picksSummary rt season input ledger).1

/-- Whether every attempt of a call meets a condition. -/
def PickCall.Meets (rt : Runtime) (cond : AttemptCondition) (ledger : PickLedger) : PickCall → Prop
  | .get matchId now attempts =>
      AttemptsMeet (getAttempt rt matchId (wholeSeconds now)) (cond .get matchId (wholeSeconds now))
        attempts.toList ledger
  | .save matchId homeGoals awayGoals now attempts =>
      ∀ score, validateGoals homeGoals awayGoals = .ok score →
        AttemptsMeet (saveAttempt rt matchId score (wholeSeconds now))
          (cond .save matchId (wholeSeconds now)) attempts.toList ledger
  | .delete matchId now attempts =>
      AttemptsMeet (deleteAttempt rt matchId (wholeSeconds now))
        (cond .delete matchId (wholeSeconds now)) attempts.toList ledger
  | .list status _ limit offset input => ListingRequest status limit offset →
      ListingMeets rt cond input (allMatchIds rt ledger) ledger
  | .summary _ input => ListingMeets rt cond input (allMatchIds rt ledger) ledger

/-- The ledgers a run of calls reaches from an empty one, every attempt meeting a condition. -/
abbrev ReachedPicks (rt : Runtime) (cond : AttemptCondition) : PickLedger → Prop :=
  Reaches (· = emptyPicks) (fun ledger c => PickCall.Meets rt cond ledger c) (PickCall.run rt)

section Runs

variable {rt : Runtime} {cond : AttemptCondition} {inv : PickLedger → Prop} {ledger : PickLedger}

theorem attemptsMeet_of_forall {α : Type}
    {attempt : PickLedger → Attempt → PickLedger × Attempted α}
    {cond : PickLedger → Attempt → Prop} (h : ∀ ledger a, cond ledger a) (attempts : List Attempt)
    (ledger : PickLedger) : AttemptsMeet attempt cond attempts ledger := by
  induction attempts generalizing ledger with
  | nil => exact trivial
  | cons a rest ih =>
      refine ⟨h ledger a, ?_⟩
      split
      · exact ih _
      · exact trivial

theorem listingMeets_of_forall (h : ∀ request matchId now ledger a, cond request matchId now ledger a)
    (input : ListingInput) (ids : List String) (ledger : PickLedger) :
    ListingMeets rt cond input ids ledger := by
  induction ids generalizing ledger with
  | nil => exact trivial
  | cons matchId rest ih => exact ⟨attemptsMeet_of_forall (h _ _ _) _ _, ih _⟩

/-- A condition every attempt meets every call meets. -/
theorem PickCall.meets_of_forall
    (h : ∀ request matchId now ledger a, cond request matchId now ledger a) (ledger : PickLedger)
    (c : PickCall) : c.Meets rt cond ledger := by
  cases c with
  | get => exact attemptsMeet_of_forall (h _ _ _) _ _
  | save => exact fun _ _ => attemptsMeet_of_forall (h _ _ _) _ _
  | delete => exact attemptsMeet_of_forall (h _ _ _) _ _
  | list => exact fun _ => listingMeets_of_forall h _ _ _
  | summary => exact listingMeets_of_forall h _ _ _

theorem AttemptsMeet.imp {α : Type} {attempt : PickLedger → Attempt → PickLedger × Attempted α}
    {cond cond' : PickLedger → Attempt → Prop} (h : ∀ ledger a, cond ledger a → cond' ledger a)
    {attempts : List Attempt} {ledger : PickLedger}
    (hmeet : AttemptsMeet attempt cond attempts ledger) :
    AttemptsMeet attempt cond' attempts ledger := by
  induction attempts generalizing ledger with
  | nil => exact trivial
  | cons a rest ih =>
      refine ⟨h _ _ hmeet.1, ?_⟩
      have hrest := hmeet.2
      cases hattempt : attempt ledger a with
      | mk next outcome =>
          rw [hattempt] at hrest
          cases outcome with
          | retry => exact ih hrest
          | done answer => exact trivial

theorem ListingMeets.imp {cond' : AttemptCondition}
    (h : ∀ matchId now ledger a, cond .get matchId now ledger a → cond' .get matchId now ledger a)
    {input : ListingInput} {ids : List String} {ledger : PickLedger}
    (hmeets : ListingMeets rt cond input ids ledger) : ListingMeets rt cond' input ids ledger := by
  induction ids generalizing ledger with
  | nil => exact trivial
  | cons matchId rest ih => exact ⟨hmeets.1.imp (h _ _), ih hmeets.2⟩

/-- A condition may be weakened for the requests a call makes. -/
theorem PickCall.Meets.imp {cond' : AttemptCondition} {c : PickCall}
    (h : ∀ request matchId now ledger a, c.Makes request matchId →
      cond request matchId now ledger a → cond' request matchId now ledger a)
    (hmeets : c.Meets rt cond ledger) : c.Meets rt cond' ledger := by
  cases c with
  | get => exact AttemptsMeet.imp (h _ _ _ · · ⟨rfl, rfl⟩) hmeets
  | save => exact fun score hscore => AttemptsMeet.imp (h _ _ _ · · ⟨rfl, rfl⟩) (hmeets score hscore)
  | delete => exact AttemptsMeet.imp (h _ _ _ · · ⟨rfl, rfl⟩) hmeets
  | list => exact fun hrequest => ListingMeets.imp (h _ · · · · rfl) (hmeets hrequest)
  | summary => exact ListingMeets.imp (h _ · · · · rfl) hmeets

/-- **The rule for answers**: what holds after every attempt that answers holds after an operation
that does. -/
theorem tryAttempts_answer {α : Type} {attempt : PickLedger → Attempt → PickLedger × Attempted α}
    {cond : PickLedger → Attempt → Prop} {inv : PickLedger → Prop} {good : PickLedger → α → Prop}
    (hstep : ∀ ledger a, inv ledger → cond ledger a → inv (attempt ledger a).1)
    (hgood : ∀ ledger a next x, inv ledger → cond ledger a →
      attempt ledger a = (next, .done (.ok x)) → good next x)
    {detail : String} {attempts : List Attempt} {ledger next : PickLedger} {x : α}
    (hinv : inv ledger) (hmeet : AttemptsMeet attempt cond attempts ledger)
    (h : tryAttempts attempt detail attempts ledger = (next, .ok x)) : good next x := by
  induction attempts generalizing ledger with
  | nil => cases h
  | cons a rest ih =>
      have hnext := hstep ledger a hinv hmeet.1
      have hrest := hmeet.2
      rw [tryAttempts] at h
      cases hattempt : attempt ledger a with
      | mk after outcome =>
          rw [hattempt] at hnext hrest h
          cases outcome with
          | retry => exact ih hnext hrest h
          | done answer =>
              obtain ⟨rfl, rfl⟩ := Prod.mk.inj h
              exact hgood _ _ _ _ hinv hmeet.1 hattempt

/-- What every step keeps, reading a pick keeps. -/
theorem getPick_invariant
    (hstep : ∀ request matchId now ledger a next, inv ledger → cond request matchId now ledger a →
      PickStep rt matchId now ledger a request next → inv next)
    {matchId : String} {now : Int} {attempts : Attempts} (h : inv ledger)
    (hmeets : AttemptsMeet (getAttempt rt matchId (wholeSeconds now))
      (cond .get matchId (wholeSeconds now)) attempts.toList ledger) :
    inv (getPick rt matchId now attempts ledger).1 :=
  tryAttempts_invariant (fun _ _ hs hc => hstep _ _ _ _ _ _ hs hc (pickStep_getAttempt ..)) _ _ h
    hmeets

/-- What every step keeps, a listing's reads keep. -/
theorem listViews_invariant
    (hstep : ∀ request matchId now ledger a next, inv ledger → cond request matchId now ledger a →
      PickStep rt matchId now ledger a request next → inv next)
    {input : ListingInput} (ids : List String) (h : inv ledger)
    (hmeets : ListingMeets rt cond input ids ledger) : inv (listViews rt input ids ledger).1 := by
  induction ids generalizing ledger with
  | nil => exact h
  | cons matchId rest ih =>
      have hget := getPick_invariant hstep h hmeets.1
      have hrest := hmeets.2
      rw [listViews]
      cases hpick : getPick rt matchId (input.now matchId) (input.attempts matchId) ledger with
      | mk next answer =>
          rw [hpick] at hget hrest
          have hlast := ih hget hrest
          cases answer with
          | error e =>
              cases e with
              | exception => exact hget
              | error e =>
                  simp only
                  split_ifs
                  · exact hlast
                  · exact hget
          | ok shown =>
              cases hviews : listViews rt input rest next with
              | mk last views =>
                  rw [hviews] at hlast
                  simp only [hviews]
                  cases views <;> exact hlast

theorem listPicks_invariant
    (hstep : ∀ request matchId now ledger a next, inv ledger → cond request matchId now ledger a →
      PickStep rt matchId now ledger a request next → inv next)
    {status season : Option String} {limit offset : Int} {input : ListingInput} (h : inv ledger)
    (hmeets : ListingRequest status limit offset →
      ListingMeets rt cond input (allMatchIds rt ledger) ledger) :
    inv (listPicks rt status season limit offset input ledger).1 := by
  unfold listPicks
  split_ifs with hstatus hpage
  · exact h
  · exact h
  · have hviews := listViews_invariant hstep (allMatchIds rt ledger) h (hmeets ⟨hstatus, hpage⟩)
    split
    · rename_i hlist
      rwa [hlist] at hviews
    · rename_i hlist
      rwa [hlist] at hviews

/-- **The rule for calls**: what every step keeps, every call keeps. -/
theorem PickCall.invariant
    (hstep : ∀ request matchId now ledger a next, inv ledger → cond request matchId now ledger a →
      PickStep rt matchId now ledger a request next → inv next)
    (h : inv ledger) (c : PickCall) (hmeets : c.Meets rt cond ledger) : inv (c.run rt ledger) := by
  cases c with
  | get matchId now attempts => exact getPick_invariant hstep h hmeets
  | save matchId homeGoals awayGoals now attempts =>
      rw [PickCall.run, savePick]
      cases hgoals : validateGoals homeGoals awayGoals with
      | error e => exact h
      | ok score =>
          exact tryAttempts_invariant
            (fun _ _ hs hc => hstep _ _ _ _ _ _ hs hc (pickStep_saveAttempt ..)) _ _ h
            (hmeets score hgoals)
  | delete matchId now attempts =>
      exact tryAttempts_invariant
        (fun _ _ hs hc => hstep _ _ _ _ _ _ hs hc (pickStep_deleteAttempt ..)) _ _ h hmeets
  | list status season limit offset input => exact listPicks_invariant hstep h hmeets
  | summary season input =>
      have hlist : inv (listPicks rt none none 500 0 input ledger).1 :=
        listPicks_invariant hstep h fun _ => hmeets
      rw [PickCall.run, picksSummary]
      split
      · rename_i hrun
        rwa [hrun] at hlist
      · rename_i hrun
        rwa [hrun] at hlist

/-- **The run rule**: what holds without picks and every step keeps holds of every ledger reached. -/
theorem ReachedPicks.invariant (hempty : inv emptyPicks)
    (hstep : ∀ request matchId now ledger a next, inv ledger → cond request matchId now ledger a →
      PickStep rt matchId now ledger a request next → inv next)
    (h : ReachedPicks rt cond ledger) : inv ledger :=
  Reaches.invariant h (fun _ hs => by rw [hs]; exact hempty)
    fun _ c hs hc => PickCall.invariant hstep hs c hc

end Runs

/-! ## Calls that go through -/

section Locking

variable {rt : Runtime} {ledger : PickLedger}

/-- A due draft with a writable lock and no pick under its address is locked. -/
theorem freeze_eq {draft : UserPick} {row : Option MatchRow} {lockAt : Int}
    (hvalid : validateUserPick rt draft = true) (hlock : effectiveLock draft row = .ok lockAt)
    (hformat : rt.formats "date-time" (isoText (wholeSeconds lockAt)) = true)
    (hfresh : ledger.locked.read (pickIdOf rt (sealedRecord rt draft lockAt)) = none) :
    freeze rt draft row true ledger =
      .done (lockedLedger rt ledger draft lockAt, sealedRecord rt draft lockAt) := by
  have hsealed := validateUserPick_sealedRecord rt draft lockAt hvalid hformat
  have hverify := verifyPickIntegrity_sealedRecord rt draft lockAt hsealed
  have hid : (sealedRecord rt draft lockAt).pickId.getD "" =
      pickIdOf rt (sealedRecord rt draft lockAt) := rfl
  simp only [freeze, hlock, hsealed, Bool.true_eq_false, if_false, writeLocked, hid, hverify, hfresh,
    if_true]
  rfl

/-- Reading a due draft locks it. -/
theorem getAttempt_eq_locked {matchId : String} {now lockAt : Int} {a : Attempt} {draft : UserPick}
    (hload : loadDraft rt ledger matchId = .ok (some draft))
    (hfree : findLocked rt ledger matchId (findRow matchId a.frame) = .ok none)
    (hlock : effectiveLock draft (currentRow draft a.frame) = .ok lockAt) (hdue : lockAt ≤ now)
    (hcurrent : a.current = true)
    (hfreeze : freeze rt draft (currentRow draft a.frame) true ledger =
      .done (lockedLedger rt ledger draft lockAt, sealedRecord rt draft lockAt)) :
    getAttempt rt matchId now ledger a = (lockedLedger rt ledger draft lockAt,
      .done ((view (sealedRecord rt draft lockAt) (currentRow draft a.frame)).map some)) := by
  simp only [getAttempt, hload, hfree, hlock, if_pos hdue, hcurrent, hfreeze]

/-- A call on an open fixture is saved. -/
theorem saveAttempt_eq_saved {matchId : String} {score : Score} {now kickoff : Int} {a : Attempt}
    {row : MatchRow} {existing : Option UserPick} {council : Council} {record : UserPick}
    (hrow : findRow matchId a.frame = some row) (hopen : row.complete = false)
    (hfree : findLocked rt ledger matchId (some row) = .ok none)
    (hload : loadDraft rt ledger matchId = .ok existing) (hkickoff : rowIso row = .ok kickoff)
    (hearly : now < saveLock existing kickoff) (hcouncil : a.council = some council)
    (hcurrent : a.current = true) (hcurrent' : a.currentAfterCouncil = true)
    (hrivals : (deriveRivalPicks a.fingerprint council).2 ≠ [])
    (hrecord : record = savedRecord row kickoff existing score
      (deriveRivalPicks a.fingerprint council) (saveLock existing kickoff) now)
    (hvalid : validateUserPick rt record = true) :
    saveAttempt rt matchId score now ledger a =
      ((ledger.putDraft record).log (auditEntry rt .saved record now),
        .done (view record (some row))) := by
  subst hrecord
  simp only [saveAttempt, hrow, hopen, Bool.false_eq_true, if_false, hfree, hload, hkickoff,
    if_neg (not_le.mpr hearly), hcurrent', Bool.true_eq_false, hcouncil, if_neg hrivals, hvalid,
    hcurrent, if_true]

/-- An operation whose first attempt gives an answer. -/
theorem tryAttempts_eq_done {α : Type} {attempt : PickLedger → Attempt → PickLedger × Attempted α}
    {a : Attempt} {rest : List Attempt} {next : PickLedger} {answer : Except PickFailure α}
    (h : attempt ledger a = (next, .done answer)) (detail : String) :
    tryAttempts attempt detail (a :: rest) ledger = (next, answer) := by
  rw [tryAttempts, h]

theorem attemptsMeet_done {α : Type} {attempt : PickLedger → Attempt → PickLedger × Attempted α}
    {cond : PickLedger → Attempt → Prop} {a : Attempt} {rest : List Attempt} {next : PickLedger}
    {answer : Except PickFailure α} (h : attempt ledger a = (next, .done answer))
    (hcond : cond ledger a) : AttemptsMeet attempt cond (a :: rest) ledger := by
  rw [AttemptsMeet, h]
  exact ⟨hcond, trivial⟩

end Locking

end Golavo.Picks
