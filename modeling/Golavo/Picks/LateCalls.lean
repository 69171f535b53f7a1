import Golavo.Picks.Steps

/-! # Late calls

A draft locks at its stored lock or at the kickoff the index gives when the lock is noticed, whichever is
earlier. The call is older than the lock exactly as long as the index does not move a kickoff to or
before the draft's last save. -/

namespace Golavo.Picks

open Golavo.Lib (Directory Reaches)
open Golavo.Ledger (Runtime)
open Golavo.Ingest (MatchRow)

/-! ## Calls in time -/

/-- The last save of a match in a log. -/
def lastSave (matchId : String) (audit : List AuditEntry) : Option AuditEntry :=
  (audit.filter fun e => e.event = .saved ∧ e.matchId = matchId).getLast?

theorem lastSave_append_self {matchId : String} {audit : List AuditEntry} {e : AuditEntry}
    (hevent : e.event = .saved) (hmatch : e.matchId = matchId) :
    lastSave matchId (audit ++ [e]) = some e := by
  simp [lastSave, hevent, hmatch]

theorem lastSave_append_ne {matchId : String} {audit : List AuditEntry} {e : AuditEntry}
    (h : ¬ (e.event = .saved ∧ e.matchId = matchId)) :
    lastSave matchId (audit ++ [e]) = lastSave matchId audit := by
  rw [lastSave, lastSave, List.filter_append, List.filter_cons_of_neg (by simpa using h),
    List.filter_nil, List.append_nil]

/-- Whether a locked pick was called in time: before the line of the log that locks it, the last save
of its match saved this call, strictly before the pick's lock. -/
def OnTime (rt : Runtime) (audit : List AuditEntry) (record : UserPick) : Prop :=
  ∃ before after lockedAt draft, record.lockedAtUtc = some lockedAt ∧
    audit = before ++ auditEntry rt .locked record lockedAt :: after ∧
    lastSave record.fixture.matchId before =
      some (auditEntry rt .saved draft draft.updatedAtUtc) ∧
    draft.userPick = record.userPick ∧ draft.updatedAtUtc < lockedAt

/-- A longer log shows the same. -/
theorem OnTime.append {rt : Runtime} {audit : List AuditEntry} {record : UserPick}
    (h : OnTime rt audit record) (e : AuditEntry) : OnTime rt (audit ++ [e]) record := by
  obtain ⟨before, after, lockedAt, draft, hlocked, rfl, hrest⟩ := h
  exact ⟨before, after ++ [e], lockedAt, draft, hlocked, by simp, hrest⟩

/-- Whether a draft an attempt finds due was last saved before its stored lock and, in whole seconds,
before the kickoff the index gives now. -/
def Timely (rt : Runtime) : AttemptCondition := fun request matchId now ledger a =>
  ∀ draft row lockAt, Due rt request matchId now ledger a draft row lockAt →
    draft.updatedAtUtc < draft.lockAtUtc ∧
      ∀ r ∈ row, ∀ kickoff ∈ rowKickoff r, draft.updatedAtUtc < wholeSeconds kickoff

/-! ## The invariant -/

/-- The log's last save of a draft's match is the draft's, and locked picks were called in time. -/
structure CallsInTime (rt : Runtime) (ledger : PickLedger) : Prop where
  drafts : ∀ matchId draft, ledger.drafts.read matchId = some draft →
    draft.fixture.matchId = matchId ∧ wholeSeconds draft.lockAtUtc = draft.lockAtUtc ∧
      lastSave matchId ledger.audit = some (auditEntry rt .saved draft draft.updatedAtUtc)
  locked : ∀ id record, ledger.locked.read id = some record → OnTime rt ledger.audit record

section Steps

variable {rt : Runtime} {matchId : String} {now : Int} {ledger : PickLedger} {a : Attempt}

theorem wholeSeconds_min (s t : Int) :
    wholeSeconds (min s t) = min (wholeSeconds s) (wholeSeconds t) := by
  unfold wholeSeconds secondNs
  omega

/-- The lock of a due draft lies after its last save exactly where the stored lock and the row's
kickoff do. -/
theorem effectiveLock_after_iff {draft : UserPick} {row : Option MatchRow} {lockAt t : Int}
    (hwhole : wholeSeconds draft.lockAtUtc = draft.lockAtUtc)
    (hlock : effectiveLock draft row = .ok lockAt) : t < wholeSeconds lockAt ↔
      t < draft.lockAtUtc ∧ ∀ r ∈ row, ∀ kickoff ∈ rowKickoff r, t < wholeSeconds kickoff := by
  cases row with
  | none =>
      obtain rfl := Except.ok.inj hlock
      simp [hwhole]
  | some r =>
      obtain ⟨kickoff, hkickoff, hlock⟩ := Lib.bind_ok_iff.mp hlock
      obtain rfl := Except.ok.inj hlock
      have hkickoff := Lib.orFail_ok_iff.mp hkickoff
      rw [wholeSeconds_min, hwhole, lt_min_iff]
      simp [hkickoff]

theorem matchId_of_findRow {row : MatchRow} {frame : List MatchRow}
    (h : findRow matchId frame = some row) : row.matchIdText = matchId := by
  have hid := List.find?_some h
  simp only [decide_eq_true_eq] at hid
  rw [MatchRow.matchIdText, hid]
  rfl

theorem CallsInTime.dropDraft (h : CallsInTime rt ledger) : CallsInTime rt (ledger.dropDraft matchId) where
  drafts other draft hread := by
    by_cases hother : other = matchId
    · rw [PickLedger.dropDraft, hother, Directory.read_remove_self] at hread
      cases hread
    · rw [PickLedger.dropDraft, Directory.read_remove_ne hother] at hread
      exact h.drafts other draft hread
  locked := h.locked

/-- A line that is no save of a draft's match leaves calls in time. -/
theorem CallsInTime.log (h : CallsInTime rt ledger) {e : AuditEntry}
    (he : ∀ other draft, ledger.drafts.read other = some draft →
      ¬ (e.event = .saved ∧ e.matchId = other)) : CallsInTime rt (ledger.log e) where
  drafts other draft hread := by
    obtain ⟨hid, hwhole, hlast⟩ := h.drafts other draft hread
    exact ⟨hid, hwhole, by
      rw [PickLedger.log, lastSave_append_ne (he other draft hread)]
      exact hlast⟩
  locked id record hread := (h.locked id record hread).append e

/-- **One timely step keeps calls in time.** -/
theorem CallsInTime.step (h : CallsInTime rt ledger) {request : Request} {next : PickLedger}
    (htimely : Timely rt request matchId now ledger a)
    (hstep : PickStep rt matchId now ledger a request next) : CallsInTime rt next := by
  cases hstep with
  | same => exact h
  | repaired _ => exact h.dropDraft
  | deleted _ => exact h.dropDraft.log fun _ _ _ hsaved => nomatch hsaved.1
  | @locked _ draft row lockAt hdue _ _ =>
      obtain ⟨hid, hwhole, hlast⟩ := h.drafts matchId draft hdue.draft_read
      have hafter := (effectiveLock_after_iff hwhole hdue.lock_eq).mpr
        (htimely draft row lockAt hdue)
      have hother : CallsInTime rt
          ((ledger.dropDraft (sealedRecord rt draft lockAt).fixture.matchId).log
            (auditEntry rt .locked (sealedRecord rt draft lockAt) (wholeSeconds lockAt))) :=
        h.dropDraft.log fun _ _ _ hsaved => nomatch hsaved.1
      refine ⟨hother.drafts, fun id record hread => ?_⟩
      by_cases hname : id = (sealedRecord rt draft lockAt).pickId.getD ""
      · have hrecord : record = sealedRecord rt draft lockAt := by
          rw [hname] at hread
          exact Option.some.inj (hread.symm.trans (Directory.read_write_self _ _ _))
        subst hrecord
        refine ⟨ledger.audit, [], wholeSeconds lockAt, draft, rfl, rfl, ?_, rfl, hafter⟩
        rw [sealedRecord_fixture, hid]
        exact hlast
      · exact hother.locked id record (by rwa [← Directory.read_write_ne hname])
  | @saved record hsaves =>
      obtain ⟨row, kickoff, score, derived, effective, hrow, -, hrecord, -⟩ := hsaves.request
      have hid : record.fixture.matchId = matchId := by
        cases hexisting : ledger.drafts.read matchId with
        | none =>
            rw [hrecord, hexisting]
            exact matchId_of_findRow hrow
        | some existing =>
            rw [hrecord, hexisting]
            exact (h.drafts matchId existing hexisting).1
      have hwhole : wholeSeconds record.lockAtUtc = record.lockAtUtc := by
        rw [hrecord]
        exact wholeSeconds_idem _
      have hupdated : record.updatedAtUtc = now := by rw [hrecord]; rfl
      refine ⟨fun other draft hread => ?_, fun id record hread => (h.locked id record hread).append _⟩
      by_cases hother : other = matchId
      · obtain rfl : draft = record := by
          rw [hother, ← hid] at hread
          exact Option.some.inj (hread.symm.trans (Directory.read_write_self _ _ _))
        rw [hother, hupdated]
        exact ⟨hid, hwhole, lastSave_append_self rfl hid⟩
      · have hread' : ledger.drafts.read other = some draft := by
          rw [← hid] at hother
          rwa [← Directory.read_write_ne hother]
        obtain ⟨hid', hwhole', hlast'⟩ := h.drafts other draft hread'
        refine ⟨hid', hwhole', ?_⟩
        rw [PickLedger.log, lastSave_append_ne]
        · exact hlast'
        · rintro ⟨-, hmatch⟩
          exact hother (hmatch.symm.trans hid)

end Steps

/-! ## Runs that lock a pick -/

section Runs

/-- A time of day. -/
def hour (h : Int) : Int := h * 3600 * secondNs

/-- A fixture that kicks off at an hour, under some id. -/
def friendlyRow (id : String) (kickoff : Int) : MatchRow :=
  { matchId := some id
    date := none
    kickoffUtc := some (.aware (hour kickoff) 0)
    homeTeam := "Home"
    awayTeam := "Away"
    homeNorm := "home"
    awayNorm := "away" }

/-- A council of one model that abstains. -/
def friendlyCouncil : Council := ⟨none, none, [⟨"elo_ordlogit", true, none, none⟩]⟩

/-- Attempts on an index with the one fixture. -/
def friendlyAttempts (id : String) (kickoff : Int) : Attempts :=
  let a : Attempt := ⟨[friendlyRow id kickoff], "index", some friendlyCouncil, true, true⟩
  ⟨a, a, a⟩

/-- The draft of a call saved at an hour. -/
def friendlyDraft (id : String) (kickoff now : Int) : UserPick :=
  savedRecord (friendlyRow id kickoff) (hour kickoff) none ⟨1, 0⟩
    (deriveRivalPicks "index" friendlyCouncil) (hour kickoff) (hour now)

/-- A save of the call. -/
def saveFriendly (id : String) (kickoff now : Int) : PickCall :=
  .save id (.int 1) (.int 0) (hour now) (friendlyAttempts id kickoff)

/-- A ledger with the draft of a save. -/
def PickLedger.saveFriendly (rt : Runtime) (ledger : PickLedger) (id : String) (kickoff now : Int) :
    PickLedger :=
  (ledger.putDraft (friendlyDraft id kickoff now)).log
    (auditEntry rt .saved (friendlyDraft id kickoff now) (hour now))

/-- The ledger with the draft alone. -/
def friendlyLedger (rt : Runtime) (id : String) (kickoff now : Int) : PickLedger :=
  emptyPicks.saveFriendly rt id kickoff now

variable {rt : Runtime} {ledger : PickLedger} {id : String} {kickoff moved now later : Int}

@[simp] theorem wholeSeconds_hour (h : Int) : wholeSeconds (hour h) = hour h := by
  unfold wholeSeconds hour secondNs
  omega

@[simp] theorem wholeMicros_hour (h : Int) : wholeMicros (hour h) = hour h := by
  unfold wholeMicros hour secondNs
  omega

theorem hour_lt {h h' : Int} : hour h < hour h' ↔ h < h' := by
  unfold hour secondNs
  omega

@[simp] theorem rowKickoff_friendlyRow :
    rowKickoff (friendlyRow id kickoff) = some (hour kickoff) := by
  simp [rowKickoff, friendlyRow]

theorem ne_of_safeMatchId (h : safeMatchId id = true) : id ≠ "" := by
  rintro rfl
  simp [safeMatchId] at h

theorem validateUserPick_friendlyDraft (hformats : ∀ f s, rt.formats f s = true)
    (hsafe : safeMatchId id = true) :
    validateUserPick rt (friendlyDraft id kickoff now) = true := by
  have hid : (decide ((friendlyDraft id kickoff now).fixture.matchId ≠ "")) = true :=
    decide_eq_true (ne_of_safeMatchId hsafe)
  simp only [validateUserPick, MatchSnapshot.valid, AnalysisFingerprint.valid, hformats, hid]
  rfl

theorem findLocked_of_empty {row : MatchRow} {k : Int} (h : ledger.locked = .empty)
    (hkickoff : rowKickoff row = some k) : findLocked rt ledger id (some row) = .ok none := by
  simp [findLocked, rowIso, hkickoff, Lib.orFail, h, Directory.empty, findLockedIn, bind,
    Except.bind]

theorem loadDraft_eq_none (hsafe : safeMatchId id = true) (h : ledger.drafts.read id = none) :
    loadDraft rt ledger id = .ok none := by
  simp only [loadDraft, hsafe, h, Bool.true_eq_false, Lib.failIf, if_false, bind, Except.bind]
  rfl

theorem loadDraft_saveFriendly (hformats : ∀ f s, rt.formats f s = true)
    (hsafe : safeMatchId id = true) :
    loadDraft rt (ledger.saveFriendly rt id kickoff now) id =
      .ok (some (friendlyDraft id kickoff now)) := by
  have hread : (ledger.saveFriendly rt id kickoff now).drafts.read id =
      some (friendlyDraft id kickoff now) := Directory.read_write_self _ _ _
  simp only [loadDraft, hread, hsafe, validateUserPick_friendlyDraft hformats hsafe,
    Bool.true_eq_false, Lib.failIf, if_false, bind, Except.bind, pure, Except.pure]

theorem saveAttempt_friendly (hformats : ∀ f s, rt.formats f s = true)
    (hsafe : safeMatchId id = true) (hlocked : ledger.locked = .empty)
    (hdraft : ledger.drafts.read id = none) (h : now < kickoff) :
    ∃ answer, saveAttempt rt id ⟨1, 0⟩ (hour now) ledger (friendlyAttempts id kickoff).first =
      (ledger.saveFriendly rt id kickoff now, .done answer) := by
  have hrow : findRow id (friendlyAttempts id kickoff).first.frame =
      some (friendlyRow id kickoff) := by simp [findRow, friendlyAttempts, friendlyRow]
  have hcouncil : (friendlyAttempts id kickoff).first.council = some friendlyCouncil := rfl
  exact ⟨_, saveAttempt_eq_saved hrow rfl
    (findLocked_of_empty hlocked rowKickoff_friendlyRow) (loadDraft_eq_none hsafe hdraft)
    (by simp [rowIso, Lib.orFail])
    (by simpa [saveLock] using hour_lt.mpr h) hcouncil rfl rfl
    (by simp [deriveRivalPicks, friendlyCouncil, scoredRivalFamilies])
    (rfl : _ = friendlyDraft id kickoff now) (validateUserPick_friendlyDraft hformats hsafe)⟩

theorem getAttempt_friendly (hformats : ∀ f s, rt.formats f s = true)
    (hsafe : safeMatchId id = true) (h : min kickoff moved ≤ later) :
    ∃ answer, getAttempt rt id (hour later) (friendlyLedger rt id kickoff now)
        (friendlyAttempts id moved).first =
      (lockedLedger rt (friendlyLedger rt id kickoff now) (friendlyDraft id kickoff now)
        (hour (min kickoff moved)), .done answer) := by
  have hmin : min (hour kickoff) (hour moved) = hour (min kickoff moved) := by
    unfold hour secondNs
    omega
  have hrow : findRow id (friendlyAttempts id moved).first.frame = some (friendlyRow id moved) := by
    simp [findRow, friendlyAttempts, friendlyRow]
  have hcurrent : currentRow (friendlyDraft id kickoff now) (friendlyAttempts id moved).first.frame =
      some (friendlyRow id moved) := by
    have hid : (friendlyDraft id kickoff now).fixture.matchId = id := rfl
    rw [currentRow, hid, hrow]
    rfl
  have hlock : effectiveLock (friendlyDraft id kickoff now) (some (friendlyRow id moved)) =
      .ok (hour (min kickoff moved)) := by
    rw [← hmin]
    simp [effectiveLock, rowIso, Lib.orFail, friendlyDraft, savedRecord, bind, Except.bind, pure,
      Except.pure]
  have hdue : hour (min kickoff moved) ≤ hour later := by
    unfold hour secondNs
    omega
  have hfresh : (friendlyLedger rt id kickoff now).locked.read
      (pickIdOf rt (sealedRecord rt (friendlyDraft id kickoff now) (hour (min kickoff moved)))) =
        none := rfl
  have hfreeze := freeze_eq (validateUserPick_friendlyDraft hformats hsafe) hlock (hformats _ _)
    hfresh
  refine ⟨_, getAttempt_eq_locked (loadDraft_saveFriendly hformats hsafe) ?_ ?_ hdue rfl ?_⟩
  · rw [hrow]
    exact findLocked_of_empty rfl rowKickoff_friendlyRow
  · rw [hcurrent]
    exact hlock
  · rw [hcurrent]
    exact hfreeze

/-- A save of the call on a ledger reached that has no pick for it yet. -/
theorem reachedPicks_saveFriendly {cond : AttemptCondition}
    (hformats : ∀ f s, rt.formats f s = true) (hsafe : safeMatchId id = true)
    (hlocked : ledger.locked = .empty) (hdraft : ledger.drafts.read id = none) (h : now < kickoff)
    (hreached : ReachedPicks rt cond ledger)
    (hsave : cond .save id (hour now) ledger (friendlyAttempts id kickoff).first) :
    ReachedPicks rt cond (ledger.saveFriendly rt id kickoff now) := by
  obtain ⟨saved, hsaved⟩ := saveAttempt_friendly hformats hsafe hlocked hdraft h
  have hgoals : validateGoals (.int 1) (.int 0) = .ok ⟨1, 0⟩ := rfl
  rw [← wholeSeconds_hour] at hsaved
  have hrun : (saveFriendly id kickoff now).run rt ledger =
      ledger.saveFriendly rt id kickoff now := by
    simp only [PickCall.run, saveFriendly, savePick, hgoals, Attempts.toList,
      tryAttempts_eq_done hsaved]
  rw [← hrun]
  refine .next hreached fun score hscore => ?_
  obtain rfl := Except.ok.inj (hgoals.symm.trans hscore)
  exact attemptsMeet_done hsaved (by rwa [wholeSeconds_hour])

/-- The ledgers in which the call is saved at one hour and its lock noticed at a later one. -/
theorem reachedPicks_friendly {cond : AttemptCondition} (hformats : ∀ f s, rt.formats f s = true)
    (hsafe : safeMatchId id = true) (h : now < kickoff) (hlater : min kickoff moved ≤ later)
    (hsave : cond .save id (hour now) emptyPicks (friendlyAttempts id kickoff).first)
    (hget : cond .get id (hour later) (friendlyLedger rt id kickoff now)
      (friendlyAttempts id moved).first) :
    ReachedPicks rt cond (lockedLedger rt (friendlyLedger rt id kickoff now)
      (friendlyDraft id kickoff now) (hour (min kickoff moved))) := by
  obtain ⟨read, hread⟩ := @getAttempt_friendly _ _ _ _ now _ hformats hsafe hlater
  rw [← wholeSeconds_hour] at hread
  have hrun : (PickCall.get id (hour later) (friendlyAttempts id moved)).run rt
      (friendlyLedger rt id kickoff now) = lockedLedger rt (friendlyLedger rt id kickoff now)
        (friendlyDraft id kickoff now) (hour (min kickoff moved)) := by
    simp only [PickCall.run, getPick, Attempts.toList, tryAttempts_eq_done hread]
  rw [← hrun]
  exact .next (reachedPicks_saveFriendly hformats hsafe rfl rfl h (.start rfl) hsave)
    (attemptsMeet_done hread (by rwa [wholeSeconds_hour]))

/-- A call before the kickoff the index gives is timely. -/
theorem timely_friendly (h : now < kickoff) (hmoved : now < moved) :
    Timely rt .get id (hour later) (friendlyLedger rt id kickoff now)
      (friendlyAttempts id moved).first := by
  intro draft row lockAt hdue
  have hread : (friendlyLedger rt id kickoff now).drafts.read id = some (friendlyDraft id kickoff now) :=
    Directory.read_write_self _ _ _
  obtain rfl := Option.some.inj (hread.symm.trans hdue.draft_read)
  have hrow : row = some (friendlyRow id moved) := by
    rcases hdue.row_eq with hrow | ⟨r, hrow, hfind⟩
    · rw [hrow, currentRow]
      simp [findRow, friendlyAttempts, friendlyDraft, savedRecord, matchSnapshot,
        MatchRow.matchIdText, friendlyRow]
    · rw [hrow, ← hfind]
      simp [findRow, friendlyAttempts, friendlyRow]
  have hlock : (friendlyDraft id kickoff now).lockAtUtc = hour kickoff := wholeSeconds_hour kickoff
  have hupdated : (friendlyDraft id kickoff now).updatedAtUtc = hour now := rfl
  rw [hrow, hlock, hupdated]
  refine ⟨hour_lt.mpr h, fun r hr at_ hat => ?_⟩
  obtain rfl := Option.some.inj hr
  rw [rowKickoff_friendlyRow] at hat
  obtain rfl := Option.some.inj hat
  rw [wholeSeconds_hour]
  exact hour_lt.mpr hmoved

/-- The locked pick of the call. -/
theorem read_lockedFriendly :
    (lockedLedger rt (friendlyLedger rt id kickoff now) (friendlyDraft id kickoff now)
      (hour moved)).locked.read (pickIdOf rt (sealedRecord rt (friendlyDraft id kickoff now)
        (hour moved))) = some (sealedRecord rt (friendlyDraft id kickoff now) (hour moved)) :=
  Directory.read_write_self _ _ _

/-- Where a lock lies at or before the only save, the pick is not called in time. -/
theorem not_onTime_friendly (h : moved ≤ now) :
    ¬ OnTime rt (lockedLedger rt (friendlyLedger rt id kickoff now) (friendlyDraft id kickoff now)
      (hour moved)).audit (sealedRecord rt (friendlyDraft id kickoff now) (hour moved)) := by
  rintro ⟨before, after, lockedAt, draft, hlocked, haudit, hlast, -, hlt⟩
  rw [sealedRecord_lockedAtUtc] at hlocked
  obtain rfl := Option.some.inj hlocked
  have haudit : [auditEntry rt .saved (friendlyDraft id kickoff now) (hour now),
      auditEntry rt .locked (sealedRecord rt (friendlyDraft id kickoff now) (hour moved))
        (wholeSeconds (hour moved))] =
      before ++ auditEntry rt .locked (sealedRecord rt (friendlyDraft id kickoff now) (hour moved))
        (wholeSeconds (hour moved)) :: after := haudit
  match before, haudit with
  | [], haudit => cases (List.cons.inj haudit).1
  | [e], haudit =>
      obtain ⟨rfl, -⟩ := List.cons.inj haudit
      have hsaved : lastSave id [auditEntry rt .saved (friendlyDraft id kickoff now) (hour now)] =
          some (auditEntry rt .saved (friendlyDraft id kickoff now) (hour now)) :=
        @lastSave_append_self _ [] _ rfl rfl
      have heq : some (auditEntry rt .saved (friendlyDraft id kickoff now) (hour now)) =
          some (auditEntry rt .saved draft draft.updatedAtUtc) := hsaved.symm.trans hlast
      have hat : hour now = draft.updatedAtUtc :=
        congrArg AuditEntry.atUtc (Option.some.inj heq)
      rw [← hat, wholeSeconds_hour, hour_lt] at hlt
      omega
  | e :: e' :: rest, haudit =>
      have htail := (List.cons.inj (List.cons.inj haudit).2).2
      exact absurd htail.symm (by simp)

end Runs

/-! ## No late call is locked -/

/-- **No late call is locked**: in every run whose due drafts were last saved before their stored lock
and before the kickoff the index gives when the lock is taken, every locked pick holds a call last saved
strictly before its lock. -/
theorem locked_onTime (rt : Runtime) {ledger : PickLedger} (h : ReachedPicks rt (Timely rt) ledger) :
    ∀ id record, ledger.locked.read id = some record → OnTime rt ledger.audit record := by
  have hinv : CallsInTime rt ledger := by
    refine @ReachedPicks.invariant rt (Timely rt) (CallsInTime rt) _ ?_ ?_ h
    · constructor
      · intro matchId draft hread
        cases hread
      · intro id record hread
        cases hread
    · intro request matchId now ledger a next hs htimely hstep
      exact hs.step htimely hstep
  exact hinv.locked

/-- A call saved at 14:00 for a kickoff at 15:00, read at 16:00, is locked in time. -/
theorem locked_onTime_friendly : OnTime .standard
    (lockedLedger .standard (friendlyLedger .standard "m" 15 14) (friendlyDraft "m" 15 14)
      (hour 15)).audit (sealedRecord .standard (friendlyDraft "m" 15 14) (hour 15)) := by
  refine locked_onTime .standard (@reachedPicks_friendly _ "m" 15 15 14 16 _ (fun _ _ => rfl)
    (by decide) (by decide) (by decide) ?_ ?_) _ _ read_lockedFriendly
  · intro draft row lockAt hdue
    cases hdue.draft_read
  · exact timely_friendly (by decide) (by decide)

/-- **A kickoff moved to before the last save**: a call saved at 14:00 for a kickoff at 15:00 is locked
as of 13:00 when the index has moved the kickoff there. -/
theorem locked_late : ∃ ledger, ReachedPicks .standard (fun _ _ _ _ _ => True) ledger ∧
    ∃ id record, ledger.locked.read id = some record ∧ ¬ OnTime .standard ledger.audit record :=
  ⟨_, @reachedPicks_friendly _ "m" 15 13 14 15 _ (fun _ _ => rfl) (by decide) (by decide) (by decide) trivial trivial, _, _, read_lockedFriendly,
    not_onTime_friendly (by decide)⟩

end Golavo.Picks
