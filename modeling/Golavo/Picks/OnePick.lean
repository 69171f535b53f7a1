import Golavo.Picks.LateCalls
import Golavo.Lib.JsonRoundTrip

/-! # One pick a fixture

Picks are filed under match ids and found again by id, or for locked ones by UTC day and teams. As long as
a save that starts a draft is about a fixture without a pick, and no read of a draft's match finds
another match's locked pick, a fixture has one pick at most, a listing shows no match twice, and no
call is lost. -/

namespace Golavo.Picks

open Golavo.Lib (Json Directory Reaches)
open Golavo.Ledger (Runtime)
open Golavo.Ingest (MatchRow)

/-! ## Files -/

/-- The file of a live pick. -/
inductive PickFile where
  | draft (matchId : String)
  | locked (id : String)
  deriving DecidableEq, Repr

/-- The live pick in a file. -/
def PickLedger.file (ledger : PickLedger) : PickFile → Option UserPick
  | .draft matchId => ledger.drafts.read matchId
  | .locked id => ledger.locked.read id

/-- No two live picks agree on what their fixtures are told by. -/
def OnePer {K : Type} (key : MatchSnapshot → K) (ledger : PickLedger) : Prop :=
  ∀ p q r s, ledger.file p = some r → ledger.file q = some s → key r.fixture = key s.fixture → p = q

/-- Whether a live pick is about a fixture. -/
def PickLedger.Live (ledger : PickLedger) (fixture : MatchSnapshot) : Prop :=
  ∃ p r, ledger.file p = some r ∧ r.fixture = fixture

/-- Drafts lie under their match ids and locked picks verify. -/
structure Filed (rt : Runtime) (ledger : PickLedger) : Prop where
  drafts : ∀ matchId draft, ledger.drafts.read matchId = some draft → draft.fixture.matchId = matchId
  locked : ∀ id record, ledger.locked.read id = some record → verifyPickIntegrity rt record id = true

section Files

variable {rt : Runtime} {K : Type} {key : MatchSnapshot → K} {ledger next : PickLedger}

/-- Where every live pick comes from one about the same fixture, and no two from the same, picks stay
one per fixture. -/
theorem OnePer.of_map (h : OnePer key ledger) (from_ : PickFile → PickFile)
    (hfrom : ∀ p r, next.file p = some r → ∃ r', ledger.file (from_ p) = some r' ∧
      r'.fixture = r.fixture)
    (hinj : ∀ p q r s, next.file p = some r → next.file q = some s → from_ p = from_ q → p = q) :
    OnePer key next := by
  intro p q r s hp hq hkey
  obtain ⟨r', hr', hrfixture⟩ := hfrom p r hp
  obtain ⟨s', hs', hsfixture⟩ := hfrom q s hq
  exact hinj p q r s hp hq (h _ _ r' s' hr' hs' (by rw [hrfixture, hsfixture, hkey]))

theorem file_dropDraft {matchId : String} {p : PickFile} {r : UserPick}
    (h : (ledger.dropDraft matchId).file p = some r) :
    ledger.file p = some r ∧ p ≠ .draft matchId := by
  cases p with
  | draft other =>
      by_cases hother : other = matchId
      · rw [hother, PickLedger.file, PickLedger.dropDraft, Directory.read_remove_self] at h
        cases h
      · rw [PickLedger.file, PickLedger.dropDraft, Directory.read_remove_ne hother] at h
        exact ⟨h, by simpa using hother⟩
  | locked id => exact ⟨h, by simp⟩

/-- The files of a ledger with a lock: the locked pick, and the old files but the draft. -/
theorem file_lockedLedger {draft : UserPick} {lockAt : Int} {p : PickFile} {r : UserPick}
    (h : (lockedLedger rt ledger draft lockAt).file p = some r) :
    p ≠ .draft draft.fixture.matchId ∧
      ((p = .locked (pickIdOf rt (sealedRecord rt draft lockAt)) ∧
        r = sealedRecord rt draft lockAt) ∨
        (p ≠ .locked (pickIdOf rt (sealedRecord rt draft lockAt)) ∧ ledger.file p = some r)) := by
  cases p with
  | draft other =>
      obtain ⟨hread, hne⟩ := @file_dropDraft ledger draft.fixture.matchId (.draft other) r h
      exact ⟨hne, .inr ⟨by simp, hread⟩⟩
  | locked id =>
      refine ⟨by simp, ?_⟩
      by_cases hid : id = pickIdOf rt (sealedRecord rt draft lockAt)
      · rw [hid] at h
        exact .inl ⟨by rw [hid], Option.some.inj (h.symm.trans (Directory.read_write_self _ _ _))⟩
      · refine .inr ⟨by simpa using hid, ?_⟩
        have hread : (ledger.locked.write (pickIdOf rt (sealedRecord rt draft lockAt))
            (sealedRecord rt draft lockAt)).read id = some r := h
        rwa [Directory.read_write_ne hid] at hread

/-- The files of a ledger with a saved draft. -/
theorem file_saved {record : UserPick} {entry : AuditEntry} {p : PickFile} {r : UserPick}
    (h : ((ledger.putDraft record).log entry).file p = some r) :
    (p = .draft record.fixture.matchId ∧ r = record) ∨
      (p ≠ .draft record.fixture.matchId ∧ ledger.file p = some r) := by
  cases p with
  | draft other =>
      by_cases hother : other = record.fixture.matchId
      · rw [hother] at h
        exact .inl ⟨by rw [hother], Option.some.inj (h.symm.trans (Directory.read_write_self _ _ _))⟩
      · refine .inr ⟨by simpa using hother, ?_⟩
        have hread : (ledger.drafts.write record.fixture.matchId record).read other = some r := h
        rwa [Directory.read_write_ne hother] at hread
  | locked id => exact .inr ⟨by simp, h⟩

end Files

/-! ## Finding locked picks -/

section Find

variable {rt : Runtime} {matchId : String} {key : Option FixtureKey} {ledger : PickLedger}
  {row : Option MatchRow}

/-- Nothing is found among verified files exactly where none has the id or the key. -/
theorem findLockedIn_eq_none_iff {files : List (String × UserPick)}
    (hverified : ∀ p ∈ files, verifyPickIntegrity rt p.2 p.1 = true)
    (fallback : Option (String × UserPick)) :
    findLockedIn rt matchId key files fallback = .ok none ↔ fallback = none ∧
      ∀ p ∈ files, p.2.fixture.matchId ≠ matchId ∧ key ≠ some (fixtureKey p.2) := by
  induction files generalizing fallback with
  | nil => simp [findLockedIn]
  | cons p rest ih =>
      obtain ⟨name, record⟩ := p
      have hrest := ih fun p hp => hverified p (List.mem_cons_of_mem _ hp)
      rw [findLockedIn, if_pos (hverified (name, record) List.mem_cons_self)]
      by_cases hid : record.fixture.matchId = matchId
      · simp [hid]
      · rw [if_neg hid, hrest]
        by_cases hkey : key = some (fixtureKey record)
        · simp [hkey]
        · simp [hkey, hid]

/-- What is found among verified files: a file with the id, or, if there is none, one with the key. -/
theorem findLockedIn_eq_some {files : List (String × UserPick)}
    (hverified : ∀ p ∈ files, verifyPickIntegrity rt p.2 p.1 = true)
    {fallback : Option (String × UserPick)} {found : String × UserPick}
    (h : findLockedIn rt matchId key files fallback = .ok (some found)) :
    (found ∈ files ∧ found.2.fixture.matchId = matchId) ∨
      ((∀ p ∈ files, p.2.fixture.matchId ≠ matchId) ∧ (found ∈ files ∨ fallback = some found)) := by
  induction files generalizing fallback with
  | nil => exact .inr ⟨by simp, .inr (Except.ok.inj h)⟩
  | cons p rest ih =>
      obtain ⟨name, record⟩ := p
      rw [findLockedIn, if_pos (hverified (name, record) List.mem_cons_self)] at h
      by_cases hid : record.fixture.matchId = matchId
      · rw [if_pos hid] at h
        obtain rfl := Option.some.inj (Except.ok.inj h)
        exact .inl ⟨List.mem_cons_self, hid⟩
      · rw [if_neg hid] at h
        rcases ih (fun p hp => hverified p (List.mem_cons_of_mem _ hp)) h with
          ⟨hmem, heq⟩ | ⟨hnone, hfound⟩
        · exact .inl ⟨List.mem_cons_of_mem _ hmem, heq⟩
        · refine .inr ⟨?_, ?_⟩
          · intro p hp
            rcases List.mem_cons.mp hp with rfl | hp
            · exact hid
            · exact hnone p hp
          · rcases hfound with hmem | hfallback
            · exact .inl (List.mem_cons_of_mem _ hmem)
            · split_ifs at hfallback
              · obtain rfl := Option.some.inj hfallback
                exact .inl List.mem_cons_self
              · exact .inr hfallback

theorem Filed.verified (h : Filed rt ledger) :
    ∀ p ∈ ledger.locked.files, verifyPickIntegrity rt p.2 p.1 = true :=
  fun p hp => h.locked p.1 p.2 (Directory.mem_files.mp hp)

/-- Where no locked pick is found, none has the id. -/
theorem Filed.matchId_ne (h : Filed rt ledger) (hfind : findLocked rt ledger matchId row = .ok none) :
    ∀ id record, ledger.locked.read id = some record → record.fixture.matchId ≠ matchId := by
  intro id record hread
  have hmem := Directory.mem_files.mpr hread
  cases row with
  | none => exact (((findLockedIn_eq_none_iff h.verified none).mp hfind).2 _ hmem).1
  | some r =>
      obtain ⟨_, -, hfind⟩ := Lib.bind_ok_iff.mp hfind
      exact (((findLockedIn_eq_none_iff h.verified none).mp hfind).2 _ hmem).1

/-- A locked pick that is found is there, and has the id if any has. -/
theorem Filed.found (h : Filed rt ledger) {found : String × UserPick}
    (hfind : findLocked rt ledger matchId row = .ok (some found)) :
    ledger.locked.read found.1 = some found.2 ∧
      ((∃ id record, ledger.locked.read id = some record ∧ record.fixture.matchId = matchId) →
        found.2.fixture.matchId = matchId) := by
  have hin : ∃ key, findLockedIn rt matchId key ledger.locked.files none = .ok (some found) := by
    cases row with
    | none => exact ⟨_, hfind⟩
    | some r =>
        obtain ⟨_, -, hfind⟩ := Lib.bind_ok_iff.mp hfind
        exact ⟨_, hfind⟩
  obtain ⟨key, hin⟩ := hin
  rcases findLockedIn_eq_some h.verified hin with ⟨hmem, heq⟩ | ⟨hnone, hfound⟩
  · exact ⟨Directory.mem_files.mp hmem, fun _ => heq⟩
  · refine ⟨Directory.mem_files.mp (hfound.resolve_right (by simp)), ?_⟩
    rintro ⟨id, record, hread, heq⟩
    exact absurd heq (hnone _ (Directory.mem_files.mpr hread))

end Find

/-! ## Bytes of a record -/

section Bytes

theorem wf_textOrNull (s : Option String) : (textOrNull s).WF := by
  cases s <;> exact trivial

theorem wf_matchSnapshot (m : MatchSnapshot) : m.toJson.WF := by
  refine Json.wf_mk fun field hfield => ?_
  simp only [List.mem_cons, List.not_mem_nil, or_false] at hfield
  rcases hfield with rfl | rfl | rfl | rfl | rfl | rfl | rfl | rfl
  · exact Json.wf_str _
  · exact Json.wf_str _
  · exact Json.wf_bool _
  · exact Json.wf_str _
  · exact Json.wf_str _
  · exact Json.wf_str _
  · exact Json.wf_str _
  · exact wf_textOrNull _

theorem wf_rival (r : Rival) : r.toJson.WF := by
  have hscore : ((r.scorePick.map Score.toJson).getD .null).WF := by
    cases r.scorePick with
    | none => exact trivial
    | some s => exact Json.wf_mk (by simp)
  refine Json.wf_mk fun field hfield => ?_
  simp only [List.mem_cons, List.not_mem_nil, or_false] at hfield
  rcases hfield with rfl | rfl | rfl | rfl
  · exact trivial
  · exact trivial
  · exact hscore
  · exact wf_textOrNull _

theorem wf_userPick (r : UserPick) : r.toJson.WF := by
  have hstable : r.stableJson.WF := by
    refine Json.wf_mk fun field hfield => ?_
    simp only [List.mem_cons, List.not_mem_nil, or_false] at hfield
    rcases hfield with rfl | rfl | rfl | rfl | rfl | rfl | rfl | rfl | rfl | rfl
    · exact Json.wf_str _
    · exact Json.wf_str _
    · exact wf_matchSnapshot _
    · exact Json.wf_mk (by simp)
    · exact Json.wf_arr.mpr fun x hx => by
        obtain ⟨rival, -, rfl⟩ := List.mem_map.mp hx
        exact wf_rival rival
    · exact Json.wf_mk (by simp)
    · exact Json.wf_str _
    · exact Json.wf_str _
    · exact Json.wf_str _
    · exact wf_textOrNull _
  exact Json.wf_set (Json.wf_set hstable (wf_textOrNull _) _) (wf_textOrNull _) _

/-- A record's bytes tell its match id. -/
theorem matchId_of_bytes {r s : UserPick} (h : canonicalPickBytes r = canonicalPickBytes s) :
    r.fixture.matchId = s.fixture.matchId := by
  have hjson := Json.dumps_injective (wf_userPick r) (wf_userPick s) h
  have hmatch : ∀ r : UserPick, (r.toJson.get "match").bind (·.get "match_id") =
      some (.str r.fixture.matchId) := by
    intro r
    rw [UserPick.toJson, Json.get_set_ne (by decide), UserPick.payloadJson,
      Json.get_set_ne (by decide)]
    simp [UserPick.stableJson, MatchSnapshot.toJson, Json.get_mk, Lib.Fields.getField]
  have heq := hmatch r
  rw [hjson, hmatch s] at heq
  exact (Json.str.inj (Option.some.inj heq)).symm

end Bytes

/-! ## Settled attempts -/

/-- Whether a match has a live pick. -/
def PickLedger.HasPick (ledger : PickLedger) (matchId : String) : Prop :=
  ∃ p r, ledger.file p = some r ∧ r.fixture.matchId = matchId

/-- An attempt that meets no pick under another id: a save that starts a draft is about a fixture
without a live pick, and a read that finds a locked pick finds no draft beside it. -/
structure Settled {K : Type} (rt : Runtime) (real : MatchSnapshot → K) (request : Request)
    (matchId : String) (now : Int) (ledger : PickLedger) (a : Attempt) : Prop where
  fresh : request = .save → a.current = true → ∀ row kickoff, findRow matchId a.frame = some row →
    rowKickoff row = some kickoff → now < kickoff → ledger.drafts.read matchId = none →
    findLocked rt ledger matchId (some row) = .ok none →
    ∀ fixture, ledger.Live fixture → real fixture ≠ real (matchSnapshot row kickoff)
  beside : request = .get → ∀ found,
    findLocked rt ledger matchId (findRow matchId a.frame) = .ok (some found) →
    ledger.drafts.read matchId = none

/-- What a call does to calls saved before: a draft stays, is locked with its call, is replaced by the
user's save or deleted by the user; a locked pick stays. -/
structure KeepsCalls (saves deletes : String → Prop) (ledger next : PickLedger) : Prop where
  drafts : ∀ matchId draft, ledger.drafts.read matchId = some draft →
    next.drafts.read matchId = some draft ∨
    (∃ id record, next.locked.read id = some record ∧ record.fixture = draft.fixture ∧
      record.userPick = draft.userPick) ∨
    (saves matchId ∧ next.HasPick matchId) ∨ deletes matchId
  locked : ∀ id record, ledger.locked.read id = some record → next.locked.read id = some record

section Keeps

variable {saves deletes : String → Prop} {ledger next last : PickLedger}

theorem KeepsCalls.refl : KeepsCalls saves deletes ledger ledger :=
  ⟨fun _ _ h => .inl h, fun _ _ h => h⟩

/-- A match with a pick keeps one until the user deletes it. -/
theorem KeepsCalls.hasPick (h : KeepsCalls saves deletes ledger next)
    (hdrafts : ∀ matchId draft, ledger.drafts.read matchId = some draft →
      draft.fixture.matchId = matchId) {matchId : String} (hpick : ledger.HasPick matchId) :
    next.HasPick matchId ∨ deletes matchId := by
  obtain ⟨p, r, hread, hid⟩ := hpick
  cases p with
  | draft other =>
      obtain rfl : other = matchId := (hdrafts _ _ hread).symm.trans hid
      rcases h.drafts _ _ hread with hkept | ⟨id, record, hlocked, hfixture, -⟩ | ⟨-, hpick⟩ | hdelete
      · exact .inl ⟨.draft other, r, hkept, hid⟩
      · exact .inl ⟨.locked id, record, hlocked, by rw [hfixture, hid]⟩
      · exact .inl hpick
      · exact .inr hdelete
  | locked id => exact .inl ⟨.locked id, r, h.locked _ _ hread, hid⟩

theorem KeepsCalls.trans (h : KeepsCalls saves deletes ledger next)
    (h' : KeepsCalls saves deletes next last)
    (hdrafts : ∀ matchId draft, next.drafts.read matchId = some draft →
      draft.fixture.matchId = matchId) : KeepsCalls saves deletes ledger last := by
  refine ⟨fun matchId draft hread => ?_, fun id record hread => h'.locked _ _ (h.locked _ _ hread)⟩
  rcases h.drafts _ _ hread with hkept | ⟨id, record, hlocked, hrest⟩ | ⟨hsave, hpick⟩ | hdelete
  · exact h'.drafts _ _ hkept
  · exact .inr (.inl ⟨id, record, h'.locked _ _ hlocked, hrest⟩)
  · rcases h'.hasPick hdrafts hpick with hpick | hdelete
    · exact .inr (.inr (.inl ⟨hsave, hpick⟩))
    · exact .inr (.inr (.inr hdelete))
  · exact .inr (.inr (.inr hdelete))

/-- Where the user neither saves nor deletes, every fixture with a pick keeps one. -/
theorem KeepsCalls.live (h : KeepsCalls (fun _ => False) (fun _ => False) ledger next)
    {fixture : MatchSnapshot} (hlive : ledger.Live fixture) : next.Live fixture := by
  obtain ⟨p, r, hread, rfl⟩ := hlive
  cases p with
  | draft matchId =>
      rcases h.drafts _ _ hread with hkept | ⟨id, record, hlocked, hfixture, -⟩ | ⟨hsave, -⟩ | hdelete
      · exact ⟨.draft matchId, r, hkept, rfl⟩
      · exact ⟨.locked id, record, hlocked, hfixture⟩
      · exact hsave.elim
      · exact hdelete.elim
  | locked id => exact ⟨.locked id, r, h.locked _ _ hread, rfl⟩

end Keeps

/-! ## Steps -/

section Steps

variable {rt : Runtime} {K : Type} {matchId : String} {now : Int} {ledger next : PickLedger}
  {a : Attempt} {request : Request}

/-- What a save writes: the draft's fixture, or the row's. -/
theorem Saves.fixture {record : UserPick} (h : Saves rt matchId now ledger a record) :
    (∃ draft, ledger.drafts.read matchId = some draft ∧ record.fixture = draft.fixture) ∨
      (ledger.drafts.read matchId = none ∧ ∃ row kickoff, findRow matchId a.frame = some row ∧
        rowKickoff row = some kickoff ∧ now < kickoff ∧
        findLocked rt ledger matchId (some row) = .ok none ∧
        record.fixture = matchSnapshot row kickoff) := by
  obtain ⟨row, kickoff, score, derived, effective, hrow, hkickoff, hrecord, hearly, heffective,
    hfind⟩ := h.request
  cases hexisting : ledger.drafts.read matchId with
  | some draft =>
      refine .inl ⟨draft, rfl, ?_⟩
      rw [hrecord, hexisting]
      rfl
  | none =>
      rw [hexisting] at heffective
      obtain rfl : effective = kickoff := heffective
      refine .inr ⟨rfl, row, effective, hrow, hkickoff, hearly, hfind, ?_⟩
      rw [hrecord, hexisting]
      rfl

theorem Saves.id_eq {record : UserPick} (hfiled : Filed rt ledger)
    (h : Saves rt matchId now ledger a record) : record.fixture.matchId = matchId := by
  rcases h.fixture with ⟨draft, hread, heq⟩ | ⟨-, row, kickoff, hrow, -, -, -, heq⟩
  · rw [heq, hfiled.drafts _ _ hread]
  · rw [heq]
    exact matchId_of_findRow hrow

/-- A lock takes an address no pick has. -/
theorem Filed.address_free (h : Filed rt ledger) {draft : UserPick} {row : Option MatchRow}
    {lockAt : Int} (hdue : Due rt request matchId now ledger a draft row lockAt)
    (haddress : Addressable rt ledger (sealedRecord rt draft lockAt)) :
    ledger.locked.read (pickIdOf rt (sealedRecord rt draft lockAt)) = none := by
  by_contra hsome
  obtain ⟨existing, hread⟩ := Option.ne_none_iff_exists'.mp hsome
  have hbytes := haddress existing hread (h.locked _ _ hread)
  have hid := matchId_of_bytes hbytes
  rw [sealedRecord_fixture, h.drafts _ _ hdue.draft_read] at hid
  exact h.matchId_ne hdue.unlocked _ _ hread hid

/-- Every step keeps picks where they belong. -/
theorem Filed.step (h : Filed rt ledger) (hstep : PickStep rt matchId now ledger a request next) :
    Filed rt next := by
  have hdrop : Filed rt (ledger.dropDraft matchId) :=
    ⟨fun other draft hread => h.drafts _ _ (file_dropDraft (p := .draft other) hread).1, h.locked⟩
  cases hstep with
  | same => exact h
  | repaired _ => exact hdrop
  | deleted _ => exact ⟨hdrop.drafts, hdrop.locked⟩
  | @locked _ draft row lockAt hdue hvalid _ =>
      refine ⟨fun other d hread => ?_, fun id record hread => ?_⟩
      · obtain ⟨-, hcase⟩ := file_lockedLedger (p := .draft other) hread
        rcases hcase with ⟨hp, -⟩ | ⟨-, hread⟩
        · cases hp
        · exact h.drafts _ _ hread
      · obtain ⟨-, hcase⟩ := file_lockedLedger (p := .locked id) hread
        rcases hcase with ⟨hp, rfl⟩ | ⟨-, hread⟩
        · obtain rfl := PickFile.locked.inj hp
          exact verifyPickIntegrity_sealedRecord rt draft lockAt hvalid
        · exact h.locked _ _ hread
  | @saved record hsaves =>
      refine ⟨fun other d hread => ?_, h.locked⟩
      rcases file_saved (p := .draft other) hread with ⟨hp, rfl⟩ | ⟨-, hread⟩
      · exact (PickFile.draft.inj hp).symm
      · exact h.drafts _ _ hread

/-- **A step keeps one pick a key**, where a save that starts a draft brings a new key. -/
theorem OnePer.step {key : MatchSnapshot → K} (h : OnePer key ledger) (hfiled : Filed rt ledger)
    (hfresh : ∀ record, Saves rt matchId now ledger a record → request = .save →
      ledger.drafts.read matchId = none →
      ∀ fixture, ledger.Live fixture → key fixture ≠ key record.fixture)
    (hstep : PickStep rt matchId now ledger a request next) : OnePer key next := by
  have hdrop : OnePer key (ledger.dropDraft matchId) :=
    h.of_map id (fun p r hread => ⟨r, (file_dropDraft hread).1, rfl⟩) fun _ _ _ _ _ _ hpq => hpq
  cases hstep with
  | same => exact h
  | repaired _ => exact hdrop
  | deleted _ => exact hdrop
  | @locked _ draft row lockAt hdue _ _ =>
      have hid := hfiled.drafts _ _ hdue.draft_read
      -- the locked pick comes from the draft, every other pick from itself
      refine h.of_map (fun p => if p = .locked (pickIdOf rt (sealedRecord rt draft lockAt))
        then .draft matchId else p) (fun p r hread => ?_) fun p q r s hp hq hpq => ?_
      · obtain ⟨-, ⟨rfl, rfl⟩ | ⟨hne, hread⟩⟩ := file_lockedLedger hread
        · exact ⟨draft, by rw [if_pos rfl]; exact hdue.draft_read, rfl⟩
        · exact ⟨r, by rw [if_neg hne]; exact hread, rfl⟩
      · obtain ⟨hp', hpcase⟩ := file_lockedLedger hp
        obtain ⟨hq', hqcase⟩ := file_lockedLedger hq
        rw [hid] at hp' hq'
        rcases hpcase with ⟨rfl, -⟩ | ⟨hpne, -⟩
        · rcases hqcase with ⟨rfl, -⟩ | ⟨hqne, -⟩
          · rfl
          · rw [if_pos rfl, if_neg hqne] at hpq
            exact absurd hpq.symm hq'
        · rcases hqcase with ⟨rfl, -⟩ | ⟨hqne, -⟩
          · rw [if_pos rfl, if_neg hpne] at hpq
            exact absurd hpq hp'
          · rwa [if_neg hpne, if_neg hqne] at hpq
  | @saved record hsaves =>
      have hid := hsaves.id_eq hfiled
      rcases hsaves.fixture with ⟨draft, hread, hfixture⟩ | ⟨hnone, -⟩
      · refine h.of_map id (fun p r hp => ?_) fun _ _ _ _ _ _ hpq => hpq
        rcases file_saved hp with ⟨rfl, rfl⟩ | ⟨-, hp⟩
        · exact ⟨draft, by rw [hid]; exact hread, hfixture.symm⟩
        · exact ⟨r, hp, rfl⟩
      · have hnew := hfresh record hsaves rfl hnone
        intro p q r s hp hq hkey
        rcases file_saved hp with ⟨hp', hr⟩ | ⟨-, hold⟩
        · rcases file_saved hq with ⟨hq', -⟩ | ⟨-, hold'⟩
          · rw [hp', hq']
          · rw [hr] at hkey
            exact absurd hkey.symm (hnew _ ⟨q, s, hold', rfl⟩)
        · rcases file_saved hq with ⟨-, hs⟩ | ⟨-, hold'⟩
          · rw [hs] at hkey
            exact absurd hkey (hnew _ ⟨p, r, hold, rfl⟩)
          · exact h p q r s hold hold' hkey

/-- A save that starts a draft is about a match without a pick. -/
theorem Filed.matchId_fresh (h : Filed rt ledger) {record : UserPick}
    (hsaves : Saves rt matchId now ledger a record) (hnone : ledger.drafts.read matchId = none) :
    ∀ fixture, ledger.Live fixture → fixture.matchId ≠ record.fixture.matchId := by
  rintro fixture ⟨p, r, hread, rfl⟩ heq
  rw [hsaves.id_eq h] at heq
  rcases hsaves.fixture with ⟨draft, hsome, -⟩ | ⟨-, row, kickoff, -, -, -, hfind, -⟩
  · rw [hnone] at hsome
    cases hsome
  · cases p with
    | draft other =>
        obtain rfl := (h.drafts _ _ hread).symm.trans heq
        rw [PickLedger.file, hnone] at hread
        cases hread
    | locked id => exact h.matchId_ne hfind _ _ hread heq

/-- **A settled step keeps calls.** -/
theorem keepsCalls_of_step {real : MatchSnapshot → K} (h : Filed rt ledger)
    (hsettled : Settled rt real request matchId now ledger a)
    (hstep : PickStep rt matchId now ledger a request next) {saves deletes : String → Prop}
    (hsaves : request = .save → saves matchId) (hdeletes : request = .delete → deletes matchId) :
    KeepsCalls saves deletes ledger next := by
  cases hstep with
  | same => exact .refl
  | repaired hfind =>
      have hnone := hsettled.beside rfl _ hfind
      refine ⟨fun other draft hread => .inl ?_, fun id record hread => hread⟩
      by_cases hother : other = matchId
      · rw [hother, hnone] at hread
        cases hread
      · rwa [PickLedger.dropDraft, Directory.read_remove_ne hother]
  | deleted _ =>
      refine ⟨fun other draft hread => ?_, fun id record hread => hread⟩
      by_cases hother : other = matchId
      · rw [hother]
        exact .inr (.inr (.inr (hdeletes rfl)))
      · refine .inl ?_
        have hkept : (ledger.drafts.remove matchId).read other = some draft := by
          rwa [Directory.read_remove_ne hother]
        exact hkept
  | @locked _ draft row lockAt hdue _ haddress =>
      have hid := h.drafts _ _ hdue.draft_read
      have hfree := h.address_free hdue haddress
      have hwritten : (lockedLedger rt ledger draft lockAt).locked.read
          (pickIdOf rt (sealedRecord rt draft lockAt)) = some (sealedRecord rt draft lockAt) :=
        Directory.read_write_self _ _ _
      refine ⟨fun other d hread => ?_, fun id record hread => ?_⟩
      · by_cases hother : other = matchId
        · rw [hother, hdue.draft_read] at hread
          obtain rfl := Option.some.inj hread
          exact .inr (.inl ⟨_, _, hwritten, rfl, rfl⟩)
        · refine .inl ?_
          rw [← hid] at hother
          have hkept : (ledger.drafts.remove draft.fixture.matchId).read other = some d := by
            rwa [Directory.read_remove_ne hother]
          exact hkept
      · have hne : id ≠ pickIdOf rt (sealedRecord rt draft lockAt) := by
          rintro rfl
          rw [hfree] at hread
          cases hread
        have hkept : (ledger.locked.write (pickIdOf rt (sealedRecord rt draft lockAt))
            (sealedRecord rt draft lockAt)).read id = some record := by
          rwa [Directory.read_write_ne hne]
        exact hkept
  | @saved record hsave =>
      have hid := hsave.id_eq h
      refine ⟨fun other draft hread => ?_, fun id record hread => hread⟩
      by_cases hother : other = matchId
      · rw [hother]
        refine .inr (.inr (.inl ⟨hsaves rfl, .draft matchId, record, ?_, hid⟩))
        rw [← hid]
        exact Directory.read_write_self _ _ _
      · refine .inl ?_
        rw [← hid] at hother
        have hkept : (ledger.drafts.write record.fixture.matchId record).read other =
            some draft := by
          rwa [Directory.read_write_ne hother]
        exact hkept

end Steps

/-! ## Listings -/

section Listing

variable {rt : Runtime} {K : Type} {real : MatchSnapshot → K} {matchId : String} {now : Int}
  {ledger next last : PickLedger} {a : Attempt}

/-- A view shows the record it is of. -/
theorem record_of_view {record : UserPick} {row : Option MatchRow} {v : PickView}
    (h : view record row = .ok v) : v.record = record := by
  unfold view at h
  split at h
  · rw [← Except.ok.inj h]
  · rw [← Except.ok.inj h]
  · split_ifs at h
    · rw [← Except.ok.inj h]
    · split at h
      · rw [← Except.ok.inj h]
      · cases h

theorem record_of_map_view {record : UserPick} {row : Option MatchRow} {v : PickView}
    (h : (view record row).map some = .ok (some v)) : v.record = record := by
  cases hview : view record row with
  | error e =>
      rw [hview] at h
      cases h
  | ok shown =>
      rw [hview] at h
      obtain rfl := Option.some.inj (Except.ok.inj h)
      exact record_of_view hview

theorem answer_eq_done {α : Type} {answer x : Except PickFailure α}
    (h : a.answer answer = .done x) : answer = x := by
  unfold Attempt.answer at h
  split_ifs at h
  exact Attempted.done.inj h

/-- What a read shows is the locked pick it found or the draft it read. -/
theorem getAttempt_shown {v : PickView}
    (h : getAttempt rt matchId now ledger a = (next, .done (.ok (some v)))) :
    (∃ found, findLocked rt ledger matchId (findRow matchId a.frame) = .ok (some found) ∧
      v.record = found.2) ∨
    ∃ draft, ledger.drafts.read matchId = some draft ∧ v.record.fixture = draft.fixture := by
  unfold getAttempt at h
  cases hload : loadDraft rt ledger matchId with
  | error e =>
      rw [hload] at h
      cases h
  | ok draft =>
      have hread := loadDraft_ok hload
      rw [hload] at h
      simp only at h
      cases hfind : findLocked rt ledger matchId (findRow matchId a.frame) with
      | error e =>
          rw [hfind] at h
          cases h
      | ok found =>
          rw [hfind] at h
          cases found with
          | some p =>
              simp only at h
              exact .inl ⟨p, rfl, record_of_map_view (answer_eq_done (Prod.mk.inj h).2)⟩
          | none =>
              cases draft with
              | none =>
                  simp only at h
                  cases answer_eq_done (Prod.mk.inj h).2
              | some d =>
                  refine .inr ⟨d, hread, ?_⟩
                  simp only at h
                  split at h
                  · cases h
                  · split_ifs at h
                    · split at h
                      · cases h
                      · cases h
                      · rename_i hfreeze
                        obtain ⟨lockAt, -, -, -, -, hfrozen, -⟩ := freeze_done hfreeze
                        have hview := Attempted.done.inj (Prod.mk.inj h).2
                        rw [record_of_map_view hview, hfrozen]
                        rfl
                    · rw [record_of_map_view (answer_eq_done (Prod.mk.inj h).2)]

/-- A settled read of a match with a pick shows a live pick of the match. -/
theorem getPick_shown {attempts : Attempts} {shown : Option PickView} {now : Int}
    (hfiled : Filed rt ledger) (hpick : ledger.HasPick matchId)
    (hmeets : AttemptsMeet (getAttempt rt matchId (wholeSeconds now))
      (Settled rt real .get matchId (wholeSeconds now)) attempts.toList ledger)
    (h : getPick rt matchId now attempts ledger = (next, .ok shown)) :
    ∀ v ∈ shown, v.record.fixture.matchId = matchId ∧ next.Live v.record.fixture := by
  have hkeeps : ∀ ledger a, Filed rt ledger →
      Settled rt real .get matchId (wholeSeconds now) ledger a →
      KeepsCalls (fun _ => False) (fun _ => False) ledger
        (getAttempt rt matchId (wholeSeconds now) ledger a).1 := fun ledger a hfiled hsettled =>
    keepsCalls_of_step hfiled hsettled (pickStep_getAttempt ..) (fun heq => nomatch heq)
      fun heq => nomatch heq
  refine @tryAttempts_answer _ _ _ (fun l => Filed rt l ∧ l.HasPick matchId)
    (fun next shown => ∀ v ∈ shown, v.record.fixture.matchId = matchId ∧
      next.Live v.record.fixture) ?_ ?_ _ _ _ _ _ ⟨hfiled, hpick⟩ hmeets h
  · rintro l a ⟨hfiled, hpick⟩ hsettled
    refine ⟨hfiled.step (pickStep_getAttempt ..), ?_⟩
    exact ((hkeeps l a hfiled hsettled).hasPick hfiled.drafts hpick).resolve_right id
  · rintro l a after shown ⟨hfiled, p, r, hread, hid⟩ hsettled hattempt v rfl
    have hlive : l.Live v.record.fixture → _ := (hkeeps l a hfiled hsettled).live
    rw [hattempt] at hlive
    rcases getAttempt_shown hattempt with ⟨found, hfind, hrecord⟩ | ⟨draft, hdraft, hfixture⟩
    · obtain ⟨hfound, hsame⟩ := hfiled.found hfind
      have hnone := hsettled.beside rfl found hfind
      have hlocked : ∃ id record, l.locked.read id = some record ∧
          record.fixture.matchId = matchId := by
        cases p with
        | draft other =>
            obtain rfl := (hfiled.drafts _ _ hread).symm.trans hid
            exact absurd (hread.symm.trans hnone) (by simp)
        | locked id => exact ⟨id, r, hread, hid⟩
      rw [hrecord] at hlive ⊢
      exact ⟨hsame hlocked, hlive ⟨.locked found.1, found.2, hfound, rfl⟩⟩
    · refine ⟨by rw [hfixture, hfiled.drafts _ _ hdraft], hlive ⟨.draft matchId, draft, hdraft, ?_⟩⟩
      exact hfixture.symm

/-- Picks in order after a call that made only reads. -/
abbrev Reads (rt : Runtime) (ledger next : PickLedger) : Prop :=
  Filed rt next ∧ KeepsCalls (fun _ => False) (fun _ => False) ledger next

theorem Reads.step {start : PickLedger} {request : Request}
    (h : Reads rt start ledger) (hcond : request = .get ∧ Settled rt real request matchId now ledger a)
    (hstep : PickStep rt matchId now ledger a request next) : Reads rt start next := by
  obtain ⟨rfl, hsettled⟩ := hcond
  exact ⟨h.1.step hstep, h.2.trans (keepsCalls_of_step h.1 hsettled hstep (fun heq => nomatch heq)
    fun heq => nomatch heq) h.1.drafts⟩

/-- A settled listing only reads. -/
theorem reads_listViews {input : ListingInput} {ids : List String} (hfiled : Filed rt ledger)
    (hmeets : ListingMeets rt (Settled rt real) input ids ledger) :
    Reads rt ledger (listViews rt input ids ledger).1 :=
  @listViews_invariant _
    (fun request matchId now l a => request = .get ∧ Settled rt real request matchId now l a)
    (Reads rt ledger) _
    (fun _ _ _ _ _ _ h hcond hstep => h.step hcond hstep) _ ids ⟨hfiled, .refl⟩
    (hmeets.imp fun _ _ _ _ h => ⟨rfl, h⟩)

/-- **A settled listing shows each match at most once**, by a live pick. -/
theorem listViews_shown {input : ListingInput} {ids : List String} {views : List PickView}
    (hfiled : Filed rt ledger) (hpicks : ∀ matchId ∈ ids, ledger.HasPick matchId)
    (hmeets : ListingMeets rt (Settled rt real) input ids ledger)
    (h : listViews rt input ids ledger = (last, .ok views)) :
    (views.map fun v => v.record.fixture.matchId).Sublist ids ∧
      ∀ v ∈ views, last.Live v.record.fixture := by
  induction ids generalizing ledger views with
  | nil =>
      obtain rfl := Except.ok.inj (Prod.mk.inj h).2
      simp
  | cons matchId rest ih =>
      have hget := @getPick_invariant _
        (fun request matchId now l a => request = .get ∧ Settled rt real request matchId now l a)
        (Reads rt ledger) _
        (fun _ _ _ _ _ _ h hcond hstep => h.step hcond hstep) _ _ _ ⟨hfiled, .refl⟩
        (hmeets.1.imp fun _ _ h => ⟨rfl, h⟩)
      have hrest := hmeets.2
      rw [listViews] at h
      cases hpick : getPick rt matchId (input.now matchId) (input.attempts matchId) ledger with
      | mk next answer =>
          rw [hpick] at hget hrest h
          have hpicks' : ∀ other ∈ rest, next.HasPick other := fun other hother =>
            (hget.2.hasPick hfiled.drafts (hpicks other (List.mem_cons_of_mem _ hother))).resolve_right
              id
          cases answer with
          | error e =>
              cases e with
              | exception => cases h
              | error e =>
                  simp only at h
                  split_ifs at h
                  · obtain ⟨hsub, hlive⟩ := ih hget.1 hpicks' hrest h
                    exact ⟨hsub.cons _, hlive⟩
                  · cases (Prod.mk.inj h).2
          | ok shown =>
              simp only at h
              cases hviews : listViews rt input rest next with
              | mk after answers =>
                  have hreads := reads_listViews hget.1 hrest
                  rw [hviews] at h hreads
                  cases answers with
                  | error e => cases h
                  | ok others =>
                      obtain ⟨rfl, hviews'⟩ := Prod.mk.inj h
                      obtain rfl := Except.ok.inj hviews'
                      obtain ⟨hsub, hlive⟩ := ih hget.1 hpicks' hrest hviews
                      have hshown := getPick_shown hfiled (hpicks matchId List.mem_cons_self)
                        hmeets.1 hpick
                      cases shown with
                      | none => exact ⟨hsub.cons _, hlive⟩
                      | some v =>
                          obtain ⟨hid, hv⟩ := hshown v rfl
                          refine ⟨?_, ?_⟩
                          · simp only [Option.toList_some, List.singleton_append, List.map_cons, hid]
                            exact hsub.cons_cons _
                          · intro w hw
                            rcases List.mem_cons.mp hw with rfl | hw
                            · exact hreads.2.live hv
                            · exact hlive w hw

/-- A match that is listed has a pick. -/
theorem hasPick_of_mem_allMatchIds (hfiled : Filed rt ledger) :
    ∀ matchId ∈ allMatchIds rt ledger, ledger.HasPick matchId := by
  intro matchId hmem
  rw [allMatchIds, (List.perm_insertionSort _ _).mem_iff, List.mem_dedup, List.mem_append] at hmem
  rcases hmem with hmem | hmem
  · obtain ⟨⟨name, draft⟩, hfile, rfl⟩ := List.mem_map.mp hmem
    have hread := Directory.mem_files.mp hfile
    exact ⟨.draft name, draft, hread, hfiled.drafts _ _ hread⟩
  · obtain ⟨⟨id, record⟩, hfile, rfl⟩ := List.mem_map.mp hmem
    exact ⟨.locked id, record, Directory.mem_files.mp (List.mem_filter.mp hfile).1, rfl⟩

theorem nodup_allMatchIds (rt : Runtime) (ledger : PickLedger) : (allMatchIds rt ledger).Nodup :=
  (List.perm_insertionSort _ _).nodup_iff.mpr (List.nodup_dedup _)

/-- What a page shows of views told apart is told apart. -/
theorem nodup_page {β : Type} {f : PickView → β} {views : List PickView} (h : (views.map f).Nodup)
    {p : PickView → Bool} {r : PickView → PickView → Prop} [DecidableRel r] {skip count : Nat} :
    (((((views.filter p).insertionSort r).drop skip).take count).map f).Nodup := by
  have hfilter : ((views.filter p).map f).Nodup := h.sublist (List.filter_sublist.map f)
  have hsort : (((views.filter p).insertionSort r).map f).Nodup :=
    ((List.perm_insertionSort r _).map f).nodup_iff.mpr hfilter
  exact hsort.sublist (((List.take_sublist _ _).trans (List.drop_sublist _ _)).map f)

/-- A page of a listing shows no match and no fixture twice. -/
theorem nodup_listing {status season : Option String} {limit offset : Int} {input : ListingInput}
    {listing : Listing} (hfiled : Filed rt ledger) (hone : OnePer real ledger)
    (hmeets : (PickCall.list status season limit offset input).Meets rt (Settled rt real) ledger)
    (h : listPicks rt status season limit offset input ledger = (next, .ok listing)) :
    (listing.items.map fun v => v.record.fixture.matchId).Nodup ∧
      (listing.items.map fun v => real v.record.fixture).Nodup := by
  unfold listPicks at h
  split_ifs at h with hstatus hpage
  · cases (Prod.mk.inj h).2
  · cases (Prod.mk.inj h).2
  · have hmeets := hmeets ⟨hstatus, hpage⟩
    have hlast : Filed rt (listViews rt input (allMatchIds rt ledger) ledger).1 ∧
        OnePer real (listViews rt input (allMatchIds rt ledger) ledger).1 :=
      @listViews_invariant _ (fun request _ _ _ _ => request = .get)
        (fun l => Filed rt l ∧ OnePer real l) _
        (fun _ _ _ _ _ _ hinv hget hstep => ⟨hinv.1.step hstep, hinv.2.step hinv.1
          (fun _ _ hsave => by rw [hget] at hsave; cases hsave) hstep⟩)
        _ _ ⟨hfiled, hone⟩ (hmeets.imp fun _ _ _ _ _ => rfl)
    cases hviews : listViews rt input (allMatchIds rt ledger) ledger with
    | mk last answers =>
        rw [hviews] at h hlast
        cases answers with
        | error e => cases (Prod.mk.inj h).2
        | ok views =>
            obtain ⟨hsub, hlive⟩ := listViews_shown hfiled (hasPick_of_mem_allMatchIds hfiled) hmeets
              hviews
            obtain rfl := Except.ok.inj (Prod.mk.inj h).2
            have hids := hsub.nodup (nodup_allMatchIds rt ledger)
            have hreal : (views.map fun v => real v.record.fixture).Nodup := by
              refine List.Nodup.map_on (fun v hv w hw heq => ?_) hids.of_map
              obtain ⟨p, r, hr, hrv⟩ := hlive v hv
              obtain ⟨q, s, hs, hsw⟩ := hlive w hw
              obtain rfl := hlast.2 p q r s hr hs (by rw [hrv, hsw]; exact heq)
              obtain rfl := Option.some.inj (hr.symm.trans hs)
              exact List.inj_on_of_nodup_map hids hv hw (by rw [← hrv, ← hsw])
            exact ⟨nodup_page hids, nodup_page hreal⟩

end Listing

/-! ## One pick a fixture -/

section Main

variable {K : Type}

/-- Picks in order, one a match id and one a fixture. -/
structure PicksInOrder (rt : Runtime) (real : MatchSnapshot → K) (ledger : PickLedger) : Prop where
  filed : Filed rt ledger
  ids : OnePer MatchSnapshot.matchId ledger
  fixtures : OnePer real ledger

/-- **A settled step keeps picks in order.** -/
theorem PicksInOrder.step {rt : Runtime} {real : MatchSnapshot → K} {request : Request}
    {matchId : String} {now : Int} {ledger next : PickLedger} {a : Attempt}
    (h : PicksInOrder rt real ledger) (hsettled : Settled rt real request matchId now ledger a)
    (hstep : PickStep rt matchId now ledger a request next) : PicksInOrder rt real next where
  filed := h.filed.step hstep
  ids := h.ids.step h.filed (fun _ hsaves _ hnone => h.filed.matchId_fresh hsaves hnone) hstep
  fixtures := by
    refine h.fixtures.step h.filed (fun record hsaves hrequest hnone fixture hlive => ?_) hstep
    rcases hsaves.fixture with ⟨draft, hread, -⟩ | ⟨-, row, kickoff, hrow, hkickoff, hearly, hfind, heq⟩
    · rw [hnone] at hread
      cases hread
    · rw [heq]
      exact hsettled.fresh hrequest hsaves.current row kickoff hrow hkickoff hearly hnone hfind fixture hlive

/-- The ledgers settled runs reach are in order. -/
theorem picksInOrder {rt : Runtime} {real : MatchSnapshot → K} {ledger : PickLedger}
    (h : ReachedPicks rt (Settled rt real) ledger) : PicksInOrder rt real ledger := by
  have hnone : ∀ p, emptyPicks.file p = none := by
    intro p
    cases p <;> rfl
  refine @ReachedPicks.invariant rt (Settled rt real) (PicksInOrder rt real) _ ?_ ?_ h
  · refine ⟨⟨fun _ _ hread => ?_, fun _ _ hread => ?_⟩, fun p _ _ _ hp => ?_, fun p _ _ _ hp => ?_⟩
    · cases hread
    · cases hread
    · cases (hnone p).symm.trans hp
    · cases (hnone p).symm.trans hp
  · intro request matchId now l a next hs hsettled hstep
    exact hs.step hsettled hstep

/-- A fixture by its kickoff and its teams. -/
def kickoffAndTeams (s : MatchSnapshot) : Int × String × String :=
  (s.kickoffUtc, s.homeTeam, s.awayTeam)

end Main

end Golavo.Picks
