import Golavo.Lib.StableSort
import Golavo.Picks.Service

/-! # The season summary

`season_summary` aggregates the views of picks into a season's table. `picks_summary` hands it one
page of the listing, the newest five hundred views, so it covers the ledger as long as no view of the
season is older than those. -/

namespace Golavo.Picks

open Golavo.Lib (insertionSort_insertionSort filter_insertionSort_comm)
open Golavo.Lib.Fields (getField setField)
open Golavo.Ledger (Runtime)

/-! ## The table -/

/-- How many views have each status. -/
structure StatusCounts where
  draft : Nat
  locked : Nat
  scored : Nat
  void : Nat
  deriving DecidableEq, Repr

/-- The user's points. -/
structure UserTotals where
  total : Int
  exact : Int
  outcome : Int
  bonus : Int
  deriving DecidableEq, Repr

/-- The state after one scored view. -/
structure SeriesPoint where
  kickoffUtc : Int
  matchId : String
  userTotal : Int
  perFamilyTotals : List (String × Int)
  deriving DecidableEq, Repr

/-- A season's table. The ratios are the exact ones. -/
structure SeasonSummary where
  season : Option String
  counts : StatusCounts
  user : UserTotals
  rivals : List (String × PickPoints)
  series : List SeriesPoint
  accuracyExact : Rat
  accuracyWinner : Rat
  currentStreak : Nat
  bestStreak : Nat
  goalDiffMae : Rat
  deriving DecidableEq, Repr

/-- The table while the scored views are gone through. -/
structure Tally where
  user : UserTotals
  rivals : List (String × PickPoints)
  series : List SeriesPoint
  goalDiffErrors : List Nat
  bestStreak : Nat
  currentStreak : Nat

/-- A table without scored views. -/
def emptyTally : Tally := ⟨⟨0, 0, 0, 0⟩, [], [], [], 0, 0⟩

/-- Add a rival's points to those of its family. -/
def addRival (rivals : List (String × PickPoints)) (r : RivalPoints) :
    List (String × PickPoints) :=
  let row := (getField r.family rivals).getD ⟨0, 0, 0⟩
  setField r.family ⟨row.exact + r.points.exact, row.outcome + r.points.outcome,
    row.total + r.points.total⟩ rivals

/-- Add one scored view. -/
def Tally.add (t : Tally) (record : UserPick) (result : Score) (scoring : PickScoring) : Tally :=
  let user : UserTotals := ⟨t.user.total + scoring.total, t.user.exact + scoring.exact,
    t.user.outcome + scoring.outcome, t.user.bonus + scoring.bonus⟩
  let rivals := scoring.rivals.foldl addRival t.rivals
  let streak := if 1 ≤ scoring.outcome then t.currentStreak + 1 else 0
  let call := record.userPick.score
  { user := user
    rivals := rivals
    series := t.series ++ [⟨record.fixture.kickoffUtc, record.fixture.matchId, user.total,
      rivals.map fun row => (row.1, row.2.total)⟩]
    goalDiffErrors := t.goalDiffErrors ++
      [((call.homeGoals - call.awayGoals) - (result.homeGoals - result.awayGoals)).natAbs]
    bestStreak := max t.bestStreak streak
    currentStreak := streak }

/-- The record, the result and the scoring of a scored view. -/
def PickView.scoredParts (v : PickView) : Option (UserPick × Score × PickScoring) :=
  match v.status, v.result, v.scoring with
  | .scored, some (result, _), some scoring => some (v.record, result, scoring)
  | _, _, _ => none

/-- Whether a view comes before another: earlier kickoffs first, then smaller ids
(`_ordered_views`). -/
def orderedBefore (a b : PickView) : Bool :=
  let fa := a.record.fixture
  let fb := b.record.fixture
  isoText fa.kickoffUtc < isoText fb.kickoffUtc ||
    (isoText fa.kickoffUtc = isoText fb.kickoffUtc && fa.matchId ≤ fb.matchId)

/-- How many views have a status. -/
def countStatus (views : List PickView) (status : ViewStatus) : Nat :=
  views.countP (·.status = status)

/-- The table of a season's views. -/
def summarize (season : Option String) (filtered : List PickView) : SeasonSummary :=
  let ordered := filtered.insertionSort (fun a b => orderedBefore a b)
  let scored := ordered.filterMap PickView.scoredParts
  let tally := scored.foldl (fun t p => t.add p.1 p.2.1 p.2.2) emptyTally
  { season := season
    counts := ⟨countStatus ordered .draft, countStatus ordered .locked,
      countStatus ordered .scored, countStatus ordered .void⟩
    user := tally.user
    rivals := tally.rivals
    series := tally.series
    accuracyExact := (scored.countP (0 < ·.2.2.exact) : Rat) / scored.length
    accuracyWinner := (scored.countP (0 < ·.2.2.outcome) : Rat) / scored.length
    currentStreak := tally.currentStreak
    bestStreak := tally.bestStreak
    goalDiffMae := (tally.goalDiffErrors.sum : Rat) / tally.goalDiffErrors.length }

/-- The table of a season among some views (`season_summary`). -/
def seasonSummary (season : Option String) (views : List PickView) : SeasonSummary :=
  summarize season (views.filter (·.matchesFilter none season))

/-- What `picks_summary` answers. -/
def summaryReply (rt : Runtime) (season : Option String) (input : ListingInput)
    (ledger : PickLedger) : Except PickFailure SeasonSummary :=
  (picksSummary rt season input ledger).2.map (summarize season)

/-- The views of all picks of a ledger. -/
def allViews (rt : Runtime) (input : ListingInput) (ledger : PickLedger) :
    Except PickFailure (List PickView) :=
  (listViews rt input (allMatchIds rt ledger) ledger).2

/-- Views in the order of the listing. -/
def newestFirst (views : List PickView) : List PickView :=
  views.insertionSort (fun a b => listedBefore a b)

/-! ## The two orders -/

theorem listedBefore_eq (a b : PickView) : listedBefore a b = orderedBefore b a := by
  simp only [listedBefore, orderedBefore, eq_comm]

instance orderedBefore_total : Std.Total (fun a b : PickView => orderedBefore a b = true) where
  total a b := by
    simp only [orderedBefore, Bool.or_eq_true, Bool.and_eq_true, decide_eq_true_eq]
    rcases lt_trichotomy (isoText a.record.fixture.kickoffUtc)
      (isoText b.record.fixture.kickoffUtc) with hlt | heq | hgt
    · exact .inl (.inl hlt)
    · rcases le_total a.record.fixture.matchId b.record.fixture.matchId with hle | hle
      · exact .inl (.inr ⟨heq, hle⟩)
      · exact .inr (.inr ⟨heq.symm, hle⟩)
    · exact .inr (.inl hgt)

instance orderedBefore_trans : IsTrans PickView (fun a b => orderedBefore a b = true) where
  trans a b c := by
    simp only [orderedBefore, Bool.or_eq_true, Bool.and_eq_true, decide_eq_true_eq]
    rintro (hab | ⟨hab, hab'⟩) (hbc | ⟨hbc, hbc'⟩)
    · exact .inl (hab.trans hbc)
    · exact .inl (hbc ▸ hab)
    · exact .inl (hab ▸ hbc)
    · exact .inr ⟨hab.trans hbc, hab'.trans hbc'⟩

instance listedBefore_total : Std.Total (fun a b : PickView => listedBefore a b = true) where
  total a b := by
    simp only [listedBefore_eq]
    exact (orderedBefore_total.total a b).symm

instance listedBefore_trans : IsTrans PickView (fun a b => listedBefore a b = true) where
  trans a b c hab hbc := by
    simp only [listedBefore_eq] at hab hbc ⊢
    exact orderedBefore_trans.trans _ _ _ hbc hab

/-- **The summary does not depend on the listing's order.** -/
theorem summarize_newestFirst (season : Option String) (p : PickView → Bool)
    (views : List PickView) :
    summarize season ((newestFirst views).filter p) = summarize season (views.filter p) := by
  have hsort : ((newestFirst views).filter p).insertionSort (fun a b => orderedBefore a b) =
      (views.filter p).insertionSort (fun a b => orderedBefore a b) := by
    rw [filter_insertionSort_comm, filter_insertionSort_comm, newestFirst,
      insertionSort_insertionSort _ fun a b => by rw [listedBefore_eq]]
  simp only [summarize, hsort]

/-! ## Truncation -/

/-- Every view has one of the four statuses. -/
theorem sum_counts (views : List PickView) :
    countStatus views .draft + countStatus views .locked + countStatus views .scored +
      countStatus views .void = views.length := by
  induction views with
  | nil => rfl
  | cons v rest ih =>
      simp only [countStatus, List.countP_cons, List.length_cons] at ih ⊢
      cases v.status <;> simp <;> omega

/-- A table counts its views. -/
theorem counts_summarize (season : Option String) (filtered : List PickView) :
    let counts := (summarize season filtered).counts
    counts.draft + counts.locked + counts.scored + counts.void = filtered.length := by
  simp only [summarize, sum_counts, List.length_insertionSort]

/-- **A part of the views gives the same table exactly when the rest has none of the season.** -/
theorem summarize_take_iff (season : Option String) (views : List PickView) (n : Nat) :
    summarize season (((newestFirst views).take n).filter (·.matchesFilter none season)) =
        seasonSummary season views ↔
      ∀ v ∈ (newestFirst views).drop n, v.matchesFilter none season = false := by
  rw [seasonSummary, ← summarize_newestFirst season _ views]
  have hsplit : (newestFirst views).filter (·.matchesFilter none season) =
      ((newestFirst views).take n).filter (·.matchesFilter none season) ++
        ((newestFirst views).drop n).filter (·.matchesFilter none season) := by
    rw [← List.filter_append, List.take_append_drop]
  constructor
  · intro heq v hv
    have hcount := congrArg (fun s => s.counts) heq
    have htake := counts_summarize season
      (((newestFirst views).take n).filter (·.matchesFilter none season))
    have hall := counts_summarize season
      ((newestFirst views).filter (·.matchesFilter none season))
    simp only at hcount htake hall
    rw [hcount, hall, hsplit, List.length_append] at htake
    have hnil : ((newestFirst views).drop n).filter (·.matchesFilter none season) = [] :=
      List.length_eq_zero_iff.mp (by omega)
    rw [← Bool.not_eq_true]
    intro hmatch
    exact List.filter_eq_nil_iff.mp hnil v hv hmatch
  · intro hrest
    have hnil : ((newestFirst views).drop n).filter (·.matchesFilter none season) = [] :=
      List.filter_eq_nil_iff.mpr fun v hv => by simp [hrest v hv]
    rw [hsplit, hnil, List.append_nil]

/-- What the listing's views come to. -/
theorem summaryReply_eq (rt : Runtime) (season : Option String) (input : ListingInput)
    (ledger : PickLedger) : summaryReply rt season input ledger =
      (allViews rt input ledger).map fun views =>
        summarize season (((newestFirst views).take 500).filter (·.matchesFilter none season)) := by
  have hfilter : ∀ views : List PickView, views.filter (·.matchesFilter none none) = views := by
    intro views
    exact List.filter_eq_self.mpr fun v _ => by simp [PickView.matchesFilter]
  simp only [summaryReply, picksSummary, listPicks, allViews, Option.any_none, Bool.false_eq_true,
    if_false]
  rw [if_neg (by decide)]
  rcases hviews : listViews rt input (allMatchIds rt ledger) ledger with ⟨next, answer⟩
  cases answer with
  | error e => rfl
  | ok views =>
      simp only [hfilter, Except.map]
      rfl

/-- **The summary covers the ledger** exactly when none of the views after the newest five hundred is
of the season. -/
theorem summary_covers_iff (rt : Runtime) (season : Option String) (input : ListingInput)
    (ledger : PickLedger) :
    summaryReply rt season input ledger =
        (allViews rt input ledger).map (seasonSummary season) ↔
      ∀ views, allViews rt input ledger = .ok views →
        ∀ v ∈ (newestFirst views).drop 500, v.matchesFilter none season = false := by
  rw [summaryReply_eq]
  cases hviews : allViews rt input ledger with
  | error e =>
      simp only [Except.map, true_iff]
      exact fun views h => nomatch h
  | ok views =>
      simp only [Except.map, Except.ok.injEq]
      rw [summarize_take_iff]
      exact ⟨fun h _ heq => heq ▸ h, fun h => h views rfl⟩

/-! ## Five hundred and one drafts -/

/-- A draft of a match far ahead. -/
def farDraft (matchId : String) : UserPick where
  pickId := none
  status := .draft
  fixture := ⟨matchId, 2000000000000000000, true, "Brazil", "Spain", "brazil", "spain", none⟩
  userPick := ⟨⟨1, 0⟩, .home⟩
  rivals := []
  analysisFingerprint := ⟨"index", "0.1.0", "1970-01-01T00:00:00Z"⟩
  createdAtUtc := 0
  updatedAtUtc := 0
  lockAtUtc := 2000000000000000000
  lockedAtUtc := none
  payloadSha256 := none

/-- The match ids `m`, `mm`, `mmm` and so on. -/
def matchName (i : Nat) : String := String.ofList (List.replicate (i + 1) 'm')

/-- A ledger with so many drafts. -/
def farDrafts (n : Nat) : PickLedger :=
  (List.range n).foldl (fun ledger i => ledger.putDraft (farDraft (matchName i))) emptyPicks

/-- Reads long before the matches, without an index. -/
def earlyReads : ListingInput :=
  let attempt : Attempt := ⟨[], "index", none, true, true⟩
  ⟨fun _ => 0, fun _ => ⟨attempt, attempt, attempt⟩⟩

theorem matchName_injective {i j : Nat} (h : matchName i = matchName j) : i = j := by
  have := congrArg (fun s => s.toList.length) h
  simp only [matchName, String.toList_ofList, List.length_replicate] at this
  omega

theorem safe_matchName (i : Nat) : safeMatchId (matchName i) = true := by
  have hne : matchName i ≠ "" := by
    intro h
    have := congrArg (fun s => s.toList.length) h
    simp [matchName] at this
  rw [safeMatchId, Bool.and_eq_true, decide_eq_true_eq]
  refine ⟨hne, List.all_eq_true.mpr fun c hc => ?_⟩
  rw [matchName, String.toList_ofList] at hc
  rw [List.eq_of_mem_replicate hc]
  decide

theorem valid_farDraft (i : Nat) :
    validateUserPick .standard (farDraft (matchName i)) = true := by
  have hsafe := safe_matchName i
  simp only [safeMatchId, Bool.and_eq_true, decide_eq_true_eq] at hsafe
  have hfixture : (farDraft (matchName i)).fixture.valid .standard = true := by
    simp only [MatchSnapshot.valid, farDraft, ne_eq, hsafe.1, not_false_eq_true, decide_true,
      Bool.true_and]
    rfl
  rw [validateUserPick, hfixture]
  rfl

/-- The files of such a ledger. -/
theorem farDrafts_files (n : Nat) : (farDrafts n).locked = .empty ∧
    (∀ i < n, (farDrafts n).drafts.read (matchName i) = some (farDraft (matchName i))) ∧
      ∀ name record, (farDrafts n).drafts.read name = some record →
        ∃ i < n, name = matchName i := by
  induction n with
  | zero =>
      refine ⟨rfl, fun i hi => absurd hi (Nat.not_lt_zero i), fun name record h => ?_⟩
      simp [farDrafts, emptyPicks] at h
  | succ n ih =>
      obtain ⟨hlocked, hread, hname⟩ := ih
      have hstep : farDrafts (n + 1) = (farDrafts n).putDraft (farDraft (matchName n)) := by
        simp [farDrafts, List.range_succ]
      refine ⟨by rw [hstep]; exact hlocked, fun i hi => ?_, fun name record h => ?_⟩
      · by_cases heq : i = n
        · rw [heq, hstep]
          exact Lib.Directory.read_write_self _ _ _
        · rw [hstep, PickLedger.putDraft]
          refine (Lib.Directory.read_write_ne ?_ _ _).trans (hread i (by omega))
          exact fun hsame => heq (matchName_injective hsame)
      · by_cases heq : name = matchName n
        · exact ⟨n, Nat.lt_succ_self n, heq⟩
        · rw [hstep] at h
          have hold : (farDrafts n).drafts.read name = some record :=
            (Lib.Directory.read_write_ne heq _ _).symm.trans h
          obtain ⟨i, hi, hi'⟩ := hname name record hold
          exact ⟨i, Nat.lt_succ_of_lt hi, hi'⟩

/-- Every draft shows as one. -/
theorem getPick_farDraft {n i : Nat} (hi : i < n) :
    getPick .standard (matchName i) (earlyReads.now (matchName i))
        (earlyReads.attempts (matchName i)) (farDrafts n) =
      (farDrafts n, .ok (some ⟨.draft, farDraft (matchName i), none, none⟩)) := by
  obtain ⟨hlocked, hread, -⟩ := farDrafts_files n
  have hload : loadDraft .standard (farDrafts n) (matchName i) =
      .ok (some (farDraft (matchName i))) := by
    simp [loadDraft, safe_matchName, hread i hi, valid_farDraft, Lib.failIf, bind, Except.bind,
      pure, Except.pure]
  have hfind : findLocked .standard (farDrafts n) (matchName i) none = .ok none := by
    simp only [findLocked, hlocked]
    rfl
  have hrow : currentRow (farDraft (matchName i)) [] = none := rfl
  simp only [getPick, earlyReads, Attempts.toList, tryAttempts, getAttempt, hload, hrow]
  rw [show findRow (matchName i) [] = none from rfl, hfind]
  rfl

/-- All of them show, each as a draft. -/
theorem listViews_farDrafts {n : Nat} {names : List String}
    (h : ∀ name ∈ names, ∃ i < n, name = matchName i) :
    listViews .standard earlyReads names (farDrafts n) =
      (farDrafts n, .ok (names.map fun name => ⟨.draft, farDraft name, none, none⟩)) := by
  induction names with
  | nil => rfl
  | cons name rest ih =>
      obtain ⟨i, hi, rfl⟩ := h name List.mem_cons_self
      rw [listViews, getPick_farDraft hi]
      simp only [ih fun name hname => h name (List.mem_cons_of_mem _ hname)]
      rfl

/-- Each of them is among the ids listed, and no other. -/
theorem mem_allMatchIds_farDrafts {n : Nat} {name : String} :
    name ∈ allMatchIds .standard (farDrafts n) ↔ ∃ i < n, name = matchName i := by
  obtain ⟨hlocked, hread, hname⟩ := farDrafts_files n
  simp only [allMatchIds, List.mem_insertionSort, List.mem_dedup, List.mem_append, hlocked]
  constructor
  · rintro (hdraft | hpick)
    · obtain ⟨⟨_, record⟩, hfile, rfl⟩ := List.mem_map.mp hdraft
      exact hname _ record (Lib.Directory.mem_files.mp hfile)
    · simp [Lib.Directory.empty] at hpick
  · rintro ⟨i, hi, rfl⟩
    exact .inl (List.mem_map.mpr ⟨(matchName i, farDraft (matchName i)),
      Lib.Directory.mem_files.mpr (hread i hi), rfl⟩)

theorem le_length_allMatchIds (n : Nat) :
    n ≤ (allMatchIds .standard (farDrafts n)).length := by
  have hnodup : ((List.range n).map matchName).Nodup :=
    List.nodup_range.map fun _ _ h => matchName_injective h
  have hsubset : ((List.range n).map matchName) ⊆ allMatchIds .standard (farDrafts n) := by
    intro name hname
    obtain ⟨i, hi, rfl⟩ := List.mem_map.mp hname
    exact mem_allMatchIds_farDrafts.mpr ⟨i, List.mem_range.mp hi, rfl⟩
  have := (hnodup.subperm hsubset).length_le
  rwa [List.length_map, List.length_range] at this

/-- **The five hundred and first pick is left out of the summary.** -/
theorem summary_truncated : summaryReply .standard none earlyReads (farDrafts 501) ≠
    (allViews .standard earlyReads (farDrafts 501)).map (seasonSummary none) := by
  have hviews : allViews .standard earlyReads (farDrafts 501) = .ok
      ((allMatchIds .standard (farDrafts 501)).map fun name =>
        ⟨.draft, farDraft name, none, none⟩) := by
    rw [allViews, listViews_farDrafts fun name hname => mem_allMatchIds_farDrafts.mp hname]
  have hlong := le_length_allMatchIds 501
  rw [summaryReply_eq, hviews]
  simp only [Except.map, ne_eq, Except.ok.injEq]
  rw [summarize_take_iff]
  intro hnone
  have hrest : (newestFirst ((allMatchIds .standard (farDrafts 501)).map fun name =>
      (⟨.draft, farDraft name, none, none⟩ : PickView))).drop 500 ≠ [] := by
    rw [← List.length_pos_iff, List.length_drop, newestFirst, List.length_insertionSort,
      List.length_map]
    omega
  obtain ⟨v, hv⟩ := List.exists_mem_of_ne_nil _ hrest
  have := hnone v hv
  simp [PickView.matchesFilter] at this

end Golavo.Picks
