import Golavo.Forecast.RatingsReplay
import Mathlib.Analysis.SpecialFunctions.Pow.Real

/-! # The Elo table

The table of `elo_trajectory` at an instant is a replay of the matches that count there, its history at
a checkpoint is the table a fresh replay gives there, and its ratings are those the forecast model fits
on the same matches where the two orders agree on every club (`trajectory_replay`). Where a club's
matches on two days were played in the other order they do not agree. -/

namespace Golavo.Forecast

open Golavo.Lib (Directory bind_ok_iff filter_insertionSort_comm)
open Golavo.Lib.Fields (setField)
open Golavo.Ingest (MatchRow MatchTable assertNoFutureRows assertNoFutureRows_ok)

/-! ## The matches that count -/

theorem mem_completedView {t : MatchTable} {asOf : Int} {p : MatchRow × Int} :
    p ∈ completedView t asOf ↔
      p.1 ∈ t.rows ∧ counted t asOf p.1 = true ∧ t.orderInstant p.1 = some p.2 := by
  unfold completedView
  rw [List.mem_filterMap]
  constructor
  · rintro ⟨r, hr, hp⟩
    obtain ⟨i, hi, rfl⟩ := Option.map_eq_some_iff.mp hp
    exact ⟨(List.mem_filter.mp hr).1, (List.mem_filter.mp hr).2, hi⟩
  · rintro ⟨hmem, hcounted, hi⟩
    exact ⟨p.1, List.mem_filter.mpr ⟨hmem, hcounted⟩, by rw [hi]; rfl⟩

/-- What counts has an instant, at or before the table's. -/
theorem counted_iff {t : MatchTable} {asOf : Int} {r : MatchRow} :
    counted t asOf r = true ↔ r.complete = true ∧ ∃ i, t.orderInstant r = some i ∧ i ≤ asOf := by
  rw [counted, Bool.and_eq_true, MatchTable.orderedBy_iff]

/-- The rows of the view are those that count. -/
theorem map_completedView (t : MatchTable) (asOf : Int) :
    (completedView t asOf).map Prod.fst = t.rows.filter (counted t asOf) := by
  unfold completedView
  have hinstant : ∀ r ∈ t.rows.filter (counted t asOf), (t.orderInstant r).isSome = true := by
    intro r hr
    obtain ⟨-, i, hi, -⟩ := counted_iff.mp (List.mem_filter.mp hr).2
    rw [hi]
    rfl
  generalize t.rows.filter (counted t asOf) = rows at hinstant ⊢
  induction rows with
  | nil => rfl
  | cons r rows ih =>
      rw [List.forall_mem_cons] at hinstant
      obtain ⟨i, hi⟩ := Option.isSome_iff_exists.mp hinstant.1
      rw [List.filterMap_cons, hi, Option.map_some]
      simp only [List.map_cons, ih hinstant.2]

theorem mem_replayOrder {t : MatchTable} {asOf : Int} {p : MatchRow × Int} :
    p ∈ replayOrder t asOf ↔ p ∈ completedView t asOf :=
  List.mem_insertionSort _

/-- The pass goes through the rows that count. -/
theorem perm_replayOrder (t : MatchTable) (asOf : Int) :
    ((replayOrder t asOf).map Prod.fst).Perm (t.rows.filter (counted t asOf)) := by
  rw [← map_completedView]
  exact (List.perm_insertionSort _ _).map _

/-- The pass goes from instant to later instant. -/
theorem pairwise_replayOrder (t : MatchTable) (asOf : Int) :
    (replayOrder t asOf).Pairwise fun p q => p.2 ≤ q.2 := by
  refine (List.pairwise_insertionSort (fun a b => replayKey a ≤ replayKey b) _).imp ?_
  intro p q h
  rcases (Prod.Lex.toLex_le_toLex ..).mp h with h | h
  · exact h.le
  · exact h.1.le

/-- What counts at an earlier instant is what counts and is not later. -/
theorem completedView_of_le {t : MatchTable} {asOf c : Int} (h : c ≤ asOf) :
    completedView t c = (completedView t asOf).filter (·.2 ≤ c) := by
  unfold completedView
  induction t.rows with
  | nil => rfl
  | cons r rows ih =>
      have hcounted : counted t c r = true ↔
          counted t asOf r = true ∧ ∀ i ∈ t.orderInstant r, i ≤ c := by
        rw [counted_iff, counted_iff]
        constructor
        · rintro ⟨hcomplete, i, hi, hle⟩
          exact ⟨⟨hcomplete, i, hi, hle.trans h⟩, fun j hj => by
            obtain rfl := Option.some.inj (hi.symm.trans hj)
            exact hle⟩
        · rintro ⟨⟨hcomplete, i, hi, -⟩, hle⟩
          exact ⟨hcomplete, i, hi, hle i hi⟩
      by_cases hlate : counted t asOf r = true
      · obtain ⟨-, i, hi, -⟩ := counted_iff.mp hlate
        rw [List.filter_cons_of_pos hlate, List.filterMap_cons, hi]
        by_cases hic : i ≤ c
        · rw [List.filter_cons_of_pos (hcounted.mpr ⟨hlate, fun j hj => by
            obtain rfl := Option.some.inj (hi.symm.trans hj)
            exact hic⟩), List.filterMap_cons, hi]
          simp only [Option.map_some, ih]
          rw [List.filter_cons_of_pos (by simpa using hic)]
        · rw [List.filter_cons_of_neg fun hc => hic ((hcounted.mp hc).2 i hi), ih]
          simp only [Option.map_some]
          rw [List.filter_cons_of_neg (by simpa using hic)]
      · rw [List.filter_cons_of_neg hlate, List.filter_cons_of_neg fun hc => hlate (hcounted.mp hc).1,
          ih]

/-- In sorted instants, those not later than one come first. -/
theorem takeWhile_eq_filter {rows : List (MatchRow × Int)} (c : Int)
    (h : rows.Pairwise fun p q => p.2 ≤ q.2) :
    rows.takeWhile (·.2 ≤ c) = rows.filter (·.2 ≤ c) := by
  induction rows with
  | nil => rfl
  | cons p rows ih =>
      rw [List.pairwise_cons] at h
      by_cases hp : p.2 ≤ c
      · rw [List.takeWhile_cons_of_pos (by simpa using hp),
          List.filter_cons_of_pos (by simpa using hp), ih h.2]
      · rw [List.takeWhile_cons_of_neg (by simpa using hp),
          List.filter_cons_of_neg (by simpa using hp), eq_comm, List.filter_eq_nil_iff]
        intro q hq
        have : p.2 ≤ q.2 := h.1 q hq
        simp only [decide_eq_true_eq, not_le]
        omega

/-- **A pass up to an earlier instant is a prefix of the pass.** -/
theorem replayOrder_of_le {t : MatchTable} {asOf c : Int} (h : c ≤ asOf) :
    replayOrder t c = (replayOrder t asOf).takeWhile (·.2 ≤ c) := by
  rw [takeWhile_eq_filter c (pairwise_replayOrder t asOf), replayOrder, completedView_of_le h,
    filter_insertionSort_comm, replayOrder]

/-! ## The checkpoints -/

theorem monthStart_le (d : Int) : monthStart d ≤ d := by
  obtain ⟨-, -, h, -⟩ := Lib.Calendar.civilOfDays_bounds d
  unfold monthStart
  omega

theorem midnight_le_midnight {d e : Int} (h : d ≤ e) : midnight d ≤ midnight e := by
  unfold midnight dayNs
  omega

/-- A month's end is before the month's first day. -/
theorem lt_of_mem_monthEndsBefore {n : Nat} {start c : Int} (h : c ∈ monthEndsBefore n start) :
    c < midnight start := by
  induction n generalizing start with
  | zero => exact absurd h List.not_mem_nil
  | succ n ih =>
      rcases List.mem_cons.mp h with rfl | h
      · unfold secondNs
        omega
      · refine (ih h).trans_le (midnight_le_midnight ?_)
        have := monthStart_le (start - 1)
        omega

theorem pairwise_monthEndsBefore (n : Nat) (start : Int) :
    (monthEndsBefore n start).Pairwise fun c d => d ≤ c := by
  induction n generalizing start with
  | zero => exact List.Pairwise.nil
  | succ n ih =>
      refine List.pairwise_cons.mpr ⟨fun c hc => ?_, ih _⟩
      have hlt := lt_of_mem_monthEndsBefore hc
      have hle := monthStart_le (start - 1)
      have hday : midnight (monthStart (start - 1)) ≤ midnight start - dayNs := by
        unfold midnight dayNs
        omega
      unfold dayNs at hday
      unfold secondNs
      omega

theorem midnight_monthStart_le (anchor : Int) : midnight (monthStart (utcDay anchor)) ≤ anchor := by
  have h := monthStart_le (utcDay anchor)
  unfold midnight utcDay dayNs at *
  omega

/-- The checkpoints are not after the anchor. -/
theorem le_of_mem_monthEndCheckpoints {anchor c : Int} (h : c ∈ monthEndCheckpoints anchor) :
    c ≤ anchor := by
  rcases List.mem_append.mp h with h | h
  · exact ((lt_of_mem_monthEndsBefore (List.mem_reverse.mp h)).trans_le
      (midnight_monthStart_le anchor)).le
  · exact (List.mem_singleton.mp h).le

theorem pairwise_monthEndCheckpoints (anchor : Int) :
    (monthEndCheckpoints anchor).Pairwise (· ≤ ·) := by
  refine List.pairwise_append.mpr ⟨List.pairwise_reverse.mpr (pairwise_monthEndsBefore _ _),
    List.pairwise_singleton _ _, fun c hc d hd => ?_⟩
  rw [List.mem_singleton.mp hd]
  exact le_of_mem_monthEndCheckpoints (List.mem_append_left _ hc)

variable {R : Type} [Field R] [LinearOrder R] {host : EloHost R}

/-! ## The lines of the table -/

theorem mem_ratedTeams {w : Replay R} {checkpoints : List Int} {topN : Int} {line : RatedTeam R}
    (h : line ∈ ratedTeams host w checkpoints topN) : ∃ rating, w.ratings.read line.team = some rating ∧
      line.rating = host.round1 rating ∧
        line.history = checkpoints.zip (w.snapshots.map fun s => host.round1 (ratingOf s line.team)) := by
  obtain ⟨⟨⟨team, rating⟩, i⟩, hp, rfl⟩ := List.mem_map.mp h
  have hmem := List.mem_of_mem_take (List.fst_mem_of_mem_zipIdx hp)
  exact ⟨rating, Directory.mem_files.mp ((List.mem_insertionSort _).mp hmem), rfl, rfl⟩

/-- Where every club has a line, each rated club has one. -/
theorem exists_mem_ratedTeams {w : Replay R} {checkpoints : List Int} {topN : Int} {team : String}
    {rating : R} (htop : (w.ratings.files.length : Int) ≤ topN)
    (h : w.ratings.read team = some rating) :
    ∃ line ∈ ratedTeams host w checkpoints topN, line.team = team := by
  have hmem : (team, rating) ∈
      (w.ratings.files.insertionSort ratedAbove).take topN.toNat := by
    rw [List.take_of_length_le (by rw [List.length_insertionSort]; omega), List.mem_insertionSort]
    exact Directory.mem_files.mpr h
  obtain ⟨i, hi⟩ := List.getElem?_of_mem hmem
  exact ⟨_, List.mem_map.mpr ⟨((team, rating), i), List.mem_zipIdx_iff_getElem?.mpr hi, rfl⟩, rfl⟩

/-- The rating a table shows of a club, and the first rating of a club it does not show. -/
def EloTable.shown (host : EloHost R) (table : EloTable R) (team : String) : R :=
  ((table.teams.find? (·.team = team)).map RatedTeam.rating).getD (host.round1 eloInitial)

theorem shown_ratedTeams {w : Replay R} {checkpoints : List Int} {topN : Int}
    (htop : (w.ratings.files.length : Int) ≤ topN) {table : EloTable R}
    (hteams : table.teams = ratedTeams host w checkpoints topN) (team : String) :
    table.shown host team = host.round1 (ratingOf w.ratings team) := by
  unfold EloTable.shown
  rw [hteams]
  cases hfind : (ratedTeams host w checkpoints topN).find? (·.team = team) with
  | some line =>
      obtain ⟨rating, hread, hline, -⟩ := mem_ratedTeams (List.mem_of_find?_eq_some hfind)
      have hteam : line.team = team := by simpa using List.find?_some hfind
      rw [hteam] at hread
      rw [Option.map_some, Option.getD_some, hline, ratingOf, hread, Option.getD_some]
  | none =>
      have hnone : w.ratings.read team = none := by
        by_contra hsome
        obtain ⟨rating, hread⟩ := Option.ne_none_iff_exists'.mp hsome
        obtain ⟨line, hline, hteam⟩ :=
          @exists_mem_ratedTeams _ _ _ host _ checkpoints _ _ _ htop hread
        simpa [hteam] using List.find?_eq_none.mp hfind line hline
      rw [Option.map_none, Option.getD_none, ratingOf, hnone, Option.getD_none]

/-! ## The table -/

/-- The replay behind a table goes through when its ratings do. -/
theorem exists_replay {rows : List (MatchRow × Int)} {ratings : RatingTable R}
    (h : ratingsAfter host rows .empty = .ok ratings) (checkpoints : List Int) :
    ∃ w, replay host rows checkpoints = .ok w ∧ w.ratings = ratings := by
  have hmap := (@map_ratings_passAll _ _ _ host rows (.start checkpoints)).trans h
  cases hpass : passAll host rows (.ok (.start checkpoints)) with
  | error e =>
      rw [hpass] at hmap
      cases hmap
  | ok next =>
      rw [hpass] at hmap
      refine ⟨next.finish, ?_, Except.ok.inj hmap⟩
      rw [replay]
      change (passAll host rows (.ok (.start checkpoints)) >>= _ :) = _
      rw [hpass]
      rfl

/-- The ratings of a replay. -/
theorem map_ratings_replay (rows : List (MatchRow × Int)) (checkpoints : List Int) :
    (replay host rows checkpoints).map Replay.ratings = ratingsAfter host rows .empty := by
  have hmap := @map_ratings_passAll _ _ _ host rows (.start checkpoints)
  change (((passAll host rows (.ok (.start checkpoints))) >>= _).map _ :) = _
  refine Eq.trans ?_ hmap
  cases passAll host rows (.ok (.start checkpoints)) with
  | error e => rfl
  | ok next => rfl

/-- What a replay has noted at its checkpoints. -/
theorem replay_ok {rows : List (MatchRow × Int)} {checkpoints : List Int} {w : Replay R}
    (hrows : rows.Pairwise fun p q => p.2 ≤ q.2) (hcheckpoints : checkpoints.Pairwise (· ≤ ·))
    (h : replay host rows checkpoints = .ok w) :
    List.Forall₂ (fun c table => ratingsAfter host (rows.takeWhile (·.2 ≤ c)) .empty = .ok table)
      checkpoints w.snapshots := by
  obtain ⟨next, hnext, heq⟩ := bind_ok_iff.mp h
  obtain rfl := Except.ok.inj heq
  obtain ⟨noted, hnoted, hforall⟩ := passAll_ok hrows hcheckpoints hnext
  rw [hnoted]
  exact hforall

/-- What a table is made of: the replay of the matches that count, with its checkpoints. -/
theorem eloTrajectory_ok {t : MatchTable} {asOf topN : Int} {scope : String} {table : EloTable R}
    (h : eloTrajectory host t asOf topN scope = .ok table) :
    ∃ checkpoints w, replay host (replayOrder t asOf) checkpoints = .ok w ∧
      checkpoints.Pairwise (· ≤ ·) ∧ (∀ c ∈ checkpoints, c ≤ asOf) ∧
        table.teams = ratedTeams host w checkpoints topN := by
  simp only [eloTrajectory] at h
  cases hmax : ((replayOrder t asOf).map Prod.snd).max? with
  | none =>
      rw [hmax] at h
      have hnil : replayOrder t asOf = [] := List.map_eq_nil_iff.mp (List.max?_eq_none_iff.mp hmax)
      rw [← Except.ok.inj h, hnil]
      refine ⟨[], (Replay.start []).finish, rfl, List.Pairwise.nil, by simp, ?_⟩
      simp [ratedTeams, Replay.finish, Replay.start, Directory.empty]
  | some anchor =>
      rw [hmax] at h
      obtain ⟨w, hw, heq⟩ := bind_ok_iff.mp h
      refine ⟨_, w, hw, pairwise_monthEndCheckpoints anchor, fun c hc => ?_,
        (congrArg EloTable.teams (Except.ok.inj heq)).symm⟩
      obtain ⟨p, hp, hanchor⟩ := List.mem_map.mp (List.max?_mem hmax)
      obtain ⟨-, hcounted, hinstant⟩ := mem_completedView.mp (mem_replayOrder.mp hp)
      obtain ⟨-, i, hi, hle⟩ := counted_iff.mp hcounted
      obtain rfl := Option.some.inj (hi.symm.trans hinstant)
      exact (le_of_mem_monthEndCheckpoints hc).trans (hanchor ▸ hle)

/-- The matches that count are rated, and there is a table. -/
theorem exists_eloTrajectory {t : MatchTable} {asOf : Int} {ratings : RatingTable R}
    (h : ratingsAfter host (replayOrder t asOf) .empty = .ok ratings) (topN : Int) (scope : String) :
    ∃ table, eloTrajectory host t asOf topN scope = .ok table := by
  simp only [eloTrajectory]
  cases ((replayOrder t asOf).map Prod.snd).max? with
  | none => exact ⟨_, rfl⟩
  | some anchor =>
      obtain ⟨w, hw, -⟩ := exists_replay h (monthEndCheckpoints anchor)
      exact ⟨_, by simp only [hw]; rfl⟩

theorem length_replayOrder (t : MatchTable) (asOf : Int) :
    (replayOrder t asOf).length ≤ t.rows.length := by
  have h := (perm_replayOrder t asOf).length_eq
  rw [List.length_map] at h
  rw [h]
  exact List.length_filter_le _ _

/-- **What a fresh table shows of a club** are the ratings of its replay. -/
theorem shown_eloTrajectory {t : MatchTable} {asOf topN : Int} {scope : String}
    {ratings : RatingTable R} (h : ratingsAfter host (replayOrder t asOf) .empty = .ok ratings)
    (htop : 2 * (t.rows.length : Int) ≤ topN) : ∃ table,
      eloTrajectory host t asOf topN scope = .ok table ∧
        ∀ team, table.shown host team = host.round1 (ratingOf ratings team) := by
  obtain ⟨table, htable⟩ := exists_eloTrajectory h topN scope
  obtain ⟨checkpoints, w, hw, -, -, hteams⟩ := eloTrajectory_ok htable
  have hratings : w.ratings = ratings := by
    have := @map_ratings_replay _ _ _ host (replayOrder t asOf) checkpoints
    rw [hw, h] at this
    exact Except.ok.inj this
  refine ⟨table, htable, fun team => ?_⟩
  rw [← hratings]
  refine shown_ratedTeams ?_ hteams team
  have hlength := length_files_rateAll h
  have hrows := length_replayOrder t asOf
  rw [List.length_map] at hlength
  rw [hratings]
  change _ ≤ 0 + _ at hlength
  omega

/-! ## The model's order -/

/-- Whether a row was played before another, by its date and by its order instant. -/
def playedBefore (t : MatchTable) (a b : MatchRow) : Prop :=
  ∃ d ∈ dateInstant a, ∃ e ∈ dateInstant b, ∃ i ∈ t.orderInstant a, ∃ j ∈ t.orderInstant b,
    d < e ∧ i < j

theorem playedBefore_asymm {t : MatchTable} {a b : MatchRow} (h : playedBefore t a b) :
    ¬ playedBefore t b a := by
  obtain ⟨d, hd, e, he, -, -, -, -, hde, -⟩ := h
  rintro ⟨e', he', d', hd', -, -, -, -, hed, -⟩
  obtain rfl := Option.some.inj (hd.symm.trans hd')
  obtain rfl := Option.some.inj (he.symm.trans he')
  omega

/-- Rows with a common club were played one before the other, by date and by instant alike. -/
def OrderedAlike (t : MatchTable) (rows : List MatchRow) : Prop :=
  rows.Pairwise fun a b => sharesClub a b → playedBefore t a b ∨ playedBefore t b a

/-- In every order of such rows that never puts the later of two with a common club first, the earlier
comes first. -/
theorem OrderedAlike.pairwise {t : MatchTable} {rows l : List MatchRow} (h : OrderedAlike t rows)
    (hperm : l.Perm rows) (hl : l.Pairwise fun a b => ¬ playedBefore t b a) :
    l.Pairwise fun a b => sharesClub a b → playedBefore t a b := by
  have hsymm : ∀ {a b : MatchRow}, (sharesClub a b → playedBefore t a b ∨ playedBefore t b a) →
      sharesClub b a → playedBefore t b a ∨ playedBefore t a b :=
    fun h hba => (h (sharesClub_symm hba)).symm
  exact (((hperm.pairwise_iff hsymm).mpr h).and hl).imp fun hab hshares =>
    (hab.1 hshares).resolve_right hab.2

/-- The fit goes through the rows by date. -/
theorem pairwise_byDate (t : MatchTable) (rows : List MatchRow) :
    (byDate rows).Pairwise fun a b => ¬ playedBefore t b a := by
  refine (List.pairwise_insertionSort (fun a b => scheduleKey true a ≤ scheduleKey true b) _).imp ?_
  rintro a b h ⟨e, he, d, hd, -, -, -, -, hlt, -⟩
  have hfirst : blankLast (dateInstant a) ≤ blankLast (dateInstant b) := by
    rcases (Prod.Lex.toLex_le_toLex ..).mp h with h | h
    · exact h.le
    · exact h.1.le
  rw [Option.mem_def.mp he, Option.mem_def.mp hd] at hfirst
  exact absurd (WithTop.coe_le_coe.mp hfirst) (not_le.mpr hlt)

/-- The pass goes through the rows by instant. -/
theorem pairwise_map_replayOrder (t : MatchTable) (asOf : Int) :
    ((replayOrder t asOf).map Prod.fst).Pairwise fun a b => ¬ playedBefore t b a := by
  rw [List.pairwise_map]
  refine (List.Pairwise.and_mem.mp (pairwise_replayOrder t asOf)).imp ?_
  rintro p q ⟨hp, hq, hle⟩ ⟨-, -, -, -, j, hj, i, hi, -, hlt⟩
  obtain ⟨-, -, hinstant⟩ := mem_completedView.mp (mem_replayOrder.mp hp)
  obtain ⟨-, -, hlater⟩ := mem_completedView.mp (mem_replayOrder.mp hq)
  obtain rfl := Option.some.inj (hinstant.symm.trans hi)
  obtain rfl := Option.some.inj (hlater.symm.trans hj)
  omega

/-- **The fit and the pass rate alike** where both orders agree on every club. -/
theorem fitRatings_eq_replay {t : MatchTable} {asOf : Int}
    (h : OrderedAlike t (t.rows.filter (counted t asOf))) (checkpoints : List Int) :
    fitRatings host eloKFactor eloHomeAdvantage (t.select (counted t asOf)) asOf =
      (replay host (replayOrder t asOf) checkpoints).map Replay.ratings := by
  have hguard : assertNoFutureRows (t.select (counted t asOf)) asOf = .ok () := by
    refine assertNoFutureRows_ok fun r hr => ?_
    exact (Bool.and_eq_true_iff.mp (List.mem_filter.mp hr).2).2
  have hdate : (byDate (t.rows.filter (counted t asOf))).Perm (t.rows.filter (counted t asOf)) :=
    List.perm_insertionSort _ _
  have hinstant := perm_replayOrder t asOf
  rw [map_ratings_replay, fitRatings, hguard]
  exact rateAll_eq_of_ordered (fun h => playedBefore_asymm h) (hdate.trans hinstant.symm)
    (h.pairwise hdate (pairwise_byDate t _)) (h.pairwise hinstant (pairwise_map_replayOrder t asOf)) _

/-! ## Replays of the Elo table -/

/-- **A replay is a computation over the prefix that counts.**
- A table is read off the rows that are complete and not after its instant.
- A history point at a checkpoint is what a fresh table at the checkpoint shows of the club (one with
  room for every club), and the first rating, rounded, for a club that had not played.
- The ratings add up to the first rating of every rated club, where no club plays itself.
- They are the ratings the forecast model fits on the same rows, where of any two rows with a common
  club one is earlier both by date and by order instant. -/
theorem trajectory_replay (host : EloHost R) :
    (∀ (t t' : MatchTable) (asOf topN : Int) (scope : String), t.columns = t'.columns →
      t.rows.filter (counted t asOf) = t'.rows.filter (counted t' asOf) →
        eloTrajectory host t asOf topN scope = eloTrajectory host t' asOf topN scope) ∧
    (∀ (t : MatchTable) (asOf topN : Int) (scope : String) (table : EloTable R),
      eloTrajectory host t asOf topN scope = .ok table →
        ∀ line ∈ table.teams, ∀ point ∈ line.history, ∀ n : Int, 2 * (t.rows.length : Int) ≤ n →
          ∃ fresh, eloTrajectory host t point.1 n scope = .ok fresh ∧
            point.2 = fresh.shown host line.team ∧
              ((∀ r ∈ t.rows, counted t point.1 r = true → appears line.team r = false) →
                point.2 = host.round1 eloInitial)) ∧
    (∀ (t : MatchTable) (asOf : Int) (checkpoints : List Int) (w : Replay R),
      replay host (replayOrder t asOf) checkpoints = .ok w →
        (∀ r ∈ t.rows, counted t asOf r = true → r.homeTeam ≠ r.awayTeam) →
          (w.ratings.files.map Prod.snd).sum = eloInitial * w.ratings.files.length) ∧
    (∀ (t : MatchTable) (asOf : Int) (checkpoints : List Int),
      OrderedAlike t (t.rows.filter (counted t asOf)) →
        fitRatings host eloKFactor eloHomeAdvantage (t.select (counted t asOf)) asOf =
          (replay host (replayOrder t asOf) checkpoints).map Replay.ratings) := by
  refine ⟨?_, ?_, ?_, fun t asOf checkpoints h => fitRatings_eq_replay h checkpoints⟩
  · intro t t' asOf topN scope hcolumns hrows
    have hinstant : ∀ r, t.orderInstant r = t'.orderInstant r := by
      intro r
      rw [MatchTable.orderInstant, hcolumns, MatchTable.orderInstant]
    have hview : completedView t asOf = completedView t' asOf := by
      simp only [completedView, hrows, hinstant]
    simp only [eloTrajectory, replayOrder, hview]
  · intro t asOf topN scope table htable line hline point hpoint n hn
    obtain ⟨checkpoints, w, hw, hsorted, hle, hteams⟩ := eloTrajectory_ok htable
    rw [hteams] at hline
    obtain ⟨-, -, -, hhistory⟩ := mem_ratedTeams hline
    rw [hhistory, List.zip_map_right] at hpoint
    obtain ⟨⟨c, snapshot⟩, hmem, rfl⟩ := List.mem_map.mp hpoint
    have hc := hle c (List.of_mem_zip hmem).1
    have hsnapshot : ratingsAfter host (replayOrder t c) .empty = .ok snapshot := by
      rw [replayOrder_of_le hc]
      exact (List.forall₂_iff_zip.mp
        (replay_ok (pairwise_replayOrder t asOf) hsorted hw)).2 hmem
    obtain ⟨fresh, hfresh, hshown⟩ := @shown_eloTrajectory _ _ _ _ _ _ _ scope _ hsnapshot hn
    refine ⟨fresh, hfresh, (hshown line.team).symm, fun hunseen => ?_⟩
    have hrows : ∀ r ∈ (replayOrder t c).map Prod.fst, appears line.team r = false := by
      intro r hr
      obtain ⟨hrow, hcounted⟩ := List.mem_filter.mp ((perm_replayOrder t c).mem_iff.mp hr)
      exact hunseen r hrow hcounted
    change host.round1 (ratingOf snapshot line.team) = _
    rw [ratingOf, read_rateAll hrows hsnapshot, Directory.read_empty, Option.getD_none]
  · intro t asOf checkpoints w hw hdistinct
    have hratings := @map_ratings_replay _ _ _ host (replayOrder t asOf) checkpoints
    rw [hw] at hratings
    have hrows : ∀ r ∈ (replayOrder t asOf).map Prod.fst, r.homeTeam ≠ r.awayTeam := by
      intro r hr
      obtain ⟨hmem, hcounted⟩ := List.mem_filter.mp ((perm_replayOrder t asOf).mem_iff.mp hr)
      exact hdistinct r hmem hcounted
    rw [sum_ratings, surplus_rateAll hrows hratings.symm]
    simp [surplus, Directory.empty]

/-! ## Two orders of two matches -/

/-- The interpreter's functions on exact numbers, with any rounding. -/
noncomputable def exactHost (round1 : ℝ → ℝ) : EloHost ℝ :=
  { log1p := fun n => Real.log (1 + n)
    pow10 := fun x => ((10 : ℕ) : ℝ) ^ x
    round1 := round1 }

/-- A match of an American evening: in UTC its kickoff is on the next day. -/
def eveningMatch : MatchRow :=
  { matchId := some "evening", date := some (.naive (midnight 20000))
    kickoffUtc := some (.naive (midnight 20001 + 7200 * secondNs)), kickoffPrecision := "exact"
    homeTeam := "Mexico", awayTeam := "Ghana", homeScore := some 1, awayScore := some 0
    isComplete := some true, neutral := some true }

/-- A match of the next day, of which only the day is known. -/
def nextDayMatch : MatchRow :=
  { matchId := some "next", date := some (.naive (midnight 20001))
    kickoffUtc := some (.naive (midnight 20001))
    homeTeam := "Mexico", awayTeam := "Japan", homeScore := some 1, awayScore := some 0
    isComplete := some true, neutral := some true }

def eveningTable : MatchTable := ⟨{}, [eveningMatch, nextDayMatch]⟩

theorem map_replayOrder_evening :
    (replayOrder eveningTable (midnight 20002)).map Prod.fst = [nextDayMatch, eveningMatch] := by
  decide +kernel

theorem byDate_evening :
    byDate (eveningTable.rows.filter (counted eveningTable (midnight 20002))) =
      [eveningMatch, nextDayMatch] := by
  decide +kernel

/-- What a home win by one goal on neutral ground is worth. -/
theorem eloMatchDelta_win (round1 : ℝ → ℝ) (home away : ℝ) :
    eloMatchDelta (exactHost round1) eloKFactor eloHomeAdvantage home away 1 0 true =
      28 * (1 - 1 / (1 + (10 : ℝ) ^ (-(home - away) / 400))) := by
  have hlog : Real.log (1 + (1 : ℕ)) ≤ 1 := by
    have := Real.log_le_sub_one_of_pos (x := 1 + (1 : ℕ)) (by norm_num)
    norm_num at this ⊢
    exact this
  have hmultiplier : max 1 (Real.log (1 + ((1 : Int) - 0).natAbs)) = 1 := max_eq_left hlog
  simp only [eloMatchDelta, exactHost, hmultiplier, eloKFactor]
  norm_num

/-- Two rateable matches, one after the other. -/
theorem rateAll_pair {a b : MatchRow}
    (ha : Rateable a) (hb : Rateable b) :
    rateAll host eloKFactor eloHomeAdvantage [a, b] (.ok .empty) =
      .ok (ratedTable host eloKFactor eloHomeAdvantage
        (ratedTable host eloKFactor eloHomeAdvantage .empty a) b) := by
  change (rateMatch host eloKFactor eloHomeAdvantage .empty a >>= fun table =>
    rateMatch host eloKFactor eloHomeAdvantage table b) = _
  rw [rateMatch_eq, if_pos ha]
  exact (rateMatch_eq _ b).trans (if_pos hb)

/-- The rating of the away team after a match. -/
theorem ratingOf_away (ratings : RatingTable R) (r : MatchRow) :
    ratingOf (ratedTable host eloKFactor eloHomeAdvantage ratings r) r.awayTeam =
      ratingOf ratings r.awayTeam - deltaOf host eloKFactor eloHomeAdvantage ratings r := by
  rw [ratingOf, ratedTable, Directory.read_write_self, Option.getD_some]

/-- The rating of the home team after a match. -/
theorem ratingOf_home {r : MatchRow} (h : r.homeTeam ≠ r.awayTeam) (ratings : RatingTable R) :
    ratingOf (ratedTable host eloKFactor eloHomeAdvantage ratings r) r.homeTeam =
      ratingOf ratings r.homeTeam + deltaOf host eloKFactor eloHomeAdvantage ratings r := by
  rw [ratingOf, ratedTable, Directory.read_write_ne h, Directory.read_write_self, Option.getD_some]

/-- A win over the club with the lower rating is worth less than one over an equal. -/
theorem lt_of_favourite {gap : ℝ} (h : 0 < gap) :
    28 * (1 - 1 / (1 + (10 : ℝ) ^ (-gap / 400))) < 14 := by
  have hpow : (10 : ℝ) ^ (-gap / 400) < 1 := Real.rpow_lt_one_of_one_lt_of_neg (by norm_num) (by
    have := div_pos h (by norm_num : (0 : ℝ) < 400)
    rw [neg_div]
    linarith)
  have hpos : 0 < (10 : ℝ) ^ (-gap / 400) := Real.rpow_pos_of_pos (by norm_num) _
  have hhalf : 1 / 2 < 1 / (1 + (10 : ℝ) ^ (-gap / 400)) :=
    one_div_lt_one_div_of_lt (by linarith) (by linarith)
  linarith

/-- **No club plays twice on one day, and the fit and the table still disagree**: by date the evening
match comes first, by instant the match of the next day does. -/
theorem fitRatings_by_day :
    ((eveningTable.rows.filter (counted eveningTable (midnight 20002))).Pairwise fun a b =>
      sharesClub a b → (dateInstant a).map utcDay ≠ (dateInstant b).map utcDay) ∧
    ∀ (round1 : ℝ → ℝ) (checkpoints : List Int),
      fitRatings (exactHost round1) eloKFactor eloHomeAdvantage
          (eveningTable.select (counted eveningTable (midnight 20002))) (midnight 20002) ≠
        (replay (exactHost round1) (replayOrder eveningTable (midnight 20002)) checkpoints).map
          Replay.ratings := by
  refine ⟨?_, fun round1 checkpoints heq => ?_⟩
  · have hrows : eveningTable.rows.filter (counted eveningTable (midnight 20002)) =
        [eveningMatch, nextDayMatch] := by decide +kernel
    rw [hrows, List.pairwise_pair]
    exact fun _ => by decide +kernel
  have hevening : Rateable eveningMatch := ⟨rfl, rfl, rfl⟩
  have hnext : Rateable nextDayMatch := ⟨rfl, rfl, rfl⟩
  have hguard : assertNoFutureRows (eveningTable.select (counted eveningTable (midnight 20002)))
      (midnight 20002) = .ok () := assertNoFutureRows_ok fun r hr =>
    (Bool.and_eq_true_iff.mp (List.mem_filter.mp hr).2).2
  rw [map_ratings_replay, ratingsAfter, map_replayOrder_evening, rateAll_pair hnext hevening,
    fitRatings, hguard] at heq
  change rateAll (exactHost round1) eloKFactor eloHomeAdvantage
    (byDate (eveningTable.rows.filter (counted eveningTable (midnight 20002)))) (.ok .empty) = _ at heq
  rw [byDate_evening, rateAll_pair hevening hnext] at heq
  -- Mexico beats an equal first, and then Japan as the favourite or as an equal
  have hfirst : ∀ r, r = eveningMatch ∨ r = nextDayMatch →
      deltaOf (exactHost round1) eloKFactor eloHomeAdvantage .empty r = 14 := by
    rintro r (rfl | rfl)
    · refine (eloMatchDelta_win round1 eloInitial eloInitial).trans ?_
      norm_num
    · refine (eloMatchDelta_win round1 eloInitial eloInitial).trans ?_
      norm_num
  have hmexico := @ratingOf_home _ _ _ (exactHost round1) eveningMatch (by decide) .empty
  rw [hfirst _ (.inl rfl)] at hmexico
  change ratingOf _ "Mexico" = eloInitial + 14 at hmexico
  have hsecond : deltaOf (exactHost round1) eloKFactor eloHomeAdvantage
      (ratedTable (exactHost round1) eloKFactor eloHomeAdvantage .empty eveningMatch) nextDayMatch <
        14 := by
    refine lt_of_eq_of_lt (eloMatchDelta_win round1 _ _) ?_
    have hjapan := @ratingOf_ratedTable_ne _ _ _ (exactHost round1) eloKFactor
      eloHomeAdvantage .empty eveningMatch "Japan"
      (by decide) (by decide)
    change 28 * (1 - 1 / (1 + (10 : ℝ) ^ (-(ratingOf _ "Mexico" - ratingOf _ "Japan") / 400))) < 14
    rw [hmexico, hjapan]
    refine lt_of_favourite ?_
    change 0 < eloInitial + 14 - eloInitial
    norm_num
  have hleft := @ratingOf_away _ _ _ (exactHost round1)
    (ratedTable (exactHost round1) eloKFactor eloHomeAdvantage .empty eveningMatch) nextDayMatch
  have hright := @ratingOf_away _ _ _ (exactHost round1) .empty nextDayMatch
  rw [hfirst _ (.inr rfl)] at hright
  rw [Except.ok.inj heq] at hleft
  change ratingOf (ratedTable _ _ _ _ eveningMatch) "Japan" = ratingOf _ "Japan" - _ at hleft
  change ratingOf _ "Japan" = eloInitial - 14 at hright
  rw [ratingOf_ratedTable_ne (by decide) (by decide), hright,
    ratingOf_ratedTable_ne (by decide) (by decide)] at hleft
  change eloInitial - 14 = eloInitial - _ at hleft
  linarith

end Golavo.Forecast
