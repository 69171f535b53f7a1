import Golavo.Forecast.Ratings
import Golavo.Lib.Commute
import Golavo.Lib.Runs
import Mathlib.Data.List.TakeWhile

/-! # The replay, prefix by prefix

What the pass of `elo_trajectory` comes to: its ratings are those of a plain replay, and what it notes
at a checkpoint are the ratings after the matches up to it. The order of matches without a common club
does not matter, and no match changes the sum of the ratings. -/

namespace Golavo.Forecast

open Golavo.Lib (Directory bind_ok_iff orFail_ok_iff foldl_eq_of_ordered)
open Golavo.Lib.Fields (getField setField KeysSorted keysSorted_cons getField_eq_none)
open Golavo.Ingest (MatchRow MatchTable)

variable {R : Type} [Field R] [LinearOrder R] {host : EloHost R} {k advantage : R}

/-! ## One match -/

/-- A match that is rated. -/
theorem rateMatch_ok {ratings next : RatingTable R} {r : MatchRow}
    (h : rateMatch host k advantage ratings r = .ok next) : ∃ delta,
      next = (ratings.write r.homeTeam (ratingOf ratings r.homeTeam + delta)).write r.awayTeam
        (ratingOf ratings r.awayTeam - delta) := by
  obtain ⟨homeScore, -, h⟩ := bind_ok_iff.mp h
  obtain ⟨awayScore, -, h⟩ := bind_ok_iff.mp h
  obtain ⟨neutral, -, h⟩ := bind_ok_iff.mp h
  exact ⟨_, (Except.ok.inj h).symm⟩

/-- Whether two matches have a club in common. -/
def sharesClub (a b : MatchRow) : Prop :=
  a.homeTeam = b.homeTeam ∨ a.homeTeam = b.awayTeam ∨ a.awayTeam = b.homeTeam ∨
    a.awayTeam = b.awayTeam

theorem sharesClub_symm {a b : MatchRow} (h : sharesClub a b) : sharesClub b a := by
  rcases h with h | h | h | h
  · exact .inl h.symm
  · exact .inr (.inr (.inl h.symm))
  · exact .inr (.inl h.symm)
  · exact .inr (.inr (.inr h.symm))

/-- A match whose rating goes through, in any table. -/
def Rateable (r : MatchRow) : Prop :=
  r.homeScore.isSome = true ∧ r.awayScore.isSome = true ∧ r.neutral.isSome = true

/-- What the home team gains from a rateable match. -/
def deltaOf (host : EloHost R) (k advantage : R) (ratings : RatingTable R) (r : MatchRow) : R :=
  eloMatchDelta host k advantage (ratingOf ratings r.homeTeam) (ratingOf ratings r.awayTeam)
    (r.homeScore.getD 0) (r.awayScore.getD 0) (r.neutral.getD false)

/-- The table after a rateable match. -/
def ratedTable (host : EloHost R) (k advantage : R) (ratings : RatingTable R) (r : MatchRow) :
    RatingTable R :=
  (ratings.write r.homeTeam (ratingOf ratings r.homeTeam + deltaOf host k advantage ratings r)).write
    r.awayTeam (ratingOf ratings r.awayTeam - deltaOf host k advantage ratings r)

open Classical in
theorem rateMatch_eq (ratings : RatingTable R) (r : MatchRow) :
    rateMatch host k advantage ratings r =
      if Rateable r then .ok (ratedTable host k advantage ratings r) else .error .blankCell := by
  unfold rateMatch Rateable
  cases hhome : r.homeScore with
  | none => simp [Lib.orFail, bind, Except.bind]
  | some home =>
      cases haway : r.awayScore with
      | none => simp [Lib.orFail, bind, Except.bind]
      | some away =>
          cases hneutral : r.neutral with
          | none => simp [Lib.orFail, bind, Except.bind]
          | some neutral =>
              simp [Lib.orFail, bind, Except.bind, pure, Except.pure, ratedTable, deltaOf, hhome,
                haway, hneutral]

/-- A club that does not play keeps its rating. -/
theorem read_ratedTable_ne {ratings : RatingTable R} {r : MatchRow} {team : String}
    (hhome : team ≠ r.homeTeam) (haway : team ≠ r.awayTeam) :
    (ratedTable host k advantage ratings r).read team = ratings.read team := by
  rw [ratedTable, Directory.read_write_ne haway, Directory.read_write_ne hhome]

theorem ratingOf_ratedTable_ne {ratings : RatingTable R} {r : MatchRow} {team : String}
    (hhome : team ≠ r.homeTeam) (haway : team ≠ r.awayTeam) :
    ratingOf (ratedTable host k advantage ratings r) team = ratingOf ratings team := by
  rw [ratingOf, read_ratedTable_ne hhome haway, ratingOf]

omit [Field R] [LinearOrder R] in
/-- Writes under different names commute. -/
theorem write_comm {name other : String} (h : name ≠ other) (x y : R) (ratings : RatingTable R) :
    (ratings.write name x).write other y = (ratings.write other y).write name x := by
  refine Directory.ext_read fun team => ?_
  by_cases hname : team = name
  · subst hname
    rw [Directory.read_write_ne h, Directory.read_write_self, Directory.read_write_self]
  · rw [Directory.read_write_ne hname]
    by_cases hother : team = other
    · rw [hother, Directory.read_write_self, Directory.read_write_self]
    · rw [Directory.read_write_ne hother, Directory.read_write_ne hname,
        Directory.read_write_ne hother]

/-- A match is rated as before, after one without a common club. -/
theorem ratedTable_after {a b : MatchRow} (h : ¬ sharesClub a b) (ratings : RatingTable R) :
    ratedTable host k advantage (ratedTable host k advantage ratings b) a =
      ((ratedTable host k advantage ratings b).write a.homeTeam
        (ratingOf ratings a.homeTeam + deltaOf host k advantage ratings a)).write a.awayTeam
          (ratingOf ratings a.awayTeam - deltaOf host k advantage ratings a) := by
  simp only [sharesClub, not_or] at h
  obtain ⟨hhh, hha, hah, haa⟩ := h
  have hhome : ratingOf (ratedTable host k advantage ratings b) a.homeTeam =
      ratingOf ratings a.homeTeam := ratingOf_ratedTable_ne hhh hha
  have haway : ratingOf (ratedTable host k advantage ratings b) a.awayTeam =
      ratingOf ratings a.awayTeam := ratingOf_ratedTable_ne hah haa
  have hdelta : deltaOf host k advantage (ratedTable host k advantage ratings b) a =
      deltaOf host k advantage ratings a := by
    rw [deltaOf, hhome, haway, deltaOf]
  rw [ratedTable, hhome, haway, hdelta]

/-- **Matches without a common club commute.** -/
theorem ratedTable_comm {a b : MatchRow} (h : ¬ sharesClub a b) (ratings : RatingTable R) :
    ratedTable host k advantage (ratedTable host k advantage ratings b) a =
      ratedTable host k advantage (ratedTable host k advantage ratings a) b := by
  rw [ratedTable_after h, ratedTable_after fun hba => h (sharesClub_symm hba)]
  simp only [sharesClub, not_or] at h
  obtain ⟨hhh, hha, hah, haa⟩ := h
  simp only [ratedTable]
  rw [write_comm (Ne.symm hha), write_comm (Ne.symm hhh), write_comm (Ne.symm haa),
    write_comm (Ne.symm hah)]

/-! ## Runs of matches -/

theorem rateAll_nil (ratings : Except RatingError (RatingTable R)) :
    rateAll host k advantage [] ratings = ratings := rfl

theorem rateAll_cons (r : MatchRow) (rows : List MatchRow)
    (ratings : Except RatingError (RatingTable R)) :
    rateAll host k advantage (r :: rows) ratings =
      rateAll host k advantage rows (ratings >>= fun table => rateMatch host k advantage table r) :=
  rfl

theorem rateAll_error (rows : List MatchRow) (e : RatingError) :
    rateAll host k advantage rows (.error e) = .error e := by
  induction rows with
  | nil => rfl
  | cons r rows ih => exact ih

/-- **Two orders of the same matches come to the same ratings** where those with a common club stand
in one order. -/
theorem rateAll_eq_of_ordered {before : MatchRow → MatchRow → Prop}
    (hasymm : ∀ {a b}, before a b → ¬ before b a) {l₁ l₂ : List MatchRow} (hperm : l₁.Perm l₂)
    (h₁ : l₁.Pairwise fun a b => sharesClub a b → before a b)
    (h₂ : l₂.Pairwise fun a b => sharesClub a b → before a b)
    (ratings : Except RatingError (RatingTable R)) :
    rateAll host k advantage l₁ ratings = rateAll host k advantage l₂ ratings := by
  refine foldl_eq_of_ordered sharesClub_symm hasymm (fun {a b} hab x => ?_) hperm h₁ h₂ ratings
  cases x with
  | error e => rfl
  | ok table =>
      simp only [bind, Except.bind, rateMatch_eq]
      by_cases ha : Rateable a
      · by_cases hb : Rateable b
        · simp only [if_pos ha, if_pos hb, ratedTable_comm hab]
        · simp only [if_pos ha, if_neg hb]
      · by_cases hb : Rateable b
        · simp only [if_neg ha, if_pos hb]
        · simp only [if_neg ha, if_neg hb]

/-! ## The sum of the ratings -/

omit [LinearOrder R] in
/-- What a club is above the first rating, when it is put in a table. -/
theorem sum_setField {c : R} {name : String} {v : R} {fields : List (String × R)}
    (hsorted : KeysSorted fields) :
    ((setField name v fields).map fun f => f.2 - c).sum =
      (fields.map fun f => f.2 - c).sum + (v - (getField name fields).getD c) := by
  induction fields with
  | nil => simp [setField, getField]
  | cons field rest ih =>
      obtain ⟨key, old⟩ := field
      obtain ⟨hlt, hrest⟩ := keysSorted_cons.mp hsorted
      unfold setField
      split_ifs with hbefore heq
      · have hnone : getField name ((key, old) :: rest) = none := by
          rw [getField_eq_none, List.map_cons, List.mem_cons, not_or]
          exact ⟨hbefore.ne, fun hmem => (hbefore.trans (hlt _ hmem)).ne rfl⟩
        rw [hnone, List.map_cons, List.sum_cons, Option.getD_none]
        ring
      · subst heq
        simp only [List.map_cons, List.sum_cons, getField, if_true, Option.getD_some]
        ring
      · simp only [List.map_cons, List.sum_cons, ih hrest, getField, if_neg heq]
        ring

/-- How far the ratings are above the first rating of each club, all together. -/
def surplus (ratings : RatingTable R) : R := (ratings.files.map fun f => f.2 - eloInitial).sum

omit [LinearOrder R] in
theorem surplus_write (ratings : RatingTable R) (team : String) (v : R) :
    surplus (ratings.write team v) = surplus ratings + (v - ratingOf ratings team) :=
  sum_setField ratings.sorted

omit [LinearOrder R] in
theorem sum_ratings (ratings : RatingTable R) : (ratings.files.map Prod.snd).sum =
    eloInitial * ratings.files.length + surplus ratings := by
  rw [surplus]
  induction ratings.files with
  | nil => simp
  | cons f rest ih =>
      simp only [List.map_cons, List.sum_cons, List.length_cons, Nat.cast_succ, ih]
      ring

/-- A match between two clubs moves points from one to the other. -/
theorem surplus_ratedTable {r : MatchRow} (h : r.homeTeam ≠ r.awayTeam) (ratings : RatingTable R) :
    surplus (ratedTable host k advantage ratings r) = surplus ratings := by
  have haway : ratingOf (ratings.write r.homeTeam
      (ratingOf ratings r.homeTeam + deltaOf host k advantage ratings r)) r.awayTeam =
      ratingOf ratings r.awayTeam := by
    rw [ratingOf, Directory.read_write_ne h.symm, ratingOf]
  rw [ratedTable, surplus_write, surplus_write, haway]
  ring

/-- **The ratings of a replay add up** to the first rating of every club. -/
theorem surplus_rateAll {rows : List MatchRow} (hrows : ∀ r ∈ rows, r.homeTeam ≠ r.awayTeam)
    {start ratings : RatingTable R} (h : rateAll host k advantage rows (.ok start) = .ok ratings) :
    surplus ratings = surplus start := by
  induction rows generalizing start with
  | nil => rw [Except.ok.inj h]
  | cons r rows ih =>
      rw [List.forall_mem_cons] at hrows
      rw [rateAll_cons] at h
      change rateAll host k advantage rows (rateMatch host k advantage start r) = .ok ratings at h
      rw [rateMatch_eq] at h
      split_ifs at h with hrate
      · rw [ih hrows.2 h, surplus_ratedTable hrows.1]
      · rw [rateAll_error] at h
        cases h

/-! ## The pass -/

/-- The pass over some matches. -/
def passAll (host : EloHost R) (rows : List (MatchRow × Int)) (w : Except RatingError (Replay R)) :
    Except RatingError (Replay R) :=
  rows.foldl (fun w p => w >>= fun w => w.visit host p) w

theorem passAll_error (rows : List (MatchRow × Int)) (e : RatingError) :
    passAll host rows (.error e) = .error e := by
  induction rows with
  | nil => rfl
  | cons p rows ih => exact ih

/-- The ratings after some matches, as the pass rates them. -/
def ratingsAfter (host : EloHost R) (rows : List (MatchRow × Int)) (ratings : RatingTable R) :
    Except RatingError (RatingTable R) :=
  rateAll host eloKFactor eloHomeAdvantage (rows.map Prod.fst) (.ok ratings)

theorem visit_ok {w next : Replay R} {p : MatchRow × Int} (h : w.visit host p = .ok next) :
    rateMatch host eloKFactor eloHomeAdvantage w.ratings p.1 = .ok next.ratings ∧
      next.snapshots = w.snapshots ++ (w.pending.takeWhile (· < p.2)).map (fun _ => w.ratings) ∧
        next.pending = w.pending.dropWhile (· < p.2) := by
  obtain ⟨ratings, hratings, heq⟩ := bind_ok_iff.mp h
  obtain rfl := Except.ok.inj heq
  exact ⟨hratings, rfl, rfl⟩

/-- A match is gone through when it is rated. -/
theorem map_ratings_visit (w : Replay R) (p : MatchRow × Int) :
    (w.visit host p).map Replay.ratings =
      rateMatch host eloKFactor eloHomeAdvantage w.ratings p.1 := by
  unfold Replay.visit
  change ((rateMatch host eloKFactor eloHomeAdvantage w.ratings p.1 >>= _).map _ :) = _
  cases rateMatch host eloKFactor eloHomeAdvantage w.ratings p.1 with
  | error e => rfl
  | ok ratings => rfl

/-- **The ratings of a pass are those of its matches.** -/
theorem map_ratings_passAll (rows : List (MatchRow × Int)) (w : Replay R) :
    (passAll host rows (.ok w)).map Replay.ratings = ratingsAfter host rows w.ratings := by
  induction rows generalizing w with
  | nil => rfl
  | cons p rows ih =>
      rw [ratingsAfter, List.map_cons, rateAll_cons]
      change (passAll host rows (w.visit host p)).map Replay.ratings =
        rateAll host eloKFactor eloHomeAdvantage _
          (rateMatch host eloKFactor eloHomeAdvantage w.ratings p.1)
      rw [← map_ratings_visit]
      cases w.visit host p with
      | error e =>
          rw [passAll_error]
          exact (rateAll_error _ e).symm
      | ok next => exact ih next

/-- What is left of sorted checkpoints after those before an instant is not before it. -/
theorem le_of_mem_dropWhile {instant : Int} {checkpoints : List Int}
    (h : checkpoints.Pairwise (· ≤ ·)) {c : Int} (hc : c ∈ checkpoints.dropWhile (· < instant)) :
    instant ≤ c := by
  induction checkpoints with
  | nil => exact absurd hc List.not_mem_nil
  | cons d rest ih =>
      rw [List.pairwise_cons] at h
      by_cases hd : d < instant
      · rw [List.dropWhile_cons_of_pos (by simpa using hd)] at hc
        exact ih h.2 hc
      · rw [List.dropWhile_cons_of_neg (by simpa using hd)] at hc
        rcases List.mem_cons.mp hc with rfl | hc
        · exact not_lt.mp hd
        · exact (not_lt.mp hd).trans (h.1 c hc)

/-- **What a pass notes** at a checkpoint are the ratings after the matches up to it. -/
theorem passAll_ok {rows : List (MatchRow × Int)} {w next : Replay R}
    (hrows : rows.Pairwise fun p q => p.2 ≤ q.2) (hpending : w.pending.Pairwise (· ≤ ·))
    (h : passAll host rows (.ok w) = .ok next) :
    ∃ noted, next.finish.snapshots = w.snapshots ++ noted ∧
      List.Forall₂ (fun c table =>
        ratingsAfter host (rows.takeWhile (·.2 ≤ c)) w.ratings = .ok table) w.pending noted := by
  induction rows generalizing w with
  | nil =>
      obtain rfl := Except.ok.inj h
      refine ⟨_, rfl, ?_⟩
      rw [List.forall₂_map_right_iff]
      exact List.forall₂_same.mpr fun c _ => rfl
  | cons p rows ih =>
      rw [List.pairwise_cons] at hrows
      have hstep : passAll host rows (w.visit host p) = .ok next := h
      cases hvisit : w.visit host p with
      | error e =>
          rw [hvisit, passAll_error] at hstep
          cases hstep
      | ok first =>
          rw [hvisit] at hstep
          obtain ⟨hrate, hsnapshots, hrest⟩ := visit_ok hvisit
          have hfirst : first.pending.Pairwise (· ≤ ·) := by
            rw [hrest]
            exact hpending.sublist (List.dropWhile_sublist _)
          obtain ⟨noted, hnoted, hforall⟩ := ih hrows.2 hfirst hstep
          -- the first match, and the rest after it
          have hcons : ∀ later, ratingsAfter host (p :: later) w.ratings =
              ratingsAfter host later first.ratings := by
            intro later
            rw [ratingsAfter, List.map_cons, rateAll_cons, ratingsAfter, ← hrate]
            rfl
          refine ⟨(w.pending.takeWhile (· < p.2)).map (fun _ => w.ratings) ++ noted, ?_, ?_⟩
          · rw [hnoted, hsnapshots, List.append_assoc]
          · rw [← List.takeWhile_append_dropWhile (p := (· < p.2)) (l := w.pending)]
            refine List.rel_append ?_ ?_
            · rw [List.takeWhile_append_dropWhile, List.forall₂_map_right_iff]
              refine List.forall₂_same.mpr fun c hc => ?_
              have hlt : c < p.2 := by simpa using List.mem_takeWhile_imp hc
              rw [List.takeWhile_cons_of_neg (by simpa using hlt)]
              rfl
            · rw [hrest] at hforall
              rw [List.forall₂_iff_zip] at hforall ⊢
              refine ⟨hforall.1, fun {c table} hmem => ?_⟩
              have htable := hforall.2 hmem
              have hle : p.2 ≤ c := le_of_mem_dropWhile hpending (List.of_mem_zip hmem).1
              rw [List.takeWhile_cons_of_pos (by simpa using hle), hcons]
              exact htable

/-! ## The clubs rated -/

omit [Field R] [LinearOrder R] in
theorem length_setField_le {name : String} {v : R} (fields : List (String × R)) :
    (setField name v fields).length ≤ fields.length + 1 := by
  induction fields with
  | nil => exact le_rfl
  | cons field rest ih =>
      unfold setField
      split_ifs
      · exact le_rfl
      · exact Nat.le_succ _
      · exact Nat.succ_le_succ ih

/-- A match brings at most two clubs into the table. -/
theorem length_files_rateAll {rows : List MatchRow} {start ratings : RatingTable R}
    (h : rateAll host k advantage rows (.ok start) = .ok ratings) :
    ratings.files.length ≤ start.files.length + 2 * rows.length := by
  induction rows generalizing start with
  | nil => rw [Except.ok.inj h, List.length_nil, Nat.mul_zero, Nat.add_zero]
  | cons r rows ih =>
      rw [rateAll_cons] at h
      change rateAll host k advantage rows (rateMatch host k advantage start r) = .ok ratings at h
      cases hrate : rateMatch host k advantage start r with
      | error e =>
          rw [hrate, rateAll_error] at h
          cases h
      | ok next =>
          rw [hrate] at h
          obtain ⟨delta, rfl⟩ := rateMatch_ok hrate
          have hlater := ih h
          have haway := @length_setField_le _ r.awayTeam (ratingOf start r.awayTeam - delta)
            (start.write r.homeTeam (ratingOf start r.homeTeam + delta)).files
          have hhome := @length_setField_le _ r.homeTeam (ratingOf start r.homeTeam + delta)
            start.files
          simp only [Directory.write, List.length_cons] at hlater haway hhome ⊢
          omega

/-- A club of no match keeps its rating. -/
theorem read_rateAll {rows : List MatchRow} {team : String}
    (hrows : ∀ r ∈ rows, appears team r = false) {start ratings : RatingTable R}
    (h : rateAll host k advantage rows (.ok start) = .ok ratings) :
    ratings.read team = start.read team := by
  induction rows generalizing start with
  | nil => rw [Except.ok.inj h]
  | cons r rows ih =>
      rw [List.forall_mem_cons] at hrows
      rw [rateAll_cons] at h
      change rateAll host k advantage rows (rateMatch host k advantage start r) = .ok ratings at h
      rw [rateMatch_eq] at h
      split_ifs at h with hrate
      · have hnot : ¬ (r.homeTeam = team ∨ r.awayTeam = team) := by
          simpa [appears] using hrows.1
        rw [ih hrows.2 h, read_ratedTable_ne (fun he => hnot (.inl he.symm))
          fun he => hnot (.inr he.symm)]
      · rw [rateAll_error] at h
        cases h

end Golavo.Forecast
