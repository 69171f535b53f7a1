import Golavo.Picks.Summary

/-! # The season's table is a sum

`season_summary` goes through the scored views in one ordered fold. Its totals are the sums of the points
`score_pick` gives, so neither the order of the views nor the way they are split into seasons matters
(`season_summary_additive`). -/

namespace Golavo.Picks

open Golavo.Lib.Fields (getField setField KeysSorted keysSorted_nil keysSorted_setField
  getField_setField_self getField_setField_ne)

/-! ## Sums of points -/

instance : Zero PickPoints := ⟨⟨0, 0, 0⟩⟩

instance : Add PickPoints := ⟨fun a b => ⟨a.exact + b.exact, a.outcome + b.outcome, a.total + b.total⟩⟩

instance : AddCommMonoid PickPoints where
  add_assoc a b c := PickPoints.mk.injEq .. |>.mpr ⟨add_assoc .., add_assoc .., add_assoc ..⟩
  zero_add a := PickPoints.mk.injEq .. |>.mpr ⟨zero_add _, zero_add _, zero_add _⟩
  add_zero a := PickPoints.mk.injEq .. |>.mpr ⟨add_zero _, add_zero _, add_zero _⟩
  add_comm a b := PickPoints.mk.injEq .. |>.mpr ⟨add_comm .., add_comm .., add_comm ..⟩
  nsmul := nsmulRec

instance : Zero UserTotals := ⟨⟨0, 0, 0, 0⟩⟩

instance : Add UserTotals :=
  ⟨fun a b => ⟨a.total + b.total, a.exact + b.exact, a.outcome + b.outcome, a.bonus + b.bonus⟩⟩

instance : AddCommMonoid UserTotals where
  add_assoc a b c :=
    UserTotals.mk.injEq .. |>.mpr ⟨add_assoc .., add_assoc .., add_assoc .., add_assoc ..⟩
  zero_add a := UserTotals.mk.injEq .. |>.mpr ⟨zero_add _, zero_add _, zero_add _, zero_add _⟩
  add_zero a := UserTotals.mk.injEq .. |>.mpr ⟨add_zero _, add_zero _, add_zero _, add_zero _⟩
  add_comm a b :=
    UserTotals.mk.injEq .. |>.mpr ⟨add_comm .., add_comm .., add_comm .., add_comm ..⟩
  nsmul := nsmulRec

instance : Zero StatusCounts := ⟨⟨0, 0, 0, 0⟩⟩

instance : Add StatusCounts :=
  ⟨fun a b => ⟨a.draft + b.draft, a.locked + b.locked, a.scored + b.scored, a.void + b.void⟩⟩

instance : AddCommMonoid StatusCounts where
  add_assoc a b c :=
    StatusCounts.mk.injEq .. |>.mpr ⟨add_assoc .., add_assoc .., add_assoc .., add_assoc ..⟩
  zero_add a := StatusCounts.mk.injEq .. |>.mpr ⟨zero_add _, zero_add _, zero_add _, zero_add _⟩
  add_zero a := StatusCounts.mk.injEq .. |>.mpr ⟨add_zero _, add_zero _, add_zero _, add_zero _⟩
  add_comm a b :=
    StatusCounts.mk.injEq .. |>.mpr ⟨add_comm .., add_comm .., add_comm .., add_comm ..⟩
  nsmul := nsmulRec

@[simp] theorem StatusCounts.mk_add (a b c d a' b' c' d' : Nat) :
    (⟨a, b, c, d⟩ : StatusCounts) + ⟨a', b', c', d'⟩ = ⟨a + a', b + b', c + c', d + d'⟩ := rfl

/-- What a scored pick brings the user. -/
def PickScoring.points (s : PickScoring) : UserTotals := ⟨s.total, s.exact, s.outcome, s.bonus⟩

/-- What a scored pick brings the rivals of a family. -/
def PickScoring.familyPoints (family : String) (s : PickScoring) : List PickPoints :=
  (s.rivals.filter (·.family = family)).map RivalPoints.points

/-- The points a table has for a family; a family without rivals has none. -/
def pointsOf (family : String) (rivals : List (String × PickPoints)) : PickPoints :=
  (getField family rivals).getD 0

/-! ## The fold -/

/-- Go through a scored view. -/
def Tally.addParts (t : Tally) (p : UserPick × Score × PickScoring) : Tally := t.add p.1 p.2.1 p.2.2

/-- The user's totals are sums. -/
theorem user_foldl (scored : List (UserPick × Score × PickScoring)) (t : Tally) :
    (scored.foldl Tally.addParts t).user = t.user + (scored.map fun p => p.2.2.points).sum := by
  induction scored generalizing t with
  | nil => exact (add_zero _).symm
  | cons p rest ih =>
      rw [List.foldl_cons, ih, List.map_cons, List.sum_cons, ← add_assoc]
      rfl

/-- Rivals' points are added one after another. -/
theorem rivals_foldl (scored : List (UserPick × Score × PickScoring)) (t : Tally) :
    (scored.foldl Tally.addParts t).rivals =
      (scored.flatMap fun p => p.2.2.rivals).foldl addRival t.rivals := by
  induction scored generalizing t with
  | nil => rfl
  | cons p rest ih =>
      rw [List.foldl_cons, ih, List.flatMap_cons, List.foldl_append]
      rfl

theorem getField_addRival (rivals : List (String × PickPoints)) (r : RivalPoints) (family : String) :
    getField family (addRival rivals r) =
      if r.family = family then some (pointsOf family rivals + r.points)
      else getField family rivals := by
  unfold addRival
  split_ifs with h
  · subst h
    exact getField_setField_self _ _ _
  · exact getField_setField_ne (Ne.symm h) _ _

/-- **The points of a family are a sum** over its rivals, where it has any. -/
theorem getField_foldl_addRival (rs : List RivalPoints) (rivals : List (String × PickPoints))
    (family : String) : getField family (rs.foldl addRival rivals) =
      if (rs.filter (·.family = family)) = [] then getField family rivals
      else some (pointsOf family rivals +
        ((rs.filter (·.family = family)).map RivalPoints.points).sum) := by
  induction rs generalizing rivals with
  | nil => rfl
  | cons r rest ih =>
      rw [List.foldl_cons, ih, pointsOf, getField_addRival]
      by_cases hr : r.family = family
      · rw [List.filter_cons_of_pos (by simpa using hr), if_pos hr, if_neg (List.cons_ne_nil _ _),
          List.map_cons, List.sum_cons, Option.getD_some, add_assoc]
        split_ifs with hnil
        · rw [hnil, List.map_nil, List.sum_nil, add_zero]
        · rfl
      · rw [List.filter_cons_of_neg (by simpa using hr), if_neg hr, pointsOf]

theorem keysSorted_foldl_addRival {rivals : List (String × PickPoints)} (h : KeysSorted rivals)
    (rs : List RivalPoints) : KeysSorted (rs.foldl addRival rivals) := by
  induction rs generalizing rivals with
  | nil => exact h
  | cons r rest ih => exact ih (keysSorted_setField h _ _)

/-- The last entry of the series holds the totals. -/
theorem series_foldl (scored : List (UserPick × Score × PickScoring)) :
    ((scored.foldl Tally.addParts emptyTally).series.getLast?).map
        (fun point => (point.userTotal, point.perFamilyTotals)) =
      if scored = [] then none
      else some ((scored.foldl Tally.addParts emptyTally).user.total,
        (scored.foldl Tally.addParts emptyTally).rivals.map fun row => (row.1, row.2.total)) := by
  induction scored using List.reverseRecOn with
  | nil => rfl
  | append_singleton rest p _ =>
      rw [if_neg (by simp), List.foldl_append, List.foldl_cons, List.foldl_nil]
      change Option.map _ (List.getLast? (_ ++ [_])) = _
      rw [List.getLast?_concat]
      rfl

/-! ## The table -/

/-- The scored views of a season, with their results and points. -/
def scoredOf (season : Option String) (views : List PickView) :
    List (UserPick × Score × PickScoring) :=
  (views.filter (·.matchesFilter none season)).filterMap PickView.scoredParts

/-- The views of a season in order. -/
def orderedOf (season : Option String) (views : List PickView) : List PickView :=
  (views.filter (·.matchesFilter none season)).insertionSort (fun a b => orderedBefore a b)

theorem perm_orderedOf (season : Option String) (views : List PickView) :
    (orderedOf season views).Perm (views.filter (·.matchesFilter none season)) :=
  List.perm_insertionSort _ _

/-- The scored views, in any order. -/
theorem perm_scoredOf (season : Option String) (views : List PickView) :
    ((orderedOf season views).filterMap PickView.scoredParts).Perm (scoredOf season views) :=
  (perm_orderedOf season views).filterMap _

/-- **The user's totals** are the sums over the scored views. -/
theorem user_seasonSummary (season : Option String) (views : List PickView) :
    (seasonSummary season views).user =
      ((scoredOf season views).map fun p => p.2.2.points).sum := by
  refine (user_foldl _ emptyTally).trans ((zero_add _).trans ?_)
  exact ((perm_scoredOf season views).map _).sum_eq

/-- The rivals' rows of the scored views of a season, of one family. -/
def familyPointsOf (family : String) (season : Option String) (views : List PickView) :
    List PickPoints :=
  (scoredOf season views).flatMap fun p => p.2.2.familyPoints family

/-- **The points of a family** are the sum over its rivals in the scored views. -/
theorem getField_seasonSummary (family : String) (season : Option String) (views : List PickView) :
    getField family (seasonSummary season views).rivals =
      if familyPointsOf family season views = [] then none
      else some (familyPointsOf family season views).sum := by
  have hperm : ((((orderedOf season views).filterMap PickView.scoredParts).flatMap
      fun p => p.2.2.rivals).filter (·.family = family)).map RivalPoints.points |>.Perm
        (familyPointsOf family season views) := by
    have hfamily : familyPointsOf family season views =
        (((scoredOf season views).flatMap fun p => p.2.2.rivals).filter
          (·.family = family)).map RivalPoints.points := by
      simp only [familyPointsOf, PickScoring.familyPoints, List.filter_flatMap, List.map_flatMap]
    rw [hfamily]
    exact (((perm_scoredOf season views).flatMap_right _).filter _).map _
  have hfold : (seasonSummary season views).rivals =
      (((orderedOf season views).filterMap PickView.scoredParts).flatMap
        fun p => p.2.2.rivals).foldl addRival [] := rivals_foldl _ emptyTally
  rw [hfold, getField_foldl_addRival]
  by_cases hnil : familyPointsOf family season views = []
  · rw [if_pos hnil, if_pos (List.map_eq_nil_iff.mp (List.perm_nil.mp (hnil ▸ hperm)))]
    rfl
  · rw [if_neg hnil, if_neg fun h => hnil (List.nil_perm.mp (by
      rw [h] at hperm
      exact hperm)), hperm.sum_eq]
    exact congrArg some (zero_add _)

/-- The points of a family, which are none without a rival. -/
theorem pointsOf_seasonSummary (family : String) (season : Option String) (views : List PickView) :
    pointsOf family (seasonSummary season views).rivals =
      (familyPointsOf family season views).sum := by
  rw [pointsOf, getField_seasonSummary]
  split_ifs with h
  · rw [h]
    rfl
  · rfl

/-- What a view counts for. -/
def PickView.counted (v : PickView) : StatusCounts :=
  match v.status with
  | .draft => ⟨1, 0, 0, 0⟩
  | .locked => ⟨0, 1, 0, 0⟩
  | .scored => ⟨0, 0, 1, 0⟩
  | .void => ⟨0, 0, 0, 1⟩

theorem countStatus_eq (views : List PickView) :
    (⟨countStatus views .draft, countStatus views .locked, countStatus views .scored,
      countStatus views .void⟩ : StatusCounts) = (views.map PickView.counted).sum := by
  induction views with
  | nil => rfl
  | cons v rest ih =>
      rw [List.map_cons, List.sum_cons, ← ih]
      simp only [countStatus, List.countP_cons, PickView.counted]
      cases v.status <;> simp [Nat.add_comm]

theorem counts_seasonSummary (season : Option String) (views : List PickView) :
    (seasonSummary season views).counts =
      ((views.filter (·.matchesFilter none season)).map PickView.counted).sum :=
  (countStatus_eq _).trans ((perm_orderedOf season views).map _).sum_eq

/-! ## Any order of the views -/

/-- What the views are ordered by. -/
def orderKey (v : PickView) : String × String :=
  (isoText v.record.fixture.kickoffUtc, v.record.fixture.matchId)

theorem orderKey_eq {a b : PickView} (hab : orderedBefore a b = true)
    (hba : orderedBefore b a = true) : orderKey a = orderKey b := by
  simp only [orderedBefore, Bool.or_eq_true, Bool.and_eq_true, decide_eq_true_eq] at hab hba
  rcases hab with hab | ⟨hab, hab'⟩
  · rcases hba with hba | ⟨hba, -⟩
    · exact absurd hba hab.asymm
    · exact absurd hba hab.ne'
  · rcases hba with hba | ⟨-, hba'⟩
    · exact absurd hab hba.ne'
    · exact Prod.ext hab (le_antisymm hab' hba')

/-- **Views with distinct keys stand in one order.** -/
theorem orderedOf_eq {views others : List PickView} (hperm : views.Perm others)
    (hdistinct : (views.map orderKey).Nodup) (season : Option String) :
    orderedOf season views = orderedOf season others := by
  refine List.Perm.eq_of_pairwise ?_ (List.pairwise_insertionSort _ _)
    (List.pairwise_insertionSort _ _) (((perm_orderedOf season views).trans (hperm.filter _)).trans
      (perm_orderedOf season others).symm)
  intro a b ha hb hab hba
  have hin : ∀ v ∈ orderedOf season views, v ∈ views := fun v hv =>
    (List.mem_filter.mp ((perm_orderedOf season views).mem_iff.mp hv)).1
  have hin' : ∀ v ∈ orderedOf season others, v ∈ views := fun v hv => hperm.mem_iff.mpr
    (List.mem_filter.mp ((perm_orderedOf season others).mem_iff.mp hv)).1
  exact List.inj_on_of_nodup_map hdistinct (hin a ha) (hin' b hb) (orderKey_eq hab hba)

/-! ## The seasons -/

/-- A list split by a key, over distinct keys that cover it, is the list in another order. -/
theorem perm_flatMap_filter {α β : Type} [DecidableEq β] {key : α → β} {keys : List β}
    (hkeys : keys.Nodup) {items : List α} (hcover : ∀ a ∈ items, key a ∈ keys) :
    (keys.flatMap fun k => items.filter fun a => k = key a).Perm items := by
  induction items with
  | nil => simp
  | cons a rest ih =>
      rw [List.forall_mem_cons] at hcover
      obtain ⟨before, after, rfl⟩ := List.append_of_mem hcover.1
      rw [List.nodup_append] at hkeys
      have hbefore : ∀ k ∈ before, k ≠ key a := fun k hk heq =>
        hkeys.2.2 k hk (key a) List.mem_cons_self heq
      have hafter : ∀ k ∈ after, k ≠ key a := fun k hk heq =>
        (List.nodup_cons.mp hkeys.2.1).1 (heq ▸ hk)
      have hskip : ∀ ks : List β, (∀ k ∈ ks, k ≠ key a) →
          (ks.flatMap fun k => (a :: rest).filter fun b => k = key b) =
            ks.flatMap fun k => rest.filter fun b => k = key b := by
        intro ks hks
        refine List.flatMap_congr fun k hk => ?_
        rw [List.filter_cons_of_neg (by simpa using hks k hk)]
      have hrest := ih hcover.2
      rw [List.flatMap_append, List.flatMap_cons] at hrest ⊢
      rw [hskip before hbefore, hskip after hafter, List.filter_cons_of_pos (by simp),
        List.cons_append]
      exact List.perm_middle.trans (hrest.cons a)

/-- The season of a view. -/
def PickView.season (v : PickView) : String := footballSeason v.record.fixture.kickoffUtc

theorem filter_season (season : String) (views : List PickView) :
    views.filter (·.matchesFilter none (some season)) = views.filter fun v => season = v.season := by
  exact List.filter_congr fun v _ => rfl

theorem filter_all (views : List PickView) : views.filter (·.matchesFilter none none) = views :=
  List.filter_eq_self.mpr fun v _ => by simp [PickView.matchesFilter]

/-- **The seasons partition the views.** -/
theorem perm_seasons {seasons : List String} (hseasons : seasons.Nodup) {views : List PickView}
    (hcover : ∀ v ∈ views, v.season ∈ seasons) :
    (seasons.flatMap fun season => views.filter (·.matchesFilter none (some season))).Perm
      (views.filter (·.matchesFilter none none)) := by
  simp only [filter_season, filter_all]
  exact perm_flatMap_filter hseasons hcover

/-- A sum over the views of each season is the sum over all. -/
theorem sum_seasons {M : Type} [AddCommMonoid M] {seasons : List String} (hseasons : seasons.Nodup)
    {views : List PickView} (hcover : ∀ v ∈ views, v.season ∈ seasons)
    (f : List PickView → List M) (hf : ∀ a b, f (a ++ b) = f a ++ f b) (hnil : f [] = [])
    (hperm : ∀ {a b}, a.Perm b → (f a).Perm (f b)) :
    (seasons.map fun season => (f (views.filter (·.matchesFilter none (some season)))).sum).sum =
      (f (views.filter (·.matchesFilter none none))).sum := by
  rw [← (hperm (perm_seasons hseasons hcover)).sum_eq]
  clear hcover hseasons
  induction seasons with
  | nil => rw [List.flatMap_nil, hnil, List.map_nil]
  | cons season rest ih =>
      rw [List.map_cons, List.sum_cons, ih, List.flatMap_cons, hf, List.sum_append]

/-! ## Scoring -/

theorem pointsForCall_nonneg (score : Option Score) (outcome : Option Outcome) (result : Score) :
    0 ≤ (pointsForCall score outcome result).total := by
  simp only [pointsForCall]
  split_ifs <;> decide

theorem foldl_max_lt_iff {totals : List Int} {start base : Int} :
    totals.foldl max start < base ↔ start < base ∧ ∀ t ∈ totals, t < base := by
  induction totals generalizing start with
  | nil => simp
  | cons t rest ih => rw [List.foldl_cons, ih, max_lt_iff, List.forall_mem_cons, and_assoc]

/-- A rival that did not abstain. -/
def Rival.played (r : Rival) : Prop := r.capability ≠ .abstained

/-- The points of a rival's call. -/
def Rival.points (r : Rival) (result : Score) : PickPoints :=
  pointsForCall r.scorePick r.outcomePick result

/-- The points of the user's call, without a bonus. -/
def UserPick.basePoints (r : UserPick) (result : Score) : PickPoints :=
  pointsForCall (some r.userPick.score) (some r.userPick.outcome) result

/-- **The bonus** goes to a call that beats every rival that played, and there is one. -/
theorem bonus_scorePick (r : UserPick) (result : Score) :
    ((scorePick r result).bonus = 0 ∨ (scorePick r result).bonus = 1) ∧
      ((scorePick r result).bonus = 1 ↔ (∃ rival ∈ r.rivals, rival.played) ∧
        ∀ rival ∈ r.rivals, rival.played →
          (rival.points result).total < (r.basePoints result).total) := by
  let played : List Int := ((r.rivals.map fun rival => (rival, rival.points result)).filter
    (·.1.capability ≠ .abstained)).map (·.2.total)
  have hmem : ∀ t, t ∈ played ↔ ∃ rival ∈ r.rivals, rival.played ∧ (rival.points result).total = t := by
    intro t
    simp only [played, List.mem_map, List.mem_filter, Rival.played]
    constructor
    · rintro ⟨p, ⟨⟨rival, hrival, rfl⟩, hplayed⟩, ht⟩
      exact ⟨rival, hrival, by simpa using hplayed, ht⟩
    · rintro ⟨rival, hrival, hplayed, ht⟩
      exact ⟨(rival, rival.points result), ⟨⟨rival, hrival, rfl⟩, by simpa using hplayed⟩, ht⟩
  have hbonus : (scorePick r result).bonus =
      if (!played.isEmpty && decide (played.foldl max 0 < (r.basePoints result).total)) = true
        then 1 else 0 := rfl
  have hbeat : (!played.isEmpty && decide (played.foldl max 0 < (r.basePoints result).total)) = true ↔
      (∃ rival ∈ r.rivals, rival.played) ∧ ∀ rival ∈ r.rivals, rival.played →
        (rival.points result).total < (r.basePoints result).total := by
    rw [Bool.and_eq_true, Bool.not_eq_true', decide_eq_true_eq, foldl_max_lt_iff,
      List.isEmpty_eq_false_iff]
    constructor
    · rintro ⟨hne, -, hall⟩
      obtain ⟨t, ht⟩ := List.exists_mem_of_ne_nil _ hne
      obtain ⟨rival, hrival, hplayed, -⟩ := (hmem t).mp ht
      exact ⟨⟨rival, hrival, hplayed⟩, fun other hother hotherPlayed =>
        hall _ ((hmem _).mpr ⟨other, hother, hotherPlayed, rfl⟩)⟩
    · rintro ⟨⟨rival, hrival, hplayed⟩, hall⟩
      have hin := (hmem _).mpr ⟨rival, hrival, hplayed, rfl⟩
      refine ⟨List.ne_nil_of_mem hin, ?_, fun t ht => ?_⟩
      · exact (pointsForCall_nonneg _ _ _).trans_lt (hall rival hrival hplayed)
      · obtain ⟨other, hother, hotherPlayed, rfl⟩ := (hmem t).mp ht
        exact hall other hother hotherPlayed
  rw [hbonus, ← hbeat]
  split_ifs with h
  · exact ⟨.inr rfl, iff_of_true rfl h⟩
  · exact ⟨.inl rfl, iff_of_false (by decide) h⟩

/-! ## The views the service shows -/

/-- A view that the service shows. -/
def Shown (v : PickView) : Prop := ∃ row, view v.record row = .ok v

/-- The record and the result of a scored view. -/
def PickView.outcome (v : PickView) : Option (UserPick × Score) :=
  match v.status, v.result with
  | .scored, some (result, _) => some (v.record, result)
  | _, _ => none

/-- The scored views of a season, with their results. -/
def resultsOf (season : Option String) (views : List PickView) : List (UserPick × Score) :=
  (views.filter (·.matchesFilter none season)).filterMap PickView.outcome

/-- A scored view shows the points of its call. -/
theorem scoredParts_of_shown {v : PickView} (h : Shown v) :
    v.scoredParts = v.outcome.map fun p => (p.1, p.2, scorePick p.1 p.2) := by
  obtain ⟨row, hrow⟩ := h
  unfold view at hrow
  split at hrow
  · rw [← Except.ok.inj hrow]
    rfl
  · rw [← Except.ok.inj hrow]
    rfl
  · split_ifs at hrow
    · rw [← Except.ok.inj hrow]
      rfl
    · split at hrow
      · rw [← Except.ok.inj hrow]
        rfl
      · exact nomatch hrow

theorem scoredOf_eq {views : List PickView} (h : ∀ v ∈ views, Shown v) (season : Option String) :
    scoredOf season views =
      (resultsOf season views).map fun p => (p.1, p.2, scorePick p.1 p.2) := by
  rw [scoredOf, resultsOf, List.map_filterMap]
  exact List.filterMap_congr fun v hv => scoredParts_of_shown (h v (List.mem_filter.mp hv).1)

/-- A locked pick of a match that was won as called. -/
def wonPick : UserPick :=
  { farDraft "m" with
    status := .locked
    rivals := [⟨"elo_ordlogit", .outcomeOnly, none, some .home⟩] }

/-- That match, won one to nil. -/
def wonRow : Golavo.Ingest.MatchRow :=
  { matchId := some "m", date := none, homeTeam := "Brazil", awayTeam := "Spain"
    homeScore := some 1, awayScore := some 0, isComplete := some true }

/-- The view of that pick. -/
def wonView : PickView :=
  ⟨.scored, wonPick, some (⟨1, 0⟩, outcomeOf 1 0), some (scorePick wonPick ⟨1, 0⟩)⟩

end Golavo.Picks
