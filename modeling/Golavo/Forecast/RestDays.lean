import Golavo.Ingest.MatchTable
import Golavo.Lib.Fields
import Golavo.Lib.StableSort
import Mathlib.Data.Int.ConditionallyCompleteOrder
import Mathlib.Data.Prod.Lex
import Mathlib.Order.WithBot

/-! # Rest days

`schedule_rest_days` says of every row how many days each side has rested. It walks the frame in
chronological order, keeps the instant every club was last seen at, and writes what it finds at the
row's own position. The main result: it is the distance to the latest earlier row of the club
(`rest_days`). -/

namespace Golavo.Forecast

open Golavo.Lib (insertionSort_stable)
open Golavo.Lib.Fields (getField setField getField_setField_self getField_setField_ne)
open Golavo.Ingest (MatchRow)

/-! ## The chronological order -/

/-- The instant of a row's date. -/
def dateInstant (r : MatchRow) : Option Int := r.date.map Stamp.toUtc

/-- A cell in sorting order, where a blank one comes last. -/
def blankLast {α : Type} : Option α → WithTop α
  | some a => a
  | none => ⊤

/-- What rows are sorted by: the instant, then the teams, then the match id where the frame has that
column. -/
def scheduleKey (ids : Bool) (r : MatchRow) :
    WithTop Int ×ₗ String ×ₗ String ×ₗ WithTop String :=
  toLex (blankLast (dateInstant r), toLex (r.homeTeam, toLex (r.awayTeam,
    if ids then blankLast r.matchId else ⊤)))

/-- The rows of a frame with their positions, in chronological order. -/
def chronological (ids : Bool) (frame : List MatchRow) : List (MatchRow × Nat) :=
  frame.zipIdx.insertionSort fun a b => scheduleKey ids a.1 ≤ scheduleKey ids b.1

/-! ## The walk -/

/-- What the walk has found: the rest of each side by position, and when each club was last seen. -/
structure RestWalk where
  homeRest : List (Option Int)
  awayRest : List (Option Int)
  lastSeen : List (String × Option Int)

/-- The whole days from an instant to another, when they are not negative. -/
def gapDays (date previous : Option Int) : Option Int :=
  match date, previous with
  | some t, some s => if 0 ≤ (t - s) / dayNs then some ((t - s) / dayNs) else none
  | _, _ => none

/-- Write a club's rest at a position, if the club was seen before. -/
def writeRest (lastSeen : List (String × Option Int)) (team : String) (date : Option Int)
    (position : Nat) (output : List (Option Int)) : List (Option Int) :=
  match getField team lastSeen with
  | some previous => output.set position (gapDays date previous)
  | none => output

/-- Visit a row. -/
def RestWalk.visit (w : RestWalk) (row : MatchRow × Nat) : RestWalk :=
  let date := dateInstant row.1
  { homeRest := writeRest w.lastSeen row.1.homeTeam date row.2 w.homeRest
    awayRest := writeRest w.lastSeen row.1.awayTeam date row.2 w.awayRest
    lastSeen := setField row.1.awayTeam date (setField row.1.homeTeam date w.lastSeen) }

/-- The walk before the first row. -/
def RestWalk.start (n : Nat) : RestWalk := ⟨List.replicate n none, List.replicate n none, []⟩

/-- The rest of the home and the away sides, in the frame's row order (`schedule_rest_days`). -/
def scheduleRestDays (ids : Bool) (frame : List MatchRow) : List (Option Int) × List (Option Int) :=
  let walk := (chronological ids frame).foldl RestWalk.visit (.start frame.length)
  (walk.homeRest, walk.awayRest)

/-! ## What the walk knows -/

/-- Whether a club appears in a row, on either side. -/
def appears (team : String) (r : MatchRow) : Bool := r.homeTeam = team || r.awayTeam = team

/-- When a club was last seen in some rows. -/
def lastAppearance (team : String) (rows : List MatchRow) : Option (Option Int) :=
  ((rows.filter (appears team)).getLast?).map dateInstant

/-- The rest of a club in a row that comes after others. -/
def restAfter (rows : List MatchRow) (team : String) (r : MatchRow) : Option Int :=
  (lastAppearance team rows).bind (gapDays (dateInstant r))

theorem lastAppearance_append (team : String) (rows : List MatchRow) (r : MatchRow) :
    lastAppearance team (rows ++ [r]) =
      if appears team r then some (dateInstant r) else lastAppearance team rows := by
  unfold lastAppearance
  rw [List.filter_append]
  by_cases h : appears team r = true
  · simp [h]
  · simp [h]

/-- The walk has seen the clubs of the rows it has visited. -/
theorem lastSeen_walk (team : String) (n : Nat) (rows : List (MatchRow × Nat)) :
    getField team (rows.foldl RestWalk.visit (.start n)).lastSeen =
      lastAppearance team (rows.map Prod.fst) := by
  induction rows using List.reverseRecOn with
  | nil => rfl
  | append_singleton rows row ih =>
      rw [List.foldl_append, List.map_append, List.map_singleton, lastAppearance_append, ← ih]
      simp only [List.foldl_cons, List.foldl_nil, RestWalk.visit, appears]
      by_cases haway : row.1.awayTeam = team
      · simp [haway]
      · rw [getField_setField_ne (Ne.symm haway)]
        by_cases hhome : row.1.homeTeam = team
        · simp [hhome]
        · simp [getField_setField_ne (Ne.symm hhome), hhome, haway]

theorem length_writeRest (lastSeen : List (String × Option Int)) (team : String)
    (date : Option Int) (position : Nat) (output : List (Option Int)) :
    (writeRest lastSeen team date position output).length = output.length := by
  unfold writeRest
  split
  · rw [List.length_set]
  · rfl

/-- What is written stands at its position, and everything else stays. -/
theorem getElem?_writeRest (lastSeen : List (String × Option Int)) (team : String)
    (date : Option Int) (position i : Nat) (output : List (Option Int)) :
    (writeRest lastSeen team date position output)[i]? =
      if i = position ∧ (getField team lastSeen).isSome ∧ i < output.length then
        some ((getField team lastSeen).bind (gapDays date))
      else output[i]? := by
  unfold writeRest
  cases h : getField team lastSeen with
  | none => simp
  | some previous =>
      simp only [Option.isSome_some, true_and, Option.bind_some, List.getElem?_set]
      by_cases hi : position = i
      · subst hi
        by_cases hlt : position < output.length
        · simp [hlt]
        · simp [hlt]
      · rw [if_neg hi, if_neg fun hc => hi hc.1.symm]

/-- The side a rest is written for. -/
inductive Side where
  | home
  | away
  deriving DecidableEq, Repr

/-- The club of a side. -/
def Side.team (r : MatchRow) : Side → String
  | .home => r.homeTeam
  | .away => r.awayTeam

/-- The rest of a side. -/
def Side.rest (rests : List (Option Int) × List (Option Int)) : Side → List (Option Int)
  | .home => rests.1
  | .away => rests.2

/-- The rest of a side, in a walk. -/
def RestWalk.rest (w : RestWalk) (side : Side) : List (Option Int) :=
  side.rest (w.homeRest, w.awayRest)

theorem rest_visit (w : RestWalk) (row : MatchRow × Nat) (side : Side) :
    (w.visit row).rest side =
      writeRest w.lastSeen (side.team row.1) (dateInstant row.1) row.2 (w.rest side) := by
  cases side <;> rfl

@[simp] theorem rest_start (n : Nat) (side : Side) :
    (RestWalk.start n).rest side = List.replicate n none := by
  cases side <;> rfl

theorem length_rest_walk (n : Nat) (rows : List (MatchRow × Nat)) (side : Side) :
    ((rows.foldl RestWalk.visit (.start n)).rest side).length = n := by
  induction rows using List.reverseRecOn with
  | nil => simp
  | append_singleton rows row ih =>
      rw [List.foldl_append, List.foldl_cons, List.foldl_nil, rest_visit, length_writeRest, ih]

/-- A walk writes nothing at a position it does not visit. -/
theorem rest_unvisited {n i : Nat} (hi : i < n) {rows : List (MatchRow × Nat)}
    (h : i ∉ rows.map Prod.snd) (side : Side) :
    ((rows.foldl RestWalk.visit (.start n)).rest side)[i]? = some none := by
  induction rows using List.reverseRecOn with
  | nil => simp [hi]
  | append_singleton rows row ih =>
      rw [List.map_append, List.mem_append, not_or] at h
      rw [List.foldl_append, List.foldl_cons, List.foldl_nil, rest_visit, getElem?_writeRest,
        if_neg fun hc => h.2 (by simp [hc.1]), ih h.1]

/-- **A row's rest is that after the rows visited before it.** -/
theorem rest_visited {n : Nat} {before rest : List (MatchRow × Nat)} {r : MatchRow} {i : Nat}
    (hi : i < n) (hnodup : ((before ++ (r, i) :: rest).map Prod.snd).Nodup) (side : Side) :
    (((before ++ (r, i) :: rest).foldl RestWalk.visit (.start n)).rest side)[i]? =
      some (restAfter (before.map Prod.fst) (side.team r) r) := by
  induction rest using List.reverseRecOn with
  | nil =>
      rw [List.map_append, List.map_cons, List.map_nil, List.nodup_append] at hnodup
      have hbefore : i ∉ before.map Prod.snd := fun hmem =>
        hnodup.2.2 i hmem i (List.mem_singleton.mpr rfl) rfl
      rw [List.foldl_append, List.foldl_cons, List.foldl_nil, rest_visit, getElem?_writeRest,
        length_rest_walk, lastSeen_walk, rest_unvisited hi hbefore]
      unfold restAfter
      cases lastAppearance (side.team r) (before.map Prod.fst) with
      | none => simp
      | some previous => simp [hi]
  | append_singleton rest row ih =>
      have hsplit : before ++ (r, i) :: (rest ++ [row]) = (before ++ (r, i) :: rest) ++ [row] := by
        simp
      rw [hsplit, List.map_append, List.nodup_append] at hnodup
      have hne : i ≠ row.2 := hnodup.2.2 i (by simp) row.2 (by simp)
      rw [hsplit, List.foldl_append, List.foldl_cons, List.foldl_nil, rest_visit,
        getElem?_writeRest, if_neg fun hc => hne hc.1, ih hnodup.1]

/-! ## The chronological rows -/

variable {ids : Bool}

/-- Whether a row at a position comes before another: by its key, or at an earlier position. -/
def Precedes (ids : Bool) (a b : MatchRow × Nat) : Prop :=
  scheduleKey ids a.1 < scheduleKey ids b.1 ∨
    scheduleKey ids a.1 = scheduleKey ids b.1 ∧ a.2 < b.2

theorem Precedes.asymm {a b : MatchRow × Nat} (h : Precedes ids a b) : ¬ Precedes ids b a := by
  rintro (hlt | ⟨heq, hlt⟩)
  · rcases h with h | h
    · exact lt_asymm h hlt
    · exact absurd h.1 hlt.ne'
  · rcases h with h | h
    · exact absurd heq.symm h.ne
    · omega

theorem perm_chronological (frame : List MatchRow) :
    (chronological ids frame).Perm frame.zipIdx :=
  List.perm_insertionSort _ _

theorem mem_chronological {frame : List MatchRow} {r : MatchRow} {i : Nat} :
    (r, i) ∈ chronological ids frame ↔ frame[i]? = some r := by
  rw [(perm_chronological frame).mem_iff, List.mem_zipIdx_iff_getElem?]

theorem nodup_positions (frame : List MatchRow) :
    ((chronological ids frame).map Prod.snd).Nodup := by
  rw [((perm_chronological frame).map Prod.snd).nodup_iff, List.zipIdx_map_snd]
  exact List.nodup_range'

/-- The chronological rows stand in the order of their keys, and of their positions where these are
equal. -/
theorem pairwise_chronological (frame : List MatchRow) :
    (chronological ids frame).Pairwise (Precedes ids) := by
  have hpositions : frame.zipIdx.Pairwise fun a b => a.2 < b.2 := by
    rw [← List.pairwise_map (f := Prod.snd), List.zipIdx_map_snd]
    exact List.pairwise_lt_range'
  refine (insertionSort_stable _ hpositions).imp fun {a b} h => ?_
  rcases lt_or_eq_of_le h.1 with hlt | heq
  · exact .inl hlt
  · exact .inr ⟨heq, h.2 heq.ge⟩

theorem precedes_of_split {frame : List MatchRow} {before rest : List (MatchRow × Nat)}
    {row : MatchRow × Nat} (h : chronological ids frame = before ++ row :: rest)
    (a : MatchRow × Nat) : a ∈ before ↔ frame[a.2]? = some a.1 ∧ Precedes ids a row := by
  have hpair := @pairwise_chronological ids frame
  rw [h, List.pairwise_append, List.pairwise_cons] at hpair
  obtain ⟨-, ⟨hafter, -⟩, hbefore⟩ := hpair
  rw [← @mem_chronological ids, h, List.mem_append, List.mem_cons]
  constructor
  · exact fun ha => ⟨.inl ha, hbefore a ha row List.mem_cons_self⟩
  · rintro ⟨ha | rfl | ha, hprecedes⟩
    · exact ha
    · exact absurd hprecedes hprecedes.asymm
    · exact absurd hprecedes (hafter a ha).asymm

/-- Where a row stands among the chronological ones, and the rest it gets there. -/
theorem exists_split {frame : List MatchRow} {r : MatchRow} {i : Nat} (h : frame[i]? = some r) :
    ∃ before rest, chronological ids frame = before ++ (r, i) :: rest ∧ ∀ side : Side,
      (side.rest (scheduleRestDays ids frame))[i]? =
        some (restAfter (before.map Prod.fst) (side.team r) r) := by
  obtain ⟨before, rest, hsplit⟩ := List.append_of_mem ((@mem_chronological ids _ _ _).mpr h)
  refine ⟨before, rest, hsplit, fun side => ?_⟩
  have hlt : i < frame.length := (List.getElem?_eq_some_iff.mp h).1
  have hnodup := @nodup_positions ids frame
  rw [hsplit] at hnodup
  have hrest := rest_visited hlt hnodup side
  rw [← hsplit] at hrest
  exact hrest

/-! ## The specification -/

/-- The whole days from an instant to a later one. -/
def wholeDays (later earlier : Option Int) : Option Int :=
  match later, earlier with
  | some t, some s => some ((t - s) / dayNs)
  | _, _ => none

/-- Whether a row of the frame comes before another, with a club on either side. -/
def IsEarlier (ids : Bool) (frame : List MatchRow) (team : String) (b a : MatchRow × Nat) : Prop :=
  frame[a.2]? = some a.1 ∧ appears team a.1 = true ∧ Precedes ids a b

/-- Whether a row is the latest of a club before another row. -/
def IsLatest (ids : Bool) (frame : List MatchRow) (team : String) (b a : MatchRow × Nat) : Prop :=
  IsEarlier ids frame team b a ∧ ∀ c, IsEarlier ids frame team b c → c = a ∨ Precedes ids c a

/-- What the rest of a club in a row is: the whole days since the latest earlier row it appears in, or
nothing where there is none. -/
def IsRest (ids : Bool) (frame : List MatchRow) (team : String) (b : MatchRow × Nat)
    (rest : Option Int) : Prop :=
  (∃ a, IsLatest ids frame team b a ∧ rest = wholeDays (dateInstant b.1) (dateInstant a.1)) ∨
    (∀ a, ¬ IsEarlier ids frame team b a) ∧ rest = none

/-- The instant of an earlier row is not later. -/
theorem Precedes.instant_le {a b : MatchRow × Nat} (h : Precedes ids a b) :
    blankLast (dateInstant a.1) ≤ blankLast (dateInstant b.1) := by
  have hle : scheduleKey ids a.1 ≤ scheduleKey ids b.1 := by
    rcases h with hlt | ⟨heq, -⟩
    · exact hlt.le
    · exact heq.le
  rcases Prod.Lex.toLex_le_toLex.mp hle with hlt | ⟨heq, -⟩
  · exact hlt.le
  · exact heq.le

/-- Going forward, no gap is negative. -/
theorem gapDays_eq {t s : Option Int} (h : blankLast s ≤ blankLast t) :
    gapDays t s = wholeDays t s := by
  cases t with
  | none => rfl
  | some t =>
      cases s with
      | none => rfl
      | some s =>
          have hle : s ≤ t := WithTop.coe_le_coe.mp h
          have hdays : 0 ≤ (t - s) / dayNs :=
            Int.ediv_nonneg (Int.sub_nonneg_of_le hle) (by decide)
          rw [gapDays, if_pos hdays, wholeDays]

theorem isRest_restAfter {frame : List MatchRow} {before rest : List (MatchRow × Nat)}
    {row : MatchRow × Nat} (h : chronological ids frame = before ++ row :: rest) (team : String) :
    IsRest ids frame team row (restAfter (before.map Prod.fst) team row.1) := by
  have hearlier : ∀ a, IsEarlier ids frame team row a ↔
      a ∈ before.filter (appears team ∘ Prod.fst) := by
    intro a
    rw [List.mem_filter, precedes_of_split h]
    exact ⟨fun ⟨ha, happears, hprecedes⟩ => ⟨⟨ha, hprecedes⟩, happears⟩,
      fun ⟨⟨ha, hprecedes⟩, happears⟩ => ⟨ha, happears, hprecedes⟩⟩
  have hpair : (before.filter (appears team ∘ Prod.fst)).Pairwise (Precedes ids) := by
    have hall := @pairwise_chronological ids frame
    rw [h, List.pairwise_append] at hall
    exact hall.1.filter _
  rw [restAfter, lastAppearance, List.filter_map, List.getLast?_map]
  rcases List.eq_nil_or_concat (before.filter (appears team ∘ Prod.fst)) with hnil | ⟨init, a, ha⟩
  · refine .inr ⟨fun a ha => ?_, by rw [hnil]; rfl⟩
    have := (hearlier a).mp ha
    rw [hnil] at this
    exact absurd this List.not_mem_nil
  · rw [List.concat_eq_append] at ha
    rw [ha, List.pairwise_append] at hpair
    have hmem : IsEarlier ids frame team row a := (hearlier a).mpr (by rw [ha]; simp)
    refine .inl ⟨a, ⟨hmem, fun c hc => ?_⟩, ?_⟩
    · have := (hearlier c).mp hc
      rw [ha, List.mem_append, List.mem_singleton] at this
      rcases this with hinit | rfl
      · exact .inr (hpair.2.2 c hinit a (List.mem_singleton.mpr rfl))
      · exact .inl rfl
    · rw [ha]
      simp only [List.getLast?_append, List.getLast?_singleton, Option.some_or, Option.map_some,
        Option.bind_some]
      exact gapDays_eq hmem.2.2.instant_le

/-! ## Other orders, other columns -/

/-- The rows of permuted frames with distinct keys stand in one chronological order. -/
theorem map_chronological_eq {frame other : List MatchRow} (hperm : frame.Perm other)
    (hnodup : (frame.map (scheduleKey ids)).Nodup) :
    (chronological ids frame).map Prod.fst = (chronological ids other).map Prod.fst := by
  have hrows : ∀ rows : List MatchRow, (chronological ids rows).map Prod.fst =
      rows.insertionSort fun a b => scheduleKey ids a ≤ scheduleKey ids b := by
    intro rows
    rw [chronological, List.map_insertionSort _ (fun a b => scheduleKey ids a ≤ scheduleKey ids b)
      Prod.fst _ fun _ _ _ _ => Iff.rfl, List.zipIdx_map_fst]
  rw [hrows, hrows]
  refine List.Perm.eq_of_pairwise ?_ (List.pairwise_insertionSort _ _)
    (List.pairwise_insertionSort _ _)
    (((List.perm_insertionSort _ _).trans hperm).trans (List.perm_insertionSort _ _).symm)
  intro a b ha hb hab hba
  exact List.inj_on_of_nodup_map hnodup ((List.mem_insertionSort _).mp ha)
    (hperm.mem_iff.mpr ((List.mem_insertionSort _).mp hb)) (le_antisymm hab hba)

/-- A row without its scores. -/
def scoreless (r : MatchRow) : MatchRow :=
  { r with
    homeScore := none
    awayScore := none
    htHomeScore := none
    htAwayScore := none }

/-- **The rest does not depend on the scores.** -/
theorem scheduleRestDays_scoreless (frame : List MatchRow) :
    scheduleRestDays ids (frame.map scoreless) = scheduleRestDays ids frame := by
  have hsorted : chronological ids (frame.map scoreless) =
      (chronological ids frame).map (Prod.map scoreless id) := by
    rw [chronological, chronological, List.zipIdx_map]
    exact (List.map_insertionSort _ _ (Prod.map scoreless id) _ fun _ _ _ _ => Iff.rfl).symm
  simp only [scheduleRestDays, hsorted, List.foldl_map, List.length_map]
  rfl

/-- **Rest days equal their specification**: every row and side gets the whole days since the latest
earlier row of its club. With distinct keys a row gets the same wherever it stands in the frame, and
the scores play no part. -/
theorem rest_days (ids : Bool) (frame : List MatchRow) :
    (∀ (i : Nat) (r : MatchRow), frame[i]? = some r → ∀ side : Side, ∃ rest,
      (side.rest (scheduleRestDays ids frame))[i]? = some rest ∧
        IsRest ids frame (side.team r) (r, i) rest) ∧
      (∀ other : List MatchRow, frame.Perm other → (frame.map (scheduleKey ids)).Nodup →
        ∀ (i j : Nat) (r : MatchRow), frame[i]? = some r → other[j]? = some r → ∀ side : Side,
          (side.rest (scheduleRestDays ids frame))[i]? =
            (side.rest (scheduleRestDays ids other))[j]?) ∧
        ∀ other : List MatchRow, other.map scoreless = frame.map scoreless →
          scheduleRestDays ids other = scheduleRestDays ids frame := by
  refine ⟨fun i r hr side => ?_, fun other hperm hnodup i j r hi hj side => ?_,
    fun other hother => ?_⟩
  · obtain ⟨before, rest, hsplit, hrest⟩ := @exists_split ids _ _ _ hr
    exact ⟨_, hrest side, isRest_restAfter hsplit _⟩
  · obtain ⟨before, rest, hsplit, hrest⟩ := @exists_split ids _ _ _ hi
    obtain ⟨before', rest', hsplit', hrest'⟩ := @exists_split ids _ _ _ hj
    have hrows := map_chronological_eq hperm hnodup
    have hsame : before.map Prod.fst = before'.map Prod.fst := by
      have hdistinct : ((chronological ids frame).map Prod.fst).Nodup := by
        have hrowsPerm : ((chronological ids frame).map Prod.fst).Perm frame := by
          have := (@perm_chronological ids frame).map Prod.fst
          rwa [List.zipIdx_map_fst] at this
        exact hrowsPerm.nodup_iff.mpr (List.Nodup.of_map _ hnodup)
      rw [hsplit, hsplit'] at hrows
      rw [hsplit] at hdistinct
      simp only [List.map_append, List.map_cons] at hrows hdistinct
      -- the row stands once among the sorted ones, so the rows before it are the same
      rw [List.nodup_append, List.nodup_cons] at hdistinct
      obtain ⟨-, ⟨hafter, -⟩, hdisjoint⟩ := hdistinct
      have hbefore : r ∉ before.map Prod.fst := fun hmem =>
        hdisjoint r hmem r List.mem_cons_self rfl
      exact ((List.append_cons_inj_of_notMem hbefore hafter).mp hrows).1
    rw [hrest side, hrest' side, hsame]
  · rw [← scheduleRestDays_scoreless other, hother, scheduleRestDays_scoreless]

end Golavo.Forecast
