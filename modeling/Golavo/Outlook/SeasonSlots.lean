import Golavo.Lib.Apportion
import Golavo.Outlook.Published
import Golavo.Outlook.Standings
import Mathlib.Algebra.BigOperators.Ring.Finset
import Mathlib.Data.Rat.Floor

/-! # The slots of a season

A voice ranks the clubs at the end of every iteration, lets level clubs play off where their league
does, and flags the champion, the top four and the relegated. What is displayed is the share of the
iterations a club was flagged in, apportioned to tenths of a percent. The main result: **the slots of a
season are conserved**, in every iteration and in the display (`season_slots`). -/

namespace Golavo.Outlook

open Golavo.Lib.Ranking (rank perm_rank pairwise_rank Precedes)
open Golavo.Lib.Apportion (Ordered apportion)

/-! ## The final order of an iteration -/

/-- The clubs and the score of every fixture in an iteration. -/
def iterationScores (schedule : List Fixture) (sim : Simulation) (k : Nat) :
    List ((String × String) × Int × Int) :=
  (schedule.zip sim.columns).map fun entry =>
    ((Fixture.nameText entry.1.homeTeam, Fixture.nameText entry.1.awayTeam), entry.2.at k)

/-- The table of a group's own scores. -/
def miniScores (scores : List ((String × String) × Int × Int)) (group : List String) : Tallies :=
  (scores.filter fun entry => entry.1.1 ∈ group && entry.1.2 ∈ group).foldl
    (fun mini entry => applyScore mini entry.1.1 entry.1.2 entry.2) fun _ => 0

/-- The order by the overall key (`_overall_order`). -/
def overallOrder (rule : LeagueRule) (tallies : Tallies) (teams : List String) : List String :=
  rank (overallCriteria rule tallies) teams

/-- The order with head to head inside every group level on points (`_head_to_head_order`). -/
def headToHeadOrder (scores : List ((String × String) × Int × Int)) (rule : LeagueRule)
    (tallies : Tallies) (teams : List String) : List String :=
  (pointsGroups tallies (overallOrder rule tallies teams)).flatMap
    (rankGroup (fun _ => true) (miniScores scores) rule tallies)

/-- Exchange two clubs one place apart. -/
def exchange (order : List String) (place : Nat) (first second : String) : List String :=
  (order.set place second).set (place + 1) first

/-- Let the clubs at a place and behind it play off where they are level on points: a draw above the
first one's probability exchanges them. The state is the order and the draws used up. -/
def playOff (points : String → Int) (advance : String → String → ℚ) (uniform : Nat → ℚ)
    (place : Nat) (state : List String × Nat) : List String × Nat :=
  match state.1[place]?, state.1[place + 1]? with
  | some first, some second =>
      if points first = points second then
        (if advance first second < uniform state.2 then exchange state.1 place first second
          else state.1, state.2 + 1)
      else state
  | _, _ => state

/-- The order of one iteration before its play-offs. -/
def rankedOrder (rule : LeagueRule) (teams : List String) (tallies : Tallies)
    (scores : List ((String × String) × Int × Int)) : List String :=
  if rule.headToHeadOnPoints then headToHeadOrder scores rule tallies teams
  else overallOrder rule tallies teams

/-- The order of one iteration after its play-offs. -/
def finalOrder (rule : LeagueRule) (teams : List String) (tallies : Tallies)
    (scores : List ((String × String) × Int × Int)) (advance : String → String → ℚ)
    (uniform : Nat → ℚ) (draws : Nat) : List String × Nat :=
  let points := fun team => (tallies team).points
  let order := rankedOrder rule teams tallies scores
  let state := if .title ∈ rule.playoffBoundaries then playOff points advance uniform 0 (order, draws)
    else (order, draws)
  if .lastRelegationPlace ∈ rule.playoffBoundaries ∧ rule.relegationSlots + 1 ≤ teams.length then
    playOff points advance uniform (teams.length - rule.relegationSlots - 1) state
  else state

/-- The probability a voice gives a club to win a play-off. -/
def playoffProbability (advance : Voice → String → String → ℚ) (voice : Voice)
    (first second : String) : ℚ :=
  match voice with
  | .baseline => 1 / 2
  | _ => advance voice first second

/-- The final orders of all iterations of a voice. -/
def finalOrders (host : Host) (advance : Voice → String → String → ℚ) (plan : Plan)
    (req : OutlookRequest) (voice : Voice) (sim : Simulation) : List (List String) :=
  ((List.range req.iterations.toNat).foldl (fun state k =>
    let final := finalOrder plan.rule plan.certificate.teams (sim.tallies k)
      (iterationScores plan.schedule sim k) (playoffProbability advance voice)
      (host.uniform (voice.seed req.seed)) state.2
    (state.1 ++ [final.1], final.2)) ([], sim.draws)).1

/-! ## Stakes -/

/-- What a club can be flagged for. -/
inductive Stake where
  | title
  | topFour
  | relegation
  deriving DecidableEq, Repr

/-- The slots of a stake. -/
def Stake.slots (rule : LeagueRule) (n : Nat) : Stake → Nat
  | .title => 1
  | .topFour => min 4 n
  | .relegation => rule.relegationSlots

/-- The clubs an order flags: the first ones, or the last. -/
def Stake.flagged (rule : LeagueRule) (stake : Stake) (order : List String) : List String :=
  match stake with
  | .relegation => order.drop (order.length - rule.relegationSlots)
  | _ => order.take (stake.slots rule order.length)

/-- In how many iterations a club is flagged. -/
def stakeCount (rule : LeagueRule) (stake : Stake) (orders : List (List String)) (team : String) :
    Nat :=
  orders.countP fun order => team ∈ stake.flagged rule order

/-- The tenths of a percent of a count, before rounding. -/
def exactUnits (counts : String → Nat) (iterations : Nat) (team : String) : ℚ :=
  counts team * 1000 / iterations

/-- The percentages displayed for counts (`_largest_remainder_percent`). -/
def largestRemainderPercent (counts : String → Nat) (iterations slots : Nat) (teams : List String)
    (team : String) : ℚ :=
  let order := rank [fun team => Int.fract (exactUnits counts iterations team)] teams
  (apportion (exactUnits counts iterations) (slots * 1000 : Nat) order team : ℚ) / 10

/-! ## Every order lists every club once -/

section Orders

variable {rule : LeagueRule} {teams : List String} {tallies : Tallies}

theorem perm_exchange {order : List String} {place : Nat} {first second : String}
    (hfirst : order[place]? = some first) (hsecond : order[place + 1]? = some second) :
    (exchange order place first second).Perm order := by
  obtain ⟨hplace, rfl⟩ := List.getElem?_eq_some_iff.mp hfirst
  obtain ⟨hnext, rfl⟩ := List.getElem?_eq_some_iff.mp hsecond
  exact List.set_set_perm hplace hnext

/-- **A play-off keeps the clubs.** -/
theorem perm_playOff (points : String → Int) (advance : String → String → ℚ) (uniform : Nat → ℚ)
    (place : Nat) (state : List String × Nat) :
    (playOff points advance uniform place state).1.Perm state.1 := by
  unfold playOff
  split
  · rename_i first second hfirst hsecond
    split_ifs
    · exact perm_exchange hfirst hsecond
    · exact List.Perm.refl _
    · exact List.Perm.refl _
  · exact List.Perm.refl _

theorem perm_headToHeadOrder (scores : List ((String × String) × Int × Int))
    (hteams : teams.Nodup) : (headToHeadOrder scores rule tallies teams).Perm teams :=
  (perm_groups perm_rankGroup ((perm_rank _ _).nodup_iff.mpr hteams)).trans (perm_rank _ _)

theorem perm_finalOrder (scores : List ((String × String) × Int × Int))
    (advance : String → String → ℚ) (uniform : Nat → ℚ) (draws : Nat) (hteams : teams.Nodup) :
    (finalOrder rule teams tallies scores advance uniform draws).1.Perm teams := by
  have horder : (rankedOrder rule teams tallies scores).Perm teams := by
    unfold rankedOrder
    split_ifs
    · exact perm_headToHeadOrder scores hteams
    · exact perm_rank _ _
  unfold finalOrder
  dsimp only
  split_ifs
  · exact (perm_playOff ..).trans ((perm_playOff ..).trans horder)
  · exact (perm_playOff ..).trans horder
  · exact (perm_playOff ..).trans horder
  · exact horder

end Orders

/-- **Every iteration has an order of all clubs.** -/
theorem finalOrders_spec (host : Host) (advance : Voice → String → String → ℚ) (plan : Plan)
    (req : OutlookRequest) (voice : Voice) (sim : Simulation)
    (hteams : plan.certificate.teams.Nodup) :
    (finalOrders host advance plan req voice sim).length = req.iterations.toNat ∧
      ∀ order ∈ finalOrders host advance plan req voice sim,
        order.Perm plan.certificate.teams := by
  suffices ∀ (ks : List Nat) (state : List (List String) × Nat),
      (∀ order ∈ state.1, order.Perm plan.certificate.teams) →
      let final := ks.foldl (fun state k =>
        let final := finalOrder plan.rule plan.certificate.teams (sim.tallies k)
          (iterationScores plan.schedule sim k) (playoffProbability advance voice)
          (host.uniform (voice.seed req.seed)) state.2
        (state.1 ++ [final.1], final.2)) state
      final.1.length = state.1.length + ks.length ∧
        ∀ order ∈ final.1, order.Perm plan.certificate.teams by
    have h := this (List.range req.iterations.toNat) ([], sim.draws)
      fun _ h => absurd h List.not_mem_nil
    refine ⟨h.1.trans ?_, h.2⟩
    rw [List.length_range]
    exact Nat.zero_add _
  intro ks
  induction ks with
  | nil => exact fun state hstate => ⟨rfl, hstate⟩
  | cons k ks ih =>
      intro state hstate
      rw [List.foldl_cons]
      refine (ih _ fun order horder => ?_).imp_left fun hlength => hlength.trans ?_
      · rcases List.mem_append.mp horder with horder | horder
        · exact hstate order horder
        · rw [List.mem_singleton.mp horder]
          exact perm_finalOrder _ _ _ _ hteams
      · rw [List.length_append, List.length_cons, List.length_nil, List.length_cons]
        omega

/-! ## Flags and counts -/

section Counts

variable {rule : LeagueRule} {stake : Stake} {teams : List String}

theorem flagged_sublist (order : List String) : (stake.flagged rule order).Sublist order := by
  cases stake
  · exact List.take_sublist _ _
  · exact List.take_sublist _ _
  · exact List.drop_sublist _ _

/-- **An order flags as many clubs as there are slots.** -/
theorem countP_flagged (hteams : teams.Nodup) (hslots : stake.slots rule teams.length ≤ teams.length)
    {order : List String} (horder : order.Perm teams) :
    teams.countP (fun team => team ∈ stake.flagged rule order) = stake.slots rule teams.length := by
  have hnodup : order.Nodup := horder.nodup_iff.mpr hteams
  have hlength : (stake.flagged rule order).length = stake.slots rule teams.length := by
    rw [← horder.length_eq] at hslots ⊢
    cases stake <;>
      simp only [Stake.flagged, Stake.slots, List.length_take, List.length_drop] at hslots ⊢ <;> omega
  rw [← hlength, List.countP_eq_length_filter]
  refine ((List.perm_ext_iff_of_nodup (hteams.filter _) ((flagged_sublist order).nodup hnodup)).mpr
    fun team => ?_).length_eq
  rw [List.mem_filter, decide_eq_true_iff]
  exact and_iff_right_of_imp fun h => horder.mem_iff.mp ((flagged_sublist order).subset h)

theorem sum_flags (p : String → Bool) (items : List String) :
    (items.map fun item => if p item = true then 1 else 0).sum = items.countP p := by
  induction items with
  | nil => rfl
  | cons item items ih =>
      rw [List.map_cons, List.sum_cons, ih, List.countP_cons, Nat.add_comm]

/-- The counts of all clubs sum to the slots of all iterations. -/
theorem sum_stakeCount (hteams : teams.Nodup)
    (hslots : stake.slots rule teams.length ≤ teams.length) {orders : List (List String)}
    (horders : ∀ order ∈ orders, order.Perm teams) :
    (teams.map (stakeCount rule stake orders)).sum =
      stake.slots rule teams.length * orders.length := by
  induction orders with
  | nil =>
      rw [List.length_nil, Nat.mul_zero]
      exact List.sum_eq_zero fun x hx => by
        obtain ⟨team, -, rfl⟩ := List.mem_map.mp hx
        rfl
  | cons order orders ih =>
      obtain ⟨horder, horders⟩ := List.forall_mem_cons.mp horders
      have hcount : ∀ team, stakeCount rule stake (order :: orders) team =
          stakeCount rule stake orders team +
            if decide (team ∈ stake.flagged rule order) = true then 1 else 0 := fun team =>
        List.countP_cons
      rw [List.map_congr_left fun team _ => hcount team, List.sum_map_add, ih horders,
        sum_flags, countP_flagged hteams hslots horder, List.length_cons,
        Nat.mul_succ]

end Counts

/-! ## The display -/

/-- What a display of counts owes: the percentages sum to a hundred for each slot, each is within a
tenth of its exact value and between 0 and 100, no club with more runs is below one with fewer, and
what is exact in tenths stays. -/
structure Conserves (teams : List String) (counts : String → Nat) (iterations slots : Nat)
    (display : String → ℚ) : Prop where
  total : (teams.map display).sum = 100 * slots
  near : ∀ team, |display team - 100 * counts team / iterations| < 1 / 10
  bounds : ∀ team, 0 ≤ display team ∧ display team ≤ 100
  monotone : ∀ a, ∀ b ∈ teams, counts a < counts b → display a ≤ display b
  exact : ∀ team, iterations ∣ counts team * 1000 →
    display team = 100 * counts team / iterations

section Display

variable {counts : String → Nat} {iterations slots : Nat} {teams : List String}

theorem ordered_exactUnits (hteams : teams.Nodup) (hiterations : 0 < iterations)
    (hsum : (teams.map counts).sum = slots * iterations) :
    Ordered (exactUnits counts iterations) ((slots * 1000 : Nat) : Int)
      (rank [fun team => Int.fract (exactUnits counts iterations team)] teams) := by
  have hne : (iterations : ℚ) ≠ 0 := Nat.cast_ne_zero.mpr hiterations.ne'
  refine ⟨(perm_rank _ _).nodup_iff.mpr hteams, (pairwise_rank _ _).imp fun {a b} h => ?_, ?_⟩
  · rcases h with (hlt | ⟨-, hnone⟩) | ⟨hlevel, -⟩
    · exact hlt.le
    · exact hnone.elim
    · exact (hlevel _ List.mem_cons_self).ge
  · have hcast : (teams.map fun team => (counts team : ℚ)).sum = slots * iterations := by
      rw [← Nat.cast_mul, ← hsum, Nat.cast_list_sum, List.map_map]
      rfl
    rw [((perm_rank _ teams).map _).sum_eq]
    calc (teams.map (exactUnits counts iterations)).sum
        = (teams.map fun team => (counts team : ℚ) * (1000 / iterations)).sum := by
          refine congrArg List.sum (List.map_congr_left fun team _ => ?_)
          rw [exactUnits, mul_div_assoc]
      _ = slots * iterations * (1000 / iterations) := by rw [List.sum_map_mul_right, hcast]
      _ = ((slots * 1000 : Nat) : Int) := by
          push_cast
          field_simp

/-- **The display of counts that fill the slots conserves them.** -/
theorem conserves_largestRemainderPercent (hteams : teams.Nodup) (hiterations : 0 < iterations)
    (hsum : (teams.map counts).sum = slots * iterations)
    (hle : ∀ team, counts team ≤ iterations) :
    Conserves teams counts iterations slots
      (largestRemainderPercent counts iterations slots teams) := by
  have hordered := ordered_exactUnits hteams hiterations hsum
  have hpos : (0 : ℚ) < iterations := Nat.cast_pos.mpr hiterations
  have hunits : ∀ team, (100 * counts team / iterations : ℚ) =
      exactUnits counts iterations team / 10 := fun team => by
    rw [exactUnits]
    ring
  refine ⟨?_, fun team => ?_, fun team => ?_, fun a b hb hlt => ?_, fun team hdvd => ?_⟩
  · have htotal := hordered.sum_apportion
    rw [((perm_rank _ teams).map _).sum_eq] at htotal
    have hcast : (teams.map fun team => (apportion (exactUnits counts iterations)
        ((slots * 1000 : Nat) : Int) (rank [fun team => Int.fract (exactUnits counts iterations team)]
          teams) team : ℚ)).sum = slots * 1000 := by
      have := congrArg (Int.cast : Int → ℚ) htotal
      rw [Int.cast_list_sum, List.map_map] at this
      exact this.trans (by push_cast; rfl)
    calc (teams.map (largestRemainderPercent counts iterations slots teams)).sum
        = (slots * 1000 : ℚ) * (1 / 10) := by
          rw [← hcast, ← List.sum_map_mul_right]
          refine congrArg List.sum (List.map_congr_left fun team _ => ?_)
          rw [largestRemainderPercent, mul_one_div]
      _ = 100 * slots := by ring
  · have hnear := hordered.abs_apportion_sub_lt team
    rw [hunits, largestRemainderPercent, ← sub_div, abs_div, abs_of_pos (by norm_num : (0 : ℚ) < 10)]
    exact div_lt_div_of_pos_right hnear (by norm_num)
  · have hshare : ((0 : Int) : ℚ) ≤ exactUnits counts iterations team ∧
        exactUnits counts iterations team ≤ ((1000 : Int) : ℚ) := by
      rw [exactUnits]
      refine ⟨by positivity, (div_le_iff₀ hpos).mpr ?_⟩
      have : (counts team : ℚ) ≤ iterations := Nat.cast_le.mpr (hle team)
      push_cast
      linarith
    obtain ⟨hlow, hhigh⟩ := hordered.apportion_mem hshare.1 hshare.2
    rw [largestRemainderPercent]
    constructor
    · exact div_nonneg (by exact_mod_cast hlow) (by norm_num)
    · rw [div_le_iff₀ (by norm_num)]
      calc _ ≤ ((1000 : Int) : ℚ) := Int.cast_le.mpr hhigh
        _ = 100 * 10 := by norm_num
  · have hshare : exactUnits counts iterations a < exactUnits counts iterations b := by
      have : (counts a : ℚ) < counts b := Nat.cast_lt.mpr hlt
      rw [exactUnits, exactUnits]
      exact div_lt_div_of_pos_right (by linarith) hpos
    have hb := (perm_rank [fun team => Int.fract (exactUnits counts iterations team)]
      teams).mem_iff.mpr hb
    rw [largestRemainderPercent, largestRemainderPercent]
    exact div_le_div_of_nonneg_right
      (Int.cast_le.mpr (hordered.apportion_le_apportion hb hshare)) (by norm_num)
  · obtain ⟨z, hz⟩ := hdvd
    have hwhole : exactUnits counts iterations team = ((z : Int) : ℚ) := by
      rw [exactUnits, div_eq_iff hpos.ne', ← Nat.cast_ofNat, ← Nat.cast_mul, hz]
      push_cast
      ring
    rw [hunits, largestRemainderPercent, hordered.apportion_eq_of_whole hwhole, hwhole]

end Display

/-! ## A season -/

/-- What a plan that is simulated has been checked for. -/
theorem plan_certified {frame : Frame} {req : OutlookRequest} {plan : Plan}
    (h : planOutlook frame req = .ok (.simulate plan)) :
    0 < req.iterations.toNat ∧ plan.rule ∈ leagueRules ∧ plan.certificate.teams.Nodup ∧
      plan.certificate.teams.length = plan.rule.expectedTeams := by
  obtain ⟨_, hiterations, h'⟩ := Lib.bind_ok_iff.mp h
  obtain ⟨rule, hrule, h'⟩ := Lib.bind_ok_iff.mp h'
  obtain ⟨scenario, -, h'⟩ := Lib.bind_ok_iff.mp h'
  obtain ⟨rfl, -, -, hlist⟩ := gate_eq_simulate (Except.ok.inj h')
  rw [Lib.failIf_ok_iff, not_le] at hiterations
  rw [Lib.orFail_ok_iff, leagueRule] at hrule
  simp only [certifySchedule, decide_eq_true_eq] at hlist
  refine ⟨by omega, List.mem_of_find?_eq_some hrule, ?_, hlist.1⟩
  exact (List.perm_insertionSort _ _).nodup_iff.mpr (List.nodup_dedup _)

theorem slots_le {rule : LeagueRule} (h : rule ∈ leagueRules) (stake : Stake) :
    stake.slots rule rule.expectedTeams ≤ rule.expectedTeams := by
  revert rule
  cases stake <;> decide

/-- **The slots of a season are conserved**: whatever is drawn and however the play-offs go, every
iteration flags one champion, the top four and the relegated, and the display of the counts conserves
the slots of every stake. -/
theorem season_slots {host : Host} {frame : Frame} {req : OutlookRequest} {plan : Plan}
    (hplan : planOutlook frame req = .ok (.simulate plan))
    (advance : Voice → String → String → ℚ) (voice : Voice) (sim : Simulation) (stake : Stake) :
    (finalOrders host advance plan req voice sim).length = req.iterations.toNat ∧
      (∀ order ∈ finalOrders host advance plan req voice sim,
        plan.certificate.teams.countP (fun team => team ∈ stake.flagged plan.rule order) =
          stake.slots plan.rule plan.certificate.teams.length) ∧
      Conserves plan.certificate.teams
        (stakeCount plan.rule stake (finalOrders host advance plan req voice sim))
        req.iterations.toNat (stake.slots plan.rule plan.certificate.teams.length)
        (largestRemainderPercent
          (stakeCount plan.rule stake (finalOrders host advance plan req voice sim))
          req.iterations.toNat (stake.slots plan.rule plan.certificate.teams.length)
          plan.certificate.teams) := by
  obtain ⟨hiterations, hrule, hteams, hlength⟩ := plan_certified hplan
  have hslots := slots_le hrule stake
  rw [← hlength] at hslots
  obtain ⟨hcount, horders⟩ := finalOrders_spec host advance plan req voice sim hteams
  refine ⟨hcount, fun order horder => countP_flagged hteams hslots (horders order horder), ?_⟩
  refine conserves_largestRemainderPercent hteams hiterations ?_ fun team => ?_
  · rw [sum_stakeCount hteams hslots horders, hcount]
  · exact List.countP_le_length.trans_eq hcount

/-- A season whose clubs all stay level: the alphabet decides every iteration. -/
theorem season_slots_matchday : ∃ plan, planOutlook matchdayFrame kickoffRequest =
    .ok (.simulate plan) ∧ ∀ (sim : Simulation) (stake : Stake),
      (finalOrders goallessHost (fun _ _ _ => 1 / 2) plan kickoffRequest .goals sim).length =
        10000 ∧
      (plan.certificate.teams.map (largestRemainderPercent
        (stakeCount plan.rule stake
          (finalOrders goallessHost (fun _ _ _ => 1 / 2) plan kickoffRequest .goals sim))
        10000 (stake.slots plan.rule plan.certificate.teams.length)
        plan.certificate.teams)).sum =
        100 * (stake.slots plan.rule plan.certificate.teams.length : ℚ) := by
  obtain ⟨plan, hplan, -⟩ := planOutlook_matchday
  refine ⟨plan, hplan, fun sim stake => ?_⟩
  obtain ⟨hlength, -, hconserves⟩ := season_slots hplan (fun _ _ _ => 1 / 2) .goals sim stake
  exact ⟨hlength, hconserves.total⟩

end Golavo.Outlook
