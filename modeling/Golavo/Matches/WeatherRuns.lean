import Golavo.Lib.Runs
import Golavo.Matches.Weather

/-! # Weather known before kickoff

Refreshes store readings and the index moves the kickoff, in any order and at any clock reading. The
weather shown is right as long as the texts of the fetch times order as the times do and a kickoff
that moves stays behind the most recent capture, in its hour. -/

namespace Golavo.Weather

open Golavo.Lib (RunAllowed)

/-! ## Names of files -/

/-- A character of a timestamp: a digit or one of the marks. -/
def isStampChar (c : Char) : Bool := c.isDigit || c ∈ ['-', ':', 'T', '.', 'Z']

theorem isStampChar_fixedDigits (k n : Nat) : ∀ c ∈ Lib.Json.fixedDigits k n, isStampChar c := by
  intro c hc
  obtain ⟨d, hd, rfl⟩ := List.mem_map.mp hc
  have hlt := Lib.Json.digitList_lt k n d hd
  interval_cases d
  all_goals decide

theorem isStampChar_isoUtc (t : Int) : ∀ c ∈ Lib.Calendar.isoUtc t, isStampChar c := by
  have hmark : isStampChar '-' ∧ isStampChar ':' ∧ isStampChar 'T' ∧ isStampChar '.' ∧
      isStampChar 'Z' := by decide
  obtain ⟨hdash, hcolon, hT, hdot, hZ⟩ := hmark
  have hfraction : ∀ n, ∀ c ∈ Lib.Calendar.fractionText n, isStampChar c := by
    intro n c hc
    unfold Lib.Calendar.fractionText at hc
    split_ifs at hc
    · cases hc
    · rcases List.mem_cons.mp hc with rfl | hc
      · exact hdot
      · exact isStampChar_fixedDigits _ _ c hc
  have hday : ∀ z, ∀ c ∈ Lib.Calendar.isoDay z, isStampChar c := by
    intro z
    simp only [Lib.Calendar.isoDay, List.forall_mem_append, List.forall_mem_cons]
    exact ⟨isStampChar_fixedDigits _ _, hdash, isStampChar_fixedDigits _ _, hdash,
      isStampChar_fixedDigits _ _⟩
  have hclock : ∀ n, ∀ c ∈ Lib.Calendar.clockText n, isStampChar c := by
    intro n
    simp only [Lib.Calendar.clockText, List.forall_mem_append, List.forall_mem_cons]
    exact ⟨isStampChar_fixedDigits _ _, hcolon, isStampChar_fixedDigits _ _, hcolon,
      isStampChar_fixedDigits _ _, hfraction _⟩
  simp only [Lib.Calendar.isoUtc, List.forall_mem_append, List.forall_mem_cons]
  exact ⟨hday _, hT, hclock _, hZ, fun c hc => by cases hc⟩

/-- **Captures fetched at different times have different files.** -/
theorem fileName_injective {a b : Moment} (h : fileName a = fileName b) : a = b := by
  have hback : ∀ m : Moment,
      (fileName m).map (fun c => if c = '_' then ':' else c) = m.text.toList := by
    intro m
    rw [fileName, List.map_map]
    refine (List.map_congr_left fun c hc => ?_).trans (List.map_id _)
    have hstamp : isStampChar c := by
      rw [Moment.text, isoText, String.toList_ofList] at hc
      exact isStampChar_isoUtc _ c hc
    by_cases hcolon : c = ':'
    · subst hcolon
      decide
    · have hsafe : (c.isAlphanum || c ∈ ['_', '.', '-']) = true := by
        simp only [isStampChar, Bool.or_eq_true, decide_eq_true_eq, List.mem_cons, hcolon,
          List.not_mem_nil, or_false, false_or] at hstamp
        rcases hstamp with hdigit | rfl | rfl | rfl | rfl
        · simp [Char.isAlphanum, hdigit]
        all_goals decide
      have hunder : c ≠ '_' := by
        rintro rfl
        revert hstamp
        decide
      rw [Function.comp_apply, if_pos hsafe, if_neg hunder, id]
  have htexts := (hback a).symm.trans ((congrArg _ h).trans (hback b))
  exact Moment.eq_of_text (String.toList_injective htexts)

/-! ## The latest reading -/

section Latest

variable {host : Host} {captures : List Reading}

/-- What the fold over the files keeps: the greatest text so far. -/
theorem foldl_laterReading (rows : List Reading) (latest : Option Reading) :
    (rows.foldl laterReading latest = none ↔ latest = none ∧ rows = []) ∧
    ∀ l, rows.foldl laterReading latest = some l →
      (latest = some l ∨ l ∈ rows) ∧ (∀ r ∈ rows, r.fetchedAt.text ≤ l.fetchedAt.text) ∧
        ∀ r, latest = some r → r.fetchedAt.text ≤ l.fetchedAt.text := by
  induction rows generalizing latest with
  | nil =>
      refine ⟨by simp, fun l hl => ?_⟩
      obtain rfl : latest = some l := hl
      exact ⟨.inl rfl, by simp, fun r hr => by rw [Option.some.inj hr]⟩
  | cons row rows ih =>
      rw [List.foldl_cons]
      obtain ⟨hnone, hsome⟩ := ih (laterReading latest row)
      have hkept : ∃ k, laterReading latest row = some k ∧ (latest = some k ∨ k = row) ∧
          row.fetchedAt.text ≤ k.fetchedAt.text ∧
          ∀ r, latest = some r → r.fetchedAt.text ≤ k.fetchedAt.text := by
        cases latest with
        | none => exact ⟨row, rfl, .inr rfl, le_refl _, fun r hr => by cases hr⟩
        | some l =>
            unfold laterReading
            dsimp only
            split_ifs with hlt
            · exact ⟨row, rfl, .inr rfl, le_refl _, fun r hr => by
                rw [← Option.some.inj hr]
                exact le_of_lt hlt⟩
            · exact ⟨l, rfl, .inl rfl, not_lt.mp hlt, fun r hr => by rw [Option.some.inj hr]⟩
      obtain ⟨k, hk, hfrom, hrow, hlatest⟩ := hkept
      refine ⟨?_, fun l hl => ?_⟩
      · rw [hnone, hk]
        simp
      · obtain ⟨hmem, hrows, hle⟩ := hsome l hl
        have hkl := hle k hk
        refine ⟨?_, List.forall_mem_cons.mpr ⟨le_trans hrow hkl, hrows⟩,
          fun r hr => le_trans (hlatest r hr) hkl⟩
        rcases hmem with hmem | hmem
        · obtain rfl := Option.some.inj (hk.symm.trans hmem)
          rcases hfrom with hfrom | rfl
          · exact .inl hfrom
          · exact .inr List.mem_cons_self
        · exact .inr (List.mem_cons_of_mem _ hmem)

theorem loadLatest_eq_none_iff : loadLatest host captures = none ↔ captures = [] := by
  rw [loadLatest, (foldl_laterReading _ none).1, ← List.length_eq_zero_iff,
    (host.perm captures).length_eq, List.length_eq_zero_iff]
  simp

/-- **The latest reading** is one of the captures, and none has a greater text. -/
theorem loadLatest_spec {l : Reading} (h : loadLatest host captures = some l) :
    l ∈ captures ∧ ∀ r ∈ captures, r.fetchedAt.text ≤ l.fetchedAt.text := by
  obtain ⟨hmem, hrows, -⟩ := (foldl_laterReading _ none).2 l h
  refine ⟨?_, fun r hr => hrows r ((host.perm captures).mem_iff.mpr hr)⟩
  rcases hmem with hmem | hmem
  · cases hmem
  · exact (host.perm captures).mem_iff.mp hmem

end Latest

/-! ## Runs -/

/-- The kickoff the index has for a match, and the match's captures. -/
structure World where
  kickoff : Moment
  captures : List Reading

/-- What happens to a match: its kickoff moves in the index, or its weather is refreshed. -/
inductive Action where
  | move (kickoff : Moment)
  | refresh (now : Moment) (located : Bool) (answer : Answer)

/-- What an action leaves. -/
def World.step (s : World) : Action → World
  | .move kickoff => { s with kickoff := kickoff }
  | .refresh now located answer =>
      match Weather.refresh (some ⟨some s.kickoff, located⟩) now answer with
      | .ok reading => { s with captures := saveReading s.captures reading }
      | .error _ => s

/-- A capture that may be shown: fetched before the kickoff, and for its hour. -/
def Suitable (kickoff : Moment) (r : Reading) : Prop :=
  r.fetchedAt.micros < kickoff.micros ∧ r.kickoff.hour = kickoff.hour

instance (kickoff : Moment) (r : Reading) : Decidable (Suitable kickoff r) :=
  inferInstanceAs (Decidable (_ ∧ _))

/-- **The weather shown is right**: a forecast shown is a suitable capture, and the suitable capture
fetched last is shown. -/
structure World.Right (host : Host) (s : World) : Prop where
  sound : ∀ r, weatherContextFor host s.captures = .forecast r →
    r ∈ s.captures ∧ Suitable s.kickoff r
  complete : ∀ r ∈ s.captures, Suitable s.kickoff r →
    (∀ o ∈ s.captures, Suitable s.kickoff o → o.fetchedAt.micros ≤ r.fetchedAt.micros) →
      weatherContextFor host s.captures = .forecast r

/-- Whether a capture was fetched last. -/
def MostRecent (captures : List Reading) (r : Reading) : Prop :=
  r ∈ captures ∧ ∀ o ∈ captures, o.fetchedAt.micros ≤ r.fetchedAt.micros

/-- The condition on a step. A kickoff moves behind the most recent capture and within its hour. A
refresh that stores a reading has a clock whose text orders against the most recent capture's as the
times do, and, unless a capture is more recent, before the kickoff's text. -/
def Steady (s : World) : Action → Prop
  | .move kickoff => ∀ r, MostRecent s.captures r → Suitable kickoff r
  | .refresh now located answer =>
      now.micros < s.kickoff.micros → located = true → fetchForecast answer s.kickoff now ≠ none →
        (∀ r, MostRecent s.captures r →
          (r.fetchedAt.text < now.text ↔ r.fetchedAt.micros < now.micros)) ∧
        ((∀ r ∈ s.captures, r.fetchedAt.micros ≤ now.micros) → now.text < s.kickoff.text)

/-- What holds along a steady run: captures have their own fetch times, and the one fetched last has
the greatest text, is suitable and is shown. -/
structure World.Tidy (s : World) : Prop where
  apart : (s.captures.map Reading.fetchedAt).Nodup
  latest : s.captures = [] ∨ ∃ l, MostRecent s.captures l ∧
    (∀ o ∈ s.captures, o.fetchedAt.text ≤ l.fetchedAt.text) ∧ Suitable s.kickoff l ∧
      l.fetchedAt.text < l.kickoff.text

section Steps

variable {host : Host} {s : World} {l r : Reading}

/-- Captures with one fetch time are one capture. -/
theorem World.Tidy.eq_of_fetchedAt (h : s.Tidy) (hl : l ∈ s.captures) (hr : r ∈ s.captures)
    (heq : l.fetchedAt = r.fetchedAt) : l = r :=
  List.inj_on_of_nodup_map h.apart hl hr heq

/-- A capture of the greatest text is the one that is loaded. -/
theorem loadLatest_of_greatest
    (hapart : (s.captures.map Reading.fetchedAt).Nodup) (hl : l ∈ s.captures)
    (hgreatest : ∀ o ∈ s.captures, o.fetchedAt.text ≤ l.fetchedAt.text) :
    loadLatest host s.captures = some l := by
  cases hload : loadLatest host s.captures with
  | none =>
      rw [loadLatest_eq_none_iff.mp hload] at hl
      cases hl
  | some k =>
      obtain ⟨hk, hmax⟩ := loadLatest_spec hload
      have htext : k.fetchedAt = l.fetchedAt :=
        Moment.eq_of_text (le_antisymm (hgreatest k hk) (hmax l hl))
      exact congrArg some (List.inj_on_of_nodup_map hapart hk hl htext)

/-- **In a tidy store the capture fetched last is shown.** -/
theorem World.Tidy.shown (h : s.Tidy) (host : Host) (hl : MostRecent s.captures l) :
    weatherContextFor host s.captures = .forecast l ∧ Suitable s.kickoff l := by
  rcases h.latest with hnil | ⟨k, hk, hgreatest, hsuitable, htext⟩
  · rw [MostRecent, hnil] at hl
    cases hl.1
  · have hkl : k = l := h.eq_of_fetchedAt hk.1 hl.1
      (Moment.eq_of_micros (le_antisymm (hl.2 k hk.1) (hk.2 l hl.1)))
    subst hkl
    refine ⟨?_, hsuitable⟩
    rw [weatherContextFor, loadLatest_of_greatest h.apart hk.1 hgreatest]
    exact if_neg (not_le.mpr htext)

/-- **A tidy store shows the right weather.** -/
theorem World.Tidy.right (h : s.Tidy) : s.Right host := by
  rcases h.latest with hnil | ⟨k, hk, -, hsuitable, -⟩
  · have hcontext : weatherContextFor host s.captures =
        .blocked .noLeakageSafeHistoricalForecastSource := by
      rw [weatherContextFor, loadLatest_eq_none_iff.mpr hnil]
    constructor
    · intro r hr
      rw [hcontext] at hr
      cases hr
    · intro r hr
      rw [hnil] at hr
      cases hr
  · have hshown := (h.shown host hk).1
    refine ⟨fun r hr => ?_, fun r hr hsuits hmost => ?_⟩
    · obtain rfl := WeatherContext.forecast.inj (hshown.symm.trans hr)
      exact ⟨hk.1, hsuitable⟩
    · have hkr : k = r := h.eq_of_fetchedAt hk.1 hr
        (Moment.eq_of_micros (le_antisymm (hmost k hk.1 hsuitable) (hk.2 r hr)))
      rw [hshown, hkr]

theorem mem_saveReading {captures : List Reading} {n o : Reading} :
    o ∈ saveReading captures n ↔ (o ∈ captures ∧ o.fetchedAt ≠ n.fetchedAt) ∨ o = n := by
  have hfile : ∀ o : Reading,
      fileName o.fetchedAt ≠ fileName n.fetchedAt ↔ o.fetchedAt ≠ n.fetchedAt :=
    fun o => not_congr ⟨fileName_injective, congrArg fileName⟩
  simp [saveReading, ← hfile]

theorem nodup_saveReading {captures : List Reading} (n : Reading)
    (h : (captures.map Reading.fetchedAt).Nodup) :
    ((saveReading captures n).map Reading.fetchedAt).Nodup := by
  rw [saveReading, List.map_append, List.nodup_append]
  refine ⟨h.sublist (List.filter_sublist.map _), List.nodup_singleton _, ?_⟩
  intro m hm m' hm' heq
  obtain ⟨o, ho, rfl⟩ := List.mem_map.mp hm
  have hfile := of_decide_eq_true (List.mem_filter.mp ho).2
  exact hfile (congrArg fileName (heq.trans (List.mem_singleton.mp hm')))

/-- What a refresh leaves: a reading of the clock and the kickoff, or what was there. -/
theorem step_refresh_cases (s : World) (now : Moment) (located : Bool) (answer : Answer) :
    (∃ n, n.fetchedAt = now ∧ n.kickoff = s.kickoff ∧ now.micros < s.kickoff.micros ∧
      located = true ∧ fetchForecast answer s.kickoff now = some n ∧
      s.step (.refresh now located answer) = { s with captures := saveReading s.captures n }) ∨
    (¬ (now.micros < s.kickoff.micros ∧ located = true ∧
        fetchForecast answer s.kickoff now ≠ none) ∧
      s.step (.refresh now located answer) = s) := by
  by_cases hlate : s.kickoff.micros ≤ now.micros
  · refine .inr ⟨fun h => absurd h.1 (not_lt.mpr hlate), ?_⟩
    simp [World.step, Weather.refresh, hlate]
  · cases hlocated : located with
    | false =>
        refine .inr ⟨fun h => absurd h.2.1 Bool.false_ne_true, ?_⟩
        simp [World.step, Weather.refresh, hlate]
    | true =>
        cases hfetch : fetchForecast answer s.kickoff now with
        | none =>
            refine .inr ⟨fun h => h.2.2 rfl, ?_⟩
            simp [World.step, Weather.refresh, hlate, hfetch]
        | some n =>
            have hn : n.fetchedAt = now ∧ n.kickoff = s.kickoff := by
              simp only [fetchForecast, Option.bind_eq_bind, Option.bind_eq_some_iff, pure,
                Option.some.injEq] at hfetch
              obtain ⟨hourly, -, row, -, forecast, -, rfl⟩ := hfetch
              exact ⟨rfl, rfl⟩
            refine .inl ⟨n, hn.1, hn.2, not_le.mp hlate, rfl, rfl, ?_⟩
            simp [World.step, Weather.refresh, hlate, hfetch]

/-- A steady step keeps the store tidy. -/
theorem World.Tidy.step (h : s.Tidy) {a : Action} (ha : Steady s a) : (s.step a).Tidy := by
  cases a with
  | move kickoff =>
      refine ⟨h.apart, h.latest.imp_right fun ⟨l, hl, hgreatest, _, htext⟩ => ?_⟩
      exact ⟨l, hl, hgreatest, ha l hl, htext⟩
  | refresh now located answer =>
      rcases step_refresh_cases s now located answer with
        ⟨n, rfl, hkickoff, hbefore, hlocated, hfetch, hstep⟩ | ⟨-, hstep⟩
      · obtain ⟨horder, htext⟩ := ha hbefore hlocated (by rw [hfetch]; exact Option.some_ne_none n)
        have hn : n ∈ saveReading s.captures n := mem_saveReading.mpr (.inr rfl)
        have hsuitable : Suitable s.kickoff n := ⟨hbefore, by rw [hkickoff]⟩
        rw [hstep]
        refine ⟨nodup_saveReading n h.apart, .inr ?_⟩
        by_cases hmost : ∀ r ∈ s.captures, r.fetchedAt.micros ≤ n.fetchedAt.micros
        · refine ⟨n, ⟨hn, fun o ho => ?_⟩, fun o ho => ?_, hsuitable, hkickoff ▸ htext hmost⟩
          · rcases mem_saveReading.mp ho with ⟨ho, -⟩ | rfl
            · exact hmost o ho
            · exact le_refl _
          · rcases mem_saveReading.mp ho with ⟨ho, -⟩ | rfl
            · rcases h.latest with hnil | ⟨l, hl, hgreatest, -, -⟩
              · rw [hnil] at ho
                cases ho
              · refine le_trans (hgreatest o ho) ?_
                rcases lt_or_eq_of_le (hmost l hl.1) with hlt | heq
                · exact le_of_lt ((horder l hl).mpr hlt)
                · rw [Moment.eq_of_micros heq]
            · exact le_refl _
        · rcases h.latest with hnil | ⟨l, hl, hgreatest, hsuits, hl'⟩
          · exact absurd (fun r hr => by rw [hnil] at hr; cases hr) hmost
          · have hlater : n.fetchedAt.micros < l.fetchedAt.micros := by
              by_contra hle
              exact hmost fun r hr => le_trans (hl.2 r hr) (not_lt.mp hle)
            have hkept : l ∈ saveReading s.captures n := by
              refine mem_saveReading.mpr (.inl ⟨hl.1, fun heq => ?_⟩)
              rw [heq] at hlater
              exact lt_irrefl _ hlater
            refine ⟨l, ⟨hkept, fun o ho => ?_⟩, fun o ho => ?_, hsuits, hl'⟩
            · rcases mem_saveReading.mp ho with ⟨ho, -⟩ | rfl
              · exact hl.2 o ho
              · exact le_of_lt hlater
            · rcases mem_saveReading.mp ho with ⟨ho, -⟩ | rfl
              · exact hgreatest o ho
              · exact not_lt.mp fun hlt => lt_asymm hlater ((horder l hl).mp hlt)
      · rw [hstep]
        exact h

/-- A forecast that is shown has the greatest text, before its kickoff's. -/
theorem greatest_of_shown {captures : List Reading}
    (h : weatherContextFor host captures = .forecast l) :
    (∀ o ∈ captures, o.fetchedAt.text ≤ l.fetchedAt.text) ∧
      l.fetchedAt.text < l.kickoff.text := by
  unfold weatherContextFor at h
  split at h
  · cases h
  · next reading hload =>
      split_ifs at h with htext
      obtain rfl := WeatherContext.forecast.inj h
      exact ⟨(loadLatest_spec hload).2, not_le.mp htext⟩

/-- A step after which the weather shown is right is steady. -/
theorem World.Tidy.steady (h : s.Tidy) {a : Action} (hright : (s.step a).Right host) :
    Steady s a := by
  cases a with
  | move kickoff => exact fun r hr => (hright.sound r (h.shown host hr).1).2
  | refresh now located answer =>
      intro hbefore hlocated hfetch
      rcases step_refresh_cases s now located answer with
        ⟨n, rfl, hkickoff, -, -, -, hstep⟩ | ⟨hnot, -⟩
      · rw [hstep] at hright
        have hn : n ∈ saveReading s.captures n := mem_saveReading.mpr (.inr rfl)
        have hsuitable : Suitable s.kickoff n := ⟨hbefore, by rw [hkickoff]⟩
        -- a reading that is the most recent capture is shown
        have hshown : (∀ r ∈ s.captures, r.fetchedAt.micros ≤ n.fetchedAt.micros) →
            weatherContextFor host (saveReading s.captures n) = .forecast n := by
          intro hmost
          refine hright.complete n hn hsuitable fun o ho _ => ?_
          rcases mem_saveReading.mp ho with ⟨ho, -⟩ | rfl
          · exact hmost o ho
          · exact le_refl _
        constructor
        · intro l hl
          rcases lt_trichotomy l.fetchedAt.micros n.fetchedAt.micros with hlt | heq | hlt
          · have hkept : l ∈ saveReading s.captures n := by
              refine mem_saveReading.mpr (.inl ⟨hl.1, fun heq => ?_⟩)
              rw [heq] at hlt
              exact lt_irrefl _ hlt
            have hle := (greatest_of_shown (hshown fun r hr =>
              le_trans (hl.2 r hr) (le_of_lt hlt))).1 l hkept
            refine iff_of_true (lt_of_le_of_ne hle fun heq => ?_) hlt
            rw [Moment.eq_of_text heq] at hlt
            exact lt_irrefl _ hlt
          · rw [Moment.eq_of_micros heq]
            exact iff_of_false (lt_irrefl _) (lt_irrefl _)
          · have hkept : l ∈ saveReading s.captures n := by
              refine mem_saveReading.mpr (.inl ⟨hl.1, fun heq => ?_⟩)
              rw [heq] at hlt
              exact lt_irrefl _ hlt
            have hcontext := hright.complete l hkept (h.shown host hl).2 fun o ho _ => by
              rcases mem_saveReading.mp ho with ⟨ho, -⟩ | rfl
              · exact hl.2 o ho
              · exact le_of_lt hlt
            exact iff_of_false (not_lt.mpr ((greatest_of_shown hcontext).1 n hn))
              (lt_asymm hlt)
        · intro hmost
          rw [← hkickoff]
          exact (greatest_of_shown (hshown hmost)).2
      · exact absurd ⟨hbefore, hlocated, hfetch⟩ hnot

end Steps

/-- **When the weather shown is known before kickoff.** From no captures, the weather shown is right
after every action of a run exactly when every action is steady. -/
theorem weather_right_iff (host : Host) (kickoff : Moment) (actions : List Action) :
    RunAllowed (fun s a => (s.step a).Right host) World.step ⟨kickoff, []⟩ actions ↔
      RunAllowed Steady World.step ⟨kickoff, []⟩ actions := by
  have hstart : World.Tidy ⟨kickoff, []⟩ := ⟨List.nodup_nil, .inl rfl⟩
  exact @RunAllowed.congr _ _ _ _ _ World.Tidy
    (fun _ _ h => ⟨h.steady, fun ha => (h.step ha).right⟩) (fun _ _ h ha => h.step ha) _ hstart
    actions

/-- A host that lists files as they were written. -/
def writtenOrder : Host := ⟨id, fun _ => .refl _⟩

/-- A forecast. -/
def mild : HourlyForecast := ⟨.ofScaled 185 1, 0, 10, .ofScaled 90 1, 3⟩

/-- A moment of 2026-07-01, in whole hours. -/
def july (hour : Nat) : Moment where
  micros := 1782864000000000 + 3600000000 * (hour % 24 : Nat)
  writable := by
    unfold WritableInstant Lib.Calendar.Writable utcDay dayNs
    omega

/-- **A kickoff that moves back** leaves a forecast on display that was fetched after it. -/
theorem weather_shown_after_kickoff :
    ¬ RunAllowed (fun s a => (s.step a).Right writtenOrder) World.step ⟨july 15, []⟩
      [.refresh (july 12) true (some [((july 15).hour, some mild)]), .move (july 11)] := by
  rintro ⟨-, hright, -⟩
  have hshown : weatherContextFor writtenOrder
      [⟨july 12, july 15, mild⟩] = .forecast ⟨july 12, july 15, mild⟩ := by
    decide +kernel
  have hcaptures : ((World.mk (july 15) []).step
      (.refresh (july 12) true (some [((july 15).hour, some mild)]))).captures =
        [⟨july 12, july 15, mild⟩] := by
    decide +kernel
  have hsuitable := (hright.sound ⟨july 12, july 15, mild⟩ (by
    rw [← hshown, ← hcaptures]
    rfl)).2
  revert hsuitable
  decide +kernel

end Golavo.Weather
