import Golavo.Lib.Regex

/-! # What a scan reads

A match of a pattern is a stretch of the text, and a scan misses no place: wherever the pattern matches,
a match of the scan starts or is under way (`exists_covering`). `NotMid` says that a place does not lie
inside a run of characters of a class, and the rules for `EndsWhole` how the match a pattern prefers
comes to end at such a place. -/

namespace Golavo.Lib

/-! ## Places of a text -/

namespace Cursor

/-- A place of the same text that is no earlier. -/
def Later (c d : Cursor) : Prop :=
  ∃ stretch, c.after = stretch ++ d.after ∧ d.before = stretch.reverse ++ c.before

theorem Later.refl (c : Cursor) : Later c c := ⟨[], rfl, rfl⟩

theorem Later.trans {c d e : Cursor} : Later c d → Later d e → Later c e := by
  rintro ⟨s, hafter, hbefore⟩ ⟨t, hafter', hbefore'⟩
  refine ⟨s ++ t, ?_, ?_⟩
  · rw [hafter, hafter', List.append_assoc]
  · rw [hbefore', hbefore, List.reverse_append, List.append_assoc]

/-- One character on. -/
theorem later_step (before : List Char) (x : Char) (after : List Char) :
    Later ⟨before, x :: after⟩ ⟨x :: before, after⟩ := ⟨[x], rfl, rfl⟩

theorem Later.length_le {c d : Cursor} (h : Later c d) : d.after.length ≤ c.after.length := by
  obtain ⟨s, hafter, -⟩ := h
  rw [hafter, List.length_append]
  omega

/-- Of two later places, the one with less behind it is later than the other. -/
theorem Later.later_of_le {c d e : Cursor} (hd : Later c d) (he : Later c e)
    (hle : e.after.length ≤ d.after.length) : Later d e := by
  obtain ⟨s, hafter, hbefore⟩ := hd
  obtain ⟨t, hafter', hbefore'⟩ := he
  have hprefix : s <+: t := by
    refine List.prefix_of_prefix_length_le (show s <+: c.after from ⟨_, hafter.symm⟩)
      ⟨_, hafter'.symm⟩ ?_
    have := congrArg List.length (hafter.symm.trans hafter')
    simp only [List.length_append] at this
    omega
  obtain ⟨u, rfl⟩ := hprefix
  refine ⟨u, ?_, ?_⟩
  · rw [hafter', List.append_assoc] at hafter
    exact (List.append_cancel_left hafter).symm
  · rw [hbefore', hbefore, List.reverse_append, List.append_assoc]

theorem Later.eq_of_length {c d : Cursor} (h : Later c d)
    (hlength : c.after.length ≤ d.after.length) : d = c := by
  obtain ⟨s, hafter, hbefore⟩ := h
  have hnil : s = [] := by
    have := congrArg List.length hafter
    rw [List.length_append] at this
    exact List.length_eq_zero_iff.mp (by omega)
  subst hnil
  cases c
  cases d
  simp_all

/-- A place that is strictly later has the next character behind it. -/
theorem Later.later_tail {before after : List Char} {x : Char} {d : Cursor}
    (h : Later ⟨before, x :: after⟩ d) (hlt : d.after.length ≤ after.length) :
    Later ⟨x :: before, after⟩ d :=
  (later_step before x after).later_of_le h hlt

end Cursor

namespace Regex

open Cursor (Later later_step)

/-! ## Matches are stretches -/

theorem later_of_mem_repeated {step : Cursor → List Cursor}
    (hstep : ∀ {c d}, d ∈ step c → Later c d) {n : Nat} {c d : Cursor}
    (h : d ∈ repeated step n c) : Later c d := by
  induction n generalizing c with
  | zero =>
      rw [repeated, List.mem_singleton] at h
      exact h ▸ Later.refl c
  | succ n ih =>
      simp only [repeated, List.mem_append, List.mem_flatMap, List.mem_singleton] at h
      obtain ⟨e, he, hd⟩ | rfl := h
      · split at hd
        · exact (hstep he).trans (ih hd)
        · cases hd
      · exact Later.refl _

theorem later_of_mem_repeatedLazily {step : Cursor → List Cursor}
    (hstep : ∀ {c d}, d ∈ step c → Later c d) {n : Nat} {c d : Cursor}
    (h : d ∈ repeatedLazily step n c) : Later c d := by
  induction n generalizing c with
  | zero =>
      rw [repeatedLazily, List.mem_singleton] at h
      exact h ▸ Later.refl c
  | succ n ih =>
      simp only [repeatedLazily, List.mem_cons, List.mem_flatMap] at h
      obtain rfl | ⟨e, he, hd⟩ := h
      · exact Later.refl _
      · split at hd
        · exact (hstep he).trans (ih hd)
        · cases hd

/-- A match ends no earlier than it starts, in the same text. -/
theorem later_of_mem_run {r : Regex} {c d : Cursor} (h : d ∈ run r c) : Later c d := by
  induction r generalizing c d with
  | empty =>
      rw [run, List.mem_singleton] at h
      exact h ▸ Later.refl c
  | char p =>
      obtain ⟨before, _ | ⟨x, after⟩⟩ := c
      · cases h
      · simp only [run] at h
        split at h
        · rw [List.mem_singleton] at h
          exact h ▸ later_step before x after
        · cases h
  | seq a b iha ihb =>
      obtain ⟨e, he, hd⟩ := List.mem_flatMap.mp h
      exact (iha he).trans (ihb hd)
  | alt a b iha ihb => exact (List.mem_append.mp h).elim iha ihb
  | star a iha => exact later_of_mem_repeated iha h
  | lazyStar a iha => exact later_of_mem_repeatedLazily iha h
  | notBehind p | notAhead p | boundary p =>
      simp only [run] at h
      split at h
      · cases h
      · rw [List.mem_singleton] at h
        exact h ▸ Later.refl c

/-- A pattern whose matches are never empty. -/
def Consumes (r : Regex) : Prop := ∀ c d, d ∈ run r c → d.after.length < c.after.length

theorem consumes_char (p : Char → Bool) : Consumes (.char p) := by
  rintro ⟨before, _ | ⟨x, after⟩⟩ d h
  · cases h
  · simp only [run] at h
    split at h
    · rw [List.mem_singleton.mp h]
      exact Nat.lt_succ_self _
    · cases h

theorem Consumes.seq_left {a : Regex} (h : Consumes a) (b : Regex) : Consumes (.seq a b) := by
  intro c d hd
  obtain ⟨e, he, hd⟩ := List.mem_flatMap.mp hd
  exact Nat.lt_of_le_of_lt (later_of_mem_run hd).length_le (h c e he)

theorem Consumes.seq_right {b : Regex} (h : Consumes b) (a : Regex) : Consumes (.seq a b) := by
  intro c d hd
  obtain ⟨e, he, hd⟩ := List.mem_flatMap.mp hd
  exact Nat.lt_of_lt_of_le (h e d hd) (later_of_mem_run he).length_le

theorem Consumes.alt {a b : Regex} (ha : Consumes a) (hb : Consumes b) : Consumes (.alt a b) :=
  fun c d hd => (List.mem_append.mp hd).elim (ha c d) (hb c d)

/-! ## Patterns that always match -/

/-- A pattern that matches everywhere, if only the empty text. -/
def Total (r : Regex) : Prop := ∀ c, run r c ≠ []

theorem total_empty : Total .empty := fun _ => List.cons_ne_nil _ _

theorem total_optional (a : Regex) : Total (optional a) := fun c => by
  simp [optional, run]

theorem total_star (a : Regex) : Total (.star a) := fun c => by
  rw [run]
  cases c.after.length <;> simp [repeated]

theorem Total.seq {a b : Regex} (ha : Total a) (hb : Total b) : Total (.seq a b) := by
  intro c
  obtain ⟨d, hd⟩ := List.exists_mem_of_ne_nil _ (ha c)
  obtain ⟨e, he⟩ := List.exists_mem_of_ne_nil _ (hb d)
  exact List.ne_nil_of_mem (List.mem_flatMap.mpr ⟨d, hd, he⟩)

/-- What a sequence prefers, where its second part always matches. -/
theorem head?_run_seq {a b : Regex} (hb : Total b) (c : Cursor) :
    (run (.seq a b) c).head? = (run a c).head?.bind fun d => (run b d).head? := by
  rw [run_seq]
  cases run a c with
  | nil => rfl
  | cons d rest =>
      rw [List.flatMap_cons, List.head?_append, List.head?_cons, Option.bind_some]
      obtain ⟨e, he⟩ := Option.ne_none_iff_exists'.mp (mt List.head?_eq_none_iff.mp (hb d))
      rw [he, Option.some_or]

theorem run_seq_ne_nil {a b : Regex} (hb : Total b) {c : Cursor} (ha : run a c ≠ []) :
    run (.seq a b) c ≠ [] := by
  obtain ⟨d, hd⟩ := List.exists_mem_of_ne_nil _ ha
  obtain ⟨e, he⟩ := List.exists_mem_of_ne_nil _ (hb d)
  exact List.ne_nil_of_mem (List.mem_flatMap.mpr ⟨d, hd, he⟩)

/-! ## Where the preferred match ends -/

/-- A place that does not lie inside a run of characters of a class. -/
def NotMid (p : Char → Bool) (c : Cursor) : Prop :=
  ¬ (c.before.head?.any p = true ∧ c.after.head?.any p = true)

/-- The preferred match never ends inside a run. -/
def EndsWhole (p : Char → Bool) (r : Regex) : Prop :=
  ∀ c d, (run r c).head? = some d → NotMid p d

/-- From a place not inside a run, the preferred match leads to another. -/
def KeepsWhole (p : Char → Bool) (r : Regex) : Prop :=
  ∀ c d, NotMid p c → (run r c).head? = some d → NotMid p d

variable {p : Char → Bool}

theorem EndsWhole.keeps {r : Regex} (h : EndsWhole p r) : KeepsWhole p r := fun c d _ => h c d

/-- One character of no run ends none. -/
theorem endsWhole_char {q : Char → Bool} (hq : ∀ x, q x = true → p x = false) :
    EndsWhole p (.char q) := by
  rintro ⟨before, _ | ⟨x, after⟩⟩ d h
  · cases h
  · simp only [run] at h
    split at h
    · next hx =>
        cases h
        simp [NotMid, hq x hx]
    · cases h

/-- Where a greedy repetition of a class prefers to end. -/
theorem head?_repeated_char (q : Char → Bool) {n : Nat} {before after : List Char}
    (hn : after.length ≤ n) :
    (repeated (run (.char q)) n ⟨before, after⟩).head? =
      some ⟨(after.takeWhile q).reverse ++ before, after.dropWhile q⟩ := by
  induction n generalizing before after with
  | zero =>
      cases List.length_eq_zero_iff.mp (Nat.le_zero.mp hn)
      rfl
  | succ n ih =>
      cases after with
      | nil => rfl
      | cons x after =>
          simp only [repeated, run]
          by_cases hx : q x = true
          · have hshorter : (⟨x :: before, after⟩ : Cursor).after.length < (x :: after).length :=
              Nat.lt_succ_self _
            rw [if_pos hx, List.flatMap_cons, List.flatMap_nil, List.append_nil,
              if_pos hshorter, List.head?_append, ih (Nat.le_of_succ_le_succ hn),
              Option.some_or, List.takeWhile_cons_of_pos hx, List.dropWhile_cons_of_pos hx,
              List.reverse_cons, List.append_assoc, List.singleton_append]
          · rw [if_neg hx, List.flatMap_nil, List.nil_append, List.head?_cons,
              List.takeWhile_cons_of_neg hx, List.dropWhile_cons_of_neg hx, List.reverse_nil,
              List.nil_append]

theorem head?_star_char (q : Char → Bool) (before after : List Char) :
    (run (.star (.char q)) ⟨before, after⟩).head? =
      some ⟨(after.takeWhile q).reverse ++ before, after.dropWhile q⟩ :=
  head?_repeated_char q (Nat.le_refl _)

/-- A greedy repetition of a class ends no run of it. -/
theorem endsWhole_star {q : Char → Bool} (hq : ∀ x, p x = true → q x = true) :
    EndsWhole p (.star (.char q)) := by
  rintro ⟨before, after⟩ d h
  rw [head?_star_char] at h
  cases h
  rintro ⟨-, hafter⟩
  obtain ⟨x, hx, hpx⟩ := Option.any_eq_true _ _ |>.mp hafter
  have := List.head?_dropWhile_not q after
  rw [hx] at this
  simp [hq x hpx] at this

theorem EndsWhole.seq_right {b : Regex} (h : EndsWhole p b) (a : Regex) :
    EndsWhole p (.seq a b) := by
  intro c d hd
  rw [run_seq] at hd
  generalize run a c = places at hd
  induction places with
  | nil => cases hd
  | cons e rest ih =>
      rw [List.flatMap_cons, List.head?_append] at hd
      cases hhead : (run b e).head? with
      | none =>
          rw [hhead] at hd
          exact ih hd
      | some d' =>
          rw [hhead, Option.some_or] at hd
          cases hd
          exact h e d hhead

theorem EndsWhole.seq {a b : Regex} (ha : EndsWhole p a) (hb : KeepsWhole p b) (htotal : Total b) :
    EndsWhole p (.seq a b) := by
  intro c d hd
  rw [head?_run_seq htotal] at hd
  obtain ⟨e, he, hd⟩ := Option.bind_eq_some_iff.mp hd
  exact hb e d (ha c e he) hd

theorem KeepsWhole.seq {a b : Regex} (ha : KeepsWhole p a) (hb : KeepsWhole p b)
    (htotal : Total b) : KeepsWhole p (.seq a b) := by
  intro c d hc hd
  rw [head?_run_seq htotal] at hd
  obtain ⟨e, he, hd⟩ := Option.bind_eq_some_iff.mp hd
  exact hb e d (ha c e hc he) hd

theorem EndsWhole.alt {a b : Regex} (ha : EndsWhole p a) (hb : EndsWhole p b) :
    EndsWhole p (.alt a b) := by
  intro c d hd
  rw [run, List.head?_append] at hd
  cases hhead : (run a c).head? with
  | none =>
      rw [hhead] at hd
      exact hb c d hd
  | some d' =>
      rw [hhead, Option.some_or] at hd
      cases hd
      exact ha c d hhead

theorem keepsWhole_empty : KeepsWhole p .empty := by
  intro c d hc hd
  cases hd
  exact hc

theorem EndsWhole.optional {a : Regex} (h : EndsWhole p a) : KeepsWhole p (optional a) := by
  intro c d hc hd
  rw [Regex.optional, run, List.head?_append] at hd
  cases hhead : (run a c).head? with
  | none =>
      rw [hhead] at hd
      cases hd
      exact hc
  | some d' =>
      rw [hhead, Option.some_or] at hd
      cases hd
      exact h c d hhead

/-- One or more of a class, greedily. -/
theorem endsWhole_plus (q : Char → Bool) (hq : ∀ x, p x = true → q x = true) :
    EndsWhole p (plus (.char q)) := (endsWhole_star hq).seq_right _

/-! ## Scans -/

variable {r : Regex}

/-- A search finds the match it says, no earlier than where it starts. -/
theorem search_eq_some {before after : List Char} {m : Match}
    (h : search r before after = some m) :
    Later ⟨before, after⟩ m.start ∧ (run r m.start).head? = some m.stop := by
  induction after generalizing before with
  | nil =>
      rw [search] at h
      obtain ⟨stop, hstop, rfl⟩ := Option.map_eq_some_iff.mp h
      exact ⟨Later.refl _, hstop⟩
  | cons x after ih =>
      rw [search] at h
      cases hhead : (run r ⟨before, x :: after⟩).head? with
      | some stop =>
          rw [hhead] at h
          cases h
          exact ⟨Later.refl _, hhead⟩
      | none =>
          rw [hhead] at h
          exact ⟨(later_step before x after).trans (ih h).1, (ih h).2⟩

/-- A search that meets a place with a match finds one there or before. -/
theorem exists_search {before after : List Char} {c : Cursor} (hc : Later ⟨before, after⟩ c)
    (hrun : run r c ≠ []) : ∃ m, search r before after = some m ∧ Later m.start c := by
  induction after generalizing before with
  | nil =>
      obtain rfl := hc.eq_of_length (Nat.zero_le _)
      obtain ⟨stop, hstop⟩ := Option.ne_none_iff_exists'.mp (mt List.head?_eq_none_iff.mp hrun)
      exact ⟨⟨⟨before, []⟩, stop⟩, by rw [search, hstop]; rfl, Later.refl _⟩
  | cons x after ih =>
      rw [search]
      cases hhead : (run r ⟨before, x :: after⟩).head? with
      | some stop => exact ⟨_, rfl, hc⟩
      | none =>
          have hne : c ≠ ⟨before, x :: after⟩ := by
            rintro rfl
            exact hrun (List.head?_eq_none_iff.mp hhead)
          refine ih (hc.later_tail ?_)
          by_contra hlong
          exact hne (hc.eq_of_length (by rw [List.length_cons]; omega))

/-- Every match of a scan is one of the pattern, in the text. -/
theorem of_mem_scan {n : Nat} {c : Cursor} {m : Match} (h : m ∈ scan r n c) :
    Later c m.start ∧ (run r m.start).head? = some m.stop := by
  induction n generalizing c with
  | zero => cases h
  | succ n ih =>
      rw [scan] at h
      cases hsearch : search r c.before c.after with
      | none =>
          rw [hsearch] at h
          cases h
      | some m' =>
          rw [hsearch] at h
          obtain ⟨hstart, hstop⟩ := search_eq_some hsearch
          have hlater := hstart.trans (later_of_mem_run (List.mem_of_mem_head? hstop))
          obtain rfl | h := List.mem_cons.mp h
          · exact ⟨hstart, hstop⟩
          · split at h
            · exact ⟨hlater.trans (ih h).1, (ih h).2⟩
            · split at h
              · cases h
              · next x rest hrest =>
                  refine ⟨hlater.trans (Later.trans ?_ (ih h).1), (ih h).2⟩
                  exact ⟨[x], hrest, rfl⟩

/-- **A scan misses no place**: where the pattern matches, a match starts or is under way. -/
theorem exists_covering {n : Nat} {c d : Cursor} (hn : c.after.length < n) (hd : Later c d)
    (hrun : run r d ≠ []) :
    ∃ m ∈ scan r n c, Later m.start d ∧ (m.start = d ∨ m.stop.after.length < d.after.length) := by
  induction n generalizing c with
  | zero => omega
  | succ n ih =>
      obtain ⟨m, hsearch, hmd⟩ := exists_search hd hrun
      obtain ⟨hstart, hstop⟩ := search_eq_some hsearch
      have hmatch := later_of_mem_run (List.mem_of_mem_head? hstop)
      have hmem : m ∈ scan r (n + 1) c := by
        rw [scan, hsearch]
        exact List.mem_cons_self
      by_cases hunder : m.start = d ∨ m.stop.after.length < d.after.length
      · exact ⟨m, hmem, hmd, hunder⟩
      · obtain ⟨hne, hbehind⟩ := not_or.mp hunder
        have hstopd : Later m.stop d := hmatch.later_of_le hmd (by omega)
        have hlength : m.start.after.length ≤ c.after.length := hstart.length_le
        by_cases hmoved : m.stop.after.length < m.start.after.length
        · obtain ⟨m', hmem', hd'⟩ := ih (by omega) hstopd
          refine ⟨m', ?_, hd'⟩
          simp only [scan, hsearch, if_pos hmoved]
          exact List.mem_cons_of_mem _ hmem'
        · have heq : m.stop = m.start := hmatch.eq_of_length (by omega)
          have hlong : d.after.length < m.start.after.length := by
            by_contra hle
            exact hne (hmd.eq_of_length (by omega)).symm
          cases hafter : m.stop.after with
          | nil =>
              rw [← heq, hafter] at hlong
              exact absurd hlong (Nat.not_lt_zero _)
          | cons x rest =>
              have hrest : d.after.length ≤ rest.length := by
                rw [← heq, hafter, List.length_cons] at hlong
                omega
              have hlater : Later ⟨m.stop.before, x :: rest⟩ d := hafter ▸ hstopd
              have hlen : rest.length < n := by
                rw [← heq, hafter, List.length_cons] at hlength
                omega
              obtain ⟨m', hmem', hd'⟩ := ih hlen (hlater.later_tail hrest)
              refine ⟨m', ?_, hd'⟩
              rw [hafter] at hmoved
              simp only [scan, hsearch, hafter, if_neg hmoved]
              exact List.mem_cons_of_mem _ hmem'

end Regex

end Golavo.Lib
