import Golavo.Lib.RegexScan

/-! # The language of a pattern

A pattern without assertions about its surroundings matches a stretch of a text whatever stands around
it. `Accepts` is the set of such stretches; a scan finds a match exactly where one of them stands
(`found_iff`). -/

namespace Golavo.Lib

namespace Cursor

/-- A place is another with a stretch read. -/
def Ahead (c : Cursor) (w : List Char) (d : Cursor) : Prop :=
  c.after = w ++ d.after ∧ d.before = w.reverse ++ c.before

theorem ahead_nil {c d : Cursor} : Ahead c [] d ↔ d = c := by
  obtain ⟨before, after⟩ := c
  obtain ⟨before', after'⟩ := d
  simp only [Ahead, List.nil_append, List.reverse_nil, Cursor.mk.injEq]
  exact ⟨fun ⟨hafter, hbefore⟩ => ⟨hbefore, hafter.symm⟩, fun ⟨hbefore, hafter⟩ =>
    ⟨hafter.symm, hbefore⟩⟩

theorem ahead_append {c d : Cursor} {v w : List Char} :
    Ahead c (v ++ w) d ↔ ∃ e, Ahead c v e ∧ Ahead e w d := by
  constructor
  · rintro ⟨hafter, hbefore⟩
    refine ⟨⟨v.reverse ++ c.before, w ++ d.after⟩, ⟨?_, rfl⟩, rfl, ?_⟩
    · rw [hafter, List.append_assoc]
    · rw [hbefore, List.reverse_append, List.append_assoc]
  · rintro ⟨e, ⟨hafter, hbefore⟩, hafter', hbefore'⟩
    refine ⟨?_, ?_⟩
    · rw [hafter, hafter', List.append_assoc]
    · rw [hbefore', hbefore, List.reverse_append, List.append_assoc]

theorem Ahead.length {c d : Cursor} {w : List Char} (h : Ahead c w d) :
    c.after.length = w.length + d.after.length := by
  rw [h.1, List.length_append]

end Cursor

namespace Regex

open Cursor (Ahead ahead_nil ahead_append Later)

/-- The stretches a pattern without assertions matches. -/
def Accepts : Regex → List Char → Prop
  | .empty, w => w = []
  | .char p, w => ∃ x, w = [x] ∧ p x = true
  | .seq a b, w => ∃ v t, w = v ++ t ∧ Accepts a v ∧ Accepts b t
  | .alt a b, w => Accepts a w ∨ Accepts b w
  | .star a, w => ∃ parts : List (List Char), w = parts.flatten ∧ ∀ v ∈ parts, Accepts a v
  | _, _ => False

/-- Whether a pattern is made of characters, sequences, alternatives and repetitions. -/
def plain : Regex → Bool
  | .empty | .char _ => true
  | .seq a b | .alt a b => plain a && plain b
  | .star a => plain a
  | _ => false

/-- Repeating a step reads a sequence of what the step reads. -/
theorem mem_repeated_iff {step : Cursor → List Cursor} {L : List Char → Prop}
    (hstep : ∀ {c d}, d ∈ step c ↔ ∃ w, L w ∧ Ahead c w d) {n : Nat} {c d : Cursor}
    (hn : c.after.length ≤ n) :
    d ∈ repeated step n c ↔
      ∃ parts : List (List Char), (∀ v ∈ parts, L v) ∧ Ahead c parts.flatten d := by
  constructor
  · clear hn
    intro h
    induction n generalizing c with
    | zero =>
        rw [repeated, List.mem_singleton] at h
        exact ⟨[], fun v hv => absurd hv List.not_mem_nil, ahead_nil.mpr h⟩
    | succ n ih =>
        rw [repeated, List.mem_append, List.mem_flatMap, List.mem_singleton] at h
        obtain ⟨e, he, hd⟩ | rfl := h
        · split at hd
          · obtain ⟨w, hw, hce⟩ := hstep.mp he
            obtain ⟨parts, hparts, hed⟩ := ih hd
            exact ⟨w :: parts, List.forall_mem_cons.mpr ⟨hw, hparts⟩, ahead_append.mpr ⟨e, hce, hed⟩⟩
          · cases hd
        · exact ⟨[], fun v hv => absurd hv List.not_mem_nil, ahead_nil.mpr rfl⟩
  · rintro ⟨parts, hparts, h⟩
    induction parts generalizing c n with
    | nil =>
        obtain rfl := ahead_nil.mp h
        cases n <;> simp [repeated]
    | cons v rest ih =>
        rw [List.forall_mem_cons] at hparts
        obtain ⟨e, hce, hed⟩ := ahead_append.mp h
        by_cases hv : v = []
        · subst hv
          obtain rfl := ahead_nil.mp hce
          exact ih hn hparts.2 hed
        · have hlength := hce.length
          have hpos := List.length_pos_iff.mpr hv
          cases n with
          | zero => omega
          | succ n =>
              rw [repeated, List.mem_append, List.mem_flatMap]
              refine .inl ⟨e, hstep.mpr ⟨v, hparts.1, hce⟩, ?_⟩
              rw [if_pos (by omega)]
              exact ih (by omega) hparts.2 hed

/-- **A pattern without assertions** leads from a place to another by the stretches it accepts. -/
theorem mem_run_iff {r : Regex} (hr : r.plain = true) {c d : Cursor} :
    d ∈ run r c ↔ ∃ w, Accepts r w ∧ Ahead c w d := by
  induction r generalizing c d with
  | empty =>
      rw [run, List.mem_singleton, ← ahead_nil]
      constructor
      · intro h
        exact ⟨[], rfl, h⟩
      · rintro ⟨w, hw, h⟩
        rwa [show w = [] from hw] at h
  | char p =>
      obtain ⟨before, _ | ⟨x, after⟩⟩ := c
      · refine iff_of_false (by rw [run]; exact List.not_mem_nil) ?_
        rintro ⟨w, ⟨x, rfl, -⟩, hafter, -⟩
        cases hafter
      · rw [run]
        constructor
        · intro h
          split at h
          · next hx =>
              rw [List.mem_singleton] at h
              exact ⟨[x], ⟨x, rfl, hx⟩, by rw [h]; rfl, by rw [h]; rfl⟩
          · cases h
        · rintro ⟨w, ⟨y, rfl, hy⟩, hafter, hbefore⟩
          obtain ⟨rfl, rfl⟩ := List.cons.inj hafter
          rw [if_pos hy, List.mem_singleton]
          obtain ⟨before', after'⟩ := d
          exact congrArg (Cursor.mk · after') hbefore
  | seq a b iha ihb =>
      simp only [plain, Bool.and_eq_true] at hr
      simp only [run, List.mem_flatMap, iha hr.1, ihb hr.2]
      constructor
      · rintro ⟨e, ⟨v, hv, hce⟩, t, ht, hed⟩
        exact ⟨v ++ t, ⟨v, t, rfl, hv, ht⟩, ahead_append.mpr ⟨e, hce, hed⟩⟩
      · rintro ⟨w, ⟨v, t, rfl, hv, ht⟩, h⟩
        obtain ⟨e, hce, hed⟩ := ahead_append.mp h
        exact ⟨e, ⟨v, hv, hce⟩, t, ht, hed⟩
  | alt a b iha ihb =>
      simp only [plain, Bool.and_eq_true] at hr
      simp only [run, List.mem_append, iha hr.1, ihb hr.2, Accepts, or_and_right, exists_or]
  | star a iha =>
      rw [run, mem_repeated_iff (fun {c d} => iha hr) (Nat.le_refl _)]
      constructor
      · rintro ⟨parts, hparts, h⟩
        exact ⟨_, ⟨parts, rfl, hparts⟩, h⟩
      · rintro ⟨w, ⟨parts, rfl, hparts⟩, h⟩
        exact ⟨parts, hparts, h⟩
  | lazyStar | notBehind | notAhead | boundary => cases hr

/-- **A scan finds a match** exactly where a stretch the pattern accepts stands. -/
theorem found_iff {r : Regex} (hr : r.plain = true) {s : List Char} :
    r.found s = true ↔ ∃ a w b, s = a ++ w ++ b ∧ Accepts r w := by
  rw [found, Option.isSome_iff_exists]
  constructor
  · rintro ⟨m, hm⟩
    obtain ⟨⟨a, hafter, -⟩, hstop⟩ := search_eq_some hm
    obtain ⟨w, hw, hahead, -⟩ := (mem_run_iff hr).mp (List.mem_of_mem_head? hstop)
    exact ⟨a, w, m.stop.after, by rw [List.append_assoc, ← hahead]; exact hafter, hw⟩
  · rintro ⟨a, w, b, rfl, hw⟩
    have hlater : Later ⟨[], a ++ w ++ b⟩ ⟨a.reverse, w ++ b⟩ :=
      ⟨a, List.append_assoc _ _ _, (List.append_nil _).symm⟩
    have hmem : (⟨w.reverse ++ a.reverse, b⟩ : Cursor) ∈ run r ⟨a.reverse, w ++ b⟩ :=
      (mem_run_iff hr).mpr ⟨w, hw, rfl, rfl⟩
    obtain ⟨m, hm, -⟩ := exists_search hlater (List.ne_nil_of_mem hmem)
    exact ⟨m, hm⟩

/-! ## Writing patterns -/

/-- At most so many times, as often as possible. -/
def upTo : Nat → Regex → Regex
  | 0, _ => .empty
  | n + 1, a => optional (.seq a (upTo n a))

theorem plain_upTo {a : Regex} (h : a.plain = true) (n : Nat) : (upTo n a).plain = true := by
  induction n with
  | zero => rfl
  | succ n ih => simp [upTo, optional, plain, h, ih]

theorem accepts_upTo_char {p : Char → Bool} {n : Nat} {w : List Char} :
    Accepts (upTo n (.char p)) w ↔ w.length ≤ n ∧ ∀ x ∈ w, p x = true := by
  induction n generalizing w with
  | zero =>
      rw [upTo, Accepts, Nat.le_zero, List.length_eq_zero_iff]
      exact ⟨fun h => ⟨h, by rw [h]; exact nofun⟩, And.left⟩
  | succ n ih =>
      rw [upTo, optional, Accepts, Accepts]
      constructor
      · rintro (⟨v, t, rfl, ⟨x, rfl, hx⟩, ht⟩ | rfl)
        · obtain ⟨hlength, hall⟩ := ih.mp ht
          refine ⟨by simpa using hlength, ?_⟩
          rw [List.singleton_append, List.forall_mem_cons]
          exact ⟨hx, hall⟩
        · exact ⟨Nat.zero_le _, nofun⟩
      · rintro ⟨hlength, hall⟩
        cases w with
        | nil => exact .inr rfl
        | cons x t =>
            rw [List.forall_mem_cons] at hall
            exact .inl ⟨[x], t, rfl, ⟨x, rfl, hall.1⟩, ih.mpr ⟨Nat.le_of_succ_le_succ hlength, hall.2⟩⟩

/-! ## Edges -/

/-- Every stretch a pattern accepts starts with a character of a class. -/
def StartsWith (p : Char → Prop) (r : Regex) : Prop :=
  ∀ w, Accepts r w → ∃ x t, w = x :: t ∧ p x

/-- Every stretch a pattern accepts ends with a character of a class. -/
def EndsWith (p : Char → Prop) (r : Regex) : Prop :=
  ∀ w, Accepts r w → ∃ t x, w = t ++ [x] ∧ p x

section Edges

variable {p : Char → Prop} {a b : Regex}

theorem startsWith_char {q : Char → Bool} (h : ∀ x, q x = true → p x) : StartsWith p (.char q) := by
  rintro w ⟨x, rfl, hx⟩
  exact ⟨x, [], rfl, h x hx⟩

theorem endsWith_char {q : Char → Bool} (h : ∀ x, q x = true → p x) : EndsWith p (.char q) := by
  rintro w ⟨x, rfl, hx⟩
  exact ⟨[], x, rfl, h x hx⟩

theorem StartsWith.seq (h : StartsWith p a) (b : Regex) : StartsWith p (.seq a b) := by
  rintro w ⟨v, t, rfl, hv, -⟩
  obtain ⟨x, rest, rfl, hx⟩ := h v hv
  exact ⟨x, rest ++ t, rfl, hx⟩

theorem EndsWith.seq (h : EndsWith p b) (a : Regex) : EndsWith p (.seq a b) := by
  rintro w ⟨v, t, rfl, -, ht⟩
  obtain ⟨front, x, rfl, hx⟩ := h t ht
  exact ⟨v ++ front, x, by rw [List.append_assoc], hx⟩

/-- What follows may be nothing. -/
theorem EndsWith.seq_empty (h : EndsWith p a) : EndsWith p (.seq a .empty) := by
  rintro w ⟨v, t, rfl, hv, rfl⟩
  rw [List.append_nil]
  exact h v hv

theorem StartsWith.alt (ha : StartsWith p a) (hb : StartsWith p b) : StartsWith p (.alt a b) :=
  fun w hw => hw.elim (ha w) (hb w)

theorem EndsWith.alt (ha : EndsWith p a) (hb : EndsWith p b) : EndsWith p (.alt a b) :=
  fun w hw => hw.elim (ha w) (hb w)

end Edges

/-! ## Replacing matches -/

/-- A text without matches is left as it is. -/
theorem replaceAll_of_not_found {r : Regex} {s : List Char} (h : r.found s = false)
    (replacement : List Char) : r.replaceAll replacement s = s := by
  rw [found, Option.isSome_eq_false_iff, Option.isNone_iff_eq_none] at h
  rw [replaceAll, findAll, scan, h]
  rfl

/-- What follows a place of a text follows it from each later place on. -/
theorem drop_of_later {s : List Char} {c d : Cursor} (h : Later c d)
    (hs : s.drop c.before.length = c.after) : s.drop d.before.length = d.after := by
  obtain ⟨w, hafter, hbefore⟩ := h
  rw [hbefore, List.length_append, List.length_reverse, Nat.add_comm, ← List.drop_drop, hs, hafter,
    List.drop_left]

/-- A class that the replacement has no character of: what is left of a text in that class stands in it
in the same order. -/
theorem sublist_replaceFrom {r : Regex} {q : Char → Bool} {replacement : List Char}
    (hreplacement : replacement.filter q = []) {n : Nat} {s : List Char} {c d : Cursor}
    (hs : s.drop c.before.length = c.after) (hcd : Later c d) :
    ((replaceFrom replacement s c.before.length (scan r n d)).filter q).Sublist c.after := by
  have hend : ∀ {e : Cursor}, s.drop e.before.length = e.after →
      ((replaceFrom replacement s e.before.length []).filter q).Sublist e.after := by
    intro e he
    rw [replaceFrom, he]
    exact List.filter_sublist
  induction n generalizing c d with
  | zero => exact hend hs
  | succ n ih =>
      rw [scan]
      cases hsearch : search r d.before d.after with
      | none => exact hend hs
      | some m =>
          obtain ⟨hstart, hstop⟩ := search_eq_some hsearch
          have hmatch := later_of_mem_run (List.mem_of_mem_head? hstop)
          have hcm := hcd.trans hstart
          have hs' := drop_of_later (hcm.trans hmatch) hs
          -- whatever is scanned behind the match starts no earlier than where the match ends
          have hrest : ∀ rest, rest = (if m.stop.after.length < m.start.after.length then
              scan r n m.stop else List.casesOn (motive := fun _ => List Match) m.stop.after []
                fun x after => scan r n ⟨x :: m.stop.before, after⟩) →
              ((replaceFrom replacement s m.stop.before.length rest).filter q).Sublist
                m.stop.after := by
            rintro rest rfl
            split
            · exact ih hs' (Later.refl _)
            · cases hafter : m.stop.after with
              | nil =>
                  have hnil := hend hs'
                  rwa [hafter] at hnil
              | cons x after =>
                  have hcons := @ih m.stop ⟨x :: m.stop.before, after⟩ hs' ⟨[x], hafter, rfl⟩
                  rwa [hafter] at hcons
          obtain ⟨stretch, hafter, hbefore⟩ := hcm
          have hposition : m.position - c.before.length = stretch.length := by
            rw [Match.position, hbefore, List.length_append, List.length_reverse]
            omega
          obtain ⟨covered, hcovered, -⟩ := hmatch
          dsimp only
          rw [replaceFrom, hs, hafter, hposition, List.take_left, List.filter_append,
            List.filter_append, hreplacement, List.append_nil]
          refine List.filter_sublist.append ((hrest _ ?_).trans ?_)
          · cases m.stop.after <;> rfl
          · rw [hcovered]
            exact List.sublist_append_right _ _

/-- Replacing matches by what has no character of a class keeps the rest of the class in order. -/
theorem sublist_replaceAll (r : Regex) {q : Char → Bool} {replacement : List Char}
    (hreplacement : replacement.filter q = []) (s : List Char) :
    ((r.replaceAll replacement s).filter q).Sublist s :=
  sublist_replaceFrom (c := ⟨[], s⟩) hreplacement rfl (Later.refl _)

end Regex

end Golavo.Lib
