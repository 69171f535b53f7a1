import Mathlib.Data.List.Basic
import Mathlib.Tactic.SplitIfs

/-! # Scanning a text

`splitlines` cuts a text at its line breaks and drops them (`str.splitlines`). `shortest` is a lazy
group of a regular expression: the shortest part in front of a text, not empty, whose rest the
expression goes on to match. A part of the text that ends before any such rest starts lies inside the
group (`IsShortest.exists_infix_iff`). -/

namespace Golavo.Lib.Scan

variable {α : Type*}

/-! ## Lazy groups -/

/-- The shortest part in front of a text, not empty, whose rest is accepted, and that rest. -/
def shortest (accepts : List α → Bool) : List α → Option (List α × List α)
  | [] => none
  | c :: s =>
      if accepts s then some ([c], s)
      else (shortest accepts s).map fun (front, rest) => (c :: front, rest)

/-- A text's shortest part whose rest is accepted. -/
structure IsShortest (accepts : List α → Bool) (s front rest : List α) : Prop where
  append : front ++ rest = s
  ne_nil : front ≠ []
  accepted : accepts rest = true
  first : ∀ before after, before ++ after = front → before ≠ [] → after ≠ [] →
    accepts (after ++ rest) = false

variable {accepts : List α → Bool} {s front rest : List α}

theorem isShortest_singleton {c : α} (h : accepts s = true) :
    IsShortest accepts (c :: s) [c] s where
  append := rfl
  ne_nil := List.cons_ne_nil _ _
  accepted := h
  first := by
    intro before after happend hbefore hafter
    have hlength := congrArg List.length happend
    rw [List.length_append, List.length_singleton] at hlength
    have hb := List.length_pos_iff.mpr hbefore
    have ha := List.length_pos_iff.mpr hafter
    omega

/-- Where the rest behind the first character is not accepted, the search goes on behind it. -/
theorem isShortest_cons_iff {c : α} (h : accepts s = false) :
    IsShortest accepts (c :: s) front rest ↔
      ∃ front', front = c :: front' ∧ IsShortest accepts s front' rest := by
  constructor
  · rintro ⟨happend, hne, haccepted, hfirst⟩
    obtain ⟨d, front', rfl⟩ := List.exists_cons_of_ne_nil hne
    rw [List.cons_append, List.cons.injEq] at happend
    obtain ⟨rfl, htail⟩ := happend
    refine ⟨front', rfl, htail, ?_, haccepted, ?_⟩
    · rintro rfl
      rw [List.nil_append] at htail
      rw [htail, h] at haccepted
      exact Bool.false_ne_true haccepted
    · intro before after hsplit _ hafter
      exact hfirst (d :: before) after (by rw [List.cons_append, hsplit]) (List.cons_ne_nil _ _)
        hafter
  · rintro ⟨front', rfl, happend, -, haccepted, hfirst⟩
    refine ⟨by rw [List.cons_append, happend], List.cons_ne_nil _ _, haccepted, ?_⟩
    intro before after hsplit hbefore hafter
    obtain ⟨d, before, rfl⟩ := List.exists_cons_of_ne_nil hbefore
    rw [List.cons_append, List.cons.injEq] at hsplit
    obtain ⟨rfl, htail⟩ := hsplit
    by_cases hnil : before = []
    · subst hnil
      rw [List.nil_append] at htail
      rwa [htail, happend]
    · exact hfirst before after htail hnil hafter

/-- **What the search finds** is the shortest part. -/
theorem shortest_eq_some_iff :
    shortest accepts s = some (front, rest) ↔ IsShortest accepts s front rest := by
  induction s generalizing front with
  | nil =>
      refine iff_of_false (by simp [shortest]) fun h => h.ne_nil ?_
      exact (List.append_eq_nil_iff.mp h.append).1
  | cons c s ih =>
      rw [shortest]
      cases haccepts : accepts s with
      | true =>
          rw [if_pos rfl, Option.some.injEq, Prod.mk.injEq]
          constructor
          · rintro ⟨rfl, rfl⟩
            exact isShortest_singleton haccepts
          · intro h
            obtain ⟨d, front', rfl⟩ := List.exists_cons_of_ne_nil h.ne_nil
            have happend := h.append
            rw [List.cons_append, List.cons.injEq] at happend
            obtain ⟨rfl, happend⟩ := happend
            by_cases hnil : front' = []
            · subst hnil
              exact ⟨rfl, happend.symm⟩
            · have hfirst := h.first [d] front' rfl (List.cons_ne_nil _ _) hnil
              rw [happend, haccepts] at hfirst
              exact absurd hfirst (by decide)
      | false =>
          rw [if_neg Bool.false_ne_true, isShortest_cons_iff haccepts, Option.map_eq_some_iff]
          constructor
          · rintro ⟨⟨front', rest'⟩, hfound, heq⟩
            obtain ⟨rfl, rfl⟩ := Prod.mk.inj heq
            exact ⟨front', rfl, ih.mp hfound⟩
          · rintro ⟨front', rfl, h⟩
            exact ⟨(front', rest), ih.mpr h, rfl⟩

/-- **What lies inside a lazy group**: a part of the text that ends before any later rest that is
accepted starts. -/
theorem IsShortest.exists_infix_iff (h : IsShortest accepts s front rest) (shows : List α → Prop) :
    (∃ part, shows part ∧ part <:+: front) ↔
      ∃ before part after, before ++ part ++ after = s ∧ shows part ∧
        ∀ start tail, start ++ tail = s → start ≠ [] → after.length < tail.length →
          accepts tail = false := by
  constructor
  · rintro ⟨part, hpart, before, after, hwithin⟩
    refine ⟨before, part, after ++ rest, ?_, hpart, ?_⟩
    · rw [← List.append_assoc, hwithin, h.append]
    · intro start tail hsplit hstart hlength
      -- the rest starts inside the group
      have hlt : rest.length < tail.length := by
        rw [List.length_append] at hlength
        omega
      have hsuffix : rest <:+ tail := by
        exact List.suffix_of_suffix_length_le ⟨front, h.append⟩ ⟨start, hsplit⟩ (Nat.le_of_lt hlt)
      obtain ⟨middle, rfl⟩ := hsuffix
      have hfront : start ++ middle = front := by
        have happend := h.append
        rw [← hsplit, ← List.append_assoc] at happend
        exact (List.append_cancel_right happend).symm
      refine h.first start middle hfront hstart ?_
      rintro rfl
      exact Nat.lt_irrefl _ hlt
  · rintro ⟨before, part, after, hsplit, hpart, hnone⟩
    have hlength : rest.length ≤ after.length := by
      by_contra hlt
      have hrejected := hnone front rest h.append h.ne_nil (by omega)
      rw [h.accepted] at hrejected
      exact absurd hrejected (by decide)
    have hsuffix : rest <:+ after :=
      List.suffix_of_suffix_length_le ⟨front, h.append⟩ ⟨before ++ part, hsplit⟩ hlength
    obtain ⟨middle, rfl⟩ := hsuffix
    refine ⟨part, hpart, before, middle, ?_⟩
    rw [← h.append, ← List.append_assoc] at hsplit
    exact List.append_cancel_right hsplit

/-- A run that ends where its class does is what the class takes. -/
theorem span_append {p : α → Bool} {run rest : List α} (hrun : ∀ c ∈ run, p c = true)
    (hrest : ∀ c ∈ rest.head?, p c = false) :
    (run ++ rest).takeWhile p = run ∧ (run ++ rest).dropWhile p = rest := by
  induction run with
  | nil =>
      cases rest with
      | nil => exact ⟨rfl, rfl⟩
      | cons c rest =>
          have hc := hrest c rfl
          rw [List.nil_append, List.takeWhile_cons_of_neg (by simp [hc]),
            List.dropWhile_cons_of_neg (by simp [hc])]
          exact ⟨rfl, rfl⟩
  | cons c run ih =>
      have hc := hrun c List.mem_cons_self
      obtain ⟨htake, hdrop⟩ := ih fun d hd => hrun d (List.mem_cons_of_mem _ hd)
      rw [List.cons_append, List.takeWhile_cons_of_pos hc, List.dropWhile_cons_of_pos hc, htake,
        hdrop]
      exact ⟨rfl, rfl⟩

/-! ## Lines -/

/-- The characters `str.splitlines` breaks a text at. -/
def lineBreaks : List Char :=
  ['\n', '\r', '\x0b', '\x0c', '\x1c', '\x1d', '\x1e', '\x85', '\u2028', '\u2029']

/-- Put a character in front of the first line. -/
def consLine (c : Char) : List (List Char) → List (List Char)
  | [] => [[c]]
  | line :: lines => (c :: line) :: lines

/-- The lines of a text without their breaks; a carriage return and a line feed are one. -/
def splitlines : List Char → List (List Char)
  | [] => []
  | '\r' :: '\n' :: s => [] :: splitlines s
  | c :: s => if c ∈ lineBreaks then [] :: splitlines s else consLine c (splitlines s)

/-- A line without inner breaks is cut off. -/
theorem splitlines_line {line : List Char} (h : ∀ c ∈ line, c ∉ lineBreaks) (s : List Char) :
    splitlines (line ++ '\n' :: s) = line :: splitlines s := by
  induction line with
  | nil => simp [splitlines, lineBreaks]
  | cons c line ih =>
      have hc := h c List.mem_cons_self
      have hne : c ≠ '\r' := by
        rintro rfl
        exact hc (by decide)
      rw [List.cons_append, splitlines, if_neg hc, ih fun d hd => h d (List.mem_cons_of_mem _ hd)]
      · rfl
      · intro s' hcr
        exact absurd hcr hne

/-- **Written lines are read back.** -/
theorem splitlines_flatMap {lines : List (List Char)}
    (h : ∀ line ∈ lines, ∀ c ∈ line, c ∉ lineBreaks) :
    splitlines (lines.flatMap fun line => line ++ ['\n']) = lines := by
  induction lines with
  | nil => rfl
  | cons line lines ih =>
      rw [List.flatMap_cons, List.append_assoc, List.singleton_append,
        splitlines_line (h line List.mem_cons_self),
        ih fun l hl => h l (List.mem_cons_of_mem _ hl)]

end Golavo.Lib.Scan
