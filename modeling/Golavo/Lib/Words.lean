import Mathlib.Data.List.DropRight
import Mathlib.Data.List.TakeWhile

/-! # Words of a text

`words` cuts a text at its blanks and leaves no word empty (`str.split()`); `unwords` joins words by
one space each. Joined words are cut into themselves. -/

namespace Golavo.Lib

/-- The words of a text. -/
def words (blank : Char → Bool) (s : List Char) : List (List Char) :=
  (s.splitOnP blank).filter fun w => !w.isEmpty

/-- Words joined by spaces (`" ".join`). -/
def unwords (ws : List (List Char)) : List Char := List.intercalate [' '] ws

/-- A text that is not empty and has no blank. -/
def IsWord (blank : Char → Bool) (w : List Char) : Prop := w ≠ [] ∧ ∀ c ∈ w, blank c = false

section Words

variable {blank : Char → Bool}

theorem not_blank_of_mem_splitOnP {s w : List Char} (h : w ∈ s.splitOnP blank) :
    ∀ c ∈ w, blank c = false := by
  induction s generalizing w with
  | nil =>
      rw [List.splitOnP_nil, List.mem_singleton] at h
      subst h
      intro c hc
      cases hc
  | cons x s ih =>
      rw [List.splitOnP_cons_eq_if_modifyHead] at h
      split_ifs at h with hx
      · rcases List.mem_cons.mp h with rfl | h
        · intro c hc
          cases hc
        · exact ih h
      · cases hs : s.splitOnP blank with
        | nil => exact absurd hs (List.splitOnP_ne_nil _ _)
        | cons first rest =>
            rw [hs, List.modifyHead_cons] at h
            rcases List.mem_cons.mp h with rfl | h
            · intro c hc
              rcases List.mem_cons.mp hc with rfl | hc
              · exact Bool.eq_false_iff.mpr hx
              · exact ih (by rw [hs]; exact List.mem_cons_self) c hc
            · exact ih (by rw [hs]; exact List.mem_cons_of_mem _ h)

/-- What a text is cut into are words. -/
theorem isWord_of_mem_words {s w : List Char} (h : w ∈ words blank s) : IsWord blank w := by
  obtain ⟨hmem, hne⟩ := List.mem_filter.mp h
  exact ⟨by simpa using hne, not_blank_of_mem_splitOnP hmem⟩

theorem words_of_isWord {w : List Char} (h : IsWord blank w) : words blank w = [w] := by
  rw [words, List.splitOnP_eq_singleton fun c hc => by simp [h.2 c hc]]
  simp [h.1]

theorem words_append_space {w : List Char} (h : IsWord blank w) (hspace : blank ' ' = true)
    (rest : List Char) : words blank (w ++ ' ' :: rest) = w :: words blank rest := by
  rw [words, List.splitOnP_append_cons _ _ hspace, List.filter_append]
  have hw := words_of_isWord h
  rw [words] at hw
  rw [hw, List.singleton_append, words]

/-- At a blank a text falls apart. -/
theorem words_append_blank {c : Char} (hc : blank c = true) (s t : List Char) :
    words blank (s ++ c :: t) = words blank s ++ words blank t := by
  rw [words, List.splitOnP_append_cons _ _ hc, List.filter_append]
  rfl

theorem words_cons_blank {c : Char} (hc : blank c = true) (s : List Char) :
    words blank (c :: s) = words blank s :=
  words_append_blank hc [] s

/-- A character that is no blank starts a word. -/
theorem words_cons_not_blank {c : Char} (hc : blank c = false) (s : List Char) :
    ∃ w ws, words blank (c :: s) = (c :: w) :: ws ∧
      (words blank s).flatten = w ++ ws.flatten := by
  cases hs : s.splitOnP blank with
  | nil => exact absurd hs (List.splitOnP_ne_nil _ _)
  | cons w rest =>
      refine ⟨w, rest.filter fun w => !w.isEmpty, ?_, ?_⟩
      · rw [words, List.splitOnP_cons_eq_if_modifyHead, if_neg (by simp [hc]), hs,
          List.modifyHead_cons, List.filter_cons_of_pos (by simp)]
      · rw [words, hs]
        cases w with
        | nil => rw [List.filter_cons_of_neg (by simp), List.nil_append]
        | cons d w => rw [List.filter_cons_of_pos (by simp), List.flatten_cons]

/-- The words of a text are its characters without the blanks. -/
theorem flatten_words (s : List Char) : (words blank s).flatten = s.filter fun c => !blank c := by
  induction s with
  | nil => rfl
  | cons c s ih =>
      cases hc : blank c with
      | true => rw [words_cons_blank hc, ih, List.filter_cons_of_neg (by simp [hc])]
      | false =>
          obtain ⟨w, ws, hwords, hrest⟩ := words_cons_not_blank hc s
          rw [hwords, List.flatten_cons, List.cons_append, ← hrest, ih,
            List.filter_cons_of_pos (by simp [hc])]

theorem words_dropWhile (s : List Char) : words blank (s.dropWhile blank) = words blank s := by
  induction s with
  | nil => rfl
  | cons c s ih =>
      cases hc : blank c with
      | true => rw [List.dropWhile_cons_of_pos hc, ih, words_cons_blank hc]
      | false => rw [List.dropWhile_cons_of_neg (by simp [hc])]

theorem words_rdropWhile (s : List Char) : words blank (s.rdropWhile blank) = words blank s := by
  induction s using List.reverseRecOn with
  | nil => rfl
  | append_singleton s c ih =>
      by_cases hc : blank c = true
      · rw [List.rdropWhile_concat_pos _ _ _ hc, ih, words_append_blank hc]
        exact (List.append_nil _).symm
      · rw [List.rdropWhile_concat_neg _ _ _ hc]

/-- A part without blanks starts a text where it starts its first piece. -/
theorem prefix_splitOnP {part s piece : List Char} {pieces : List (List Char)}
    (hpart : ∀ c ∈ part, blank c = false) (hs : s.splitOnP blank = piece :: pieces) :
    part <+: s ↔ part <+: piece := by
  induction s generalizing part piece pieces with
  | nil =>
      rw [List.splitOnP_nil, List.cons.injEq] at hs
      rw [hs.1]
  | cons c s ih =>
      rw [List.splitOnP_cons_eq_if_modifyHead] at hs
      cases part with
      | nil => exact iff_of_true List.nil_prefix List.nil_prefix
      | cons d part =>
          split_ifs at hs with hc
          · rw [List.cons.injEq] at hs
            rw [← hs.1, List.cons_prefix_cons]
            refine iff_of_false ?_ (by simp)
            rintro ⟨rfl, -⟩
            rw [hpart d List.mem_cons_self] at hc
            exact Bool.false_ne_true hc
          · cases hrest : s.splitOnP blank with
            | nil => exact absurd hrest (List.splitOnP_ne_nil _ _)
            | cons first rest =>
                rw [hrest, List.modifyHead_cons, List.cons.injEq] at hs
                rw [← hs.1, List.cons_prefix_cons, List.cons_prefix_cons,
                  ih (fun e he => hpart e (List.mem_cons_of_mem _ he)) hrest]

/-- **A part without blanks** stands in a text where it stands in one of its words. -/
theorem infix_iff_words {part : List Char} (hne : part ≠ []) (hpart : ∀ c ∈ part, blank c = false)
    (s : List Char) : part <:+: s ↔ ∃ w ∈ words blank s, part <:+: w := by
  have hpieces : part <:+: s ↔ ∃ w ∈ s.splitOnP blank, part <:+: w := by
    induction s with
    | nil => simp
    | cons c s ih =>
        rw [List.infix_cons_iff, ih, List.splitOnP_cons_eq_if_modifyHead]
        split_ifs with hc
        · obtain ⟨d, part, rfl⟩ := List.exists_cons_of_ne_nil hne
          simp only [List.mem_cons, exists_eq_or_imp, List.cons_prefix_cons]
          refine or_congr (iff_of_false ?_ (by simp)) Iff.rfl
          rintro ⟨rfl, -⟩
          rw [hpart d List.mem_cons_self] at hc
          exact Bool.false_ne_true hc
        · cases hrest : s.splitOnP blank with
          | nil => exact absurd hrest (List.splitOnP_ne_nil _ _)
          | cons first rest =>
              have hfirst : (c :: s).splitOnP blank = (c :: first) :: rest := by
                rw [List.splitOnP_cons_eq_if_modifyHead, if_neg hc, hrest, List.modifyHead_cons]
              simp only [List.modifyHead_cons, List.mem_cons, exists_eq_or_imp]
              rw [prefix_splitOnP hpart hfirst, List.infix_cons_iff, or_assoc]
  rw [hpieces, words]
  constructor
  · rintro ⟨w, hw, hwithin⟩
    refine ⟨w, List.mem_filter.mpr ⟨hw, ?_⟩, hwithin⟩
    cases w with
    | nil => exact absurd (List.infix_nil.mp hwithin) hne
    | cons => rfl
  · rintro ⟨w, hw, hwithin⟩
    exact ⟨w, List.mem_of_mem_filter hw, hwithin⟩

@[simp] theorem unwords_nil : unwords [] = [] := rfl

@[simp] theorem unwords_singleton (w : List Char) : unwords [w] = w := by
  simp [unwords, List.intercalate, List.intersperse]

@[simp] theorem unwords_cons_cons (w v : List Char) (ws : List (List Char)) :
    unwords (w :: v :: ws) = w ++ ' ' :: unwords (v :: ws) := by
  simp [unwords, List.intercalate, List.intersperse]

/-- Joined words are made of spaces and of the words. -/
theorem mem_unwords {ws : List (List Char)} {c : Char} (h : c ∈ unwords ws) :
    c = ' ' ∨ ∃ w ∈ ws, c ∈ w := by
  induction ws with
  | nil => cases h
  | cons w ws ih =>
      cases ws with
      | nil => exact .inr ⟨w, List.mem_cons_self, by rwa [unwords_singleton] at h⟩
      | cons v ws =>
          rw [unwords_cons_cons, List.mem_append, List.mem_cons] at h
          rcases h with h | h | h
          · exact .inr ⟨w, List.mem_cons_self, h⟩
          · exact .inl h
          · rcases ih h with h | ⟨w', hw', hc⟩
            · exact .inl h
            · exact .inr ⟨w', List.mem_cons_of_mem _ hw', hc⟩

/-- **Joined words are cut into themselves.** -/
theorem words_unwords (hspace : blank ' ' = true) {ws : List (List Char)}
    (h : ∀ w ∈ ws, IsWord blank w) : words blank (unwords ws) = ws := by
  induction ws with
  | nil => rfl
  | cons w ws ih =>
      have hw := h w List.mem_cons_self
      cases ws with
      | nil => rw [unwords_singleton, words_of_isWord hw]
      | cons v ws =>
          rw [unwords_cons_cons, words_append_space hw hspace,
            ih fun x hx => h x (List.mem_cons_of_mem _ hx)]

theorem unwords_ne_nil {ws : List (List Char)} (hne : ws ≠ []) (h : ∀ w ∈ ws, IsWord blank w) :
    unwords ws ≠ [] := by
  cases ws with
  | nil => exact absurd rfl hne
  | cons w ws =>
      have hw := (h w List.mem_cons_self).1
      cases ws with
      | nil => rwa [unwords_singleton]
      | cons v ws =>
          rw [unwords_cons_cons]
          simp

/-- A text that neither starts nor ends with a blank. -/
def Trimmed (blank : Char → Bool) (s : List Char) : Prop :=
  (∀ c ∈ s.head?, blank c = false) ∧ ∀ c ∈ s.getLast?, blank c = false

/-- A trimmed text is left as it is. -/
theorem Trimmed.trim_eq {s : List Char} (h : Trimmed blank s) :
    (s.dropWhile blank).rdropWhile blank = s := by
  have hfront : s.dropWhile blank = s := by
    cases s with
    | nil => rfl
    | cons c s => rw [List.dropWhile_cons_of_neg (by simp [h.1 c rfl])]
  rw [hfront, List.rdropWhile_eq_self_iff]
  intro hne
  simp [h.2 _ (List.getLast?_eq_some_getLast hne)]

/-- Dropping blanks behind a text keeps its front. -/
theorem head?_rdropWhile {s : List Char} {c : Char} (h : c ∈ (s.rdropWhile blank).head?) :
    c ∈ s.head? := by
  obtain ⟨rest, hrest⟩ := @List.rdropWhile_prefix Char blank s
  cases hs : s.rdropWhile blank with
  | nil => simp [hs] at h
  | cons d ds =>
      rw [hs] at h hrest
      rw [← hrest]
      exact h

/-- What is trimmed is trimmed. -/
theorem trimmed_trim (s : List Char) : Trimmed blank ((s.dropWhile blank).rdropWhile blank) := by
  constructor
  · intro c hc
    have hc := head?_rdropWhile hc
    have hnot := List.head?_dropWhile_not blank s
    rw [Option.mem_def.mp hc] at hnot
    exact hnot
  · intro c hc
    have hne : (s.dropWhile blank).rdropWhile blank ≠ [] := by
      rintro hnil
      simp [hnil] at hc
    have hlast := List.rdropWhile_last_not blank _ hne
    rw [List.getLast?_eq_some_getLast hne, Option.mem_some_iff] at hc
    rw [← hc]
    exact Bool.eq_false_iff.mpr hlast

/-- Joined words are trimmed. -/
theorem trimmed_unwords {ws : List (List Char)} (h : ∀ w ∈ ws, IsWord blank w) :
    Trimmed blank (unwords ws) := by
  induction ws with
  | nil => simp [Trimmed]
  | cons w ws ih =>
      obtain ⟨hne, hw⟩ := h w List.mem_cons_self
      cases ws with
      | nil =>
          rw [Trimmed, unwords_singleton]
          exact ⟨fun c hc => hw c (List.mem_of_mem_head? hc),
            fun c hc => hw c (List.mem_of_mem_getLast? hc)⟩
      | cons v ws =>
          have hrest := ih fun x hx => h x (List.mem_cons_of_mem _ hx)
          have hnil := @unwords_ne_nil blank (v :: ws) (by simp)
            fun x hx => h x (List.mem_cons_of_mem _ hx)
          rw [Trimmed, unwords_cons_cons]
          constructor
          · intro c hc
            rw [List.head?_append_of_ne_nil _ hne] at hc
            exact hw c (List.mem_of_mem_head? hc)
          · intro c hc
            rw [List.getLast?_append_of_ne_nil _ (by simp), List.getLast?_cons_of_ne_nil hnil] at hc
            exact hrest.2 c hc

end Words

end Golavo.Lib
