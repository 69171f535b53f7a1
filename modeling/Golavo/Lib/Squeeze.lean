import Golavo.Lib.Words

/-! # Runs of white space as one space

`squeeze` joins the words of a text by one space each. A stretch of the result that starts and ends
with no blank is a squeezed stretch of the text (`exists_of_squeeze_stretch`), and a squeezed stretch of
the text stands in the result (`squeeze_stretch`). -/

namespace Golavo.Lib

/-- Runs of blanks as one space, none at the ends (`" ".join(s.split())`). -/
def squeeze (blank : Char → Bool) (s : List Char) : List Char := unwords (words blank s)

section Squeeze

variable {blank : Char → Bool}

@[simp] theorem squeeze_nil : squeeze blank [] = [] := rfl

theorem squeeze_cons_blank {x : Char} (hx : blank x = true) (s : List Char) :
    squeeze blank (x :: s) = squeeze blank s := by
  rw [squeeze, words_cons_blank hx, squeeze]

theorem squeeze_singleton {x : Char} (hx : blank x = false) : squeeze blank [x] = [x] := by
  rw [squeeze, words_of_isWord ⟨by simp, by simpa using hx⟩, unwords_singleton]

/-- A character behind one that is no blank goes on with its word. -/
theorem squeeze_cons_cons {x y : Char} (hx : blank x = false) (hy : blank y = false)
    (s : List Char) : squeeze blank (x :: y :: s) = x :: squeeze blank (y :: s) := by
  have hwords : ∃ w ws, words blank (y :: s) = (y :: w) :: ws ∧
      words blank (x :: y :: s) = (x :: y :: w) :: ws := by
    cases hs : s.splitOnP blank with
    | nil => exact absurd hs (List.splitOnP_ne_nil _ _)
    | cons w rest =>
        refine ⟨w, rest.filter fun w => !w.isEmpty, ?_, ?_⟩ <;>
          simp [words, List.splitOnP_cons_eq_if_modifyHead, hx, hy, hs]
  obtain ⟨w, ws, hrest, hall⟩ := hwords
  rw [squeeze, hall, squeeze, hrest]
  cases ws with
  | nil => simp
  | cons v ws => simp

/-- A blank behind one that is no blank ends its word. -/
theorem squeeze_cons_blank_cons {x y : Char} (hx : blank x = false) (hy : blank y = true)
    (s : List Char) : squeeze blank (x :: y :: s) =
      x :: if squeeze blank s = [] then [] else ' ' :: squeeze blank s := by
  have hwords : words blank (x :: y :: s) = [x] :: words blank s := by
    rw [show x :: y :: s = [x] ++ y :: s from rfl, words_append_blank hy,
      words_of_isWord ⟨by simp, by simpa using hx⟩, List.singleton_append]
  rw [squeeze, hwords, squeeze]
  cases hs : words blank s with
  | nil => simp
  | cons w ws =>
      have hne : unwords (w :: ws) ≠ [] := unwords_ne_nil (by simp) fun v hv =>
        isWord_of_mem_words (hs ▸ hv)
      rw [unwords_cons_cons, if_neg hne, List.singleton_append]

/-- A character that is no blank is kept, before what the rest is squeezed to, or before a space and
that. -/
theorem squeeze_cons_not_blank {x : Char} (hx : blank x = false) (s : List Char) :
    squeeze blank (x :: s) = x :: squeeze blank s ∨
      squeeze blank (x :: s) = x :: ' ' :: squeeze blank s := by
  cases s with
  | nil => exact .inl (squeeze_singleton hx)
  | cons y s =>
      cases hy : blank y with
      | false => exact .inl (squeeze_cons_cons hx hy s)
      | true =>
          rw [squeeze_cons_blank_cons hx hy, squeeze_cons_blank hy]
          split
          · next hnil => exact .inl (by rw [hnil])
          · exact .inr rfl

theorem squeeze_ne_nil {s : List Char} {x : Char} (hx : blank x = false) (h : x ∈ s) :
    squeeze blank s ≠ [] := by
  refine unwords_ne_nil ?_ fun w hw => isWord_of_mem_words hw
  intro hnil
  have hflatten := @flatten_words blank s
  rw [hnil, List.flatten_nil] at hflatten
  exact List.not_mem_nil (hflatten ▸ List.mem_filter.mpr ⟨h, by simp [hx]⟩)

/-- What is squeezed has no blanks but spaces. -/
theorem eq_space_of_mem_squeeze {s : List Char} {x : Char} (h : x ∈ squeeze blank s)
    (hx : blank x = true) : x = ' ' := by
  obtain rfl | ⟨w, hw, hxw⟩ := mem_unwords h
  · rfl
  · exact absurd hx (by simp [(isWord_of_mem_words hw).2 x hxw])

theorem mem_of_mem_squeeze {s : List Char} {x : Char} (h : x ∈ squeeze blank s) :
    x = ' ' ∨ x ∈ s := by
  obtain rfl | ⟨w, hw, hxw⟩ := mem_unwords h
  · exact .inl rfl
  · have hmem : x ∈ (words blank s).flatten := List.mem_flatten.mpr ⟨w, hw, hxw⟩
    rw [flatten_words] at hmem
    exact .inr (List.mem_filter.mp hmem).1

/-- Squeezing twice is squeezing once. -/
theorem squeeze_squeeze (hspace : blank ' ' = true) (s : List Char) :
    squeeze blank (squeeze blank s) = squeeze blank s := by
  rw [squeeze, squeeze, words_unwords hspace fun w hw => isWord_of_mem_words hw]

/-- But for spaces, what is squeezed stands in the text in the same order. -/
theorem sublist_squeeze (s : List Char) :
    ((squeeze blank s).filter (· ≠ ' ')).Sublist s := by
  induction s with
  | nil => exact .slnil
  | cons x s ih =>
      cases hx : blank x with
      | true =>
          rw [squeeze_cons_blank hx]
          exact ih.cons x
      | false =>
          have hrest : (x :: squeeze blank s).filter (· ≠ ' ') =
              (squeeze blank (x :: s)).filter (· ≠ ' ') := by
            obtain h | h := squeeze_cons_not_blank hx s
            · rw [h]
            · rw [h, List.filter_cons, List.filter_cons, List.filter_cons_of_neg (by simp)]
          rw [← hrest, List.filter_cons]
          split
          · exact ih.cons_cons x
          · exact ih.cons x

/-! ## Stretches -/

variable (hspace : blank ' ' = true)
include hspace

/-- A place before a character that is no blank comes from one of the text. -/
theorem exists_of_squeeze_suffix {s a t : List Char} {x : Char} (hx : blank x = false)
    (h : squeeze blank s = a ++ x :: t) :
    ∃ front rest, s = front ++ x :: rest ∧ squeeze blank (x :: rest) = x :: t := by
  induction s generalizing a with
  | nil => simp at h
  | cons y s ih =>
      cases hy : blank y with
      | true =>
          rw [squeeze_cons_blank hy] at h
          obtain ⟨front, rest, rfl, hrest⟩ := ih h
          exact ⟨y :: front, rest, rfl, hrest⟩
      | false =>
          have hcases := squeeze_cons_not_blank hy s
          rw [h] at hcases
          cases a with
          | nil =>
              obtain rfl : x = y := by
                obtain heq | heq := hcases <;> exact (List.cons.inj heq).1
              exact ⟨[], s, rfl, h⟩
          | cons b a =>
              have hrest : ∃ a', squeeze blank s = a' ++ x :: t := by
                obtain heq | heq := hcases
                · exact ⟨a, (List.cons.inj heq).2.symm⟩
                · have htail := (List.cons.inj heq).2
                  cases a with
                  | nil =>
                      obtain ⟨rfl, -⟩ := List.cons.inj htail
                      rw [hspace] at hx
                      cases hx
                  | cons c a => exact ⟨a, (List.cons.inj htail).2.symm⟩
              obtain ⟨a', ha'⟩ := hrest
              obtain ⟨front, rest, rfl, hrest⟩ := ih ha'
              exact ⟨y :: front, rest, rfl, hrest⟩

/-- A place behind a character that is no blank comes from one of the text. -/
theorem exists_of_squeeze_prefix {s t b : List Char} {x : Char} (hx : blank x = false)
    (h : squeeze blank s = t ++ x :: b) :
    ∃ front rest, s = front ++ x :: rest ∧ squeeze blank (front ++ [x]) = t ++ [x] := by
  induction s generalizing t with
  | nil => simp at h
  | cons y s ih =>
      cases hy : blank y with
      | true =>
          rw [squeeze_cons_blank hy] at h
          obtain ⟨front, rest, rfl, hfront⟩ := ih h
          exact ⟨y :: front, rest, rfl, by rwa [List.cons_append, squeeze_cons_blank hy]⟩
      | false =>
          cases t with
          | nil =>
              obtain rfl : x = y := by
                have hcases := squeeze_cons_not_blank hy s
                rw [h] at hcases
                obtain heq | heq := hcases <;> exact (List.cons.inj heq).1
              exact ⟨[], s, rfl, squeeze_singleton hx⟩
          | cons c t =>
              cases s with
              | nil =>
                  rw [squeeze_singleton hy] at h
                  simp at h
              | cons z s =>
                  cases hz : blank z with
                  | false =>
                      rw [squeeze_cons_cons hy hz] at h
                      obtain ⟨rfl, htail⟩ := List.cons.inj h
                      obtain ⟨front, rest, heq, hfront⟩ := ih htail
                      refine ⟨y :: front, rest, by rw [heq]; rfl, ?_⟩
                      rw [List.cons_append, List.cons_append, ← hfront]
                      cases front with
                      | nil => exact squeeze_cons_cons hy hx []
                      | cons w front =>
                          obtain ⟨rfl, -⟩ := List.cons.inj heq
                          exact squeeze_cons_cons hy hz _
                  | true =>
                      rw [squeeze_cons_blank_cons hy hz] at h
                      obtain ⟨rfl, htail⟩ := List.cons.inj h
                      split at htail
                      · simp at htail
                      cases t with
                      | nil =>
                          obtain ⟨rfl, -⟩ := List.cons.inj htail
                          rw [hspace] at hx
                          cases hx
                      | cons c t =>
                          obtain ⟨rfl, hrest⟩ := List.cons.inj htail
                          rw [← squeeze_cons_blank hz] at hrest
                          obtain ⟨front, rest, heq, hfront⟩ := ih hrest
                          refine ⟨y :: front, rest, by rw [heq]; rfl, ?_⟩
                          cases front with
                          | nil =>
                              obtain ⟨rfl, -⟩ := List.cons.inj heq
                              rw [hz] at hx
                              cases hx
                          | cons w front =>
                              obtain ⟨rfl, -⟩ := List.cons.inj heq
                              rw [List.cons_append, squeeze_cons_blank hz] at hfront
                              simp only [List.cons_append]
                              rw [squeeze_cons_blank_cons hy hz, if_neg
                                (squeeze_ne_nil hx (by simp)), hfront]

/-- **A stretch of what is squeezed** that starts and ends with no blank is a squeezed stretch of the
text. -/
theorem exists_of_squeeze_stretch {s a w b : List Char}
    (hstart : ∃ x t, w = x :: t ∧ blank x = false) (hend : ∃ t x, w = t ++ [x] ∧ blank x = false)
    (h : squeeze blank s = a ++ w ++ b) :
    ∃ a' w' b', s = a' ++ w' ++ b' ∧ squeeze blank w' = w := by
  obtain ⟨x, t, hxt, hx⟩ := hstart
  obtain ⟨t', y, hty, hy⟩ := hend
  have hsuffix : squeeze blank s = a ++ x :: (t ++ b) := by
    rw [h, hxt, List.append_assoc, List.cons_append]
  obtain ⟨front, rest, rfl, hrest⟩ := exists_of_squeeze_suffix hspace hx hsuffix
  have hprefix : squeeze blank (x :: rest) = t' ++ y :: b := by
    rw [hrest, ← List.cons_append, ← hxt, hty, List.append_assoc, List.singleton_append]
  obtain ⟨middle, back, hmiddle, hw⟩ := exists_of_squeeze_prefix hspace hy hprefix
  exact ⟨front, middle ++ [y], back, by rw [hmiddle]; simp, by rw [hw, hty]⟩

omit hspace

/-- What is squeezed ends with what its end is squeezed to. -/
theorem squeeze_append (a s : List Char) : ∃ a', squeeze blank (a ++ s) = a' ++ squeeze blank s := by
  induction a with
  | nil => exact ⟨[], rfl⟩
  | cons c a ih =>
      obtain ⟨a', ha'⟩ := ih
      rw [List.cons_append]
      cases hc : blank c with
      | true => exact ⟨a', by rw [squeeze_cons_blank hc, ha']⟩
      | false =>
          obtain h | h := squeeze_cons_not_blank hc (a ++ s)
          · exact ⟨c :: a', by rw [h, ha']; rfl⟩
          · exact ⟨c :: ' ' :: a', by rw [h, ha']; rfl⟩

/-- What is squeezed starts with what a part is squeezed to that ends with no blank. -/
theorem squeeze_concat_append (s : List Char) {x : Char} (hx : blank x = false) (b : List Char) :
    ∃ b', squeeze blank (s ++ x :: b) = squeeze blank (s ++ [x]) ++ b' := by
  induction s with
  | nil =>
      rw [List.nil_append, List.nil_append, squeeze_singleton hx]
      obtain h | h := squeeze_cons_not_blank hx b <;> exact ⟨_, h⟩
  | cons c s ih =>
      obtain ⟨b', hb'⟩ := ih
      cases hc : blank c with
      | true =>
          refine ⟨b', ?_⟩
          rw [List.cons_append, List.cons_append, squeeze_cons_blank hc, squeeze_cons_blank hc, hb']
      | false =>
          cases s with
          | nil =>
              refine ⟨b', ?_⟩
              simp only [List.cons_append, List.nil_append] at hb' ⊢
              rw [squeeze_cons_cons hc hx, squeeze_cons_cons hc hx, hb']
              rfl
          | cons z s =>
              cases hz : blank z with
              | false =>
                  refine ⟨b', ?_⟩
                  simp only [List.cons_append] at hb' ⊢
                  rw [squeeze_cons_cons hc hz, squeeze_cons_cons hc hz, hb']
                  rfl
              | true =>
                  refine ⟨b', ?_⟩
                  simp only [List.cons_append, squeeze_cons_blank hz] at hb' ⊢
                  rw [squeeze_cons_blank_cons hc hz, squeeze_cons_blank_cons hc hz,
                    if_neg (squeeze_ne_nil hx (by simp)), if_neg (squeeze_ne_nil hx (by simp)), hb']
                  rfl

include hspace in
/-- **A squeezed stretch of a text** that ends with no blank stands in what is squeezed. -/
theorem squeeze_stretch {w : List Char}
    (hend : ∃ t x, squeeze blank w = t ++ [x] ∧ blank x = false) (a b : List Char) :
    ∃ a' b', squeeze blank (a ++ w ++ b) = a' ++ squeeze blank w ++ b' := by
  obtain ⟨t, x, hw, hx⟩ := hend
  obtain ⟨front, rest, rfl, hfront⟩ := exists_of_squeeze_prefix hspace hx (b := []) hw
  obtain ⟨a', ha'⟩ := @squeeze_append blank a (front ++ x :: (rest ++ b))
  obtain ⟨b', hb'⟩ := squeeze_concat_append front hx (rest ++ b)
  refine ⟨a', b', ?_⟩
  rw [hw, ← hfront, List.append_assoc, List.append_assoc, List.append_assoc, List.cons_append, ha',
    hb']

end Squeeze

end Golavo.Lib
