import Mathlib.Data.List.Basic

/-! # Lines of text

`splitLines` cuts a text after every line break and keeps the breaks (`splitlines(keepends=True)`).
A line appended to a text of complete lines is one more line. -/

namespace Golavo.Lib

/-- Whether a character breaks a line. -/
def isBreak (c : Char) : Bool := c = '\n' || c = '\r'

/-- Cut a text after its line breaks, with `acc` the line read so far. -/
def splitLinesFrom (acc : List Char) : List Char → List (List Char)
  | [] => if acc = [] then [] else [acc]
  | [c] => [acc ++ [c]]
  | c :: d :: rest =>
      if c = '\r' ∧ d = '\n' then (acc ++ [c, d]) :: splitLinesFrom [] rest
      else if isBreak c then (acc ++ [c]) :: splitLinesFrom [] (d :: rest)
      else splitLinesFrom (acc ++ [c]) (d :: rest)

/-- The lines of a text, each with its break. -/
def splitLines (text : List Char) : List (List Char) := splitLinesFrom [] text

/-- A text that is empty or ends with a line feed. -/
def CompleteLines (text : List Char) : Prop := text = [] ∨ text.getLast? = some '\n'

instance (text : List Char) : Decidable (CompleteLines text) :=
  inferInstanceAs (Decidable (_ ∨ _))

/-- After a line feed a new line starts. -/
theorem splitLinesFrom_append (acc text rest : List Char) (h : text.getLast? = some '\n') :
    splitLinesFrom acc (text ++ rest) = splitLinesFrom acc text ++ splitLinesFrom [] rest := by
  fun_induction splitLinesFrom acc text with
  | case1 => simp at h
  | case2 acc hne => simp at h
  | case3 acc c =>
      have hc : c = '\n' := by simpa using h
      subst hc
      cases rest with
      | nil => simp [splitLinesFrom]
      | cons d rest =>
          rw [List.singleton_append, splitLinesFrom]
          simp [isBreak]
  | case4 acc c d text hcr ih =>
      rw [List.cons_append, List.cons_append, splitLinesFrom, if_pos hcr]
      cases text with
      | nil => simp [splitLinesFrom]
      | cons e text => rw [ih (by simpa using h), List.cons_append]
  | case5 acc c d text hcr hbreak ih =>
      rw [List.cons_append, List.cons_append, splitLinesFrom, if_neg hcr, if_pos hbreak,
        ← List.cons_append, ih (by simpa using h), List.cons_append]
  | case6 acc c d text hcr hbreak ih =>
      rw [List.cons_append, List.cons_append, splitLinesFrom, if_neg hcr, if_neg hbreak,
        ← List.cons_append, ih (by simpa using h)]

/-- A line without inner breaks is one line. -/
theorem splitLinesFrom_line (acc : List Char) {body : List Char}
    (h : ∀ c ∈ body, isBreak c = false) :
    splitLinesFrom acc (body ++ ['\n']) = [acc ++ body ++ ['\n']] := by
  induction body generalizing acc with
  | nil => simp [splitLinesFrom]
  | cons c body ih =>
      have hc := h c List.mem_cons_self
      have hcr : c ≠ '\r' := by
        rintro rfl
        simp [isBreak] at hc
      obtain ⟨d, tail, htail⟩ : ∃ d tail, body ++ ['\n'] = d :: tail := by
        cases body <;> exact ⟨_, _, rfl⟩
      have hrec := ih (acc ++ [c]) fun x hx => h x (List.mem_cons_of_mem _ hx)
      rw [List.cons_append, htail, splitLinesFrom, if_neg fun hand => hcr hand.1, if_neg (by simp [hc]),
        ← htail, hrec]
      simp

/-- **A line appended to complete lines is one more line.** -/
theorem splitLines_append_line {text body : List Char} (htext : CompleteLines text)
    (hbody : ∀ c ∈ body, isBreak c = false) :
    splitLines (text ++ (body ++ ['\n'])) = splitLines text ++ [body ++ ['\n']] := by
  rcases htext with rfl | htext
  · rw [List.nil_append, splitLines, splitLinesFrom_line [] hbody]
    rfl
  · rw [splitLines, splitLinesFrom_append [] text _ htext, splitLinesFrom_line [] hbody]
    rfl

theorem completeLines_append (text body : List Char) : CompleteLines (text ++ (body ++ ['\n'])) := by
  right
  rw [← List.append_assoc, List.getLast?_append]
  simp

/-! ## Lines and a torn tail -/

/-- A text without breaks is one line, if it is anything. -/
theorem splitLinesFrom_unbroken (acc : List Char) {tail : List Char}
    (h : ∀ c ∈ tail, isBreak c = false) :
    splitLinesFrom acc tail = if acc ++ tail = [] then [] else [acc ++ tail] := by
  induction tail generalizing acc with
  | nil => simp only [splitLinesFrom, List.append_nil]
  | cons c rest ih =>
      cases rest with
      | nil => simp [splitLinesFrom]
      | cons d rest =>
          have hc := h c List.mem_cons_self
          have hcr : c ≠ '\r' := by
            rintro rfl
            simp [isBreak] at hc
          rw [splitLinesFrom, if_neg fun hand => hcr hand.1, if_neg (by simp [hc]),
            ih (acc ++ [c]) fun x hx => h x (List.mem_cons_of_mem _ hx)]
          simp

/-- Lines, each with its line feed. -/
def joinLines (bodies : List (List Char)) : List Char := bodies.flatMap (· ++ ['\n'])

@[simp] theorem joinLines_nil : joinLines [] = [] := rfl

theorem joinLines_append_singleton (bodies : List (List Char)) (body : List Char) :
    joinLines (bodies ++ [body]) = joinLines bodies ++ (body ++ ['\n']) := by
  simp [joinLines]

/-- **Lines with a tail are those lines, and the tail if there is any.** -/
theorem splitLines_joinLines_append {bodies : List (List Char)} {tail : List Char}
    (hbodies : ∀ body ∈ bodies, ∀ c ∈ body, isBreak c = false)
    (htail : ∀ c ∈ tail, isBreak c = false) :
    splitLines (joinLines bodies ++ tail) =
      bodies.map (· ++ ['\n']) ++ if tail = [] then [] else [tail] := by
  induction bodies with
  | nil =>
      rw [joinLines_nil, List.nil_append, splitLines, splitLinesFrom_unbroken [] htail]
      rfl
  | cons body rest ih =>
      have hrest := ih fun b hb => hbodies b (List.mem_cons_of_mem _ hb)
      have hline : (body ++ ['\n']).getLast? = some '\n' := by simp
      rw [splitLines] at hrest ⊢
      rw [joinLines, List.flatMap_cons, ← joinLines, List.append_assoc,
        splitLinesFrom_append [] _ _ hline, hrest,
        splitLinesFrom_line [] (hbodies body List.mem_cons_self)]
      rfl

end Golavo.Lib
