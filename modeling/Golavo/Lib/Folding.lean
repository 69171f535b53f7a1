import Mathlib.Data.List.Basic

/-! # Replacing parts of a list, cutting it at breaks and folding long lines

`replaceAll` is `str.replace`: every occurrence of a part, from the left and without overlap. `cut`
reads the lines of a list whose lines end with a two-item break. A line is **folded** when it is
written as several lines that all but the first begin with a pad; `unfold` takes every break with a
pad behind it out again. -/

namespace Golavo.Lib.Folding

variable {α : Type} [DecidableEq α]

/-! ## Replacing a part -/

/-- Replace an occurrence wherever one starts, past the first `skip` items. -/
def replaceFrom (part replacement : List α) : Nat → List α → List α
  | _, [] => []
  | skip + 1, _ :: s => replaceFrom part replacement skip s
  | 0, c :: s =>
      if part.isPrefixOf (c :: s) then
        replacement ++ replaceFrom part replacement (part.length - 1) s
      else c :: replaceFrom part replacement 0 s

/-- Every occurrence of a part replaced, from the left (`text.replace(part, replacement)`). -/
def replaceAll (part replacement s : List α) : List α := replaceFrom part replacement 0 s

@[simp] theorem replaceAll_nil (part replacement : List α) :
    replaceAll part replacement [] = [] := by
  simp [replaceAll, replaceFrom]

theorem replaceAll_cons_of_not_prefix {part : List α} (replacement : List α) {c : α} {s : List α}
    (h : part.isPrefixOf (c :: s) = false) :
    replaceAll part replacement (c :: s) = c :: replaceAll part replacement s := by
  simp [replaceAll, replaceFrom, h]

theorem replaceFrom_append (part replacement s t : List α) :
    replaceFrom part replacement s.length (s ++ t) = replaceFrom part replacement 0 t := by
  induction s with
  | nil => simp
  | cons c s ih => simp [replaceFrom, ih]

/-- An occurrence at the front is replaced, and the replacing goes on behind it. -/
theorem replaceAll_append (replacement : List α) {c : α} {part : List α} (s : List α) :
    replaceAll (c :: part) replacement (c :: part ++ s) =
      replacement ++ replaceAll (c :: part) replacement s := by
  have hfront : (c :: part).isPrefixOf (c :: (part ++ s)) = true := by simp
  rw [List.cons_append, replaceAll, replaceFrom, if_pos hfront, List.length_cons,
    Nat.add_sub_cancel, replaceFrom_append, replaceAll]

/-- Replacing one item works item by item. -/
theorem replaceAll_singleton (a : α) (replacement s : List α) :
    replaceAll [a] replacement s = s.flatMap fun c => if c = a then replacement else [c] := by
  induction s with
  | nil => simp
  | cons c s ih =>
      rw [List.flatMap_cons, ← ih]
      by_cases hc : c = a
      · subst hc
        rw [if_pos rfl]
        exact replaceAll_append replacement s
      · have hfront : [a].isPrefixOf (c :: s) = false := by simp [List.isPrefixOf, Ne.symm hc]
        rw [if_neg hc, replaceAll_cons_of_not_prefix replacement hfront]
        rfl

/-- Nothing is replaced before the first item of the part shows up. -/
theorem replaceAll_append_of_not_mem (replacement : List α) {c : α} {part s : List α} (t : List α)
    (h : c ∉ s) :
    replaceAll (c :: part) replacement (s ++ t) = s ++ replaceAll (c :: part) replacement t := by
  induction s with
  | nil => rfl
  | cons d s ih =>
      simp only [List.mem_cons, not_or] at h
      have hfront : (c :: part).isPrefixOf (d :: (s ++ t)) = false := by
        simp [List.isPrefixOf, h.1]
      rw [List.cons_append, replaceAll_cons_of_not_prefix replacement hfront, ih h.2,
        List.cons_append]

/-! ## Cutting at breaks -/

section Lines

variable (cr lf : α)

/-- Cut at the breaks, with `acc` the line read so far; what follows the last break is a line only
if there is something. -/
def cutFrom (acc : List α) : List α → List (List α)
  | [] => if acc = [] then [] else [acc]
  | [c] => [acc ++ [c]]
  | c :: d :: rest =>
      if c = cr ∧ d = lf then acc :: cutFrom [] rest else cutFrom (acc ++ [c]) (d :: rest)

/-- The lines of a list, without their breaks. -/
def cut (s : List α) : List (List α) := cutFrom cr lf [] s

/-- Lines, each with its break. -/
def joined (lines : List (List α)) : List α := lines.flatMap (· ++ [cr, lf])

omit [DecidableEq α] in
@[simp] theorem joined_cons (line : List α) (lines : List (List α)) :
    joined cr lf (line :: lines) = line ++ cr :: lf :: joined cr lf lines := by
  simp [joined]

variable {cr lf}

theorem cutFrom_line (acc : List α) {line : List α} (h : cr ∉ line) (rest : List α) :
    cutFrom cr lf acc (line ++ cr :: lf :: rest) = (acc ++ line) :: cutFrom cr lf [] rest := by
  induction line generalizing acc with
  | nil => simp [cutFrom]
  | cons c line ih =>
      simp only [List.mem_cons, not_or] at h
      have hne : line ++ cr :: lf :: rest ≠ [] := by simp
      obtain ⟨d, tail, htail⟩ := List.exists_cons_of_ne_nil hne
      rw [List.cons_append, htail, cutFrom, if_neg fun hc => h.1 hc.1.symm, ← htail, ih _ h.2]
      simp

/-- **Lines written with their breaks are read back.** -/
theorem cut_joined {lines : List (List α)} (h : ∀ line ∈ lines, cr ∉ line) :
    cut cr lf (joined cr lf lines) = lines := by
  induction lines with
  | nil => simp [joined, cut, cutFrom]
  | cons line lines ih =>
      rw [joined_cons, cut, cutFrom_line [] (h line (by simp)), List.nil_append]
      exact congrArg (line :: ·) (ih fun l hl => h l (by simp [hl]))

end Lines

/-! ## Folded lines -/

/-- The pieces of a line with the pad before all but the first. -/
def padded (pad : α) : List (List α) → List (List α)
  | [] => []
  | piece :: pieces => piece :: pieces.map (pad :: ·)

omit [DecidableEq α] in
/-- One more piece is one more padded line. -/
theorem padded_concat (pad : α) (pieces : List (List α)) (piece : List α) :
    padded pad (pieces ++ [piece]) =
      padded pad pieces ++ [(if pieces = [] then [] else [pad]) ++ piece] := by
  cases pieces with
  | nil => rfl
  | cons first pieces => simp [padded]

/-- Take every break with a pad behind it out. -/
def unfold (cr lf pad : α) (s : List α) : List α := replaceAll [cr, lf, pad] [] s

variable {cr lf pad : α}

theorem unfold_append_of_not_mem {s : List α} (t : List α) (h : cr ∉ s) :
    unfold cr lf pad (s ++ t) = s ++ unfold cr lf pad t :=
  replaceAll_append_of_not_mem [] t h

/-- A break without a pad behind it stays. -/
theorem unfold_break (hne : lf ≠ cr) {rest : List α} (h : rest.head? ≠ some pad) :
    unfold cr lf pad (cr :: lf :: rest) = cr :: lf :: unfold cr lf pad rest := by
  have hbreak : [cr, lf, pad].isPrefixOf (cr :: lf :: rest) = false := by
    cases rest with
    | nil => simp [List.isPrefixOf]
    | cons c rest =>
        have hc : c ≠ pad := by simpa using h
        simp [List.isPrefixOf, Ne.symm hc]
  rw [unfold, replaceAll_cons_of_not_prefix [] hbreak,
    replaceAll_cons_of_not_prefix [] (by simp [List.isPrefixOf, Ne.symm hne])]
  rfl

/-- A break with a pad behind it goes. -/
theorem unfold_pad (s : List α) :
    unfold cr lf pad (cr :: lf :: pad :: s) = unfold cr lf pad s :=
  replaceAll_append [] s

theorem unfold_continuations (hne : lf ≠ cr) {pieces : List (List α)}
    (h : ∀ piece ∈ pieces, cr ∉ piece) {rest : List α} (hrest : rest.head? ≠ some pad) :
    unfold cr lf pad (cr :: lf :: (joined cr lf (pieces.map (pad :: ·)) ++ rest)) =
      pieces.flatten ++ cr :: lf :: unfold cr lf pad rest := by
  induction pieces with
  | nil => simpa [joined] using unfold_break hne hrest
  | cons piece pieces ih =>
      have hpiece : cr ∉ piece := h piece List.mem_cons_self
      have hpieces := ih fun p hp => h p (List.mem_cons_of_mem _ hp)
      rw [List.map_cons, joined_cons, List.cons_append, List.cons_append, unfold_pad,
        List.append_assoc, unfold_append_of_not_mem _ hpiece]
      simp only [List.cons_append, hpieces, List.flatten_cons, List.append_assoc]

/-- **Folded lines are unfolded one by one**: what is left are the lines with their breaks. -/
theorem unfold_joined (hne : lf ≠ cr) {fold : List α → List (List α)} {lines : List (List α)}
    (hfold : ∀ line ∈ lines, ∃ piece pieces, fold line = padded pad (piece :: pieces) ∧
      piece ≠ [] ∧ (piece :: pieces).flatten = line)
    (hclean : ∀ line ∈ lines, cr ∉ line ∧ line.head? ≠ some pad) :
    unfold cr lf pad (joined cr lf (lines.flatMap fold)) = joined cr lf lines := by
  have hstart : ∀ lines : List (List α), (∀ line ∈ lines, ∃ piece pieces,
      fold line = padded pad (piece :: pieces) ∧ piece ≠ [] ∧ (piece :: pieces).flatten = line) →
      (∀ line ∈ lines, line.head? ≠ some pad) →
      (joined cr lf (lines.flatMap fold)).head? ≠ some pad := by
    intro lines hfold hclean
    cases lines with
    | nil => simp [joined]
    | cons line lines =>
        obtain ⟨piece, pieces, heq, hpiece, hflat⟩ := hfold line List.mem_cons_self
        have hline := hclean line List.mem_cons_self
        obtain ⟨c, piece, rfl⟩ := List.exists_cons_of_ne_nil hpiece
        rw [← hflat] at hline
        simpa [heq, joined, padded] using hline
  induction lines with
  | nil => simp [joined, unfold]
  | cons line lines ih =>
      obtain ⟨piece, pieces, heq, hpiece, hflat⟩ := hfold line List.mem_cons_self
      have htail := hstart lines (fun l hl => hfold l (List.mem_cons_of_mem _ hl))
        fun l hl => (hclean l (List.mem_cons_of_mem _ hl)).2
      have hcr : ∀ p ∈ piece :: pieces, cr ∉ p := by
        intro p hp hmem
        refine (hclean line List.mem_cons_self).1 ?_
        rw [← hflat]
        exact List.mem_flatten.mpr ⟨p, hp, hmem⟩
      have hrest := ih (fun l hl => hfold l (List.mem_cons_of_mem _ hl))
        fun l hl => hclean l (List.mem_cons_of_mem _ hl)
      have hpieces := unfold_continuations hne (fun p hp => hcr p (List.mem_cons_of_mem _ hp)) htail
      calc unfold cr lf pad (joined cr lf ((line :: lines).flatMap fold))
          = unfold cr lf pad (piece ++ cr :: lf :: (joined cr lf (pieces.map (pad :: ·)) ++
              joined cr lf (lines.flatMap fold))) := by
            simp [heq, joined, padded]
        _ = piece ++ (pieces.flatten ++ cr :: lf :: joined cr lf lines) := by
            rw [unfold_append_of_not_mem _ (hcr piece List.mem_cons_self), hpieces, hrest]
        _ = joined cr lf (line :: lines) := by
            rw [joined_cons, ← hflat, List.flatten_cons, List.append_assoc]

end Golavo.Lib.Folding
