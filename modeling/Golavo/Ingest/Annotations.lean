import Golavo.Ingest.DomesticTxt

/-! # Scores and notes in a name

A text is **annotated** when a score or a note in brackets stands in it. Canonicalising a club's name
drops legal forms and changes no annotation: a name is annotated exactly when its canonical form is
(`annotated_canonicalName`). -/

namespace Golavo.Ingest

open Golavo.Lib (words unwords IsWord words_unwords words_append_blank words_dropWhile
  words_rdropWhile flatten_words infix_iff_words)
open Golavo.Lib.Scan (lineBreaks)

/-! ## The tables -/

/-- What the tables say of ASCII, and that a digit is neither a blank nor a line break. -/
structure Usual (u : Unicode) : Prop where
  space : ∀ c : Char, c.toNat < 128 → u.isSpace c = Unicode.ascii.isSpace c
  decimal : ∀ c : Char, c.toNat < 128 → u.isDecimal c = c.isDigit
  digit : ∀ c : Char, c.toNat < 128 → u.isDigit c = c.isDigit
  value : ∀ c : Char, c.isDigit = true → u.digitValue c = c.toNat - 48
  not_space : ∀ c : Char, u.isDecimal c = true → u.isSpace c = false
  not_break : ∀ c : Char, u.isDecimal c = true → c ∉ lineBreaks
  /-- The mark of a matchday header is no blank. -/
  bullet : u.isSpace '▪' = false

theorem usual_ascii : Usual .ascii where
  space := fun _ _ => rfl
  decimal := fun _ _ => rfl
  digit := fun _ _ => rfl
  value := fun _ _ => rfl
  not_space := by
    intro c hc
    simp only [Unicode.ascii, Char.isDigit, Bool.and_eq_true, decide_eq_true_eq] at hc
    have hlo : 48 ≤ c.toNat := UInt32.le_iff_toNat_le.mp hc.1
    have hhi : c.toNat ≤ 57 := UInt32.le_iff_toNat_le.mp hc.2
    have hne : c ≠ ' ' := by
      rintro rfl
      exact absurd hlo (by decide)
    simp only [Unicode.ascii, hne, decide_false, Bool.false_or, Bool.or_eq_false_iff,
      Bool.and_eq_false_iff, decide_eq_false_iff_not]
    omega
  not_break := by
    intro c hc hbreak
    have hall : lineBreaks.all fun c => !c.isDigit := by decide
    have hnot := List.all_eq_true.mp hall c hbreak
    rw [show c.isDigit = true from hc] at hnot
    exact absurd hnot (by decide)
  bullet := by decide

/-! ## Annotations -/

section Annotations

variable (u : Unicode)

/-- A score, from its last digit before the dash to the first one behind it. -/
def IsScore (part : List Char) : Prop :=
  ∃ x y, u.isDecimal x = true ∧ u.isDecimal y = true ∧ part = [x, '-', y]

/-- A note in brackets. -/
def IsBracketed (part : List Char) : Prop := ∃ note, part = '[' :: (note ++ [']'])

/-- A score or a note stands in a text. -/
def Annotated (s : List Char) : Prop := ∃ part, (IsScore u part ∨ IsBracketed part) ∧ part <:+: s

/-- A score stands in a text; one in a parenthesis is a half-time score. -/
def HasScore (s : List Char) : Prop := ∃ part, IsScore u part ∧ part <:+: s

/-- The brackets of a text. -/
def brackets (s : List Char) : List Char := s.filter fun c => c = '[' || c = ']'

/-- A character that annotations are made of beside digits. -/
def isMark (c : Char) : Bool := c = '[' || c = ']' || c = '-'

/-- The words of a text that have a mark. -/
def marks (s : List Char) : List (List Char) := (words u.isSpace s).filter fun w => w.any isMark

end Annotations

variable {u : Unicode}

/-- A note stands in a text when an opening bracket comes before a closing one. -/
theorem bracketed_iff (s : List Char) :
    (∃ part, IsBracketed part ∧ part <:+: s) ↔ ['[', ']'].Sublist (brackets s) := by
  have hsublist : (∃ part, IsBracketed part ∧ part <:+: s) ↔ ['[', ']'].Sublist s := by
    constructor
    · rintro ⟨_, ⟨note, rfl⟩, hwithin⟩
      refine List.Sublist.trans ?_ hwithin.sublist
      exact (List.sublist_append_right note [']']).cons_cons '['
    · intro h
      obtain ⟨before, rest, rfl, hopen, hclose⟩ := List.cons_sublist_iff.mp h
      obtain ⟨start, rest', rfl⟩ := List.append_of_mem hopen
      obtain ⟨note, after, rfl⟩ := List.append_of_mem (List.singleton_sublist.mp hclose)
      refine ⟨_, ⟨rest' ++ note, rfl⟩, start, after, ?_⟩
      simp
  rw [hsublist]
  constructor
  · intro h
    have hfilter := h.filter fun c => c = '[' || c = ']'
    exact hfilter
  · exact fun h => h.trans List.filter_sublist

theorem annotated_iff (s : List Char) :
    Annotated u s ↔ HasScore u s ∨ ['[', ']'].Sublist (brackets s) := by
  rw [← bracketed_iff]
  simp only [Annotated, HasScore, or_and_right, exists_or]

/-- A text without marks has no score. -/
theorem not_hasScore {s : List Char} (h : s.any isMark = false) : ¬ HasScore u s := by
  rintro ⟨_, ⟨x, y, -, -, rfl⟩, hwithin⟩
  have hdash := List.any_eq_false.mp h '-' (hwithin.subset (by simp))
  exact hdash (by decide)

/-- A text without marks has no brackets. -/
theorem brackets_eq_nil {s : List Char} (h : s.any isMark = false) : brackets s = [] := by
  refine List.filter_eq_nil_iff.mpr fun c hc hbracket => ?_
  refine List.any_eq_false.mp h c hc ?_
  rw [isMark, hbracket, Bool.true_or]

/-- Words without marks have no part in the brackets. -/
theorem brackets_flatten_filter (ws : List (List Char)) :
    brackets (ws.filter fun w => w.any isMark).flatten = brackets ws.flatten := by
  induction ws with
  | nil => rfl
  | cons w ws ih =>
      have happend : ∀ s t, brackets (s ++ t) = brackets s ++ brackets t := fun s t =>
        List.filter_append s t
      cases hw : w.any isMark with
      | true =>
          rw [List.filter_cons_of_pos (by simp [hw]), List.flatten_cons, List.flatten_cons, happend,
            happend, ih]
      | false =>
          rw [List.filter_cons_of_neg (by simp [hw]), List.flatten_cons, happend, ih,
            brackets_eq_nil hw, List.nil_append]

/-! ## Annotations by words -/

section Words

variable (hu : Usual u)
include hu

theorem Usual.dash : u.isSpace '-' = false := hu.space '-' (by decide)

theorem Usual.blank : u.isSpace ' ' = true := hu.space ' ' (by decide)

/-- A score stands in one word. -/
theorem Usual.hasScore_iff (s : List Char) : HasScore u s ↔ ∃ w ∈ marks u s, HasScore u w := by
  have hwords : HasScore u s ↔ ∃ w ∈ words u.isSpace s, HasScore u w := by
    have hpart : ∀ x y, u.isDecimal x = true → u.isDecimal y = true →
        ([x, '-', y] <:+: s ↔ ∃ w ∈ words u.isSpace s, [x, '-', y] <:+: w) := fun x y hx hy =>
      infix_iff_words (by simp) (by simp [hu.not_space x hx, hu.not_space y hy, hu.dash]) s
    constructor
    · rintro ⟨_, ⟨x, y, hx, hy, rfl⟩, hwithin⟩
      obtain ⟨w, hw, hword⟩ := (hpart x y hx hy).mp hwithin
      exact ⟨w, hw, _, ⟨x, y, hx, hy, rfl⟩, hword⟩
    · rintro ⟨w, hw, _, ⟨x, y, hx, hy, rfl⟩, hwithin⟩
      exact ⟨_, ⟨x, y, hx, hy, rfl⟩, (hpart x y hx hy).mpr ⟨w, hw, hwithin⟩⟩
  rw [hwords]
  constructor
  · rintro ⟨w, hw, hscore⟩
    refine ⟨w, List.mem_filter.mpr ⟨hw, ?_⟩, hscore⟩
    by_contra hmark
    exact not_hasScore (Bool.eq_false_iff.mpr hmark) hscore
  · rintro ⟨w, hw, hscore⟩
    exact ⟨w, List.mem_of_mem_filter hw, hscore⟩

/-- The brackets of a text are those of its words. -/
theorem Usual.brackets_marks (s : List Char) : brackets (marks u s).flatten = brackets s := by
  rw [marks, brackets_flatten_filter, flatten_words, brackets, brackets, List.filter_filter]
  refine List.filter_congr fun c _ => ?_
  by_cases hc : c = '[' ∨ c = ']'
  · have hspace : u.isSpace c = false := by
      rcases hc with rfl | rfl
      · exact hu.space '[' (by decide)
      · exact hu.space ']' (by decide)
    rw [hspace, Bool.not_false, Bool.and_true]
  · simp only [not_or] at hc
    simp [hc.1, hc.2]

/-- **Texts with the same marked words** are annotated alike. -/
theorem Usual.annotated_congr {s t : List Char} (h : marks u s = marks u t) :
    Annotated u s ↔ Annotated u t := by
  rw [annotated_iff, annotated_iff, hu.hasScore_iff, hu.hasScore_iff, ← hu.brackets_marks s,
    ← hu.brackets_marks t, h]

end Words

/-! ## Canonical names -/

/-- The marks of a token are left out with it only when it has none. -/
theorem marks_strip (s : List Char) : marks u (u.strip s) = marks u s := by
  have hstrip : u.strip s = (s.dropWhile u.isSpace).rdropWhile u.isSpace := rfl
  rw [marks, hstrip, words_rdropWhile, words_dropWhile, marks]

theorem marks_unwords (hspace : u.isSpace ' ' = true) {ws : List (List Char)}
    (h : ∀ w ∈ ws, IsWord u.isSpace w) : marks u (unwords ws) = ws.filter fun w => w.any isMark := by
  rw [marks, words_unwords hspace h]

theorem marked_dropLeads (ws : List (List Char)) :
    (dropLeads ws).filter (fun w => w.any isMark) = ws.filter fun w => w.any isMark := by
  have htokens : leadTokens.all fun t => !t.toList.any isMark := by decide +kernel
  fun_induction dropLeads ws with
  | case1 first second rest hlead ih =>
      have hfirst := List.all_eq_true.mp htokens _ hlead
      rw [String.toList_ofList, Bool.not_eq_true'] at hfirst
      rw [ih, List.filter_cons_of_neg (a := first) (by simp [hfirst])]
  | case2 => rfl
  | case3 => rfl

theorem marked_dropTrails (ws : List (List Char)) :
    (dropTrails ws).filter (fun w => w.any isMark) = ws.filter fun w => w.any isMark := by
  have htokens : trailTokens.all fun t => !t.toList.any isMark := by decide +kernel
  have hreversed : ∀ vs, (dropTrailsReversed vs).filter (fun w => w.any isMark) =
      vs.filter fun w => w.any isMark := by
    intro vs
    fun_induction dropTrailsReversed vs with
    | case1 last previous rest htrail ih =>
        have hlast := List.all_eq_true.mp htokens _ htrail
        rw [String.toList_ofList, Bool.not_eq_true'] at hlast
        rw [ih, List.filter_cons_of_neg (a := last) (by simp [hlast])]
    | case2 => rfl
    | case3 => rfl
  rw [dropTrails, List.filter_reverse, hreversed, List.filter_reverse, List.reverse_reverse]

/-- A token that is not kept has no mark. -/
theorem Usual.isKept_of_mark (hu : Usual u) {w : List Char} (h : w.any isMark = true) :
    isKept u w = true := by
  obtain ⟨c, hc, hmark⟩ := List.any_eq_true.mp h
  have hmarks : c ∈ ['[', ']', '-'] := by
    simp only [isMark, Bool.or_eq_true, decide_eq_true_eq] at hmark
    simpa [or_assoc] using hmark
  have hdigit : u.isDigit c = false := by
    rcases List.mem_cons.mp hmarks with rfl | hmarks
    · exact hu.digit '[' (by decide)
    rcases List.mem_cons.mp hmarks with rfl | hmarks
    · exact hu.digit ']' (by decide)
    · rw [List.mem_singleton.mp hmarks]
      exact hu.digit '-' (by decide)
  have hpoint : c ≠ '.' := by
    rintro rfl
    exact absurd hmark (by decide)
  -- the mark is left when the points behind the token are dropped
  have hmem : c ∈ w.rdropWhile (· = '.') := by
    have hsplit := List.rdropWhile_append_rtakeWhile (p := fun d : Char => decide (d = '.')) (l := w)
    rw [← hsplit] at hc
    rcases List.mem_append.mp hc with hmem | hpoints
    · exact hmem
    · exact absurd (by simpa using List.mem_rtakeWhile_imp hpoints) hpoint
  have hnone : dropAnywhere.all fun t => !t.toList.any isMark := by decide
  have hdrop : String.ofList w ∉ dropAnywhere := by
    intro hdrop
    have hnot := List.all_eq_true.mp hnone _ hdrop
    rw [String.toList_ofList, h] at hnot
    exact absurd hnot (by decide)
  simp only [isKept, Bool.and_eq_true, Bool.not_eq_true', decide_eq_true_eq]
  refine ⟨⟨?_, ?_⟩, hdrop⟩
  · rw [List.isEmpty_eq_false_iff]
    exact List.ne_nil_of_mem hmem
  · rw [List.all_eq_false]
    exact ⟨c, hmem, by simp [hdigit]⟩

/-- A text without marks has no marked word. -/
theorem marks_eq_nil {s : List Char} (h : s.any isMark = false) : marks u s = [] := by
  refine List.filter_eq_nil_iff.mpr fun w hw hmark => ?_
  obtain ⟨c, hc, hmark⟩ := List.any_eq_true.mp hmark
  have hmem : c ∈ (words u.isSpace s).flatten := List.mem_flatten.mpr ⟨w, hw, hc⟩
  rw [flatten_words] at hmem
  exact List.any_eq_false.mp h c (List.mem_of_mem_filter hmem) hmark

theorem marks_append_blank {c : Char} (hc : u.isSpace c = true) (s t : List Char) :
    marks u (s ++ c :: t) = marks u s ++ marks u t := by
  rw [marks, words_append_blank hc, List.filter_append]
  rfl

theorem marks_dropPrefix (name : List Char) : marks u (dropPrefix u name) = marks u name := by
  unfold dropPrefix
  split
  · rename_i c rest
    by_cases hc : u.isSpace c = true
    · have hsplit : 'A' :: 'F' :: 'C' :: c :: rest = ['A', 'F', 'C'] ++ c :: rest := rfl
      have hnone : marks u ['A', 'F', 'C'] = [] := marks_eq_nil (by decide)
      rw [if_pos hc, hsplit, marks_append_blank hc, hnone, List.nil_append, marks, words_dropWhile,
        marks]
    · rw [if_neg hc]
  · rfl

theorem marks_dropSuffix (name : List Char) : marks u (dropSuffix u name) = marks u name := by
  have hdrop : ∀ (form rest : List Char) (c : Char), u.isSpace c = true →
      form.any isMark = false → name.reverse = form ++ c :: rest →
      marks u (rest.dropWhile u.isSpace).reverse = marks u name := by
    intro form rest c hc hform hname
    have hsplit : name = rest.reverse ++ c :: form.reverse := by
      rw [← List.reverse_reverse name, hname]
      simp
    rw [← List.rdropWhile_reverse, marks, words_rdropWhile, hsplit, marks_append_blank hc,
      marks_eq_nil (s := form.reverse) (by rwa [List.any_reverse]), List.append_nil, marks]
  unfold dropSuffix
  split
  · rename_i c rest hname
    by_cases hc : u.isSpace c = true
    · rw [if_pos hc]
      exact hdrop ['C', 'F', 'A'] rest c hc (by decide) hname
    · rw [if_neg hc]
  · rename_i c rest _ hname
    by_cases hc : u.isSpace c = true
    · rw [if_pos hc]
      exact hdrop ['C', 'F'] rest c hc (by decide) hname
    · rw [if_neg hc]
  · rfl

/-- No alias has a mark, neither as it is printed nor as it is given. -/
theorem marks_of_aliasOf {league : String} {name canonical : List Char}
    (h : aliasOf league name = some canonical) :
    marks u name = [] ∧ marks u canonical = [] := by
  have hall : aliases.all fun league => league.2.all fun entry =>
      !entry.1.toList.any isMark && !entry.2.toList.any isMark := by decide +kernel
  obtain ⟨entries, -, hleague, hentry⟩ := mem_of_aliasOf h
  have hnone := List.all_eq_true.mp (List.all_eq_true.mp hall _ hleague) _ hentry
  simp only [Bool.and_eq_true, Bool.not_eq_true', String.toList_ofList] at hnone
  exact ⟨marks_eq_nil hnone.1, marks_eq_nil hnone.2⟩

theorem Usual.marks_stripLegalTokens (hu : Usual u) (name : List Char) :
    marks u (stripLegalTokens u name) = marks u name := by
  rw [stripLegalTokens]
  split_ifs with hnone
  · rfl
  · rw [marks_unwords hu.blank (settled_keptTokens name).words, keptTokens, marked_dropTrails,
      marked_dropLeads, marks, List.filter_filter]
    refine List.filter_congr fun w _ => ?_
    cases hw : w.any isMark with
    | true => rw [hu.isKept_of_mark hw, Bool.and_true]
    | false => rw [Bool.false_and]

/-- **Canonicalising keeps the marked words** of a name. -/
theorem Usual.marks_canonicalName (hu : Usual u) (league : String) (name : List Char) :
    marks u (canonicalName u league name) = marks u name := by
  rw [canonicalName]
  split_ifs with hleague
  · rw [marks_strip, marks_dropSuffix, marks_dropPrefix, marks_strip]
  · cases halias : aliasOf league (u.strip name) with
    | none => rw [hu.marks_stripLegalTokens, marks_strip]
    | some canonical =>
        obtain ⟨hname, hcanonical⟩ := @marks_of_aliasOf u _ _ _ halias
        rw [hcanonical, ← hname, marks_strip]

/-- **A canonical name is annotated** exactly when the name is. -/
theorem Usual.annotated_canonicalName (hu : Usual u) (league : String) (name : List Char) :
    Annotated u (canonicalName u league name) ↔ Annotated u name :=
  hu.annotated_congr (hu.marks_canonicalName league name)

end Golavo.Ingest
