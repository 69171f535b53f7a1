import Golavo.Ingest.Annotations
import Golavo.Lib.Runs

/-! # What a side can hold

A file that is read gives one row for each of its match lines. A side of a row is annotated exactly
when its line **exposes** an annotation (`sides_of_parseDomesticTxt`): one that ends before the `v`, or
before the two blanks and the digit that open the result. -/

namespace Golavo.Ingest.DomesticTxt

open Golavo.Lib (bind_ok_iff orFail_ok_iff failIf_ok_iff)
open Golavo.Lib.Scan (IsShortest shortest_eq_some_iff splitlines)

variable (u : Unicode)

/-! ## Match lines of a text -/

/-- A line that is read for a match. -/
def isMatchLine (line : List Char) : Bool :=
  !isSkipped u line && (readTitle u line).isNone && (readMatchday u line).isNone &&
    (readDateLine u line).isNone && holdsSeparator line

/-- The match lines among the lines of a file. -/
def matchLines (lines : List (List Char)) : List (List Char) :=
  (lines.map (rstrip u)).filter (isMatchLine u)

/-- The text of a match line without its clock. -/
def matchText (line : List Char) : List Char := (contentOf u none line).2

/-- An annotation that ends before anything accepted starts. -/
def Exposed (accepts : List Char → Bool) (s : List Char) : Prop :=
  ∃ before part after, before ++ part ++ after = s ∧ (IsScore u part ∨ IsBracketed part) ∧
    ∀ start tail, start ++ tail = s → start ≠ [] → after.length < tail.length →
      accepts tail = false

/-- A match line exposes an annotation: on the home side before its `v`, or on the away side before
the result opens. -/
def Exposes (line : List Char) : Prop :=
  Exposed u (separates u) (matchText u line) ∨
    ∃ home rest, IsShortest (separates u) (matchText u line) home rest ∧
      Exposed u (endsAway u) (behindSeparator u rest)

variable {u}

theorem annotated_iff_exposed {accepts : List Char → Bool} {s front rest : List Char}
    (h : IsShortest accepts s front rest) : Annotated u front ↔ Exposed u accepts s :=
  h.exists_infix_iff fun part => IsScore u part ∨ IsBracketed part

/-! ## One line -/

theorem contentOf_snd (clock : Option (List Char)) (line : List Char) :
    (contentOf u clock line).2 = matchText u line := by
  unfold matchText contentOf
  split
  · rfl
  · rfl

/-- **A match line that is read** gives the canonical names of its two sides. -/
theorem readMatch_ok {league : League} {carried carried' : Carried} {number : Nat}
    {line : List Char} {row : MatchRow}
    (h : readMatch u league carried number line = .ok (carried', row)) :
    ∃ home away result, readSides u (matchText u line) = some (home, away, result) ∧
      row.homeTeam = canonicalName u league.code (u.strip home) ∧
      row.awayTeam = canonicalName u league.code (u.strip away) := by
  obtain ⟨date, -, h⟩ := bind_ok_iff.mp h
  obtain ⟨⟨home, away, result⟩, hsides, h⟩ := bind_ok_iff.mp h
  obtain ⟨half, -, h⟩ := bind_ok_iff.mp h
  obtain ⟨-, rfl⟩ := Prod.mk.inj (Except.ok.inj h)
  rw [contentOf_snd] at hsides
  unfold matchSides at hsides
  split at hsides
  · cases hsides
  · rename_i home' away' result' hread
    simp only at hsides
    split_ifs at hsides
    obtain ⟨rfl, rest⟩ := Prod.mk.inj (Except.ok.inj hsides)
    obtain ⟨rfl, -⟩ := Prod.mk.inj rest
    exact ⟨home', away', result', hread, rfl, rfl⟩

theorem readSides_eq_some_iff {content home away result : List Char} :
    readSides u content = some (home, away, result) ↔
      ∃ rest rest', IsShortest (separates u) content home rest ∧
        IsShortest (endsAway u) (behindSeparator u rest) away rest' ∧
        result = rest'.dropWhile u.isSpace := by
  simp only [readSides, bind, Option.bind_eq_some_iff, Prod.exists, shortest_eq_some_iff,
    Option.some.injEq, Prod.mk.injEq]
  constructor
  · rintro ⟨home', rest, hhome, away', rest', haway, rfl, rfl, rfl⟩
    exact ⟨rest, rest', hhome, haway, rfl⟩
  · rintro ⟨rest, rest', hhome, haway, rfl⟩
    exact ⟨home, rest, hhome, away, rest', haway, rfl, rfl, rfl⟩

/-- **A row's side is annotated** exactly when its line exposes an annotation. -/
theorem annotated_row_iff (hu : Usual u) {league : League} {carried carried' : Carried}
    {number : Nat} {line : List Char} {row : MatchRow}
    (h : readMatch u league carried number line = .ok (carried', row)) :
    Annotated u row.homeTeam ∨ Annotated u row.awayTeam ↔ Exposes u line := by
  obtain ⟨home, away, result, hsides, hhome, haway⟩ := readMatch_ok h
  obtain ⟨rest, rest', hfirst, hsecond, -⟩ := readSides_eq_some_iff.mp hsides
  have hcanonical : ∀ side, Annotated u (canonicalName u league.code (u.strip side)) ↔
      Annotated u side := fun side =>
    (hu.annotated_canonicalName _ _).trans (hu.annotated_congr (marks_strip side))
  rw [hhome, haway, hcanonical, hcanonical, annotated_iff_exposed hfirst,
    annotated_iff_exposed hsecond, Exposes]
  refine or_congr Iff.rfl ⟨fun hexposed => ⟨home, rest, hfirst, hexposed⟩, ?_⟩
  rintro ⟨home', rest'', hfirst', hexposed⟩
  -- a line has one first separator
  have hsame := (shortest_eq_some_iff.mpr hfirst').symm.trans (shortest_eq_some_iff.mpr hfirst)
  obtain ⟨rfl, rfl⟩ := Prod.mk.inj (Option.some.inj hsame)
  exact hexposed

/-- A line gives a row exactly when it is a match line. -/
theorem readLine_ok {league : League} {season : Season} {carried carried' : Carried} {number : Nat}
    {line : List Char} {row : Option MatchRow}
    (h : readLine u league season carried number line = .ok (carried', row)) :
    isMatchLine u line = false ∧ row = none ∨
      isMatchLine u line = true ∧ ∃ r, row = some r ∧
        readMatch u league carried number line = .ok (carried', r) := by
  unfold readLine at h
  by_cases hskip : isSkipped u line = true
  · rw [if_pos hskip] at h
    obtain ⟨-, rfl⟩ := Prod.mk.inj (Except.ok.inj h)
    exact .inl ⟨by simp [isMatchLine, hskip], rfl⟩
  rw [if_neg hskip] at h
  split at h
  · rename_i title htitle
    split_ifs at h
    obtain ⟨-, rfl⟩ := Prod.mk.inj (Except.ok.inj h)
    exact .inl ⟨by simp [isMatchLine, htitle], rfl⟩
  · rename_i htitle
    split at h
    · rename_i header hheader
      obtain ⟨next, _, hnext⟩ := bind_ok_iff.mp h
      obtain ⟨-, rfl⟩ := Prod.mk.inj (Except.ok.inj hnext)
      refine .inl ⟨?_, rfl⟩
      unfold readHeader at hheader
      split at hheader
      · rename_i matchday hmatchday
        simp [isMatchLine, hmatchday]
      · obtain ⟨date, hdate, -⟩ := Option.map_eq_some_iff.mp hheader
        simp [isMatchLine, hdate]
    · rename_i hheader
      split_ifs at h with hseparator
      · obtain ⟨⟨carried'', r⟩, hmatch, hnext⟩ := bind_ok_iff.mp h
        obtain ⟨rfl, rfl⟩ := Prod.mk.inj (Except.ok.inj hnext)
        refine .inr ⟨?_, r, rfl, hmatch⟩
        unfold readHeader at hheader
        split at hheader
        · cases hheader
        · rename_i hmatchday
          have hdate := Option.map_eq_none_iff.mp hheader
          simp [isMatchLine, hskip, htitle, hmatchday, hdate, hseparator]
      · obtain ⟨-, rfl⟩ := Prod.mk.inj (Except.ok.inj h)
        exact .inl ⟨by simp [isMatchLine, hseparator], rfl⟩

/-! ## The file -/

/-- **The rows of a file** are those of its match lines, in their order. -/
theorem readLines_sides (hu : Usual u) {league : League} {season : Season}
    {carried carried' : Carried} {number : Nat} {lines : List (List Char)} {rows : List MatchRow}
    (h : readLines u league season carried number lines = .ok (carried', rows)) :
    List.Forall₂ (fun line row => Annotated u row.homeTeam ∨ Annotated u row.awayTeam ↔
      Exposes u line) (matchLines u lines) rows := by
  induction lines generalizing carried number rows with
  | nil =>
      obtain ⟨-, rfl⟩ := Prod.mk.inj (Except.ok.inj h)
      exact .nil
  | cons line lines ih =>
      obtain ⟨⟨next, row⟩, hline, h⟩ := bind_ok_iff.mp h
      obtain ⟨⟨final, rest⟩, hlines, h⟩ := bind_ok_iff.mp h
      obtain ⟨rfl, rfl⟩ := Prod.mk.inj (Except.ok.inj h)
      have hrest := ih hlines
      rw [matchLines, List.map_cons]
      rcases readLine_ok hline with ⟨hnot, rfl⟩ | ⟨hmatch, r, rfl, hread⟩
      · rw [List.filter_cons_of_neg (by simp [hnot])]
        exact hrest
      · rw [List.filter_cons_of_pos hmatch]
        exact .cons (annotated_row_iff hu hread) hrest

/-- **No side of a file that is read is annotated** exactly when no match line exposes an
annotation. -/
theorem sides_of_parseDomesticTxt (hu : Usual u) {text : List Char} {season : Season}
    {code : String} {frame : List MatchRow}
    (h : parseDomesticTxt u text season code = .ok frame) :
    (∀ row ∈ frame, ¬ Annotated u row.homeTeam ∧ ¬ Annotated u row.awayTeam) ↔
      ∀ line ∈ matchLines u (splitlines text), ¬ Exposes u line := by
  obtain ⟨league, -, h⟩ := bind_ok_iff.mp h
  obtain ⟨⟨carried, rows⟩, hlines, h⟩ := bind_ok_iff.mp h
  obtain ⟨-, -, h⟩ := bind_ok_iff.mp h
  obtain ⟨-, -, h⟩ := bind_ok_iff.mp h
  obtain rfl := Except.ok.inj h
  have hsides := readLines_sides hu hlines
  generalize matchLines u (splitlines text) = lines at hsides ⊢
  clear * - hsides
  induction hsides with
  | nil => simp
  | cons hline _ ih =>
      rw [List.forall_mem_cons, List.forall_mem_cons]
      exact and_congr (by rw [← hline, not_or]) ih

end Golavo.Ingest.DomesticTxt
