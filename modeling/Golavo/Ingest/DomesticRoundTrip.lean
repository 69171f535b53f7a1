import Golavo.Ingest.DomesticHeaders

/-! # Reading a layout back

The parser reads the fixtures of a layout back, in their order, exactly when no note is printed without
a score (`parseDomesticTxt_laid_iff`). What any other file puts into a side is settled in
`sides_of_parseDomesticTxt`; both together are what the parser keeps of its grammar. -/

namespace Golavo.Ingest.DomesticTxt

open Golavo.Lib (words unwords words_unwords mem_unwords bind_ok_iff failIf_ok_iff)
open Golavo.Lib.Calendar (civilOfDays)
open Golavo.Lib.Fields (getField mem_of_getField)
open Golavo.Lib.Json (natText fixedDigits)
open Golavo.Lib.Scan (IsShortest span_append shortest_eq_some_iff lineBreaks splitlines
  splitlines_flatMap)

variable {u : Unicode} (hu : Usual u)
include hu

/-! ## The lines -/

omit hu in
/-- A line that gives no row leaves the rest to be read. -/
theorem readLines_of_none {league : League} {season : Season} {carried next : Carried}
    {number : Nat} {line : List Char} (lines : List (List Char))
    (h : readLine u league season carried number (rstrip u line) = .ok (next, none)) :
    readLines u league season carried number (line :: lines) =
      readLines u league season next (number + 1) lines := by
  rw [readLines, h]
  cases hrest : readLines u league season next (number + 1) lines <;>
    simp [bind, Except.bind, pure, Except.pure, hrest]

/-- The line of a fixture gives its row in front of the others. -/
theorem readLines_listing_iff {league : League} {season : Season} {carried final : Carried}
    {number : Nat} {l : Listing u} {lines : List (List Char)} {rows : List MatchRow} :
    readLines u league season carried number (l.line :: lines) = .ok (final, rows) ↔
      ∃ next row rest, readMatch u league carried number l.line = .ok (next, row) ∧
        readLines u league season next (number + 1) lines = .ok (final, rest) ∧
        rows = row :: rest := by
  rw [readLines, readLine_listing hu]
  cases hmatch : readMatch u league carried number l.line with
  | error e => simp [Except.map, bind, Except.bind]
  | ok read =>
      obtain ⟨next, row⟩ := read
      simp only [Except.map, bind, Except.bind, Except.ok.injEq, Prod.mk.injEq]
      cases hrest : readLines u league season next (number + 1) lines with
      | error e => simp [hrest]
      | ok read =>
          obtain ⟨final', rest⟩ := read
          simp only [pure, Except.pure, Except.ok.injEq, Prod.mk.injEq, Option.toList_some,
            List.singleton_append]
          constructor
          · rintro ⟨rfl, rfl⟩
            exact ⟨next, row, rest, ⟨rfl, rfl⟩, hrest, rfl⟩
          · rintro ⟨_, _, rest', ⟨rfl, rfl⟩, hlines, rfl⟩
            rw [hrest, Except.ok.injEq, Prod.mk.injEq] at hlines
            exact ⟨hlines.1, by rw [hlines.2]⟩

omit hu in
/-- A date header starts with its weekday. -/
theorem words_of_isDayLine {weekday : String} {date : Int} {line : List Char}
    (hweekday : weekday ∈ weekdays) (h : IsDayLine u weekday date line) :
    ∃ c w ws, words u.isSpace line = (c :: w) :: ws ∧ c ≠ '#' ∧ c ≠ '=' := by
  have hall : ∀ w ∈ weekdays, (w.toList.head?.any fun c => c ≠ '#' && c ≠ '=') = true := by decide
  have hhead := hall weekday hweekday
  cases hday : weekday.toList with
  | nil => simp [hday] at hhead
  | cons c w =>
      have hc : c ≠ '#' ∧ c ≠ '=' := by simpa [hday] using hhead
      rcases h with h | h
      · exact ⟨c, w, _, by rw [h, dayWords, hday], hc⟩
      · exact ⟨c, w, _, by rw [h, dayWords, hday, List.cons_append], hc⟩

/-- **A layout is read back** exactly when its notes stand behind scores. -/
theorem readLines_laid_iff (league : League) {season : Season} {standing : Standing u}
    {lines : List (List Char)} {fixtures : List (Fixture u)} (h : Laid season standing lines fixtures)
    (number : Nat) :
    (∃ final, readLines u league season standing.carried number lines =
      .ok (final, fixtures.map fun f => f.row league) ∧ final.titleSeen = true) ↔
        ∀ f ∈ fixtures, f.NoteBehindScore := by
  induction h generalizing number with
  | nil standing => exact iff_of_true ⟨_, rfl, rfl⟩ (by simp)
  | @blank _ lines _ _ hwords _ _ ih =>
      rw [readLines_of_none lines (readLine_blank league season _ number hwords)]
      exact ih (number + 1)
  | @comment _ lines _ _ _ _ hwords _ _ ih =>
      rw [readLines_of_none lines (readLine_comment league season _ number hwords)]
      exact ih (number + 1)
  | @matchday standing lines _ line matchday hfits hwords _ _ ih =>
      have hline : readLine u league season standing.carried number (rstrip u line) =
          .ok (({ matchday := some matchday } : Standing u).carried, none) :=
        readLine_header hu league number hwords (by decide) (readHeader_matchday hu hwords)
      rw [readLines_of_none lines hline]
      exact ih (number + 1)
  | @day standing lines _ line weekday date hweekday hdate hwords _ _ ih =>
      obtain ⟨c, w, ws, hfirst, hc⟩ := words_of_isDayLine hweekday hwords
      have hline : readLine u league season standing.carried number (rstrip u line) =
          .ok (({ date := some date, matchday := standing.matchday } : Standing u).carried, none) :=
        readLine_header hu league number hfirst hc (readHeader_day hu hweekday hdate hwords)
      rw [readLines_of_none lines hline]
      exact ih (number + 1)
  | @listing standing lines fixtures date l hdate _ ih =>
      rw [List.forall_mem_cons, ← ih (number + 1), List.map_cons]
      simp only [readLines_listing_iff hu]
      constructor
      · rintro ⟨final, ⟨next, row, rest, hmatch, hlines, hrows⟩, hfinal⟩
        rw [List.cons.injEq] at hrows
        obtain ⟨hrow, rfl⟩ := hrows
        -- a note without a score would have given another away side
        have hnote : l.note.isSome = true → l.score.isSome = true := by
          intro hnote
          by_contra hscore
          refine readMatch_note hu league hnote (Bool.eq_false_iff.mpr hscore) hmatch ?_
          rw [← hrow]
          rfl
        have hread := readMatch_line hu league number hdate l hnote
        rw [hmatch, Except.ok.injEq, Prod.mk.injEq] at hread
        rw [hread.1] at hlines
        exact ⟨hnote, final, hlines, hfinal⟩
      · rintro ⟨hnote, final, hlines, hfinal⟩
        exact ⟨final, ⟨_, _, _, readMatch_line hu league number hdate l hnote, hlines, rfl⟩, hfinal⟩

/-! ## The title -/

omit hu in
theorem length_of_isSeason {s : List Char} (h : isSeason u s = true) : s.length = 7 := by
  unfold isSeason at h
  split at h
  · rfl
  · exact absurd h (by decide)

theorem isSeason_text (season : Season) : isSeason u season.text = true := by
  have hdigit : ∀ n : Nat, u.isDecimal (Lib.Json.digitChar (n % 10)) = true := fun n =>
    (decimal_digitChar hu (Nat.mod_lt _ (by decide))).1
  simp [Season.text, fixedDigits, Lib.Json.digitList, isSeason, hdigit]

/-- A title that is not empty and neither starts nor ends with a blank, on one line. -/
structure IsTitle (u : Unicode) (title : List Char) : Prop where
  ne_nil : title ≠ []
  trimmed : Lib.Trimmed u.isSpace title
  noBreak : ∀ c ∈ title, c ∉ lineBreaks

theorem isTitle_of_leagueOf {code : String} {league : League} (h : leagueOf code = some league) :
    IsTitle u league.title.toList := by
  have hall : domesticTitles.all (fun entry =>
      (entry.2.toList.head?.any fun c => c.toNat < 128 && !Unicode.ascii.isSpace c) &&
        (entry.2.toList.getLast?.any fun c => c.toNat < 128 && !Unicode.ascii.isSpace c) &&
          entry.2.toList.all fun c => c ∉ lineBreaks) = true := by decide +kernel
  obtain ⟨title, htitle, h⟩ := Option.bind_eq_some_iff.mp h
  obtain ⟨⟨competition, country⟩, -, h⟩ := Option.bind_eq_some_iff.mp h
  obtain rfl := Option.some.inj h
  have hentry := List.all_eq_true.mp hall _ (mem_of_getField htitle)
  simp only [Bool.and_eq_true, List.all_eq_true, decide_eq_true_eq] at hentry
  obtain ⟨⟨hhead, hlast⟩, hbreak⟩ := hentry
  have hplain : ∀ o : Option Char,
      (o.any fun c => c.toNat < 128 && !Unicode.ascii.isSpace c) = true →
        ∀ c ∈ o, u.isSpace c = false := by
    rintro _ ho c rfl
    simp only [Option.any_some, Bool.and_eq_true, decide_eq_true_eq, Bool.not_eq_true'] at ho
    exact not_blank hu ho
  refine ⟨?_, ⟨hplain _ hhead, hplain _ hlast⟩, hbreak⟩
  intro hnil
  rw [hnil] at hhead
  exact absurd hhead (by decide)

/-- **A printed title is read back.** -/
theorem readTitle_titleLine {league : League} (season : Season) (gap gap' : Nat)
    (h : IsTitle u league.title.toList) :
    readTitle u (titleLine league season gap gap') = some (league.title.toList, season.text) := by
  have hseason : ∀ c ∈ season.text.head?, u.isSpace c = false := by
    intro c hc
    rw [Season.text, List.head?_append_of_ne_nil _ (by simp [fixedDigits, Lib.Json.digitList])] at hc
    exact hu.not_space c (decimal_fixedDigits hu 4 _ c (List.mem_of_mem_head? hc))
  have htext : ∀ c ∈ (league.title.toList ++ (spaces (gap' + 1) ++ season.text)).head?,
      u.isSpace c = false := by
    rw [List.head?_append_of_ne_nil _ h.ne_nil]
    exact h.trimmed.1
  -- behind any part of the title that is left the season is not alone
  have hlong : ∀ after : List Char, after ≠ [] →
      isSeason u (after ++ (spaces (gap' + 1) ++ season.text)) = false := by
    intro after hafter
    refine Bool.eq_false_iff.mpr fun hshape => ?_
    have hlength := length_of_isSeason hshape
    have hpos := List.length_pos_iff.mpr hafter
    rw [List.length_append, List.length_append, length_of_isSeason (isSeason_text hu season)]
      at hlength
    omega
  have hshortest : IsShortest (endsTitle u)
      (league.title.toList ++ (spaces (gap' + 1) ++ season.text)) league.title.toList
      (spaces (gap' + 1) ++ season.text) := by
    refine ⟨rfl, h.ne_nil, ?_, ?_⟩
    · rw [endsTitle, dropWhile_spaces hu _ hseason, isSeason_text hu, Bool.and_true, spaces_succ]
      simp [hu.blank]
    · intro before after hsplit _ hafter
      have hne : after.dropWhile u.isSpace ≠ [] := by
        intro hnil
        have hblank := List.dropWhile_eq_nil_iff.mp hnil _ (List.getLast_mem hafter)
        have hplain := h.trimmed.2 (after.getLast hafter) (by
          rw [← hsplit, List.getLast?_append_of_ne_nil _ hafter,
            List.getLast?_eq_some_getLast hafter]
          rfl)
        rw [hblank] at hplain
        exact absurd hplain (by decide)
      rw [endsTitle, List.dropWhile_append, if_neg (by simpa using hne), hlong _ hne,
        Bool.and_false]
  have hfound : readTitle.titleOf u (league.title.toList ++ (spaces (gap' + 1) ++ season.text)) =
      some (league.title.toList, season.text) := by
    rw [readTitle.titleOf, shortest_eq_some_iff.mpr hshortest, Option.map_some]
    simp only [dropWhile_spaces hu _ hseason]
  obtain ⟨htake, hdrop⟩ := span_append (blank_spaces hu (gap + 1)) htext
  have hreverse : (spaces (gap + 1)).reverse = ' ' :: spaces gap := List.reverse_replicate
  simp only [readTitle, titleLine, htake, hdrop, hreverse, hlong _ h.ne_nil, hfound]
  split
  · rw [if_neg Bool.false_ne_true]
  · rfl

theorem readLine_titleLine {league : League} (season : Season) (gap gap' number : Nat)
    (h : IsTitle u league.title.toList) :
    readLine u league season {} number (rstrip u (titleLine league season gap gap')) =
      .ok (({} : Standing u).carried, none) := by
  have hequals : u.isSpace '=' = false := not_blank hu (by decide)
  have hlast : rstrip u (titleLine league season gap gap') = titleLine league season gap gap' := by
    have hsplit : titleLine league season gap gap' = ('=' :: (spaces (gap + 1) ++
        (league.title.toList ++ (spaces (gap' + 1) ++ (fixedDigits 4 season.first ++ ['/']))))) ++
          fixedDigits 2 season.last := by simp [titleLine, Season.text]
    have hplain : ∀ c ∈ (titleLine league season gap gap').getLast?, u.isSpace c = false := by
      rw [hsplit]
      refine getLast?_append_ne_nil (by simp [fixedDigits, Lib.Json.digitList]) fun c hc => ?_
      exact hu.not_space c (decimal_fixedDigits hu 2 _ c (List.mem_of_getLast? hc))
    rw [rstrip, List.rdropWhile_eq_self_iff]
    intro hne
    simp [hplain _ (List.getLast?_eq_some_getLast hne)]
  have hskip : isSkipped u (titleLine league season gap gap') = false := by
    simp [isSkipped, titleLine, hequals]
  rw [hlast, readLine, if_neg (by simp [hskip]), readTitle_titleLine hu season gap gap' h]
  simp only [if_true]
  rfl

/-! ## The text -/

theorem noBreak_digits (k n : Nat) : ∀ c ∈ fixedDigits k n, c ∉ lineBreaks := fun c hc =>
  hu.not_break c (decimal_fixedDigits hu k n c hc)

omit hu in
theorem noBreak_spaces (n : Nat) : ∀ c ∈ spaces n, c ∉ lineBreaks := by
  intro c hc
  rw [List.eq_of_mem_replicate hc]
  decide

theorem noBreak_pairText (pair : Nat × Nat) : ∀ c ∈ pairText pair, c ∉ lineBreaks := by
  rw [pairText, List.forall_mem_append, List.forall_mem_cons]
  exact ⟨noBreak_digits hu _ _, by decide, noBreak_digits hu _ _⟩

/-- The line of a fixture is one line. -/
theorem noBreak_line (l : Listing u) : ∀ c ∈ l.line, c ∉ lineBreaks := by
  have hclock : ∀ c ∈ l.clockText, c ∉ lineBreaks := by
    unfold Listing.clockText
    cases l.clock with
    | none => simp
    | some clock =>
        rw [List.forall_mem_append]
        refine ⟨fun c hc => ?_, noBreak_spaces _⟩
        rcases (clock_chars clock).2 c hc with hdecimal | rfl
        · exact hu.not_break c hdecimal
        · decide
  have hnote : ∀ c ∈ l.noteText, c ∉ lineBreaks := by
    unfold Listing.noteText
    cases l.note with
    | none => simp
    | some note =>
        simp only [List.forall_mem_append, List.forall_mem_cons]
        exact ⟨noBreak_spaces _, by decide, note.noBreak, by decide, List.forall_mem_nil _⟩
  have hhalf : ∀ half, ∀ c ∈ l.halfText half, c ∉ lineBreaks := by
    rintro (_ | half)
    · simp [Listing.halfText]
    · simp only [Listing.halfText, List.forall_mem_append, List.forall_mem_cons]
      exact ⟨noBreak_spaces _, by decide, noBreak_pairText hu _, by decide, List.forall_mem_nil _⟩
  have hresult : ∀ c ∈ l.resultText, c ∉ lineBreaks := by
    unfold Listing.resultText
    cases l.score with
    | none => exact hnote
    | some score =>
        simp only [List.forall_mem_append]
        exact ⟨noBreak_spaces _, noBreak_pairText hu _, hhalf _, hnote⟩
  simp only [Listing.line, Listing.content, List.forall_mem_append, List.forall_mem_cons]
  exact ⟨noBreak_spaces _, hclock, l.home.noBreak, noBreak_spaces _, by decide, noBreak_spaces _,
    l.away.noBreak, hresult⟩

/-- The lines of a layout are lines, and their numbers fit their columns. -/
theorem lines_of_laid {season : Season} {standing : Standing u} {lines : List (List Char)}
    {fixtures : List (Fixture u)} (h : Laid season standing lines fixtures) :
    (∀ line ∈ lines, ∀ c ∈ line, c ∉ lineBreaks) ∧
      ((∀ n ∈ standing.matchday, fits n) → ∀ f ∈ fixtures, ∀ n ∈ f.matchday, fits n) := by
  induction h with
  | nil standing => simp
  | blank _ hbreak _ ih => exact ⟨List.forall_mem_cons.mpr ⟨hbreak, ih.1⟩, ih.2⟩
  | comment _ hbreak _ ih => exact ⟨List.forall_mem_cons.mpr ⟨hbreak, ih.1⟩, ih.2⟩
  | matchday hfits _ hbreak _ ih =>
      refine ⟨List.forall_mem_cons.mpr ⟨hbreak, ih.1⟩, fun _ => ih.2 ?_⟩
      intro n hn
      obtain rfl := Option.some.inj hn
      exact hfits
  | day _ _ _ hbreak _ ih => exact ⟨List.forall_mem_cons.mpr ⟨hbreak, ih.1⟩, ih.2⟩
  | listing l _ _ ih =>
      exact ⟨List.forall_mem_cons.mpr ⟨noBreak_line hu l, ih.1⟩,
        fun hover => List.forall_mem_cons.mpr ⟨hover, ih.2 hover⟩⟩

omit hu in
theorem fits_row (league : League) {f : Fixture u} (h : ∀ n ∈ f.matchday, fits n) :
    (f.row league).Fits := by
  refine ⟨h, ?_, ?_⟩
  · intro pair hpair
    obtain ⟨score, -, rfl⟩ := Option.map_eq_some_iff.mp hpair
    exact ⟨score.home_fits, score.away_fits⟩
  · intro half hhalf
    obtain ⟨score, -, hhalf⟩ := Option.bind_eq_some_iff.mp hhalf
    obtain ⟨hhome, haway⟩ := score.half_le half hhalf
    exact ⟨lt_of_le_of_lt hhome score.home_fits, lt_of_le_of_lt haway score.away_fits⟩

/-- **A season file is read back** exactly when its notes stand behind scores. -/
theorem parseDomesticTxt_laid_iff {code : String} {league : League}
    (hleague : leagueOf code = some league) {season : Season} {lines : List (List Char)}
    {fixtures : List (Fixture u)} (h : Laid season {} lines fixtures) (gap gap' : Nat) :
    parseDomesticTxt u (document (titleLine league season gap gap') lines) season code =
      .ok (fixtures.map fun f => f.row league) ↔ ∀ f ∈ fixtures, f.NoteBehindScore := by
  have htitle : IsTitle u league.title.toList := isTitle_of_leagueOf hu hleague
  obtain ⟨hbreak, hfits⟩ := lines_of_laid hu h
  have htitleBreak : ∀ c ∈ titleLine league season gap gap', c ∉ lineBreaks := by
    simp only [titleLine, Season.text, List.forall_mem_cons, List.forall_mem_append]
    exact ⟨by decide, noBreak_spaces _, htitle.noBreak, noBreak_spaces _, noBreak_digits hu _ _,
      by decide, noBreak_digits hu _ _⟩
  have hsplit : splitlines (document (titleLine league season gap gap') lines) =
      titleLine league season gap gap' :: lines :=
    splitlines_flatMap (List.forall_mem_cons.mpr ⟨htitleBreak, hbreak⟩)
  have hread : ∀ rows, parseDomesticTxt u (document (titleLine league season gap gap') lines)
      season code = .ok rows ↔ ∃ final,
        readLines u league season ({} : Standing u).carried 2 lines = .ok (final, rows) ∧
          final.titleSeen = true ∧ ∀ row ∈ rows, row.Fits := by
    intro rows
    have hlines := readLines_of_none lines (readLine_titleLine hu season gap gap' 1 htitle)
    simp only [parseDomesticTxt, hleague, hsplit, Lib.orFail, bind_ok_iff, failIf_ok_iff, hlines,
      Except.ok.injEq, exists_eq_left', Prod.exists, Bool.not_eq_true', Bool.not_eq_false,
      decide_eq_true_eq, pure, Except.pure]
    constructor
    · rintro ⟨final, rows', hrun, -, hseen, -, hrows, rfl⟩
      exact ⟨final, hrun, hseen, hrows⟩
    · rintro ⟨final, hrun, hseen, hrows⟩
      exact ⟨final, rows, hrun, (), hseen, (), hrows, rfl⟩
  rw [hread, ← readLines_laid_iff hu league h 2]
  refine exists_congr fun final => and_congr_right fun _ => and_iff_left fun row hrow => ?_
  obtain ⟨f, hf, rfl⟩ := List.mem_map.mp hrow
  exact fits_row league (hfits (by simp) f hf)

/-! ## Every list of fixtures has a layout -/

/-- Fixtures of one season; those without a matchday come before the first matchday header. -/
structure Printable (season : Season) (fixtures : List (Fixture u)) : Prop where
  date : ∀ f ∈ fixtures, season.Holds f.date
  matchday : ∀ f ∈ fixtures, ∀ n ∈ f.matchday, fits n
  order : fixtures.Pairwise fun f g => f.matchday.isSome = true → g.matchday.isSome = true

/-- Words joined by spaces are a line with these words. -/
theorem line_of_words {ws : List (List Char)}
    (h : ∀ w ∈ ws, w ≠ [] ∧ ∀ c ∈ w, u.isSpace c = false ∧ c ∉ lineBreaks) :
    words u.isSpace (unwords ws) = ws ∧ ∀ c ∈ unwords ws, c ∉ lineBreaks := by
  refine ⟨words_unwords hu.blank fun w hw => ⟨(h w hw).1, fun c hc => ((h w hw).2 c hc).1⟩, ?_⟩
  intro c hc
  rcases mem_unwords hc with rfl | ⟨w, hw, hcw⟩
  · decide
  · exact ((h w hw).2 c hcw).2

/-- Printed characters of ASCII. -/
def isPrinted (c : Char) : Bool :=
  decide (c.toNat < 128) && !Unicode.ascii.isSpace c && decide (c ∉ lineBreaks)

theorem word_of_isPrinted {w : List Char} (hne : w ≠ []) (h : w.all isPrinted = true) :
    w ≠ [] ∧ ∀ c ∈ w, u.isSpace c = false ∧ c ∉ lineBreaks := by
  refine ⟨hne, fun c hc => ?_⟩
  have hprinted := List.all_eq_true.mp h c hc
  simp only [isPrinted, Bool.and_eq_true, decide_eq_true_eq, Bool.not_eq_true'] at hprinted
  exact ⟨not_blank hu hprinted.1, hprinted.2⟩

theorem word_natText (n : Nat) :
    natText n ≠ [] ∧ ∀ c ∈ natText n, u.isSpace c = false ∧ c ∉ lineBreaks :=
  ⟨natText_ne_nil n, fun c hc => ⟨hu.not_space c (decimal_natText hu n c hc),
    hu.not_break c (decimal_natText hu n c hc)⟩⟩

theorem line_of_day (date : Int) :
    words u.isSpace (unwords (dayWords "Mon" date)) = dayWords "Mon" date ∧
      ∀ c ∈ unwords (dayWords "Mon" date), c ∉ lineBreaks := by
  have hmonths : ∀ m < 13, 1 ≤ m → monthText (m : Nat) ≠ [] ∧
      (monthText (m : Nat)).all isPrinted = true := by decide
  obtain ⟨hm₀, hm₁, -, -⟩ := Lib.Calendar.civilOfDays_bounds date
  have hmonth := hmonths (civilOfDays date).month.toNat (by omega) (by omega)
  rw [Int.toNat_of_nonneg (by omega)] at hmonth
  refine line_of_words hu ?_
  simp only [dayWords, List.forall_mem_cons]
  exact ⟨word_of_isPrinted hu (by decide) (by decide), word_of_isPrinted hu hmonth.1 hmonth.2,
    word_natText hu _, by simp⟩

theorem line_of_matchday (number : Nat) :
    words u.isSpace (unwords [['▪'], "Matchday".toList, natText number]) =
        [['▪'], "Matchday".toList, natText number] ∧
      ∀ c ∈ unwords [['▪'], "Matchday".toList, natText number], c ∉ lineBreaks := by
  refine line_of_words hu ?_
  simp only [List.forall_mem_cons]
  exact ⟨⟨by simp, ⟨hu.bullet, by decide⟩, by simp⟩, word_of_isPrinted hu (by decide) (by decide),
    word_natText hu _, by simp⟩

/-- **Every list of fixtures has a layout**: one that prints all headers anew for each of them. -/
theorem exists_laid {season : Season} {fixtures : List (Fixture u)}
    (h : Printable season fixtures) (standing : Standing u)
    (hover : standing.matchday.isSome = true → ∀ f ∈ fixtures, f.matchday.isSome = true) :
    ∃ lines, Laid season standing lines fixtures := by
  induction fixtures generalizing standing with
  | nil => exact ⟨[], .nil standing⟩
  | cons f fixtures ih =>
      obtain ⟨hdate, hdates⟩ := List.forall_mem_cons.mp h.date
      obtain ⟨hmatchday, hmatchdays⟩ := List.forall_mem_cons.mp h.matchday
      obtain ⟨horder, horders⟩ := List.pairwise_cons.mp h.order
      obtain ⟨lines, hlines⟩ := ih ⟨hdates, hmatchdays, horders⟩
        { date := some f.date, clock := f.clock, matchday := f.matchday }
        fun hsome g hg => horder g hg hsome
      let l : Listing u :=
        { indent := 3, clock := f.clock, clockGap := 1, home := f.home, homeGap := 0, awayGap := 0,
          away := f.away, scoreGap := 0, score := f.score, halfGap := 0, noteGap := 1,
          note := f.note }
      have hlisting : Laid season { date := some f.date, matchday := f.matchday } (l.line :: lines)
          (f :: fixtures) := by
        have hlaid := @Laid.listing u season { date := some f.date, matchday := f.matchday } lines
          fixtures f.date l rfl (by rwa [Option.or_none])
        rwa [Option.or_none] at hlaid
      obtain ⟨hwords, hbreak⟩ := line_of_day hu f.date
      have hday : ∀ standing : Standing u, standing.matchday = f.matchday →
          Laid season standing (unwords (dayWords "Mon" f.date) :: l.line :: lines)
            (f :: fixtures) := by
        intro standing heq
        exact .day (by decide) hdate (.inl hwords) hbreak (heq ▸ hlisting)
      cases hnumber : f.matchday with
      | none =>
          refine ⟨_, hday standing ?_⟩
          rw [hnumber]
          by_contra hne
          have hsome := hover (Option.isSome_iff_ne_none.mpr hne) f List.mem_cons_self
          rw [hnumber] at hsome
          exact absurd hsome (by decide)
      | some number =>
          obtain ⟨hheader, hheaderBreak⟩ := line_of_matchday hu number
          exact ⟨_, .matchday (hmatchday number hnumber) hheader hheaderBreak
            (hday { matchday := some number } hnumber.symm)⟩

/-! ## What the parser keeps of its grammar -/

/-- **What the domestic parser keeps.** Every list of fixtures has a layout; a layout is read back,
fixture by fixture, exactly when no note is printed without a score; and no side of a file that is read
is annotated exactly when no match line exposes an annotation. -/
theorem parseDomesticTxt_inverts {code : String} {league : League}
    (hleague : leagueOf code = some league) (season : Season) :
    (∀ fixtures : List (Fixture u), Printable season fixtures →
      ∃ lines, Laid season {} lines fixtures) ∧
    (∀ lines (fixtures : List (Fixture u)), Laid season {} lines fixtures → ∀ gap gap',
      (parseDomesticTxt u (document (titleLine league season gap gap') lines) season code =
          .ok (fixtures.map fun f => f.row league) ↔ ∀ f ∈ fixtures, f.NoteBehindScore)) ∧
    ∀ text frame, parseDomesticTxt u text season code = .ok frame →
      ((∀ row ∈ frame, ¬ Annotated u row.homeTeam ∧ ¬ Annotated u row.awayTeam) ↔
        ∀ line ∈ matchLines u (splitlines text), ¬ Exposes u line) := by
  refine ⟨fun fixtures h => ?_, fun lines fixtures h gap gap' => ?_, fun text frame h => ?_⟩
  · exact exists_laid hu h {} fun hsome => absurd hsome Bool.false_ne_true
  · exact parseDomesticTxt_laid_iff hu hleague h gap gap'
  · exact sides_of_parseDomesticTxt hu h

/-! ## A postponed match -/

omit hu

/-- The season 2026-27. -/
def season2026 : Season := ⟨2026, 27, by decide, by decide⟩

theorem parseDomesticTxt_inverts_season2026 :
    (∀ fixtures : List (Fixture .ascii), Printable season2026 fixtures →
      ∃ lines, Laid season2026 {} lines fixtures) ∧
    (∀ lines (fixtures : List (Fixture .ascii)), Laid season2026 {} lines fixtures → ∀ gap gap',
      (parseDomesticTxt .ascii
          (document (titleLine ⟨"en.1", "English Premier League", "English Premier League",
            "England"⟩ season2026 gap gap') lines) season2026 "en.1" =
        .ok (fixtures.map fun f => f.row ⟨"en.1", "English Premier League",
          "English Premier League", "England"⟩) ↔ ∀ f ∈ fixtures, f.NoteBehindScore)) ∧
    ∀ text frame, parseDomesticTxt .ascii text season2026 "en.1" = .ok frame →
      ((∀ row ∈ frame, ¬ Annotated .ascii row.homeTeam ∧ ¬ Annotated .ascii row.awayTeam) ↔
        ∀ line ∈ matchLines .ascii (splitlines text), ¬ Exposes .ascii line) :=
  parseDomesticTxt_inverts usual_ascii (by decide) season2026

/-- A file whose only match is postponed. -/
def postponedText : List Char :=
  document "= English Premier League 2026/27".toList
    ["▪ Matchday 1".toList, "  Fri Aug 21 2026".toList,
      "    20:00  Arsenal FC v Coventry City FC  [postponed]".toList]

/-- **A postponed match** is read with its note as a part of the away side. -/
theorem parseDomesticTxt_postponed :
    ∃ row, parseDomesticTxt .ascii postponedText season2026 "en.1" = .ok [row] ∧
      row.awayTeam = "Coventry City FC  [postponed]".toList ∧ Annotated .ascii row.awayTeam := by
  refine ⟨{ date := 20686, localTime := some "20:00".toList, matchday := some 1,
            homeTeam := "Arsenal".toList, awayTeam := "Coventry City FC  [postponed]".toList,
            fullTime := none, halfTime := none, tournament := "English Premier League",
            country := "England" }, by decide +kernel, rfl, ?_⟩
  exact ⟨_, .inr ⟨"postponed".toList, rfl⟩, "Coventry City FC  ".toList, [], by decide⟩

end Golavo.Ingest.DomesticTxt
