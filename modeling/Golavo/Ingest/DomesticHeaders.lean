import Golavo.Ingest.DomesticLines

/-! # Lines of a layout

What the parser makes of each kind of line: a blank line and a comment are passed over, a header is taken
down by its words, whatever blanks stand between them, and the line of a fixture is read for its match. -/

namespace Golavo.Ingest.DomesticTxt

open Golavo.Lib (words words_append_blank words_cons_not_blank words_dropWhile words_rdropWhile
  flatten_words)
open Golavo.Lib.Calendar (CivilDate civilOfDays civilOfDays_bounds year_of_writable
  daysOfCivil_civilOfDays)
open Golavo.Lib.Fields (getField)
open Golavo.Lib.Json (natText fixedDigits)

variable {u : Unicode} (hu : Usual u)
include hu

/-! ## Lines by their words -/

omit hu in
/-- A line starts, but for blanks, as its first word does. -/
theorem dropWhile_of_words {line w : List Char} {c : Char} {ws : List (List Char)}
    (h : words u.isSpace line = (c :: w) :: ws) : (line.dropWhile u.isSpace).head? = some c := by
  rw [← words_dropWhile] at h
  have hhead := List.head?_dropWhile_not u.isSpace line
  cases hline : line.dropWhile u.isSpace with
  | nil =>
      rw [hline] at h
      cases h
  | cons d rest =>
      rw [hline] at h hhead
      obtain ⟨w', ws', hwords, -⟩ := @words_cons_not_blank u.isSpace _ hhead rest
      rw [hwords, List.cons.injEq, List.cons.injEq] at h
      rw [List.head?_cons, h.1.1]

omit hu in
theorem isSkipped_of_words {line w : List Char} {c : Char} {ws : List (List Char)}
    (h : words u.isSpace line = (c :: w) :: ws) : isSkipped u line = decide (c = '#') := by
  have hne : line ≠ [] := by
    rintro rfl
    cases h
  rw [isSkipped, dropWhile_of_words h]
  cases hc : decide (c = '#') with
  | true => simp [of_decide_eq_true hc]
  | false => simp [hne, of_decide_eq_false hc]

theorem readTitle_of_words {line w : List Char} {c : Char} {ws : List (List Char)}
    (h : words u.isSpace line = (c :: w) :: ws) (hc : c ≠ '=') : readTitle u line = none := by
  unfold readTitle
  split
  · rename_i rest
    have hequals : u.isSpace '=' = false := not_blank hu (by decide)
    obtain ⟨w', ws', hwords, -⟩ := @words_cons_not_blank u.isSpace _ hequals rest
    rw [hwords, List.cons.injEq, List.cons.injEq] at h
    exact absurd h.1.1.symm hc
  · rfl

omit hu in
theorem words_rstrip (line : List Char) :
    words u.isSpace (rstrip u line) = words u.isSpace line :=
  words_rdropWhile line

/-- A line with a lone `v` is no header. -/
theorem readHeader_of_v {season : Season} {carried : Carried} {line : List Char}
    (h : ['v'] ∈ words u.isSpace line) : readHeader u season carried line = none := by
  have hv : u.isDecimal 'v' = false := not_decimal hu (by decide)
  have hmatchday : readMatchday u line = none := by
    unfold readMatchday
    split
    · rename_i mark name number hwords
      rw [if_neg]
      rintro ⟨rfl, rfl, hnumber⟩
      rw [hwords] at h
      simp only [List.mem_cons, List.not_mem_nil, or_false] at h
      rcases h with h | h | rfl
      · exact absurd h (by decide)
      · exact absurd h (by decide)
      · simp [hv] at hnumber
    · rfl
  have hread : ∀ weekday month day year, ['v'] ∈ weekday :: month :: day :: year.toList →
      readDate u weekday month day year = none := by
    intro weekday month day year hmem
    unfold readDate
    split_ifs with hshape
    · obtain ⟨hweekday, -, hday, hyear⟩ := hshape
      simp only [List.mem_cons, Option.mem_toList] at hmem
      rcases hmem with rfl | rfl | rfl | hmem
      · exact absurd hweekday (by decide)
      · have hmonth : getField (String.ofList ['v']) months = none := by decide
        rw [hmonth, Option.map_none]
      · simp [hv] at hday
      · exact absurd (hyear _ hmem).1 (by decide)
    · rfl
  have hdate : readDateLine u line = none := by
    unfold readDateLine
    split
    · rename_i weekday month day hwords
      exact hread _ _ _ _ (by rwa [hwords] at h)
    · rename_i weekday month day year hwords
      exact hread _ _ _ _ (by rwa [hwords] at h)
    · rfl
  simp [readHeader, hmatchday, hdate]

/-! ## The lines of a layout -/

omit hu in
/-- A lone `v` stands between spaces in the line of a fixture. -/
theorem exists_line_v (l : Listing u) :
    ∃ before behind, l.line = before ++ ' ' :: 'v' :: ' ' :: behind := by
  refine ⟨spaces (l.indent + 1) ++ (l.clockText ++ (l.home.text ++ spaces l.homeGap)),
    spaces l.awayGap ++ (l.away.text ++ l.resultText), ?_⟩
  have hsplit : spaces (l.homeGap + 1) = spaces l.homeGap ++ [' '] := List.replicate_succ'
  simp [Listing.line, Listing.content, hsplit, spaces_succ]

theorem readLine_listing (league : League) (season : Season) (carried : Carried) (number : Nat)
    (l : Listing u) :
    readLine u league season carried number (rstrip u l.line) =
      (readMatch u league carried number l.line).map fun (carried, row) => (carried, some row) := by
  obtain ⟨before, behind, hline⟩ := exists_line_v l
  have hv : ['v'] ∈ words u.isSpace l.line := by
    rw [hline, words_append_blank hu.blank]
    refine List.mem_append_right _ (v_mem_words (not_blank hu (by decide)) fun c hc => ?_)
    obtain rfl := Option.some.inj hc
    exact hu.blank
  have hseparator : holdsSeparator l.line = true :=
    decide_eq_true ⟨before, behind, by rw [hline]; simp⟩
  have hskip : isSkipped u l.line = false := by
    have hdrop : l.line.dropWhile u.isSpace = l.body :=
      dropWhile_spaces hu _ (trimmed_body hu l).1
    have hhead : l.body.head? ≠ some '#' := by
      intro hhead
      unfold Listing.body Listing.clockText at hhead
      cases hclock : l.clock with
      | none =>
          rw [hclock] at hhead
          exact l.home.noComment (head?_content l '#' hhead)
      | some clock =>
          rw [hclock] at hhead
          simp only [List.append_assoc] at hhead
          rw [List.head?_append_of_ne_nil _ (clock_chars clock).1] at hhead
          rcases (clock_chars clock).2 '#' (List.mem_of_mem_head? hhead) with hdecimal | heq
          · rw [not_decimal hu (by decide)] at hdecimal
            exact Bool.false_ne_true hdecimal
          · exact absurd heq (by decide)
    rw [isSkipped, hdrop]
    have hempty : l.line.isEmpty = false := by rw [hline]; simp
    simp [hempty, hhead]
  have htitle : readTitle u l.line = none := rfl
  rw [rstrip_line hu, readLine, if_neg (by simp [hskip]), htitle]
  simp only [readHeader_of_v hu hv, hseparator, if_true]
  cases readMatch u league carried number l.line <;> rfl

omit hu in
theorem readLine_blank (league : League) (season : Season) (carried : Carried) (number : Nat)
    {line : List Char} (h : words u.isSpace line = []) :
    readLine u league season carried number (rstrip u line) = .ok (carried, none) := by
  have hall : ∀ c ∈ line, u.isSpace c = true := by
    have hnone := @flatten_words u.isSpace line
    rw [h, List.flatten_nil] at hnone
    simpa using List.filter_eq_nil_iff.mp hnone.symm
  have hnil : rstrip u line = [] := List.rdropWhile_eq_nil_iff.mpr hall
  rw [hnil]
  rfl

omit hu in
theorem readLine_comment (league : League) (season : Season) (carried : Carried) (number : Nat)
    {line text : List Char} {rest : List (List Char)}
    (h : words u.isSpace line = ('#' :: text) :: rest) :
    readLine u league season carried number (rstrip u line) = .ok (carried, none) := by
  rw [← words_rstrip] at h
  rw [readLine, isSkipped_of_words h, if_pos (by decide)]
  rfl

/-- A line that starts neither as a title nor as a comment is read as its header says. -/
theorem readLine_header (league : League) {season : Season} {carried carried' : Carried}
    (number : Nat) {line w : List Char} {c : Char} {ws : List (List Char)}
    (h : words u.isSpace line = (c :: w) :: ws) (hc : c ≠ '#' ∧ c ≠ '=')
    (hheader : readHeader u season carried (rstrip u line) = some (.ok carried')) :
    readLine u league season carried number (rstrip u line) = .ok (carried', none) := by
  rw [← words_rstrip] at h
  rw [readLine, isSkipped_of_words h, if_neg (by simpa using hc.1), readTitle_of_words hu h hc.2]
  simp only [hheader]
  rfl

theorem readHeader_matchday {season : Season} {carried : Carried} {line : List Char} {number : Nat}
    (h : words u.isSpace line = [['▪'], "Matchday".toList, natText number]) :
    readHeader u season carried (rstrip u line) =
      some (.ok { carried with date := none, clock := none, matchday := some number }) := by
  have hread : readMatchday u (rstrip u line) = some number := by
    have hdigits : (natText number).all u.isDecimal = true :=
      List.all_eq_true.mpr (decimal_natText hu number)
    rw [readMatchday, words_rstrip, h]
    simp only [hdigits, and_self, if_true, intOfDigits_natText hu]
  rw [readHeader, hread]
  rfl

/-! ## Date headers -/

omit hu in
/-- A date is put together again from its month and its day. -/
theorem dateOf_civilOfDays {season : Season} {date : Int} (hdate : season.Holds date)
    {year : Option Nat} (hyear : ∀ y ∈ year, y = (civilOfDays date).year.toNat) :
    dateOf season (civilOfDays date).month.toNat (civilOfDays date).day.toNat year = .ok date := by
  obtain ⟨hwritable, hseason⟩ := hdate
  obtain ⟨hy₀, -⟩ := year_of_writable hwritable
  obtain ⟨hm₀, -, hd₀, -⟩ := civilOfDays_bounds date
  have hprinted : ((year.getD (season.yearOf (civilOfDays date).month.toNat) : Nat) : Int) =
      (civilOfDays date).year := by
    cases year with
    | none => exact hseason.symm
    | some y => rw [Option.getD_some, hyear y rfl, Int.toNat_of_nonneg hy₀]
  have hcivil : (⟨(year.getD (season.yearOf (civilOfDays date).month.toNat) : Nat),
      ((civilOfDays date).month.toNat : Nat), ((civilOfDays date).day.toNat : Nat)⟩ : CivilDate) =
        civilOfDays date := by
    rw [hprinted, Int.toNat_of_nonneg (by omega), Int.toNat_of_nonneg (by omega)]
  rw [dateOf]
  simp only [hcivil, daysOfCivil_civilOfDays, hwritable, and_self, if_true]
  rfl

omit hu in
/-- A printed month is looked up again. -/
theorem getField_monthText (date : Int) :
    getField (String.ofList (monthText (civilOfDays date).month)) months =
      some (civilOfDays date).month.toNat := by
  have hall : ∀ m < 13, 1 ≤ m →
      getField (String.ofList (monthText (m : Nat))) months = some m := by decide
  obtain ⟨hm₀, hm₁, -, -⟩ := civilOfDays_bounds date
  have hmonth := hall (civilOfDays date).month.toNat (by omega) (by omega)
  rwa [Int.toNat_of_nonneg (by omega)] at hmonth

theorem readDate_dayWords {weekday : String} (hweekday : weekday ∈ weekdays) (date : Int)
    {year : Option (List Char)} (hyear : ∀ y ∈ year, y.length = 4 ∧ y.all u.isDecimal = true) :
    readDate u weekday.toList (monthText (civilOfDays date).month)
        (natText (civilOfDays date).day.toNat) year =
      some ((civilOfDays date).month.toNat, (civilOfDays date).day.toNat,
        year.map (WorldCup.intOfDigits u)) := by
  have hlength : ∀ d < 32, (natText d).length = 1 ∨ (natText d).length = 2 := by decide
  obtain ⟨-, -, -, hd₁⟩ := civilOfDays_bounds date
  have hday := hlength (civilOfDays date).day.toNat (by omega)
  have hdigits := List.all_eq_true.mpr (decimal_natText hu (civilOfDays date).day.toNat)
  rw [readDate, if_pos ⟨by rwa [String.ofList_toList], hday, hdigits, hyear⟩, getField_monthText,
    Option.map_some, intOfDigits_natText hu]

theorem readHeader_day {season : Season} {carried : Carried} {line : List Char} {weekday : String}
    {date : Int} (hweekday : weekday ∈ weekdays) (hdate : season.Holds date)
    (h : IsDayLine u weekday date line) :
    readHeader u season carried (rstrip u line) =
      some (.ok { carried with date := some date, clock := none }) := by
  have hmark : weekday.toList ≠ ['▪'] := by
    have hall : ∀ w ∈ weekdays, w.toList ≠ ['▪'] := by decide
    exact hall weekday hweekday
  obtain ⟨hy₀, hy₁⟩ := year_of_writable hdate.1
  rw [IsDayLine, ← words_rstrip] at h
  rcases h with h | h
  · have hmatchday : readMatchday u (rstrip u line) = none := by
      rw [readMatchday, h]
      simp [dayWords, hmark]
    have hread : readDateLine u (rstrip u line) = some ((civilOfDays date).month.toNat,
        (civilOfDays date).day.toNat, none) := by
      rw [readDateLine, h]
      exact readDate_dayWords hu hweekday date (by simp)
    rw [readHeader, hmatchday, hread]
    have hday : dateOf season (civilOfDays date).month.toNat (civilOfDays date).day.toNat none =
        .ok date := dateOf_civilOfDays hdate (by simp)
    simp only [Option.map_some, hday]
    rfl
  · have hyear : WorldCup.intOfDigits u (fixedDigits 4 (civilOfDays date).year.toNat) =
        (civilOfDays date).year.toNat := intOfDigits_fixedDigits hu (by omega)
    have hmatchday : readMatchday u (rstrip u line) = none := by
      rw [readMatchday, h]
      rfl
    have hread : readDateLine u (rstrip u line) = some ((civilOfDays date).month.toNat,
        (civilOfDays date).day.toNat, some (civilOfDays date).year.toNat) := by
      rw [readDateLine, h]
      refine (readDate_dayWords hu hweekday date ?_).trans (by rw [Option.map_some, hyear])
      intro y hy
      obtain rfl := Option.some.inj hy
      exact ⟨by simp, List.all_eq_true.mpr (decimal_fixedDigits hu 4 _)⟩
    rw [readHeader, hmatchday, hread]
    have hday : dateOf season (civilOfDays date).month.toNat (civilOfDays date).day.toNat
        (some (civilOfDays date).year.toNat) = .ok date := dateOf_civilOfDays hdate (by simp)
    simp only [Option.map_some, hday]
    rfl

end Golavo.Ingest.DomesticTxt
