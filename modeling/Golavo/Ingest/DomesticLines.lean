import Golavo.Ingest.DomesticResults

/-! # Printed match lines

What the parser reads of a line that prints a fixture: its clock, its two sides and its result, as long
as a note stands behind a score. A note without one becomes part of the away side. -/

namespace Golavo.Ingest.DomesticTxt

open Golavo.Lib (words Trimmed words_append_blank words_cons_blank words_dropWhile bind_ok_iff)
open Golavo.Lib.Scan (IsShortest span_append shortest_eq_some_iff)
open Golavo.Lib.Json (natText)

variable {u : Unicode} (hu : Usual u)
include hu

/-! ## The ends of a line -/

omit hu in
theorem getLast?_append_plain {s t : List Char} (hs : ∀ c ∈ s.getLast?, u.isSpace c = false)
    (ht : ∀ c ∈ t.getLast?, u.isSpace c = false) :
    ∀ c ∈ (s ++ t).getLast?, u.isSpace c = false := by
  cases t with
  | nil => rwa [List.append_nil]
  | cons c t => rwa [List.getLast?_append_of_ne_nil _ (List.cons_ne_nil _ _)]

omit hu in
theorem getLast?_append_ne_nil {s t : List Char} (hne : t ≠ [])
    (ht : ∀ c ∈ t.getLast?, u.isSpace c = false) :
    ∀ c ∈ (s ++ t).getLast?, u.isSpace c = false := by
  rwa [List.getLast?_append_of_ne_nil _ hne]

theorem getLast?_closed {s : List Char} {d : Char}
    (hd : d.toNat < 128 ∧ Unicode.ascii.isSpace d = false) :
    ∀ c ∈ (s ++ [d]).getLast?, u.isSpace c = false := by
  intro c hc
  rw [List.getLast?_concat, Option.mem_some_iff] at hc
  rw [← hc]
  exact not_blank hu hd

theorem getLast?_noteText (l : Listing u) : ∀ c ∈ l.noteText.getLast?, u.isSpace c = false := by
  unfold Listing.noteText
  cases l.note with
  | none => simp
  | some note =>
      have hsplit : spaces (l.noteGap + 1) ++ '[' :: (note.text ++ [']']) =
          (spaces (l.noteGap + 1) ++ '[' :: note.text) ++ [']'] := by simp
      simp only [hsplit]
      exact getLast?_closed hu (by decide)

theorem getLast?_halfText (l : Listing u) (half : Option (Nat × Nat)) :
    ∀ c ∈ (l.halfText half).getLast?, u.isSpace c = false := by
  unfold Listing.halfText
  cases half with
  | none => simp
  | some half =>
      have hsplit : spaces (l.halfGap + 1) ++ '(' :: (pairText half ++ [')']) =
          (spaces (l.halfGap + 1) ++ '(' :: pairText half) ++ [')'] := by simp
      simp only [hsplit]
      exact getLast?_closed hu (by decide)

omit hu in
theorem pairText_ne_nil (pair : Nat × Nat) : pairText pair ≠ [] := by simp [pairText]

theorem getLast?_pairText (pair : Nat × Nat) :
    ∀ c ∈ (pairText pair).getLast?, u.isSpace c = false := by
  have hsplit : pairText pair = (natText pair.1 ++ ['-']) ++ natText pair.2 := by simp [pairText]
  rw [hsplit]
  refine getLast?_append_ne_nil (natText_ne_nil _) fun c hc => ?_
  exact hu.not_space c (decimal_natText hu _ c (List.mem_of_getLast? hc))

theorem head?_pairText (pair : Nat × Nat) (rest : List Char) :
    ∀ c ∈ (pairText pair ++ rest).head?, u.isDecimal c = true := by
  intro c hc
  rw [List.head?_append_of_ne_nil _ (pairText_ne_nil pair), pairText,
    List.head?_append_of_ne_nil _ (natText_ne_nil _)] at hc
  exact decimal_natText hu _ c (List.mem_of_mem_head? hc)

/-- What a score prints, with what stands behind it. -/
def Listing.scoreText (l : Listing u) (score : Score) : List Char :=
  pairText (score.home, score.away) ++ (l.halfText score.half ++ l.noteText)

theorem trimmed_scoreText (l : Listing u) (score : Score) :
    Trimmed u.isSpace (l.scoreText score) := by
  refine ⟨fun c hc => hu.not_space c (head?_pairText hu _ _ c hc), ?_⟩
  exact getLast?_append_plain (getLast?_pairText hu _)
    (getLast?_append_plain (getLast?_halfText hu l _) (getLast?_noteText hu l))

theorem getLast?_resultText (l : Listing u) : ∀ c ∈ l.resultText.getLast?, u.isSpace c = false := by
  unfold Listing.resultText
  cases l.score with
  | none => exact getLast?_noteText hu l
  | some score =>
      refine getLast?_append_ne_nil ?_ (trimmed_scoreText hu l score).2
      simp [pairText]

/-- The line of a fixture without its indent. -/
def Listing.body (l : Listing u) : List Char := l.clockText ++ l.content

omit hu in
theorem head?_content (l : Listing u) : ∀ c ∈ l.content.head?, c ∈ l.home.text.head? := by
  intro c hc
  rwa [Listing.content, List.head?_append_of_ne_nil _ l.home.ne_nil] at hc

omit hu in
theorem content_ne_nil (l : Listing u) : l.content ≠ [] := by
  simp [Listing.content, l.home.ne_nil]

theorem getLast?_content (l : Listing u) : ∀ c ∈ l.content.getLast?, u.isSpace c = false := by
  have hsides : ∀ c ∈ (l.away.text ++ l.resultText).getLast?, u.isSpace c = false :=
    getLast?_append_plain l.away.trimmed.2 (getLast?_resultText hu l)
  have hne : l.away.text ++ l.resultText ≠ [] := by simp [l.away.ne_nil]
  have hsplit : l.content = (l.home.text ++ (spaces (l.homeGap + 1) ++ 'v' ::
      spaces (l.awayGap + 1))) ++ (l.away.text ++ l.resultText) := by simp [Listing.content]
  rw [hsplit]
  exact getLast?_append_ne_nil hne hsides

omit hu in
/-- The characters of a clock are digits and a colon. -/
theorem clock_chars (clock : Clock u) :
    clock.text ≠ [] ∧ ∀ c ∈ clock.text, u.isDecimal c = true ∨ c = ':' := by
  obtain ⟨text, h⟩ := clock
  simp only
  unfold isClock at h
  split at h
  · simp only [Bool.and_eq_true, beq_iff_eq] at h
    obtain ⟨⟨⟨ha, rfl⟩, hc⟩, hd⟩ := h
    exact ⟨by simp, by simp [ha, hc, hd]⟩
  · simp only [List.all_cons, List.all_nil, Bool.and_true, Bool.and_eq_true, beq_iff_eq] at h
    obtain ⟨⟨ha, hb, hc, hd⟩, rfl⟩ := h
    exact ⟨by simp, by simp [ha, hb, hc, hd]⟩
  · exact absurd h (by decide)

theorem clock_plain (clock : Clock u) : ∀ c ∈ clock.text, u.isSpace c = false := by
  intro c hc
  rcases (clock_chars clock).2 c hc with hdecimal | rfl
  · exact hu.not_space c hdecimal
  · exact not_blank hu (by decide)

/-- **A line without its indent is trimmed.** -/
theorem trimmed_body (l : Listing u) : Trimmed u.isSpace l.body := by
  refine ⟨?_, getLast?_append_ne_nil (content_ne_nil l) (getLast?_content hu l)⟩
  intro c hc
  unfold Listing.body Listing.clockText at hc
  cases hclock : l.clock with
  | none =>
      rw [hclock] at hc
      exact l.home.trimmed.1 c (head?_content l c hc)
  | some clock =>
      rw [hclock] at hc
      simp only [List.append_assoc] at hc
      rw [List.head?_append_of_ne_nil _ (clock_chars clock).1] at hc
      exact clock_plain hu clock c (List.mem_of_mem_head? hc)

theorem strip_line (l : Listing u) : u.strip l.line = l.body := by
  have hstrip : u.strip l.line = (l.line.dropWhile u.isSpace).rdropWhile u.isSpace := rfl
  have hbody := trimmed_body hu l
  have hdrop : l.line.dropWhile u.isSpace = l.body := dropWhile_spaces hu _ hbody.1
  rw [hstrip, hdrop, List.rdropWhile_eq_self_iff]
  intro hne
  simp [hbody.2 _ (List.getLast?_eq_some_getLast hne)]

theorem rstrip_line (l : Listing u) : rstrip u l.line = l.line := by
  have hne : l.body ≠ [] := by simp [Listing.body, content_ne_nil]
  have hlast : ∀ c ∈ l.line.getLast?, u.isSpace c = false :=
    getLast?_append_ne_nil hne (trimmed_body hu l).2
  rw [rstrip, List.rdropWhile_eq_self_iff]
  intro hne
  simp [hlast _ (List.getLast?_eq_some_getLast hne)]

/-! ## The clock -/

theorem readClock_body (l : Listing u) :
    readClock u l.body = l.clock.map fun clock => (clock.text, l.content) := by
  have hhead : ∀ c ∈ l.content.head?, u.isSpace c = false := fun c hc =>
    l.home.trimmed.1 c (head?_content l c hc)
  unfold Listing.body Listing.clockText
  cases hclock : l.clock with
  | none =>
      -- the first word of the home side is no clock
      simp only [List.nil_append, Option.map_none]
      have htake : (l.content.takeWhile fun c => !u.isSpace c) =
          l.home.text.takeWhile fun c => !u.isSpace c := by
        rw [Listing.content, List.takeWhile_append]
        split_ifs with hall
        · have hspace : spaces (l.homeGap + 1) = ' ' :: spaces l.homeGap := rfl
          rw [hspace, List.cons_append, List.takeWhile_cons_of_neg (by simp [hu.blank]),
            List.append_nil]
          exact ((List.takeWhile_prefix _).eq_of_length hall).symm
        · rfl
      rw [readClock]
      simp only [htake, l.home.noClock, Bool.false_eq_true, false_and, if_false]
  | some clock =>
      have hblank : ∀ c ∈ (spaces (l.clockGap + 1) ++ l.content).head?,
          (!u.isSpace c) = false := by
        intro c hc
        have hspace : spaces (l.clockGap + 1) = ' ' :: spaces l.clockGap := rfl
        rw [hspace, List.cons_append, List.head?_cons, Option.mem_some_iff] at hc
        rw [← hc, hu.blank]
        rfl
      have hplain : ∀ c ∈ clock.text, (!u.isSpace c) = true := fun c hc => by
        rw [clock_plain hu clock c hc]
        rfl
      obtain ⟨htake, hdrop⟩ := span_append hplain hblank
      simp only [List.append_assoc, Option.map_some]
      rw [readClock]
      simp only [htake, hdrop, dropWhile_spaces hu _ hhead, clock.isClock, content_ne_nil, ne_eq,
        not_false_eq_true, and_self, if_true]

theorem contentOf_line (l : Listing u) (clock : Option (Clock u)) :
    contentOf u (clock.map (·.text)) l.line = ((l.clock.or clock).map (·.text), l.content) := by
  rw [contentOf, strip_line hu, readClock_body hu]
  cases hclock : l.clock with
  | none => simp [Listing.body, Listing.clockText, hclock]
  | some c => simp

theorem matchText_line (l : Listing u) : matchText u l.line = l.content := by
  have h := contentOf_line hu l none
  rw [Option.map_none] at h
  rw [matchText, h]

/-! ## The sides -/

omit hu in
theorem spaces_succ (n : Nat) (s : List Char) : spaces (n + 1) ++ s = ' ' :: (spaces n ++ s) := rfl

omit hu in
/-- A lone `v` is a word. -/
theorem v_mem_words {s : List Char} (hv : u.isSpace 'v' = false)
    (hs : ∀ c ∈ s.head?, u.isSpace c = true) : ['v'] ∈ words u.isSpace ('v' :: s) := by
  have hword : words u.isSpace ['v'] = [['v']] :=
    Lib.words_of_isWord ⟨by simp, fun c hc => by rwa [List.mem_singleton.mp hc]⟩
  cases s with
  | nil => simp [hword]
  | cons c s =>
      have hsplit : 'v' :: c :: s = ['v'] ++ c :: s := rfl
      rw [hsplit, words_append_blank (hs c rfl), hword]
      exact List.mem_append_left _ List.mem_cons_self

/-- What follows the home side of a line. -/
def Listing.behindHome (l : Listing u) : List Char :=
  spaces (l.homeGap + 1) ++ 'v' :: (spaces (l.awayGap + 1) ++ (l.away.text ++ l.resultText))

omit hu in
theorem head?_away (l : Listing u) :
    ∀ c ∈ (l.away.text ++ l.resultText).head?, u.isSpace c = false := by
  intro c hc
  rw [List.head?_append_of_ne_nil _ l.away.ne_nil] at hc
  exact l.away.trimmed.1 c hc

theorem head?_v (s : List Char) : ∀ c ∈ ('v' :: s).head?, u.isSpace c = false := by
  intro c hc
  obtain rfl := Option.some.inj hc
  exact not_blank hu (by decide)

/-- Behind the home side stands a separator, and behind that the away side. -/
theorem behindSeparator_behindHome (l : Listing u) :
    separates u l.behindHome = true ∧
      behindSeparator u l.behindHome = l.away.text ++ l.resultText := by
  have hdrop : l.behindHome.dropWhile u.isSpace =
      'v' :: (spaces (l.awayGap + 1) ++ (l.away.text ++ l.resultText)) :=
    dropWhile_spaces hu _ (head?_v hu _)
  constructor
  · have hhead : l.behindHome.head? = some ' ' := by rw [Listing.behindHome, spaces_succ]; rfl
    rw [separates, hdrop, spaces_succ]
    simp [hhead, hu.blank]
  · rw [behindSeparator, hdrop, List.drop_one, List.tail_cons,
      dropWhile_spaces hu _ (head?_away l)]

omit hu in
/-- A name's end has a character that is no blank. -/
theorem dropWhile_end {name : Name u} {before after : List Char}
    (h : before ++ after = name.text) (hne : after ≠ []) : after.dropWhile u.isSpace ≠ [] := by
  intro hnil
  have hall := List.dropWhile_eq_nil_iff.mp hnil
  have hlast := List.getLast?_eq_some_getLast hne
  have hplain := name.trimmed.2 (after.getLast hne) (by
    rw [← h, List.getLast?_append_of_ne_nil _ hne, hlast]
    rfl)
  rw [hall _ (List.getLast_mem hne)] at hplain
  exact absurd hplain (by decide)

/-- **The home side is the first part** that a separator follows. -/
theorem isShortest_home (l : Listing u) :
    IsShortest (separates u) l.content l.home.text l.behindHome where
  append := rfl
  ne_nil := l.home.ne_nil
  accepted := (behindSeparator_behindHome hu l).1
  first := by
    intro before after hsplit _ hafter
    by_contra hsep
    rw [Bool.not_eq_false] at hsep
    have hne := dropWhile_end hsplit hafter
    have hv : u.isSpace 'v' = false := not_blank hu (by decide)
    -- the separator starts in the name, so a lone `v` stands in it
    refine l.home.noSeparator ?_
    obtain ⟨b, after, rfl⟩ := List.exists_cons_of_ne_nil hafter
    unfold separates at hsep
    rw [List.dropWhile_append, if_neg (by simpa using hne)] at hsep
    split at hsep
    · rename_i c rest hdrop
      simp only [List.cons_append, List.head?_cons, Option.any_some, Bool.and_eq_true] at hsep
      obtain ⟨hb, hc⟩ := hsep
      rw [← hsplit, words_append_blank hb, List.mem_append]
      refine .inr ?_
      rw [List.dropWhile_cons_of_pos hb] at hne hdrop
      rw [← words_dropWhile]
      cases hname : after.dropWhile u.isSpace with
      | nil => exact absurd hname hne
      | cons d name =>
          rw [hname, List.cons_append, List.cons.injEq] at hdrop
          obtain ⟨rfl, htail⟩ := hdrop
          refine v_mem_words hv fun e he => ?_
          rw [Option.mem_def] at he
          cases name with
          | nil => cases he
          | cons f name =>
              rw [List.cons_append, List.cons.injEq] at htail
              rw [List.head?_cons, Option.some.injEq] at he
              rwa [← he, htail.1]
    · exact absurd hsep (by decide)

omit hu in
/-- In a name no result opens. -/
theorem not_endsAway {name : Name u} {before after : List Char} (h : before ++ after = name.text)
    (hne : after ≠ []) (rest : List Char) : endsAway u (after ++ rest) = false := by
  have hplain := dropWhile_end h hne
  obtain ⟨c, after, rfl⟩ := List.exists_cons_of_ne_nil hne
  have htake : ((c :: after ++ rest).takeWhile u.isSpace).length ≤ 1 := by
    by_cases hc : u.isSpace c = true
    · cases after with
      | nil => simp [hc] at hplain
      | cons d after =>
          have hd := name.single c d ⟨before, after, by simpa using h⟩ hc
          rw [List.cons_append, List.takeWhile_cons_of_pos hc, List.cons_append,
            List.takeWhile_cons_of_neg (by simp [hd])]
          exact le_rfl
    · rw [List.cons_append, List.takeWhile_cons_of_neg hc]
      exact Nat.zero_le 1
  simp only [endsAway, List.cons_append, List.isEmpty_cons, Bool.false_or, Bool.and_eq_false_iff,
    decide_eq_false_iff_not]
  left
  rw [List.cons_append] at htake
  omega

/-- **The away side is the first part** that the result or the end of the line follows, when a note
stands behind a score only. -/
theorem isShortest_away (l : Listing u) (h : l.note.isSome = true → l.score.isSome = true) :
    IsShortest (endsAway u) (l.away.text ++ l.resultText) l.away.text l.resultText where
  append := rfl
  ne_nil := l.away.ne_nil
  accepted := by
    unfold Listing.resultText
    cases hscore : l.score with
    | none =>
        have hnote : l.note = none := by
          rw [hscore] at h
          exact Option.not_isSome_iff_eq_none.mp fun hsome => absurd (h hsome) (by decide)
        simp [Listing.noteText, hnote, endsAway]
    | some score =>
        have hdigit := head?_pairText hu (score.home, score.away)
          (l.halfText score.half ++ l.noteText)
        have hblank : ∀ c ∈ (l.scoreText score).head?, u.isSpace c = false :=
          (trimmed_scoreText hu l score).1
        obtain ⟨htake, hdrop⟩ := span_append (blank_spaces hu (l.scoreGap + 2)) hblank
        rw [Listing.scoreText] at htake hdrop
        simp only [endsAway, htake, hdrop]
        rw [Bool.or_eq_true, Bool.and_eq_true, decide_eq_true_eq]
        refine .inr ⟨by simp [spaces], ?_⟩
        cases hhead : (pairText (score.home, score.away) ++
            (l.halfText score.half ++ l.noteText)).head? with
        | none => simp [pairText] at hhead
        | some c => exact hdigit c (by rw [hhead]; rfl)
  first := fun before after hsplit _ hafter => not_endsAway hsplit hafter _

/-! ## The row -/

omit hu in
/-- A text that starts with a score is annotated. -/
theorem annotated_of_scoreAt {s : List Char} (h : (scoreAt u s).isSome = true) :
    Annotated u s := by
  unfold scoreAt at h
  split at h
  · rename_i rest hdrop
    simp only [Option.isSome_ite] at h
    obtain ⟨hhome, haway⟩ := h
    have hx := List.mem_takeWhile_imp (List.getLast_mem hhome)
    obtain ⟨y, away, hrest⟩ := List.exists_cons_of_ne_nil haway
    have hy : u.isDecimal y = true :=
      List.mem_takeWhile_imp (l := rest) (by rw [hrest]; exact List.mem_cons_self)
    have hbefore := List.dropLast_append_getLast hhome
    have hbehind := List.takeWhile_append_dropWhile (p := u.isDecimal) (l := rest)
    have hsplit := List.takeWhile_append_dropWhile (p := u.isDecimal) (l := s)
    rw [hrest] at hbehind
    rw [hdrop] at hsplit
    refine ⟨_, .inl ⟨_, y, hx, hy, rfl⟩, (s.takeWhile u.isDecimal).dropLast,
      away ++ rest.dropWhile u.isDecimal, Eq.trans ?_ hsplit⟩
    conv_rhs => rw [← hbefore, ← hbehind]
    simp
  · simp at h

theorem readSides_content (l : Listing u) (h : l.note.isSome = true → l.score.isSome = true) :
    readSides u l.content =
      some (l.home.text, l.away.text, l.resultText.dropWhile u.isSpace) := by
  refine readSides_eq_some_iff.mpr ⟨l.behindHome, l.resultText, isShortest_home hu l, ?_, rfl⟩
  rw [(behindSeparator_behindHome hu l).2]
  exact isShortest_away hu l h

/-- The result of a line. -/
def Listing.result (l : Listing u) : List Char := (l.score.map l.scoreText).getD []

theorem strip_resultText (l : Listing u) (h : l.note.isSome = true → l.score.isSome = true) :
    u.strip (l.resultText.dropWhile u.isSpace) = l.result := by
  unfold Listing.resultText Listing.result
  cases hscore : l.score with
  | none =>
      have hnote : l.note = none := by
        rw [hscore] at h
        exact Option.not_isSome_iff_eq_none.mp fun hsome => absurd (h hsome) (by decide)
      simp [Listing.noteText, hnote, Unicode.strip]
  | some score =>
      have htrimmed := trimmed_scoreText hu l score
      have hdrop := dropWhile_spaces hu (l.scoreGap + 2) htrimmed.1
      rw [Listing.scoreText] at hdrop htrimmed
      simp only [hdrop]
      exact htrimmed.trim_eq

theorem matchSides_content (l : Listing u) (h : l.note.isSome = true → l.score.isSome = true)
    (number : Nat) :
    matchSides u number l.content = .ok (l.home.text, l.away.text, l.result) := by
  have hname : ∀ name : Name u, u.strip name.text = name.text ∧ name.text ≠ [] ∧
      (scoreAt u name.text).isSome = false := fun name =>
    ⟨name.trimmed.trim_eq, name.ne_nil,
      Bool.eq_false_iff.mpr fun hsome => name.noAnnotation (annotated_of_scoreAt hsome)⟩
  rw [matchSides, readSides_content hu l h]
  simp only [(hname l.home).1, (hname l.home).2, (hname l.away).1, (hname l.away).2,
    strip_resultText hu l h, Bool.false_eq_true, or_self, if_false]
  rfl

theorem scoreAt_result (l : Listing u) :
    scoreAt u l.result = l.score.map fun s => (s.home, s.away) := by
  unfold Listing.result
  cases l.score with
  | none => rfl
  | some score =>
      refine scoreAt_pairText hu _ fun c hc => ?_
      have hblank : u.isDecimal ' ' = false := not_decimal hu (by decide)
      unfold Listing.halfText Listing.noteText at hc
      cases hhalf : score.half with
      | some half =>
          rw [hhalf] at hc
          simp only [spaces_succ, List.cons_append, List.head?_cons, Option.mem_some_iff] at hc
          rwa [← hc]
      | none =>
          rw [hhalf] at hc
          cases hnote : l.note with
          | none => simp [hnote] at hc
          | some note =>
              rw [hnote] at hc
              simp only [spaces_succ, List.nil_append, List.head?_cons, Option.mem_some_iff] at hc
              rwa [← hc]

theorem halfTime_result' (l : Listing u) :
    halfTime u l.result (l.score.map fun s => (s.home, s.away)) =
      .ok (l.score.bind (·.half)) := by
  unfold Listing.result
  cases l.score with
  | none => rfl
  | some score => exact halfTime_result hu l score

/-- What the parser carries below what stands over a line. -/
def Standing.carried (standing : Standing u) : Carried where
  date := standing.date
  clock := standing.clock.map (·.text)
  matchday := standing.matchday
  titleSeen := true

/-- **A printed line is read back** when its note stands behind a score. -/
theorem readMatch_line (league : League) (number : Nat) {standing : Standing u} {date : Int}
    (hdate : standing.date = some date) (l : Listing u)
    (h : l.note.isSome = true → l.score.isSome = true) :
    readMatch u league standing.carried number l.line =
      .ok (({ standing with clock := l.clock.or standing.clock } : Standing u).carried,
        (l.fixture date (l.clock.or standing.clock) standing.matchday).row league) := by
  have hsome : standing.carried.date = some date := hdate
  have hcontent : contentOf u standing.carried.clock l.line =
      ((l.clock.or standing.clock).map (·.text), l.content) := contentOf_line hu l standing.clock
  simp only [readMatch, hsome, Lib.orFail, hcontent, matchSides_content hu l h, scoreAt_result hu,
    halfTime_result' hu, bind, Except.bind, pure, Except.pure]
  rw [Standing.carried, Standing.carried, ← hdate]
  rfl

/-! ## A note without a score -/

/-- **A note without a score** becomes part of the away side. -/
theorem exists_away_of_note {l : Listing u} {note : Note} (hnote : l.note = some note)
    (hscore : l.score = none) {away rest : List Char}
    (h : IsShortest (endsAway u) (l.away.text ++ l.resultText) away rest) :
    ∃ more, away = l.away.text ++ (spaces (l.noteGap + 1) ++ '[' :: more) := by
  have hresult : l.resultText = spaces (l.noteGap + 1) ++ '[' :: (note.text ++ [']']) := by
    simp [Listing.resultText, Listing.noteText, hscore, hnote]
  have hsplit : away ++ rest =
      (l.away.text ++ spaces (l.noteGap + 1)) ++ '[' :: (note.text ++ [']']) := by
    rw [h.append, hresult, List.append_assoc]
  have hblanks : ∀ middle : List Char, (∀ c ∈ middle, u.isSpace c = true) →
      endsAway u (middle ++ '[' :: (note.text ++ [']'])) = false := by
    intro middle hmiddle
    have hopen : ∀ c ∈ ('[' :: (note.text ++ [']'])).head?, u.isSpace c = false := by
      intro c hc
      obtain rfl := Option.some.inj hc
      exact not_blank hu (by decide)
    have hdigit : u.isDecimal '[' = false := not_decimal hu (by decide)
    rw [endsAway, (span_append hmiddle hopen).2]
    simp [hdigit]
  rcases List.append_eq_append_iff.mp hsplit with ⟨middle, hfront, hrest⟩ | ⟨middle, haway, hrest⟩
  · -- the side would end in the name or in the blanks behind it
    refine absurd h.accepted (Bool.eq_false_iff.mp ?_)
    rw [hrest]
    rcases List.append_eq_append_iff.mp hfront with ⟨gap, -, hgap⟩ | ⟨name, hname, hmiddle⟩
    · refine hblanks middle fun c hc => blank_spaces hu (l.noteGap + 1) c ?_
      rw [hgap]
      exact List.mem_append_right _ hc
    · by_cases hnil : name = []
      · rw [hmiddle, hnil]
        exact hblanks _ (blank_spaces hu _)
      · rw [hmiddle, List.append_assoc]
        exact not_endsAway hname.symm hnil _
  · cases middle with
    | nil =>
        rw [List.nil_append] at hrest
        have hrejected := hblanks [] (by simp)
        rw [List.nil_append, hrest, h.accepted] at hrejected
        exact absurd hrejected (by decide)
    | cons c more =>
        rw [List.cons_append, List.cons.injEq] at hrest
        exact ⟨more, by rw [haway, List.append_assoc, hrest.1]⟩

/-- **A line with a note and no score** gives its fixture no row. -/
theorem readMatch_note (league : League) {l : Listing u} (hnote : l.note.isSome = true)
    (hscore : l.score.isSome = false) {carried carried' : Carried} {number : Nat} {row : MatchRow}
    (h : readMatch u league carried number l.line = .ok (carried', row)) :
    row.awayTeam ≠ canonicalName u league.code l.away.text := by
  obtain ⟨note, hnote⟩ := Option.isSome_iff_exists.mp hnote
  rw [Option.isSome_eq_false_iff, Option.isNone_iff_eq_none] at hscore
  obtain ⟨home, away, result, hsides, -, haway⟩ := readMatch_ok h
  rw [matchText_line hu] at hsides
  obtain ⟨rest, rest', hfirst, hsecond, -⟩ := readSides_eq_some_iff.mp hsides
  have hsame := (shortest_eq_some_iff.mpr hfirst).symm.trans
    (shortest_eq_some_iff.mpr (isShortest_home hu l))
  obtain ⟨-, rfl⟩ := Prod.mk.inj (Option.some.inj hsame)
  rw [(behindSeparator_behindHome hu l).2] at hsecond
  obtain ⟨more, rfl⟩ := exists_away_of_note hu hnote hscore hsecond
  -- the canonical names keep their brackets, and the away side has one more
  intro heq
  have hbrackets : brackets (l.away.text ++ (spaces (l.noteGap + 1) ++ '[' :: more)) =
      brackets l.away.text := by
    rw [← hu.brackets_marks, ← marks_strip, ← hu.marks_canonicalName league.code, ← haway, heq,
      hu.marks_canonicalName, hu.brackets_marks]
  have hlength := congrArg List.length hbrackets
  simp [brackets] at hlength

end Golavo.Ingest.DomesticTxt
