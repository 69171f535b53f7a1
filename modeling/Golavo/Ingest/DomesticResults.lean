import Golavo.Ingest.DomesticLayout

/-! # Printed results

A score, a half-time score and a note are read back from how a layout prints them. -/

namespace Golavo.Ingest.DomesticTxt

open Golavo.Lib.Json (natText fixedDigits digitChar digitList digitList_lt natOfDigits digitCount
  natOfDigits_digitCount natOfDigits_digitList digitList_ne_nil digitCount_pos)
open Golavo.Lib.Scan (span_append)
open Golavo.Ingest.WorldCup (intOfDigits)

variable {u : Unicode} (hu : Usual u)
include hu

/-! ## Digits -/

theorem not_decimal {c : Char} (h : c.toNat < 128 ∧ c.isDigit = false) : u.isDecimal c = false :=
  (hu.decimal c h.1).trans h.2

theorem not_blank {c : Char} (h : c.toNat < 128 ∧ Unicode.ascii.isSpace c = false) :
    u.isSpace c = false :=
  (hu.space c h.1).trans h.2

theorem decimal_digitChar {d : Nat} (h : d < 10) :
    u.isDecimal (digitChar d) = true ∧ u.digitValue (digitChar d) = d := by
  have hall : ∀ d < 10, (digitChar d).toNat < 128 ∧ (digitChar d).isDigit = true ∧
      (digitChar d).toNat - 48 = d := by decide
  obtain ⟨hascii, hdigit, hvalue⟩ := hall d h
  exact ⟨(hu.decimal _ hascii).trans hdigit, (hu.value _ hdigit).trans hvalue⟩

theorem decimal_fixedDigits (k n : Nat) : ∀ c ∈ fixedDigits k n, u.isDecimal c = true := by
  intro c hc
  obtain ⟨d, hd, rfl⟩ := List.mem_map.mp hc
  exact (decimal_digitChar hu (digitList_lt k n d hd)).1

theorem decimal_natText (n : Nat) : ∀ c ∈ natText n, u.isDecimal c = true :=
  decimal_fixedDigits hu _ n

omit hu in
theorem natText_ne_nil (n : Nat) : natText n ≠ [] := by
  intro hnil
  exact digitList_ne_nil (digitCount_pos n) n (List.map_eq_nil_iff.mp hnil)

theorem intOfDigits_map {ds : List Nat} (h : ∀ d ∈ ds, d < 10) :
    intOfDigits u (ds.map digitChar) = natOfDigits 0 ds := by
  rw [intOfDigits, natOfDigits, List.foldl_map]
  generalize 0 = acc
  induction ds generalizing acc with
  | nil => rfl
  | cons d ds ih =>
      rw [List.foldl_cons, List.foldl_cons, (decimal_digitChar hu (h d List.mem_cons_self)).2]
      exact ih (fun e he => h e (List.mem_cons_of_mem _ he)) _

/-- **A printed number is read back.** -/
theorem intOfDigits_natText (n : Nat) : intOfDigits u (natText n) = n := by
  rw [natText, fixedDigits, intOfDigits_map hu (digitList_lt _ n), natOfDigits_digitCount]

theorem intOfDigits_fixedDigits {k n : Nat} (h : n < 10 ^ k) :
    intOfDigits u (fixedDigits k n) = n := by
  rw [fixedDigits, intOfDigits_map hu (digitList_lt _ n), natOfDigits_digitList,
    Nat.mod_eq_of_lt h, zero_mul, zero_add]

/-! ## Scores -/

/-- **A printed score is read back.** -/
theorem scoreAt_pairText (pair : Nat × Nat) {rest : List Char}
    (hrest : ∀ c ∈ rest.head?, u.isDecimal c = false) :
    scoreAt u (pairText pair ++ rest) = some pair := by
  have hdash : ∀ c ∈ ('-' :: (natText pair.2 ++ rest)).head?, u.isDecimal c = false := by
    intro c hc
    obtain rfl := Option.some.inj hc
    exact not_decimal hu (by decide)
  obtain ⟨htake, hdrop⟩ := span_append (decimal_natText hu pair.1) hdash
  obtain ⟨htake', hdrop'⟩ := span_append (decimal_natText hu pair.2) hrest
  have hsplit : pairText pair ++ rest = natText pair.1 ++ '-' :: (natText pair.2 ++ rest) := by
    rw [pairText, List.append_assoc, List.cons_append]
  rw [hsplit, scoreAt, htake, hdrop]
  simp only [htake', ne_eq, natText_ne_nil, not_false_eq_true, and_self, if_true,
    intOfDigits_natText hu]

theorem scoreLength_pairText (pair : Nat × Nat) :
    scoreLength u (pairText pair) = (pairText pair).length := by
  have hdash : ∀ c ∈ ('-' :: natText pair.2).head?, u.isDecimal c = false := by
    intro c hc
    obtain rfl := Option.some.inj hc
    exact not_decimal hu (by decide)
  obtain ⟨htake, hdrop⟩ := span_append (decimal_natText hu pair.1) hdash
  obtain ⟨htake', -⟩ :=
    @span_append _ u.isDecimal (natText pair.2) [] (decimal_natText hu pair.2) (by simp)
  rw [List.append_nil] at htake'
  rw [scoreLength, pairText, htake, hdrop, List.drop_one, List.tail_cons, htake',
    List.length_append, List.length_cons]
  omega

omit hu in
/-- Characters that are passed over hold no score. -/
theorem scoresFrom_of_length_le {n : Nat} {s : List Char} (h : s.length ≤ n) :
    scoresFrom u n s = [] := by
  induction s generalizing n with
  | nil => simp [scoresFrom]
  | cons c s ih =>
      cases n with
      | zero => simp at h
      | succ n =>
          rw [scoresFrom]
          exact ih (by simpa using h)

theorem scoresFrom_pairText (pair : Nat × Nat) : scoresFrom u 0 (pairText pair) = [pair] := by
  have hscore := @scoreAt_pairText u hu pair [] (by simp)
  have hlength := scoreLength_pairText hu pair
  rw [List.append_nil] at hscore
  obtain ⟨c, s, hpair⟩ := List.exists_cons_of_ne_nil (l := pairText pair) (by simp [pairText])
  have hc : u.isDecimal c = true := by
    obtain ⟨d, t, hnat⟩ := List.exists_cons_of_ne_nil (natText_ne_nil pair.1)
    have hd := decimal_natText hu pair.1 d (by rw [hnat]; exact List.mem_cons_self)
    rw [pairText, hnat, List.cons_append, List.cons.injEq] at hpair
    rwa [← hpair.1]
  rw [hpair] at hscore hlength ⊢
  rw [scoresFrom, if_pos hc, hscore]
  simp only [hlength, List.length_cons, Nat.add_sub_cancel]
  rw [scoresFrom_of_length_le le_rfl]

/-! ## Half-time scores and notes -/

theorem blank_spaces (n : Nat) : ∀ c ∈ spaces n, u.isSpace c = true := by
  intro c hc
  rw [List.eq_of_mem_replicate hc]
  exact hu.blank

/-- Blanks in front of a text that starts with none are what is dropped. -/
theorem dropWhile_spaces (n : Nat) {s : List Char} (hs : ∀ c ∈ s.head?, u.isSpace c = false) :
    (spaces n ++ s).dropWhile u.isSpace = s :=
  (span_append (blank_spaces hu n) hs).2

theorem isNote_noteText (l : Listing u) : isNote u l.noteText = true := by
  unfold Listing.noteText
  cases l.note with
  | none => rfl
  | some note =>
      have hopen : ∀ c ∈ ('[' :: (note.text ++ [']'])).head?, u.isSpace c = false := by
        intro c hc
        obtain rfl := Option.some.inj hc
        exact not_blank hu (by decide)
      have hclose : ∀ c ∈ ([']'] : List Char).head?, decide (c ≠ ']') = false := by
        intro c hc
        obtain rfl := Option.some.inj hc
        decide
      obtain ⟨htake, hdrop⟩ := span_append (p := fun c => decide (c ≠ ']'))
        (fun c hc => decide_eq_true (note.noBracket c hc).2) hclose
      simp only [isNote]
      rw [dropWhile_spaces hu _ hopen]
      simp only [hdrop, htake, List.all_nil, Bool.and_true, Bool.not_eq_true',
        List.isEmpty_eq_false_iff]
      exact note.ne_nil

omit hu in
/-- What stands before an opening parenthesis is passed over. -/
theorem parenthetical_append {s : List Char} (h : ∀ c ∈ s, c ≠ '(') (t : List Char) :
    parenthetical u (s ++ t) = parenthetical u t := by
  induction s with
  | nil => rfl
  | cons c s ih =>
      have hc := h c List.mem_cons_self
      have hrest := ih fun d hd => h d (List.mem_cons_of_mem _ hd)
      rw [List.cons_append, parenthetical]
      split
      · rw [if_neg fun hand => hc hand.1, hrest]
      · exact hrest

omit hu in
/-- What is not of the class is not dropped. -/
theorem mem_dropWhile_of_not {p : Char → Bool} {s : List Char} {c : Char} (h : c ∈ s)
    (hc : p c = false) : c ∈ s.dropWhile p := by
  rw [← List.takeWhile_append_dropWhile (p := p) (l := s)] at h
  rcases List.mem_append.mp h with htaken | hdropped
  · rw [List.mem_takeWhile_imp htaken] at hc
    exact absurd hc (by decide)
  · exact hdropped

/-- Behind a bracket that is closed at the end no parenthesis ends a result. -/
theorem parenthetical_closed {s : List Char} (h : ∀ c ∈ s, c ≠ '[') :
    parenthetical u (s ++ [']']) = none := by
  induction s with
  | nil => simp [parenthetical]
  | cons c s ih =>
      have hrest := ih fun d hd => h d (List.mem_cons_of_mem _ hd)
      rw [List.cons_append, parenthetical]
      split
      · rename_i rest hdrop
        rw [if_neg, hrest]
        rintro ⟨-, hnote⟩
        -- what follows the parenthesis ends with the bracket and has no other
        obtain ⟨before, hbefore⟩ := List.dropWhile_suffix (l := s ++ [']'])
          fun d => decide (d ≠ '(') && decide (d ≠ ')')
        rw [hdrop] at hbefore
        have hlast := congrArg List.getLast? hbefore
        have hne : rest ≠ [] := by
          rintro rfl
          simp at hlast
        rw [List.getLast?_append_of_ne_nil _ (List.cons_ne_nil _ _),
          List.getLast?_cons_of_ne_nil hne, List.getLast?_concat] at hlast
        have hclosed : ']' ∈ rest.dropWhile u.isSpace :=
          mem_dropWhile_of_not (List.mem_of_getLast? hlast) (not_blank hu (by decide))
        have hopen : '[' ∉ rest.dropWhile u.isSpace := by
          intro hmem
          have hin : '[' ∈ s ++ [']'] := by
            rw [← hbefore]
            exact List.mem_append_right _
              (List.mem_cons_of_mem _ ((List.dropWhile_suffix _).subset hmem))
          rcases List.mem_append.mp hin with hin | hin
          · exact h '[' (List.mem_cons_of_mem _ hin) rfl
          · exact absurd (List.mem_singleton.mp hin) (by decide)
        unfold isNote at hnote
        split at hnote
        · rename_i hnil
          rw [hnil] at hclosed
          exact List.not_mem_nil hclosed
        · rename_i tail hcons
          rw [hcons] at hopen
          exact hopen List.mem_cons_self
        · exact Bool.false_ne_true hnote
      · exact hrest

/-- **A printed half-time score is read back**, behind the score and before the note. -/
theorem parenthetical_result (l : Listing u) (half : Option (Nat × Nat)) (full : Nat × Nat) :
    parenthetical u (pairText full ++ (l.halfText half ++ l.noteText)) = half.map pairText := by
  have hplain : ∀ (pair : Nat × Nat) (c : Char), c ∈ pairText pair → c ≠ '(' ∧ c ≠ ')' := by
    intro pair c hc
    have hdecimal : ∀ c, u.isDecimal c = true → c ≠ '(' ∧ c ≠ ')' := by
      rintro c hc
      constructor
      · rintro rfl
        rw [not_decimal hu (by decide)] at hc
        exact Bool.false_ne_true hc
      · rintro rfl
        rw [not_decimal hu (by decide)] at hc
        exact Bool.false_ne_true hc
    rcases List.mem_append.mp hc with hc | hc
    · exact hdecimal c (decimal_natText hu _ c hc)
    · rcases List.mem_cons.mp hc with rfl | hc
      · decide
      · exact hdecimal c (decimal_natText hu _ c hc)
  have hspaces : ∀ n, ∀ c ∈ spaces n, c ≠ '(' := by
    intro n c hc
    rw [List.eq_of_mem_replicate hc]
    decide
  rw [parenthetical_append fun c hc => (hplain full c hc).1]
  cases half with
  | none =>
      simp only [Listing.halfText, List.nil_append, Option.map_none]
      unfold Listing.noteText
      cases l.note with
      | none => rfl
      | some note =>
          have hsplit : spaces (l.noteGap + 1) ++ '[' :: (note.text ++ [']']) =
              (spaces (l.noteGap + 1) ++ ['[']) ++ (note.text ++ [']']) := by simp
          simp only [hsplit]
          rw [parenthetical_append]
          · exact parenthetical_closed hu fun c hc => (note.noBracket c hc).1
          · intro c hc
            rcases List.mem_append.mp hc with hc | hc
            · exact hspaces _ c hc
            · rw [List.mem_singleton.mp hc]
              decide
  | some half =>
      have hinside : ∀ c ∈ pairText half, (decide (c ≠ '(') && decide (c ≠ ')')) = true := by
        intro c hc
        simp [(hplain half c hc).1, (hplain half c hc).2]
      have hclose : ∀ c ∈ (')' :: l.noteText).head?,
          (decide (c ≠ '(') && decide (c ≠ ')')) = false := by
        intro c hc
        obtain rfl := Option.some.inj hc
        decide
      obtain ⟨htake, hdrop⟩ := span_append hinside hclose
      have hsplit : l.halfText (some half) ++ l.noteText =
          spaces (l.halfGap + 1) ++ '(' :: (pairText half ++ ')' :: l.noteText) := by
        simp [Listing.halfText]
      rw [hsplit, parenthetical_append (hspaces _), parenthetical]
      simp only [hdrop, htake, isNote_noteText hu, and_self, if_true, Option.map_some]

/-- **A score's half-time score is read back.** -/
theorem halfTime_result (l : Listing u) (score : Score) :
    halfTime u (pairText (score.home, score.away) ++ (l.halfText score.half ++ l.noteText))
      (some (score.home, score.away)) = .ok score.half := by
  rw [halfTime, parenthetical_result hu]
  cases hhalf : score.half with
  | none => rfl
  | some half =>
      obtain ⟨hhome, haway⟩ := score.half_le half hhalf
      have hlast : (scoresFrom u 0 (pairText half)).getLast? = some half := by
        rw [scoresFrom_pairText hu]
        rfl
      simp only [Option.map_some, Option.bind_some, hlast]
      rw [if_neg (by omega)]
      rfl

end Golavo.Ingest.DomesticTxt
