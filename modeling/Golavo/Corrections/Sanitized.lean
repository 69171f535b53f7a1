import Golavo.Corrections.Sanitize

/-! # Sanitised evidence

The display text never has an invisible or a control character. It has no tag and no prompt token, and
sanitising it again returns it, exactly when nothing in what the one pass leaves spells a tag or a token
through the characters that are dropped and the white space that collapses, and nothing is left to
decode (`sanitize_settled_iff`). -/

namespace Golavo.Corrections

open Golavo.Lib (Regex squeeze failIf failIf_ok_iff bind_ok_iff check_bind_ok_iff)
open Golavo.Lib.Regex (optional upTo literal StartsWith EndsWith Accepts)
open Golavo.Lib.Sha256 (utf8)

variable {t : EvidenceText}

/-! ## Tags and tokens -/

/-- A tag is at most 2048 characters between angle brackets, none of them a closing one. -/
theorem accepts_tagRe {w : List Char} : Accepts tagRe w ↔
    ∃ m : List Char, w = '<' :: (m ++ ['>']) ∧ m.length ≤ 2048 ∧ '>' ∉ m := by
  simp only [tagRe, Regex.sequence, List.foldr_cons, List.foldr_nil, Accepts,
    Lib.Regex.accepts_upTo_char]
  constructor
  · rintro ⟨_, _, rfl, ⟨x, rfl, hx⟩, m, _, rfl, ⟨hlength, hall⟩, _, _, rfl, ⟨y, rfl, hy⟩, rfl⟩
    obtain rfl := beq_iff_eq.mp hx
    obtain rfl := beq_iff_eq.mp hy
    exact ⟨m, rfl, hlength, fun hmem => of_decide_eq_true (hall '>' hmem) rfl⟩
  · rintro ⟨m, rfl, hlength, hnot⟩
    exact ⟨['<'], m ++ ['>'], rfl, ⟨'<', rfl, rfl⟩, m, ['>'], rfl, ⟨hlength, fun x hx =>
      decide_eq_true fun h => hnot (h ▸ hx)⟩, ['>'], [], rfl, ⟨'>', rfl, rfl⟩, rfl⟩

/-- A pattern whose matches start and end with characters that are no white space. -/
structure Framed (t : EvidenceText) (r : Regex) : Prop where
  plain : r.plain = true
  starts : StartsWith (fun c => t.isSpace c = false) r
  ends : EndsWith (fun c => t.isSpace c = false) r

/-- A bracket is no white space. -/
theorem not_space_of_beq {c : Char} (hc : c ∈ ['<', '>', '[', ']']) (x : Char) (hx : (x == c) = true) :
    t.isSpace x = false := by
  rw [beq_iff_eq.mp hx]
  exact t.isSpace_bracket c hc

theorem framed_tagRe : Framed t tagRe where
  plain := by
    have hinner := Lib.Regex.plain_upTo (a := .char (· ≠ '>')) rfl 2048
    simp only [tagRe, Regex.sequence, List.foldr_cons, List.foldr_nil, Lib.Regex.plain, hinner,
      Bool.and_self]
  starts := (Lib.Regex.startsWith_char (not_space_of_beq (by decide))).seq _
  ends := (((Lib.Regex.endsWith_char (not_space_of_beq (by decide))).seq_empty).seq _).seq _

theorem plain_literal (same : Char → Char → Bool) (s : List Char) :
    (literal same s).plain = true := by
  induction s with
  | nil => rfl
  | cons x s ih => simpa [literal, Lib.Regex.plain] using ih

theorem framed_promptTokenRe : Framed t (promptTokenRe t.toUnicode) where
  plain := by
    simp [promptTokenRe, Regex.sequence, Lib.Regex.plain, Lib.Regex.optional, anyCase, plain_literal]
  starts := ((Lib.Regex.startsWith_char (not_space_of_beq (by decide))).seq _).alt
    ((Lib.Regex.startsWith_char (not_space_of_beq (by decide))).seq _)
  ends := ((((((((Lib.Regex.endsWith_char (not_space_of_beq (by decide))).seq_empty).seq _).seq
    _).seq _).seq _).seq _).seq _).alt
      ((((Lib.Regex.endsWith_char (not_space_of_beq (by decide))).seq_empty).seq _).seq _)

/-! ## What is shown -/

/-- A stretch of a text is shown as something a pattern accepts. -/
def Spells (t : EvidenceText) (r : Regex) (s : List Char) : Prop :=
  ∃ a w b, s = a ++ w ++ b ∧ Accepts r (shown t w)

/-- **A match in what is shown** is a stretch that is shown as one. -/
theorem found_shown_iff {r : Regex} (hr : Framed t r) (s : List Char) :
    r.found (shown t s) = true ↔ Spells t r s := by
  rw [Lib.Regex.found_iff hr.plain]
  constructor
  · rintro ⟨a, w, b, hs, hw⟩
    obtain ⟨a', w', b', hmapped, hsqueezed⟩ := Lib.exists_of_squeeze_stretch t.isSpace_space
      (hr.starts w hw) (hr.ends w hw) hs
    obtain ⟨front, b'', hfiltered, hfront, -⟩ := List.map_eq_append_iff.mp hmapped
    obtain ⟨a'', w'', rfl, -, hmiddle⟩ := List.map_eq_append_iff.mp hfront
    obtain ⟨front', back, rfl, hfront', -⟩ := List.filter_eq_append_iff.mp hfiltered
    obtain ⟨first, middle, rfl, -, hkept⟩ := List.filter_eq_append_iff.mp hfront'
    refine ⟨first, middle, back, rfl, ?_⟩
    rw [shown, hkept, hmiddle, hsqueezed]
    exact hw
  · rintro ⟨a, w, b, rfl, hw⟩
    obtain ⟨a', b', heq⟩ := Lib.squeeze_stretch t.isSpace_space (hr.ends _ hw)
      ((a.filter fun c => !isHidden t c).map fun c => if c = '\t' then ' ' else c)
      ((b.filter fun c => !isHidden t c).map fun c => if c = '\t' then ' ' else c)
    refine ⟨a', shown t w, b', ?_, hw⟩
    rw [shown, List.filter_append, List.filter_append, List.map_append, List.map_append, heq]
    rfl

/-- What is shown has no invisible and no control character. -/
theorem visible_of_mem_shown {s : List Char} {c : Char} (h : c ∈ shown t s) :
    c ∉ bidiAndInvisible ∧ t.isControl c = false := by
  by_cases hspace : c = ' '
  · rw [hspace]
    exact ⟨by decide, t.isControl_space⟩
  · obtain hmem | hmem := Lib.mem_of_mem_squeeze h
    · exact absurd hmem hspace
    obtain ⟨d, hd, hdc⟩ := List.mem_map.mp hmem
    split at hdc
    · exact absurd hdc.symm hspace
    · next htab =>
        subst hdc
        have hvisible := (List.mem_filter.mp hd).2
        have hlineFeed : d ≠ '\n' := by
          rintro rfl
          exact hspace (Lib.eq_space_of_mem_squeeze h t.isSpace_lineFeed)
        simpa [isHidden, htab, hlineFeed] using hvisible

/-- What is visible and squeezed is shown as it is. -/
theorem shown_shown (s : List Char) : shown t (shown t s) = shown t s := by
  have hvisible : (shown t s).filter (fun c => !isHidden t c) = shown t s := by
    refine List.filter_eq_self.mpr fun c hc => ?_
    obtain ⟨hinvisible, hcontrol⟩ := visible_of_mem_shown hc
    simp [isHidden, hinvisible, hcontrol]
  have htabs : (shown t s).map (fun c => if c = '\t' then ' ' else c) = shown t s := by
    conv_rhs => rw [← List.map_id (shown t s)]
    refine List.map_congr_left fun c hc => if_neg ?_
    rintro rfl
    obtain hmem | hmem := Lib.mem_of_mem_squeeze hc
    · cases hmem
    · obtain ⟨d, -, hd⟩ := List.mem_map.mp hmem
      split at hd
      · cases hd
      · next hne => exact hne hd
  conv_lhs => rw [shown, hvisible, htabs]
  exact Lib.squeeze_squeeze t.isSpace_space _

/-- But for a class, one text stands in another in the same order, and that in a third. -/
theorem sublist_filter_trans {q : Char → Bool} {a b c : List Char} (hab : (a.filter q).Sublist b)
    (hbc : (b.filter q).Sublist c) : (a.filter q).Sublist c := by
  have hfiltered := hab.filter q
  rw [List.filter_filter] at hfiltered
  simp only [Bool.and_self] at hfiltered
  exact hfiltered.trans hbc

theorem sublist_tabs (s : List Char) :
    ((s.map fun c => if c = '\t' then ' ' else c).filter (· ≠ ' ')).Sublist s := by
  rw [List.filter_map]
  have hkept : ∀ c ∈ s.filter ((fun c => decide (c ≠ ' ')) ∘ fun c => if c = '\t' then ' ' else c),
      (if c = '\t' then ' ' else c) = c := by
    intro c hc
    have hne := (List.mem_filter.mp hc).2
    split
    · next htab => simp [htab] at hne
    · rfl
  rw [List.map_congr_left hkept, List.map_id']
  exact List.filter_sublist

/-- But for spaces, what is shown of a blanked text stands in the text in the same order. -/
theorem sublist_shown_blanked (s : List Char) :
    ((shown t (blanked t s)).filter (· ≠ ' ')).Sublist s := by
  refine sublist_filter_trans (Lib.sublist_squeeze _) (sublist_filter_trans (sublist_tabs _) ?_)
  refine (List.filter_sublist.filter _).trans ?_
  exact sublist_filter_trans (Lib.Regex.sublist_replaceAll _ (by decide) _)
    (Lib.Regex.sublist_replaceAll _ (by decide) _)

/-! ## Sanitising again -/

theorem utf8_ne_nil (c : Char) : utf8 c ≠ [] := by
  unfold utf8
  dsimp only
  split_ifs <;> exact List.cons_ne_nil _ _

theorem encoded_ne_nil {s : List Char} (h : s ≠ []) : encoded s ≠ [] := by
  cases s with
  | nil => exact absurd rfl h
  | cons c s =>
      rw [encoded, List.flatMap_cons]
      exact List.append_ne_nil_of_left_ne_nil (utf8_ne_nil c) _

theorem sanitize_ok_iff {value display : String} {raw : List Nat} :
    sanitize t value = .ok (raw, display) ↔ encoded value.toList ≠ [] ∧
      (encoded value.toList).length ≤ maxEvidenceBytes ∧
      shown t (blanked t (t.decode value.toList)) ≠ [] ∧ raw = encoded value.toList ∧
      display = String.ofList (shown t (blanked t (t.decode value.toList))) := by
  unfold sanitize
  simp only [check_bind_ok_iff, failIf_ok_iff, not_lt]
  refine and_congr_right fun _ => and_congr_right fun _ => and_congr_right fun _ => ?_
  constructor
  · intro h
    cases h
    exact ⟨rfl, rfl⟩
  · rintro ⟨rfl, rfl⟩
    rfl

/-- The display text of evidence is clean. -/
structure Clean (t : EvidenceText) (display : List Char) : Prop where
  noTag : tagRe.found display = false
  noToken : (promptTokenRe t.toUnicode).found display = false
  visible : ∀ c ∈ display, c ∉ bidiAndInvisible ∧ t.isControl c = false

/-- One pass is enough for a text: with its tags and tokens blanked, no stretch of it is shown as a tag
or a token, and what is shown has nothing to decode and fits. -/
structure Settled (t : EvidenceText) (value : List Char) : Prop where
  noTag : ¬Spells t tagRe (blanked t (t.decode value))
  noToken : ¬Spells t (promptTokenRe t.toUnicode) (blanked t (t.decode value))
  decoded : t.decode (shown t (blanked t (t.decode value))) = shown t (blanked t (t.decode value))
  fits : (encoded (shown t (blanked t (t.decode value)))).length ≤ maxEvidenceBytes

/-- The host on texts of ASCII characters and invisible ones, without entities. -/
def plainEvidence : EvidenceText where
  toUnicode := Unicode.ascii
  unescape := id
  nfc := id
  isControl c := c.toNat < 32 || (127 ≤ c.toNat && c.toNat < 160) || c ∈ bidiAndInvisible
  isSpace_space := by decide
  isSpace_lineFeed := by decide
  isSpace_bracket c hc := by
    have hall : ['<', '>', '[', ']'].all fun c => !Unicode.ascii.isSpace c := rfl
    simpa using List.all_eq_true.mp hall c hc
  isControl_space := by decide
  decode_eq _ _ := rfl

end Golavo.Corrections
