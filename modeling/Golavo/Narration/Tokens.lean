import Golavo.Lib.RegexScan
import Golavo.Narration.Whitelist

/-! # Number tokens

What the scan for numbers reads of a text. Digits that stand free, neither behind a word character nor
behind a point, are read as a whole: some token covers them (`exists_token_of_free`). -/

namespace Golavo.Narration

open Golavo.Lib (Regex Cursor)
open Golavo.Lib.Cursor (Later)
open Golavo.Lib.Regex (sequence optional plus Match Total Consumes EndsWhole KeepsWhole NotMid
  total_empty total_optional total_star consumes_char endsWhole_char endsWhole_star endsWhole_plus
  keepsWhole_empty run_seq_ne_nil later_of_mem_run of_mem_scan exists_covering)
open Pattern

variable {u : TextTables}

/-! ## The pattern -/

/-- The parts of a number behind its digits. -/
theorem total_numberTail :
    Total (.seq (optional (sequence [charOf "eE", optional (charOf "-+"), plus (digit u)]))
      (.seq (optional (exactly "%")) .empty)) :=
  (total_optional _).seq ((total_optional _).seq total_empty)

theorem consumes_numberRe : Consumes (numberRe u) :=
  ((((consumes_char _).seq_left _).alt (((consumes_char _).seq_left _).seq_right _)).seq_left
    _).seq_right _ |>.seq_right _

/-- A number ends at no place inside a run of digits. -/
theorem endsWhole_numberRe (hpercent : u.isDecimal '%' = false) :
    EndsWhole u.isDecimal (numberRe u) := by
  have hdigits : EndsWhole u.isDecimal (plus (digit u)) := endsWhole_plus _ fun _ h => h
  have hexponent : EndsWhole u.isDecimal
      (sequence [charOf "eE", optional (charOf "-+"), plus (digit u)]) :=
    ((hdigits.seq keepsWhole_empty total_empty).seq_right _).seq_right _
  have hmark : EndsWhole u.isDecimal (exactly "%") := by
    refine (endsWhole_char fun x hx => ?_).seq keepsWhole_empty total_empty
    rwa [← beq_iff_eq.mp hx]
  have htail : KeepsWhole u.isDecimal
      (.seq (optional (sequence [charOf "eE", optional (charOf "-+"), plus (digit u)]))
        (.seq (optional (exactly "%")) .empty)) :=
    hexponent.optional.seq (hmark.optional.seq keepsWhole_empty total_empty)
      ((total_optional _).seq total_empty)
  have hfraction : EndsWhole u.isDecimal (.seq (exactly ".") (plus (digit u))) :=
    hdigits.seq_right _
  have hwhole : EndsWhole u.isDecimal
      (sequence [digit u, .star (.char fun x => u.isDecimal x || x = ','),
        optional (.seq (exactly ".") (plus (digit u)))]) :=
    ((endsWhole_star fun x hx => by simp [hx]).seq
      (hfraction.optional.seq keepsWhole_empty total_empty)
      ((total_optional _).seq total_empty)).seq_right _
  exact (((hwhole.alt hfraction).seq htail total_numberTail).seq_right _).seq_right _

/-- Whether digits may start behind a character: neither a word character nor a point. -/
def isFree (u : TextTables) (before : Option Char) : Bool :=
  !before.any fun x => u.isWord x || x = '.'

/-- A number starts at every free digit. -/
theorem run_numberRe_ne_nil {before after : List Char} {x : Char} (hfree : isFree u before.head?)
    (hx : u.isDecimal x = true) : (numberRe u).run ⟨before, x :: after⟩ ≠ [] := by
  have hdigit : (digit u).run ⟨before, x :: after⟩ ≠ [] := by simp [digit, Regex.run, hx]
  have hwhole := run_seq_ne_nil (b := .seq (.star (.char fun x => u.isDecimal x || x = ','))
    (.seq (optional (.seq (exactly ".") (plus (digit u)))) .empty))
    ((total_star _).seq ((total_optional _).seq total_empty)) hdigit
  have hnumber := run_seq_ne_nil (total_numberTail (u := u)) (c := ⟨before, x :: after⟩)
    (a := .alt (sequence [digit u, .star (.char fun x => u.isDecimal x || x = ','),
      optional (.seq (exactly ".") (plus (digit u)))]) (.seq (exactly ".") (plus (digit u))))
    (List.append_ne_nil_of_left_ne_nil hwhole _)
  obtain ⟨stop, hstop⟩ := List.exists_mem_of_ne_nil _ hnumber
  refine List.ne_nil_of_mem (a := stop) (List.mem_flatMap.mpr ⟨⟨before, x :: after⟩, ?_, ?_⟩)
  · have hnot : before.head?.any (fun x => u.isWord x || x = '.') = false := by
      simpa [isFree] using hfree
    rw [Regex.run, if_neg (by rw [hnot]; exact Bool.false_ne_true)]
    exact List.mem_singleton_self _
  · refine List.mem_flatMap.mpr ⟨⟨before, x :: after⟩, ?_, hstop⟩
    exact List.mem_append_right _ (List.mem_singleton_self _)

/-! ## What the guard finds -/

/-- The displays of the numbers that are referenced, as the guard compares them. -/
def shown {F : Type} (u : TextTables) (numbers : List (AllowedNumber F)) (refs : List String) :
    List (List Char) :=
  (numbers.filter (·.id ∈ refs)).map fun n => u.nfkc n.display.toList

/-- The guard finds nothing unsupported where the cleaned text has no fraction and no number word, and
every number in it is a display that is referenced. -/
theorem unsupportedNumberTokens_eq_nil_iff {F : Type} {text : String}
    {numbers : List (AllowedNumber F)} {refs literals : List String} :
    unsupportedNumberTokens u text numbers refs literals = [] ↔
      (fractionRe u).findAll (cleanedText u text literals) = [] ∧
      (narrationWordRe u).findAll (cleanedText u text literals) = [] ∧
      ∀ m ∈ (numberRe u).findAll (cleanedText u text literals), m.text ∈ shown u numbers refs := by
  simp only [unsupportedNumberTokens, List.append_eq_nil_iff, List.map_eq_nil_iff,
    List.filter_eq_nil_iff, and_assoc]
  refine and_congr_right fun hfractions => and_congr_right fun _ => forall₂_congr fun m _ => ?_
  rw [hfractions]
  simp [shown, and_assoc]

/-! ## Tokens of a text -/

/-- A token covers a stretch of a text. -/
def Covers (m : Match) (front stretch : List Char) : Prop :=
  m.position ≤ front.length ∧ front.length + stretch.length ≤ m.finish

/-- A token of a text is a stretch of it. -/
theorem text_of_mem_findAll {r : Regex} {text : List Char} {m : Match} (h : m ∈ r.findAll text) :
    text = m.start.before.reverse ++ m.text ++ m.stop.after ∧
      m.stop.before = m.text.reverse ++ m.start.before := by
  obtain ⟨⟨skipped, hafter, hbefore⟩, hstop⟩ := of_mem_scan h
  obtain ⟨stretch, hstretch, hbehind⟩ := later_of_mem_run (List.mem_of_mem_head? hstop)
  have htext : m.text = stretch := by
    rw [Match.text, hstretch, List.length_append, Nat.add_sub_cancel, List.take_left']
    rfl
  simp only [List.append_nil] at hbefore hafter
  rw [htext, hbehind, hafter, hbefore, List.reverse_reverse, hstretch, List.append_assoc]
  exact ⟨rfl, rfl⟩

/-- What a token covers stands inside it. -/
theorem Covers.infix {r : Regex} {front stretch behind : List Char} {m : Match}
    (hcovers : Covers m front stretch) (h : m ∈ r.findAll (front ++ stretch ++ behind)) :
    stretch <:+: m.text := by
  obtain ⟨htext, hstop⟩ := text_of_mem_findAll h
  obtain ⟨hposition, hfinish⟩ := hcovers
  rw [Match.position] at hposition
  rw [Match.finish, hstop, List.length_append, List.length_reverse] at hfinish
  have hstart : m.start.before.reverse <+: front ++ stretch ++ behind :=
    ⟨_, by rw [htext, List.append_assoc]⟩
  obtain ⟨a, rfl⟩ : m.start.before.reverse <+: front :=
    List.prefix_of_prefix_length_le hstart ⟨_, by rw [List.append_assoc]⟩
      (by rwa [List.length_reverse])
  rw [List.append_assoc, List.append_assoc, List.append_assoc,
    List.append_cancel_left_eq, ← List.append_assoc] at htext
  have hlength := hfinish
  rw [List.length_append, List.length_reverse] at hlength
  have hcovered : a ++ stretch <+: a ++ stretch ++ behind := ⟨_, rfl⟩
  obtain ⟨b, hb⟩ : a ++ stretch <+: m.text :=
    List.prefix_of_prefix_length_le hcovered ⟨_, htext.symm⟩ (by rw [List.length_append]; omega)
  exact ⟨a, b, hb⟩

/-- **Free digits are read as a whole.** -/
theorem exists_token_of_free (hpercent : u.isDecimal '%' = false) {front digits behind : List Char}
    (hne : digits ≠ []) (hdigits : ∀ x ∈ digits, u.isDecimal x = true)
    (hfree : isFree u front.getLast?) :
    ∃ m ∈ (numberRe u).findAll (front ++ digits ++ behind), Covers m front digits := by
  obtain ⟨x, rest, rfl⟩ := List.exists_cons_of_ne_nil hne
  have hplace : Later ⟨[], front ++ x :: rest ++ behind⟩ ⟨front.reverse, x :: rest ++ behind⟩ :=
    ⟨front, List.append_assoc .., (List.append_nil _).symm⟩
  have hrun : (numberRe u).run ⟨front.reverse, x :: (rest ++ behind)⟩ ≠ [] :=
    run_numberRe_ne_nil (by rwa [List.head?_reverse]) (hdigits x List.mem_cons_self)
  obtain ⟨m, hm, hstart, hunder⟩ := exists_covering (Nat.lt_succ_self _) hplace hrun
  obtain ⟨hlater, hstop⟩ := of_mem_scan hm
  have hmem := List.mem_of_mem_head? hstop
  have hbehind : m.stop.after.length < (x :: rest ++ behind).length := by
    obtain heq | hlt := hunder
    · have := consumes_numberRe _ _ hmem
      rwa [heq] at this
    · exact hlt
  refine ⟨m, hm, ?_, ?_⟩
  · obtain ⟨stretch, -, hbefore⟩ := hstart
    have := congrArg List.length hbefore
    simp only [List.length_reverse, List.length_append] at this
    rw [Match.position]
    omega
  · obtain ⟨stretch, hafter, hbefore⟩ :=
      hplace.later_of_le (hlater.trans (later_of_mem_run hmem)) hbehind.le
    have hpos : stretch ≠ [] := by
      rintro rfl
      exact absurd (congrArg List.length hafter) hbehind.ne'
    by_contra hshort
    rw [Match.finish, hbefore, List.length_append, List.length_reverse,
      List.length_reverse] at hshort
    have hdigitsFirst : x :: rest <+: x :: rest ++ behind := ⟨_, rfl⟩
    obtain ⟨tail, htail⟩ : stretch <+: x :: rest :=
      List.prefix_of_prefix_length_le ⟨_, hafter.symm⟩ hdigitsFirst (by omega)
    have hne' : tail ≠ [] := by
      rintro rfl
      rw [List.append_nil] at htail
      rw [htail] at hshort
      omega
    rw [← htail, List.append_assoc] at hafter
    have hrest := (List.append_cancel_left hafter).symm
    refine endsWhole_numberRe hpercent _ _ hstop ⟨?_, ?_⟩
    · rw [hbefore, List.head?_append, List.head?_reverse, List.getLast?_eq_some_getLast hpos,
        Option.some_or, Option.any_some]
      exact hdigits _ (htail ▸ List.mem_append_left _ (List.getLast_mem hpos))
    · rw [hrest, List.head?_append, List.head?_eq_some_head hne', Option.some_or, Option.any_some]
      exact hdigits _ (htail ▸ List.mem_append_right _ (List.head_mem hne'))

end Golavo.Narration
