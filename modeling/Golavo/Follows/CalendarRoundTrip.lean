import Golavo.Follows.CalendarExport
import Golavo.Lib.Check
import Golavo.Lib.Runs
import Mathlib.Tactic.Linarith

/-! # What a calendar reader gets from the export

A reader cuts the octets of a calendar into lines, unfolds them, and reads the events back with
their texts unescaped. It gets the exportable items, one event each and in order, whatever their
texts hold. -/

namespace Golavo.CalendarExport

open Golavo.Lib Folding

/-! ## The reader -/

/-- The content lines of a calendar: unfolded, then cut at the line breaks. -/
def contentLines (text : List Char) : List (List Char) :=
  cut '\r' '\n' (unfold '\r' '\n' ' ' text)

/-- The octets of the physical lines of a calendar. -/
def physicalLines (octets : List Nat) : List (List Nat) := cut 13 10 octets

/-- A text value with its escapes taken out. -/
def unescape : List Char → List Char
  | '\\' :: c :: s => (if c = 'n' ∨ c = 'N' then '\n' else c) :: unescape s
  | c :: s => c :: unescape s
  | [] => []

/-- A text whose line breaks (a CR with an LF behind it, an LF, a CR) are newlines. -/
def oneNewline : List Char → List Char
  | '\r' :: '\n' :: s => '\n' :: oneNewline s
  | c :: s => (if c = '\r' then '\n' else c) :: oneNewline s
  | [] => []

/-- An event as a reader sees it. -/
structure Event where
  uid : List Char := []
  stamp : List Char := []
  start : List Char := []
  summary : List Char := []
  description : List Char := []
  deriving DecidableEq, Repr

/-- The events read so far, and the one being read. -/
structure Reading where
  done : List Event := []
  reading : Option Event := none

/-- An event with a property put in. -/
def Event.put (event : Event) (name : String) (value : List Char) : Event :=
  match name with
  | "UID" => { event with uid := value }
  | "DTSTAMP" => { event with stamp := value }
  | "DTSTART" => { event with start := value }
  | "SUMMARY" => { event with summary := unescape value }
  | "DESCRIPTION" => { event with description := unescape value }
  | _ => event

/-- An event with the property of a content line. -/
def Event.withLine (event : Event) (line : List Char) : Event :=
  event.put (String.ofList (line.takeWhile (· ≠ ':'))) ((line.dropWhile (· ≠ ':')).drop 1)

/-- Read one content line. -/
def readLine (r : Reading) (line : List Char) : Reading :=
  match r.reading with
  | none => if line = "BEGIN:VEVENT".toList then { r with reading := some {} } else r
  | some event =>
      if line = "END:VEVENT".toList then ⟨r.done ++ [event], none⟩
      else { r with reading := some (event.withLine line) }

/-- The events of a calendar's content lines. -/
def readEvents (lines : List (List Char)) : List Event := (lines.foldl readLine {}).done

/-! ## Escapes -/

/-- What `_escape` writes for a character. -/
def escapeChar (c : Char) : List Char :=
  if c = '\\' then ['\\', '\\']
  else if c = ';' then ['\\', ';']
  else if c = ',' then ['\\', ',']
  else if c = '\n' then ['\\', 'n']
  else [c]

/-- The three replacements that come before the line breaks work character by character. -/
def escapeMark (c : Char) : List Char :=
  if c = '\\' then ['\\', '\\']
  else if c = ';' then ['\\', ';']
  else if c = ',' then ['\\', ',']
  else [c]

theorem replaceMarks (s : List Char) :
    replaceAll [','] ['\\', ','] (replaceAll [';'] ['\\', ';']
      (replaceAll ['\\'] ['\\', '\\'] s)) = s.flatMap escapeMark := by
  simp only [replaceAll_singleton, List.flatMap_assoc]
  congr 1
  funext c
  by_cases h₁ : c = '\\'
  · subst h₁
    decide
  · by_cases h₂ : c = ';'
    · subst h₂
      decide
    · by_cases h₃ : c = ','
      · subst h₃
        decide
      · simp [escapeMark, h₁, h₂, h₃]

theorem not_mem_escapeMark {c : Char} (h : c ≠ '\r') : '\r' ∉ escapeMark c := by
  unfold escapeMark
  split_ifs
  all_goals simp_all [eq_comm]

/-- The last two replacements, of the line breaks that stand alone. -/
def replaceBreaks (s : List Char) : List Char :=
  replaceAll ['\r'] ['\\', 'n'] (replaceAll ['\n'] ['\\', 'n'] s)

theorem replaceBreaks_append (s t : List Char) :
    replaceBreaks (s ++ t) = replaceBreaks s ++ replaceBreaks t := by
  simp [replaceBreaks, replaceAll_singleton]

theorem replaceBreaks_escapeMark {c : Char} (h : c ≠ '\r') :
    replaceBreaks (escapeMark c) = escapeChar c := by
  by_cases hc : c = '\\' ∨ c = ';' ∨ c = ',' ∨ c = '\n'
  · rcases hc with rfl | rfl | rfl | rfl
    all_goals decide
  · simp only [not_or] at hc
    simp [escapeMark, escapeChar, hc.1, hc.2.1, hc.2.2.1, hc.2.2.2, replaceBreaks,
      replaceAll_singleton, h]

/-- A CR before an escaped text stands alone unless the text began with an LF. -/
theorem not_crlf {s : List Char} (h : s.head? ≠ some '\n') :
    ['\r', '\n'].isPrefixOf ('\r' :: s.flatMap escapeMark) = false := by
  cases s with
  | nil => decide
  | cons c s =>
      have hc : c ≠ '\n' := by simpa using h
      have hhead : ∃ d t, escapeMark c = d :: t ∧ '\n' ≠ d := by
        unfold escapeMark
        split_ifs
        all_goals simp [Ne.symm hc]
      obtain ⟨d, t, heq, hne⟩ := hhead
      simp [heq, List.isPrefixOf, hne]

/-- **Escaping writes a text character by character**, with its line breaks as newlines. -/
theorem escape_eq (s : List Char) : escape s = (oneNewline s).flatMap escapeChar := by
  have hbreaks : escape s =
      replaceBreaks (replaceAll ['\r', '\n'] ['\\', 'n'] (s.flatMap escapeMark)) := by
    rw [← replaceMarks]
    rfl
  rw [hbreaks]
  clear hbreaks
  fun_induction oneNewline s with
  | case1 s ih =>
      have hpair : ('\r' :: '\n' :: s).flatMap escapeMark =
          ['\r', '\n'] ++ s.flatMap escapeMark := rfl
      rw [hpair, replaceAll_append, replaceBreaks_append, ih]
      rfl
  | case2 c s hpair ih =>
      by_cases hc : c = '\r'
      · subst hc
        have hs : s.head? ≠ some '\n' := by
          intro h
          obtain ⟨t, rfl⟩ := List.head?_eq_some_iff.mp h
          exact hpair t rfl rfl
        have hmark : ('\r' :: s).flatMap escapeMark = '\r' :: s.flatMap escapeMark := rfl
        rw [hmark, replaceAll_cons_of_not_prefix _ (not_crlf hs), ← List.singleton_append,
          replaceBreaks_append, ih]
        rfl
      · rw [List.flatMap_cons, replaceAll_append_of_not_mem _ _ (not_mem_escapeMark hc),
          replaceBreaks_append, ih, replaceBreaks_escapeMark hc, if_neg hc, List.flatMap_cons]
  | case3 => rfl

/-- Unescaping undoes escaping, whatever follows. -/
theorem unescape_flatMap (s t : List Char) :
    unescape (s.flatMap escapeChar ++ t) = s ++ unescape t := by
  induction s with
  | nil => rfl
  | cons c s ih =>
      rw [List.flatMap_cons, List.append_assoc, List.cons_append]
      by_cases h : c = '\\' ∨ c = ';' ∨ c = ',' ∨ c = '\n'
      · rcases h with rfl | rfl | rfl | rfl
        all_goals simp [escapeChar, unescape, ih]
      · simp only [not_or] at h
        simp [escapeChar, h.1, h.2.1, h.2.2.1, h.2.2.2, unescape, ih]

/-! ## Physical lines -/

theorem length_utf8_le (c : Char) : (Sha256.utf8 c).length ≤ 4 := by
  unfold Sha256.utf8
  dsimp only
  split_ifs
  all_goals simp

@[simp] theorem encode_append (s t : List Char) : encode (s ++ t) = encode s ++ encode t :=
  List.flatMap_append

/-- The octets of a single character behind the pad fit on a line. -/
theorem length_encode_single {lead : List Char} (hlead : lead = [] ∨ lead = [' ']) (c : Char) :
    (encode (lead ++ [c])).length ≤ limit := by
  have hc := length_utf8_le c
  rcases hlead with rfl | rfl
  · simp only [encode, List.nil_append, List.flatMap_singleton, limit]
    omega
  · have hpad : encode ([' '] ++ [c]) = 32 :: Sha256.utf8 c := by
      rw [encode_append]
      simp [encode, Sha256.utf8]
    rw [hpad, List.length_cons]
    unfold limit
    omega

/-- What the loop of `_fold` keeps: the lines done are padded pieces that fit, the part being read
fits too, and together they are the text read so far. -/
structure Folded (front : List Char) (s : FoldState) (pieces : List (List Char)) : Prop where
  chunks : s.chunks = padded ' ' pieces
  lead : s.lead = if pieces = [] then [] else [' ']
  text : pieces.flatten ++ s.current = front
  nonempty : ∀ piece ∈ pieces, piece ≠ []
  going : front ≠ [] → s.current ≠ []
  fits : ∀ chunk ∈ s.chunks, (encode chunk).length ≤ limit
  currentFits : (encode (s.lead ++ s.current)).length ≤ limit

theorem Folded.lead_cases {front : List Char} {s : FoldState} {pieces : List (List Char)}
    (h : Folded front s pieces) : s.lead = [] ∨ s.lead = [' '] := by
  rw [h.lead]
  split_ifs
  · exact .inl rfl
  · exact .inr rfl

/-- One round of the loop keeps it. -/
theorem Folded.step {front : List Char} {s : FoldState} {pieces : List (List Char)}
    (h : Folded front s pieces) (c : Char) :
    ∃ pieces', Folded (front ++ [c]) (foldStep s c) pieces' := by
  by_cases hsplit : limit < (encode (s.lead ++ (s.current ++ [c]))).length ∧ s.current ≠ []
  · refine ⟨pieces ++ [s.current], ?_⟩
    rw [foldStep, if_pos hsplit]
    exact {
      chunks := by rw [padded_concat, ← h.lead, h.chunks]
      lead := by simp
      text := by simp [← h.text]
      nonempty := by
        intro piece hmem
        rcases List.mem_append.mp hmem with hmem | hmem
        · exact h.nonempty piece hmem
        · rw [List.mem_singleton.mp hmem]
          exact hsplit.2
      going := fun _ => by simp
      fits := by
        intro chunk hmem
        rcases List.mem_append.mp hmem with hmem | hmem
        · exact h.fits chunk hmem
        · rw [List.mem_singleton.mp hmem]
          exact h.currentFits
      currentFits := length_encode_single (.inr rfl) c }
  · refine ⟨pieces, ?_⟩
    rw [foldStep, if_neg hsplit]
    refine ⟨h.chunks, h.lead, ?_, h.nonempty, fun _ => by simp, h.fits, ?_⟩
    · rw [← List.append_assoc, h.text]
    · by_cases hcurrent : s.current = []
      · simpa [hcurrent] using length_encode_single h.lead_cases c
      · exact Nat.le_of_not_lt fun hlt => hsplit ⟨hlt, hcurrent⟩

/-- **Folding a line** pads all but the first of its pieces, which fit on a physical line each. -/
theorem fold_spec {line : List Char} (hne : line ≠ []) :
    (∃ piece pieces, fold line = padded ' ' (piece :: pieces) ∧ piece ≠ [] ∧
      (piece :: pieces).flatten = line) ∧
    ∀ chunk ∈ fold line, (encode chunk).length ≤ limit := by
  have hstart : Folded [] {} [] :=
    ⟨rfl, rfl, rfl, by simp, by simp, by simp, by simp [encode]⟩
  have hrun : ∃ front pieces, front ++ [] = line ∧
      Folded front (line.foldl foldStep {}) pieces := by
    refine @foldl_invariant _ _ foldStep
      (fun rest s => ∃ front pieces, front ++ rest = line ∧ Folded front s pieces) ?_ line _
      ⟨[], [], rfl, hstart⟩
    rintro c rest s ⟨front, pieces, hfront, h⟩
    obtain ⟨pieces', h'⟩ := h.step c
    exact ⟨front ++ [c], pieces', by simpa using hfront, h'⟩
  obtain ⟨front, pieces, hfront, h⟩ := hrun
  rw [List.append_nil] at hfront
  subst hfront
  have hfold : fold front = padded ' ' (pieces ++ [(front.foldl foldStep {}).current]) := by
    rw [padded_concat, ← h.lead, ← h.chunks]
    rfl
  constructor
  · have hflat : (pieces ++ [(front.foldl foldStep {}).current]).flatten = front := by
      simpa using h.text
    cases pieces with
    | nil => exact ⟨_, [], hfold, h.going hne, hflat⟩
    | cons piece pieces =>
        exact ⟨piece, _, hfold, h.nonempty piece List.mem_cons_self, hflat⟩
  · intro chunk hmem
    rw [fold] at hmem
    rcases List.mem_append.mp hmem with hmem | hmem
    · exact h.fits chunk hmem
    · rw [List.mem_singleton.mp hmem]
      exact h.currentFits

/-- A character whose octets hold a CR is the CR. -/
theorem eq_of_mem_utf8 {c : Char} (h : 13 ∈ Sha256.utf8 c) : c = '\r' := by
  have hn : c.toNat = 13 := by
    unfold Sha256.utf8 at h
    dsimp only at h
    split_ifs at h
    all_goals simp at h
    all_goals omega
  rw [← Char.ofNat_toNat c, hn]

/-- Octets are cut at the line breaks of the text. -/
theorem physicalLines_encode {lines : List (List Char)} (h : ∀ line ∈ lines, '\r' ∉ line) :
    physicalLines (encode (joined '\r' '\n' lines)) = lines.map encode := by
  have hoctets : encode (joined '\r' '\n' lines) = joined 13 10 (lines.map encode) := by
    induction lines with
    | nil => rfl
    | cons line lines ih =>
        rw [joined_cons, List.map_cons, joined_cons, encode_append,
          ← ih fun l hl => h l (List.mem_cons_of_mem _ hl)]
        rfl
  rw [hoctets, physicalLines, cut_joined]
  intro octets hmem hcr
  obtain ⟨line, hline, rfl⟩ := List.mem_map.mp hmem
  obtain ⟨c, hc, hutf⟩ := List.mem_flatMap.mp hcr
  exact h line hline (eq_of_mem_utf8 hutf ▸ hc)

/-! ## The lines of a calendar -/

/-- A line a folding keeps apart from the others: it has no CR and does not begin with a space. -/
def Clean (line : List Char) : Prop := line ≠ [] ∧ '\r' ∉ line ∧ line.head? ≠ some ' '

instance (line : List Char) : Decidable (Clean line) := inferInstanceAs (Decidable (_ ∧ _ ∧ _))

/-- A property line is clean if its value has no CR. -/
theorem clean_append {name value : List Char} (hname : Clean name) (hvalue : '\r' ∉ value) :
    Clean (name ++ value) := by
  obtain ⟨c, name, rfl⟩ := List.exists_cons_of_ne_nil hname.1
  have hcr := hname.2.1
  have hhead := hname.2.2
  refine ⟨by simp, ?_, by simpa using hhead⟩
  rw [List.mem_append, not_or]
  exact ⟨hcr, hvalue⟩

theorem not_mem_oneNewline (s : List Char) : '\r' ∉ oneNewline s := by
  fun_induction oneNewline s with
  | case1 s ih => simpa using ih
  | case2 c s hpair ih =>
      rw [List.mem_cons, not_or]
      refine ⟨?_, ih⟩
      split_ifs with hc
      · decide
      · exact fun h => hc h.symm
  | case3 => simp

/-- No escaped text has a CR. -/
theorem not_mem_escape (s : List Char) : '\r' ∉ escape s := by
  rw [escape_eq, List.mem_flatMap]
  rintro ⟨c, hc, hmem⟩
  have hne : c ≠ '\r' := fun h => not_mem_oneNewline s (h ▸ hc)
  unfold escapeChar at hmem
  split_ifs at hmem
  all_goals simp [Ne.symm hne] at hmem

theorem not_mem_fixedDigits (k n : Nat) : '\r' ∉ Json.fixedDigits k n := by
  intro h
  obtain ⟨d, hd, heq⟩ := List.mem_map.mp h
  have hlt := Json.digitList_lt k n d hd
  interval_cases d
  all_goals revert heq; decide

theorem not_mem_compactUtc (host : Host) (t : Int) : '\r' ∉ compactUtc host t := by
  have hyear : ∀ c : Lib.Calendar.CivilDate, '\r' ∉ (if host.padsYears ∨ 1000 ≤ c.year then
      Json.fixedDigits 4 c.year.toNat else Json.natText c.year.toNat) := by
    intro c
    split_ifs
    · exact not_mem_fixedDigits _ _
    · exact not_mem_fixedDigits _ _
  simp only [compactUtc, List.mem_append, List.mem_cons, List.not_mem_nil, not_or]
  exact ⟨⟨⟨hyear _, not_mem_fixedDigits _ _⟩, not_mem_fixedDigits _ _⟩, by decide,
    ⟨⟨not_mem_fixedDigits _ _, not_mem_fixedDigits _ _⟩, not_mem_fixedDigits _ _⟩, by decide,
    not_false⟩

theorem not_mem_uidOf (host : Host) (item : Json) : '\r' ∉ uidOf host item := by
  rw [uidOf, List.mem_append, not_or]
  refine ⟨fun h => ?_, by decide⟩
  have hhex := Sha256.mem_hexdigest h
  revert hhex
  decide

/-- **Every line of an event is clean**, whatever the item's texts hold. -/
theorem clean_eventLines {host : Host} {dtstamp dtstart : List Char} (hstamp : '\r' ∉ dtstamp)
    (hstart : '\r' ∉ dtstart) (item : Json) :
    ∀ line ∈ eventLines host dtstamp dtstart item, Clean line := by
  have hsummary : '\r' ∉ escape (fieldText host item "home_team" "Home") ++ " vs ".toList ++
      escape (fieldText host item "away_team" "Away") := by
    simp only [List.mem_append, not_or]
    exact ⟨⟨not_mem_escape _, by decide⟩, not_mem_escape _⟩
  simp only [eventLines, List.forall_mem_cons, List.not_mem_nil, false_implies, implies_true,
    and_true]
  exact ⟨by decide, clean_append (by decide) (not_mem_uidOf host item),
    clean_append (by decide) hstamp, clean_append (by decide) hstart,
    clean_append (by decide) hsummary, clean_append (by decide) (not_mem_escape _), by decide⟩

theorem intercalate_eq_joined {lines : List (List Char)} (hne : lines ≠ []) :
    List.intercalate ['\r', '\n'] lines ++ ['\r', '\n'] = joined '\r' '\n' lines := by
  induction lines with
  | nil => exact absurd rfl hne
  | cons line lines ih =>
      cases lines with
      | nil => simp [joined]
      | cons next lines =>
          rw [joined_cons, ← ih (by simp)]
          simp [List.intercalate]

/-- **A reader's content lines are the logical lines**, one by one. -/
theorem contentLines_folded {lines : List (List Char)} (h : ∀ line ∈ lines, Clean line) :
    contentLines (joined '\r' '\n' (lines.flatMap fold)) = lines := by
  rw [contentLines, unfold_joined (by decide) (fun line hl => (fold_spec (h line hl).1).1)
    fun line hl => (h line hl).2]
  exact cut_joined fun line hl => (h line hl).2.1

/-! ## Reading the events back -/

/-- Whether an item is exported. -/
def exportable (host : Host) (item : Json) : Bool :=
  (isExportable host item).toOption.getD false

/-- The start an exported item is given. -/
def startOf (host : Host) (item : Json) : List Char :=
  ((utc host ((exactKickoff item).getD "")).toOption.join).getD []

/-- The stamp of a calendar's events. -/
def stampText (host : Host) (now : Int) (generatedAtUtc : String) : List Char :=
  ((utc host generatedAtUtc).toOption.join).getD (compactUtc host now)

/-- What a reader should see of an item. -/
def eventOf (host : Host) (dtstamp : List Char) (item : Json) : Event where
  uid := uidOf host item
  stamp := dtstamp
  start := startOf host item
  summary := oneNewline (fieldText host item "home_team" "Home") ++ " vs ".toList ++
    oneNewline (fieldText host item "away_team" "Away")
  description := oneNewline (description host item)

theorem takeWhile_name {name : List Char} (h : ':' ∉ name) (value : List Char) :
    (name ++ ':' :: value).takeWhile (fun c => decide (c ≠ ':')) = name := by
  have hall : ∀ c ∈ name, decide (c ≠ ':') = true := fun c hc =>
    decide_eq_true fun heq => h (heq ▸ hc)
  rw [List.takeWhile_append_of_pos hall]
  simp

theorem dropWhile_name {name : List Char} (h : ':' ∉ name) (value : List Char) :
    (name ++ ':' :: value).dropWhile (fun c => decide (c ≠ ':')) = ':' :: value := by
  have hall : ∀ c ∈ name, decide (c ≠ ':') = true := fun c hc =>
    decide_eq_true fun heq => h (heq ▸ hc)
  rw [List.dropWhile_append_of_pos hall]
  simp

theorem unescape_escape (s : List Char) : unescape (escape s) = oneNewline s := by
  have h := unescape_flatMap (oneNewline s) []
  rwa [List.append_nil, ← escape_eq, unescape, List.append_nil] at h

/-- A property line of an open event is added to it. -/
theorem readLine_property (done : List Event) (event : Event) {label : List Char} (name : String)
    (value : List Char) (hlabel : label = name.toList ++ [':']) (hcolon : ':' ∉ name.toList)
    (hname : name ≠ "END") :
    readLine ⟨done, some event⟩ (label ++ value) = ⟨done, some (event.put name value)⟩ := by
  have hline : label ++ value = name.toList ++ ':' :: value := by
    rw [hlabel, List.append_assoc]
    rfl
  have hend : label ++ value ≠ "END:VEVENT".toList := by
    intro heq
    have htake := congrArg (List.takeWhile fun c => decide (c ≠ ':')) (hline.symm.trans heq)
    rw [takeWhile_name hcolon] at htake
    exact hname (String.toList_injective (htake.trans (by decide)))
  rw [readLine]
  simp only
  rw [if_neg hend, Event.withLine, hline, takeWhile_name hcolon, dropWhile_name hcolon,
    String.ofList_toList]
  rfl

/-- **The lines of an event are read as that event.** -/
theorem readLine_eventLines (host : Host) (dtstamp dtstart : List Char) (item : Json)
    (done : List Event) :
    (eventLines host dtstamp dtstart item).foldl readLine ⟨done, none⟩ =
      ⟨done ++ [{ eventOf host dtstamp item with start := dtstart }], none⟩ := by
  have hsummary : unescape (escape (fieldText host item "home_team" "Home") ++ " vs ".toList ++
      escape (fieldText host item "away_team" "Away")) = (eventOf host dtstamp item).summary := by
    have hplain : " vs ".toList = " vs ".toList.flatMap escapeChar := by decide
    rw [escape_eq, escape_eq, hplain, ← List.flatMap_append, ← List.flatMap_append,
      ← List.append_nil (List.flatMap _ _), unescape_flatMap, unescape, List.append_nil]
    rfl
  have hdescription : unescape (escape (description host item)) =
      (eventOf host dtstamp item).description := unescape_escape _
  have hbegin : readLine ⟨done, none⟩ "BEGIN:VEVENT".toList = ⟨done, some {}⟩ := by
    simp [readLine]
  have hfinish : ∀ event, readLine ⟨done, some event⟩ "END:VEVENT".toList =
      ⟨done ++ [event], none⟩ := fun event => by
    simp [readLine]
  simp only [eventLines, List.foldl_cons, List.foldl_nil, hbegin]
  rw [readLine_property done _ "UID" _ (by decide) (by decide) (by decide),
    readLine_property done _ "DTSTAMP" _ (by decide) (by decide) (by decide),
    readLine_property done _ "DTSTART" _ (by decide) (by decide) (by decide),
    readLine_property done _ "SUMMARY" _ (by decide) (by decide) (by decide),
    readLine_property done _ "DESCRIPTION" _ (by decide) (by decide) (by decide), hfinish]
  simp only [Event.put, hsummary, hdescription]
  rfl

theorem readEvents_events (host : Host) (dtstamp : List Char) (items : List Json)
    (done : List Event) :
    (items.flatMap fun item => eventLines host dtstamp (startOf host item) item).foldl readLine
      ⟨done, none⟩ = ⟨done ++ items.map (eventOf host dtstamp), none⟩ := by
  induction items generalizing done with
  | nil => simp
  | cons item items ih =>
      rw [List.flatMap_cons, List.foldl_append, readLine_eventLines, ih, List.map_cons,
        List.append_assoc]
      rfl

/-! ## Building the calendar -/

/-- A timestamp whose instant has a date within years 1 to 9999. -/
def InRange (host : Host) (value : String) : Prop :=
  match stampOf host value with
  | some (.aware wall offset) => WritableInstant (wall - offset)
  | _ => True

instance (host : Host) (value : String) : Decidable (InRange host value) := by
  unfold InRange
  split <;> infer_instance

theorem utc_ok {host : Host} {value : String} (h : InRange host value) :
    ∃ text, utc host value = .ok text := by
  unfold InRange at h
  unfold utc
  cases hstamp : stampOf host value with
  | none => exact ⟨none, rfl⟩
  | some stamp =>
      rw [hstamp] at h
      cases stamp with
      | aware wall offset => exact ⟨_, if_pos h⟩
      | _ => exact ⟨none, rfl⟩

theorem not_mem_utc {host : Host} {value : String} {text : List Char}
    (h : utc host value = .ok (some text)) : '\r' ∉ text := by
  unfold utc at h
  split at h
  · split_ifs at h
    simp only [Except.ok.injEq, Option.some.injEq] at h
    rw [← h]
    exact not_mem_compactUtc host _
  · simp at h

/-- The lines an item adds. -/
theorem itemLines_eq {host : Host} {item : Json} (dtstamp : List Char)
    (h : ∀ kickoff, exactKickoff item = some kickoff → InRange host kickoff) :
    itemLines host dtstamp item =
      .ok (if exportable host item then eventLines host dtstamp (startOf host item) item
        else []) := by
  cases hexact : exactKickoff item with
  | none =>
      simp [itemLines, isExportable, exportable, hexact, bind, Except.bind, Except.toOption, pure,
        Except.pure]
  | some kickoff =>
      obtain ⟨start, hstart⟩ := utc_ok (h kickoff hexact)
      have hexportable : isExportable host item =
          .ok (start.isSome && (stable item).any Json.truthy) := by
        simp [isExportable, hexact, hstart, bind, Except.bind, pure, Except.pure]
      have hok : exportable host item = (start.isSome && (stable item).any Json.truthy) := by
        rw [exportable, hexportable]
        rfl
      rw [itemLines, hexportable, hok]
      simp only [bind, Except.bind, pure, Except.pure]
      split_ifs
      · simp [startOf, hexact, hstart, Except.toOption]
      · rfl

theorem not_mem_startOf (host : Host) (item : Json) : '\r' ∉ startOf host item := by
  unfold startOf
  cases h : utc host ((exactKickoff item).getD "") with
  | error e => simp [Except.toOption]
  | ok text =>
      cases text with
      | none => simp [Except.toOption]
      | some text => exact not_mem_utc h

theorem not_mem_stampText (host : Host) (now : Int) (generatedAtUtc : String) :
    '\r' ∉ stampText host now generatedAtUtc := by
  unfold stampText
  cases h : utc host generatedAtUtc with
  | error e => exact not_mem_compactUtc host now
  | ok text =>
      cases text with
      | none => exact not_mem_compactUtc host now
      | some text => exact not_mem_utc h

/-- The lines of the exportable items' events, in order. -/
def allLines (host : Host) (dtstamp : List Char) (items : List Json) : List (List Char) :=
  headerLines ++ ((items.filter (exportable host)).flatMap fun item =>
    eventLines host dtstamp (startOf host item) item) ++ ["END:VCALENDAR".toList]

/-- **The lines gathered are those of the exportable items**, between the header and the end. -/
theorem calendarLines_eq {host : Host} {items : List Json} {generatedAtUtc : String} (now : Int)
    (hgenerated : InRange host generatedAtUtc)
    (hitems : ∀ item ∈ items, ∀ kickoff, exactKickoff item = some kickoff →
      InRange host kickoff) :
    calendarLines host now items generatedAtUtc =
      .ok (allLines host (stampText host now generatedAtUtc) items) := by
  obtain ⟨stamp, hstamp⟩ := utc_ok hgenerated
  have htext : stamp.getD (compactUtc host now) = stampText host now generatedAtUtc := by
    simp [stampText, hstamp, Except.toOption]
  have hevents : items.mapM (itemLines host (stampText host now generatedAtUtc)) =
      .ok (items.map fun item => if exportable host item then
        eventLines host (stampText host now generatedAtUtc) (startOf host item) item else []) := by
    rw [mapM_eq_ok_iff, List.forall₂_map_right_iff, List.forall₂_same]
    exact fun item hmem => itemLines_eq _ (hitems item hmem)
  have hflat : ∀ (f : Json → List (List Char)) (l : List Json),
      (l.map fun item => if exportable host item then f item else []).flatten =
        (l.filter (exportable host)).flatMap f := by
    intro f l
    induction l with
    | nil => rfl
    | cons item l ih =>
        by_cases hitem : exportable host item
        all_goals simp_all
  simp [calendarLines, hstamp, htext, hevents, bind, Except.bind, pure, Except.pure, hflat,
    allLines]

theorem clean_allLines (host : Host) (now : Int) (items : List Json) (generatedAtUtc : String) :
    ∀ line ∈ allLines host (stampText host now generatedAtUtc) items, Clean line := by
  have hconst : ∀ line ∈ headerLines ++ ["END:VCALENDAR".toList], Clean line := by decide
  intro line hmem
  simp only [allLines, List.mem_append] at hmem
  rcases hmem with (hmem | hmem) | hmem
  · exact hconst line (List.mem_append_left _ hmem)
  · obtain ⟨item, -, hline⟩ := List.mem_flatMap.mp hmem
    exact clean_eventLines (not_mem_stampText host now generatedAtUtc) (not_mem_startOf host item)
      item line hline
  · exact hconst line (List.mem_append_right _ hmem)

/-- **The exported calendar, read back.** For followed items whose kickoffs have a date, and a clock
that has one, the content lines are the lines that were gathered, one by one; every physical line
has at most 75 octets and whole characters; and the events read are the exportable items' in order,
with the texts they had but for each line break, which is one newline. -/
theorem calendar_round_trip (host : Host) (now : Int) (items : List Json) (generatedAtUtc : String)
    (hgenerated : InRange host generatedAtUtc)
    (hitems : ∀ item ∈ items, ∀ kickoff, exactKickoff item = some kickoff →
      InRange host kickoff) :
    ∃ lines text, calendarLines host now items generatedAtUtc = .ok lines ∧
      buildCalendar host now items generatedAtUtc = .ok text ∧
      contentLines text = lines ∧
      lines = allLines host (stampText host now generatedAtUtc) items ∧
      (∀ octets ∈ physicalLines (encode text),
        octets.length ≤ 75 ∧ ∃ characters, octets = encode characters) ∧
      readEvents (contentLines text) = (items.filter (exportable host)).map
        (eventOf host (stampText host now generatedAtUtc)) := by
  have hlines := calendarLines_eq now hgenerated hitems
  have hclean := clean_allLines host now items generatedAtUtc
  have hchunks : ∀ chunk ∈ (allLines host (stampText host now generatedAtUtc) items).flatMap fold,
      '\r' ∉ chunk ∧ (encode chunk).length ≤ limit := by
    intro chunk hmem
    obtain ⟨line, hline, hchunk⟩ := List.mem_flatMap.mp hmem
    obtain ⟨hne, hcr, -⟩ := hclean line hline
    obtain ⟨⟨piece, pieces, heq, -, hflat⟩, hfits⟩ := fold_spec hne
    refine ⟨fun hmem => hcr ?_, hfits chunk hchunk⟩
    rw [heq] at hchunk
    rw [← hflat, List.mem_flatten]
    rcases List.mem_cons.mp hchunk with rfl | hchunk
    · exact ⟨_, List.mem_cons_self, hmem⟩
    · obtain ⟨piece', hpiece, rfl⟩ := List.mem_map.mp hchunk
      exact ⟨piece', List.mem_cons_of_mem _ hpiece, by simpa using hmem⟩
  have hbuild : buildCalendar host now items generatedAtUtc =
      .ok (joined '\r' '\n'
        ((allLines host (stampText host now generatedAtUtc) items).flatMap fold)) := by
    rw [← intercalate_eq_joined]
    · simp [buildCalendar, hlines, bind, Except.bind, pure, Except.pure]
    · simp [allLines, headerLines, fold]
  refine ⟨_, _, hlines, hbuild, contentLines_folded hclean, rfl, ?_, ?_⟩
  · rw [physicalLines_encode fun chunk hmem => (hchunks chunk hmem).1]
    intro octets hmem
    obtain ⟨chunk, hchunk, rfl⟩ := List.mem_map.mp hmem
    exact ⟨(hchunks chunk hchunk).2, chunk, rfl⟩
  · have hheader : headerLines.foldl readLine {} = ⟨[], none⟩ := by
      simp [headerLines, readLine]
    rw [contentLines_folded hclean, readEvents, allLines, List.foldl_append, List.foldl_append,
      hheader, readEvents_events]
    simp [readLine]

/-- A host that reads ISO 8601 timestamps. -/
def isoHost : Host := ⟨fun _ => "", fun s => readStamp (String.ofList s), true⟩

/-- Two items, the first with an exact kickoff, line breaks, marks and an attempt at a line of its
own. -/
def hostileItems : List Json :=
  [Json.mk [("follow_id", .str "fm_1"), ("current", Json.mk [
      ("kickoff_precision", .str "exact"), ("kickoff_utc", .str "2026-08-15T14:00:00Z"),
      ("home_team", .str "A\r\nEND:VEVENT\\,;B"), ("away_team", .str "C\rD")])],
    Json.mk [("follow_id", .str "fm_2")]]

theorem hostileItems_inRange :
    ∀ item ∈ hostileItems, ∀ kickoff, exactKickoff item = some kickoff →
      InRange isoHost kickoff := by
  have hkickoffs : ∀ item ∈ hostileItems,
      (exactKickoff item).all fun kickoff => decide (InRange isoHost kickoff) := by
    decide +kernel
  intro item hmem kickoff hkickoff
  have hall := hkickoffs item hmem
  rw [hkickoff] at hall
  simpa using hall

theorem calendar_round_trip_hostile :
    ∃ text, buildCalendar isoHost 0 hostileItems "2026-08-01T00:00:00Z" = .ok text ∧
      (readEvents (contentLines text)).map Event.summary =
        ["A\nEND:VEVENT\\,;B vs C\nD".toList] := by
  obtain ⟨_, text, -, htext, -, -, -, hevents⟩ :=
    calendar_round_trip isoHost 0 hostileItems "2026-08-01T00:00:00Z" (by decide +kernel)
      hostileItems_inRange
  refine ⟨text, htext, ?_⟩
  rw [hevents]
  decide +kernel

end Golavo.CalendarExport
