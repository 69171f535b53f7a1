import Golavo.Ingest.DomesticSides

/-! # The layout of a season file

Fixtures are printed under a title, matchday headers and date headers, one a line: a clock unless the one
above still holds, the two sides around a `v`, a score behind two blanks or more, a half-time score in a
parenthesis, and a note in brackets. Any number of blanks stands between the parts. -/

namespace Golavo.Ingest.DomesticTxt

open Golavo.Lib (words Trimmed)
open Golavo.Lib.Calendar (civilOfDays Writable)
open Golavo.Lib.Json (natText fixedDigits)
open Golavo.Lib.Scan (lineBreaks)

variable (u : Unicode)

/-! ## Fixtures -/

/-- A club's name as it is printed: single-spaced, without a lone `v`, a clock or an annotation. -/
structure Name where
  text : List Char
  ne_nil : text ≠ []
  trimmed : Trimmed u.isSpace text
  single : ∀ c d, [c, d] <:+: text → u.isSpace c = true → u.isSpace d = false
  noSeparator : ['v'] ∉ words u.isSpace text
  noClock : isClock u (text.takeWhile fun c => !u.isSpace c) = false
  noComment : text.head? ≠ some '#'
  noAnnotation : ¬ Annotated u text
  noBreak : ∀ c ∈ text, c ∉ lineBreaks

/-- A clock as it is printed: `20:00`. -/
structure Clock where
  text : List Char
  isClock : isClock u text = true

/-- A status note, without its brackets. -/
structure Note where
  text : List Char
  ne_nil : text ≠ []
  noBracket : ∀ c ∈ text, c ≠ '[' ∧ c ≠ ']'
  noBreak : ∀ c ∈ text, c ∉ lineBreaks

/-- A full-time score and the half-time score below it. -/
structure Score where
  home : Nat
  away : Nat
  half : Option (Nat × Nat)
  home_fits : fits home
  away_fits : fits away
  half_le : ∀ h ∈ half, h.1 ≤ home ∧ h.2 ≤ away

/-- A fixture. -/
structure Fixture where
  date : Int
  clock : Option (Clock u)
  matchday : Option Nat
  home : Name u
  away : Name u
  score : Option Score
  note : Option Note

variable {u}

/-- The row of a fixture. -/
def Fixture.row (league : League) (f : Fixture u) : MatchRow where
  date := f.date
  localTime := f.clock.map (·.text)
  matchday := f.matchday
  homeTeam := canonicalName u league.code f.home.text
  awayTeam := canonicalName u league.code f.away.text
  fullTime := f.score.map fun s => (s.home, s.away)
  halfTime := f.score.bind (·.half)
  tournament := league.competition
  country := league.country

/-- A note is printed behind a score. -/
def Fixture.NoteBehindScore (f : Fixture u) : Prop := f.note.isSome = true → f.score.isSome = true

/-! ## Lines -/

def spaces (n : Nat) : List Char := List.replicate n ' '

/-- `2-1` -/
def pairText (pair : Nat × Nat) : List Char := natText pair.1 ++ '-' :: natText pair.2

/-- How a fixture is printed: its parts, and how many blanks stand between them beyond the least. -/
structure Listing (u : Unicode) where
  indent : Nat
  clock : Option (Clock u)
  clockGap : Nat
  home : Name u
  homeGap : Nat
  awayGap : Nat
  away : Name u
  scoreGap : Nat
  score : Option Score
  halfGap : Nat
  noteGap : Nat
  note : Option Note

namespace Listing

variable (l : Listing u)

/-- `20:00` and the blanks behind it. -/
def clockText : List Char :=
  match l.clock with
  | none => []
  | some clock => clock.text ++ spaces (l.clockGap + 1)

/-- `(1-0)` and the blanks before it. -/
def halfText (half : Option (Nat × Nat)) : List Char :=
  match half with
  | none => []
  | some half => spaces (l.halfGap + 1) ++ '(' :: (pairText half ++ [')'])

/-- `[awarded]` and the blanks before it. -/
def noteText : List Char :=
  match l.note with
  | none => []
  | some note => spaces (l.noteGap + 1) ++ '[' :: (note.text ++ [']'])

/-- What is printed behind the sides. -/
def resultText : List Char :=
  match l.score with
  | none => l.noteText
  | some score =>
      spaces (l.scoreGap + 2) ++
        (pairText (score.home, score.away) ++ (l.halfText score.half ++ l.noteText))

/-- The sides and what is printed behind them. -/
def content : List Char :=
  l.home.text ++ (spaces (l.homeGap + 1) ++ 'v' :: (spaces (l.awayGap + 1) ++
    (l.away.text ++ l.resultText)))

/-- The line of a fixture. -/
def line : List Char := spaces (l.indent + 1) ++ (l.clockText ++ l.content)

/-- The fixture of a line under the headers and the clock above it. -/
def fixture (date : Int) (clock : Option (Clock u)) (matchday : Option Nat) : Fixture u where
  date := date
  clock := clock
  matchday := matchday
  home := l.home
  away := l.away
  score := l.score
  note := l.note

end Listing

/-! ## Files -/

/-- The month of a date header. -/
def monthText (month : Int) : List Char :=
  ((months.find? fun entry => entry.2 = month).map (·.1.toList)).getD []

/-- A day of the season: its second half falls in the year after. -/
def Season.Holds (season : Season) (date : Int) : Prop :=
  Writable date ∧
    (civilOfDays date).year = season.yearOf (civilOfDays date).month.toNat

/-- The words of a date header without a year. -/
def dayWords (weekday : String) (date : Int) : List (List Char) :=
  [weekday.toList, monthText (civilOfDays date).month, natText (civilOfDays date).day.toNat]

/-- A date header, with its year or without. -/
def IsDayLine (u : Unicode) (weekday : String) (date : Int) (line : List Char) : Prop :=
  words u.isSpace line = dayWords weekday date ∨
    words u.isSpace line =
      dayWords weekday date ++ [fixedDigits 4 (civilOfDays date).year.toNat]

/-- What stands over a line. -/
structure Standing (u : Unicode) where
  date : Option Int := none
  clock : Option (Clock u) := none
  matchday : Option Nat := none

/-- **A layout of fixtures**: lines that print them, under what stands over the first. -/
inductive Laid (season : Season) : Standing u → List (List Char) → List (Fixture u) → Prop
  | nil (standing : Standing u) : Laid season standing [] []
  | blank {standing lines fixtures} {line : List Char} (hwords : words u.isSpace line = [])
      (hbreak : ∀ c ∈ line, c ∉ lineBreaks) (hlines : Laid season standing lines fixtures) :
      Laid season standing (line :: lines) fixtures
  | comment {standing lines fixtures} {line : List Char} {text : List Char} {rest : List (List Char)}
      (hwords : words u.isSpace line = ('#' :: text) :: rest)
      (hbreak : ∀ c ∈ line, c ∉ lineBreaks) (hlines : Laid season standing lines fixtures) :
      Laid season standing (line :: lines) fixtures
  | matchday {standing lines fixtures} {line : List Char} {number : Nat} (hfits : fits number)
      (hwords : words u.isSpace line = [['▪'], "Matchday".toList, natText number])
      (hbreak : ∀ c ∈ line, c ∉ lineBreaks)
      (hlines : Laid season { matchday := some number } lines fixtures) :
      Laid season standing (line :: lines) fixtures
  | day {standing lines fixtures} {line : List Char} {weekday : String} {date : Int}
      (hweekday : weekday ∈ weekdays) (hdate : season.Holds date)
      (hwords : IsDayLine u weekday date line) (hbreak : ∀ c ∈ line, c ∉ lineBreaks)
      (hlines : Laid season { date := some date, matchday := standing.matchday } lines fixtures) :
      Laid season standing (line :: lines) fixtures
  | listing {standing lines fixtures} {date : Int} (l : Listing u) (hdate : standing.date = some date)
      (hlines : Laid season { standing with clock := l.clock.or standing.clock } lines fixtures) :
      Laid season standing (l.line :: lines)
        (l.fixture date (l.clock.or standing.clock) standing.matchday :: fixtures)

/-- The title line of a league's file. -/
def titleLine (league : League) (season : Season) (gap : Nat) (gap' : Nat) : List Char :=
  '=' :: (spaces (gap + 1) ++ (league.title.toList ++ (spaces (gap' + 1) ++ season.text)))

/-- The text of a file: its title and its lines. -/
def document (title : List Char) (lines : List (List Char)) : List Char :=
  (title :: lines).flatMap fun line => line ++ ['\n']

end Golavo.Ingest.DomesticTxt
