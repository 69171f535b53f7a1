import Golavo.Ingest.TeamNames
import Golavo.Ingest.WorldCup
import Golavo.Lib.Scan

/-! # Reading a domestic season file

`parse_domestic_txt` reads a Football.TXT file line by line: a title, matchday and date headers, and
match lines with a clock in front and a result behind. The date, the clock and the matchday are carried
from line to line. A side ends at the first ` v `, the other one where two blanks and a digit open the
result, or at the end of the line. -/

namespace Golavo.Ingest.DomesticTxt

open Golavo.Lib (words failIf orFail)
open Golavo.Lib.Calendar (CivilDate civilOfDays daysOfCivil Writable)
open Golavo.Lib.Fields (getField)
open Golavo.Lib.Json (fixedDigits)
open Golavo.Lib.Scan (shortest splitlines)
open Golavo.Ingest.WorldCup (intOfDigits)

/-! ## Tables -/

/-- What a league's file is titled (`DOMESTIC_TXT_TITLES`). -/
def domesticTitles : List (String × String) :=
  [("en.1", "English Premier League"), ("es.1", "Spain Primera División"),
    ("de.1", "Deutsche Bundesliga"), ("it.1", "Italian Serie A"), ("fr.1", "French Ligue 1")]

/-- The competition and the country of a league (`LEAGUES`). -/
def leagues : List (String × String × String) :=
  [("en.1", "English Premier League", "England"), ("es.1", "La Liga", "Spain"),
    ("de.1", "Bundesliga", "Germany"), ("it.1", "Serie A", "Italy"), ("fr.1", "Ligue 1", "France")]

/-- The months of a date header (`_MONTH`). -/
def months : List (String × Nat) :=
  [("Jan", 1), ("Feb", 2), ("Mar", 3), ("Apr", 4), ("May", 5), ("Jun", 6), ("Jul", 7), ("Aug", 8),
    ("Sep", 9), ("Oct", 10), ("Nov", 11), ("Dec", 12)]

/-- The weekdays of a date header. -/
def weekdays : List String := ["Mon", "Tue", "Wed", "Thu", "Fri", "Sat", "Sun"]

/-- A pack season: `2026-27`. -/
structure Season where
  /-- The year it starts in. -/
  first : Nat
  /-- The last two digits of the year it ends in. -/
  last : Nat
  first_lt : first < 10000
  last_lt : last < 100
  deriving DecidableEq

/-- A season as a title prints it: `2026/27`. -/
def Season.text (season : Season) : List Char :=
  fixedDigits 4 season.first ++ '/' :: fixedDigits 2 season.last

/-- Why a file cannot be read; the lines count from 1. -/
inductive TextError where
  /-- `unsupported domestic league code` -/
  | league
  /-- `domestic Football.TXT title does not match` -/
  | title (line : Nat)
  /-- `match appears before a date header` -/
  | dateless (line : Nat)
  /-- `unsupported domestic Football.TXT match syntax` -/
  | unreadable (line : Nat)
  /-- `Football.TXT half-time score exceeds the match score` -/
  | halfTime
  /-- `domestic Football.TXT file has no competition title` -/
  | untitled
  /-- `pd.Timestamp` refuses the date. -/
  | date
  /-- A number does not fit its column. -/
  | range
  deriving DecidableEq, Repr

variable (u : Unicode)

/-- `str.rstrip`. -/
def rstrip (s : List Char) : List Char := s.rdropWhile u.isSpace

/-! ## Headers -/

/-- `\d{4}/\d{2}` -/
def isSeason : List Char → Bool
  | [a, b, c, d, slash, e, f] => [a, b, c, d, e, f].all u.isDecimal && slash == '/'
  | _ => false

/-- What stands between a title and the end of its line. -/
def endsTitle (s : List Char) : Bool :=
  s.head?.any u.isSpace && isSeason u (s.dropWhile u.isSpace)

/-- The title and the season of a title line (`_TITLE`). -/
def readTitle : List Char → Option (List Char × List Char)
  | '=' :: rest =>
      let blanks := rest.takeWhile u.isSpace
      let text := rest.dropWhile u.isSpace
      match blanks.reverse with
      | [] => none
      | _ :: before =>
          match before with
          -- of three blanks or more the last but one is the title when no other text is there
          | blank :: _ :: _ =>
              if isSeason u text then some ([blank], text) else titleOf text
          | _ => titleOf text
  | _ => none
where
  /-- A title that starts a text. -/
  titleOf (text : List Char) : Option (List Char × List Char) :=
    (shortest (endsTitle u) text).map fun (title, rest) => (title, rest.dropWhile u.isSpace)

/-- The matchday of a matchday header (`_MATCHDAY`). -/
def readMatchday (line : List Char) : Option Nat :=
  match words u.isSpace line with
  | [mark, name, number] =>
      if mark = ['▪'] ∧ name = "Matchday".toList ∧ number.all u.isDecimal then
        some (intOfDigits u number)
      else none
  | _ => none

/-- The month, the day and the year of a date header, from its words (`_DATE`). -/
def readDate (weekday month day : List Char) (year : Option (List Char)) :
    Option (Nat × Nat × Option Nat) :=
  if String.ofList weekday ∈ weekdays ∧ (day.length = 1 ∨ day.length = 2) ∧ day.all u.isDecimal ∧
      ∀ y ∈ year, y.length = 4 ∧ y.all u.isDecimal then
    (getField (String.ofList month) months).map fun month =>
      (month, intOfDigits u day, year.map (intOfDigits u))
  else none

/-- What a date header says. -/
def readDateLine (line : List Char) : Option (Nat × Nat × Option Nat) :=
  match words u.isSpace line with
  | [weekday, month, day] => readDate u weekday month day none
  | [weekday, month, day, year] => readDate u weekday month day (some year)
  | _ => none

/-- The year of a month that is printed without one. -/
def Season.yearOf (season : Season) (month : Nat) : Nat :=
  if 7 ≤ month then season.first else season.first + 1

/-- The day a date header names (`_date`). -/
def dateOf (season : Season) (month day : Nat) (year : Option Nat) : Except TextError Int :=
  let civil : CivilDate := ⟨year.getD (season.yearOf month), month, day⟩
  if civilOfDays (daysOfCivil civil) = civil ∧ Writable (daysOfCivil civil) then
    pure (daysOfCivil civil)
  else throw .date

/-! ## Match lines -/

/-- `\d{1,2}:\d{2}` -/
def isClock (s : List Char) : Bool :=
  match s with
  | [a, colon, c, d] => u.isDecimal a && colon == ':' && u.isDecimal c && u.isDecimal d
  | [a, b, colon, c, d] => [a, b, c, d].all u.isDecimal && colon == ':'
  | _ => false

/-- The clock in front of a match and what follows it (`_CLOCK`). -/
def readClock (content : List Char) : Option (List Char × List Char) :=
  let clock := content.takeWhile fun c => !u.isSpace c
  let rest := (content.dropWhile fun c => !u.isSpace c).dropWhile u.isSpace
  if isClock u clock ∧ rest ≠ [] then some (clock, rest) else none

/-- Where a home side may end: `\s+v\s`. -/
def separates (s : List Char) : Bool :=
  match s.dropWhile u.isSpace with
  | 'v' :: c :: _ => s.head?.any u.isSpace && u.isSpace c
  | _ => false

/-- Where an away side may end: at the end of the line or at `\s{2,}\d`. -/
def endsAway (s : List Char) : Bool :=
  s.isEmpty ||
    decide (2 ≤ (s.takeWhile u.isSpace).length) && (s.dropWhile u.isSpace).head?.any u.isDecimal

/-- What follows a separator. -/
def behindSeparator (s : List Char) : List Char :=
  ((s.dropWhile u.isSpace).drop 1).dropWhile u.isSpace

/-- The sides of a match and its result (`_TEAMS`). -/
def readSides (content : List Char) : Option (List Char × List Char × List Char) := do
  let (home, rest) ← shortest (separates u) content
  let (away, rest) ← shortest (endsAway u) (behindSeparator u rest)
  some (home, away, rest.dropWhile u.isSpace)

/-- The score a text starts with (`_SCORE.match`). -/
def scoreAt (s : List Char) : Option (Nat × Nat) :=
  let home := s.takeWhile u.isDecimal
  match s.dropWhile u.isDecimal with
  | '-' :: rest =>
      let away := rest.takeWhile u.isDecimal
      if home ≠ [] ∧ away ≠ [] then some (intOfDigits u home, intOfDigits u away) else none
  | _ => none

/-- The characters of the score a text starts with. -/
def scoreLength (s : List Char) : Nat :=
  (s.takeWhile u.isDecimal).length + 1 +
    (((s.dropWhile u.isDecimal).drop 1).takeWhile u.isDecimal).length

/-- The scores that stand in a text one after the other, none inside a longer number
(`_SCORE.finditer`); the first characters are passed over. -/
def scoresFrom : Nat → List Char → List (Nat × Nat)
  | _, [] => []
  | passed + 1, _ :: s => scoresFrom passed s
  | 0, c :: s =>
      if u.isDecimal c then
        match scoreAt u (c :: s) with
        | some score => score :: scoresFrom (scoreLength u (c :: s) - 1) s
        | none => scoresFrom (s.takeWhile u.isDecimal).length s
      else scoresFrom 0 s

/-- Whether a text is blank but for a note in brackets. -/
def isNote (s : List Char) : Bool :=
  match s.dropWhile u.isSpace with
  | [] => true
  | '[' :: rest =>
      match rest.dropWhile fun c => c ≠ ']' with
      | _ :: after => !(rest.takeWhile fun c => c ≠ ']').isEmpty && after.all u.isSpace
      | [] => false
  | _ => false

/-- The body of the parenthesis that ends a result but for a note (`_PARENTHETICAL`). -/
def parenthetical : List Char → Option (List Char)
  | [] => none
  | c :: s =>
      let inside : Char → Bool := fun d => d ≠ '(' && d ≠ ')'
      match s.dropWhile inside with
      | ')' :: rest => if c = '(' ∧ isNote u rest then some (s.takeWhile inside) else parenthetical s
      | _ => parenthetical s

/-- The half-time score of a result (`_half_time`). -/
def halfTime (result : List Char) (fullTime : Option (Nat × Nat)) :
    Except TextError (Option (Nat × Nat)) :=
  match fullTime with
  | none => pure none
  | some full =>
      match (parenthetical u result).bind fun body => (scoresFrom u 0 body).getLast? with
      | none => pure none
      | some half => if full.1 < half.1 ∨ full.2 < half.2 then throw .halfTime else pure (some half)

/-! ## The file -/

/-- What is carried from line to line. -/
structure Carried where
  date : Option Int := none
  clock : Option (List Char) := none
  matchday : Option Nat := none
  titleSeen : Bool := false
  deriving DecidableEq, Repr

/-- A match that was read. -/
structure MatchRow where
  date : Int
  localTime : Option (List Char)
  matchday : Option Nat
  homeTeam : List Char
  awayTeam : List Char
  fullTime : Option (Nat × Nat)
  halfTime : Option (Nat × Nat)
  tournament : String
  country : String
  deriving DecidableEq, Repr

/-- A league's title, competition and country. -/
structure League where
  code : String
  title : String
  competition : String
  country : String
  deriving DecidableEq, Repr

/-- The league of a code. -/
def leagueOf (code : String) : Option League := do
  let title ← getField code domesticTitles
  let (competition, country) ← getField code leagues
  some ⟨code, title, competition, country⟩

/-- The text of a match line without its clock, and the clock that stands over it. -/
def contentOf (carried : Option (List Char)) (line : List Char) :
    Option (List Char) × List Char :=
  match readClock u (u.strip line) with
  | some (clock, rest) => (some clock, rest)
  | none => (carried, u.strip line)

/-- The two sides and the result, with no side that starts with a score. -/
def matchSides (number : Nat) (content : List Char) :
    Except TextError (List Char × List Char × List Char) :=
  match readSides u content with
  | none => throw (.unreadable number)
  | some (home, away, result) =>
      let home := u.strip home
      let away := u.strip away
      if home = [] ∨ away = [] ∨ (scoreAt u away).isSome ∨ (scoreAt u home).isSome then
        throw (.unreadable number)
      else pure (home, away, u.strip result)

/-- Read a match line. -/
def readMatch (league : League) (carried : Carried) (number : Nat) (line : List Char) :
    Except TextError (Carried × MatchRow) := do
  let date ← orFail (.dateless number) carried.date
  let timed := contentOf u carried.clock line
  let (home, away, result) ← matchSides u number timed.2
  let fullTime := scoreAt u result
  let halfTime ← halfTime u result fullTime
  pure ({ carried with clock := timed.1 },
    { date, localTime := timed.1, matchday := carried.matchday,
      homeTeam := canonicalName u league.code home, awayTeam := canonicalName u league.code away,
      fullTime, halfTime, tournament := league.competition, country := league.country })

/-- Read a header line that is no title. -/
def readHeader (season : Season) (carried : Carried) (line : List Char) :
    Option (Except TextError Carried) :=
  match readMatchday u line with
  | some matchday => some (pure { carried with date := none, clock := none, matchday := some matchday })
  | none =>
      (readDateLine u line).map fun (month, day, year) => do
        let date ← dateOf season month day year
        pure { carried with date := some date, clock := none }

/-- A line that is passed over: empty or a comment. -/
def isSkipped (line : List Char) : Bool :=
  line.isEmpty || (line.dropWhile u.isSpace).head? == some '#'

/-- A line that is read for a match once it is no header: it holds a ` v `. -/
def holdsSeparator (line : List Char) : Bool := decide ([' ', 'v', ' '] <:+: line)

/-- Read one line. -/
def readLine (league : League) (season : Season) (carried : Carried) (number : Nat)
    (line : List Char) : Except TextError (Carried × Option MatchRow) :=
  if isSkipped u line then pure (carried, none)
  else
    match readTitle u line with
    | some title =>
        if title = (league.title.toList, season.text) then
          pure ({ carried with titleSeen := true }, none)
        else throw (.title number)
    | none =>
        match readHeader u season carried line with
        | some header => do pure (← header, none)
        | none =>
            if holdsSeparator line then do
              let (carried, row) ← readMatch u league carried number line
              pure (carried, some row)
            else pure (carried, none)

/-- Read the lines of a file from a number on. -/
def readLines (league : League) (season : Season) :
    Carried → Nat → List (List Char) → Except TextError (Carried × List MatchRow)
  | carried, _, [] => pure (carried, [])
  | carried, number, line :: lines => do
      let (carried, row) ← readLine u league season carried number (rstrip u line)
      let (carried, rows) ← readLines league season carried (number + 1) lines
      pure (carried, row.toList ++ rows)

/-- What fits an `Int16` column. -/
def fits (n : Nat) : Prop := n < 32768

instance (n : Nat) : Decidable (fits n) := inferInstanceAs (Decidable (_ < _))

/-- The numbers of a row fit their columns. -/
def MatchRow.Fits (row : MatchRow) : Prop :=
  (∀ n ∈ row.matchday, fits n) ∧ (∀ s ∈ row.fullTime, fits s.1 ∧ fits s.2) ∧
    ∀ s ∈ row.halfTime, fits s.1 ∧ fits s.2

instance (row : MatchRow) : Decidable row.Fits := inferInstanceAs (Decidable (_ ∧ _ ∧ _))

/-- Read a season file (`parse_domestic_txt`). -/
def parseDomesticTxt (text : List Char) (season : Season) (code : String) :
    Except TextError (List MatchRow) := do
  let league ← orFail .league (leagueOf code)
  let (carried, rows) ← readLines u league season {} 1 (splitlines text)
  failIf (!carried.titleSeen) .untitled
  failIf (!decide (∀ row ∈ rows, row.Fits)) .range
  pure rows

end Golavo.Ingest.DomesticTxt
