import Golavo.Clock
import Golavo.Lib.Folding
import Golavo.Lib.Json
import Golavo.Lib.Sha256

/-! # Exporting followed fixtures as a calendar

`calendar_export`: one event for each followed item whose kickoff is exact, as iCalendar text whose
lines are escaped and folded by UTF-8 octets. -/

namespace Golavo.CalendarExport

open Golavo.Lib Folding

/-! ## Escaping and folding -/

/-- `_escape` of a text. -/
def escape (s : List Char) : List Char :=
  replaceAll ['\r'] ['\\', 'n'] (replaceAll ['\n'] ['\\', 'n']
    (replaceAll ['\r', '\n'] ['\\', 'n'] (replaceAll [','] ['\\', ',']
      (replaceAll [';'] ['\\', ';'] (replaceAll ['\\'] ['\\', '\\'] s)))))

/-- The UTF-8 octets of a text. -/
def encode (s : List Char) : List Nat := s.flatMap Sha256.utf8

/-- The octets a physical line may have. -/
def limit : Nat := 75

/-- Where the loop of `_fold` stands: the lines done, what the next line begins with, and the part
of it read so far. -/
structure FoldState where
  chunks : List (List Char) := []
  lead : List Char := []
  current : List Char := []

/-- One round of the loop of `_fold`. -/
def foldStep (s : FoldState) (character : Char) : FoldState :=
  let candidate := s.current ++ [character]
  if limit < (encode (s.lead ++ candidate)).length ∧ s.current ≠ [] then
    ⟨s.chunks ++ [s.lead ++ s.current], [' '], [character]⟩
  else { s with current := candidate }

/-- The physical lines of a line (`_fold`). -/
def fold (line : List Char) : List (List Char) :=
  let s := line.foldl foldStep {}
  s.chunks ++ [s.lead ++ s.current]

/-! ## Instants -/

/-- What the host decides: the text of a value that is none, the reading of timestamps, and whether
years before 1000 are written with four digits. -/
structure Host where
  /-- `str` of a value that is no text. -/
  str : Json → String
  /-- `datetime.fromisoformat`. -/
  fromIso : List Char → Option Stamp
  /-- Whether `%Y` pads with zeros. -/
  padsYears : Bool

/-- `strftime("%Y%m%dT%H%M%SZ")` of an instant. -/
def compactUtc (host : Host) (t : Int) : List Char :=
  let c := Calendar.civilOfDays (utcDay t)
  let seconds := (t % dayNs / secondNs).toNat
  let year := if host.padsYears ∨ 1000 ≤ c.year then Json.fixedDigits 4 c.year.toNat
    else Json.natText c.year.toNat
  year ++ Json.fixedDigits 2 c.month.toNat ++ Json.fixedDigits 2 c.day.toNat ++
    'T' :: (Json.fixedDigits 2 (seconds / 3600) ++ Json.fixedDigits 2 (seconds / 60 % 60) ++
      Json.fixedDigits 2 (seconds % 60) ++ ['Z'])

/-- An instant that has no date within years 1 to 9999: `astimezone` overflows. -/
inductive CalendarError where
  | overflow
  deriving DecidableEq, Repr

/-- The stamp of a timestamp, with `Z` read as an offset. -/
def stampOf (host : Host) (value : String) : Option Stamp :=
  host.fromIso (replaceAll ['Z'] "+00:00".toList value.toList)

/-- `_utc`: the compact form of a timestamp with an offset. -/
def utc (host : Host) (value : String) : Except CalendarError (Option (List Char)) :=
  match stampOf host value with
  | some (.aware wall offset) =>
      if WritableInstant (wall - offset) then .ok (some (compactUtc host (wall - offset)))
      else .error .overflow
  | _ => .ok none

/-! ## Items -/

/-- `str` of a value. -/
def textOf (host : Host) : Json → String
  | .str s => s
  | value => host.str value

/-- A value if it counts as true (`value or …`). -/
def orElse (value : Option Json) (fallback : Option Json) : Option Json :=
  if value.any Json.truthy then value else fallback

/-- The snapshot an item carries, or an empty one. -/
def current (item : Json) : Json :=
  match item.get "current" with
  | some (.obj fields) => .obj fields
  | _ => .obj []

/-- What identifies the item in the calendar. -/
def stable (item : Json) : Option Json :=
  orElse (item.get "follow_id") ((current item).get "match_id")

/-- Whether an item has a timestamp as its exact kickoff, and the timestamp. -/
def exactKickoff (item : Json) : Option String :=
  match (current item).get "kickoff_precision", (current item).get "kickoff_utc" with
  | some (.str "exact"), some (.str kickoff) => some kickoff
  | _, _ => none

/-- `is_exportable`. -/
def isExportable (host : Host) (item : Json) : Except CalendarError Bool :=
  match exactKickoff item with
  | some kickoff => do
      let start ← utc host kickoff
      return start.isSome && (stable item).any Json.truthy
  | none => .ok false

/-- The text of a field of the snapshot, or what stands for it (`current.get(key) or fallback`). -/
def fieldText (host : Host) (item : Json) (key fallback : String) : List Char :=
  match orElse ((current item).get key) none with
  | some value => (textOf host value).toList
  | none => fallback.toList

/-- The name of the calendar's event for an item. -/
def uidOf (host : Host) (item : Json) : List Char :=
  (Sha256.hexdigest (((stable item).map (textOf host)).getD "").toList).toList ++
    "@golavo.local".toList

/-- What the event says about the competition. -/
def description (host : Host) (item : Json) : List Char :=
  "Followed locally in Golavo. Competition: ".toList ++
    fieldText host item "competition" "Unknown" ++ ['.']

/-- The lines of an item's event. -/
def eventLines (host : Host) (dtstamp dtstart : List Char) (item : Json) : List (List Char) :=
  ["BEGIN:VEVENT".toList,
    "UID:".toList ++ uidOf host item,
    "DTSTAMP:".toList ++ dtstamp,
    "DTSTART:".toList ++ dtstart,
    "SUMMARY:".toList ++ (escape (fieldText host item "home_team" "Home") ++ " vs ".toList ++
      escape (fieldText host item "away_team" "Away")),
    "DESCRIPTION:".toList ++ escape (description host item),
    "END:VEVENT".toList]

/-- The lines an item adds: none if it is not exportable. -/
def itemLines (host : Host) (dtstamp : List Char) (item : Json) :
    Except CalendarError (List (List Char)) := do
  if ← isExportable host item then
    let dtstart ← utc host ((exactKickoff item).getD "")
    return eventLines host dtstamp (dtstart.getD []) item
  else return []

/-! ## The calendar -/

/-- The lines before the events. -/
def headerLines : List (List Char) :=
  ["BEGIN:VCALENDAR".toList, "VERSION:2.0".toList,
    "PRODID:-//Golavo//Followed matches//EN".toList, "CALSCALE:GREGORIAN".toList,
    "METHOD:PUBLISH".toList, "X-WR-CALNAME:Golavo followed matches".toList]

/-- The logical lines `build_calendar` gathers. -/
def calendarLines (host : Host) (now : Int) (items : List Json) (generatedAtUtc : String) :
    Except CalendarError (List (List Char)) := do
  let stamp ← utc host generatedAtUtc
  let dtstamp := stamp.getD (compactUtc host now)
  let events ← items.mapM (itemLines host dtstamp)
  return headerLines ++ events.flatten ++ ["END:VCALENDAR".toList]

/-- `build_calendar`. -/
def buildCalendar (host : Host) (now : Int) (items : List Json) (generatedAtUtc : String) :
    Except CalendarError (List Char) := do
  let lines ← calendarLines host now items generatedAtUtc
  return List.intercalate ['\r', '\n'] (lines.flatMap fold) ++ ['\r', '\n']

end Golavo.CalendarExport
