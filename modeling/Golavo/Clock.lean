import Golavo.Time
import Golavo.Lib.Calendar

/-! # Timestamps as text

How records carry instants and days: ISO 8601 text, read back through `_utc` (an offset required,
whole seconds kept), through the naive-as-UTC reader, or as the `YYYY-MM-DD` an instant's text starts
with. Texts of other ISO shapes than the program writes are read as malformed. -/

namespace Golavo

open Golavo.Lib

/-- An instant as its `Z` text. -/
def isoText (t : Int) : String := String.ofList (Calendar.isoUtc t)

/-- A day as its `YYYY-MM-DD` text. -/
def dayText (d : Int) : String := String.ofList (Calendar.isoDay d)

/-- Read a timestamp with or without an offset. -/
def readStamp (s : String) : Option Stamp :=
  (Calendar.readInstant s.toList).map fun p =>
    match p.2 with
    | some minutes => .aware p.1 (minutes * 60 * secondNs)
    | none => .naive p.1

/-- An instant whose text has a four-digit year. -/
def WritableInstant (t : Int) : Prop := Calendar.Writable (utcDay t)

instance (t : Int) : Decidable (WritableInstant t) :=
  inferInstanceAs (Decidable (Calendar.Writable _))

/-- `_utc`: the instant of a timestamp that must carry an offset, in whole seconds; an instant
before year 1 or after year 9999 overflows. -/
def parseUtc (s : String) : Option Int :=
  match readStamp s with
  | some (.aware wall offset) =>
      if WritableInstant (wall - offset) then some (wholeSeconds (wall - offset)) else none
  | _ => none

/-- The day of a text that is exactly `YYYY-MM-DD`. -/
def parseDay (s : String) : Option Int :=
  match Calendar.readDay s.toList with
  | some (day, []) => some day
  | _ => none

/-- The first ten characters of a timestamp: `kickoff_utc[:10]`. -/
def dayPrefix (s : String) : String := String.ofList (s.toList.take 10)

/-- Whole microseconds of an instant: what `Timestamp.to_pydatetime` keeps. -/
def wholeMicros (t : Int) : Int := t / 1000 * 1000

theorem wholeMicros_le (t : Int) : wholeMicros t ≤ t := by
  unfold wholeMicros
  omega

@[simp] theorem utcDay_wholeMicros (t : Int) : utcDay (wholeMicros t) = utcDay t := by
  unfold wholeMicros utcDay dayNs
  omega

@[simp] theorem utcDay_wholeSeconds (t : Int) : utcDay (wholeSeconds t) = utcDay t := by
  unfold wholeSeconds utcDay dayNs secondNs
  omega

/-- An instant's text starts with its UTC day's. -/
@[simp] theorem dayPrefix_isoText (t : Int) : dayPrefix (isoText t) = dayText (utcDay t) := by
  rw [dayPrefix, isoText, String.toList_ofList, Calendar.take_isoUtc]
  rfl

/-- A day's text is read back. -/
theorem parseDay_dayText {d : Int} (h : Calendar.Writable d) : parseDay (dayText d) = some d := by
  have hread := Calendar.readDay_isoDay h []
  rw [List.append_nil] at hread
  rw [parseDay, dayText, String.toList_ofList, hread]

/-- An instant's text is read back, to the microsecond. -/
theorem readStamp_isoText {t : Int} (h : WritableInstant t) :
    readStamp (isoText t) = some (.aware (wholeMicros t) 0) := by
  rw [readStamp, isoText, String.toList_ofList, Calendar.readInstant_isoUtc h]
  simp [wholeMicros]

/-- A whole second's text is read back by `_utc`. -/
theorem parseUtc_isoText {t : Int} (h : WritableInstant t) :
    parseUtc (isoText t) = some (wholeSeconds t) := by
  have hday : WritableInstant (wholeMicros t - 0) := by
    rw [sub_zero, WritableInstant, utcDay_wholeMicros]
    exact h
  rw [parseUtc, readStamp_isoText h]
  refine (if_pos hday).trans (congrArg some ?_)
  unfold wholeSeconds wholeMicros secondNs
  omega

/-- What `_utc` reads can be written again. -/
theorem writableInstant_of_parseUtc {s : String} {t : Int} (h : parseUtc s = some t) :
    WritableInstant t := by
  unfold parseUtc at h
  split at h
  · split_ifs at h with hday
    rw [← Option.some.inj h, WritableInstant, utcDay_wholeSeconds]
    exact hday
  · cases h

/-- The instants between two that can be written can be. -/
theorem WritableInstant.between {lo hi t : Int} (hlo : WritableInstant lo)
    (hhi : WritableInstant hi) (h₁ : lo ≤ t) (h₂ : t ≤ hi) : WritableInstant t := by
  unfold WritableInstant Calendar.Writable utcDay dayNs at *
  omega

/-- A `datetime64[ns]` instant can be written, and so can the instants up to a day before it. -/
theorem NanosecondInstant.writable {t : Int} (h : NanosecondInstant t) {back : Int}
    (h₀ : 0 ≤ back) (h₁ : back ≤ dayNs) : WritableInstant (t - back) := by
  unfold NanosecondInstant at h
  unfold WritableInstant Calendar.Writable utcDay
  unfold dayNs at *
  omega

end Golavo
