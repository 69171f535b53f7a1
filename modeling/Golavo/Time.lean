import Mathlib.Order.MinMax
import Mathlib.Tactic.Linarith

/-! # Instants, calendar days and timestamps

Every table of the program orders fixtures by an instant and names them by a calendar day. An
**instant** is an integer number of nanoseconds since 1970-01-01T00:00:00Z, a **day** an integer
number of days since 1970-01-01, and a **stamp** what a frame's cell holds: a wall clock with or
without an offset. -/

namespace Golavo

/-- One second, in nanoseconds. -/
def secondNs : Int := 1000000000

/-- One calendar day, in nanoseconds. -/
def dayNs : Int := 86400000000000

/-- `00:00:00` UTC of a calendar day: the instant a date-only source can honestly give. -/
def midnight (d : Int) : Int := d * dayNs

/-- The UTC calendar day an instant falls on: the `YYYY-MM-DD` its ISO form starts with. -/
def utcDay (t : Int) : Int := t / dayNs

@[simp] theorem utcDay_midnight (d : Int) : utcDay (midnight d) = d := by
  simp [utcDay, midnight, dayNs]

/-- An instant falls on `d` exactly between `d`'s midnight and the next one. -/
theorem utcDay_eq_iff {t : Int} {d : Int} :
    utcDay t = d ↔ midnight d ≤ t ∧ t < midnight (d + 1) := by
  unfold utcDay midnight dayNs
  omega

/-- Whole seconds of an instant: `datetime.replace(microsecond=0)`. -/
def wholeSeconds (t : Int) : Int := t / secondNs * secondNs

theorem wholeSeconds_le (t : Int) : wholeSeconds t ≤ t := by
  unfold wholeSeconds secondNs
  omega

/-- Dropping the fraction twice drops it once. -/
@[simp] theorem wholeSeconds_idem (t : Int) :
    wholeSeconds (wholeSeconds t) = wholeSeconds t := by
  unfold wholeSeconds secondNs
  omega

/-- An instant a frame's `datetime64[ns]` cell can hold. -/
def NanosecondInstant (t : Int) : Prop := -2 ^ 63 < t ∧ t < 2 ^ 63

/-- A timestamp cell: a wall clock that carries no zone, or one with a UTC offset. -/
inductive Stamp where
  /-- A naive wall clock. -/
  | naive (wall : Int)
  /-- A wall clock `offset` nanoseconds ahead of UTC. -/
  | aware (wall offset : Int)
  deriving DecidableEq, Repr

namespace Stamp

/-- Read a timestamp as UTC, treating a naive one as already UTC (`to_utc`). -/
def toUtc : Stamp → Int
  | .naive wall => wall
  | .aware wall offset => wall - offset

@[simp] theorem toUtc_naive (wall : Int) : (Stamp.naive wall).toUtc = wall := rfl

@[simp] theorem toUtc_aware (wall offset : Int) :
    (Stamp.aware wall offset).toUtc = wall - offset := rfl

end Stamp

end Golavo
