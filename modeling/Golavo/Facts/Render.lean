import Golavo.Lib.JsonText
import Mathlib.Data.Rat.Defs

/-! # Numbers as a fact states them

Every number of a fact is made through a **number bag**: the same entry gives the display that stands
in the text and the value, unit and display the fact declares. -/

namespace Golavo.Facts

open Golavo.Lib (Json Decimal)
open Golavo.Lib.Json (natText fixedDigits)

/-- How the host writes and rounds a rate: `f"{x:.{decimals}f}"` and `round(x, places)`. -/
structure Rendering where
  fixed : ℚ → Nat → String
  round : ℚ → Nat → Decimal

/-- A rate times a power of ten, rounded half to even. -/
def scaled (x : ℚ) (places : Nat) : Int :=
  Golavo.Lib.divRoundHalfEven (x.num * 10 ^ places) x.den

/-- The rendering of exact rates, for rates that are not negative. -/
def Rendering.exact : Rendering where
  fixed x places := String.ofList (natText ((scaled x places).toNat / 10 ^ places) ++
    '.' :: fixedDigits places ((scaled x places).toNat % 10 ^ places))
  round x places := .ofScaled (scaled x places) places

/-- The units of a number (`_UNITS`). -/
inductive NumberUnit where
  | percent
  | goals
  | count
  deriving DecidableEq, Repr

def NumberUnit.text : NumberUnit → String
  | .percent => "percent"
  | .goals => "goals"
  | .count => "count"

/-- A number a fact states. -/
structure FactNumber where
  key : String
  value : Json
  unit : NumberUnit
  display : String
  deriving DecidableEq

/-- Whether a text is an identifier, `[a-z][a-z0-9_]*`. -/
def isKey (key : String) : Bool :=
  match key.toList with
  | [] => false
  | x :: rest => x.isLower && rest.all fun y => y.isLower || y.isDigit || y = '_'

/-- Why a candidate or a fact is not made. -/
inductive FactError where
  /-- A number key is no identifier. -/
  | badKey (key : String)
  /-- A number key stands twice in one fact. -/
  | duplicateKey (key : String)
  /-- A completed match has no score. -/
  | blankScore
  /-- A fact has no date to be fresh by. -/
  | blankDate
  /-- A text states a number that is not declared. -/
  | undisciplined (id : String) (token : List Char) (declared : List String)
  deriving DecidableEq, Repr

/-! ## The bag -/

/-- The numbers stated so far, in the order they were added. -/
abbrev NumberBag := List FactNumber

/-- Add a number (`NumberBag._add`). -/
def NumberBag.add (bag : NumberBag) (number : FactNumber) : Except FactError NumberBag :=
  if !isKey number.key then .error (.badKey number.key)
  else if number.key ∈ bag.map (·.key) then .error (.duplicateKey number.key)
  else .ok (bag ++ [number])

/-- The items of a bag that was given several numbers in turn. -/
def NumberBag.items (numbers : List FactNumber) : Except FactError (List FactNumber) :=
  numbers.foldlM NumberBag.add []

/-- A plain whole count (`NumberBag.count`). -/
def countNumber (key : String) (value : Int) : FactNumber :=
  ⟨key, .int value, .count, toString value⟩

/-- A rate between nought and one as a percentage (`NumberBag.percent`, one decimal). -/
def percentNumber (host : Rendering) (key : String) (fraction : ℚ) : FactNumber :=
  ⟨key, .float (host.round (fraction * 100) 6), .percent, host.fixed (fraction * 100) 1 ++ "%"⟩

/-- A rate of goals (`NumberBag.goals`, one decimal). -/
def goalsNumber (host : Rendering) (key : String) (value : ℚ) : FactNumber :=
  ⟨key, .float (host.round value 6), .goals, host.fixed value 1⟩

/-! ## Texts -/

/-- A part of a formatted text: words of the template, a name put in, or a number put in. -/
inductive Piece where
  | words (s : String)
  | name (s : String)
  | number (n : FactNumber)

/-- What a part shows. -/
def Piece.text : Piece → String
  | .words s => s
  | .name s => s
  | .number n => n.display

/-- The text made of some parts. -/
def phrase (pieces : List Piece) : String := String.join (pieces.map Piece.text)

end Golavo.Facts
