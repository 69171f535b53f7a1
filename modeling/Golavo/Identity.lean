import Golavo.Time
import Mathlib.Data.String.Basic

/-! # Team and fixture identity

How a team and a fixture are named across sources: the **fold** is the diacritic-free, casefolded
search key written into the index, the **fixture key** is `(day, home, away)` optionally scoped by a
competition or tournament. The character tables of the runtime are a parameter (`Unicode`): no
result here depends on what they hold. -/

namespace Golavo

/-- The character tables the program reads through `unicodedata`, `str` and `re`. -/
structure Unicode where
  /-- `unicodedata.normalize("NFKD", ·)`. -/
  nfkd : List Char → List Char
  /-- `unicodedata.normalize("NFKC", ·)`. -/
  nfkc : List Char → List Char
  /-- Whether `unicodedata.combining` of a character is nonzero. -/
  combining : Char → Bool
  /-- `str.casefold`. -/
  casefold : List Char → List Char
  /-- `str.isspace` of one character, which is also the class `\s`. -/
  isSpace : Char → Bool
  /-- The class `\d`: a decimal digit of any script. -/
  isDecimal : Char → Bool
  /-- The value of a decimal digit. -/
  digitValue : Char → Nat
  /-- `str.isdigit` of one character. -/
  isDigit : Char → Bool
  /-- The class `\w`. -/
  isWord : Char → Bool
  /-- `str.isalpha` of one character. -/
  isAlpha : Char → Bool
  /-- Whether two characters match under `re.IGNORECASE`. -/
  sameCase : Char → Char → Bool

namespace Unicode

/-- The tables restricted to ASCII, where normalisation does nothing and case is a shift. -/
def ascii : Unicode where
  nfkd := id
  nfkc := id
  combining := fun _ => false
  casefold := List.map Char.toLower
  isSpace := fun c => c = ' ' || (9 ≤ c.toNat && c.toNat ≤ 13) || (28 ≤ c.toNat && c.toNat ≤ 31)
  isDecimal := Char.isDigit
  digitValue := fun c => c.toNat - 48
  isDigit := Char.isDigit
  isWord := fun c => c.isAlphanum || c = '_'
  isAlpha := Char.isAlpha
  sameCase := fun a b => a.toLower = b.toLower

variable (u : Unicode)

/-- `str.strip`. -/
def strip (s : List Char) : List Char :=
  ((s.dropWhile u.isSpace).reverse.dropWhile u.isSpace).reverse

/-- Fold a team name to the index's search key (`normalize`): NFKD, drop combining marks, casefold,
strip. -/
def normalize (value : String) : String :=
  String.ofList (u.strip (u.casefold ((u.nfkd value.toList).filter fun c => !u.combining c)))

end Unicode

/-- The identity of one fixture: its day and its folded parts. -/
structure FixtureKey where
  day : Int
  parts : List String
  deriving DecidableEq, Repr

/-- Day, folded home, folded away, folded scope (`fixture_key`). -/
def fixtureKey (u : Unicode) (day : Int) (home away : String) (scope : List String) :
    FixtureKey :=
  ⟨day, (home :: away :: scope).map u.normalize⟩

/-- The encoding frames are joined on: the parts joined by pipes. -/
structure FixtureKeyString where
  day : Int
  text : String
  deriving DecidableEq, Repr

/-- A fixture key with its parts pipe-joined (`fixture_key_strings`). -/
def fixtureKeyString (u : Unicode) (day : Int) (home away : String) (scope : List String) :
    FixtureKeyString :=
  ⟨day, String.intercalate "|" (fixtureKey u day home away scope).parts⟩

end Golavo
