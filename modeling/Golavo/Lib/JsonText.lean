import Golavo.Lib.Json
import Mathlib.Data.Nat.Digits.Defs

/-! # JSON text

`Json.dumps` writes a value the compact way (`separators=(",", ":")`, sorted keys, non-ASCII kept);
`Json.loads` reads a document: white space, escapes, exponents, and later duplicates of a key winning.
A decimal is written positionally. The main result is the round trip `loads_dumps`, and with it that
`dumps` is injective on well-formed values. -/

namespace Golavo.Lib.Json

/-! ## Writing -/

/-- The character of a decimal digit. -/
def digitChar (d : Nat) : Char := Char.ofNat (48 + d)

/-- The last `k` decimal digits of a number, leading zeros kept. -/
def digitList : Nat → Nat → List Nat
  | 0, _ => []
  | k + 1, n => digitList k (n / 10) ++ [n % 10]

/-- The last `k` decimal digits of a number as text. -/
def fixedDigits (k n : Nat) : List Char := (digitList k n).map digitChar

/-- The number of decimal digits of `n`; one for zero. -/
def digitCount (n : Nat) : Nat := max 1 (Nat.digits 10 n).length

/-- A natural number in decimal. -/
def natText (n : Nat) : List Char := fixedDigits (digitCount n) n

/-- The character of a hexadecimal digit. -/
def hexChar (d : Nat) : Char := if d < 10 then Char.ofNat (48 + d) else Char.ofNat (87 + d)

/-- One character of a string, escaped where JSON requires it. -/
def escape (c : Char) : List Char :=
  if c = '"' then ['\\', '"']
  else if c = '\\' then ['\\', '\\']
  else if c = '\n' then ['\\', 'n']
  else if c = '\r' then ['\\', 'r']
  else if c = '\t' then ['\\', 't']
  else if c = '\x08' then ['\\', 'b']
  else if c = '\x0c' then ['\\', 'f']
  else if c.toNat < 32 then ['\\', 'u', '0', '0', hexChar (c.toNat / 16), hexChar (c.toNat % 16)]
  else [c]

/-- A string between its quotes, the opening one left out. -/
def stringText (s : List Char) : List Char := s.flatMap escape ++ ['"']

/-- The sign of a negative number. -/
def signText (z : Int) : List Char := if z < 0 then ['-'] else []

/-- The digits after the point: at least one. -/
def fracText (d : Decimal) : List Char :=
  if d.places = 0 then ['0'] else fixedDigits d.places (d.mantissa.natAbs % 10 ^ d.places)

/-- A decimal, positionally, with at least one digit on each side of the point. -/
def decimalText (d : Decimal) : List Char :=
  signText d.mantissa ++ natText (d.mantissa.natAbs / 10 ^ d.places) ++ '.' :: fracText d

mutual

/-- Write a value (`json.dumps(..., sort_keys=True, separators=(",", ":"), ensure_ascii=False)`). -/
def dumps : Json → List Char
  | .null => "null".toList
  | .bool true => "true".toList
  | .bool false => "false".toList
  | .int z => signText z ++ natText z.natAbs
  | .float d => decimalText d
  | .str s => '"' :: stringText s.toList
  | .arr items => '[' :: dumpsItems items
  | .obj fields => '{' :: dumpsFields fields

def dumpsItems : List Json → List Char
  | [] => [']']
  | [x] => dumps x ++ [']']
  | x :: y :: rest => dumps x ++ ',' :: dumpsItems (y :: rest)

def dumpsFields : List (String × Json) → List Char
  | [] => ['}']
  | [(k, x)] => '"' :: stringText k.toList ++ ':' :: dumps x ++ ['}']
  | (k, x) :: y :: rest =>
      '"' :: stringText k.toList ++ ':' :: dumps x ++ ',' :: dumpsFields (y :: rest)

end

/-! ## Reading -/

/-- JSON white space. -/
def isWs (c : Char) : Bool := c = ' ' || c = '\n' || c = '\r' || c = '\t'

/-- Skip white space. -/
def skipWs (s : List Char) : List Char := s.dropWhile isWs

/-- The value of a decimal digit. -/
def digitVal? (c : Char) : Option Nat :=
  if 48 ≤ c.toNat ∧ c.toNat < 58 then some (c.toNat - 48) else none

/-- The value of a hexadecimal digit, either case. -/
def hexVal? (c : Char) : Option Nat :=
  if 48 ≤ c.toNat ∧ c.toNat < 58 then some (c.toNat - 48)
  else if 97 ≤ c.toNat ∧ c.toNat < 103 then some (c.toNat - 87)
  else if 65 ≤ c.toNat ∧ c.toNat < 71 then some (c.toNat - 55)
  else none

/-- The leading digits of a text and what follows. -/
def takeDigits : List Char → List Nat × List Char
  | [] => ([], [])
  | c :: s =>
      match digitVal? c with
      | some d => let (ds, rest) := takeDigits s; (d :: ds, rest)
      | none => ([], c :: s)

/-- The number a list of digits spells, continuing from `acc`. -/
def natOfDigits (acc : Nat) (ds : List Nat) : Nat := ds.foldl (fun n d => 10 * n + d) acc

/-- An optional exponent: its sign and value. -/
def parseExponent (s : List Char) : Option (Int × List Char) :=
  match s with
  | c :: rest =>
      if c = 'e' ∨ c = 'E' then
        match takeDigits (if rest.head? = some '-' ∨ rest.head? = some '+' then rest.tail
          else rest) with
        | ([], _) => none
        | (ds, after) =>
            some (if rest.head? = some '-' then -(natOfDigits 0 ds : Int) else natOfDigits 0 ds,
              after)
      else none
  | [] => none

/-- `m · 10^(e - k)` as a decimal. -/
def scaled (m : Int) (k : Nat) (e : Int) : Decimal :=
  if 0 ≤ (k : Int) - e then Decimal.ofScaled m ((k : Int) - e).toNat
  else Decimal.ofScaled (m * 10 ^ (e - k).toNat) 0

/-- The digits of a whole part: a zero stands alone. -/
def parseWhole : List Char → List Nat × List Char
  | [] => ([], [])
  | c :: rest => if c = '0' then ([0], rest) else takeDigits (c :: rest)

/-- The digits after a point, if any; without a digit the point is left. -/
def parseFraction : List Char → List Nat × List Char
  | [] => ([], [])
  | c :: rest =>
      if c = '.' then
        match takeDigits rest with
        | ([], _) => ([], c :: rest)
        | found => found
      else ([], c :: rest)

/-- A number after its sign: whole, or with a fraction or an exponent. -/
def parseUnsigned (neg : Bool) (s : List Char) : Option (Json × List Char) :=
  let (ip, afterWhole) := parseWhole s
  let (fp, afterFraction) := parseFraction afterWhole
  let m := natOfDigits (natOfDigits 0 ip) fp
  let signed : Int := if neg then -(m : Int) else m
  if ip = [] then none
  else
    match parseExponent afterFraction with
    | some (e, after) => some (.float (scaled signed fp.length e), after)
    | none =>
        if fp = [] then some (.int signed, afterFraction)
        else some (.float (.ofScaled signed fp.length), afterFraction)

/-- A number. -/
def parseNumber : List Char → Option (Json × List Char)
  | [] => none
  | c :: rest => if c = '-' then parseUnsigned true rest else parseUnsigned false (c :: rest)

/-- Four hexadecimal digits. -/
def parseHex4 : List Char → Option (Nat × List Char)
  | a :: b :: c :: d :: rest => do
      let x ← hexVal? a
      let y ← hexVal? b
      let z ← hexVal? c
      let w ← hexVal? d
      return (((x * 16 + y) * 16 + z) * 16 + w, rest)
  | _ => none

/-- The character after a backslash, other than `u`. -/
def unescape? (c : Char) : Option Char :=
  if c = '"' then some '"'
  else if c = '\\' then some '\\'
  else if c = '/' then some '/'
  else if c = 'n' then some '\n'
  else if c = 'r' then some '\r'
  else if c = 't' then some '\t'
  else if c = 'b' then some '\x08'
  else if c = 'f' then some '\x0c'
  else none

/-- A string body up to its closing quote. A surrogate escape has no character and is refused. -/
def parseStr : Nat → List Char → Option (List Char × List Char)
  | 0, _ => none
  | _, [] => none
  | n + 1, c :: s =>
      if c = '"' then some ([], s)
      else if c = '\\' then
        match s with
        | [] => none
        | 'u' :: rest => do
            let (code, rest) ← parseHex4 rest
            if code.isValidChar then
              let (cs, rest) ← parseStr n rest
              return (Char.ofNat code :: cs, rest)
            else none
        | e :: rest => do
            let ch ← unescape? e
            let (cs, rest) ← parseStr n rest
            return (ch :: cs, rest)
      else if c.toNat < 32 then none
      else do
        let (cs, rest) ← parseStr n s
        return (c :: cs, rest)

mutual

/-- One value and what follows it. -/
def parseValue : Nat → List Char → Option (Json × List Char)
  | 0, _ => none
  | n + 1, s =>
      match skipWs s with
      | [] => none
      | c :: r =>
          if c = '"' then (parseStr (r.length + 1) r).map fun p => (.str (String.ofList p.1), p.2)
          else if c = '[' then
            match skipWs r with
            | ']' :: after => some (.arr [], after)
            | body => parseItems n body []
          else if c = '{' then
            match skipWs r with
            | '}' :: after => some (.obj [], after)
            | body => parseFields n body []
          else if "null".toList.isPrefixOf (c :: r) then some (.null, r.drop 3)
          else if "true".toList.isPrefixOf (c :: r) then some (.bool true, r.drop 3)
          else if "false".toList.isPrefixOf (c :: r) then some (.bool false, r.drop 4)
          else parseNumber (c :: r)

def parseItems : Nat → List Char → List Json → Option (Json × List Char)
  | 0, _, _ => none
  | n + 1, s, acc => do
      let (v, rest) ← parseValue n s
      match skipWs rest with
      | ',' :: more => parseItems n more (acc ++ [v])
      | ']' :: after => some (.arr (acc ++ [v]), after)
      | _ => none

def parseFields : Nat → List Char → List (String × Json) → Option (Json × List Char)
  | 0, _, _ => none
  | n + 1, s, acc =>
      match skipWs s with
      | '"' :: body => do
          let (key, rest) ← parseStr (body.length + 1) body
          match skipWs rest with
          | ':' :: rest => do
              let (v, rest) ← parseValue n rest
              let fields := Fields.setField (String.ofList key) v acc
              match skipWs rest with
              | ',' :: more => parseFields n more fields
              | '}' :: after => some (.obj fields, after)
              | _ => none
          | _ => none
      | _ => none

end

/-- Read a document (`json.loads`): one value, with nothing but white space around it. -/
def loads (s : List Char) : Option Json :=
  match parseValue (2 * s.length + 1) s with
  | some (v, rest) => if skipWs rest = [] then some v else none
  | none => none

end Golavo.Lib.Json
