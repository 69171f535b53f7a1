import Golavo.Identity
import Golavo.Lib.Regex
import Mathlib.Data.List.Sort

/-! # The numeric whitelist

Scans of model-produced text: the numbers it states, in digits and in words, those among them that no
referenced allowed number displays, betting terms and credential shapes. Terminology and the bundle's
own identifiers are removed before a scan for numbers. -/

namespace Golavo.Narration

open Golavo.Lib (Regex)
open Golavo.Lib.Regex (sequence oneOf plus optional atLeast)

/-! ## The host -/

/-- The text tables of the host: beside those of `Unicode`, `str.lower` and the order in which a set
of texts is listed. -/
structure TextTables extends Unicode where
  lower : List Char → List Char
  setOrder : List String → List String
  perm_setOrder : ∀ items, (setOrder items).Perm items.dedup

/-- The tables restricted to ASCII, with sets listed in the order of their texts. -/
def TextTables.ascii : TextTables where
  toUnicode := Unicode.ascii
  lower := List.map Char.toLower
  setOrder items := items.dedup.insertionSort (· ≤ ·)
  perm_setOrder _ := List.perm_insertionSort _ _

/-- The floating-point numbers of the host: `float(token)`, `round(value, places)`, and whether two
differ by less than `1e-9`. -/
structure Floats (F : Type) where
  read : List Char → Option F
  ofNat : Nat → F
  round : F → Nat → F
  near : F → F → Bool

variable {F : Type} (u : TextTables) (fl : Floats F)

/-! ## Patterns -/

namespace Pattern

/-- A character, or one of its case variants under `(?i)`. -/
def ignoringCase (x : Char) : Regex := .char (u.sameCase x)

/-- A literal under `re.IGNORECASE`. -/
def literalIgnoringCase (s : String) : Regex := Regex.literal u.sameCase s.toList

def exactly (s : String) : Regex := Regex.literal (· == ·) s.toList

def charOf (s : String) : Regex := .char fun x => x ∈ s.toList

/-- `[a-z]` under `(?i)`. -/
def isLetter (x : Char) : Bool := "abcdefghijklmnopqrstuvwxyz".toList.any (u.sameCase · x)

/-- `[A-Za-z0-9]`. -/
def isAsciiAlphanumeric (x : Char) : Bool := x.isAlphanum

def isUpperOrDigit (x : Char) : Bool := x.isUpper || x.isDigit

def digit : Regex := .char u.isDecimal

/-- A word of a list, on its own: `(?i)(?<![a-z])(…)(?![a-z])`. -/
def wholeWord (words : List String) : Regex :=
  sequence [.notBehind (isLetter u), oneOf (words.map (literalIgnoringCase u)),
    .notAhead (isLetter u)]

/-- The words of a table, longest first (`sorted(…, key=len, reverse=True)`). -/
def longestFirst (words : List String) : List String :=
  words.insertionSort fun a b => b.toList.length ≤ a.toList.length

end Pattern

open Pattern

/-- `_TERMINOLOGY`. -/
def terminology : List String := ["1x2_regulation", "1x2", "t-72h", "t-24h", "t-60m"]

/-- `_BETTING_TERMS`. -/
def bettingTerms : List String :=
  ["odds", "lock", "locks", "value", "unit", "units", "pick", "picks", "bet", "bets", "betting",
    "bettor", "wager", "wagers", "stake", "stakes", "parlay", "accumulator", "acca", "moneyline",
    "spread", "handicap", "bookmaker", "bookie", "vig", "juice", "bankroll", "punt", "punter", "ev",
    "tip", "tips", "tipster"]

/-- `_NUMBER_RE`: `(?<![\w.])[-+]?(?:\d[\d,]*(?:\.\d+)?|\.\d+)(?:[eE][-+]?\d+)?%?`. -/
def numberRe : Regex :=
  sequence [.notBehind fun x => u.isWord x || x = '.',
    optional (charOf "-+"),
    .alt
      (sequence [digit u, .star (.char fun x => u.isDecimal x || x = ','),
        optional (.seq (exactly ".") (plus (digit u)))])
      (.seq (exactly ".") (plus (digit u))),
    optional (sequence [charOf "eE", optional (charOf "-+"), plus (digit u)]),
    optional (exactly "%")]

/-- `_FRACTION_RE`: `\d+\s*[⁄/]\s*\d+`. -/
def fractionRe : Regex :=
  sequence [plus (digit u), .star (.char u.isSpace), charOf "⁄/", .star (.char u.isSpace),
    plus (digit u)]

/-- `_WORD_UNITS`. -/
def wordUnits : List (String × Nat) :=
  [("three", 3), ("four", 4), ("five", 5), ("six", 6), ("seven", 7), ("eight", 8), ("nine", 9),
    ("ten", 10), ("eleven", 11), ("twelve", 12), ("thirteen", 13), ("fourteen", 14), ("fifteen", 15),
    ("sixteen", 16), ("seventeen", 17), ("eighteen", 18), ("nineteen", 19), ("twenty", 20),
    ("thirty", 30), ("forty", 40), ("fifty", 50), ("sixty", 60), ("seventy", 70), ("eighty", 80),
    ("ninety", 90), ("hundred", 100), ("thousand", 1000), ("million", 1000000),
    ("billion", 1000000000), ("dozen", 12), ("twice", 2), ("double", 2), ("triple", 3),
    ("treble", 3), ("quadruple", 4), ("third", 3), ("fourth", 4), ("fifth", 5), ("sixth", 6),
    ("seventh", 7), ("eighth", 8), ("ninth", 9), ("tenth", 10), ("eleventh", 11), ("twelfth", 12),
    ("thrice", 3)]

/-- `_NARRATION_NUMBER_WORDS`. -/
def narrationNumberWords : List String :=
  wordUnits.map Prod.fst ++ ["zero", "one", "two", "first", "second", "half", "halves", "quarter",
    "quarters", "couple", "pair"]

/-- `_WORD_RE`. -/
def wordRe : Regex := wholeWord u (longestFirst (wordUnits.map Prod.fst))

/-- `_NARRATION_WORD_RE`. -/
def narrationWordRe : Regex := wholeWord u (longestFirst narrationNumberWords)

/-- `_BETTING_RE`. -/
def bettingRe : Regex := wholeWord u bettingTerms

/-- `_SECRET_PATTERNS`. -/
def secretPatterns : List Regex :=
  [ .seq (exactly "sk-") (atLeast 12 (.char fun x => isAsciiAlphanumeric x || x ∈ ['_', '-'])),
    sequence [exactly "gh", charOf "pousr", exactly "_", atLeast 20 (.char isAsciiAlphanumeric)],
    .seq (exactly "AKIA") (atLeast 12 (.char isUpperOrDigit)),
    sequence [exactly "xox", charOf "baprs", exactly "-",
      atLeast 8 (.char fun x => isAsciiAlphanumeric x || x = '-')],
    sequence [literalIgnoringCase u "-----BEGIN ", .star (.char fun x => isLetter u x || x = ' '),
      literalIgnoringCase u "PRIVATE KEY-----"],
    sequence [.boundary u.isWord,
      oneOf [sequence [literalIgnoringCase u "api", optional (charOf "_-"),
          literalIgnoringCase u "key"],
        sequence [literalIgnoringCase u "secret", optional (charOf "_-"),
          literalIgnoringCase u "key"],
        sequence [literalIgnoringCase u "access", optional (charOf "_-"),
          literalIgnoringCase u "token"],
        literalIgnoringCase u "bearer"],
      .boundary u.isWord, .star (.char u.isSpace), charOf ":="],
    sequence [.boundary u.isWord,
      oneOf (["OPENAI", "ANTHROPIC", "AWS", "GOLAVO"].map (literalIgnoringCase u)),
      .star (.char fun x => isLetter u x || x = '_'),
      oneOf (["KEY", "TOKEN", "SECRET"].map (literalIgnoringCase u)), .boundary u.isWord] ]

/-! ## Removing what is no claim -/

/-- `_strip_terminology`. -/
def stripTerminology (text : List Char) : List Char :=
  terminology.foldl (fun stripped token =>
    (literalIgnoringCase u token).replaceAll [' '] stripped) text

/-- Whether a literal is stripped: it is not blank and has an alphabetic character. -/
def isStrippable (literal : String) : Bool :=
  u.strip literal.toList ≠ [] && literal.toList.any u.isAlpha

/-- The literals that are stripped, longest first. -/
def strippable (literals : List String) : List String :=
  longestFirst (u.setOrder (literals.filter (isStrippable u)))

/-- `_strip_literals`. -/
def stripLiterals (text : List Char) (literals : List String) : List Char :=
  (strippable u literals).foldl (fun stripped literal =>
    (literalIgnoringCase u literal).replaceAll [' '] stripped) text

/-- What a scan for numbers reads of a text. -/
def cleanedText (text : String) (literals : List String) : List Char :=
  stripLiterals u (stripTerminology u (u.nfkc text.toList)) literals

/-! ## Numbers -/

/-- A number word that is no key of `_WORD_UNITS` once it is lowered. -/
structure KeyError where
  key : List Char
deriving DecidableEq, Repr

/-- The number a matched word stands for (`_WORD_UNITS[match.group().lower()]`). -/
def unitOfWord (word : List Char) : Except KeyError Nat :=
  match wordUnits.find? fun entry => entry.1.toList = u.lower word with
  | some entry => .ok entry.2
  | none => .error ⟨u.lower word⟩

/-- The digits of a matched number: without its percent sign and its separators. -/
def digitsOf (token : List Char) : List Char :=
  (token.reverse.dropWhile (· = '%')).reverse.filter (· ≠ ',')

/-- Every numeric value in a text, in digits and in words (`extract_numbers`). -/
def extractNumbers (text : String) (literals : List String) : Except KeyError (List F) := do
  let cleaned := cleanedText u text literals
  let values := ((numberRe u).findAll cleaned).filterMap fun m => fl.read (digitsOf m.text)
  let words ← ((wordRe u).findAll cleaned).mapM fun m => unitOfWord u m.text
  return values ++ words.map fl.ofNat

/-- Whether a stated number is an allowed one at some rounding to at most six places
(`number_matches`). -/
def numberMatches (token allowed : F) : Bool :=
  (List.range 7).any (fun places => fl.near token (fl.round allowed places)) ||
    fl.near token allowed

/-- A number the AI may state: its id, its value, the text it must be stated by, and the sources it
comes from. -/
structure AllowedNumber (F : Type) where
  id : String
  value : F
  display : String
  sourceIds : List String

/-- The numeric tokens of a text that are no exact display of a referenced number
(`unsupported_number_tokens`). -/
def unsupportedNumberTokens (text : String) (allowedNumbers : List (AllowedNumber F))
    (numberRefs : List String) (literals : List String) : List (List Char) :=
  let cleaned := cleanedText u text literals
  let displays := (allowedNumbers.filter (·.id ∈ numberRefs)).map fun n => u.nfkc n.display.toList
  let fractions := (fractionRe u).findAll cleaned
  let numbers := ((numberRe u).findAll cleaned).filter fun m =>
    !fractions.any (fun f => f.position ≤ m.position && m.position < f.finish) &&
      !displays.contains m.text
  fractions.map (·.text) ++ ((narrationWordRe u).findAll cleaned).map (·.text) ++
    numbers.map (·.text)

/-! ## Terms and credentials -/

/-- The characters `_INVISIBLE_RE` removes. -/
def isInvisible (x : Char) : Bool :=
  x.toNat = 0xAD || (0x200B ≤ x.toNat && x.toNat ≤ 0x200F) || x.toNat = 0x2060 || x.toNat = 0xFEFF

/-- `_normalize_for_scan`. -/
def normalizeForScan (text : String) : List Char :=
  (u.nfkc text.toList).filter fun x => !isInvisible x

/-- The betting terms in a text (`contains_betting_lexicon`). -/
def containsBettingLexicon (text : String) : List (List Char) :=
  ((bettingRe u).findAll (normalizeForScan u text)).map fun m => u.lower m.text

/-- The credential-shaped parts of a text (`contains_secret_pattern`). -/
def containsSecretPattern (text : String) : List (List Char) :=
  (secretPatterns u).flatMap fun pattern =>
    (pattern.findAll (normalizeForScan u text)).map (·.text)

end Golavo.Narration
