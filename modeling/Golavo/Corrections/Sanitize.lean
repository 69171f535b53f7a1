import Golavo.Identity
import Golavo.Lib.Check
import Golavo.Lib.Language
import Golavo.Lib.Sha256
import Golavo.Lib.Squeeze

/-! # Plain-text evidence

`sanitize` turns captured evidence into a text that can be shown: entities are resolved, tags and prompt
tokens blanked, invisible characters dropped and white space collapsed, each once and in this order. -/

namespace Golavo.Corrections

open Golavo.Lib (Regex squeeze failIf)
open Golavo.Lib.Regex (sequence optional upTo literal StartsWith EndsWith Accepts)
open Golavo.Lib.Sha256 (utf8)

/-! ## The host -/

/-- What the host knows of texts: beside the tables of `Unicode`, `html.unescape`, NFC and the categories
Cc and Cf. A decoding that keeps every character but spaces in order changes nothing: an entity loses
characters that normalisation never makes, and normalisation that only composes and reorders loses or
moves some. -/
structure EvidenceText extends Unicode where
  unescape : List Char → List Char
  nfc : List Char → List Char
  /-- `unicodedata.category(char) in {"Cc", "Cf"}`. -/
  isControl : Char → Bool
  isSpace_space : isSpace ' ' = true
  isSpace_lineFeed : isSpace '\n' = true
  isSpace_bracket : ∀ c ∈ ['<', '>', '[', ']'], isSpace c = false
  isControl_space : isControl ' ' = false
  decode_eq : ∀ s : List Char, (s.filter (· ≠ ' ')).Sublist (nfc (unescape s)) → nfc (unescape s) = s

/-! ## Patterns -/

/-- `_TAG_RE`: `<[^>]{0,2048}>`. -/
def tagRe : Regex :=
  sequence [.char (· == '<'), upTo 2048 (.char (· ≠ '>')), .char (· == '>')]

/-- A literal with the case of its letters left open. -/
def anyCase (u : Unicode) (s : String) : Regex := literal u.sameCase s.toList

/-- `_PROMPT_TOKEN_RE`:
`(?:<\|/?(?:system|assistant|user|tool)[^>]*\|>|\[(?:/?INST|SYSTEM|ASSISTANT)\])`. -/
def promptTokenRe (u : Unicode) : Regex :=
  .alt
    (sequence [.char (· == '<'), .char (· == '|'), optional (.char (· == '/')),
      .alt (anyCase u "system") (.alt (anyCase u "assistant") (.alt (anyCase u "user")
        (anyCase u "tool"))),
      .star (.char (· ≠ '>')), .char (· == '|'), .char (· == '>')])
    (sequence [.char (· == '['), .alt (sequence [optional (.char (· == '/')), anyCase u "INST"])
      (.alt (anyCase u "SYSTEM") (anyCase u "ASSISTANT")), .char (· == ']')])

/-- `_BIDI_AND_INVISIBLE`. -/
def bidiAndInvisible : List Char :=
  ['\u061c', '\u200b', '\u200c', '\u200d', '\u200e', '\u200f', '\u202a', '\u202b', '\u202c',
    '\u202d', '\u202e', '\u2060', '\u2066', '\u2067', '\u2068', '\u2069', '\ufeff']

/-! ## Sanitising -/

/-- `EvidenceError`. -/
structure EvidenceError where
  reasonCode : String
  detail : String
  deriving DecidableEq, Repr

/-- `MAX_EVIDENCE_BYTES`. -/
def maxEvidenceBytes : Nat := 65536

/-- The bytes of a text. -/
def encoded (s : List Char) : List Nat := s.flatMap utf8

variable (t : EvidenceText)

/-- The entities resolved, and the text composed. -/
def EvidenceText.decode (s : List Char) : List Char := t.nfc (t.unescape s)

/-- Whether a character is dropped. -/
def isHidden (c : Char) : Bool :=
  c ∈ bidiAndInvisible || (t.isControl c && c ∉ ['\n', '\t'])

/-- Tags, and then prompt tokens, blanked out. -/
def blanked (s : List Char) : List Char :=
  (promptTokenRe t.toUnicode).replaceAll [' '] (tagRe.replaceAll [' '] s)

/-- What is shown of a text: its visible characters with white space collapsed. -/
def shown (s : List Char) : List Char :=
  squeeze t.isSpace ((s.filter fun c => !isHidden t c).map fun c => if c = '\t' then ' ' else c)

/-- `sanitize`. -/
def sanitize (value : String) : Except EvidenceError (List Nat × String) := do
  let raw := encoded value.toList
  failIf (raw = []) ⟨"evidence_required", "captured evidence cannot be empty"⟩
  failIf (maxEvidenceBytes < raw.length)
    ⟨"evidence_too_large", "captured evidence exceeds 65536 bytes"⟩
  let display := shown t (blanked t (t.decode value.toList))
  failIf (display = []) ⟨"evidence_empty_after_sanitize", "evidence has no displayable text"⟩
  return (raw, String.ofList display)

end Golavo.Corrections
