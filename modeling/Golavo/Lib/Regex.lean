import Mathlib.Data.List.Basic

/-! # Regular expressions

Patterns over texts with the priorities of a backtracking matcher: `Regex.run` lists every place a
match can end at, the one such a matcher tries first at the head. Scans find the leftmost match, then
go on behind it. -/

namespace Golavo.Lib

/-- A place in a text: what stands before it, nearest first, and what follows. -/
structure Cursor where
  before : List Char
  after : List Char
deriving DecidableEq, Repr

/-- A pattern. -/
inductive Regex where
  | empty
  /-- One character of a class. -/
  | char (p : Char → Bool)
  | seq (a b : Regex)
  | alt (a b : Regex)
  /-- As often as possible. -/
  | star (a : Regex)
  /-- As rarely as possible. -/
  | lazyStar (a : Regex)
  /-- No character of a class right before (`(?<!…)`). -/
  | notBehind (p : Char → Bool)
  /-- No character of a class right behind (`(?!…)`). -/
  | notAhead (p : Char → Bool)
  /-- The edge of a run of characters of a class (`\b`). -/
  | boundary (p : Char → Bool)

namespace Regex

/-- Where a step can be repeated to, longest first. -/
def repeated (step : Cursor → List Cursor) : Nat → Cursor → List Cursor
  | 0, c => [c]
  | n + 1, c =>
      ((step c).flatMap fun d =>
        if d.after.length < c.after.length then repeated step n d else []) ++ [c]

/-- Where a step can be repeated to, shortest first. -/
def repeatedLazily (step : Cursor → List Cursor) : Nat → Cursor → List Cursor
  | 0, c => [c]
  | n + 1, c =>
      c :: (step c).flatMap fun d =>
        if d.after.length < c.after.length then repeatedLazily step n d else []

/-- The places a match from a place can end at, by priority. -/
def run : Regex → Cursor → List Cursor
  | .empty, c => [c]
  | .char p, ⟨before, x :: after⟩ => if p x then [⟨x :: before, after⟩] else []
  | .char _, ⟨_, []⟩ => []
  | .seq a b, c => (run a c).flatMap (run b)
  | .alt a b, c => run a c ++ run b c
  | .star a, c => repeated (run a) c.after.length c
  | .lazyStar a, c => repeatedLazily (run a) c.after.length c
  | .notBehind p, c => if c.before.head?.any p then [] else [c]
  | .notAhead p, c => if c.after.head?.any p then [] else [c]
  | .boundary p, c => if c.before.head?.any p = c.after.head?.any p then [] else [c]

/-- A sequence goes on from every place its first part leads to. -/
theorem run_seq (a b : Regex) (c : Cursor) : run (.seq a b) c = (run a c).flatMap (run b) := by
  rw [run]

/-! ## Writing patterns -/

def optional (a : Regex) : Regex := .alt a .empty

def plus (a : Regex) : Regex := .seq a (.star a)

/-- At least so many times. -/
def atLeast : Nat → Regex → Regex
  | 0, a => .star a
  | n + 1, a => .seq a (atLeast n a)

/-- A literal text, up to an equality of characters. -/
def literal (same : Char → Char → Bool) (s : List Char) : Regex :=
  s.foldr (fun x rest => .seq (.char (same x)) rest) .empty

/-- The first of several patterns that leads on. -/
def oneOf (patterns : List Regex) : Regex := patterns.foldr .alt (.char fun _ => false)

def sequence (patterns : List Regex) : Regex := patterns.foldr .seq .empty

/-! ## Scanning -/

/-- A match: where it starts and where it ends. -/
structure Match where
  start : Cursor
  stop : Cursor
deriving DecidableEq, Repr

/-- What a match covers. -/
def Match.text (m : Match) : List Char :=
  m.start.after.take (m.start.after.length - m.stop.after.length)

/-- Where a match starts. -/
def Match.position (m : Match) : Nat := m.start.before.length

/-- Where a match ends. -/
def Match.finish (m : Match) : Nat := m.stop.before.length

/-- The leftmost match from a place on. -/
def search (r : Regex) (before : List Char) : List Char → Option Match
  | [] => (r.run ⟨before, []⟩).head?.map fun stop => ⟨⟨before, []⟩, stop⟩
  | x :: after =>
      match (r.run ⟨before, x :: after⟩).head? with
      | some stop => some ⟨⟨before, x :: after⟩, stop⟩
      | none => search r (x :: before) after

/-- The matches from a place on, each leftmost behind the one before it. -/
def scan (r : Regex) : Nat → Cursor → List Match
  | 0, _ => []
  | n + 1, c =>
      match search r c.before c.after with
      | none => []
      | some m =>
          m :: if m.stop.after.length < m.start.after.length then scan r n m.stop
            else
              match m.stop.after with
              | [] => []
              | x :: after => scan r n ⟨x :: m.stop.before, after⟩

/-- All matches in a text (`finditer`). -/
def findAll (r : Regex) (s : List Char) : List Match := scan r (s.length + 1) ⟨[], s⟩

/-- Whether a text has a match (`search`). -/
def found (r : Regex) (s : List Char) : Bool := (search r [] s).isSome

/-- A text from a position on with its matches replaced. -/
def replaceFrom (replacement : List Char) (s : List Char) : Nat → List Match → List Char
  | position, [] => s.drop position
  | position, m :: rest =>
      (s.drop position).take (m.position - position) ++ replacement ++
        replaceFrom replacement s m.finish rest

/-- A text with every match replaced (`sub`). -/
def replaceAll (r : Regex) (replacement s : List Char) : List Char :=
  replaceFrom replacement s 0 (r.findAll s)

end Regex

end Golavo.Lib
