import Mathlib.Algebra.Group.Nat.Defs
import Mathlib.Data.List.GetD

/-! # SHA-256

The digest of a text's UTF-8 bytes, as 64 lower-case hexadecimal digits. Words are natural numbers
below `2 ^ 32`. -/

namespace Golavo.Lib.Sha256

/-! ## Words -/

/-- One more than the largest word. -/
def wordSize : Nat := 4294967296

/-- Rotate a word right. -/
def rotr (n x : Nat) : Nat := ((x >>> n) ||| (x <<< (32 - n))) % wordSize

/-- The complement of a word. -/
def complement (x : Nat) : Nat := wordSize - 1 - x

/-- The round constants. -/
def roundConstants : List Nat :=
  [0x428a2f98, 0x71374491, 0xb5c0fbcf, 0xe9b5dba5, 0x3956c25b, 0x59f111f1, 0x923f82a4, 0xab1c5ed5,
    0xd807aa98, 0x12835b01, 0x243185be, 0x550c7dc3, 0x72be5d74, 0x80deb1fe, 0x9bdc06a7, 0xc19bf174,
    0xe49b69c1, 0xefbe4786, 0x0fc19dc6, 0x240ca1cc, 0x2de92c6f, 0x4a7484aa, 0x5cb0a9dc, 0x76f988da,
    0x983e5152, 0xa831c66d, 0xb00327c8, 0xbf597fc7, 0xc6e00bf3, 0xd5a79147, 0x06ca6351, 0x14292967,
    0x27b70a85, 0x2e1b2138, 0x4d2c6dfc, 0x53380d13, 0x650a7354, 0x766a0abb, 0x81c2c92e, 0x92722c85,
    0xa2bfe8a1, 0xa81a664b, 0xc24b8b70, 0xc76c51a3, 0xd192e819, 0xd6990624, 0xf40e3585, 0x106aa070,
    0x19a4c116, 0x1e376c08, 0x2748774c, 0x34b0bcb5, 0x391c0cb3, 0x4ed8aa4a, 0x5b9cca4f, 0x682e6ff3,
    0x748f82ee, 0x78a5636f, 0x84c87814, 0x8cc70208, 0x90befffa, 0xa4506ceb, 0xbef9a3f7, 0xc67178f2]

/-! ## Padding -/

/-- The UTF-8 bytes of a character. -/
def utf8 (c : Char) : List Nat :=
  let n := c.toNat
  if n < 0x80 then [n]
  else if n < 0x800 then [0xc0 + n / 64, 0x80 + n % 64]
  else if n < 0x10000 then [0xe0 + n / 4096, 0x80 + n / 64 % 64, 0x80 + n % 64]
  else [0xf0 + n / 262144, 0x80 + n / 4096 % 64, 0x80 + n / 64 % 64, 0x80 + n % 64]

/-- The big-endian bytes of a number. -/
def bigEndian (count n : Nat) : List Nat :=
  (List.range count).reverse.map fun i => n / 256 ^ i % 256

/-- A message followed by a one bit, zeros and its length in bits, to a whole number of blocks. -/
def pad (bytes : List Nat) : List Nat :=
  bytes ++ 0x80 :: List.replicate ((119 - bytes.length % 64) % 64) 0 ++
    bigEndian 8 (8 * bytes.length)

/-- The big-endian words of some bytes. -/
def words : List Nat → List Nat
  | a :: b :: c :: d :: rest => (((a * 256 + b) * 256 + c) * 256 + d) :: words rest
  | _ => []

/-- The blocks of sixteen words of a padded message, at most `count` of them. -/
def blocks : Nat → List Nat → List (List Nat)
  | 0, _ => []
  | count + 1, ws => ws.take 16 :: blocks count (ws.drop 16)

/-! ## Compression -/

/-- The eight working words. -/
structure State where
  a : Nat
  b : Nat
  c : Nat
  d : Nat
  e : Nat
  f : Nat
  g : Nat
  h : Nat

/-- The initial hash value. -/
def initial : State :=
  ⟨0x6a09e667, 0xbb67ae85, 0x3c6ef372, 0xa54ff53a, 0x510e527f, 0x9b05688c, 0x1f83d9ab, 0x5be0cd19⟩

/-- The message schedule, newest word first, extended by `count` words. -/
def extend : Nat → List Nat → List Nat
  | 0, ws => ws
  | count + 1, ws =>
      let back (i : Nat) : Nat := ws.getD (i - 1) 0
      let s₀ := rotr 7 (back 15) ^^^ rotr 18 (back 15) ^^^ (back 15 >>> 3)
      let s₁ := rotr 17 (back 2) ^^^ rotr 19 (back 2) ^^^ (back 2 >>> 10)
      extend count ((back 16 + s₀ + back 7 + s₁) % wordSize :: ws)

/-- One round. -/
def round (s : State) (k w : Nat) : State :=
  let s₁ := rotr 6 s.e ^^^ rotr 11 s.e ^^^ rotr 25 s.e
  let ch := (s.e &&& s.f) ^^^ (complement s.e &&& s.g)
  let t₁ := s.h + s₁ + ch + k + w
  let s₀ := rotr 2 s.a ^^^ rotr 13 s.a ^^^ rotr 22 s.a
  let maj := (s.a &&& s.b) ^^^ (s.a &&& s.c) ^^^ (s.b &&& s.c)
  ⟨(t₁ + s₀ + maj) % wordSize, s.a, s.b, s.c, (s.d + t₁) % wordSize, s.e, s.f, s.g⟩

/-- The state after a block. -/
def compress (s : State) (block : List Nat) : State :=
  let schedule := (extend 48 block.reverse).reverse
  let t := (roundConstants.zip schedule).foldl (fun t kw => round t kw.1 kw.2) s
  ⟨(s.a + t.a) % wordSize, (s.b + t.b) % wordSize, (s.c + t.c) % wordSize,
    (s.d + t.d) % wordSize, (s.e + t.e) % wordSize, (s.f + t.f) % wordSize,
    (s.g + t.g) % wordSize, (s.h + t.h) % wordSize⟩

/-! ## Digests -/

/-- The sixteen hexadecimal digits. -/
def hexDigits : List Char :=
  ['0', '1', '2', '3', '4', '5', '6', '7', '8', '9', 'a', 'b', 'c', 'd', 'e', 'f']

/-- The lowest hexadecimal digit of a number. -/
def hexDigit (n : Nat) : Char := hexDigits.getD (n % 16) '0'

/-- The eight hexadecimal digits of a word. -/
def hexWord (w : Nat) : List Char := (List.range 8).reverse.map fun i => hexDigit (w / 16 ^ i)

/-- The digits of a state. -/
def State.hex (s : State) : List Char :=
  hexWord s.a ++ hexWord s.b ++ hexWord s.c ++ hexWord s.d ++ hexWord s.e ++ hexWord s.f ++
    hexWord s.g ++ hexWord s.h

/-- The final state of a text. -/
def digestState (text : List Char) : State :=
  let padded := pad (text.flatMap utf8)
  (blocks (padded.length / 64) (words padded)).foldl compress initial

/-- `hashlib.sha256(text.encode()).hexdigest()`. -/
def hexdigest (text : List Char) : String := String.ofList (digestState text).hex

@[simp] theorem length_hexdigest (text : List Char) : (hexdigest text).toList.length = 64 := by
  simp [hexdigest, State.hex, hexWord]

theorem hexDigit_mem (n : Nat) : hexDigit n ∈ hexDigits := by
  have h : n % 16 < hexDigits.length := Nat.mod_lt _ (by decide)
  rw [hexDigit, List.getD_eq_getElem _ _ h]
  exact List.getElem_mem h

/-- Every character of a digest is a hexadecimal digit. -/
theorem mem_hexdigest {text : List Char} {c : Char} (h : c ∈ (hexdigest text).toList) :
    c ∈ hexDigits := by
  have hword : ∀ w, c ∈ hexWord w → c ∈ hexDigits := by
    intro w hc
    obtain ⟨i, -, rfl⟩ := List.mem_map.mp hc
    exact hexDigit_mem _
  simp only [hexdigest, String.toList_ofList, State.hex, List.mem_append] at h
  rcases h with ((((((h | h) | h) | h) | h) | h) | h) | h <;> exact hword _ h

-- the digest of "abc"
example : hexdigest ['a', 'b', 'c'] =
    "ba7816bf8f01cfea414140de5dae2223b00361a396177a9cb410ff61f20015ad" := by
  decide +kernel

end Golavo.Lib.Sha256
