import Golavo.Lib.JsonText
import Mathlib.Data.Nat.Digits.Lemmas
import Mathlib.Tactic.IntervalCases

/-! # The JSON round trip

Reading back what `dumps` wrote gives the value again (`loads_dumps`), so written documents are
equal only when the values are (`dumps_injective`). Numbers come first, then strings, then values by
induction, with enough fuel measured by `Json.size`. -/

namespace Golavo.Lib.Json

open Fields

/-! ## Digits -/

/-- A text that does not continue a run of digits. -/
def NoDigitHead : List Char → Prop
  | [] => True
  | c :: _ => digitVal? c = none

theorem digitVal?_digitChar {d : Nat} (h : d < 10) : digitVal? (digitChar d) = some d := by
  interval_cases d <;> decide

theorem takeDigits_map {ds : List Nat} (hds : ∀ d ∈ ds, d < 10) {rest : List Char}
    (hrest : NoDigitHead rest) : takeDigits (ds.map digitChar ++ rest) = (ds, rest) := by
  induction ds with
  | nil =>
      cases rest with
      | nil => rfl
      | cons c rest =>
          have hc : digitVal? c = none := hrest
          simp [takeDigits, hc]
  | cons d ds ih =>
      have hd := digitVal?_digitChar (hds d List.mem_cons_self)
      have hrec := ih fun x hx => hds x (List.mem_cons_of_mem _ hx)
      simp [takeDigits, hd, hrec]

theorem digitList_lt (k n : Nat) : ∀ d ∈ digitList k n, d < 10 := by
  induction k generalizing n with
  | zero => simp [digitList]
  | succ k ih =>
      intro d hd
      rcases List.mem_append.mp hd with hd | hd
      · exact ih _ d hd
      · rw [List.mem_singleton.mp hd]
        exact Nat.mod_lt _ (by decide)

@[simp] theorem length_digitList (k n : Nat) : (digitList k n).length = k := by
  induction k generalizing n with
  | zero => rfl
  | succ k ih => simp [digitList, ih]

/-- Digits read back after `acc` spell `acc` shifted, plus the digits' number. -/
theorem natOfDigits_digitList (acc k n : Nat) :
    natOfDigits acc (digitList k n) = acc * 10 ^ k + n % 10 ^ k := by
  induction k generalizing n with
  | zero => simp [natOfDigits, digitList, Nat.mod_one]
  | succ k ih =>
      have hstep : natOfDigits acc (digitList (k + 1) n) =
          10 * natOfDigits acc (digitList k (n / 10)) + n % 10 := by
        simp [natOfDigits, digitList]
      have hmod : n % 10 ^ (k + 1) = n % 10 + 10 * (n / 10 % 10 ^ k) := by
        rw [pow_succ, Nat.mul_comm, Nat.mod_mul]
      rw [hstep, ih, hmod, pow_succ]
      ring

theorem lt_pow_digitCount (n : Nat) : n < 10 ^ digitCount n :=
  lt_of_lt_of_le (Nat.lt_base_pow_length_digits (by decide))
    (Nat.pow_le_pow_right (by decide) (le_max_right _ _))

theorem digitCount_pos (n : Nat) : 0 < digitCount n :=
  lt_of_lt_of_le Nat.one_pos (le_max_left _ _)

/-- The digits of a number spell the number. -/
theorem natOfDigits_digitCount (n : Nat) : natOfDigits 0 (digitList (digitCount n) n) = n := by
  rw [natOfDigits_digitList, Nat.mod_eq_of_lt (lt_pow_digitCount n)]
  simp

/-- The digits of a number from the front. -/
theorem digitList_succ_eq_cons (k n : Nat) :
    digitList (k + 1) n = n / 10 ^ k % 10 :: digitList k n := by
  induction k generalizing n with
  | zero => simp [digitList]
  | succ k ih =>
      rw [digitList, ih]
      simp only [digitList, List.cons_append, Nat.div_div_eq_div_mul, pow_succ, Nat.mul_comm]

/-- Only zero is written with a leading zero. -/
theorem digitList_digitCount_head {n : Nat} (hn : n ≠ 0) :
    ∃ d ds, digitList (digitCount n) n = d :: ds ∧ d ≠ 0 ∧ d < 10 := by
  obtain ⟨k, hk⟩ := Nat.exists_eq_succ_of_ne_zero (digitCount_pos n).ne'
  have hlen : digitCount n = (Nat.digits 10 n).length := by
    have : (Nat.digits 10 n).length ≠ 0 := by
      simpa [Nat.digits_eq_nil_iff_eq_zero] using hn
    unfold digitCount
    omega
  have hle : 10 ^ k ≤ n := by
    have h := Nat.base_pow_length_digits_le 10 n (by decide) hn
    rw [← hlen, hk, pow_succ] at h
    omega
  refine ⟨_, _, by rw [hk]; exact digitList_succ_eq_cons k n, ?_, Nat.mod_lt _ (by decide)⟩
  have hlt : n / 10 ^ k < 10 := by
    rw [Nat.div_lt_iff_lt_mul (by positivity), Nat.mul_comm, ← pow_succ, ← Nat.succ_eq_add_one,
      ← hk]
    exact lt_pow_digitCount n
  rw [Nat.mod_eq_of_lt hlt]
  exact (Nat.div_pos hle (by positivity)).ne'

theorem digitChar_ne_zero {d : Nat} (h : d < 10) (hd : d ≠ 0) : digitChar d ≠ '0' := by
  interval_cases d <;> first | contradiction | decide

/-! ## Numbers -/

/-- A text a number may be followed by: it continues neither digits, fraction nor exponent. -/
def Stops : List Char → Prop
  | [] => True
  | c :: _ => digitVal? c = none ∧ c ≠ '.' ∧ c ≠ 'e' ∧ c ≠ 'E'

theorem Stops.noDigitHead {s : List Char} (h : Stops s) : NoDigitHead s := by
  cases s with
  | nil => trivial
  | cons c s => exact h.1

theorem parseExponent_of_stops {s : List Char} (h : Stops s) : parseExponent s = none := by
  cases s with
  | nil => rfl
  | cons c s =>
      obtain ⟨-, -, he, hE⟩ := h
      simp [parseExponent, he, hE]

/-- The whole part of a written number is read back, whatever digit-free text follows. -/
theorem parseWhole_natText (n : Nat) {rest : List Char} (hrest : NoDigitHead rest) :
    parseWhole (natText n ++ rest) = (digitList (digitCount n) n, rest) := by
  by_cases hn : n = 0
  · subst hn
    have h0 : natText 0 = ['0'] := by decide
    have hd : digitList (digitCount 0) 0 = [0] := by decide
    rw [h0, hd]
    rfl
  · obtain ⟨d, ds, hds, hd, hlt⟩ := digitList_digitCount_head hn
    have htext : natText n = digitChar d :: ds.map digitChar := by
      simp [natText, fixedDigits, hds]
    have htake := takeDigits_map (digitList_lt (digitCount n) n) hrest
    rw [hds, List.map_cons] at htake
    rw [htext, hds, List.cons_append, parseWhole, if_neg (digitChar_ne_zero hlt hd)]
    simpa using htake

/-- Text that stops a number holds no fraction. -/
theorem parseFraction_of_stops {s : List Char} (h : Stops s) : parseFraction s = ([], s) := by
  cases s with
  | nil => rfl
  | cons c s => rw [parseFraction, if_neg h.2.1]

theorem digitList_ne_nil {k : Nat} (hk : 0 < k) (n : Nat) : digitList k n ≠ [] := by
  intro h
  have hlen := length_digitList k n
  rw [h, List.length_nil] at hlen
  omega

/-- A written fraction is read back. -/
theorem parseFraction_fixedDigits {k : Nat} (hk : 0 < k) (n : Nat) {rest : List Char}
    (hrest : Stops rest) :
    parseFraction ('.' :: (fixedDigits k n ++ rest)) = (digitList k n, rest) := by
  have htake : takeDigits (fixedDigits k n ++ rest) = (digitList k n, rest) :=
    takeDigits_map (digitList_lt k n) hrest.noDigitHead
  obtain ⟨d, ds, hds⟩ := List.exists_cons_of_ne_nil (digitList_ne_nil hk n)
  rw [hds] at htake ⊢
  rw [parseFraction, if_pos rfl, htake]

theorem parseUnsigned_whole (neg : Bool) (n : Nat) {rest : List Char} (hrest : Stops rest) :
    parseUnsigned neg (natText n ++ rest) =
      some (.int (if neg then -(n : Int) else n), rest) := by
  have hne := digitList_ne_nil (digitCount_pos n) n
  simp only [parseUnsigned, parseWhole_natText n hrest.noDigitHead, parseFraction_of_stops hrest,
    parseExponent_of_stops hrest, hne, if_false, if_true, natOfDigits_digitCount]
  rfl

theorem parseUnsigned_fraction (neg : Bool) (ip fp : Nat) {k : Nat} (hk : 0 < k)
    {rest : List Char} (hrest : Stops rest) :
    parseUnsigned neg (natText ip ++ '.' :: (fixedDigits k fp ++ rest)) =
      some (.float (.ofScaled (if neg then -((ip * 10 ^ k + fp % 10 ^ k : Nat) : Int)
        else (ip * 10 ^ k + fp % 10 ^ k : Nat)) k), rest) := by
  have hpoint : NoDigitHead ('.' :: (fixedDigits k fp ++ rest)) := by
    show digitVal? '.' = none
    decide
  have hval : natOfDigits (natOfDigits 0 (digitList (digitCount ip) ip)) (digitList k fp) =
      ip * 10 ^ k + fp % 10 ^ k := by
    rw [natOfDigits_digitCount, natOfDigits_digitList]
  simp only [parseUnsigned, parseWhole_natText ip hpoint, parseFraction_fixedDigits hk fp hrest,
    parseExponent_of_stops hrest, digitList_ne_nil (digitCount_pos ip) ip, digitList_ne_nil hk fp,
    if_false, hval, length_digitList]

theorem natText_head_digit (n : Nat) : ∃ d s, d < 10 ∧ natText n = digitChar d :: s := by
  obtain ⟨k, hk⟩ := Nat.exists_eq_succ_of_ne_zero (digitCount_pos n).ne'
  exact ⟨_, _, Nat.mod_lt (n / 10 ^ k) (by decide), by
    rw [natText, fixedDigits, hk, Nat.succ_eq_add_one, digitList_succ_eq_cons, List.map_cons]⟩

theorem digitChar_ne_minus {d : Nat} (h : d < 10) : digitChar d ≠ '-' := by
  interval_cases d <;> decide

/-- A sign is read back before any digits. -/
theorem parseNumber_signText (z : Int) (n : Nat) (s : List Char) :
    parseNumber (signText z ++ (natText n ++ s)) =
      parseUnsigned (decide (z < 0)) (natText n ++ s) := by
  by_cases hz : z < 0
  · simp [signText, hz, parseNumber]
  · obtain ⟨d, t, hd, ht⟩ := natText_head_digit n
    rw [ht]
    simp [signText, hz, parseNumber, digitChar_ne_minus hd]

theorem parseNumber_int (z : Int) {rest : List Char} (hrest : Stops rest) :
    parseNumber (signText z ++ natText z.natAbs ++ rest) = some (.int z, rest) := by
  rw [List.append_assoc, parseNumber_signText, parseUnsigned_whole _ _ hrest]
  by_cases hz : z < 0
  · simp only [hz, decide_true, if_true]
    congr 3
    omega
  · simp only [hz, decide_false, Bool.false_eq_true, if_false]
    congr 3
    omega

theorem parseNumber_decimal (d : Decimal) {rest : List Char} (hrest : Stops rest) :
    parseNumber (decimalText d ++ rest) = some (.float d, rest) := by
  obtain ⟨k, fp, hk, hfrac, hval⟩ : ∃ k fp, 0 < k ∧ fracText d = fixedDigits k fp ∧
      Decimal.ofScaled (if d.mantissa < 0
          then -((d.mantissa.natAbs / 10 ^ d.places * 10 ^ k + fp % 10 ^ k : Nat) : Int)
          else (d.mantissa.natAbs / 10 ^ d.places * 10 ^ k + fp % 10 ^ k : Nat)) k = d := by
    by_cases hp : d.places = 0
    · refine ⟨1, 0, by decide, by simp [fracText, hp, fixedDigits, digitList]; decide, ?_⟩
      have h : (if d.mantissa < 0
          then -((d.mantissa.natAbs / 10 ^ d.places * 10 ^ 1 + 0 % 10 ^ 1 : Nat) : Int)
          else (d.mantissa.natAbs / 10 ^ d.places * 10 ^ 1 + 0 % 10 ^ 1 : Nat)) =
          d.mantissa * 10 := by
        have hn : d.mantissa.natAbs / 10 ^ d.places * 10 ^ 1 + 0 % 10 ^ 1 =
            d.mantissa.natAbs * 10 := by simp [hp]
        rw [hn]
        split_ifs <;> omega
      have := Decimal.ofScaled_parts d
      rw [hp] at this
      rw [h, Decimal.ofScaled_mul_ten, this]
    · refine ⟨d.places, d.mantissa.natAbs % 10 ^ d.places, Nat.pos_of_ne_zero hp, by
        simp [fracText, hp], ?_⟩
      have hsum : d.mantissa.natAbs / 10 ^ d.places * 10 ^ d.places +
          d.mantissa.natAbs % 10 ^ d.places % 10 ^ d.places = d.mantissa.natAbs := by
        rw [Nat.mod_mod, Nat.mul_comm]
        exact Nat.div_add_mod _ _
      rw [hsum]
      have hm : (if d.mantissa < 0 then -((d.mantissa.natAbs : Nat) : Int)
          else (d.mantissa.natAbs : Nat)) = d.mantissa := by
        split_ifs <;> omega
      rw [hm, Decimal.ofScaled_parts]
  unfold decimalText
  rw [hfrac, List.append_assoc, List.append_assoc, List.cons_append, parseNumber_signText,
    parseUnsigned_fraction _ _ _ hk hrest]
  simp only [decide_eq_true_eq, hval]

/-! ## Strings -/

theorem hexVal?_hexChar {d : Nat} (h : d < 16) : hexVal? (hexChar d) = some d := by
  interval_cases d <;> decide

/-- An escaped character is read back. -/
theorem parseStr_escape (c : Char) (n : Nat) (s : List Char) :
    parseStr (n + 1) (escape c ++ s) = (parseStr n s).map fun p => (c :: p.1, p.2) := by
  have hbind : ∀ o : Option (List Char × List Char), ∀ c : Char,
      (o.bind fun p => some (c :: p.1, p.2)) = o.map fun p => (c :: p.1, p.2) := by
    intro o c
    cases o <;> rfl
  unfold escape
  split_ifs with h1 h2 h3 h4 h5 h6 h7 h8
  · subst h1
    exact hbind _ _
  · subst h2
    exact hbind _ _
  · subst h3
    exact hbind _ _
  · subst h4
    exact hbind _ _
  · subst h5
    exact hbind _ _
  · subst h6
    exact hbind _ _
  · subst h7
    exact hbind _ _
  · have hx := hexVal?_hexChar (d := c.toNat / 16) (by omega)
    have hy := hexVal?_hexChar (d := c.toNat % 16) (Nat.mod_lt _ (by decide))
    have hcode : ((0 * 16 + 0) * 16 + c.toNat / 16) * 16 + c.toNat % 16 = c.toNat := by omega
    have hzero : hexVal? '0' = some 0 := by decide
    have hvalid : c.toNat.isValidChar := .inl (by omega)
    simp only [List.cons_append, List.nil_append, parseStr, parseHex4, hx, hy, hzero, hcode,
      bind, Option.bind, pure, hvalid, if_true, Char.ofNat_toNat]
    simp only [show ¬ ('\\' = '"') by decide, if_false]
    cases parseStr n s <;> rfl
  · simp only [List.cons_append, List.nil_append, parseStr, h1, h2, h8, if_false]
    exact hbind _ _

theorem one_le_length_escape (c : Char) : 1 ≤ (escape c).length := by
  unfold escape
  split_ifs <;> simp

/-- A written string is read back, given fuel for its characters. -/
theorem parseStr_stringText (cs : List Char) {n : Nat} (hn : cs.length < n) (rest : List Char) :
    parseStr n (stringText cs ++ rest) = some (cs, rest) := by
  induction cs generalizing n with
  | nil =>
      obtain ⟨m, rfl⟩ := Nat.exists_eq_succ_of_ne_zero (Nat.ne_of_gt hn)
      rfl
  | cons c cs ih =>
      obtain ⟨m, rfl⟩ := Nat.exists_eq_succ_of_ne_zero (Nat.ne_of_gt (Nat.zero_lt_of_lt hn))
      have htext : stringText (c :: cs) ++ rest = escape c ++ (stringText cs ++ rest) := by
        simp [stringText]
      rw [htext, Nat.succ_eq_add_one, parseStr_escape,
        ih (by simpa using Nat.lt_of_succ_lt_succ hn)]
      rfl

theorem length_lt_stringText (cs : List Char) : cs.length < (stringText cs).length := by
  induction cs with
  | nil => decide
  | cons c cs ih =>
      have hc := one_le_length_escape c
      simp only [stringText, List.flatMap_cons, List.length_append, List.length_cons] at ih ⊢
      omega

/-- A written string is read back with the fuel a value's reader has for it. -/
theorem parseStr_full (cs rest : List Char) :
    parseStr ((stringText cs ++ rest).length + 1) (stringText cs ++ rest) = some (cs, rest) := by
  refine parseStr_stringText cs ?_ rest
  have := length_lt_stringText cs
  rw [List.length_append]
  omega

/-! ## Values -/

mutual

/-- The fuel a value's text needs. -/
def size : Json → Nat
  | .arr items => 1 + sizeItems items
  | .obj fields => 1 + sizeFields fields
  | _ => 1

def sizeItems : List Json → Nat
  | [] => 1
  | x :: xs => 1 + size x + sizeItems xs

def sizeFields : List (String × Json) → Nat
  | [] => 1
  | (_, x) :: xs => 1 + size x + sizeFields xs

end

theorem length_natText_pos (n : Nat) : 0 < (natText n).length := by
  simp [natText, fixedDigits, digitCount_pos]

mutual

/-- Twice the text is fuel enough. -/
theorem size_le_dumps : ∀ j : Json, size j ≤ 2 * (dumps j).length
  | .null => by decide
  | .bool true => by decide
  | .bool false => by decide
  | .int z => by
      have := length_natText_pos z.natAbs
      simp only [size, dumps, List.length_append]
      omega
  | .float d => by
      simp only [size, dumps, decimalText, List.length_append, List.length_cons]
      omega
  | .str s => by
      simp only [size, dumps, List.length_cons]
      omega
  | .arr items => by
      have := sizeItems_le_dumps items
      simp only [size, dumps, List.length_cons]
      omega
  | .obj fields => by
      have := sizeFields_le_dumps fields
      simp only [size, dumps, List.length_cons]
      omega

theorem sizeItems_le_dumps : ∀ items : List Json, sizeItems items ≤ 2 * (dumpsItems items).length
  | [] => by decide
  | [x] => by
      have := size_le_dumps x
      simp only [sizeItems, dumpsItems, List.length_append, List.length_singleton]
      omega
  | x :: y :: rest => by
      have h1 := size_le_dumps x
      have h2 := sizeItems_le_dumps (y :: rest)
      rw [sizeItems, dumpsItems, List.length_append, List.length_cons]
      omega

theorem sizeFields_le_dumps : ∀ fields : List (String × Json),
    sizeFields fields ≤ 2 * (dumpsFields fields).length
  | [] => by decide
  | [(k, x)] => by
      have := size_le_dumps x
      simp only [sizeFields, dumpsFields, List.length_append, List.length_cons,
        List.length_nil]
      omega
  | (k, x) :: y :: rest => by
      have h1 := size_le_dumps x
      have h2 := sizeFields_le_dumps (y :: rest)
      rw [sizeFields, dumpsFields]
      simp only [List.length_append, List.length_cons]
      omega

end

/-- A character a number starts with. -/
def NumberHead (c : Char) : Prop := c = '-' ∨ ∃ d, d < 10 ∧ c = digitChar d

theorem numberHead_cases {c : Char} (h : NumberHead c) :
    isWs c = false ∧ c ≠ ']' ∧ c ≠ '"' ∧ c ≠ '[' ∧ c ≠ '{' ∧ c ≠ 'n' ∧ c ≠ 't' ∧ c ≠ 'f' := by
  rcases h with rfl | ⟨d, hd, rfl⟩
  · decide
  · interval_cases d <;> decide

theorem signed_head (z : Int) (n : Nat) (s : List Char) :
    ∃ c r, NumberHead c ∧ signText z ++ (natText n ++ s) = c :: r := by
  by_cases hz : z < 0
  · exact ⟨'-', natText n ++ s, .inl rfl, by simp [signText, hz]⟩
  · obtain ⟨d, t, hd, ht⟩ := natText_head_digit n
    exact ⟨digitChar d, t ++ s, .inr ⟨d, hd, rfl⟩, by simp [signText, hz, ht]⟩

/-- A written value starts with neither white space nor a closing bracket. -/
theorem dumps_head (j : Json) : ∃ c r, dumps j = c :: r ∧ isWs c = false ∧ c ≠ ']' := by
  cases j with
  | null => exact ⟨'n', _, rfl, by decide, by decide⟩
  | bool b => cases b
              · exact ⟨'f', _, rfl, by decide, by decide⟩
              · exact ⟨'t', _, rfl, by decide, by decide⟩
  | int z =>
      obtain ⟨c, r, hc, hr⟩ := signed_head z z.natAbs []
      rw [List.append_nil] at hr
      exact ⟨c, r, hr, (numberHead_cases hc).1, (numberHead_cases hc).2.1⟩
  | float d =>
      obtain ⟨c, r, hc, hr⟩ := signed_head d.mantissa (d.mantissa.natAbs / 10 ^ d.places)
        ('.' :: fracText d)
      rw [← List.append_assoc] at hr
      exact ⟨c, r, hr, (numberHead_cases hc).1, (numberHead_cases hc).2.1⟩
  | str s => exact ⟨'"', _, rfl, by decide, by decide⟩
  | arr items => exact ⟨'[', _, rfl, by decide, by decide⟩
  | obj fields => exact ⟨'{', _, rfl, by decide, by decide⟩

theorem skipWs_cons {c : Char} (h : isWs c = false) (s : List Char) :
    skipWs (c :: s) = c :: s := by
  simp [skipWs, h]

theorem skipWs_dumps (j : Json) (s : List Char) : skipWs (dumps j ++ s) = dumps j ++ s := by
  obtain ⟨c, r, h, hc, -⟩ := dumps_head j
  rw [h, List.cons_append, skipWs_cons hc]

/-- A text a number starts is read as a number. -/
theorem parseValue_number {c : Char} (hc : NumberHead c) (n : Nat) (r : List Char) :
    parseValue (n + 1) (c :: r) = parseNumber (c :: r) := by
  obtain ⟨hws, -, h1, h2, h3, h4, h5, h6⟩ := numberHead_cases hc
  simp [parseValue, skipWs_cons hws, h1, h2, h3, Ne.symm h4, Ne.symm h5, Ne.symm h6]

theorem stops_of_delimiter {c : Char} (h : c = ',' ∨ c = ']' ∨ c = '}') (s : List Char) :
    Stops (c :: s) := by
  rcases h with rfl | rfl | rfl
  all_goals exact ⟨by decide, by decide, by decide, by decide⟩

mutual

/-- **A written value is read back**, whatever may follow it. -/
theorem parseValue_dumps : ∀ (j : Json), WF j → ∀ n, size j ≤ n → ∀ rest, Stops rest →
    parseValue n (dumps j ++ rest) = some (j, rest)
  | j, hwf, 0, hn, rest, hrest => by cases j <;> simp [size] at hn
  | .null, _, n + 1, _, rest, _ => by
      simp [dumps, parseValue, skipWs, isWs]
  | .bool true, _, n + 1, _, rest, _ => by
      simp [dumps, parseValue, skipWs, isWs]
  | .bool false, _, n + 1, _, rest, _ => by
      simp [dumps, parseValue, skipWs, isWs]
  | .int z, _, n + 1, _, rest, hrest => by
      have hnum := parseNumber_int z hrest
      obtain ⟨c, r, hc, hr⟩ := signed_head z z.natAbs rest
      rw [List.append_assoc] at hnum
      rw [dumps, List.append_assoc, hr, parseValue_number hc, ← hr, hnum]
  | .float d, _, n + 1, _, rest, hrest => by
      have hnum := parseNumber_decimal d hrest
      obtain ⟨c, r, hc, hr⟩ := signed_head d.mantissa (d.mantissa.natAbs / 10 ^ d.places)
        ('.' :: fracText d ++ rest)
      have hr' : decimalText d ++ rest = c :: r := by
        rw [← hr, decimalText]
        simp
      rw [dumps, hr', parseValue_number hc, ← hr', hnum]
  | .str s, _, n + 1, _, rest, _ => by
      have hws : isWs '"' = false := by decide
      rw [dumps, List.cons_append, parseValue, skipWs_cons hws]
      simp only [if_true, parseStr_full, Option.map_some, String.ofList_toList]
  | .arr items, hwf, n + 1, hn, rest, _ => by
      have hws : isWs '[' = false := by decide
      rw [dumps, List.cons_append, parseValue, skipWs_cons hws]
      simp only [show ¬ ('[' = '"') by decide, if_false, if_true]
      cases items with
      | nil => rfl
      | cons x xs =>
          have hbody := parseItems_dumps (x :: xs) (List.cons_ne_nil _ _) hwf n
            (by simp only [size] at hn; omega) [] rest
          obtain ⟨c, r, hhead, hcws, hcb⟩ := dumps_head x
          obtain ⟨t, htext⟩ : ∃ t, dumpsItems (x :: xs) ++ rest = c :: t := by
            cases xs <;> exact ⟨_, by rw [dumpsItems, hhead]; rfl⟩
          rw [htext] at hbody ⊢
          rw [skipWs_cons hcws]
          split
          · rename_i heq
            injection heq with h _
            exact absurd h hcb
          · exact hbody
  | .obj fields, hwf, n + 1, hn, rest, _ => by
      have hws : isWs '{' = false := by decide
      rw [dumps, List.cons_append, parseValue, skipWs_cons hws]
      simp only [show ¬ ('{' = '"') by decide, show ¬ ('{' = '[') by decide, if_false, if_true]
      cases fields with
      | nil => rfl
      | cons field xs =>
          have hbody := parseFields_dumps (field :: xs) (List.cons_ne_nil _ _) hwf.1 hwf.2 n
            (by simp only [size] at hn; omega) [] (by simp) rest
          obtain ⟨k, x⟩ := field
          obtain ⟨t, htext⟩ : ∃ t, dumpsFields ((k, x) :: xs) ++ rest = '"' :: t := by
            cases xs <;> exact ⟨_, by rw [dumpsFields]; rfl⟩
          have hqws : isWs '"' = false := by decide
          rw [htext] at hbody ⊢
          rw [skipWs_cons hqws]
          exact hbody

/-- The items of an array after the first bracket. -/
theorem parseItems_dumps : ∀ (items : List Json), items ≠ [] → WFItems items →
    ∀ n, sizeItems items ≤ n → ∀ acc rest,
      parseItems n (dumpsItems items ++ rest) acc = some (.arr (acc ++ items), rest)
  | [], hne, _, _, _, _, _ => absurd rfl hne
  | x :: xs, _, _, 0, hn, _, _ => by
      simp only [sizeItems] at hn
      omega
  | [x], _, hwf, n + 1, hn, acc, rest => by
      have hx := parseValue_dumps x hwf.1 n (by simp only [sizeItems] at hn; omega) (']' :: rest)
        (stops_of_delimiter (by simp) rest)
      have hws : isWs ']' = false := by decide
      rw [dumpsItems, List.append_assoc, List.singleton_append, parseItems, hx]
      simp [skipWs_cons hws]
  | x :: y :: ys, _, hwf, n + 1, hn, acc, rest => by
      have hx := parseValue_dumps x hwf.1 n (by simp only [sizeItems] at hn ⊢; omega)
        (',' :: (dumpsItems (y :: ys) ++ rest)) (stops_of_delimiter (by simp) _)
      have hxs := parseItems_dumps (y :: ys) (List.cons_ne_nil _ _) hwf.2 n
        (by simp only [sizeItems] at hn ⊢; omega) (acc ++ [x]) rest
      have hws : isWs ',' = false := by decide
      rw [dumpsItems, List.append_assoc, List.cons_append, parseItems, hx]
      simp [skipWs_cons hws, hxs]

/-- The fields of an object after the first brace. -/
theorem parseFields_dumps : ∀ (fields : List (String × Json)), fields ≠ [] → KeysSorted fields →
    WFFields fields → ∀ n, sizeFields fields ≤ n → ∀ acc : List (String × Json),
      (∀ l ∈ acc.map Prod.fst, ∀ k ∈ fields.map Prod.fst, l < k) → ∀ rest,
        parseFields n (dumpsFields fields ++ rest) acc = some (.obj (acc ++ fields), rest)
  | [], hne, _, _, _, _, _, _, _ => absurd rfl hne
  | (k, x) :: xs, _, _, _, 0, hn, _, _, _ => by
      simp only [sizeFields] at hn
      omega
  | [(k, x)], _, _, hwf, n + 1, hn, acc, hacc, rest => by
      have hx := parseValue_dumps x hwf.1 n (by simp only [sizeFields] at hn; omega)
        ('}' :: rest) (stops_of_delimiter (by simp) rest)
      have hset : Fields.setField k x acc = acc ++ [(k, x)] :=
        setField_append fun l hl => hacc l hl k (by simp)
      have hq : isWs '"' = false := by decide
      have hc : isWs ':' = false := by decide
      have hb : isWs '}' = false := by decide
      have htext : dumpsFields [(k, x)] ++ rest =
          '"' :: (stringText k.toList ++ (':' :: (dumps x ++ '}' :: rest))) := by
        simp [dumpsFields]
      rw [htext, parseFields, skipWs_cons hq]
      simp only [parseStr_full, bind, Option.bind, skipWs_cons hc, hx, skipWs_cons hb,
        String.ofList_toList]
      simp [hset]
  | (k, x) :: y :: ys, _, hsorted, hwf, n + 1, hn, acc, hacc, rest => by
      obtain ⟨hlt, hrest⟩ := keysSorted_cons.mp hsorted
      have hx := parseValue_dumps x hwf.1 n (by simp only [sizeFields] at hn ⊢; omega)
        (',' :: (dumpsFields (y :: ys) ++ rest)) (stops_of_delimiter (by simp) _)
      have hxs := parseFields_dumps (y :: ys) (List.cons_ne_nil _ _) hrest hwf.2 n
        (by simp only [sizeFields] at hn ⊢; omega) (acc ++ [(k, x)])
        (by
          intro l hl m hm
          rw [List.map_append, List.mem_append] at hl
          rcases hl with hl | hl
          · exact hacc l hl m (by simp only [List.map_cons, List.mem_cons] at hm ⊢; tauto)
          · rw [List.mem_singleton.mp hl]
            exact hlt m hm) rest
      have hset : Fields.setField k x acc = acc ++ [(k, x)] :=
        setField_append fun l hl => hacc l hl k (by simp)
      have hq : isWs '"' = false := by decide
      have hc : isWs ':' = false := by decide
      have hm : isWs ',' = false := by decide
      have htext : dumpsFields ((k, x) :: y :: ys) ++ rest = '"' :: (stringText k.toList ++
          (':' :: (dumps x ++ ',' :: (dumpsFields (y :: ys) ++ rest)))) := by
        simp [dumpsFields]
      rw [htext, parseFields, skipWs_cons hq]
      simp only [parseStr_full, bind, Option.bind, skipWs_cons hc, hx, skipWs_cons hm,
        String.ofList_toList]
      simp [hset, hxs]

end

/-! ## Printable text -/

/-- A text without control characters. -/
def Printable (s : List Char) : Prop := ∀ c ∈ s, 32 ≤ c.toNat

theorem printable_append {s t : List Char} : Printable (s ++ t) ↔ Printable s ∧ Printable t := by
  simp only [Printable, List.mem_append]
  exact ⟨fun h => ⟨fun c hc => h c (.inl hc), fun c hc => h c (.inr hc)⟩,
    fun h c hc => hc.elim (h.1 c) (h.2 c)⟩

theorem printable_cons {c : Char} {s : List Char} :
    Printable (c :: s) ↔ 32 ≤ c.toNat ∧ Printable s := by
  simp [Printable]

theorem printable_nil : Printable [] := by
  simp [Printable]

theorem printable_fixedDigits (k n : Nat) : Printable (fixedDigits k n) := by
  intro c hc
  obtain ⟨d, hd, rfl⟩ := List.mem_map.mp hc
  have hlt := digitList_lt _ _ d hd
  interval_cases d <;> decide

theorem printable_natText (n : Nat) : Printable (natText n) := printable_fixedDigits _ _

theorem printable_signText (z : Int) : Printable (signText z) := by
  unfold signText
  split_ifs
  · simp [Printable]
  · exact printable_nil

theorem printable_decimalText (d : Decimal) : Printable (decimalText d) := by
  have hfrac : Printable (fracText d) := by
    unfold fracText
    split_ifs
    · simp [Printable]
    · exact printable_fixedDigits _ _
  simp only [decimalText, printable_append, printable_cons]
  exact ⟨⟨printable_signText _, printable_natText _⟩, by decide, hfrac⟩

theorem printable_escape (c : Char) : Printable (escape c) := by
  have hhex : ∀ d < 16, 32 ≤ (hexChar d).toNat := by
    intro d hd
    interval_cases d <;> decide
  unfold escape
  split_ifs with h1 h2 h3 h4 h5 h6 h7 h8
  · simp [Printable]
  · simp [Printable]
  · simp [Printable]
  · simp [Printable]
  · simp [Printable]
  · simp [Printable]
  · simp [Printable]
  · have hx := hhex (c.toNat / 16) (by omega)
    have hy := hhex (c.toNat % 16) (Nat.mod_lt _ (by decide))
    simp [Printable, hx, hy]
  · simpa [Printable] using h8

theorem printable_stringText (s : List Char) : Printable (stringText s) := by
  rw [stringText, printable_append]
  refine ⟨fun c hc => ?_, by simp [Printable]⟩
  obtain ⟨d, -, hd⟩ := List.mem_flatMap.mp hc
  exact printable_escape d c hd

mutual

/-- A written value holds no control character, so it is one line. -/
theorem printable_dumps : ∀ j : Json, Printable (dumps j)
  | .null => by simp [dumps, Printable]
  | .bool true => by simp [dumps, Printable]
  | .bool false => by simp [dumps, Printable]
  | .int z => by
      rw [dumps, printable_append]
      exact ⟨printable_signText _, printable_natText _⟩
  | .float d => printable_decimalText d
  | .str s => by
      rw [dumps, printable_cons]
      exact ⟨by decide, printable_stringText _⟩
  | .arr items => by
      rw [dumps, printable_cons]
      exact ⟨by decide, printable_dumpsItems items⟩
  | .obj fields => by
      rw [dumps, printable_cons]
      exact ⟨by decide, printable_dumpsFields fields⟩

theorem printable_dumpsItems : ∀ items : List Json, Printable (dumpsItems items)
  | [] => by simp [dumpsItems, Printable]
  | [x] => by
      rw [dumpsItems, printable_append]
      exact ⟨printable_dumps x, by simp [Printable]⟩
  | x :: y :: rest => by
      rw [dumpsItems, printable_append, printable_cons]
      exact ⟨printable_dumps x, by decide, printable_dumpsItems (y :: rest)⟩

theorem printable_dumpsFields : ∀ fields : List (String × Json), Printable (dumpsFields fields)
  | [] => by simp [dumpsFields, Printable]
  | [(k, x)] => by
      simp only [dumpsFields, List.cons_append, printable_append, printable_cons]
      exact ⟨by decide, ⟨printable_stringText _, by decide, printable_dumps x⟩, by decide,
        printable_nil⟩
  | (k, x) :: y :: rest => by
      simp only [dumpsFields, List.cons_append, printable_append, printable_cons]
      exact ⟨by decide, ⟨printable_stringText _, by decide, printable_dumps x⟩, by decide,
        printable_dumpsFields (y :: rest)⟩

end

/-! ## What is read is well formed -/

/-- A number read is well formed. -/
theorem wf_parseNumber {s rest : List Char} {j : Json} (h : parseNumber s = some (j, rest)) :
    WF j := by
  have hunsigned : ∀ neg t, parseUnsigned neg t = some (j, rest) → WF j := by
    intro neg t ht
    simp only [parseUnsigned] at ht
    split_ifs at ht <;> split at ht <;>
      · obtain ⟨rfl, -⟩ := Prod.mk.inj (Option.some.inj ht)
        trivial
  cases s with
  | nil => simp [parseNumber] at h
  | cons c t =>
      simp only [parseNumber] at h
      split_ifs at h
      · exact hunsigned _ _ h
      · exact hunsigned _ _ h

/-- What is read is well formed: an object's later value under a key replaces an earlier one. -/
theorem wf_parse (n : Nat) :
    (∀ s j rest, parseValue n s = some (j, rest) → WF j) ∧
    (∀ s acc j rest, (∀ x ∈ acc, WF x) → parseItems n s acc = some (j, rest) → WF j) ∧
    ∀ s acc j rest, WF (.obj acc) → parseFields n s acc = some (j, rest) → WF j := by
  induction n with
  | zero =>
      refine ⟨fun s j rest h => ?_, fun s acc j rest _ h => ?_, fun s acc j rest _ h => ?_⟩
      · simp [parseValue] at h
      · simp [parseItems] at h
      · simp [parseFields] at h
  | succ n ih =>
      obtain ⟨hvalue, hitems, hfields⟩ := ih
      refine ⟨fun s j rest h => ?_, fun s acc j rest hacc h => ?_, fun s acc j rest hacc h => ?_⟩
      · rw [parseValue] at h
        split at h
        · simp at h
        · rename_i c r _
          split_ifs at h
          · obtain ⟨p, -, hp⟩ := Option.map_eq_some_iff.mp h
            obtain ⟨rfl, -⟩ := Prod.mk.inj hp
            trivial
          · split at h
            · obtain ⟨rfl, -⟩ := Prod.mk.inj (Option.some.inj h)
              simp
            · exact hitems _ _ _ _ (by simp) h
          · split at h
            · obtain ⟨rfl, -⟩ := Prod.mk.inj (Option.some.inj h)
              simp [wf_obj]
            · exact hfields _ _ _ _ (by simp [wf_obj]) h
          · obtain ⟨rfl, -⟩ := Prod.mk.inj (Option.some.inj h)
            trivial
          · obtain ⟨rfl, -⟩ := Prod.mk.inj (Option.some.inj h)
            trivial
          · obtain ⟨rfl, -⟩ := Prod.mk.inj (Option.some.inj h)
            trivial
          · exact wf_parseNumber h
      · rw [parseItems] at h
        obtain ⟨⟨v, rest'⟩, hv, h⟩ := Option.bind_eq_some_iff.mp h
        have hacc' : ∀ x ∈ acc ++ [v], WF x := by
          intro x hx
          rcases List.mem_append.mp hx with hx | hx
          · exact hacc x hx
          · rw [List.mem_singleton.mp hx]
            exact hvalue _ _ _ hv
        dsimp only at h
        split at h
        · exact hitems _ _ _ _ hacc' h
        · obtain ⟨rfl, -⟩ := Prod.mk.inj (Option.some.inj h)
          exact wf_arr.mpr hacc'
        · simp at h
      · rw [parseFields] at h
        split at h
        · obtain ⟨⟨key, rest₁⟩, -, h⟩ := Option.bind_eq_some_iff.mp h
          dsimp only at h
          split at h
          · obtain ⟨⟨v, rest₂⟩, hv, h⟩ := Option.bind_eq_some_iff.mp h
            have hset := wf_set hacc (hvalue _ _ _ hv) (String.ofList key)
            dsimp only at h
            split at h
            · exact hfields _ _ _ _ hset h
            · obtain ⟨rfl, -⟩ := Prod.mk.inj (Option.some.inj h)
              exact hset
            · simp at h
          · simp at h
        · simp at h

/-- **What is read is well formed.** -/
theorem wf_loads {s : List Char} {j : Json} (h : loads s = some j) : WF j := by
  unfold loads at h
  split at h
  · rename_i v rest hv
    split_ifs at h
    rw [← Option.some.inj h]
    exact (wf_parse _).1 _ _ _ hv
  · simp at h

/-! ## Documents -/

/-- Reading a written document, with white space after it, gives the value back. -/
theorem loads_dumps_append {j : Json} (h : WF j) {tail : List Char} (htail : skipWs tail = [])
    (hstop : Stops tail) : loads (dumps j ++ tail) = some j := by
  have hfuel : size j ≤ 2 * (dumps j ++ tail).length + 1 := by
    have := size_le_dumps j
    rw [List.length_append]
    omega
  rw [loads, parseValue_dumps j h _ hfuel tail hstop]
  simp [htail]

/-- **The round trip.** -/
theorem loads_dumps {j : Json} (h : WF j) : loads (dumps j) = some j := by
  have : loads (dumps j ++ []) = some j := loads_dumps_append h rfl trivial
  rwa [List.append_nil] at this

/-- Well-formed values are equal when their texts are. -/
theorem dumps_injective {a b : Json} (ha : WF a) (hb : WF b) (h : dumps a = dumps b) : a = b := by
  have := loads_dumps ha
  rw [h, loads_dumps hb] at this
  exact (Option.some.inj this).symm

end Golavo.Lib.Json
