import Golavo.Lib.JsonRoundTrip

/-! # The calendar and ISO 8601 text

Days since 1970-01-01 as proleptic Gregorian dates, and instants as the text
`YYYY-MM-DDTHH:MM:SS[.ffffff]Z`. A written day is read back (`readDay_isoDay`) and so is a written
instant (`readInstant_isoUtc`), as long as the year has four digits (`Writable`). -/

namespace Golavo.Lib.Calendar

open Golavo.Lib.Json (digitList fixedDigits digitVal? natOfDigits digitVal?_digitChar
  digitList_lt natOfDigits_digitList length_digitList digitChar takeDigits takeDigits_map NoDigitHead)

/-! ## Civil dates -/

/-- A date of the proleptic Gregorian calendar. -/
structure CivilDate where
  year : Int
  month : Int
  day : Int
  deriving DecidableEq, Repr

/-- The days of a 400-year era before one of its years, which begin in March. -/
def daysBeforeYear (yoe : Int) : Int := 365 * yoe + yoe / 4 - yoe / 100

/-- The year of a 400-year era a day of it falls in: whole centuries, whole leap cycles, whole
years, where the last of each may run one day longer. -/
def yearOfEra (doe : Int) : Int :=
  let century := min 3 (doe / 36524)
  let rest := doe - 36524 * century
  100 * century + 4 * (rest / 1461) + min 3 (rest % 1461 / 365)

/-- The date of a day: the year is counted from March, so a leap day is a year's last. -/
def civilOfDays (z : Int) : CivilDate :=
  let doe := (z + 719468) % 146097
  let yoe := yearOfEra doe
  let doy := doe - daysBeforeYear yoe
  let mp := (5 * doy + 2) / 153
  { year := yoe + (z + 719468) / 146097 * 400 + (if mp < 10 then 0 else 1)
    month := if mp < 10 then mp + 3 else mp - 9
    day := doy - (153 * mp + 2) / 5 + 1 }

/-- The day of a date. -/
def daysOfCivil (c : CivilDate) : Int :=
  let y := if c.month ≤ 2 then c.year - 1 else c.year
  let mp := if c.month ≤ 2 then c.month + 9 else c.month - 3
  y / 400 * 146097 + daysBeforeYear (y % 400) + (153 * mp + 2) / 5 + (c.day - 1) - 719468

/-- Every day of an era falls in one of its 400 years, and in one of that year's 366 days. -/
theorem yearOfEra_bounds {doe : Int} (h₀ : 0 ≤ doe) (h₁ : doe < 146097) :
    0 ≤ yearOfEra doe ∧ yearOfEra doe < 400 ∧
      0 ≤ doe - daysBeforeYear (yearOfEra doe) ∧ doe - daysBeforeYear (yearOfEra doe) < 366 := by
  obtain ⟨c, hc⟩ : ∃ c, c = min 3 (doe / 36524) := ⟨_, rfl⟩
  obtain ⟨q, hq⟩ : ∃ q, q = (doe - 36524 * c) / 1461 := ⟨_, rfl⟩
  obtain ⟨y, hy⟩ : ∃ y, y = min 3 ((doe - 36524 * c) % 1461 / 365) := ⟨_, rfl⟩
  have hyoe : yearOfEra doe = 100 * c + 4 * q + y := by rw [hq, hy, hc]; rfl
  have hc' : 0 ≤ c ∧ c ≤ 3 ∧ 0 ≤ doe - 36524 * c ∧ doe - 36524 * c ≤ 36524 := by omega
  have hq' : 0 ≤ q ∧ q ≤ 24 := by omega
  have hy' : 0 ≤ y ∧ y ≤ 3 := by omega
  have h4 : (100 * c + 4 * q + y) / 4 = 25 * c + q := by omega
  have h100 : (100 * c + 4 * q + y) / 100 = c := by omega
  rw [hyoe, daysBeforeYear, h4, h100]
  refine ⟨by omega, by omega, ?_, ?_⟩
  · omega
  · omega

/-- A day of a year falls in one of its twelve months. -/
theorem month_bounds {doy : Int} (h₀ : 0 ≤ doy) (h₁ : doy < 366) :
    0 ≤ (5 * doy + 2) / 153 ∧ (5 * doy + 2) / 153 < 12 := by
  omega

/-- The day of a date given by its era, its year of the era and its month, from March. -/
theorem daysOfCivil_parts {era yoe mp : Int} (d : Int) (hy₀ : 0 ≤ yoe) (hy₁ : yoe < 400)
    (hm₀ : 0 ≤ mp) (hm₁ : mp < 12) :
    daysOfCivil ⟨yoe + era * 400 + (if mp < 10 then 0 else 1),
      if mp < 10 then mp + 3 else mp - 9, d⟩ =
        era * 146097 + daysBeforeYear yoe + (153 * mp + 2) / 5 + (d - 1) - 719468 := by
  have hera : (yoe + era * 400) / 400 = era := by omega
  have hyoe : (yoe + era * 400) % 400 = yoe := by omega
  by_cases hmp : mp < 10
  · have hm : ¬ mp + 3 ≤ 2 := by omega
    simp only [daysOfCivil, hmp, if_true, hm, if_false, add_zero, hera, hyoe,
      add_sub_cancel_right]
  · have hm : mp - 9 ≤ 2 := by omega
    simp only [daysOfCivil, hmp, if_true, hm, if_false, add_sub_cancel_right, hera, hyoe,
      sub_add_cancel]

/-- A day's date names that day. -/
@[simp] theorem daysOfCivil_civilOfDays (z : Int) : daysOfCivil (civilOfDays z) = z := by
  obtain ⟨hy₀, hy₁, hd₀, hd₁⟩ :=
    @yearOfEra_bounds ((z + 719468) % 146097) (by omega) (by omega)
  obtain ⟨hm₀, hm₁⟩ := month_bounds hd₀ hd₁
  have hz := Int.mul_ediv_add_emod (z + 719468) 146097
  rw [civilOfDays, daysOfCivil_parts _ hy₀ hy₁ hm₀ hm₁]
  omega

/-- The months and days a date can have. -/
theorem civilOfDays_bounds (z : Int) :
    1 ≤ (civilOfDays z).month ∧ (civilOfDays z).month ≤ 12 ∧
      1 ≤ (civilOfDays z).day ∧ (civilOfDays z).day ≤ 31 := by
  obtain ⟨-, -, hd₀, hd₁⟩ :=
    @yearOfEra_bounds ((z + 719468) % 146097) (by omega) (by omega)
  obtain ⟨hm₀, hm₁⟩ := month_bounds hd₀ hd₁
  simp only [civilOfDays]
  generalize (z + 719468) % 146097 - daysBeforeYear (yearOfEra ((z + 719468) % 146097)) = doy at *
  refine ⟨?_, ?_, by omega, by omega⟩
  all_goals
    split_ifs
    all_goals omega

/-! ## Day text -/

/-- A day whose year is written with four digits: 0001-01-01 to 9999-12-31. -/
def Writable (z : Int) : Prop := -719162 ≤ z ∧ z ≤ 2932896

instance (z : Int) : Decidable (Writable z) := inferInstanceAs (Decidable (_ ∧ _))

theorem year_of_writable {z : Int} (h : Writable z) :
    0 ≤ (civilOfDays z).year ∧ (civilOfDays z).year < 10000 := by
  obtain ⟨hlo, hhi⟩ := h
  obtain ⟨hy₀, hy₁, hd₀, hd₁⟩ :=
    @yearOfEra_bounds ((z + 719468) % 146097) (by omega) (by omega)
  -- 9999-12-31 still belongs to the year that began in March 9999
  have hlast : yearOfEra ((z + 719468) % 146097) = 399 →
      daysBeforeYear (yearOfEra ((z + 719468) % 146097)) = 145731 := by
    intro h
    rw [h]
    decide
  simp only [civilOfDays]
  split_ifs
  all_goals omega

/-- A day as `YYYY-MM-DD` (`date.isoformat`). -/
def isoDay (z : Int) : List Char :=
  let c := civilOfDays z
  fixedDigits 4 c.year.toNat ++ '-' :: (fixedDigits 2 c.month.toNat ++
    '-' :: fixedDigits 2 c.day.toNat)

@[simp] theorem length_fixedDigits (k n : Nat) : (fixedDigits k n).length = k := by
  simp [fixedDigits]

/-- A day's text has ten characters. -/
@[simp] theorem length_isoDay (z : Int) : (isoDay z).length = 10 := by
  simp [isoDay]

/-- Read exactly `k` digits. -/
def readFixed : Nat → Nat → List Char → Option (Nat × List Char)
  | 0, acc, s => some (acc, s)
  | _ + 1, _, [] => none
  | k + 1, acc, c :: s =>
      match digitVal? c with
      | some d => readFixed k (10 * acc + d) s
      | none => none

theorem readFixed_map {ds : List Nat} (hds : ∀ d ∈ ds, d < 10) (acc : Nat) (rest : List Char) :
    readFixed ds.length acc (ds.map digitChar ++ rest) = some (natOfDigits acc ds, rest) := by
  induction ds generalizing acc with
  | nil => rfl
  | cons d ds ih =>
      have hd := digitVal?_digitChar (hds d List.mem_cons_self)
      simp only [List.length_cons, List.map_cons, List.cons_append, readFixed, hd]
      rw [ih fun x hx => hds x (List.mem_cons_of_mem _ hx)]
      rfl

/-- Fixed digits are read back. -/
theorem readFixed_fixedDigits {k n : Nat} (h : n < 10 ^ k) (rest : List Char) :
    readFixed k 0 (fixedDigits k n ++ rest) = some (n, rest) := by
  have := readFixed_map (digitList_lt k n) 0 rest
  rw [length_digitList, natOfDigits_digitList, Nat.mod_eq_of_lt h] at this
  simpa [fixedDigits] using this

/-- Expect one character. -/
def expect (c : Char) : List Char → Option (List Char)
  | d :: s => if d = c then some s else none
  | [] => none

@[simp] theorem expect_cons (c : Char) (s : List Char) : expect c (c :: s) = some s := by
  simp [expect]

/-- Read a `YYYY-MM-DD` and what follows; the date must exist. -/
def readDay (s : List Char) : Option (Int × List Char) := do
  let (year, s) ← readFixed 4 0 s
  let s ← expect '-' s
  let (month, s) ← readFixed 2 0 s
  let s ← expect '-' s
  let (day, s) ← readFixed 2 0 s
  let c : CivilDate := ⟨year, month, day⟩
  if civilOfDays (daysOfCivil c) = c then some (daysOfCivil c, s) else none

/-- **A written day is read back.** -/
theorem readDay_isoDay {z : Int} (h : Writable z) (rest : List Char) :
    readDay (isoDay z ++ rest) = some (z, rest) := by
  obtain ⟨hy₀, hy₁⟩ := year_of_writable h
  obtain ⟨hm₀, hm₁, hd₀, hd₁⟩ := civilOfDays_bounds z
  have hyear := readFixed_fixedDigits (k := 4) (n := (civilOfDays z).year.toNat) (by omega)
  have hmonth := readFixed_fixedDigits (k := 2) (n := (civilOfDays z).month.toNat) (by omega)
  have hday := readFixed_fixedDigits (k := 2) (n := (civilOfDays z).day.toNat) (by omega)
  have hcivil : (⟨(civilOfDays z).year.toNat, (civilOfDays z).month.toNat,
      (civilOfDays z).day.toNat⟩ : CivilDate) = civilOfDays z := by
    rw [Int.toNat_of_nonneg hy₀, Int.toNat_of_nonneg (by omega), Int.toNat_of_nonneg (by omega)]
  simp only [isoDay, readDay, List.append_assoc, List.cons_append, hyear, hmonth, hday,
    expect_cons, bind, Option.bind, hcivil, daysOfCivil_civilOfDays, if_true]

/-! ## Instant text -/

/-- Nanoseconds of a day. -/
def nsPerDay : Int := 86400000000000

/-- The fraction of a second, in microseconds and left out when zero. -/
def fractionText (micros : Nat) : List Char :=
  if micros = 0 then [] else '.' :: fixedDigits 6 micros

/-- A time of day given in microseconds, as `HH:MM:SS[.ffffff]`. -/
def clockText (micros : Nat) : List Char :=
  fixedDigits 2 (micros / 3600000000) ++ ':' :: (fixedDigits 2 (micros / 60000000 % 60) ++
    ':' :: (fixedDigits 2 (micros / 1000000 % 60) ++ fractionText (micros % 1000000)))

/-- An instant, in nanoseconds since 1970-01-01T00:00:00Z, as UTC text ending in `Z`. -/
def isoUtc (t : Int) : List Char :=
  isoDay (t / nsPerDay) ++ 'T' :: (clockText (t % nsPerDay / 1000).toNat ++ ['Z'])

/-- An instant's text starts with its UTC day. -/
@[simp] theorem take_isoUtc (t : Int) : (isoUtc t).take 10 = isoDay (t / nsPerDay) := by
  rw [isoUtc, List.take_append_of_le_length (by simp), List.take_of_length_le (by simp)]

/-- Read an optional fraction of a second, in microseconds; further digits are dropped. -/
def readFraction : List Char → Option (Nat × List Char)
  | '.' :: s =>
      match takeDigits s with
      | ([], _) => none
      | (ds, rest) => some (natOfDigits 0 ((ds ++ List.replicate 6 0).take 6), rest)
  | s => some (0, s)

/-- Read a time of day, in microseconds. -/
def readClock (s : List Char) : Option (Nat × List Char) := do
  let (hour, s) ← readFixed 2 0 s
  let s ← expect ':' s
  let (minute, s) ← readFixed 2 0 s
  let s ← expect ':' s
  let (second, s) ← readFixed 2 0 s
  let (micros, s) ← readFraction s
  if hour < 24 ∧ minute < 60 ∧ second < 60 then
    some (((hour * 60 + minute) * 60 + second) * 1000000 + micros, s)
  else none

/-- Read a zone to the end of the text: none, `Z`, or a signed `HH:MM`, in minutes. -/
def readZone : List Char → Option (Option Int)
  | [] => some none
  | ['Z'] => some (some 0)
  | c :: s => do
      let (hour, s) ← readFixed 2 0 s
      let s ← expect ':' s
      let (minute, s) ← readFixed 2 0 s
      if s = [] ∧ hour < 24 ∧ minute < 60 then
        if c = '+' then some (some ((hour * 60 + minute : Nat) : Int))
        else if c = '-' then some (some (-((hour * 60 + minute : Nat) : Int)))
        else none
      else none

/-- Read an ISO 8601 instant: its wall clock in nanoseconds, and its offset in minutes if it has
one. -/
def readInstant (s : List Char) : Option (Int × Option Int) := do
  let (day, s) ← readDay s
  let s ← expect 'T' s
  let (micros, s) ← readClock s
  let zone ← readZone s
  some (day * nsPerDay + micros * 1000, zone)

theorem readFraction_fractionText {micros : Nat} (h : micros < 1000000) :
    readFraction (fractionText micros ++ ['Z']) = some (micros, ['Z']) := by
  by_cases hm : micros = 0
  · subst hm
    rfl
  · have hstop : NoDigitHead ['Z'] := by
      show digitVal? 'Z' = none
      decide
    have htake : takeDigits (fixedDigits 6 micros ++ ['Z']) = (digitList 6 micros, ['Z']) :=
      takeDigits_map (digitList_lt 6 micros) hstop
    have hdigits : natOfDigits 0 ((digitList 6 micros ++ List.replicate 6 0).take 6) = micros := by
      rw [List.take_append_of_le_length (by simp), List.take_of_length_le (by simp),
        natOfDigits_digitList, zero_mul, zero_add, Nat.mod_eq_of_lt (by simpa using h)]
    obtain ⟨d, ds, hds⟩ :=
      List.exists_cons_of_ne_nil (Json.digitList_ne_nil (k := 6) (by decide) micros)
    rw [hds] at htake hdigits
    simp only [fractionText, hm, if_false, List.cons_append, readFraction, htake] at hdigits ⊢
    rw [hdigits]

theorem readClock_clockText {micros : Nat} (h : micros < 86400000000) :
    readClock (clockText micros ++ ['Z']) = some (micros, ['Z']) := by
  have hhour := readFixed_fixedDigits (k := 2) (n := micros / 3600000000) (by omega)
  have hminute := readFixed_fixedDigits (k := 2) (n := micros / 60000000 % 60) (by omega)
  have hsecond := readFixed_fixedDigits (k := 2) (n := micros / 1000000 % 60) (by omega)
  have hfraction := @readFraction_fractionText (micros % 1000000) (by omega)
  have hbounds : micros / 3600000000 < 24 ∧ micros / 60000000 % 60 < 60 ∧
      micros / 1000000 % 60 < 60 := by omega
  have hsum : ((micros / 3600000000 * 60 + micros / 60000000 % 60) * 60 +
      micros / 1000000 % 60) * 1000000 + micros % 1000000 = micros := by omega
  simp only [clockText, readClock, List.append_assoc, List.cons_append, hhour, hminute, hsecond,
    hfraction, expect_cons, bind, Option.bind, if_pos hbounds, hsum]

/-- **A written instant is read back**, to the microsecond. -/
theorem readInstant_isoUtc {t : Int} (h : Writable (t / nsPerDay)) :
    readInstant (isoUtc t) = some (t / 1000 * 1000, some 0) := by
  have hday := readDay_isoDay h
  have hclock := @readClock_clockText (t % nsPerDay / 1000).toNat (by
    unfold nsPerDay
    omega)
  have hwall : t / nsPerDay * nsPerDay + ((t % nsPerDay / 1000).toNat : Int) * 1000 =
      t / 1000 * 1000 := by
    unfold nsPerDay
    omega
  simp only [isoUtc, readInstant, hday, hclock, expect_cons, bind, Option.bind, readZone, hwall]

end Golavo.Lib.Calendar
