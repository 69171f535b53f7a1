import Golavo.Lib.Runs
import Golavo.Refresh.RuntimePack

/-! # Reading the World Cup document

A listing of the document is read row by row: the teams have to be resolved, the clock has to have its
shape, and the date is read with the clock by pandas, which refuses what it cannot read. The main result
says exactly when **a malformed row costs nothing but itself** (`parseWorldcup_spares_iff`): when every
row that gets as far as its clock has a date, a time of day, an offset and a score that can be read. -/

namespace Golavo.Ingest.WorldCup

open Golavo.Lib (Json failIf orFail bind_ok_iff orFail_ok_iff failIf_ok_iff mapM_eq_ok_iff
  exists_of_mem_items exists_of_mem_results)
open Golavo.Lib.Json (fixedDigits)
open Golavo.Lib.Calendar (readFixed readFixed_fixedDigits expect expect_cons readDay readClock
  readFraction)
open Golavo.Refresh (isPlaceholder Listing Fixture)

/-! ## Clocks -/

/-- A kickoff clock: `13:00 UTC-6`. -/
structure Clock where
  hour : Nat
  minute : Nat
  /-- The venue's offset from UTC, in hours. -/
  offset : Int
  deriving DecidableEq, Repr

/-- `int` of a run of digits. -/
def intOfDigits (u : Unicode) (digits : List Char) : Nat :=
  digits.foldl (fun n c => 10 * n + u.digitValue c) 0

/-- The sign and the hours of an offset, to the end of the text. -/
def readOffset (u : Unicode) : List Char → Option Int
  | sign :: text =>
      let digits := text.takeWhile u.isDecimal
      let hours : Int := intOfDigits u digits
      if (digits.length = 1 ∨ digits.length = 2) ∧ (text.dropWhile u.isDecimal).all u.isSpace then
        if sign = '+' then some hours else if sign = '-' then some (-hours) else none
      else none
  | [] => none

/-- The clock of a time text (`_TIME_RE`); its ranges are not looked at. -/
def readTime (u : Unicode) (text : List Char) : Option Clock :=
  let text := text.dropWhile u.isSpace
  let hour := text.takeWhile u.isDecimal
  match text.dropWhile u.isDecimal with
  | ':' :: a :: b :: space :: rest =>
      if (hour.length = 1 ∨ hour.length = 2) ∧ u.isDecimal a ∧ u.isDecimal b ∧ u.isSpace space then
        match rest.dropWhile u.isSpace with
        | 'U' :: 'T' :: 'C' :: zone =>
            (readOffset u zone).map fun offset => ⟨intOfDigits u hour, intOfDigits u [a, b], offset⟩
        | _ => none
      else none
  | _ => none

/-- How a clock is joined to a date: `T13:00:00`. -/
def Clock.suffix (clock : Clock) : String :=
  String.ofList ('T' :: (fixedDigits 2 clock.hour ++ ':' :: (fixedDigits 2 clock.minute ++
    [':', '0', '0'])))

/-- A clock's time of day, in nanoseconds. -/
def Clock.sinceMidnight (clock : Clock) : Int := (clock.hour * 60 + clock.minute) * 60 * secondNs

/-- A time of day that exists. -/
def Clock.Proper (clock : Clock) : Prop := clock.hour < 24 ∧ clock.minute < 60

instance (clock : Clock) : Decidable clock.Proper := inferInstanceAs (Decidable (_ ∧ _))

/-- An offset `timezone` takes. -/
def Clock.Zoned (clock : Clock) : Prop := -24 < clock.offset ∧ clock.offset < 24

instance (clock : Clock) : Decidable clock.Zoned := inferInstanceAs (Decidable (_ ∧ _))

/-- The UTC instant of a local time. -/
def Clock.toUtc (clock : Clock) (wall : Int) : Int := wall - clock.offset * 3600 * secondNs

/-! ## What pandas reads -/

/-- A pandas timestamp. -/
inductive Timestamp where
  | stamp (s : Stamp)
  /-- `NaT`. -/
  | nat
  deriving DecidableEq, Repr

/-- The day of a text `YYYY-MM-DD`, from year 1 to 9999. -/
def isoDate (date : String) : Option Int := (parseDay date).filter Lib.Calendar.Writable

/-- What the program uses of Python and pandas: how a value prints, and what `pd.Timestamp` reads. -/
structure Pandas where
  /-- `str` of a number with a fraction, an array or an object. -/
  repr : Json → String
  /-- `pd.Timestamp` of a value; nothing where it raises. -/
  timestamp : Json → Option Timestamp
  /-- A day is read as its midnight. -/
  iso : ∀ {date day}, isoDate date = some day →
    timestamp (.str date) = some (.stamp (.naive (midnight day)))
  /-- A day with a clock is read as that time of the day. -/
  iso_clock : ∀ {date day} {clock : Clock}, isoDate date = some day → clock.Proper →
    timestamp (.str (date ++ clock.suffix)) =
      some (.stamp (.naive (midnight day + clock.sinceMidnight)))
  /-- What a missing date is joined to is no timestamp. -/
  none_clock : ∀ clock : Clock, timestamp (.str ("None" ++ clock.suffix)) = none

variable (p : Pandas) (u : Unicode)

/-- `str` of a value. -/
def Pandas.str : Json → String
  | .null => "None"
  | .bool b => if b then "True" else "False"
  | .int z => toString z
  | .str s => s
  | other => p.repr other

/-! ## A row -/

/-- Why a document cannot be parsed. -/
inductive WorldCupError where
  | notDocument
  /-- `pd.Timestamp` refuses the date. -/
  | timestamp
  /-- `timezone` refuses the offset. -/
  | offset
  /-- The date carries a zone of its own. -/
  | localized
  /-- The instant lies outside the years 1 to 9999. -/
  | overflow
  /-- A score does not fit its column. -/
  | score
  deriving DecidableEq, Repr

/-- A field that is there and not null. -/
def value (m : Json) (key : String) : Option Json :=
  match m.get key with
  | some .null => none
  | other => other

/-- A kickoff: an instant, or `NaT`. -/
inductive Kickoff where
  | at (instant : Int)
  | nat
  deriving DecidableEq, Repr

/-- The clock of a listing, where its time is a text of that shape. -/
def clockOf (m : Json) : Option Clock :=
  ((m.get "time").bind Json.text?).bind fun time => readTime u time.toList

/-- The instant of a local timestamp at a venue (`tz_localize` and `tz_convert`). -/
def localize (clock : Clock) : Timestamp → Except WorldCupError Kickoff
  | .nat => .ok .nat
  | .stamp (.aware _ _) => .error .localized
  | .stamp (.naive wall) =>
      if WritableInstant (clock.toUtc wall) then .ok (.at (clock.toUtc wall)) else .error .overflow

/-- The kickoff of a listing (`parse_kickoff`); nothing without a clock. -/
def parseKickoff (date : Json) : Option Clock → Except WorldCupError (Option Kickoff)
  | none => .ok none
  | some clock => do
      let timestamp ← orFail .timestamp (p.timestamp (.str (p.str date ++ clock.suffix)))
      failIf (¬ clock.Zoned) .offset
      return some (← localize clock timestamp)

/-- `int` of what is an `int` to Python. -/
def goalsOf : Json → Option Int
  | .int z => some z
  | .bool b => some (if b then 1 else 0)
  | _ => none

/-- The goals of a score field that is a pair of them. -/
def pairOfGoals : Option Json → Option (Int × Int)
  | some (.arr [home, away]) => do some (← goalsOf home, ← goalsOf away)
  | _ => none

/-- The result after extra time, or else after ninety minutes (`final_score`). -/
def finalScore (score : Option Json) : Option (Int × Int) :=
  (pairOfGoals (score.bind (·.get "et"))).orElse fun _ => pairOfGoals (score.bind (·.get "ft"))

/-- A row of the parsed document. -/
structure Row where
  date : Timestamp
  homeTeam : String
  awayTeam : String
  /-- The ground. -/
  city : Option Json
  kickoff : Kickoff
  /-- The result, of a match that is complete. -/
  score : Option (Int × Int)
  deriving DecidableEq

/-- The teams of a listing that has both of them resolved. -/
def teamsOf (m : Json) : Option (String × String) :=
  match value m "team1", value m "team2" with
  | some home, some away =>
      if isPlaceholder u (p.str home) || isPlaceholder u (p.str away) then none
      else some (p.str home, p.str away)
  | _, _ => none

/-- The row of a listing; nothing where it is skipped. -/
def rowOf (m : Json) : Except WorldCupError (Option Row) :=
  match teamsOf p u m with
  | none => .ok none
  | some (home, away) => do
      let date := value m "date"
      match date, ← parseKickoff p (date.getD .null) (clockOf u m) with
      | some date, some kickoff =>
          let day ← orFail .timestamp (p.timestamp date)
          return some ⟨day, home, away, value m "ground", kickoff, finalScore (value m "score")⟩
      | _, _ => return none

/-! ## The document -/

/-- Whether goals fit their column. -/
def FitsInt16 (goals : Int) : Prop := -2 ^ 15 ≤ goals ∧ goals < 2 ^ 15

instance (goals : Int) : Decidable (FitsInt16 goals) := inferInstanceAs (Decidable (_ ∧ _))

/-- Whether a result fits its columns. -/
def ScoreFits (score : Option (Int × Int)) : Prop :=
  ∀ goals ∈ score, FitsInt16 goals.1 ∧ FitsInt16 goals.2

instance (score : Option (Int × Int)) : Decidable (ScoreFits score) :=
  match score with
  | none => .isTrue fun _ h => by cases h
  | some goals => decidable_of_iff (FitsInt16 goals.1 ∧ FitsInt16 goals.2) (by simp [ScoreFits])

/-- The order of kickoffs, `NaT` last. -/
def Kickoff.before : Kickoff → Kickoff → Bool
  | .at s, .at t => s < t
  | .at _, .nat => true
  | .nat, _ => false

/-- The order of the frame: by kickoff, then by teams. -/
def Row.before (a b : Row) : Bool :=
  a.kickoff.before b.kickoff || (a.kickoff = b.kickoff &&
    (a.homeTeam < b.homeTeam || (a.homeTeam = b.homeTeam && a.awayTeam ≤ b.awayTeam)))

/-- The listings of a document. -/
def listingsOf (data : Json) : Except WorldCupError (List Json) :=
  match data.get "matches" with
  | none => .ok []
  | some (.arr items) =>
      if items.all fun m => m matches .obj _ then .ok items else .error .notDocument
  | some _ => .error .notDocument

/-- The frame of a document (`parse_worldcup`). -/
def parseWorldcup (data : Json) : Except WorldCupError (List Row) := do
  let listings ← listingsOf data
  let rows := (← listings.mapM (rowOf p u)).reduceOption
  failIf (∃ row ∈ rows, ¬ ScoreFits row.score) .score
  return rows.insertionSort (Row.before · ·)

/-! ## What a document holds -/

/-- The local time of a kickoff: that of the day where the date is one, or else what pandas reads. -/
def Pandas.localTime (date : Json) (clock : Clock) : Option Int :=
  match date.text?.bind isoDate with
  | some day => some (midnight day + clock.sinceMidnight)
  | none =>
      match p.timestamp (.str (p.str date ++ clock.suffix)) with
      | some (.stamp (.naive wall)) => some wall
      | _ => none

/-- A date and a clock can be used: the clock exists and the date can be read, alone and with it. -/
structure Usable (date : Json) (clock : Clock) (day instant : Int) : Prop where
  proper : clock.Proper
  zoned : clock.Zoned
  day_eq : p.timestamp date = some (.stamp (.naive day))
  instant_eq : (p.localTime date clock).map clock.toUtc = some instant
  writable : WritableInstant instant

/-- The day and the instant of a date and a clock that can be used. -/
def usable (date : Json) (clock : Clock) : Option (Int × Int) :=
  match p.timestamp date, (p.localTime date clock).map clock.toUtc with
  | some (.stamp (.naive day)), some instant =>
      if clock.Proper ∧ clock.Zoned ∧ WritableInstant instant then some (day, instant) else none
  | _, _ => none

/-- The row a listing ought to have: its teams are resolved and its date and clock can be used. -/
def usableRow (m : Json) : Option Row := do
  let (home, away) ← teamsOf p u m
  let date ← value m "date"
  let clock ← clockOf u m
  let (day, instant) ← usable p date clock
  some ⟨.stamp (.naive day), home, away, value m "ground", .at instant, finalScore (value m "score")⟩

/-- The rows a document ought to have, in the order of the frame. -/
def usableRows (listings : List Json) : List Row :=
  (listings.filterMap (usableRow p u)).insertionSort (Row.before · ·)

/-- A listing that spares the others: where its teams are resolved and its time has the shape of a
clock, its date and clock can be used and its result fits. -/
def Sparing (m : Json) : Prop :=
  ∀ teams, teamsOf p u m = some teams → ∀ clock, clockOf u m = some clock →
    (∃ date day instant, value m "date" = some date ∧ Usable p date clock day instant) ∧
      ScoreFits (finalScore (value m "score"))

/-- The documents of the program: their matches are objects. -/
structure IsDocument (data : Json) (listings : List Json) : Prop where
  listings_eq : data.get "matches" = some (.arr listings)
  objects : ∀ m ∈ listings, ∃ fields, m = .obj fields

variable {p u}

theorem usable_eq_some_iff {date : Json} {clock : Clock} {day instant : Int} :
    usable p date clock = some (day, instant) ↔ Usable p date clock day instant := by
  unfold usable
  constructor
  · intro h
    split at h
    · rename_i hday hinstant
      split_ifs at h with hranges
      obtain ⟨rfl, rfl⟩ := Prod.mk.inj (Option.some.inj h)
      exact ⟨hranges.1, hranges.2.1, hday, hinstant, hranges.2.2⟩
    · cases h
  · rintro ⟨hproper, hzoned, hday, hinstant, hwritable⟩
    simp only [hday, hinstant]
    rw [if_pos ⟨hproper, hzoned, hwritable⟩]

/-- At a time that exists, the local time is what pandas reads. -/
theorem localTime_eq_some_iff {date : Json} {clock : Clock} (hproper : clock.Proper) {wall : Int} :
    p.localTime date clock = some wall ↔
      p.timestamp (.str (p.str date ++ clock.suffix)) = some (.stamp (.naive wall)) := by
  unfold Pandas.localTime
  split
  · rename_i day hday
    obtain ⟨text, htext, hiso⟩ := Option.bind_eq_some_iff.mp hday
    obtain ⟨rfl⟩ : date = .str text := by
      cases date <;> simp_all [Json.text?]
    rw [Pandas.str, p.iso_clock hiso hproper]
    simp
  · split
    · rename_i read hread
      simp [hread]
    · rename_i hread
      exact ⟨fun h => absurd h.symm (Option.some_ne_none wall), fun h => absurd h (hread wall)⟩

/-- What a usable date and clock are parsed to. -/
theorem parseKickoff_of_usable {date : Json} {clock : Clock} {day instant : Int}
    (h : Usable p date clock day instant) :
    parseKickoff p date (some clock) = .ok (some (.at instant)) := by
  obtain ⟨wall, hwall, rfl⟩ := Option.map_eq_some_iff.mp h.instant_eq
  rw [localTime_eq_some_iff h.proper] at hwall
  simp only [parseKickoff, hwall, orFail, failIf, bind, Except.bind, pure, Except.pure]
  rw [if_neg (not_not.mpr h.zoned)]
  simp only [localize, if_pos h.writable]

theorem usableRow_eq_some_iff {m : Json} {row : Row} : usableRow p u m = some row ↔
    ∃ teams date clock day instant, teamsOf p u m = some teams ∧ value m "date" = some date ∧
      clockOf u m = some clock ∧ Usable p date clock day instant ∧
      row = ⟨.stamp (.naive day), teams.1, teams.2, value m "ground", .at instant,
        finalScore (value m "score")⟩ := by
  simp only [usableRow, Option.bind_eq_bind, Option.bind_eq_some_iff]
  constructor
  · rintro ⟨teams, hteams, date, hdate, clock, hclock, ⟨day, instant⟩, husable, hrow⟩
    exact ⟨teams, date, clock, day, instant, hteams, hdate, hclock, usable_eq_some_iff.mp husable,
      (Option.some.inj hrow).symm⟩
  · rintro ⟨teams, date, clock, day, instant, hteams, hdate, hclock, husable, rfl⟩
    exact ⟨teams, hteams, date, hdate, clock, hclock, (day, instant),
      usable_eq_some_iff.mpr husable, rfl⟩

/-- A usable row is parsed as it ought to be. -/
theorem rowOf_of_usable {m : Json} {row : Row} (h : usableRow p u m = some row) :
    rowOf p u m = .ok (some row) := by
  obtain ⟨teams, date, clock, day, instant, hteams, hdate, hclock, husable, rfl⟩ :=
    usableRow_eq_some_iff.mp h
  simp only [rowOf, hteams, hdate, hclock, Option.getD_some, parseKickoff_of_usable husable,
    husable.day_eq, orFail, bind, Except.bind, pure, Except.pure]

/-- Rows that spare the others are parsed as they ought to be. -/
theorem rowOf_of_sparing {m : Json} (h : Sparing p u m) : rowOf p u m = .ok (usableRow p u m) := by
  cases hteams : teamsOf p u m with
  | none => simp [rowOf, usableRow, hteams]
  | some teams =>
      cases hclock : clockOf u m with
      | none =>
          have hskip : usableRow p u m = none := by
            cases hdate : value m "date" <;> simp [usableRow, hteams, hclock, hdate]
          rw [hskip]
          simp [rowOf, hteams, hclock, parseKickoff, bind, Except.bind, pure, Except.pure]
      | some clock =>
          obtain ⟨⟨date, day, instant, hdate, husable⟩, -⟩ := h teams hteams clock hclock
          have hrow : usableRow p u m = some ⟨.stamp (.naive day), teams.1, teams.2,
              value m "ground", .at instant, finalScore (value m "score")⟩ := by
            simp [usableRow, hteams, hdate, hclock, usable_eq_some_iff.mpr husable]
          rw [rowOf_of_usable hrow, hrow]

/-- A row that is parsed as it ought to be, with a result that fits, spares the others. -/
theorem sparing_of_rowOf {m : Json} (h : rowOf p u m = .ok (usableRow p u m))
    (hfits : ∀ row, usableRow p u m = some row → ScoreFits row.score) : Sparing p u m := by
  intro teams hteams clock hclock
  cases hrow : usableRow p u m with
  | some row =>
      obtain ⟨teams', date, clock', day, instant, -, hdate, hclock', husable, rfl⟩ :=
        usableRow_eq_some_iff.mp hrow
      obtain rfl := Option.some.inj (hclock.symm.trans hclock')
      exact ⟨⟨date, day, instant, hdate, husable⟩, hfits _ hrow⟩
  | none =>
      -- the clock was read, so a row without one has no date, and that is read as `None`
      rw [hrow] at h
      simp only [rowOf, hteams, hclock] at h
      obtain ⟨kickoff, hkickoff, h⟩ := bind_ok_iff.mp h
      obtain ⟨timestamp, htimestamp, hkickoff⟩ := bind_ok_iff.mp hkickoff
      obtain ⟨_, -, hkickoff⟩ := bind_ok_iff.mp hkickoff
      obtain ⟨read, -, hkickoff⟩ := bind_ok_iff.mp hkickoff
      obtain rfl := Except.ok.inj hkickoff
      cases hdate : value m "date" with
      | none =>
          rw [hdate, Option.getD_none, Pandas.str, p.none_clock, orFail_ok_iff] at htimestamp
          cases htimestamp
      | some date =>
          rw [hdate] at h
          obtain ⟨day, -, h⟩ := bind_ok_iff.mp h
          cases Except.ok.inj h

/-- Maps that agree where the second gives something, and give equally many, agree. -/
theorem eq_of_length_filterMap {α β : Type} {f g : α → Option β} {items : List α}
    (hle : ∀ a ∈ items, ∀ b, g a = some b → f a = some b)
    (hlength : (items.filterMap f).length ≤ (items.filterMap g).length) :
    ∀ a ∈ items, f a = g a := by
  have hshort : ∀ items : List α, (∀ a ∈ items, ∀ b, g a = some b → f a = some b) →
      (items.filterMap g).length ≤ (items.filterMap f).length := by
    intro items hle
    induction items with
    | nil => exact le_rfl
    | cons a items ih =>
        obtain ⟨ha, hle⟩ := List.forall_mem_cons.mp hle
        have := ih hle
        cases hg : g a with
        | some b => simp [ha b hg, hg, this]
        | none => cases hf : f a <;> simp [hf, hg] <;> omega
  induction items with
  | nil => exact fun _ ha => absurd ha List.not_mem_nil
  | cons a items ih =>
      obtain ⟨ha, hle⟩ := List.forall_mem_cons.mp hle
      have hrest := hshort items hle
      cases hg : g a with
      | some b =>
          simp only [List.filterMap_cons, hg, ha b hg, List.length_cons] at hlength
          exact List.forall_mem_cons.mpr ⟨(ha b hg).trans hg.symm, ih hle (by omega)⟩
      | none =>
          cases hf : f a with
          | some b =>
              simp only [List.filterMap_cons, hg, hf, List.length_cons] at hlength
              omega
          | none =>
              simp only [List.filterMap_cons, hg, hf] at hlength
              exact List.forall_mem_cons.mpr ⟨hf.trans hg.symm, ih hle hlength⟩

/-! ## The main result -/

theorem listingsOf_document {data : Json} {listings : List Json} (h : IsDocument data listings) :
    listingsOf data = .ok listings := by
  simp only [listingsOf, h.listings_eq]
  rw [if_pos]
  refine List.all_eq_true.mpr fun m hm => ?_
  obtain ⟨fields, rfl⟩ := h.objects m hm
  rfl

/-- **What it takes to parse a document**: every row is read, and every result fits. -/
theorem parseWorldcup_ok_iff {data : Json} {listings : List Json} (hdata : IsDocument data listings)
    {frame : List Row} : parseWorldcup p u data = .ok frame ↔
      ∃ results, listings.mapM (rowOf p u) = .ok results ∧
        (∀ row ∈ results.reduceOption, ScoreFits row.score) ∧
        frame = results.reduceOption.insertionSort (Row.before · ·) := by
  simp only [parseWorldcup, listingsOf_document hdata, bind_ok_iff, failIf_ok_iff, pure, Except.pure,
    Except.ok.injEq, exists_eq_left', not_exists, not_and, not_not, exists_const]
  exact exists_congr fun results => and_congr_right fun _ => and_congr_right fun _ => eq_comm

/-- **A malformed row costs nothing but itself, exactly when every row spares the others**: the document
is parsed, without the rows whose teams are unresolved or whose date and clock cannot be used and with
every other at its UTC instant, if and only if each row with resolved teams and the shape of a clock has
a date, a time of day, an offset and a result that can be read. -/
theorem parseWorldcup_spares_iff (p : Pandas) (u : Unicode) {data : Json} {listings : List Json}
    (hdata : IsDocument data listings) :
    parseWorldcup p u data = .ok (usableRows p u listings) ↔ ∀ m ∈ listings, Sparing p u m := by
  rw [parseWorldcup_ok_iff hdata]
  constructor
  · rintro ⟨results, hresults, hfits, hframe⟩
    have hall := mapM_eq_ok_iff.mp hresults
    have hread : ∀ m ∈ listings, ∃ result ∈ results, rowOf p u m = .ok result := fun m hm =>
      exists_of_mem_items hall hm
    have hresult : results = listings.map fun m => ((rowOf p u m).toOption.getD none) := by
      refine (List.forall₂_eq_eq_eq ▸ List.forall₂_map_right_iff.mpr (hall.flip.imp ?_) :)
      intro result m h
      rw [h]
      rfl
    have hrows : results.reduceOption =
        listings.filterMap fun m => (rowOf p u m).toOption.getD none := by
      rw [hresult]
      change (listings.map _).filterMap id = _
      rw [List.filterMap_map]
      rfl
    have hlength : results.reduceOption.length = (listings.filterMap (usableRow p u)).length := by
      rw [← List.length_insertionSort (Row.before · ·), ← hframe, usableRows,
        List.length_insertionSort]
    rw [hrows] at hlength
    have heq := eq_of_length_filterMap (fun m _ row hrow => by rw [rowOf_of_usable hrow]; rfl)
      hlength.le
    intro m hm
    obtain ⟨result, -, hrow⟩ := hread m hm
    have hsame : rowOf p u m = .ok (usableRow p u m) := by
      rw [← heq m hm, hrow]
      rfl
    refine sparing_of_rowOf hsame fun row husable => hfits row ?_
    rw [hrows, List.mem_filterMap]
    exact ⟨m, hm, by rw [hsame, husable]; rfl⟩
  · intro h
    refine ⟨listings.map (usableRow p u), ?_, ?_, ?_⟩
    · refine mapM_eq_ok_iff.mpr (List.forall₂_map_right_iff.mpr (List.forall₂_same.mpr ?_))
      exact fun m hm => rowOf_of_sparing (h m hm)
    · intro row hrow
      change row ∈ (listings.map (usableRow p u)).filterMap id at hrow
      rw [List.filterMap_map, List.mem_filterMap] at hrow
      obtain ⟨m, hm, hrow⟩ := hrow
      obtain ⟨teams, date, clock, day, instant, hteams, -, hclock, -, rfl⟩ :=
        usableRow_eq_some_iff.mp hrow
      exact (h m hm teams hteams clock hclock).2
    · rw [usableRows]
      change _ = ((listings.map (usableRow p u)).filterMap id).insertionSort (Row.before · ·)
      rw [List.filterMap_map]
      rfl

/-! ## The schedule of a refresh -/

/-- A listing as a refresh reads it. -/
def readListing (p : Pandas) (u : Unicode) (m : Json) : Listing where
  num := (value m "num").map p.str
  team1 := (value m "team1").map p.str
  team2 := (value m "team2").map p.str
  date := (value m "date").map p.str
  kickoff := (value m "date").bind fun date => (clockOf u m).bind fun clock =>
    (usable p date clock).map fun (day, instant) => (utcDay day, instant)

/-- The fixture of a row at an instant. -/
def Row.toFixture (row : Row) : Option Fixture :=
  match row.date, row.kickoff with
  | .stamp (.naive day), .at instant => some ⟨utcDay day, row.homeTeam, row.awayTeam, instant⟩
  | _, _ => none

/-- The fixture of a listing is that of its row. -/
theorem fixture_readListing (m : Json) :
    (readListing p u m).fixture u = (usableRow p u m).bind Row.toFixture := by
  have hteams : teamsOf p u m = ((value m "team1").map p.str).elim none fun home =>
      ((value m "team2").map p.str).elim none fun away =>
        if isPlaceholder u home || isPlaceholder u away then none else some (home, away) := by
    unfold teamsOf
    cases value m "team1" <;> cases value m "team2" <;> rfl
  simp only [usableRow, hteams, readListing, Listing.fixture]
  cases (value m "team1").map p.str with
  | none => rfl
  | some home =>
      cases (value m "team2").map p.str with
      | none => rfl
      | some away =>
          cases value m "date" with
          | none => cases hplace : isPlaceholder u home || isPlaceholder u away <;> simp [Option.elim, hplace]
          | some date =>
              cases clockOf u m with
              | none => cases hplace : isPlaceholder u home || isPlaceholder u away <;> simp [Option.elim, hplace]
              | some clock =>
                  cases husable : usable p date clock <;>
                    cases hplace : isPlaceholder u home || isPlaceholder u away <;>
                    simp [Option.elim, husable, hplace, Row.toFixture]

/-- **The schedule of a refresh is what the document parses to**, where its rows spare one another. -/
theorem fixtures_of_parseWorldcup {data : Json} {listings : List Json}
    (hdata : IsDocument data listings) (hsparing : ∀ m ∈ listings, Sparing p u m) {frame : List Row}
    (h : parseWorldcup p u data = .ok frame) :
    frame.filterMap Row.toFixture = Refresh.parseWorldcup u (listings.map (readListing p u)) := by
  obtain rfl := Except.ok.inj (h.symm.trans ((parseWorldcup_spares_iff p u hdata).mpr hsparing))
  have hfixture : ∀ row ∈ listings.filterMap (usableRow p u),
      row.toFixture = some (row.toFixture.getD ⟨0, "", "", 0⟩) ∧
        ∀ row' ∈ listings.filterMap (usableRow p u), row.before row' =
          (row.toFixture.getD ⟨0, "", "", 0⟩).before (row'.toFixture.getD ⟨0, "", "", 0⟩) := by
    intro row hrow
    obtain ⟨m, -, hrow⟩ := List.mem_filterMap.mp hrow
    obtain ⟨teams, date, clock, day, instant, -, -, -, -, rfl⟩ := usableRow_eq_some_iff.mp hrow
    refine ⟨rfl, fun row' hrow' => ?_⟩
    obtain ⟨m', -, hrow'⟩ := List.mem_filterMap.mp hrow'
    obtain ⟨teams', date', clock', day', instant', -, -, -, -, rfl⟩ := usableRow_eq_some_iff.mp hrow'
    simp only [Row.before, Kickoff.before, Kickoff.at.injEq, Row.toFixture, Option.getD_some,
      Fixture.before]
    congr
  have hmap : ∀ rows : List Row, (∀ row ∈ rows, row ∈ listings.filterMap (usableRow p u)) →
      rows.filterMap Row.toFixture = rows.map fun row => row.toFixture.getD ⟨0, "", "", 0⟩ := by
    intro rows hrows
    rw [← List.filterMap_eq_map]
    exact List.filterMap_congr fun row hrow => (hfixture row (hrows row hrow)).1
  rw [usableRows, hmap _ fun row hrow => (List.mem_insertionSort _).mp hrow,
    List.map_insertionSort (s := (Fixture.before · ·)) _ _ _ fun row hrow row' hrow' => by
      rw [(hfixture row hrow).2 row' hrow'], ← hmap _ fun _ h => h, List.filterMap_filterMap,
    Refresh.parseWorldcup, List.filterMap_map]
  exact congrArg _ (List.filterMap_congr fun m _ => (fixture_readListing m).symm)

/-! ## Plain dates -/

/-- Reading digits leaves what follows. -/
theorem readFixed_append {k acc n : Nat} {s rest : List Char}
    (h : readFixed k acc s = some (n, rest)) (more : List Char) :
    readFixed k acc (s ++ more) = some (n, rest ++ more) := by
  induction k generalizing acc s with
  | zero =>
      obtain ⟨rfl, rfl⟩ := Prod.mk.inj (Option.some.inj h)
      rfl
  | succ k ih =>
      cases s with
      | nil => cases h
      | cons c s =>
          rw [List.cons_append, readFixed]
          rw [readFixed] at h
          cases hd : Json.digitVal? c with
          | none => rw [hd] at h; cases h
          | some d =>
              rw [hd] at h
              exact ih h

theorem expect_append {c : Char} {s rest : List Char} (h : expect c s = some rest)
    (more : List Char) : expect c (s ++ more) = some (rest ++ more) := by
  cases s with
  | nil => cases h
  | cons d s =>
      rw [List.cons_append, expect]
      rw [expect] at h
      split_ifs at h with hd
      rw [if_pos hd, Option.some.inj h]

/-- Reading a day leaves what follows. -/
theorem readDay_append {day : Int} {s rest : List Char} (h : readDay s = some (day, rest))
    (more : List Char) : readDay (s ++ more) = some (day, rest ++ more) := by
  obtain ⟨⟨year, s₁⟩, hyear, h⟩ := Option.bind_eq_some_iff.mp h
  obtain ⟨s₂, hdash, h⟩ := Option.bind_eq_some_iff.mp h
  obtain ⟨⟨month, s₃⟩, hmonth, h⟩ := Option.bind_eq_some_iff.mp h
  obtain ⟨s₄, hdash', h⟩ := Option.bind_eq_some_iff.mp h
  obtain ⟨⟨d, s₅⟩, hday, h⟩ := Option.bind_eq_some_iff.mp h
  dsimp only at h
  split_ifs at h with hcivil
  obtain ⟨rfl, rfl⟩ := Prod.mk.inj (Option.some.inj h)
  simp only [readDay, readFixed_append hyear more, expect_append hdash more,
    readFixed_append hmonth more, expect_append hdash' more, readFixed_append hday more,
    Option.bind_eq_bind, Option.bind_some, if_pos hcivil]

/-- A clock's suffix is read as its time of day. -/
theorem readClock_suffix {clock : Clock} (h : clock.Proper) :
    readClock (fixedDigits 2 clock.hour ++ ':' :: (fixedDigits 2 clock.minute ++ [':', '0', '0'])) =
      some ((clock.hour * 60 + clock.minute) * 60 * 1000000, []) := by
  have hhour := readFixed_fixedDigits (k := 2) (n := clock.hour) (by have := h.1; omega)
  have hminute := readFixed_fixedDigits (k := 2) (n := clock.minute) (by have := h.2; omega)
  have hsecond : readFixed 2 0 ['0', '0'] = some (0, []) := rfl
  have hbounds : clock.hour < 24 ∧ clock.minute < 60 ∧ 0 < 60 := ⟨h.1, h.2, by decide⟩
  simp only [readClock, hhour, hminute, expect_cons, hsecond, readFraction, Option.bind_eq_bind,
    Option.bind_some, if_pos hbounds, Nat.add_zero]

/-- `pd.Timestamp` of a day with or without a time of day; other texts are refused. -/
def readTimestamp (text : List Char) : Option Timestamp := do
  let (day, rest) ← readDay text
  if Lib.Calendar.Writable day then
    match rest with
    | [] => some (.stamp (.naive (midnight day)))
    | 'T' :: clock =>
        match readClock clock with
        | some (micros, []) => some (.stamp (.naive (midnight day + micros * 1000)))
        | _ => none
    | _ => none
  else none

theorem readDay_of_isoDate {date : String} {day : Int} (h : isoDate date = some day) :
    readDay date.toList = some (day, []) ∧ Lib.Calendar.Writable day := by
  obtain ⟨hday, hwritable⟩ := Option.filter_eq_some_iff.mp h
  refine ⟨?_, of_decide_eq_true hwritable⟩
  unfold parseDay at hday
  split at hday
  · rename_i d hd
    rw [hd, Option.some.inj hday]
  · cases hday

/-- Pandas on plain dates. -/
def plainPandas : Pandas where
  repr := fun _ => ""
  timestamp := fun j => j.text?.bind fun text => readTimestamp text.toList
  iso := by
    intro date day h
    obtain ⟨hday, hwritable⟩ := readDay_of_isoDate h
    simp only [Json.text?, Option.bind_some, readTimestamp, hday, Option.bind_eq_bind,
      if_pos hwritable]
  iso_clock := by
    intro date day clock h hproper
    obtain ⟨hday, hwritable⟩ := readDay_of_isoDate h
    have hread := readDay_append hday clock.suffix.toList
    rw [List.nil_append] at hread
    have hinstant : midnight day + clock.sinceMidnight = midnight day +
        (((clock.hour * 60 + clock.minute) * 60 * 1000000 : Nat) : Int) * 1000 := by
      simp only [Clock.sinceMidnight, secondNs]
      push_cast
      ring
    simp only [Json.text?, Option.bind_some, readTimestamp, String.toList_append, hread,
      Option.bind_eq_bind, if_pos hwritable]
    simp only [Clock.suffix, String.toList_ofList, readClock_suffix hproper, hinstant]
  none_clock := by
    intro clock
    simp only [Json.text?, Option.bind_some, readTimestamp, String.toList_append]
    rfl

/-! ## One clock past midnight -/

/-- A listing of the document. -/
def listing (date time team1 team2 : String) : Json :=
  .obj [("date", .str date), ("time", .str time), ("team1", .str team1), ("team2", .str team2)]

/-- A document of some listings. -/
def document (listings : List Json) : Json := .obj [("matches", .arr listings)]

/-- The opening match, as it ought to be parsed. -/
def openingRow : Row :=
  ⟨.stamp (.naive 1781136000000000000), "Mexico", "South Africa", none, .at 1781204400000000000, none⟩

/-- **One clock past midnight costs the opening match its kickoff**: a second listing at `25:00 UTC-6`
makes the whole document unreadable. -/
theorem parseWorldcup_past_midnight :
    let listings := [listing "2026-06-11" "13:00 UTC-6" "Mexico" "South Africa",
      listing "2026-06-11" "25:00 UTC-6" "South Korea" "Denmark"]
    IsDocument (document listings) listings ∧
      parseWorldcup plainPandas .ascii (document listings) = .error .timestamp ∧
      usableRows plainPandas .ascii listings = [openingRow] := by
  refine ⟨⟨rfl, ?_⟩, by decide +kernel, by decide +kernel⟩
  rintro m hm
  simp only [List.mem_cons, List.not_mem_nil, or_false] at hm
  rcases hm with rfl | rfl <;> exact ⟨_, rfl⟩

/-- A document whose listings spare one another: the opening match, an open slot, and one without a
clock. -/
theorem parseWorldcup_spares_opening :
    let listings := [listing "2026-06-11" "13:00 UTC-6" "Mexico" "South Africa",
      listing "2026-07-19" "25:00 UTC-4" "W101" "W102",
      listing "2026-06-12" "noon" "Canada" "Qatar"]
    parseWorldcup plainPandas .ascii (document listings) =
      .ok (usableRows plainPandas .ascii listings) := by
  refine (parseWorldcup_spares_iff plainPandas .ascii ⟨rfl, ?_⟩).mpr ?_
  · rintro m hm
    simp only [List.mem_cons, List.not_mem_nil, or_false] at hm
    rcases hm with rfl | rfl | rfl <;> exact ⟨_, rfl⟩
  · rintro m hm
    simp only [List.mem_cons, List.not_mem_nil, or_false] at hm
    rcases hm with rfl | rfl | rfl
    · exact sparing_of_rowOf (by decide +kernel) (by decide +kernel)
    · exact sparing_of_rowOf (by decide +kernel) (by decide +kernel)
    · exact sparing_of_rowOf (by decide +kernel) (by decide +kernel)

end Golavo.Ingest.WorldCup
