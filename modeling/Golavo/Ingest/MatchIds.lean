import Golavo.Clock
import Golavo.Ingest.Pack
import Golavo.Lib.Check
import Golavo.Lib.JsonRoundTrip
import Golavo.Lib.Scan
import Golavo.Lib.Sha256
import Golavo.Lib.StableSort
import Mathlib.Data.Prod.Lex

/-! # Match ids

Every loader mints its rows' ids the same way: some fields of a row make its **identity**, rows with the
same identity are numbered in frame order, and the id is a short digest of both. The main result: the
ids of a table are distinct, and what other rows a table has plays no part in them (`match_ids`). -/

namespace Golavo.Ingest

open Golavo.Lib (Json failIf bind_ok_iff check_bind_ok_iff filter_insertionSort_comm)
open Golavo.Lib.Scan (span_append)

/-! ## Identities -/

/-- A cell, by the type of its column. -/
inductive Cell where
  /-- A timestamp, or none. -/
  | instant (stamp : Option Stamp)
  | flag (b : Bool)
  /-- Any other value, as `str` writes it. -/
  | text (s : String)
  deriving DecidableEq, Repr

/-- The wall clock of a timestamp. -/
def wallClock : Stamp → Int
  | .naive wall => wall
  | .aware wall _ => wall

/-- A cell as identity text (`_as_identity_text`): a timestamp gives its calendar day. -/
def Cell.identityText : Cell → String
  | .instant (some stamp) => dayText (utcDay (wallClock stamp))
  | .instant none => "NaT"
  | .flag true => "True"
  | .flag false => "False"
  | .text s => s

/-- What refuses a frame. -/
inductive MintError where
  /-- `identity columns absent from frame`. -/
  | absentColumns (names : List String)
  /-- Nothing was named. -/
  | noFields
  deriving DecidableEq, Repr

/-- The table a frame is minted from: its columns, and the cells of its rows. -/
structure CellFrame (ρ : Type) where
  columns : List String
  cell : ρ → String → Cell
  rows : List ρ

variable {ρ : Type}

/-- The named cells of a row, pipe-joined, under the scope where there is one. -/
def identityOf (cell : ρ → String → Cell) (names : List String) (scope : Option String) (r : ρ) :
    String :=
  "|".intercalate (scope.toList ++ names.map fun name => (cell r name).identityText)

/-- The identity of every row (`match_identities`). -/
def matchIdentities (frame : CellFrame ρ) (names : List String) (scope : Option String) :
    Except MintError (List String) := do
  failIf (names.filter (· ∉ frame.columns) ≠ []) (.absentColumns (names.filter (· ∉ frame.columns)))
  failIf (scope.toList ++ names = []) .noFields
  return frame.rows.map (identityOf frame.cell names scope)

/-! ## Ids -/

/-- How many earlier identities equal each one (`groupby(...).cumcount()`). -/
def cumcount (identities : List String) : List Nat :=
  identities.zipIdx.map fun p => (identities.take p.2).count p.1

/-- What is hashed for a row. -/
def hashedIdentity (identity : String) (occurrence : Nat) : List Char :=
  identity.toList ++ '|' :: Json.natText occurrence

/-- The digest an id is made of. -/
def shortDigest (text : List Char) : List Char := (Lib.Sha256.hexdigest text).toList.take 16

/-- The id of an identity's occurrence. -/
def matchIdOf (identity : String) (occurrence : Nat) : String :=
  "m_" ++ String.ofList (shortDigest (hashedIdentity identity occurrence))

/-- Rows with the ids their identities get. -/
def mintRows (identity : ρ → String) (rows : List ρ) : List (String × ρ) :=
  let identities := rows.map identity
  (List.zipWith matchIdOf identities (cumcount identities)).zip rows

/-- Insert a stable `match_id` as the first column (`mint_match_ids`). -/
def mintMatchIds (frame : CellFrame ρ) (names : List String) (scope : Option String) :
    Except MintError (List (String × ρ)) := do
  let identities ← matchIdentities frame names scope
  return (List.zipWith matchIdOf identities (cumcount identities)).zip frame.rows

/-! ## The results table -/

/-- The columns of `results.csv` as it is parsed. -/
def sourceColumns : List String :=
  ["date", "home_team", "away_team", "home_score", "away_score", "tournament", "city", "country",
    "neutral"]

/-- The cells of a parsed row that identities read. -/
def sourceCell (r : SourceRow) : String → Cell
  | "date" => .instant (some (.naive (midnight r.date)))
  | "home_team" => .text r.homeTeam
  | "away_team" => .text r.awayTeam
  | "tournament" => .text r.tournament
  | "city" => .text (r.city.getD "<NA>")
  | "country" => .text (r.country.getD "<NA>")
  | "neutral" => .flag r.neutral
  | _ => .text ""

/-- The identity fields of the results table (`_MARTJ42_IDENTITY`). -/
def martj42Identity : List String :=
  ["date", "home_team", "away_team", "tournament", "city", "country", "neutral"]

/-- The order the results table is minted in. -/
def resultBefore (a b : SourceRow) : Bool :=
  toLex (a.date, toLex (a.homeTeam, toLex (a.awayTeam, a.tournament))) ≤
    toLex (b.date, toLex (b.homeTeam, toLex (b.awayTeam, b.tournament)))

/-- Sort the parsed rows and mint their ids (`load_match_table`). -/
def mintResults (rows : List SourceRow) : Except MintError (List SourceRow) := do
  let minted ← mintMatchIds
    ⟨sourceColumns, sourceCell, rows.insertionSort fun a b => resultBefore a b⟩ martj42Identity none
  return minted.map fun row => { row.2 with matchId := row.1 }

/-! ## What is hashed -/

theorem natText_injective {m n : Nat} (h : Json.natText m = Json.natText n) : m = n := by
  have hread : ∀ k, Json.natOfDigits 0 ((Json.natText k).filterMap Json.digitVal?) = k := by
    intro k
    have hdigits : (Json.natText k).filterMap Json.digitVal? =
        Json.digitList (Json.digitCount k) k := by
      rw [Json.natText, Json.fixedDigits, List.filterMap_map]
      refine (List.filterMap_congr fun d hd => ?_).trans List.filterMap_some
      exact Json.digitVal?_digitChar (Json.digitList_lt _ _ d hd)
    rw [hdigits, Json.natOfDigits_digitCount]
  rw [← hread m, h, hread n]

theorem pipe_notMem_natText (n : Nat) : '|' ∉ Json.natText n := by
  intro h
  obtain ⟨d, hd, heq⟩ := List.mem_map.mp h
  have hlt := Json.digitList_lt _ _ d hd
  interval_cases d <;> exact absurd heq (by decide)

/-- What is hashed tells the identity and the occurrence. -/
theorem hashedIdentity_injective {s t : String} {m n : Nat}
    (h : hashedIdentity s m = hashedIdentity t n) : s = t ∧ m = n := by
  have hcut : ∀ (s : String) (m : Nat),
      (hashedIdentity s m).reverse.takeWhile (· ≠ '|') = (Json.natText m).reverse ∧
        (hashedIdentity s m).reverse.dropWhile (· ≠ '|') = '|' :: s.toList.reverse := by
    intro s m
    have hrev : (hashedIdentity s m).reverse =
        (Json.natText m).reverse ++ '|' :: s.toList.reverse := by
      simp [hashedIdentity]
    rw [hrev]
    refine span_append (fun c hc => ?_) (by simp)
    have hne : c ≠ '|' := fun heq => pipe_notMem_natText m (heq ▸ List.mem_reverse.mp hc)
    simpa using hne
  obtain ⟨hm, hs⟩ := hcut s m
  obtain ⟨hn, ht⟩ := hcut t n
  rw [h] at hm hs
  refine ⟨String.toList_inj.mp (List.reverse_inj.mp ?_), natText_injective (List.reverse_inj.mp ?_)⟩
  · exact (List.cons.inj (hs.symm.trans ht)).2
  · exact hm.symm.trans hn

/-! ## The rows of a table, one by one -/

theorem cumcount_append_singleton (identities : List String) (s : String) :
    cumcount (identities ++ [s]) = cumcount identities ++ [identities.count s] := by
  rw [cumcount, List.zipIdx_append, List.map_append]
  congr 1
  · refine List.map_congr_left fun p hp => ?_
    have hlt : p.2 < identities.length :=
      (List.getElem?_eq_some_iff.mp (List.mem_zipIdx_iff_getElem?.mp hp)).1
    rw [List.take_append_of_le_length hlt.le]
  · simp

@[simp] theorem length_cumcount (identities : List String) :
    (cumcount identities).length = identities.length := by
  simp [cumcount]

variable {identity : ρ → String}

/-- The last row gets the number of the earlier rows with its identity. -/
theorem mintRows_append_singleton (rows : List ρ) (r : ρ) :
    mintRows identity (rows ++ [r]) = mintRows identity rows ++
      [(matchIdOf (identity r) ((rows.map identity).count (identity r)), r)] := by
  simp only [mintRows, List.map_append, List.map_singleton, cumcount_append_singleton]
  rw [List.zipWith_append (by simp), List.zip_append (by simp)]
  rfl

theorem map_snd_mintRows (rows : List ρ) : (mintRows identity rows).map Prod.snd = rows := by
  rw [mintRows, List.map_snd_zip]
  simp

/-- The texts a table's ids are digests of. -/
def hashedTexts (identity : ρ → String) (rows : List ρ) : List (List Char) :=
  List.zipWith hashedIdentity (rows.map identity) (cumcount (rows.map identity))

theorem map_fst_mintRows (rows : List ρ) : (mintRows identity rows).map Prod.fst =
    (hashedTexts identity rows).map fun text => "m_" ++ String.ofList (shortDigest text) := by
  rw [mintRows, List.map_fst_zip (by simp), hashedTexts, List.map_zipWith]
  rfl

theorem hashedTexts_append_singleton (rows : List ρ) (r : ρ) :
    hashedTexts identity (rows ++ [r]) = hashedTexts identity rows ++
      [hashedIdentity (identity r) ((rows.map identity).count (identity r))] := by
  simp only [hashedTexts, List.map_append, List.map_singleton, cumcount_append_singleton]
  rw [List.zipWith_append (by simp)]
  rfl

/-- A row's number is below the number of rows with its identity. -/
theorem exists_of_mem_hashedTexts {rows : List ρ} {text : List Char}
    (h : text ∈ hashedTexts identity rows) :
    ∃ s k, text = hashedIdentity s k ∧ k < (rows.map identity).count s := by
  induction rows using List.reverseRecOn with
  | nil => exact absurd h List.not_mem_nil
  | append_singleton rows r ih =>
      rw [hashedTexts_append_singleton, List.mem_append, List.mem_singleton] at h
      rw [List.map_append, List.map_singleton]
      rcases h with h | rfl
      · obtain ⟨s, k, htext, hk⟩ := ih h
        refine ⟨s, k, htext, hk.trans_le ?_⟩
        rw [List.count_append]
        exact Nat.le_add_right _ _
      · refine ⟨_, _, rfl, ?_⟩
        rw [List.count_append, List.count_singleton_self]
        exact Nat.lt_succ_self _

/-- **No text is hashed for two rows.** -/
theorem nodup_hashedTexts (rows : List ρ) : (hashedTexts identity rows).Nodup := by
  induction rows using List.reverseRecOn with
  | nil => exact List.nodup_nil
  | append_singleton rows r ih =>
      rw [hashedTexts_append_singleton, ← List.concat_eq_append, List.nodup_concat]
      refine ⟨fun hmem => ?_, ih⟩
      obtain ⟨s, k, htext, hk⟩ := exists_of_mem_hashedTexts hmem
      obtain ⟨rfl, rfl⟩ := hashedIdentity_injective htext
      exact lt_irrefl _ hk

/-- **The rows of an identity get the numbers from zero up.** -/
theorem filter_mintRows (s : String) (rows : List ρ) :
    (mintRows identity rows).filter (fun row => identity row.2 = s) =
      (rows.filter fun r => identity r = s).zipIdx.map fun p => (matchIdOf s p.2, p.1) := by
  have hcount : ∀ rows : List ρ, (rows.map identity).count s =
      (rows.filter fun r => identity r = s).length := by
    intro rows
    rw [List.count, List.countP_map, List.countP_eq_length_filter]
    rfl
  induction rows using List.reverseRecOn with
  | nil => rfl
  | append_singleton rows r ih =>
      rw [mintRows_append_singleton, List.filter_append, List.filter_append, List.zipIdx_append,
        List.map_append, ih]
      congr 1
      by_cases h : identity r = s
      · simp [h, hcount]
      · simp [h]

/-- The id of a row, by its own identity and the earlier rows with it. -/
theorem getElem?_mintRows {rows : List ρ} {i : Nat} {r : ρ} (h : rows[i]? = some r) :
    (mintRows identity rows)[i]? =
      some (matchIdOf (identity r) ((rows.take i).countP fun q => identity q = identity r), r) := by
  obtain ⟨hlt, rfl⟩ := List.getElem?_eq_some_iff.mp h
  have hcum : (cumcount (rows.map identity))[i]? =
      some ((rows.take i).countP fun q => identity q = identity rows[i]) := by
    simp only [cumcount, List.getElem?_map, List.getElem?_zipIdx, h, Option.map_some]
    rw [← List.map_take, List.count, List.countP_map, Nat.zero_add]
    simp only [Function.comp_def, beq_eq_decide]
  simp only [mintRows, List.getElem?_zip_eq_some, List.getElem?_zipWith, List.getElem?_map, h,
    hcum, Option.map_some, and_self]

theorem mintMatchIds_ok {frame : CellFrame ρ} {names : List String} {scope : Option String}
    {minted : List (String × ρ)} (h : mintMatchIds frame names scope = .ok minted) :
    minted = mintRows (identityOf frame.cell names scope) frame.rows := by
  obtain ⟨identities, hidentities, heq⟩ := bind_ok_iff.mp h
  obtain ⟨-, hidentities⟩ := check_bind_ok_iff.mp hidentities
  obtain ⟨-, hidentities⟩ := check_bind_ok_iff.mp hidentities
  obtain rfl := Except.ok.inj hidentities
  exact (Except.ok.inj heq).symm

/-! ## The results table -/

/-- The identity of a result. -/
def resultIdentity (r : SourceRow) : String := identityOf sourceCell martj42Identity none r

/-- The id is no part of the identity. -/
theorem resultIdentity_withId (id : String) (r : SourceRow) :
    resultIdentity { r with matchId := id } = resultIdentity r := by
  have hcell : sourceCell { r with matchId := id } = sourceCell r := by
    funext name
    unfold sourceCell
    split <;> rfl
  simp only [resultIdentity, identityOf, hcell]

/-- The results table is always minted. -/
theorem mintResults_eq (rows : List SourceRow) : mintResults rows =
    .ok ((mintRows resultIdentity (rows.insertionSort fun a b => resultBefore a b)).map
      fun row => { row.2 with matchId := row.1 }) := rfl

instance resultBefore_total : Std.Total (fun a b : SourceRow => resultBefore a b = true) where
  total a b := by
    simp only [resultBefore, decide_eq_true_eq]
    exact le_total _ _

instance resultBefore_trans : IsTrans SourceRow (fun a b => resultBefore a b = true) where
  trans a b c := by
    simp only [resultBefore, decide_eq_true_eq]
    exact le_trans

/-- **What other results a table has plays no part in the ids of an identity.** -/
theorem mintResults_filter {rows other : List SourceRow} {s : String}
    (h : (rows.filter fun r => resultIdentity r = s) = other.filter fun r => resultIdentity r = s) :
    ((mintRows resultIdentity (rows.insertionSort fun a b => resultBefore a b)).filter
        fun row => resultIdentity row.2 = s) =
      (mintRows resultIdentity (other.insertionSort fun a b => resultBefore a b)).filter
        fun row => resultIdentity row.2 = s := by
  rw [filter_mintRows, filter_mintRows, ← filter_insertionSort_comm, ← filter_insertionSort_comm, h]

/-! ## The ids of a table -/

/-- **Match ids are unique and stable**: where the digests of the texts hashed for a table are
distinct, its ids are; a row's id depends on its own identity and on how many earlier rows have it;
so the rows of an identity keep their ids whatever other rows come, go or move. Splicing exact
kickoffs onto a table changes no id, no completeness and no order. -/
theorem match_ids {frame : CellFrame ρ} {names : List String} {scope : Option String}
    {minted : List (String × ρ)} (h : mintMatchIds frame names scope = .ok minted) :
    let identity := identityOf frame.cell names scope
    minted.map Prod.snd = frame.rows ∧
      (Set.InjOn shortDigest {text | text ∈ hashedTexts identity frame.rows} →
        (minted.map Prod.fst).Nodup) ∧
      (∀ i r, frame.rows[i]? = some r → minted[i]? = some (matchIdOf (identity r)
        ((frame.rows.take i).countP fun q => identity q = identity r), r)) ∧
      (∀ (rows : List ρ) (other : List (String × ρ)) (s : String),
        mintMatchIds { frame with rows := rows } names scope = .ok other →
        (rows.filter fun r => identity r = s) = (frame.rows.filter fun r => identity r = s) →
          (other.filter fun row => identity row.2 = s) =
            minted.filter fun row => identity row.2 = s) ∧
      (∀ (rows other loaded reloaded : List SourceRow) (s : String),
        mintResults rows = .ok loaded → mintResults other = .ok reloaded →
        (rows.filter fun r => resultIdentity r = s) =
          (other.filter fun r => resultIdentity r = s) →
            (loaded.filter fun r => resultIdentity r = s) =
              reloaded.filter fun r => resultIdentity r = s) ∧
      ∀ (u : Unicode) (p : Pack) (table spliced : MatchTable),
        applyExactKickoffs u p table = .ok spliced →
          (spliced.rows.map fun r => (r.matchId, r.isComplete)) =
            table.rows.map fun r => (r.matchId, r.isComplete) := by
  intro identity
  obtain rfl := mintMatchIds_ok h
  refine ⟨map_snd_mintRows _, fun hinj => ?_, fun i r hr => getElem?_mintRows hr,
    fun rows other s hother hsame => ?_, fun rows other loaded reloaded s hloaded hreloaded hsame => ?_,
    fun u p table spliced hspliced => ?_⟩
  · rw [map_fst_mintRows]
    refine (nodup_hashedTexts frame.rows).map_on fun a ha b hb heq => hinj ha hb ?_
    have hlists := congrArg String.toList heq
    simp only [String.toList_append, String.toList_ofList] at hlists
    exact List.append_cancel_left hlists
  · obtain rfl := mintMatchIds_ok hother
    rw [filter_mintRows, filter_mintRows, hsame]
  · rw [mintResults_eq] at hloaded hreloaded
    obtain rfl := Except.ok.inj hloaded
    obtain rfl := Except.ok.inj hreloaded
    simp only [List.filter_map, Function.comp_def, resultIdentity_withId]
    rw [mintResults_filter hsame]
  · unfold applyExactKickoffs at hspliced
    split at hspliced
    · rw [← Except.ok.inj hspliced]
    · split at hspliced
      · rw [← Except.ok.inj hspliced, List.map_map]
        refine List.map_congr_left fun r _ => ?_
        obtain ⟨kickoff, precision, heq⟩ := exactKickoff_eq u _ r
        rw [Function.comp_apply, heq]
      · cases hspliced

/-- Two meetings of one pair on one day. -/
def repeatedFrame : CellFrame SourceRow :=
  let row : SourceRow :=
    { matchId := "", date := 0, homeTeam := "Brazil", awayTeam := "Spain", tournament := "Friendly" }
  ⟨sourceColumns, sourceCell, [row, row]⟩

/-- The two get distinct ids. -/
theorem match_ids_repeated :
    ((mintRows (identityOf sourceCell ["date", "home_team", "away_team"] none)
      repeatedFrame.rows).map Prod.fst).Nodup := by
  have hminted : mintMatchIds repeatedFrame ["date", "home_team", "away_team"] none =
      .ok (mintRows (identityOf sourceCell ["date", "home_team", "away_team"] none)
        repeatedFrame.rows) := rfl
  refine (match_ids hminted).2.1 ?_
  have htexts : hashedTexts (identityOf sourceCell ["date", "home_team", "away_team"] none)
      repeatedFrame.rows = ["1970-01-01|Brazil|Spain|0".toList, "1970-01-01|Brazil|Spain|1".toList] := by
    decide +kernel
  have hne : shortDigest "1970-01-01|Brazil|Spain|0".toList ≠
      shortDigest "1970-01-01|Brazil|Spain|1".toList := by
    decide +kernel
  intro a ha b hb heq
  rw [Set.mem_ofPred_eq, show repeatedFrame.cell = sourceCell from rfl, htexts] at ha hb
  simp only [List.mem_cons, List.not_mem_nil, or_false] at ha hb
  rcases ha with rfl | rfl <;> rcases hb with rfl | rfl
  · rfl
  · exact absurd heq hne
  · exact absurd heq.symm hne
  · rfl

end Golavo.Ingest
