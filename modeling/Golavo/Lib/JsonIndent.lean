import Golavo.Lib.JsonRoundTrip
import Mathlib.Data.List.DropRight

/-! # Indented JSON text

`Json.indented` writes a value over several lines (`json.dumps(..., indent=2, sort_keys=True)`, of
ASCII texts, which that call writes as they are). A reader skips the white space, so the value is
read back; and the text holds no NUL and starts with a visible character. -/

namespace Golavo.Lib.Json

open Fields

/-! ## Writing -/

/-- A line break and the indentation of a level. -/
def newline (d : Nat) : List Char := '\n' :: List.replicate (2 * d) ' '

mutual

/-- Write a value at a level. -/
def indentedAt (d : Nat) : Json → List Char
  | .arr items => '[' :: indentedItems d items
  | .obj fields => '{' :: indentedFields d fields
  | j => dumps j

/-- The items of an array and its closing bracket. -/
def indentedItems (d : Nat) : List Json → List Char
  | [] => [']']
  | [x] => newline (d + 1) ++ indentedAt (d + 1) x ++ (newline d ++ [']'])
  | x :: y :: rest =>
      newline (d + 1) ++ indentedAt (d + 1) x ++ ',' :: indentedItems d (y :: rest)

/-- The fields of an object and its closing brace. -/
def indentedFields (d : Nat) : List (String × Json) → List Char
  | [] => ['}']
  | [(k, x)] =>
      newline (d + 1) ++ '"' :: stringText k.toList ++ ':' :: ' ' :: indentedAt (d + 1) x ++
        (newline d ++ ['}'])
  | (k, x) :: y :: rest =>
      newline (d + 1) ++ '"' :: stringText k.toList ++ ':' :: ' ' :: indentedAt (d + 1) x ++
        ',' :: indentedFields d (y :: rest)

end

/-- Write a document. -/
def indented (j : Json) : List Char := indentedAt 0 j

/-! ## White space -/

theorem skipWs_newline (d : Nat) (s : List Char) : skipWs (newline d ++ s) = skipWs s := by
  have hblank : ∀ k, skipWs (List.replicate k ' ' ++ s) = skipWs s := by
    intro k
    induction k with
    | zero => rfl
    | succ k ih => rw [List.replicate_succ, List.cons_append, ← ih]; rfl
  rw [newline, List.cons_append, ← hblank (2 * d)]
  rfl

theorem skipWs_skipWs (s : List Char) : skipWs (skipWs s) = skipWs s :=
  List.dropWhile_idempotent _ _

theorem parseValue_skipWs (n : Nat) (s : List Char) : parseValue n (skipWs s) = parseValue n s := by
  cases n with
  | zero => rfl
  | succ n => rw [parseValue, skipWs_skipWs, parseValue]

theorem parseItems_skipWs (n : Nat) (s : List Char) (acc : List Json) :
    parseItems n (skipWs s) acc = parseItems n s acc := by
  cases n with
  | zero => rfl
  | succ n => rw [parseItems, parseValue_skipWs, parseItems]

theorem parseFields_skipWs (n : Nat) (s : List Char) (acc : List (String × Json)) :
    parseFields n (skipWs s) acc = parseFields n s acc := by
  cases n with
  | zero => rfl
  | succ n => rw [parseFields, skipWs_skipWs, parseFields]

theorem parseValue_newline (n d : Nat) (s : List Char) :
    parseValue n (newline d ++ s) = parseValue n s := by
  rw [← parseValue_skipWs, skipWs_newline, parseValue_skipWs]

theorem parseValue_blank (n : Nat) (s : List Char) : parseValue n (' ' :: s) = parseValue n s := by
  rw [← parseValue_skipWs, ← parseValue_skipWs n s]
  rfl

theorem parseItems_newline (n d : Nat) (s : List Char) (acc : List Json) :
    parseItems n (newline d ++ s) acc = parseItems n s acc := by
  rw [← parseItems_skipWs, skipWs_newline, parseItems_skipWs]

theorem parseFields_newline (n d : Nat) (s : List Char) (acc : List (String × Json)) :
    parseFields n (newline d ++ s) acc = parseFields n s acc := by
  rw [← parseFields_skipWs, skipWs_newline, parseFields_skipWs]

theorem stops_newline (d : Nat) (s : List Char) : Stops (newline d ++ s) :=
  ⟨by decide, by decide, by decide, by decide⟩

/-! ## Reading back -/

/-- A value's text starts with neither white space nor a closing bracket. -/
theorem indentedAt_head (d : Nat) (j : Json) :
    ∃ c r, indentedAt d j = c :: r ∧ isWs c = false ∧ c ≠ ']' := by
  cases j with
  | arr items => exact ⟨'[', _, rfl, by decide, by decide⟩
  | obj fields => exact ⟨'{', _, rfl, by decide, by decide⟩
  | null => exact dumps_head .null
  | bool b => exact dumps_head (.bool b)
  | int z => exact dumps_head (.int z)
  | float x => exact dumps_head (.float x)
  | str s => exact dumps_head (.str s)

/-- After an opening bracket, a text that is not the closing one holds items. -/
theorem parseValue_bracket {n : Nat} {s : List Char} (h : ∀ t, skipWs s ≠ ']' :: t) :
    parseValue (n + 1) ('[' :: s) = parseItems n s [] := by
  have hws : isWs '[' = false := by decide
  rw [parseValue, skipWs_cons hws]
  simp only [show ¬ ('[' = '"') by decide, if_false, if_true]
  exact parseItems_skipWs n s []

/-- After an opening brace, a text that is not the closing one holds fields. -/
theorem parseValue_brace {n : Nat} {s : List Char} (h : ∀ t, skipWs s ≠ '}' :: t) :
    parseValue (n + 1) ('{' :: s) = parseFields n s [] := by
  have hws : isWs '{' = false := by decide
  rw [parseValue, skipWs_cons hws]
  simp only [show ¬ ('{' = '"') by decide, show ¬ ('{' = '[') by decide, if_false, if_true]
  exact parseFields_skipWs n s []

theorem skipWs_indentedItems (d : Nat) (x : Json) (xs : List Json) (rest t : List Char) :
    skipWs (indentedItems d (x :: xs) ++ rest) ≠ ']' :: t := by
  obtain ⟨c, r, hhead, hws, hne⟩ := indentedAt_head (d + 1) x
  have : ∃ s, skipWs (indentedItems d (x :: xs) ++ rest) = c :: s := by
    cases xs <;> exact ⟨_, by
      rw [indentedItems, List.append_assoc, List.append_assoc, skipWs_newline, hhead,
        List.cons_append, skipWs_cons hws]⟩
  obtain ⟨s, hs⟩ := this
  rw [hs]
  exact fun heq => hne (List.cons.inj heq).1

theorem skipWs_indentedFields (d : Nat) (field : String × Json) (fields : List (String × Json))
    (rest t : List Char) : skipWs (indentedFields d (field :: fields) ++ rest) ≠ '}' :: t := by
  have hws : isWs '"' = false := by decide
  have : ∃ s, skipWs (indentedFields d (field :: fields) ++ rest) = '"' :: s := by
    cases fields <;> exact ⟨_, by
      rw [indentedFields]
      simp only [List.append_assoc]
      rw [skipWs_newline, List.cons_append, skipWs_cons hws]⟩
  obtain ⟨s, hs⟩ := this
  rw [hs]
  exact fun heq => absurd (List.cons.inj heq).1 (by decide)

mutual

/-- **A written value is read back**, at any level and whatever may follow it. -/
theorem parseValue_indentedAt : ∀ (j : Json), WF j → ∀ n, size j ≤ n → ∀ d rest, Stops rest →
    parseValue n (indentedAt d j ++ rest) = some (j, rest)
  | j, _, 0, hn, _, _, _ => by cases j <;> simp [size] at hn
  | .null, hwf, n + 1, hn, _, rest, hrest => parseValue_dumps .null hwf (n + 1) hn rest hrest
  | .bool b, hwf, n + 1, hn, _, rest, hrest => parseValue_dumps (.bool b) hwf (n + 1) hn rest hrest
  | .int z, hwf, n + 1, hn, _, rest, hrest => parseValue_dumps (.int z) hwf (n + 1) hn rest hrest
  | .float x, hwf, n + 1, hn, _, rest, hrest =>
      parseValue_dumps (.float x) hwf (n + 1) hn rest hrest
  | .str s, hwf, n + 1, hn, _, rest, hrest => parseValue_dumps (.str s) hwf (n + 1) hn rest hrest
  | .arr [], _, n + 1, _, _, rest, _ => by rfl
  | .arr (x :: xs), hwf, n + 1, hn, d, rest, _ => by
      rw [indentedAt, List.cons_append,
        parseValue_bracket (fun t => skipWs_indentedItems d x xs rest t)]
      exact parseItems_indented (x :: xs) (List.cons_ne_nil _ _) hwf n
        (by simp only [size] at hn; omega) d [] rest
  | .obj [], _, n + 1, _, _, rest, _ => by rfl
  | .obj (field :: fields), hwf, n + 1, hn, d, rest, _ => by
      rw [indentedAt, List.cons_append,
        parseValue_brace (fun t => skipWs_indentedFields d field fields rest t)]
      exact parseFields_indented (field :: fields) (List.cons_ne_nil _ _) hwf.1 hwf.2 n
        (by simp only [size] at hn; omega) d [] (by simp) rest

/-- The items of an array after the first bracket. -/
theorem parseItems_indented : ∀ (items : List Json), items ≠ [] → WFItems items →
    ∀ n, sizeItems items ≤ n → ∀ d acc rest,
      parseItems n (indentedItems d items ++ rest) acc = some (.arr (acc ++ items), rest)
  | [], hne, _, _, _, _, _, _ => absurd rfl hne
  | x :: xs, _, _, 0, hn, _, _, _ => by
      simp only [sizeItems] at hn
      omega
  | [x], _, hwf, n + 1, hn, d, acc, rest => by
      have hx := parseValue_indentedAt x hwf.1 n (by simp only [sizeItems] at hn; omega) (d + 1)
        (newline d ++ (']' :: rest)) (stops_newline _ _)
      have hws : isWs ']' = false := by decide
      have htext : indentedItems d [x] ++ rest =
          newline (d + 1) ++ (indentedAt (d + 1) x ++ (newline d ++ ']' :: rest)) := by
        simp [indentedItems]
      rw [htext, parseItems_newline, parseItems, hx]
      simp [skipWs_newline, skipWs_cons hws]
  | x :: y :: ys, _, hwf, n + 1, hn, d, acc, rest => by
      have hx := parseValue_indentedAt x hwf.1 n (by simp only [sizeItems] at hn ⊢; omega) (d + 1)
        (',' :: (indentedItems d (y :: ys) ++ rest)) (stops_of_delimiter (by simp) _)
      have hxs := parseItems_indented (y :: ys) (List.cons_ne_nil _ _) hwf.2 n
        (by simp only [sizeItems] at hn ⊢; omega) d (acc ++ [x]) rest
      have hws : isWs ',' = false := by decide
      have htext : indentedItems d (x :: y :: ys) ++ rest = newline (d + 1) ++
          (indentedAt (d + 1) x ++ ',' :: (indentedItems d (y :: ys) ++ rest)) := by
        simp [indentedItems]
      rw [htext, parseItems_newline, parseItems, hx]
      simp [skipWs_cons hws, hxs]

/-- The fields of an object after the first brace. -/
theorem parseFields_indented : ∀ (fields : List (String × Json)), fields ≠ [] →
    KeysSorted fields → WFFields fields → ∀ n, sizeFields fields ≤ n →
      ∀ d, ∀ acc : List (String × Json),
        (∀ l ∈ acc.map Prod.fst, ∀ k ∈ fields.map Prod.fst, l < k) → ∀ rest,
          parseFields n (indentedFields d fields ++ rest) acc = some (.obj (acc ++ fields), rest)
  | [], hne, _, _, _, _, _, _, _, _ => absurd rfl hne
  | (k, x) :: xs, _, _, _, 0, hn, _, _, _, _ => by
      simp only [sizeFields] at hn
      omega
  | [(k, x)], _, _, hwf, n + 1, hn, d, acc, hacc, rest => by
      have hx := parseValue_indentedAt x hwf.1 n (by simp only [sizeFields] at hn; omega) (d + 1)
        (newline d ++ ('}' :: rest)) (stops_newline _ _)
      have hset : Fields.setField k x acc = acc ++ [(k, x)] :=
        setField_append fun l hl => hacc l hl k (by simp)
      have hq : isWs '"' = false := by decide
      have hc : isWs ':' = false := by decide
      have hb : isWs '}' = false := by decide
      have htext : indentedFields d [(k, x)] ++ rest = newline (d + 1) ++ ('"' ::
          (stringText k.toList ++ (':' :: (' ' :: (indentedAt (d + 1) x ++
            (newline d ++ '}' :: rest)))))) := by
        simp [indentedFields]
      rw [htext, parseFields_newline, parseFields, skipWs_cons hq]
      simp only [parseStr_full, bind, Option.bind, skipWs_cons hc, parseValue_blank, hx, skipWs_newline,
        skipWs_cons hb, String.ofList_toList]
      simp [hset]
  | (k, x) :: y :: ys, _, hsorted, hwf, n + 1, hn, d, acc, hacc, rest => by
      obtain ⟨hlt, hrest⟩ := keysSorted_cons.mp hsorted
      have hx := parseValue_indentedAt x hwf.1 n (by simp only [sizeFields] at hn ⊢; omega) (d + 1)
        (',' :: (indentedFields d (y :: ys) ++ rest)) (stops_of_delimiter (by simp) _)
      have hxs := parseFields_indented (y :: ys) (List.cons_ne_nil _ _) hrest hwf.2 n
        (by simp only [sizeFields] at hn ⊢; omega) d (acc ++ [(k, x)])
        (by
          intro l hl m hm
          rw [List.map_append, List.mem_append] at hl
          rcases hl with hl | hl
          · exact hacc l hl m (by simp only [List.map_cons, List.mem_cons] at hm ⊢; tauto)
          · rw [List.mem_singleton.mp hl]
            exact hlt m hm) rest
      have hset : Fields.setField k x acc = acc ++ [(k, x)] :=
        setField_append fun l hl => hacc l hl k (by simp)
      have hq : isWs '"' = false := by decide
      have hc : isWs ':' = false := by decide
      have hm : isWs ',' = false := by decide
      have htext : indentedFields d ((k, x) :: y :: ys) ++ rest = newline (d + 1) ++ ('"' ::
          (stringText k.toList ++ (':' :: (' ' :: (indentedAt (d + 1) x ++
            ',' :: (indentedFields d (y :: ys) ++ rest)))))) := by
        simp [indentedFields]
      rw [htext, parseFields_newline, parseFields, skipWs_cons hq]
      simp only [parseStr_full, bind, Option.bind, skipWs_cons hc, parseValue_blank, hx, skipWs_cons hm,
        String.ofList_toList]
      simp [hset, hxs]

end

mutual

/-- Twice the text is fuel enough. -/
theorem size_le_indentedAt : ∀ (j : Json) (d : Nat), size j ≤ 2 * (indentedAt d j).length
  | .null, _ => size_le_dumps .null
  | .bool b, _ => size_le_dumps (.bool b)
  | .int z, _ => size_le_dumps (.int z)
  | .float x, _ => size_le_dumps (.float x)
  | .str s, _ => size_le_dumps (.str s)
  | .arr items, d => by
      have := sizeItems_le_indented items d
      simp only [size, indentedAt, List.length_cons]
      omega
  | .obj fields, d => by
      have := sizeFields_le_indented fields d
      simp only [size, indentedAt, List.length_cons]
      omega

theorem sizeItems_le_indented : ∀ (items : List Json) (d : Nat),
    sizeItems items ≤ 2 * (indentedItems d items).length
  | [], _ => by simp [sizeItems, indentedItems]
  | [x], d => by
      have := size_le_indentedAt x (d + 1)
      simp only [sizeItems, indentedItems, List.length_append, List.length_singleton]
      omega
  | x :: y :: rest, d => by
      have h1 := size_le_indentedAt x (d + 1)
      have h2 := sizeItems_le_indented (y :: rest) d
      rw [sizeItems, indentedItems, List.length_append, List.length_append, List.length_cons]
      omega

theorem sizeFields_le_indented : ∀ (fields : List (String × Json)) (d : Nat),
    sizeFields fields ≤ 2 * (indentedFields d fields).length
  | [], _ => by simp [sizeFields, indentedFields]
  | [(k, x)], d => by
      have := size_le_indentedAt x (d + 1)
      simp only [sizeFields, indentedFields, List.length_append, List.length_cons,
        List.length_nil]
      omega
  | (k, x) :: y :: rest, d => by
      have h1 := size_le_indentedAt x (d + 1)
      have h2 := sizeFields_le_indented (y :: rest) d
      rw [sizeFields, indentedFields]
      simp only [List.length_append, List.length_cons]
      omega

end

/-- **The round trip**, with a final line feed. -/
theorem loads_indented {j : Json} (h : WF j) : loads (indented j ++ ['\n']) = some j := by
  have hfuel : size j ≤ 2 * (indented j ++ ['\n']).length + 1 := by
    have := size_le_indentedAt j 0
    rw [List.length_append]
    exact Nat.le_succ_of_le (this.trans (Nat.mul_le_mul_left 2 (Nat.le_add_right _ _)))
  have hstop : Stops ['\n'] := stops_newline 0 []
  have hread : parseValue (2 * (indented j ++ ['\n']).length + 1) (indented j ++ ['\n']) =
      some (j, ['\n']) := parseValue_indentedAt j h _ hfuel 0 _ hstop
  rw [loads, hread]
  rfl

/-! ## Visible text -/

/-- A text without control characters but line feeds. -/
def Visible (s : List Char) : Prop := ∀ c ∈ s, c = '\n' ∨ 32 ≤ c.toNat

theorem visible_append {s t : List Char} : Visible (s ++ t) ↔ Visible s ∧ Visible t := by
  simp only [Visible, List.mem_append]
  exact ⟨fun h => ⟨fun c hc => h c (.inl hc), fun c hc => h c (.inr hc)⟩,
    fun h c hc => hc.elim (h.1 c) (h.2 c)⟩

theorem Printable.visible {s : List Char} (h : Printable s) : Visible s := fun c hc => .inr (h c hc)

theorem visible_newline (d : Nat) : Visible (newline d) := by
  intro c hc
  rcases List.mem_cons.mp hc with rfl | hc
  · exact .inl rfl
  · rw [List.eq_of_mem_replicate hc]
    exact .inr (by decide)

theorem visible_cons {c : Char} {s : List Char} :
    Visible (c :: s) ↔ (c = '\n' ∨ 32 ≤ c.toNat) ∧ Visible s := by
  simp [Visible]

mutual

theorem visible_indentedAt : ∀ (j : Json) (d : Nat), Visible (indentedAt d j)
  | .null, _ => (printable_dumps .null).visible
  | .bool b, _ => (printable_dumps (.bool b)).visible
  | .int z, _ => (printable_dumps (.int z)).visible
  | .float x, _ => (printable_dumps (.float x)).visible
  | .str s, _ => (printable_dumps (.str s)).visible
  | .arr items, d => visible_cons.mpr ⟨.inr (by decide), visible_indentedItems items d⟩
  | .obj fields, d => visible_cons.mpr ⟨.inr (by decide), visible_indentedFields fields d⟩

theorem visible_indentedItems : ∀ (items : List Json) (d : Nat), Visible (indentedItems d items)
  | [], _ => by simp [indentedItems, Visible]
  | [x], d => by
      rw [indentedItems, visible_append, visible_append, visible_append]
      exact ⟨⟨visible_newline _, visible_indentedAt x _⟩, visible_newline _, by simp [Visible]⟩
  | x :: y :: rest, d => by
      rw [indentedItems, visible_append, visible_append, visible_cons]
      exact ⟨⟨visible_newline _, visible_indentedAt x _⟩, .inr (by decide),
        visible_indentedItems (y :: rest) d⟩

theorem visible_indentedFields : ∀ (fields : List (String × Json)) (d : Nat),
    Visible (indentedFields d fields)
  | [], _ => by simp [indentedFields, Visible]
  | [(k, x)], d => by
      simp only [indentedFields, visible_append, visible_cons]
      exact ⟨⟨⟨visible_newline _, .inr (by decide), (printable_stringText _).visible⟩,
        .inr (by decide), .inr (by decide), visible_indentedAt x _⟩, visible_newline _,
        .inr (by decide), by simp [Visible]⟩
  | (k, x) :: y :: rest, d => by
      simp only [indentedFields, visible_append, visible_cons]
      exact ⟨⟨⟨visible_newline _, .inr (by decide), (printable_stringText _).visible⟩,
        .inr (by decide), .inr (by decide), visible_indentedAt x _⟩, .inr (by decide),
        visible_indentedFields (y :: rest) d⟩

end

end Golavo.Lib.Json
