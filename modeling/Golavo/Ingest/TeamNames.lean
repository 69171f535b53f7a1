import Golavo.Identity
import Golavo.Lib.Fields
import Golavo.Lib.Words

/-! # Club names

openfootball prints one club under several names. `canonical_team` collapses them: in the English
files it strips one `AFC` in front and one `FC` or `AFC` behind, elsewhere it looks the name up among
the **aliases** of its league and else drops its legal-form tokens. Whether a second pass changes
nothing is settled for every name (`canonicalTeam_idem_iff`). -/

namespace Golavo.Ingest

open Golavo.Lib (words unwords IsWord Trimmed trimmed_trim trimmed_unwords)
open Golavo.Lib.Fields (getField mem_of_getField)

/-! ## The tables -/

/-- Tokens that are dropped wherever they stand (`_DROP_ANYWHERE`). -/
def dropAnywhere : List String := ["FC", "CF"]

/-- Tokens that are dropped in front (`_LEAD_TOKENS`). -/
def leadTokens : List String :=
  ["AC", "ACF", "AJ", "AS", "CA", "CD", "Calcio", "EA", "FSV", "OGC", "RC", "RCD", "SC", "SD", "SM",
    "SS", "SSC", "SV", "SpVgg", "TSG", "UC", "UD", "US", "VfB", "VfL"]

/-- Tokens that are dropped behind (`_TRAIL_TOKENS`). -/
def trailTokens : List String :=
  ["AC", "BC", "Balompié", "CFC", "Calcio", "FCO", "HSC", "OSC", "SC", "SCO", "UD"]

/-- What each league prints a club as beside its name (`_ALIASES`). -/
def aliases : List (String × List (String × String)) :=
  [("uefa",
      [("Club Atlético de Madrid", "Atlético Madrid"), ("FC Internazionale Milano", "Inter"),
        ("Olympique de Marseille", "Marseille"), ("Olympique Marseille", "Marseille"),
        ("Lazio Roma", "Lazio"), ("Real Sociedad de Fútbol", "Real Sociedad"),
        ("Bor. Mönchengladbach", "Borussia Mönchengladbach"), ("Olympique Lyonnais", "Lyon"),
        ("Racing Club de Lens", "Lens")]),
    ("es.1",
      [("Club Atlético de Madrid", "Atlético Madrid"), ("RCD Espanyol de Barcelona", "Espanyol"),
        ("Espanyol Barcelona", "Espanyol"), ("Real Sociedad de Fútbol", "Real Sociedad"),
        ("Rayo Vallecano de Madrid", "Rayo Vallecano"), ("RC Celta", "Celta Vigo"),
        ("RC Celta de Vigo", "Celta Vigo"), ("Deportivo Alavés", "Alavés"),
        ("Real Racing Club de Santander", "Racing Santander")]),
    ("de.1",
      [("Bor. Mönchengladbach", "Borussia Mönchengladbach"),
        ("TSV 1860 München", "1860 München")]),
    ("it.1",
      [("FC Internazionale Milano", "Inter"), ("Lazio Roma", "Lazio"),
        ("SPAL 2013 Ferrara", "SPAL")]),
    ("fr.1",
      [("Olympique Lyonnais", "Lyon"), ("Olympique Marseille", "Marseille"),
        ("Olympique de Marseille", "Marseille"), ("Nîmes Olympique", "Nîmes"),
        ("Racing Club de Lens", "Lens"), ("RC Strasbourg Alsace", "Strasbourg"),
        ("Girondins Bordeaux", "Bordeaux"), ("ESTAC Troyes", "Troyes"), ("ES Troyes AC", "Troyes")])]

/-- What a league's aliases give for a name. -/
def aliasOf (league : String) (name : List Char) : Option (List Char) :=
  ((getField league aliases).bind (getField (String.ofList name))).map String.toList

/-! ## Names -/

section Names

variable (u : Unicode)

/-- One `AFC` and the space behind it, dropped in front of a name (`_PREFIX`). -/
def dropPrefix : List Char → List Char
  | 'A' :: 'F' :: 'C' :: c :: rest =>
      if u.isSpace c then rest.dropWhile u.isSpace else 'A' :: 'F' :: 'C' :: c :: rest
  | name => name

/-- One `FC` or `AFC` and the space before it, dropped behind a name (`_SUFFIX`). -/
def dropSuffix (name : List Char) : List Char :=
  match name.reverse with
  | 'C' :: 'F' :: 'A' :: c :: rest =>
      if u.isSpace c then (rest.dropWhile u.isSpace).reverse else name
  | 'C' :: 'F' :: c :: rest =>
      if u.isSpace c then (rest.dropWhile u.isSpace).reverse else name
  | _ => name

/-- Whether a token is kept: it is more than points and digits, and none that is dropped anywhere. -/
def isKept (token : List Char) : Bool :=
  let text := token.rdropWhile (· = '.')
  !text.isEmpty && !text.all u.isDigit && String.ofList token ∉ dropAnywhere

/-- Drop tokens in front while more than one is left. -/
def dropLeads : List (List Char) → List (List Char)
  | first :: second :: rest =>
      if String.ofList first ∈ leadTokens then dropLeads (second :: rest) else first :: second :: rest
  | tokens => tokens

/-- Drop tokens behind while more than one is left; the last token comes first. -/
def dropTrailsReversed : List (List Char) → List (List Char)
  | last :: previous :: rest =>
      if String.ofList last ∈ trailTokens then dropTrailsReversed (previous :: rest)
      else last :: previous :: rest
  | tokens => tokens

def dropTrails (tokens : List (List Char)) : List (List Char) :=
  (dropTrailsReversed tokens.reverse).reverse

/-- The tokens of a name that are kept. -/
def keptTokens (name : List Char) : List (List Char) :=
  dropTrails (dropLeads ((words u.isSpace name).filter (isKept u)))

/-- A name without its legal-form tokens, unless it has no other (`_strip_legal_tokens`). -/
def stripLegalTokens (name : List Char) : List Char :=
  let stripped := unwords (keptTokens u name)
  if stripped = [] then name else stripped

/-- The canonical form of a name. -/
def canonicalName (league : String) (name : List Char) : List Char :=
  let raw := u.strip name
  if league = "en.1" then u.strip (dropSuffix u (dropPrefix u raw))
  else
    match aliasOf league raw with
    | some canonical => canonical
    | none => stripLegalTokens u raw

/-- The canonical name of a club (`canonical_team`). -/
def canonicalTeam (league name : String) : String :=
  String.ofList (canonicalName u league name.toList)

end Names

/-! ## When a second pass changes nothing -/

/-- The names the aliases give. -/
def canonicalAliases : List (List Char) :=
  aliases.flatMap fun league => league.2.map fun entry => entry.2.toList

/-- Of the characters the aliases are spelled with, only the space is one, and the digits are 0 to
9. -/
def Ordinary (u : Unicode) : Prop :=
  ∀ c ∈ ' ' :: canonicalAliases.flatten, u.isSpace c = decide (c = ' ') ∧
    u.isDigit c = c.isDigit

instance (u : Unicode) : Decidable (Ordinary u) := List.decidableBAll _ _

section Idempotence

variable {u : Unicode}

theorem strip_eq (s : List Char) :
    u.strip s = (s.dropWhile u.isSpace).rdropWhile u.isSpace := rfl

theorem strip_strip (s : List Char) : u.strip (u.strip s) = u.strip s :=
  (trimmed_trim s).trim_eq

/-- A part of a trimmed text with the blanks before it dropped is trimmed. -/
theorem trimmed_dropWhile {blank : Char → Bool} {s rest : List Char} (h : Trimmed blank s)
    (hrest : rest <:+ s) : Trimmed blank (rest.dropWhile blank) := by
  constructor
  · intro c hc
    have hnot := List.head?_dropWhile_not blank rest
    rw [Option.mem_def.mp hc] at hnot
    exact hnot
  · intro c hc
    obtain ⟨before, hbefore⟩ := (List.dropWhile_suffix blank).trans hrest
    have hne : rest.dropWhile blank ≠ [] := by
      rintro hnil
      simp [hnil] at hc
    refine h.2 c ?_
    rw [← hbefore, List.getLast?_append_of_ne_nil _ hne]
    exact hc

theorem trimmed_reverse {blank : Char → Bool} {s : List Char} (h : Trimmed blank s) :
    Trimmed blank s.reverse :=
  ⟨fun c hc => h.2 c (by rwa [List.head?_reverse] at hc),
    fun c hc => h.1 c (by rwa [List.getLast?_reverse] at hc)⟩

/-! ### English names -/

/-- A name starts with `AFC` and a space. -/
def hasPrefix (u : Unicode) : List Char → Bool
  | 'A' :: 'F' :: 'C' :: c :: _ => u.isSpace c
  | _ => false

/-- A name ends with a space and `FC` or `AFC`. -/
def hasSuffix (u : Unicode) (name : List Char) : Bool :=
  match name.reverse with
  | 'C' :: 'F' :: 'A' :: c :: _ => u.isSpace c
  | 'C' :: 'F' :: c :: _ => u.isSpace c
  | _ => false

/-- A name without a prefix is left as it is; one with it gets shorter, and stays trimmed. -/
theorem dropPrefix_cases (name : List Char) :
    hasPrefix u name = false ∧ dropPrefix u name = name ∨
      hasPrefix u name = true ∧ (dropPrefix u name).length < name.length ∧
        (Trimmed u.isSpace name → Trimmed u.isSpace (dropPrefix u name)) := by
  unfold hasPrefix dropPrefix
  split
  · rename_i c rest
    by_cases hc : u.isSpace c = true
    · rw [if_pos hc]
      have hle := (List.dropWhile_sublist u.isSpace (l := rest)).length_le
      refine .inr ⟨hc, ?_, fun h => trimmed_dropWhile h ⟨['A', 'F', 'C', c], rfl⟩⟩
      simp only [List.length_cons]
      omega
    · rw [if_neg hc]
      exact .inl ⟨Bool.eq_false_iff.mpr hc, rfl⟩
  · exact .inl ⟨rfl, rfl⟩

/-- A name without a suffix is left as it is; one with it gets shorter, and stays trimmed. -/
theorem dropSuffix_cases (name : List Char) :
    hasSuffix u name = false ∧ dropSuffix u name = name ∨
      hasSuffix u name = true ∧ (dropSuffix u name).length < name.length ∧
        (Trimmed u.isSpace name → Trimmed u.isSpace (dropSuffix u name)) := by
  have hdrop : ∀ before rest : List Char, name.reverse = before ++ rest → before ≠ [] →
      (rest.dropWhile u.isSpace).reverse.length < name.length ∧
        (Trimmed u.isSpace name → Trimmed u.isSpace (rest.dropWhile u.isSpace).reverse) := by
    intro before rest hname hne
    have hle := (List.dropWhile_sublist u.isSpace (l := rest)).length_le
    have hlength := congrArg List.length hname
    have hpos := List.length_pos_iff.mpr hne
    rw [List.length_reverse, List.length_append] at hlength
    refine ⟨by rw [List.length_reverse]; omega, fun h => trimmed_reverse ?_⟩
    exact trimmed_dropWhile (trimmed_reverse h) ⟨before, hname.symm⟩
  unfold hasSuffix dropSuffix
  split
  · rename_i c rest hname
    by_cases hc : u.isSpace c = true
    · rw [if_pos hc]
      exact .inr ⟨hc, hdrop ['C', 'F', 'A', c] rest hname (by simp)⟩
    · rw [if_neg hc]
      exact .inl ⟨Bool.eq_false_iff.mpr hc, rfl⟩
  · rename_i c rest _ hname
    by_cases hc : u.isSpace c = true
    · rw [if_pos hc]
      exact .inr ⟨hc, hdrop ['C', 'F', c] rest hname (by simp)⟩
    · rw [if_neg hc]
      exact .inl ⟨Bool.eq_false_iff.mpr hc, rfl⟩
  · exact .inl ⟨rfl, rfl⟩

/-- The English name without one prefix and one suffix. -/
def bareName (u : Unicode) (name : List Char) : List Char :=
  dropSuffix u (dropPrefix u (u.strip name))

theorem trimmed_bareName (name : List Char) : Trimmed u.isSpace (bareName u name) := by
  have hstrip : Trimmed u.isSpace (u.strip name) := trimmed_trim name
  have hinitial : Trimmed u.isSpace (dropPrefix u (u.strip name)) := by
    rcases dropPrefix_cases (u := u) (u.strip name) with ⟨-, heq⟩ | ⟨-, -, htrim⟩
    · rwa [heq]
    · exact htrim hstrip
  rcases dropSuffix_cases (u := u) (dropPrefix u (u.strip name)) with ⟨-, heq⟩ | ⟨-, -, htrim⟩
  · rwa [bareName, heq]
  · exact htrim hinitial

theorem canonicalName_english (name : List Char) :
    canonicalName u "en.1" name = bareName u name := by
  rw [canonicalName, if_pos rfl]
  exact (trimmed_bareName name).trim_eq

/-- **A second pass over an English name** changes nothing exactly when what the first one leaves
has no further prefix and no further suffix. -/
theorem canonicalName_english_idem_iff (name : List Char) :
    canonicalName u "en.1" (canonicalName u "en.1" name) = canonicalName u "en.1" name ↔
      hasPrefix u (bareName u name) = false ∧ hasSuffix u (bareName u name) = false := by
  have hstrip : u.strip (bareName u name) = bareName u name := (trimmed_bareName name).trim_eq
  rw [canonicalName_english, canonicalName_english, bareName, hstrip]
  rcases dropPrefix_cases (u := u) (bareName u name) with ⟨hnone, heq⟩ | ⟨hsome, hlt, -⟩
  · rw [heq, hnone]
    rcases dropSuffix_cases (u := u) (bareName u name) with ⟨hnone', heq'⟩ | ⟨hsome', hlt', -⟩
    · simp [hnone', heq']
    · rw [hsome']
      simp only [Bool.true_eq_false, and_false, iff_false]
      exact fun h => absurd (congrArg List.length h) hlt'.ne
  · rw [hsome]
    simp only [Bool.true_eq_false, false_and, iff_false]
    intro h
    have hle : (dropSuffix u (dropPrefix u (bareName u name))).length ≤
        (dropPrefix u (bareName u name)).length := by
      rcases dropSuffix_cases (u := u) (dropPrefix u (bareName u name)) with ⟨-, heq'⟩ | ⟨-, hlt', -⟩
      · rw [heq']
      · exact hlt'.le
    rw [h] at hle
    omega

/-! ### Names of the other leagues -/

/-- Tokens that are all kept, with none to drop in front or behind. -/
structure Settled (u : Unicode) (tokens : List (List Char)) : Prop where
  words : ∀ w ∈ tokens, IsWord u.isSpace w
  kept : ∀ w ∈ tokens, isKept u w = true
  lead : ∀ first second rest, tokens = first :: second :: rest → String.ofList first ∉ leadTokens
  trail : ∀ last previous rest, tokens.reverse = last :: previous :: rest →
    String.ofList last ∉ trailTokens

theorem dropLeads_suffix (tokens : List (List Char)) : dropLeads tokens <:+ tokens := by
  fun_induction dropLeads tokens with
  | case1 first second rest hlead ih => exact ih.trans (List.suffix_cons _ _)
  | case2 first second rest hlead => exact List.suffix_rfl
  | case3 tokens h => exact List.suffix_rfl

theorem dropLeads_settled (tokens : List (List Char)) :
    ∀ first second rest, dropLeads tokens = first :: second :: rest →
      String.ofList first ∉ leadTokens := by
  fun_induction dropLeads tokens with
  | case1 first second rest hlead ih => exact ih
  | case2 first second rest hlead =>
      intro f s r h
      rwa [(List.cons.inj h).1] at hlead
  | case3 tokens h => exact fun f s r heq => absurd heq (h f s r)

theorem dropTrailsReversed_suffix (tokens : List (List Char)) :
    dropTrailsReversed tokens <:+ tokens := by
  fun_induction dropTrailsReversed tokens with
  | case1 last previous rest htrail ih => exact ih.trans (List.suffix_cons _ _)
  | case2 last previous rest htrail => exact List.suffix_rfl
  | case3 tokens h => exact List.suffix_rfl

theorem dropTrailsReversed_settled (tokens : List (List Char)) :
    ∀ last previous rest, dropTrailsReversed tokens = last :: previous :: rest →
      String.ofList last ∉ trailTokens := by
  fun_induction dropTrailsReversed tokens with
  | case1 last previous rest htrail ih => exact ih
  | case2 last previous rest htrail =>
      intro l p r h
      rwa [(List.cons.inj h).1] at htrail
  | case3 tokens h => exact fun l p r heq => absurd heq (h l p r)

theorem dropTrails_prefix (tokens : List (List Char)) : dropTrails tokens <+: tokens := by
  rw [← List.reverse_suffix, dropTrails, List.reverse_reverse]
  exact dropTrailsReversed_suffix _

/-- **The tokens that are kept are settled.** -/
theorem settled_keptTokens (name : List Char) : Settled u (keptTokens u name) := by
  have hinitial := dropTrails_prefix (dropLeads ((words u.isSpace name).filter (isKept u)))
  have hmem : ∀ w ∈ keptTokens u name, w ∈ (words u.isSpace name).filter (isKept u) := fun w hw =>
    (dropLeads_suffix _).subset (hinitial.subset hw)
  refine ⟨fun w hw => Lib.isWord_of_mem_words (List.mem_filter.mp (hmem w hw)).1,
    fun w hw => (List.mem_filter.mp (hmem w hw)).2, fun first second rest h => ?_,
    fun last previous rest h => ?_⟩
  · obtain ⟨behind, hbehind⟩ := hinitial
    change keptTokens u name ++ behind = _ at hbehind
    rw [h] at hbehind
    exact dropLeads_settled _ first second (rest ++ behind) hbehind.symm
  · refine dropTrailsReversed_settled
      (dropLeads ((words u.isSpace name).filter (isKept u))).reverse last previous rest ?_
    rw [← h, keptTokens, dropTrails, List.reverse_reverse]

/-- Settled tokens joined to a name are its kept tokens. -/
theorem Settled.keptTokens_unwords {tokens : List (List Char)} (h : Settled u tokens)
    (hspace : u.isSpace ' ' = true) : keptTokens u (unwords tokens) = tokens := by
  have hleads : dropLeads tokens = tokens := by
    unfold dropLeads
    split
    · rename_i first second rest
      rw [if_neg (h.lead first second rest rfl)]
    · rfl
  have htrails : dropTrailsReversed tokens.reverse = tokens.reverse := by
    unfold dropTrailsReversed
    split
    · rename_i last previous rest hreverse
      rw [if_neg (h.trail last previous rest hreverse), hreverse]
    · rfl
  rw [keptTokens, Lib.words_unwords hspace h.words, List.filter_eq_self.mpr h.kept, hleads,
    dropTrails, htrails, List.reverse_reverse]

/-- A name of settled tokens is left as it is. -/
theorem Settled.stripLegalTokens_eq {tokens : List (List Char)} (h : Settled u tokens)
    (hspace : u.isSpace ' ' = true) :
    stripLegalTokens u (unwords tokens) = unwords tokens := by
  rw [stripLegalTokens, h.keptTokens_unwords hspace]
  exact ite_id _

/-! ### Aliases -/

/-- The one alias that a second pass changes. -/
def munich1860 : List Char := "1860 München".toList

theorem mem_of_aliasOf {league : String} {name canonical : List Char}
    (h : aliasOf league name = some canonical) : ∃ entries, getField league aliases = some entries ∧
      (league, entries) ∈ aliases ∧ (String.ofList name, String.ofList canonical) ∈ entries := by
  obtain ⟨to_, hto, rfl⟩ := Option.map_eq_some_iff.mp h
  obtain ⟨entries, hentries, hto⟩ := Option.bind_eq_some_iff.mp hto
  exact ⟨entries, hentries, mem_of_getField hentries, by simpa using mem_of_getField hto⟩

/-- No alias is its own name. -/
theorem ne_of_aliasOf {league : String} {name canonical : List Char}
    (h : aliasOf league name = some canonical) : name ≠ canonical := by
  have hall : ∀ l ∈ aliases, ∀ e ∈ l.2, e.1 ≠ e.2 := by decide
  obtain ⟨entries, -, hleague, hentry⟩ := mem_of_aliasOf h
  exact fun heq => hall _ hleague _ hentry (congrArg String.ofList heq)

/-- What an alias gives is no alias of its league. -/
theorem aliasOf_canonical {league : String} {name canonical : List Char}
    (h : aliasOf league name = some canonical) : aliasOf league canonical = none := by
  have hall : ∀ l ∈ aliases, ∀ e ∈ l.2, getField e.2 l.2 = none := by decide
  obtain ⟨entries, hentries, hleague, hentry⟩ := mem_of_aliasOf h
  rw [aliasOf, hentries, Option.bind_some, hall _ hleague _ hentry, Option.map_none]

theorem mem_canonicalAliases {league : String} {name canonical : List Char}
    (h : aliasOf league name = some canonical) : canonical ∈ canonicalAliases := by
  obtain ⟨entries, -, hleague, hentry⟩ := mem_of_aliasOf h
  exact List.mem_flatMap.mpr ⟨_, hleague, List.mem_map.mpr ⟨_, hentry, by simp⟩⟩

/-- The empty name is no alias. -/
theorem aliasOf_nil (league : String) : aliasOf league [] = none := by
  have hall : ∀ l ∈ aliases, ∀ e ∈ l.2, e.1 ≠ "" := by decide
  rw [Option.eq_none_iff_forall_ne_some]
  intro canonical h
  obtain ⟨entries, -, hleague, hentry⟩ := mem_of_aliasOf h
  exact hall _ hleague _ hentry rfl

theorem Ordinary.space (hu : Ordinary u) : u.isSpace ' ' = true := by
  rw [(hu ' ' List.mem_cons_self).1]
  rfl

theorem Ordinary.isKept_eq (hu : Ordinary u) {w : List Char}
    (hw : ∀ c ∈ w, c ∈ canonicalAliases.flatten) : isKept u w = isKept .ascii w := by
  have hall : (w.rdropWhile (· = '.')).all u.isDigit =
      (w.rdropWhile (· = '.')).all Char.isDigit := by
    rw [Bool.eq_iff_iff, List.all_eq_true, List.all_eq_true]
    refine forall₂_congr fun c hc => ?_
    rw [(hu c (List.mem_cons_of_mem _ (hw c ((List.rdropWhile_prefix _ _).subset hc)))).2]
  simp only [isKept, hall]
  rfl

theorem mem_of_mem_unwords {tokens : List (List Char)} {w : List Char} (hw : w ∈ tokens) {c : Char}
    (hc : c ∈ w) : c ∈ unwords tokens := by
  induction tokens with
  | nil => cases hw
  | cons first rest ih =>
      cases rest with
      | nil =>
          rw [Lib.unwords_singleton]
          rwa [List.mem_singleton.mp hw] at hc
      | cons second rest =>
          rw [Lib.unwords_cons_cons]
          rcases List.mem_cons.mp hw with rfl | hw
          · exact List.mem_append_left _ hc
          · exact List.mem_append_right _ (List.mem_cons_of_mem _ (ih hw))

/-- Tokens that are settled by the ASCII tables are settled by ordinary ones. -/
theorem Ordinary.settled (hu : Ordinary u) {tokens : List (List Char)}
    (h : Settled .ascii tokens) (hmem : unwords tokens ∈ canonicalAliases) :
    Settled u tokens := by
  have hchars : ∀ w ∈ tokens, ∀ c ∈ w, c ∈ canonicalAliases.flatten := fun w hw c hc =>
    List.mem_flatten.mpr ⟨_, hmem, mem_of_mem_unwords hw hc⟩
  refine ⟨fun w hw => ⟨(h.words w hw).1, fun c hc => ?_⟩, fun w hw => ?_, h.lead, h.trail⟩
  · rw [(hu c (List.mem_cons_of_mem _ (hchars w hw c hc))).1, decide_eq_false_iff_not]
    rintro rfl
    exact Bool.false_ne_true ((h.words w hw).2 ' ' hc).symm
  · rw [hu.isKept_eq (hchars w hw)]
    exact h.kept w hw

/-- What an alias gives is left as it is, unless it is Munich's 1860. -/
theorem Ordinary.stripLegalTokens_alias (hu : Ordinary u) {canonical : List Char}
    (hmem : canonical ∈ canonicalAliases) (hne : canonical ≠ munich1860) :
    stripLegalTokens u canonical = canonical ∧ u.strip canonical = canonical := by
  have hall : ∀ a ∈ canonicalAliases, a ≠ munich1860 → unwords (keptTokens .ascii a) = a := by
    decide +kernel
  have heq := hall canonical hmem hne
  have hsettled := hu.settled (settled_keptTokens canonical) (by rwa [heq])
  rw [← heq]
  exact ⟨hsettled.stripLegalTokens_eq hu.space, (trimmed_unwords hsettled.words).trim_eq⟩

/-- Munich's 1860 loses its number. -/
theorem Ordinary.stripLegalTokens_munich (hu : Ordinary u) :
    u.strip munich1860 = munich1860 ∧ stripLegalTokens u munich1860 ≠ munich1860 := by
  have hall : ["1860".toList, "München".toList].all fun w =>
      w.all fun c => decide (c ∈ canonicalAliases.flatten) && decide (c ≠ ' ') := by decide +kernel
  simp only [List.all_eq_true, Bool.and_eq_true, decide_eq_true_eq] at hall
  have hchars : ∀ w ∈ ["1860".toList, "München".toList], ∀ c ∈ w, c ∈ canonicalAliases.flatten :=
    fun w hw c hc => (hall w hw c hc).1
  have hspaces : ∀ w ∈ ["1860".toList, "München".toList], ∀ c ∈ w, c ≠ ' ' :=
    fun w hw c hc => (hall w hw c hc).2
  have hwords : ∀ w ∈ ["1860".toList, "München".toList], IsWord u.isSpace w := fun w hw =>
    ⟨by revert w; decide, fun c hc => by
      rw [(hu c (List.mem_cons_of_mem _ (hchars w hw c hc))).1, decide_eq_false_iff_not]
      exact hspaces w hw c hc⟩
  have hjoined : munich1860 = unwords ["1860".toList, "München".toList] := by decide
  have hkept : ["1860".toList, "München".toList].filter (isKept u) = ["München".toList] := by
    rw [List.filter_congr fun w hw => hu.isKept_eq (hchars w hw)]
    decide +kernel
  constructor
  · rw [hjoined]
    exact (trimmed_unwords hwords).trim_eq
  · rw [stripLegalTokens, keptTokens, hjoined, Lib.words_unwords hu.space hwords, hkept]
    decide +kernel

/-! ### Every name -/

/-- What a name has to be for a second pass to change nothing: no further affix is left of an
English one; no other one is an alias of Munich's 1860, or becomes an alias once its legal-form
tokens are dropped. -/
def Stable (u : Unicode) (league : String) (name : List Char) : Prop :=
  if league = "en.1" then
    hasPrefix u (bareName u name) = false ∧ hasSuffix u (bareName u name) = false
  else
    match aliasOf league (u.strip name) with
    | some canonical => canonical ≠ munich1860
    | none => aliasOf league (unwords (keptTokens u (u.strip name))) = none

instance (u : Unicode) (league : String) (name : List Char) : Decidable (Stable u league name) :=
  if hleague : league = "en.1" then
    decidable_of_iff (hasPrefix u (bareName u name) = false ∧ hasSuffix u (bareName u name) = false)
      (by rw [Stable, if_pos hleague])
  else
    match halias : aliasOf league (u.strip name) with
    | some canonical => decidable_of_iff (canonical ≠ munich1860)
        (by simp only [Stable, if_neg hleague, halias])
    | none => decidable_of_iff (aliasOf league (unwords (keptTokens u (u.strip name))) = none)
        (by simp only [Stable, if_neg hleague, halias])

theorem canonicalName_idem_iff (hu : Ordinary u) (league : String) (name : List Char) :
    canonicalName u league (canonicalName u league name) = canonicalName u league name ↔
      Stable u league name := by
  by_cases hleague : league = "en.1"
  · subst hleague
    rw [canonicalName_english_idem_iff, Stable, if_pos rfl]
  · rw [Stable, if_neg hleague]
    cases halias : aliasOf league (u.strip name) with
    | some canonical =>
        have hname : canonicalName u league name = canonical := by
          simp only [canonicalName, if_neg hleague, halias]
        rw [hname]
        have hagain : u.strip canonical = canonical →
            canonicalName u league canonical = stripLegalTokens u canonical := fun hstrip => by
          simp only [canonicalName, if_neg hleague, hstrip, aliasOf_canonical halias]
        by_cases hmunich : canonical = munich1860
        · subst hmunich
          obtain ⟨hstrip, hne⟩ := hu.stripLegalTokens_munich
          rw [hagain hstrip]
          exact iff_of_false hne (not_not.mpr rfl)
        · obtain ⟨hsame, hstrip⟩ := hu.stripLegalTokens_alias (mem_canonicalAliases halias) hmunich
          rw [hagain hstrip]
          exact iff_of_true hsame hmunich
    | none =>
        have hname : canonicalName u league name = stripLegalTokens u (u.strip name) := by
          simp only [canonicalName, if_neg hleague, halias]
        rw [hname]
        have hsettled := @settled_keptTokens u (u.strip name)
        by_cases hempty : unwords (keptTokens u (u.strip name)) = []
        · have hraw : stripLegalTokens u (u.strip name) = u.strip name := by
            rw [stripLegalTokens, if_pos hempty]
          rw [hraw, hempty, aliasOf_nil]
          refine iff_of_true ?_ rfl
          simp only [canonicalName, if_neg hleague, strip_strip, halias, hraw]
        · have hkept : stripLegalTokens u (u.strip name) =
              unwords (keptTokens u (u.strip name)) := by
            rw [stripLegalTokens, if_neg hempty]
          have hstrip : u.strip (unwords (keptTokens u (u.strip name))) =
              unwords (keptTokens u (u.strip name)) := (trimmed_unwords hsettled.words).trim_eq
          rw [hkept]
          simp only [canonicalName, if_neg hleague, hstrip]
          cases hnext : aliasOf league (unwords (keptTokens u (u.strip name))) with
          | none => exact iff_of_true (hsettled.stripLegalTokens_eq hu.space) rfl
          | some canonical =>
              exact iff_of_false (ne_of_aliasOf hnext).symm (by simp)

/-- **Canonicalising twice is canonicalising once** exactly for the stable names. -/
theorem canonicalTeam_idem_iff (hu : Ordinary u) (league name : String) :
    canonicalTeam u league (canonicalTeam u league name) = canonicalTeam u league name ↔
      Stable u league name.toList := by
  rw [← canonicalName_idem_iff hu league name.toList]
  simp only [canonicalTeam, String.toList_ofList]
  exact ⟨fun h => by simpa using congrArg String.toList h, fun h => by rw [h]⟩

end Idempotence

/-- Paris is stable in the French files. -/
theorem canonicalTeam_idem_paris :
    canonicalTeam .ascii "fr.1" (canonicalTeam .ascii "fr.1" "Paris Saint-Germain FC") =
      canonicalTeam .ascii "fr.1" "Paris Saint-Germain FC" :=
  (canonicalTeam_idem_iff (by decide +kernel) _ _).mpr (by decide +kernel)

/-- **Munich's 1860 is split in two**: its canonical name loses the number at the next pass. -/
theorem canonicalTeam_munich :
    canonicalTeam .ascii "de.1" (canonicalTeam .ascii "de.1" "TSV 1860 München") ≠
      canonicalTeam .ascii "de.1" "TSV 1860 München" := by
  have hfirst : canonicalTeam .ascii "de.1" "TSV 1860 München" = "1860 München" := by
    decide +kernel
  rw [hfirst]
  decide +kernel

end Golavo.Ingest
