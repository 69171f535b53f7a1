import Golavo.Ledger.Artifact

/-! # Archive paths

An archive names the files it owns by portable paths under `ledger/`. The allow-list has seven shapes:
forecast artifacts, the checkpoint head and its records, pick drafts, locked picks, the pick audit and
the follow database. A path of one of these shapes is the path of exactly one **entry**. -/

namespace Golavo.Archive

open Golavo.Ledger (isHexChar)

/-! ## Between a prefix and a suffix -/

/-- What stands between a prefix and a suffix, if a text has both. -/
def between (pre post name : String) : Option String :=
  ((name.toList.dropPrefix? pre.toList).bind (·.dropSuffix? post.toList)).map String.ofList

theorem between_eq_some_iff {pre post name m : String} :
    between pre post name = some m ↔ name = pre ++ m ++ post := by
  simp only [between, Option.map_eq_some_iff, Option.bind_eq_some_iff,
    List.dropPrefix?_eq_some_iff, List.dropSuffix?_eq_some_iff, beq_iff_eq]
  constructor
  · rintro ⟨cs, ⟨rest, ⟨_, hname, rfl⟩, _, rfl, rfl⟩, rfl⟩
    apply String.toList_inj.mp
    simpa using hname
  · rintro rfl
    exact ⟨m.toList, ⟨m.toList ++ post.toList, ⟨_, by simp, rfl⟩, _, rfl, rfl⟩, String.ofList_toList⟩

/-- Two texts that part ways: neither continues the other. -/
def Diverge (a b : String) : Prop := ¬ a.toList <+: b.toList ∧ ¬ b.toList <+: a.toList

instance (a b : String) : Decidable (Diverge a b) := inferInstanceAs (Decidable (_ ∧ _))

theorem Diverge.ne {a b : String} (h : Diverge a b) (s t : String) : a ++ s ≠ b ++ t := by
  intro heq
  have hlist : a.toList ++ s.toList = b.toList ++ t.toList := by
    rw [← String.toList_append, heq, String.toList_append]
  rcases List.prefix_or_prefix_of_prefix (List.prefix_append _ s.toList)
    (hlist ▸ List.prefix_append b.toList t.toList) with hp | hp
  · exact h.1 hp
  · exact h.2 hp

/-- A text has no prefix it parts ways with. -/
theorem between_eq_none {a b : String} (h : Diverge a b) (post s : String) :
    between a post (b ++ s) = none := by
  cases hbetween : between a post (b ++ s) with
  | none => rfl
  | some m =>
      have heq := between_eq_some_iff.mp hbetween
      rw [String.append_assoc] at heq
      exact absurd heq.symm (h.ne _ _)

/-! ## Entries -/

/-- A character of a draft's file name. -/
def isDraftChar (c : Char) : Bool :=
  ('A' ≤ c && c ≤ 'Z') || ('a' ≤ c && c ≤ 'z') || ('0' ≤ c && c ≤ '9') ||
    c = '_' || c = '.' || c = '-'

/-- So many lower-case hexadecimal digits. -/
def isHexText (count : Nat) (s : String) : Bool :=
  s.toList.length = count && s.toList.all isHexChar

/-- A file an archive may own. -/
inductive Entry where
  /-- A forecast artifact, by the digits of its id. -/
  | artifact (digits : String)
  | head
  /-- A checkpoint record, by its digest. -/
  | record (digest : String)
  /-- A draft pick, by the match it is on. -/
  | draft (matchId : String)
  /-- A locked pick, by the digits of its id. -/
  | locked (digits : String)
  | audit
  | follows
  deriving DecidableEq, Repr

def artifactPrefix : String := "ledger/fa_"

def headName : String := "ledger/checkpoints/head.json"

def recordPrefix : String := "ledger/checkpoints/lc_"

def draftPrefix : String := "ledger/picks/drafts/"

def lockedPrefix : String := "ledger/picks/pk_"

def auditName : String := "ledger/picks/audit.jsonl"

def followsName : String := "ledger/follows/follows.sqlite3"

def jsonSuffix : String := ".json"

namespace Entry

/-- The path of an entry. -/
def path : Entry → String
  | artifact digits => artifactPrefix ++ digits ++ jsonSuffix
  | head => headName
  | record digest => recordPrefix ++ digest ++ jsonSuffix
  | draft matchId => draftPrefix ++ matchId ++ jsonSuffix
  | locked digits => lockedPrefix ++ digits ++ jsonSuffix
  | audit => auditName
  | follows => followsName

/-- Whether an entry's variable part is of the allowed shape. -/
def valid : Entry → Bool
  | artifact digits => isHexText 20 digits
  | record digest => isHexText 64 digest
  | draft matchId => matchId ≠ "" && matchId.toList.all isDraftChar
  | locked digits => isHexText 20 digits
  | head | audit | follows => true

end Entry

/-- The entry of a path, whatever its variable part. -/
def shapeOf (name : String) : Option Entry :=
  if name = headName then some .head
  else if name = auditName then some .audit
  else if name = followsName then some .follows
  else
    ((between artifactPrefix jsonSuffix name).map Entry.artifact).or <|
      ((between recordPrefix jsonSuffix name).map Entry.record).or <|
        ((between draftPrefix jsonSuffix name).map Entry.draft).or <|
          (between lockedPrefix jsonSuffix name).map Entry.locked

/-- The entry of an allowed path. -/
def entryOf (name : String) : Option Entry := (shapeOf name).filter Entry.valid

/-- Whether a path is on the allow-list (`_allowed`). -/
def isAllowed (name : String) : Bool := (entryOf name).isSome

/-- A path has the shape of the entry it is the path of. -/
theorem path_of_shapeOf {name : String} {e : Entry} (h : shapeOf name = some e) : e.path = name := by
  unfold shapeOf at h
  split_ifs at h with h1 h2 h3
  · rw [← Option.some.inj h, h1, Entry.path]
  · rw [← Option.some.inj h, h2, Entry.path]
  · rw [← Option.some.inj h, h3, Entry.path]
  · simp only [Option.or_eq_some_iff, Option.map_eq_some_iff, between_eq_some_iff] at h
    rcases h with ⟨m, hm, rfl⟩ | ⟨-, ⟨m, hm, rfl⟩ | ⟨-, ⟨m, hm, rfl⟩ | ⟨-, m, hm, rfl⟩⟩⟩
    all_goals rw [hm, Entry.path]

/-- A path with a prefix the three fixed paths part ways with has the shape of its prefix. -/
theorem shapeOf_of_start {pre : String} (h : Diverge pre headName ∧ Diverge pre auditName ∧
    Diverge pre followsName) (rest : String) : shapeOf (pre ++ rest) =
      ((between artifactPrefix jsonSuffix (pre ++ rest)).map Entry.artifact).or
        (((between recordPrefix jsonSuffix (pre ++ rest)).map Entry.record).or
          (((between draftPrefix jsonSuffix (pre ++ rest)).map Entry.draft).or
            ((between lockedPrefix jsonSuffix (pre ++ rest)).map Entry.locked))) := by
  have hne : ∀ name, Diverge pre name → pre ++ rest ≠ name := fun name hd heq =>
    hd.ne rest "" (by rw [heq, String.append_empty])
  rw [shapeOf, if_neg (hne _ h.1), if_neg (hne _ h.2.1), if_neg (hne _ h.2.2)]

/-- **An entry is found from its path.** -/
theorem shapeOf_path (e : Entry) : shapeOf e.path = some e := by
  cases e with
  | head => rfl
  | audit => rfl
  | follows => rfl
  | artifact digits =>
      have hmid := between_eq_some_iff.mpr (rfl : artifactPrefix ++ digits ++ jsonSuffix = _)
      rw [Entry.path]
      rw [String.append_assoc] at hmid ⊢
      rw [shapeOf_of_start (by decide), hmid]
      rfl
  | record digest =>
      have hmid := between_eq_some_iff.mpr (rfl : recordPrefix ++ digest ++ jsonSuffix = _)
      rw [Entry.path]
      rw [String.append_assoc] at hmid ⊢
      rw [shapeOf_of_start (by decide), between_eq_none (by decide), hmid]
      rfl
  | draft matchId =>
      have hmid := between_eq_some_iff.mpr (rfl : draftPrefix ++ matchId ++ jsonSuffix = _)
      rw [Entry.path]
      rw [String.append_assoc] at hmid ⊢
      rw [shapeOf_of_start (by decide), between_eq_none (by decide),
        between_eq_none (by decide), hmid]
      rfl
  | locked digits =>
      have hmid := between_eq_some_iff.mpr (rfl : lockedPrefix ++ digits ++ jsonSuffix = _)
      rw [Entry.path]
      rw [String.append_assoc] at hmid ⊢
      rw [shapeOf_of_start (by decide), between_eq_none (by decide),
        between_eq_none (by decide), between_eq_none (by decide), hmid]
      rfl

theorem entryOf_eq_some_iff {name : String} {e : Entry} :
    entryOf name = some e ↔ e.valid = true ∧ e.path = name := by
  rw [entryOf, Option.filter_eq_some_iff]
  constructor
  · rintro ⟨hshape, hvalid⟩
    exact ⟨hvalid, path_of_shapeOf hshape⟩
  · rintro ⟨hvalid, rfl⟩
    exact ⟨shapeOf_path e, hvalid⟩

/-- Entries with the same path are the same. -/
theorem path_injective : Function.Injective Entry.path := fun a b h =>
  Option.some.inj (by rw [← shapeOf_path a, h, shapeOf_path b])

end Golavo.Archive
