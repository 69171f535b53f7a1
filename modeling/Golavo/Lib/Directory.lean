import Golavo.Lib.Fields

/-! # Directories

A directory of named files, listed in name order. Writing replaces or creates one file, removing
drops one, and everything else stays. -/

namespace Golavo.Lib

open Fields

/-- A directory: its files in strictly increasing order of their names. -/
structure Directory (α : Type) where
  files : List (String × α)
  sorted : KeysSorted files

namespace Directory

variable {α : Type}

/-- A directory without files. -/
def empty : Directory α := ⟨[], keysSorted_nil⟩

/-- The content of a file, if it exists. -/
def read (d : Directory α) (name : String) : Option α := getField name d.files

/-- Create or replace a file. -/
def write (d : Directory α) (name : String) (content : α) : Directory α :=
  ⟨setField name content d.files, keysSorted_setField d.sorted name content⟩

/-- Remove a file, if it exists. -/
def remove (d : Directory α) (name : String) : Directory α :=
  ⟨eraseField name d.files, keysSorted_eraseField d.sorted name⟩

@[simp] theorem read_empty (name : String) : (empty : Directory α).read name = none := rfl

@[simp] theorem read_write_self (d : Directory α) (name : String) (content : α) :
    (d.write name content).read name = some content :=
  getField_setField_self _ _ _

theorem read_write_ne {name other : String} (h : other ≠ name) (d : Directory α) (content : α) :
    (d.write name content).read other = d.read other :=
  getField_setField_ne h _ _

@[simp] theorem read_remove_self (d : Directory α) (name : String) :
    (d.remove name).read name = none :=
  getField_eraseField_self _ _

theorem read_remove_ne {name other : String} (h : other ≠ name) (d : Directory α) :
    (d.remove name).read other = d.read other :=
  getField_eraseField_ne h _

/-- Directories with the same files are equal. -/
theorem ext_read {d e : Directory α} (h : ∀ name, d.read name = e.read name) : d = e := by
  obtain ⟨files, sorted⟩ := d
  obtain ⟨files', sorted'⟩ := e
  have : files = files' := fields_ext sorted sorted' h
  subst this
  rfl

/-- Writing a file's own content changes nothing. -/
theorem write_of_read {d : Directory α} {name : String} {content : α}
    (h : d.read name = some content) : d.write name content = d := by
  refine ext_read fun other => ?_
  by_cases hother : other = name
  · rw [hother, read_write_self, h]
  · exact read_write_ne hother _ _

/-- The files listed are those that can be read. -/
theorem mem_files {d : Directory α} {name : String} {content : α} :
    (name, content) ∈ d.files ↔ d.read name = some content := by
  refine ⟨fun h => ?_, mem_of_getField⟩
  obtain ⟨files, sorted⟩ := d
  simp only [read] at h ⊢
  induction files with
  | nil => simp at h
  | cons field rest ih =>
      obtain ⟨k, v⟩ := field
      obtain ⟨hlt, hrest⟩ := keysSorted_cons.mp sorted
      rcases List.mem_cons.mp h with heq | hmem
      · obtain ⟨rfl, rfl⟩ := Prod.mk.inj heq
        simp [getField]
      · have hne : k ≠ name := (hlt name (List.mem_map_of_mem (f := Prod.fst) hmem)).ne
        simpa [getField, hne] using ih hrest hmem

/-! ## Some of the files -/

/-- The files whose names `p` keeps. -/
def keep (p : String → Bool) (d : Directory α) : Directory α :=
  ⟨d.files.filter fun file => p file.1, d.sorted.sublist (List.filter_sublist.map _)⟩

theorem read_keep (p : String → Bool) (d : Directory α) (name : String) :
    (d.keep p).read name = if p name then d.read name else none := by
  ext content
  rw [← mem_files]
  simp only [keep, List.mem_filter, mem_files]
  by_cases hp : p name
  · simp [hp]
  · simp [hp]

/-! ## Laying one over another -/

/-- Write files one after another. -/
def writeAll (d : Directory α) (files : List (String × α)) : Directory α :=
  files.foldl (fun d file => d.write file.1 file.2) d

/-- A directory with another's files written over its own. -/
def overlay (d e : Directory α) : Directory α := d.writeAll e.files

theorem read_writeAll_of_not_mem {files : List (String × α)} {name : String}
    (h : name ∉ files.map Prod.fst) (d : Directory α) : (d.writeAll files).read name = d.read name := by
  induction files generalizing d with
  | nil => rfl
  | cons file rest ih =>
      rw [List.map_cons, List.mem_cons, not_or] at h
      exact (ih h.2 _).trans (read_write_ne h.1 _ _)

theorem read_writeAll_of_mem {files : List (String × α)} (hnodup : (files.map Prod.fst).Nodup)
    {name : String} {content : α} (h : (name, content) ∈ files) (d : Directory α) :
    (d.writeAll files).read name = some content := by
  induction files generalizing d with
  | nil => exact absurd h List.not_mem_nil
  | cons file rest ih =>
      rw [List.map_cons, List.nodup_cons] at hnodup
      rcases List.mem_cons.mp h with rfl | hmem
      · exact (read_writeAll_of_not_mem hnodup.1 _).trans (read_write_self _ _ _)
      · exact ih hnodup.2 hmem _

theorem writeAll_append (d : Directory α) (a b : List (String × α)) :
    d.writeAll (a ++ b) = (d.writeAll a).writeAll b := List.foldl_append

theorem nodup_names (d : Directory α) : (d.files.map Prod.fst).Nodup :=
  d.sorted.imp fun h => h.ne

/-- **An overlay shows the upper file where there is one.** -/
theorem read_overlay (d e : Directory α) (name : String) :
    (d.overlay e).read name = (e.read name).or (d.read name) := by
  cases h : e.read name with
  | some content =>
      rw [Option.some_or]
      exact read_writeAll_of_mem e.nodup_names (mem_files.mpr h) d
  | none =>
      rw [Option.none_or]
      refine read_writeAll_of_not_mem (fun hmem => ?_) d
      obtain ⟨⟨_, content⟩, hfile, rfl⟩ := List.mem_map.mp hmem
      rw [mem_files.mp hfile] at h
      cases h

/-! ## Some of the files, under other names -/

variable {β : Type}

/-- The files whose names `key` reads, under what it reads, each changed by `f`. -/
def collect (key : String → Option String) (f : α → β) (d : Directory α) : Directory β :=
  empty.writeAll (d.files.filterMap fun file => (key file.1).map fun k => (k, f file.2))

/-- Collected files are found where each key is read from one name. -/
theorem read_collect {key : String → Option String}
    (hinj : ∀ m n k, key m = some k → key n = some k → m = n) {k name : String}
    (hkey : key name = some k) (f : α → β) (d : Directory α) :
    (d.collect key f).read k = (d.read name).map f := by
  have hfst : (d.files.filterMap fun file => (key file.1).map fun k => (k, f file.2)).map Prod.fst =
      (d.files.map Prod.fst).filterMap key := by
    rw [List.map_filterMap, List.filterMap_map]
    congr 1
    funext file
    cases h : key file.1 <;> simp [h]
  have hnodup : ((d.files.map Prod.fst).filterMap key).Nodup :=
    d.nodup_names.filterMap fun m n c hm hn => hinj m n c hm hn
  cases h : d.read name with
  | none =>
      refine read_writeAll_of_not_mem (fun hmem => ?_) _
      rw [hfst] at hmem
      obtain ⟨n, hn, hk⟩ := List.mem_filterMap.mp hmem
      obtain ⟨⟨_, content⟩, hfile, rfl⟩ := List.mem_map.mp hn
      rw [hinj _ _ k hkey hk, mem_files.mp hfile] at h
      cases h
  | some content =>
      refine read_writeAll_of_mem (hfst ▸ hnodup) (List.mem_filterMap.mpr
        ⟨(name, content), mem_files.mpr h, ?_⟩) _
      rw [hkey]
      rfl

/-- What a collection holds. -/
theorem read_collect_eq_some_iff {key : String → Option String}
    (hinj : ∀ m n k, key m = some k → key n = some k → m = n) {k : String} {f : α → β}
    {d : Directory α} {b : β} :
    (d.collect key f).read k = some b ↔ ∃ name a, key name = some k ∧ d.read name = some a ∧ f a = b := by
  constructor
  · intro h
    by_cases hk : ∃ name, key name = some k
    · obtain ⟨name, hkey⟩ := hk
      rw [read_collect hinj hkey] at h
      obtain ⟨a, ha, rfl⟩ := Option.map_eq_some_iff.mp h
      exact ⟨name, a, hkey, ha, rfl⟩
    · have hnone : (d.collect key f).read k = none := by
        refine (read_writeAll_of_not_mem (fun hmem => hk ?_) _).trans (read_empty k)
        obtain ⟨⟨_, b⟩, hfile, rfl⟩ := List.mem_map.mp hmem
        obtain ⟨file, -, hsome⟩ := List.mem_filterMap.mp hfile
        obtain ⟨k, hkey, heq⟩ := Option.map_eq_some_iff.mp hsome
        exact ⟨file.1, hkey.trans (congrArg some (congrArg Prod.fst heq))⟩
      rw [hnone] at h
      cases h
  · rintro ⟨name, a, hkey, ha, rfl⟩
    rw [read_collect hinj hkey, ha]
    rfl

/-- A collection depends only on the files whose names its key reads. -/
theorem collect_congr {key : String → Option String}
    (hinj : ∀ m n k, key m = some k → key n = some k → m = n) {f : α → β} {d e : Directory α}
    (h : ∀ name k, key name = some k → d.read name = e.read name) :
    d.collect key f = e.collect key f := by
  refine ext_read fun k => Option.ext fun b => ?_
  rw [read_collect_eq_some_iff hinj, read_collect_eq_some_iff hinj]
  exact exists_congr fun name => exists_congr fun a => and_congr_right fun hkey => by
    rw [h name k hkey]

end Directory

end Golavo.Lib
