import Golavo.Archive.Inspect

/-! # What an export packs

An export that goes through holds the owned files in name order, each as it is packed and checked,
within the limit. Their paths are safe, and each is packed once. -/

namespace Golavo.Archive

open Golavo.Lib (Json Directory bind_ok_iff check_bind_ok_iff failIf_ok_iff orFail_ok_iff forM_ok_iff)
open Golavo.Lib.Fields (KeysSorted)

/-! ## Safe paths -/

/-- A path without a component that leads up. -/
def Contained (path : List Char) : Prop := ['.', '.'] ∉ path.splitOn '/'

theorem contained_last {s : List Char} (hslash : '/' ∉ s) (hne : s ≠ ['.', '.']) : Contained s := by
  have hsplit : s.splitOn '/' = [s] := List.splitOnP_eq_singleton fun c hc => by
    simpa using fun h : c = '/' => hslash (h ▸ hc)
  rw [Contained, hsplit, List.mem_singleton]
  exact Ne.symm hne

theorem contained_dir {dir rest : List Char} (hslash : '/' ∉ dir) (hne : dir ≠ ['.', '.'])
    (hrest : Contained rest) : Contained (dir ++ '/' :: rest) := by
  have hsplit : (dir ++ '/' :: rest).splitOn '/' = dir.splitOn '/' ++ rest.splitOn '/' :=
    List.splitOnP_append_cons _ _ (by simp)
  rw [Contained, hsplit, List.mem_append, not_or]
  exact ⟨contained_last hslash hne, hrest⟩

/-- A file name made of a prefix, a middle and `.json` is one harmless component. -/
theorem contained_file {pre mid : List Char} (hpre : '/' ∉ pre) (hmid : '/' ∉ mid) :
    Contained (pre ++ (mid ++ jsonSuffix.toList)) := by
  refine contained_last ?_ fun h => ?_
  · simp only [List.mem_append, not_or]
    exact ⟨hpre, hmid, by decide⟩
  · have hlength := congrArg List.length h
    simp only [List.length_append, List.length_cons, List.length_nil,
      show jsonSuffix.toList.length = 5 from rfl] at hlength
    omega

theorem slash_not_mem_of_all {test : Char → Bool} (h : test '/' = false) {s : List Char}
    (hall : s.all test = true) : '/' ∉ s := fun hmem =>
  absurd (List.all_eq_true.mp hall '/' hmem) (by simp [h])

/-- The variable part of a valid entry's path has no slash. -/
theorem slash_not_mem_of_isHexText {count : Nat} {s : String} (h : isHexText count s = true) :
    '/' ∉ s.toList := by
  rw [isHexText, Bool.and_eq_true] at h
  exact slash_not_mem_of_all (by decide) h.2

theorem contained_path {e : Entry} (h : e.valid = true) : Contained e.path.toList := by
  have hledger : ∀ {rest}, Contained rest → Contained ("ledger".toList ++ '/' :: rest) := fun h =>
    contained_dir (by decide) (by decide) h
  have hpicks : ∀ {rest}, Contained rest →
      Contained ("ledger".toList ++ '/' :: ("picks".toList ++ '/' :: rest)) := fun h =>
    hledger (contained_dir (by decide) (by decide) h)
  cases e with
  | head => unfold Contained; decide
  | audit => unfold Contained; decide
  | follows => unfold Contained; decide
  | artifact digits =>
      have hpath : (Entry.artifact digits).path.toList = "ledger".toList ++ '/' ::
          ("fa_".toList ++ (digits.toList ++ jsonSuffix.toList)) := by
        simp [Entry.path, artifactPrefix]
      rw [hpath]
      exact hledger (contained_file (by decide) (slash_not_mem_of_isHexText h))
  | record digest =>
      have hpath : (Entry.record digest).path.toList = "ledger".toList ++ '/' ::
          ("checkpoints".toList ++ '/' :: ("lc_".toList ++
            (digest.toList ++ jsonSuffix.toList))) := by
        simp [Entry.path, recordPrefix]
      rw [hpath]
      exact hledger (contained_dir (by decide) (by decide)
        (contained_file (by decide) (slash_not_mem_of_isHexText h)))
  | draft matchId =>
      have hpath : (Entry.draft matchId).path.toList = "ledger".toList ++ '/' ::
          ("picks".toList ++ '/' :: ("drafts".toList ++ '/' :: ([] ++
            (matchId.toList ++ jsonSuffix.toList)))) := by
        simp [Entry.path, draftPrefix]
      rw [hpath]
      simp only [Entry.valid, Bool.and_eq_true] at h
      exact hpicks (contained_dir (by decide) (by decide)
        (contained_file (by decide) (slash_not_mem_of_all (by decide) h.2)))
  | locked digits =>
      have hpath : (Entry.locked digits).path.toList = "ledger".toList ++ '/' ::
          ("picks".toList ++ '/' :: ("pk_".toList ++ (digits.toList ++ jsonSuffix.toList))) := by
        simp [Entry.path, lockedPrefix]
      rw [hpath]
      exact hpicks (contained_file (by decide) (slash_not_mem_of_isHexText h))

/-- An allowed path starts in the ledger and ends in no slash. -/
theorem ends_of_path (e : Entry) :
    e.path.toList.head? = some 'l' ∧ ∃ c, e.path.toList.getLast? = some c ∧ c ≠ '/' := by
  cases e with
  | head => exact ⟨rfl, 'n', rfl, by decide⟩
  | audit => exact ⟨rfl, 'l', rfl, by decide⟩
  | follows => exact ⟨rfl, '3', rfl, by decide⟩
  | artifact digits => exact ⟨by simp [Entry.path, artifactPrefix], 'n',
      by simp [Entry.path, jsonSuffix], by decide⟩
  | record digest => exact ⟨by simp [Entry.path, recordPrefix], 'n',
      by simp [Entry.path, jsonSuffix], by decide⟩
  | draft matchId => exact ⟨by simp [Entry.path, draftPrefix], 'n',
      by simp [Entry.path, jsonSuffix], by decide⟩
  | locked digits => exact ⟨by simp [Entry.path, lockedPrefix], 'n',
      by simp [Entry.path, jsonSuffix], by decide⟩

/-- **An allowed file passes the path checks.** -/
theorem checkMember_of_allowed {file : String × Bytes} (h : IsMemberName file.1) :
    checkMember (.ofFile file) = .ok () := by
  obtain ⟨name, data⟩ := file
  rcases h with rfl | hallowed
  · have hsafe : (ZipMember.ofFile (manifestName, data)).isUnsafe = false := by
      have hcontained : ['.', '.'] ∉ components manifestName :=
        contained_last (by decide) (by decide)
      have hhead : manifestName.toList.head? ≠ some '/' := by decide
      have hlast : manifestName.toList.getLast? ≠ some '/' := by decide
      simp [ZipMember.isUnsafe, ZipMember.ofFile, hcontained, hhead, hlast]
    exact check_bind_ok_iff.mpr ⟨failIf_ok_iff.mpr (by simp [hsafe]),
      failIf_ok_iff.mpr fun h => h.1 rfl⟩
  · obtain ⟨e, he⟩ := Option.isSome_iff_exists.mp hallowed
    obtain ⟨hvalid, rfl⟩ := entryOf_eq_some_iff.mp he
    obtain ⟨hhead, c, hlast, hc⟩ := ends_of_path e
    have hsafe : (ZipMember.ofFile (e.path, data)).isUnsafe = false := by
      have hcontained : ['.', '.'] ∉ components e.path := contained_path hvalid
      simp [ZipMember.isUnsafe, ZipMember.ofFile, hhead, hlast, hc, hcontained]
    refine check_bind_ok_iff.mpr ⟨failIf_ok_iff.mpr (by simp [hsafe]), failIf_ok_iff.mpr ?_⟩
    simpa [ZipMember.ofFile] using fun _ => hallowed

/-! ## The files packed -/

section Pack

variable {host : Host} {files : Directory Bytes} {validate : Bool}

/-- A file and the checked bytes it is packed with. -/
structure PackedAs (host : Host) (validate : Bool) (file packed : String × Bytes) : Prop where
  name : packed.1 = file.1
  bytes : packedBytes host validate file = .ok packed.2
  checked : validate = true → validateNamed host packed.1 packed.2 = .ok ()

theorem packFile_ok_iff {acc content : List (String × Bytes)} {file : String × Bytes} :
    packFile host validate acc file = .ok content ↔ ∃ packed, PackedAs host validate file packed ∧
      content = acc ++ [packed] ∧ totalBytes content ≤ maxUncompressed := by
  have htotal : ∀ packed : String × Bytes, totalBytes (acc ++ [packed]) =
      totalBytes acc + packed.2.length := fun packed => by simp [totalBytes]
  have hchecked : ∀ data, checkPacked host validate file.1 data = .ok () ↔
      (validate = true → validateNamed host file.1 data = .ok ()) := fun data => by
    cases validate <;> simp [checkPacked]
  simp only [packFile, bind_ok_iff, failIf_ok_iff, not_lt, pure, Except.pure, Except.ok.injEq,
    hchecked]
  constructor
  · rintro ⟨data, hdata, _, hle, _, hcheck, rfl⟩
    exact ⟨(file.1, data), ⟨rfl, hdata, hcheck⟩, rfl, (htotal _).trans_le hle⟩
  · rintro ⟨⟨name, data⟩, ⟨hname, hdata, hcheck⟩, rfl, hle⟩
    obtain rfl : name = file.1 := hname
    exact ⟨data, hdata, (), (htotal _).symm.trans_le hle, (), hcheck, rfl⟩

theorem totalBytes_append (a b : List (String × Bytes)) :
    totalBytes (a ++ b) = totalBytes a + totalBytes b := by
  simp [totalBytes]

/-- **What packing a list of files gives**: each as it is packed, within the limit. -/
theorem foldlM_packFile_ok_iff {owned acc content : List (String × Bytes)} :
    owned.foldlM (packFile host validate) acc = .ok content ↔
      ∃ packed, List.Forall₂ (PackedAs host validate) owned packed ∧ content = acc ++ packed ∧
        (owned ≠ [] → totalBytes content ≤ maxUncompressed) := by
  induction owned generalizing acc with
  | nil =>
      simp only [List.foldlM_nil, pure, Except.pure, Except.ok.injEq, List.forall₂_nil_left_iff,
        exists_eq_left, List.append_nil, ne_eq, not_true_eq_false, false_implies, and_true]
      exact eq_comm
  | cons file rest ih =>
      simp only [List.foldlM_cons, bind_ok_iff, packFile_ok_iff, ih]
      constructor
      · rintro ⟨_, ⟨first, hfirst, rfl, hle⟩, packed, hrest, rfl, htotal⟩
        refine ⟨first :: packed, .cons hfirst hrest, by simp, fun _ => ?_⟩
        cases rest with
        | nil =>
            rw [List.forall₂_nil_left_iff.mp hrest, List.append_nil]
            exact hle
        | cons => exact htotal (List.cons_ne_nil _ _)
      · rintro ⟨packed, hall, rfl, htotal⟩
        have htotal := htotal (List.cons_ne_nil _ _)
        cases hall with
        | @cons _ first _ packed hfirst hrest =>
            refine ⟨acc ++ [first], ⟨first, hfirst, rfl, ?_⟩, packed, hrest, by simp, fun _ => htotal⟩
            rw [totalBytes_append] at htotal ⊢
            refine le_trans ?_ htotal
            simp [totalBytes]

/-- The owned files of a verified ledger. -/
def ownedOf (status : Ledger.CheckpointStatus) (files : Directory Bytes) : List (String × Bytes) :=
  files.files.filter fun file => isOwned (· ∈ chainNames status) file.1

/-- **What a verified export holds.** -/
theorem exportContent_ok_iff {content : List (String × Bytes)} :
    exportContent host files true = .ok content ↔ ∃ status, statusOf host files = .ok status ∧
      (ownedOf status files).length ≤ maxFiles ∧
      List.Forall₂ (PackedAs host true) (ownedOf status files) content ∧
      totalBytes content ≤ maxUncompressed := by
  have hzero : totalBytes [] ≤ maxUncompressed := Nat.zero_le _
  simp only [exportContent, ownedFiles, if_true, bind_ok_iff, failIf_ok_iff, not_lt, pure,
    Except.pure, Except.ok.injEq, foldlM_packFile_ok_iff, List.nil_append]
  constructor
  · rintro ⟨_, ⟨status, hstatus, rfl⟩, _, hcount, packed, hall, rfl, htotal⟩
    refine ⟨status, hstatus, hcount, hall, ?_⟩
    by_cases hnil : ownedOf status files = []
    · rw [show files.files.filter _ = [] from hnil, List.forall₂_nil_left_iff] at hall
      rw [hall]
      exact hzero
    · exact htotal hnil
  · rintro ⟨status, hstatus, hcount, hall, htotal⟩
    exact ⟨_, ⟨status, hstatus, rfl⟩, (), hcount, content, hall, rfl, fun _ => htotal⟩

end Pack

end Golavo.Archive
