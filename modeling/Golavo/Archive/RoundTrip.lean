import Golavo.Archive.Packing

/-! # What an export gives back

An archive that an export makes passes inspection exactly when it stays within the limit with its
manifest, packed and unpacked. It then holds what was exported and nothing else, nothing of it is new
to the ledger it was made from, nothing but the copy of the follow database differs there, and no
restore of it is blocked. -/

namespace Golavo.Archive

open Golavo.Lib (Json Directory bind_ok_iff check_bind_ok_iff failIf_ok_iff orFail_ok_iff forM_ok_iff
  wrapError_ok_iff failIf orFail)
open Golavo.Lib.Fields (KeysSorted)
open Golavo.Ledger (CheckpointStatus CheckpointedLedger Checkpoint Linked checkpointStatus
  checkpointStatus_ok checkpoint_ok checkEntry itemsOf textOrNull isDigestText isDigestText_sha256)

/-! ## The exported files -/

/-- What a verified export packs from a ledger whose chain has been verified. -/
structure Exported (host : Host) (files : Directory Bytes) (status : CheckpointStatus)
    (content : List (String × Bytes)) : Prop where
  verified : statusOf host files = .ok status
  counted : (ownedOf status files).length ≤ maxFiles
  packed : List.Forall₂ (PackedAs host true) (ownedOf status files) content
  within : totalBytes content ≤ maxUncompressed

section Exported

variable {host : Host} {files : Directory Bytes} {status : CheckpointStatus}
  {content : List (String × Bytes)}

theorem map_fst_packed {owned : List (String × Bytes)}
    (h : List.Forall₂ (PackedAs host true) owned content) :
    content.map Prod.fst = owned.map Prod.fst := by
  induction h with
  | nil => rfl
  | cons hfile _ ih => rw [List.map_cons, List.map_cons, ih, hfile.name]

theorem Exported.sorted (h : Exported host files status content) : KeysSorted content := by
  rw [KeysSorted, map_fst_packed h.packed]
  exact files.sorted.sublist (List.filter_sublist.map _)

theorem Exported.nodup (h : Exported host files status content) : (content.map Prod.fst).Nodup :=
  h.sorted.imp fun hlt => hlt.ne

theorem Exported.length_le (h : Exported host files status content) : content.length ≤ maxFiles :=
  h.packed.length_eq ▸ h.counted

/-- A packed file is one of the ledger's that an archive takes. -/
theorem Exported.source (h : Exported host files status content) {file : String × Bytes}
    (hfile : file ∈ content) : ∃ data, files.read file.1 = some data ∧
      isOwned (· ∈ chainNames status) file.1 = true ∧ PackedAs host true (file.1, data) file := by
  obtain ⟨source, hsource, hpacked⟩ := Lib.exists_of_mem_results h.packed hfile
  obtain ⟨hmem, howned⟩ := List.mem_filter.mp hsource
  have hname : source.1 = file.1 := hpacked.name.symm
  refine ⟨source.2, Directory.mem_files.mp (hname ▸ hmem), hname ▸ howned, ?_⟩
  rw [← hname]
  exact hpacked

theorem isAllowed_of_isOwned {listed : String → Bool} {name : String}
    (h : isOwned listed name = true) : isAllowed name = true := by
  unfold isOwned at h
  unfold isAllowed
  cases hentry : entryOf name with
  | none =>
      rw [hentry] at h
      cases h
  | some e => rfl

theorem Exported.allowed (h : Exported host files status content) {file : String × Bytes}
    (hfile : file ∈ content) : isAllowed file.1 = true := by
  obtain ⟨_, -, howned, -⟩ := h.source hfile
  exact isAllowed_of_isOwned howned

/-- Every file but the follow database is packed as it is. -/
theorem PackedAs.data_eq {name : String} {data : Bytes} {file : String × Bytes}
    (h : PackedAs host true (name, data) file) (hname : name ≠ followsName) : file.2 = data := by
  have hbytes := h.bytes
  rw [packedBytes, if_neg fun hfollows => hname hfollows.2] at hbytes
  exact (Except.ok.inj hbytes).symm

theorem Exported.read_eq (h : Exported host files status content) {file : String × Bytes}
    (hfile : file ∈ content) (hname : file.1 ≠ followsName) : files.read file.1 = some file.2 := by
  obtain ⟨data, hread, -, hpacked⟩ := h.source hfile
  rw [hpacked.data_eq hname]
  exact hread

/-- Every file of the ledger that an archive takes is packed. -/
theorem Exported.mem (h : Exported host files status content) {name : String} {data : Bytes}
    (hread : files.read name = some data) (howned : isOwned (· ∈ chainNames status) name = true)
    (hname : name ≠ followsName) : (name, data) ∈ content := by
  have hsource : (name, data) ∈ ownedOf status files :=
    List.mem_filter.mpr ⟨Directory.mem_files.mpr hread, howned⟩
  obtain ⟨file, hfile, hpacked⟩ := Lib.exists_of_mem_items h.packed hsource
  have heq : file = (name, data) := Prod.ext hpacked.name (hpacked.data_eq hname)
  exact heq ▸ hfile

end Exported

/-! ## Reading a packed file -/

section Members

variable {host : Host} {packed : List (String × Bytes)}

/-- A packed file is read back. -/
theorem readMember_ofFile (hnodup : (packed.map Prod.fst).Nodup) {name : String} {data : Bytes}
    (h : (name, data) ∈ packed) : readMember (packed.map ZipMember.ofFile) name = .ok data := by
  induction packed with
  | nil => cases h
  | cons file rest ih =>
      rw [List.map_cons, List.nodup_cons] at hnodup
      unfold readMember
      rw [List.map_cons, List.find?_cons]
      by_cases hname : file.1 = name
      · have hfile : file = (name, data) := by
          rcases List.mem_cons.mp h with heq | hmem
          · exact heq.symm
          · exact absurd (hname ▸ List.mem_map_of_mem (f := Prod.fst) hmem) hnodup.1
        subst hfile
        simp [ZipMember.ofFile, orFail]
      · have hmem : (name, data) ∈ rest := by
          rcases List.mem_cons.mp h with heq | hmem
          · exact absurd (congrArg Prod.fst heq).symm hname
          · exact hmem
        have hskip : decide ((ZipMember.ofFile file).name = name) = false :=
          decide_eq_false hname
        rw [hskip]
        exact ih hnodup.2 hmem

/-- What the limits of an inspection ask of an archive of some files. -/
def Fits (host : Host) (packed : List (String × Bytes)) : Prop :=
  (host.zip packed).length ≤ maxUncompressed ∧ totalBytes packed ≤ maxUncompressed

theorem sum_fileSize (packed : List (String × Bytes)) :
    ((packed.map ZipMember.ofFile).map ZipMember.fileSize).sum = totalBytes packed := by
  rw [List.map_map]
  rfl

/-- **The members of an archive of allowed files** are listed exactly where it fits. -/
theorem listMembers_zip_iff (hnames : ∀ file ∈ packed, IsMemberName file.1)
    (hnodup : (packed.map Prod.fst).Nodup) (hmanifest : manifestName ∈ packed.map Prod.fst)
    (hcount : packed.length ≤ maxFiles + 1) {members : List ZipMember} :
    listMembers host (host.zip packed) = .ok members ↔
      Fits host packed ∧ members = packed.map ZipMember.ofFile := by
  have hunzip := host.unzip_zip packed hnames hnodup
  have hfst : (packed.map ZipMember.ofFile).map ZipMember.name = packed.map Prod.fst := by
    rw [List.map_map]
    rfl
  have hchecked : ∀ m ∈ packed.map ZipMember.ofFile, checkMember m = .ok () := by
    intro m hm
    obtain ⟨file, hfile, rfl⟩ := List.mem_map.mp hm
    exact checkMember_of_allowed (hnames file hfile)
  simp only [listMembers, bind_ok_iff, failIf_ok_iff, orFail_ok_iff, hunzip, not_lt, pure,
    Except.pure, Except.ok.injEq, Option.some.injEq]
  constructor
  · rintro ⟨_, hlength, _, rfl, _, -, _, htotal, _, -, _, -, rfl⟩
    rw [sum_fileSize] at htotal
    exact ⟨⟨hlength, htotal⟩, rfl⟩
  · rintro ⟨⟨hlength, htotal⟩, rfl⟩
    refine ⟨(), hlength, _, rfl, (), ?_, (), ?_, (), ?_, (), forM_ok_iff.mpr hchecked, rfl⟩
    · rw [List.length_map]
      exact hcount
    · rw [sum_fileSize]
      exact htotal
    · rw [hfst, not_not]
      exact ⟨hnodup, hmanifest⟩

end Members

/-! ## The manifest -/

section Manifest

variable {host : Host} {content : List (String × Bytes)} {status : CheckpointStatus} {now : Int}

theorem wf_recoverySummary (status : CheckpointStatus) : (recoverySummary status).WF := by
  refine Json.wf_mk fun field hfield => ?_
  simp only [List.mem_cons, List.not_mem_nil, or_false] at hfield
  rcases hfield with rfl | rfl | rfl | rfl | rfl | rfl | rfl | rfl | rfl
  all_goals first
    | exact trivial
    | exact Ledger.wf_textOrNull _
    | exact Json.wf_arr.mpr fun x hx => by
        obtain ⟨_, -, rfl⟩ := List.mem_map.mp hx
        exact trivial

theorem wf_manifestOf {recovery : Json} (h : recovery.WF) (validate : Bool) :
    (manifestOf host content recovery validate now).WF := by
  refine Json.wf_mk fun field hfield => ?_
  simp only [List.mem_cons, List.not_mem_nil, or_false] at hfield
  rcases hfield with rfl | rfl | rfl | rfl | rfl | rfl | rfl
  · exact trivial
  · exact trivial
  · refine Json.wf_arr.mpr fun x hx => ?_
    obtain ⟨file, -, rfl⟩ := List.mem_map.mp hx
    exact Json.wf_mk (by simp)
  · refine Json.wf_arr.mpr fun x hx => ?_
    obtain ⟨_, -, rfl⟩ := List.mem_map.mp hx
    exact trivial
  · refine Json.wf_arr.mpr fun x hx => ?_
    obtain ⟨_, -, rfl⟩ := List.mem_map.mp hx
    exact trivial
  · exact h
  · exact trivial

theorem depth_strings_le (texts : List String) : (Json.arr (texts.map Json.str)).depth ≤ 2 := by
  refine Json.depth_arr_le fun x hx => ?_
  obtain ⟨_, -, rfl⟩ := List.mem_map.mp hx
  exact Nat.le_refl _

theorem depth_recoverySummary_le (status : CheckpointStatus) : (recoverySummary status).depth ≤ 3 := by
  have htext : ∀ s, (textOrNull s).depth ≤ 2 := fun s => by
    cases s <;> exact Nat.le_succ _
  refine Json.depth_mk_le fun field hfield => ?_
  simp only [List.mem_cons, List.not_mem_nil, or_false] at hfield
  rcases hfield with rfl | rfl | rfl | rfl | rfl | rfl | rfl | rfl | rfl
  all_goals first
    | exact Nat.le_succ _
    | exact htext _
    | exact depth_strings_le _

/-- A manifest nests four levels deep at most. -/
theorem depth_manifestOf_le : (manifestOf host content (recoverySummary status) true now).depth ≤ 4 := by
  refine Json.depth_mk_le fun field hfield => ?_
  simp only [List.mem_cons, List.not_mem_nil, or_false] at hfield
  rcases hfield with rfl | rfl | rfl | rfl | rfl | rfl | rfl
  · exact Nat.le_add_left 1 2
  · exact Nat.le_add_left 1 2
  · refine Json.depth_arr_le fun x hx => ?_
    obtain ⟨file, -, rfl⟩ := List.mem_map.mp hx
    refine Json.depth_mk_le fun field hfield => ?_
    simp only [List.mem_cons, List.not_mem_nil, or_false] at hfield
    rcases hfield with rfl | rfl | rfl <;> exact Nat.le_refl _
  · exact (depth_strings_le _).trans (Nat.le_succ _)
  · exact (depth_strings_le _).trans (Nat.le_succ _)
  · exact depth_recoverySummary_le _
  · exact Nat.le_add_left 1 2

/-- The text of an object is plain. -/
theorem plainText_indented {j : Json} (h : j.isObj = true) : PlainText (j.indented ++ ['\n']) := by
  constructor
  · intro c hc
    rcases List.mem_append.mp hc with hc | hc
    · rcases Json.visible_indentedAt j 0 c hc with rfl | hle
      · decide
      · rintro rfl
        exact absurd hle (by decide)
    · rw [List.mem_singleton.mp hc]
      decide
  · cases j with
    | obj fields =>
        intro c hc
        have heq : c = '{' := (Option.mem_some.mp hc).symm
        rw [heq]
        decide
    | _ => cases h

/-- **The manifest is read back.** -/
theorem readJson_manifest : readJson host
    (manifestBytes (manifestOf host content (recoverySummary status) true now)) =
      .ok (manifestOf host content (recoverySummary status) true now) := by
  have hwf := @wf_manifestOf host content now _ (wf_recoverySummary status) true
  have hdepth := (@depth_manifestOf_le host content status now).trans
    (show 4 ≤ Follows.maxJsonDepth by decide)
  have htext := host.decode_utf8 _ (plainText_indented (j := manifestOf host content
    (recoverySummary status) true now) (Json.isObj_mk _))
  rw [readJson, manifestBytes, htext, Option.bind_some, Json.loads_indented hwf]
  simp only [orFail, failIf, if_neg (Nat.not_lt.mpr hdepth), bind, Except.bind, pure, Except.pure]

theorem manifestVersion_manifestOf {recovery : Json} {validate : Bool} :
    manifestVersion (manifestOf host content recovery validate now) = some schemaVersion := by
  simp [manifestVersion, manifestOf, Json.get_mk, Lib.Fields.getField]

theorem itemsOf_manifestOf {recovery : Json} {validate : Bool} :
    itemsOf (manifestOf host content recovery validate now) "files" =
      some (content.map (fileEntry host)) := by
  simp [itemsOf, manifestOf, Json.get_mk, Lib.Fields.getField]

theorem recovery_manifestOf {recovery : Json} {validate : Bool} :
    fieldEquals (manifestOf host content recovery validate now) "checkpoint_recovery" recovery =
      true := by
  simp [fieldEquals, manifestOf, Json.get_mk, Lib.Fields.getField]

end Manifest

/-! ## The declared files -/

section Declared

variable {host : Host} {members : List ZipMember} {dir : Directory Bytes} {name : String}
  {data : Bytes}

/-- A packed file that its manifest declares is taken. -/
theorem takeDeclared_fileEntry (hallowed : isAllowed name = true) (hfresh : dir.read name = none)
    (hread : readMember members name = .ok data) (hvalid : validateNamed host name data = .ok ()) :
    takeDeclared host members dir (fileEntry host (name, data)) = .ok (dir.write name data) := by
  have hname : declaredName (fileEntry host (name, data)) = some name := by
    simp [declaredName, fileEntry, Json.get_mk, Lib.Fields.getField, hallowed]
  have hbytes : fieldEquals (fileEntry host (name, data)) "bytes" (.int data.length) = true := by
    simp [fieldEquals, fileEntry, Json.get_mk, Lib.Fields.getField]
  have hdigest : fieldEquals (fileEntry host (name, data)) "sha256" (.str (host.digest data)) =
      true := by
    simp [fieldEquals, fileEntry, Json.get_mk, Lib.Fields.getField]
  simp only [takeDeclared, hname, hread, hfresh, hbytes, hdigest, hvalid, orFail, failIf, bind,
    Except.bind, pure, Except.pure, Option.isSome_none, Bool.false_eq_true, if_false, or_self,
    Bool.true_eq_false]

/-- **Every declared file is taken**, into a directory that has none of them. -/
theorem foldlM_takeDeclared {packed : List (String × Bytes)} (hnodup : (packed.map Prod.fst).Nodup)
    (hfresh : ∀ file ∈ packed, dir.read file.1 = none)
    (hgood : ∀ file ∈ packed, isAllowed file.1 = true ∧ readMember members file.1 = .ok file.2 ∧
      validateNamed host file.1 file.2 = .ok ()) :
    (packed.map (fileEntry host)).foldlM (takeDeclared host members) dir =
      .ok (dir.writeAll packed) := by
  induction packed generalizing dir with
  | nil => rfl
  | cons file rest ih =>
      rw [List.map_cons, List.nodup_cons] at hnodup
      obtain ⟨hallowed, hread, hvalid⟩ := hgood file List.mem_cons_self
      have htake := takeDeclared_fileEntry hallowed (hfresh file List.mem_cons_self) hread hvalid
      rw [List.map_cons, List.foldlM_cons, htake]
      refine ih hnodup.2 (fun other hother => ?_) fun other hother =>
        hgood other (List.mem_cons_of_mem _ hother)
      have hne : other.1 ≠ file.1 := fun heq =>
        hnodup.1 (heq ▸ List.mem_map_of_mem (f := Prod.fst) hother)
      rw [Directory.read_write_ne hne]
      exact hfresh other (List.mem_cons_of_mem _ hother)

end Declared

/-! ## The chain of an archive -/

section Chain

variable {host : Host} {files : Directory Bytes} {status : CheckpointStatus}
  {content : List (String × Bytes)}

/-- The files of an export as the directory they unpack to. -/
theorem files_writeAll {packed : List (String × Bytes)} (h : KeysSorted packed) :
    (Directory.empty.writeAll packed).files = packed := by
  have hnodup : (packed.map Prod.fst).Nodup := h.imp fun hlt => hlt.ne
  have hdir : Directory.empty.writeAll packed = ⟨packed, h⟩ := by
    refine Directory.ext_read fun name => ?_
    cases hread : (⟨packed, h⟩ : Directory Bytes).read name with
    | some data => exact Directory.read_writeAll_of_mem hnodup (Directory.mem_files.mpr hread) _
    | none =>
        refine (Directory.read_writeAll_of_not_mem (fun hmem => ?_) _).trans rfl
        obtain ⟨⟨_, data⟩, hfile, rfl⟩ := List.mem_map.mp hmem
        rw [Directory.mem_files (d := ⟨packed, h⟩) |>.mp hfile] at hread
        cases hread
  rw [hdir]

theorem Exported.read_content_iff (h : Exported host files status content) {name : String}
    {data : Bytes} :
    (Directory.empty.writeAll content).read name = some data ↔ (name, data) ∈ content := by
  rw [← Directory.mem_files, files_writeAll h.sorted]

/-- An exported file but the follow database is the ledger's. -/
theorem Exported.read_of_content (h : Exported host files status content) {name : String}
    {data : Bytes} (hread : (Directory.empty.writeAll content).read name = some data)
    (hname : name ≠ followsName) : files.read name = some data :=
  h.read_eq (h.read_content_iff.mp hread) hname

/-- The directory of an export has an owned file exactly as the ledger has it. -/
theorem Exported.read_owned (h : Exported host files status content) {name : String}
    (howned : isOwned (· ∈ chainNames status) name = true) (hname : name ≠ followsName) :
    (Directory.empty.writeAll content).read name = files.read name := by
  cases hread : files.read name with
  | some data => exact h.read_content_iff.mpr (h.mem hread howned hname)
  | none =>
      cases hcontent : (Directory.empty.writeAll content).read name with
      | none => rfl
      | some data =>
          rw [h.read_of_content hcontent hname] at hread
          cases hread

/-- Only a record's path starts as records' do. -/
theorem record_of_isRecordName {e : Entry} (h : isRecordName e.path = true) :
    ∃ digest, e = .record digest := by
  obtain ⟨rest, hrest⟩ := List.isPrefixOf_iff_prefix.mp h
  have hpath : recordPrefix ++ String.ofList rest = e.path := by
    apply String.toList_inj.mp
    rw [String.toList_append, String.toList_ofList, hrest]
  cases e with
  | record digest => exact ⟨digest, rfl⟩
  | head =>
      exact absurd (hpath.trans (String.append_empty (s := headName)).symm)
        ((by decide : Diverge recordPrefix headName).ne _ _)
  | audit =>
      exact absurd (hpath.trans (String.append_empty (s := auditName)).symm)
        ((by decide : Diverge recordPrefix auditName).ne _ _)
  | follows =>
      exact absurd (hpath.trans (String.append_empty (s := followsName)).symm)
        ((by decide : Diverge recordPrefix followsName).ne _ _)
  | artifact digits =>
      rw [Entry.path, String.append_assoc] at hpath
      exact absurd hpath ((by decide : Diverge recordPrefix artifactPrefix).ne _ _)
  | draft matchId =>
      rw [Entry.path, String.append_assoc] at hpath
      exact absurd hpath ((by decide : Diverge recordPrefix draftPrefix).ne _ _)
  | locked digits =>
      rw [Entry.path, String.append_assoc] at hpath
      exact absurd hpath ((by decide : Diverge recordPrefix lockedPrefix).ne _ _)

theorem isRecordName_record (digest : String) : isRecordName (Entry.record digest).path = true := by
  rw [isRecordName, List.isPrefixOf_iff_prefix, Entry.path, String.append_assoc,
    String.toList_append]
  exact List.prefix_append _ _

theorem record_path_ne_follows (digest : String) : (Entry.record digest).path ≠ followsName := fun h => by
  have heq : Entry.record digest = Entry.follows := path_injective h
  cases heq

/-- The chain a verified ledger has. -/
theorem checkpointStatus_of_statusOf (h : statusOf host files = .ok status) :
    checkpointStatus host.runtime (checkpointLedger host files) = .ok status :=
  wrapError_ok_iff.mp h

/-- A record of a verified chain is a file of the ledger, and an archive takes it. -/
theorem record_of_chain (h : statusOf host files = .ok status) {p : String × Checkpoint}
    (hp : p ∈ status.chain) : (∃ data, files.read (Entry.record p.1).path = some data) ∧
      isOwned (· ∈ chainNames status) (Entry.record p.1).path = true := by
  obtain ⟨hlinked, -⟩ := checkpointStatus_ok (checkpointStatus_of_statusOf h)
  obtain ⟨document, hdocument, -, hdigest, -⟩ := checkpoint_ok (hlinked.checkpoint_ok p hp)
  have hvalid : (Entry.record p.1).valid = true := by
    have hsha := isDigestText_sha256 host.runtime
      (Json.dumps (document.1.erase "checkpoint_sha256"))
    rw [← hdigest]
    exact hsha
  have hentry : entryOf (Entry.record p.1).path = some (.record p.1) :=
    entryOf_eq_some_iff.mpr ⟨hvalid, rfl⟩
  have hhead : status.head.isSome = true := by
    cases hstatus : status.head with
    | some _ => rfl
    | none =>
        rw [hstatus] at hlinked
        generalize status.chain = chain at hlinked hp
        cases hlinked
        cases hp
  constructor
  · rw [read_records] at hdocument
    obtain ⟨data, hdata, -⟩ := Option.map_eq_some_iff.mp hdocument
    exact ⟨data, hdata⟩
  · have hmem : (Entry.record p.1).path ∈ chainNames status := by
      rw [chainNames, if_pos hhead]
      exact List.mem_cons_of_mem _ (List.mem_map_of_mem (f := fun c => (Entry.record c.1).path) hp)
    unfold isOwned
    rw [hentry]
    exact decide_eq_true hmem

/-- **The records of an export** are those of the verified chain. -/
theorem Exported.records (h : Exported host files status content) :
    ((pathsOf content).filter isRecordName).length = status.checkpointCount := by
  obtain ⟨hlinked, -⟩ := checkpointStatus_ok (checkpointStatus_of_statusOf h.verified)
  have hchain : (status.chain.map fun c => (Entry.record c.1).path).Nodup := by
    have hinj : Function.Injective fun digest => (Entry.record digest).path := fun a b heq =>
      Entry.record.inj (path_injective heq)
    have hnodup := hlinked.nodup.map hinj
    rwa [List.map_map] at hnodup
  have hperm : ((pathsOf content).filter isRecordName).Perm
      (status.chain.map fun c => (Entry.record c.1).path) := by
    refine (List.perm_ext_iff_of_nodup (h.nodup.filter _) hchain).mpr fun name => ?_
    rw [List.mem_filter]
    constructor
    · rintro ⟨hname, hrecord⟩
      obtain ⟨file, hfile, rfl⟩ := List.mem_map.mp hname
      obtain ⟨_, -, howned, -⟩ := h.source hfile
      unfold isOwned at howned
      cases hentry : entryOf file.1 with
      | none =>
          rw [hentry] at howned
          cases howned
      | some e =>
          obtain ⟨-, hpath⟩ := entryOf_eq_some_iff.mp hentry
          obtain ⟨digest, rfl⟩ := record_of_isRecordName (hpath ▸ hrecord)
          rw [hentry] at howned
          have hlisted : file.1 ∈ chainNames status := of_decide_eq_true howned
          unfold chainNames at hlisted
          split_ifs at hlisted
          · rcases List.mem_cons.mp hlisted with hhead | hmem
            · have heq : Entry.record digest = Entry.head := path_injective (hpath.trans hhead)
              cases heq
            · exact hmem
          · cases hlisted
    · intro hname
      obtain ⟨p, hp, rfl⟩ := List.mem_map.mp hname
      obtain ⟨⟨data, hdata⟩, howned⟩ := record_of_chain h.verified hp
      have hne := record_path_ne_follows p.1
      exact ⟨List.mem_map_of_mem (f := Prod.fst) (h.mem hdata howned hne), isRecordName_record _⟩
  rw [hperm.length_eq, List.length_map]
  rfl

end Chain

/-! ## The verified chain -/

section Status

variable {host : Host} {files : Directory Bytes} {status status' : CheckpointStatus}
  {content : List (String × Bytes)}

/-- An artifact of an export is the ledger's. -/
theorem Exported.artifact (h : Exported host files status content) {id : String} {text : List Char}
    (hread : (checkpointLedger host (Directory.empty.writeAll content)).store.artifacts.read id =
      some text) : (checkpointLedger host files).store.artifacts.read id = some text := by
  obtain ⟨name, data, hkey, hdata, rfl⟩ := (Directory.read_collect_eq_some_iff artifactStem_inj).mp hread
  refine (Directory.read_collect_eq_some_iff artifactStem_inj).mpr ⟨name, data, hkey, ?_, rfl⟩
  refine h.read_of_content hdata ?_
  rintro rfl
  have hnone : artifactStem followsName = none := rfl
  rw [hnone] at hkey
  cases hkey

/-- An artifact that a checkpoint accepts is accepted where it is kept or left out. -/
theorem checkEntry_of_subset {rt : Ledger.Runtime} {store store' : Ledger.Store}
    (hsub : ∀ {id text}, store'.artifacts.read id = some text → store.artifacts.read id = some text)
    {e : Ledger.CheckpointEntry} (h : checkEntry rt store e = .ok ()) :
    checkEntry rt store' e = .ok () := by
  rw [checkEntry, failIf_ok_iff] at h ⊢
  intro hany
  obtain ⟨text, htext, hne⟩ := (Option.any_eq_true _ _).mp hany
  exact h ((Option.any_eq_true _ _).mpr ⟨text, hsub htext, hne⟩)

/-- **An export keeps the verified chain.** -/
theorem Exported.linked (h : Exported host files status content) :
    Linked host.runtime (checkpointLedger host (Directory.empty.writeAll content)) status.head
      status.headSchemaVersion status.chain := by
  obtain ⟨hlinked, -⟩ := checkpointStatus_ok (checkpointStatus_of_statusOf h.verified)
  refine hlinked.congr (fun p hp => ?_) fun p hp e he => ?_
  · have hne : (Entry.record p.1).path ≠ followsName := fun heq =>
      record_path_ne_follows p.1 heq
    rw [read_records, read_records, h.read_owned (record_of_chain h.verified hp).2 hne]
  · exact checkEntry_of_subset h.artifact (hlinked.entries_ok p hp e he)

/-- The chain of an export is the ledger's. -/
theorem Exported.chain_eq (h : Exported host files status content)
    (h' : statusOf host (Directory.empty.writeAll content) = .ok status') :
    status'.chain = status.chain := by
  obtain ⟨hlinked', -, hnone', hsome', -⟩ := checkpointStatus_ok (checkpointStatus_of_statusOf h')
  obtain ⟨-, -, hnone, hsome, -⟩ := checkpointStatus_ok (checkpointStatus_of_statusOf h.verified)
  have hne : headName ≠ followsName := by decide
  cases hread : files.read headName with
  | none =>
      have hcontent : (Directory.empty.writeAll content).read headName = none := by
        cases hcontent : (Directory.empty.writeAll content).read headName with
        | none => rfl
        | some data =>
            rw [h.read_of_content hcontent hne] at hread
            cases hread
      rw [(hnone' (by rw [checkpointLedger, hcontent]; rfl)).1,
        (hnone (by rw [checkpointLedger, hread]; rfl)).1]
  | some data =>
      obtain ⟨document, hdocument, head, schema, hheadOf, hhead, hschema⟩ :=
        hsome (readDocument host data) (by rw [checkpointLedger, hread]; rfl)
      have howned : isOwned (· ∈ chainNames status) headName = true := by
        have hlisted : headName ∈ chainNames status := by
          rw [chainNames, hhead]
          exact List.mem_cons_self
        have hentry : entryOf headName = some .head := rfl
        unfold isOwned
        rw [hentry]
        exact decide_eq_true hlisted
      have hcontent := (h.read_owned howned hne).trans hread
      obtain ⟨document', hdocument', head', schema', hheadOf', hhead', hschema'⟩ :=
        hsome' (readDocument host data) (by rw [checkpointLedger, hcontent]; rfl)
      rw [hdocument] at hdocument'
      obtain rfl := Option.some.inj hdocument'
      rw [hheadOf] at hheadOf'
      obtain ⟨rfl, rfl⟩ := Prod.mk.inj (Option.some.inj hheadOf')
      rw [hhead', hschema'] at hlinked'
      have hlinked := h.linked
      rw [hhead, hschema] at hlinked
      exact hlinked'.unique hlinked

end Status

/-! ## What an inspection of an export finds -/

section Inspect

variable {host : Host} {files here : Directory Bytes} {status status' : CheckpointStatus}
  {content : List (String × Bytes)} {now : Int}

theorem Exported.manifest_fresh (h : Exported host files status content) :
    manifestName ∉ pathsOf content := by
  intro hmem
  obtain ⟨file, hfile, hname⟩ := List.mem_map.mp hmem
  have hallowed := h.allowed hfile
  rw [hname] at hallowed
  exact absurd hallowed (by decide)

theorem Exported.archive_nodup (h : Exported host files status content) (manifest : Json) :
    ((archiveFiles content manifest).map Prod.fst).Nodup := by
  rw [archiveFiles, List.map_append]
  refine h.nodup.append (List.nodup_singleton _) fun name hname hmanifest => ?_
  rw [List.mem_singleton.mp hmanifest] at hname
  exact h.manifest_fresh hname

/-- **The members of an export** are accepted with its files, unless laying its chain over the local one
raises. -/
theorem Exported.inspectMembers (h : Exported host files status content)
    (h' : statusOf host (Directory.empty.writeAll content) = .ok status') :
    let manifest := manifestOf host content (recoverySummary status') true now
    Archive.inspectMembers host here ((archiveFiles content manifest).map ZipMember.ofFile) =
      (blockedReason host here (Directory.empty.writeAll content)).map fun blocked =>
        (previewOf host here (Directory.empty.writeAll content) schemaVersion manifest
          (recoverySummary status') blocked, Directory.empty.writeAll content) := by
  intro manifest
  have hfst : ((archiveFiles content manifest).map ZipMember.ofFile).map ZipMember.name =
      pathsOf content ++ [manifestName] := by
    simp [archiveFiles, pathsOf, ZipMember.ofFile]
  have hfresh := h.manifest_fresh
  have hnodup := h.archive_nodup manifest
  have hmanifest : readMember ((archiveFiles content manifest).map ZipMember.ofFile) manifestName =
      .ok (manifestBytes manifest) :=
    readMember_ofFile hnodup (List.mem_append_right _ List.mem_cons_self)
  have hcontent : declaredContent host ((archiveFiles content manifest).map ZipMember.ofFile)
      manifest = .ok (Directory.empty.writeAll content) := by
    have htaken : (content.map (fileEntry host)).foldlM
        (takeDeclared host ((archiveFiles content manifest).map ZipMember.ofFile)) .empty =
          .ok (Directory.empty.writeAll content) := by
      refine foldlM_takeDeclared h.nodup (fun _ _ => rfl) fun file hfile => ⟨h.allowed hfile, ?_, ?_⟩
      · exact readMember_ofFile hnodup (List.mem_append_left _ hfile)
      · obtain ⟨_, -, -, hpacked⟩ := h.source hfile
        exact hpacked.checked rfl
    have hothers : (pathsOf content ++ [manifestName]).filter (· ≠ manifestName) = pathsOf content := by
      rw [List.filter_append, List.filter_eq_self.mpr fun name hname => ?_]
      · simp
      · exact decide_eq_true fun heq => hfresh (heq ▸ hname)
    simp only [declaredContent, manifest, itemsOf_manifestOf, orFail, htaken, failIf, hfst, hothers,
      files_writeAll h.sorted, bind, Except.bind, pure, Except.pure]
    rw [if_neg (not_not.mpr ⟨fun _ h => h, fun _ h => h⟩)]
  have hcount : ((pathsOf (Directory.empty.writeAll content).files).filter isRecordName).length =
      status'.checkpointCount := by
    rw [files_writeAll h.sorted, h.records, CheckpointStatus.checkpointCount,
      CheckpointStatus.checkpointCount, h.chain_eq h']
  have hlegacy : schemaVersion ≠ legacySchemaVersion := by decide
  unfold Archive.inspectMembers
  rw [hmanifest]
  simp only [manifest, readJson_manifest, manifestVersion_manifestOf, orFail, failIf, hlegacy,
    false_and, if_false, hcontent, h', hcount, ne_eq, not_true_eq_false, recovery_manifestOf,
    Bool.true_eq_false, and_false, bind, Except.bind, pure, Except.pure]
  cases blockedReason host here (Directory.empty.writeAll content) <;> rfl

/-- The members of an exported archive are listed exactly where it fits. -/
theorem Exported.listMembers_iff (h : Exported host files status content) {manifest : Json}
    {members : List ZipMember} :
    listMembers host (host.zip (archiveFiles content manifest)) = .ok members ↔
      Fits host (archiveFiles content manifest) ∧
        members = (archiveFiles content manifest).map ZipMember.ofFile := by
  refine listMembers_zip_iff (fun file hfile => ?_) (h.archive_nodup manifest) ?_ ?_
  · rcases List.mem_append.mp hfile with hmem | hmem
    · exact .inr (h.allowed hmem)
    · rw [List.mem_singleton.mp hmem]
      exact .inl rfl
  · rw [archiveFiles, List.map_append]
    exact List.mem_append_right _ List.mem_cons_self
  · rw [archiveFiles, List.length_append]
    exact Nat.succ_le_succ h.length_le

end Inspect

/-! ## Round trips -/

section Export

variable {host : Host} {files here : Directory Bytes} {status status' : CheckpointStatus}
  {content : List (String × Bytes)} {archive : Bytes} {manifest : Json} {now : Int}

/-- What a verified export makes. -/
theorem exportArchive_ok (h : exportArchive host files true now = .ok (archive, manifest)) :
    ∃ content status status', Exported host files status content ∧
      exportContent host files true = .ok content ∧
      statusOf host (Directory.empty.writeAll content) = .ok status' ∧
      manifest = manifestOf host content (recoverySummary status') true now ∧
      archive = host.zip (archiveFiles content manifest) := by
  obtain ⟨content, hcontent, h⟩ := bind_ok_iff.mp h
  obtain ⟨recovery, hrecovery, h⟩ := bind_ok_iff.mp h
  obtain ⟨rfl, rfl⟩ := Prod.mk.inj (Except.ok.inj h)
  obtain ⟨status', hstatus', hsummary⟩ := bind_ok_iff.mp hrecovery
  obtain rfl := Except.ok.inj hsummary
  obtain ⟨status, hstatus, hcounted, hpacked, hwithin⟩ := exportContent_ok_iff.mp hcontent
  exact ⟨content, status, status', ⟨hstatus, hcounted, hpacked, hwithin⟩, hcontent, hstatus', rfl, rfl⟩

/-- **An inspection of an exported archive** against any local files. -/
theorem Exported.inspectArchive_iff (h : Exported host files status content)
    (h' : statusOf host (Directory.empty.writeAll content) = .ok status')
    (hmanifest : manifest = manifestOf host content (recoverySummary status') true now)
    {result : Preview × Directory Bytes} :
    inspectArchive host here (host.zip (archiveFiles content manifest)) = .ok result ↔
      Fits host (archiveFiles content manifest) ∧
        ∃ blocked, blockedReason host here (Directory.empty.writeAll content) = .ok blocked ∧
          result = (previewOf host here (Directory.empty.writeAll content) schemaVersion manifest
            (recoverySummary status') blocked, Directory.empty.writeAll content) := by
  subst hmanifest
  rw [inspectArchive, bind_ok_iff]
  simp only [h.listMembers_iff]
  constructor
  · rintro ⟨_, ⟨hfits, rfl⟩, hresult⟩
    rw [h.inspectMembers h'] at hresult
    refine ⟨hfits, ?_⟩
    cases hblocked : blockedReason host here (Directory.empty.writeAll content) with
    | error failure =>
        rw [hblocked] at hresult
        cases hresult
    | ok blocked =>
        rw [hblocked] at hresult
        exact ⟨blocked, rfl, (Except.ok.inj hresult).symm⟩
  · rintro ⟨hfits, blocked, hblocked, rfl⟩
    refine ⟨_, ⟨hfits, rfl⟩, ?_⟩
    rw [h.inspectMembers h', hblocked]
    rfl

/-- An exported file laid over the ledger changes nothing but the follow database. -/
theorem Exported.read_overlay (h : Exported host files status content) {name : String}
    (hname : name ≠ followsName) :
    (files.overlay (Directory.empty.writeAll content)).read name = files.read name := by
  rw [Directory.read_overlay]
  cases hread : (Directory.empty.writeAll content).read name with
  | none => rw [Option.none_or]
  | some data => rw [Option.some_or, h.read_of_content hread hname]

/-- Nothing stands in the way of restoring an export where it was made. -/
theorem Exported.blockedReason_own (h : Exported host files status content) :
    blockedReason host files (Directory.empty.writeAll content) = .ok none := by
  have hledger : checkpointLedger host (files.overlay (Directory.empty.writeAll content)) =
      checkpointLedger host files :=
    checkpointLedger_congr fun name hname => h.read_overlay hname
  have hstatus : statusOf host (files.overlay (Directory.empty.writeAll content)) = .ok status := by
    rw [statusOf, wrapError_ok_iff, hledger]
    exact checkpointStatus_of_statusOf h.verified
  rw [blockedReason, hstatus]

/-- Nothing stands in the way of restoring an export where there is nothing. -/
theorem blockedReason_empty {dir : Directory Bytes} (h : statusOf host dir = .ok status) :
    blockedReason host .empty dir = .ok none := by
  have hoverlay : Directory.empty.overlay dir = dir := by
    refine Directory.ext_read fun name => ?_
    rw [Directory.read_overlay, Directory.read_empty, Option.or_none]
  rw [blockedReason, hoverlay, h]

/-- Where an archive was made, and where there is nothing, only its size decides whether it is accepted,
and nothing stands in the way of its restore. -/
theorem inspect_where_made (h : exportArchive host files true now = .ok (archive, manifest))
    (hhere : here = files ∨ here = .empty) :
    ∃ content preview, exportContent host files true = .ok content ∧
      preview.restoreBlockedReason = none ∧ ∀ result, inspectArchive host here archive = .ok result ↔
        Fits host (archiveFiles content manifest) ∧
          result = (preview, Directory.empty.writeAll content) := by
  obtain ⟨content, status, status', hexported, hcontent, hstatus', hmanifest, rfl⟩ :=
    exportArchive_ok h
  have hblocked : blockedReason host here (Directory.empty.writeAll content) = .ok none := by
    rcases hhere with rfl | rfl
    · exact hexported.blockedReason_own
    · exact blockedReason_empty hstatus'
  refine ⟨content, previewOf host here (Directory.empty.writeAll content) schemaVersion manifest
    (recoverySummary status') none, hcontent, rfl, fun result => ?_⟩
  rw [hexported.inspectArchive_iff hstatus' hmanifest]
  constructor
  · rintro ⟨hfits, blocked, hfound, rfl⟩
    rw [hblocked] at hfound
    obtain rfl := Except.ok.inj hfound
    exact ⟨hfits, rfl⟩
  · rintro ⟨hfits, rfl⟩
    exact ⟨hfits, none, hblocked, rfl⟩

/-- **What an export gives back.** An archive of a verified export is accepted, by the ledger it was made
from and by an empty one, exactly when it fits with its manifest; wherever it is accepted it holds what
was exported and nothing else; and to its own ledger nothing of it is new, nothing but the follow
database conflicts, and its restore is not blocked. -/
theorem inspect_exportArchive (h : exportArchive host files true now = .ok (archive, manifest)) :
    ∃ content, exportContent host files true = .ok content ∧
      ((∃ result, inspectArchive host files archive = .ok result) ↔
        Fits host (archiveFiles content manifest)) ∧
      ((∃ result, inspectArchive host .empty archive = .ok result) ↔
        Fits host (archiveFiles content manifest)) ∧
      (∀ here preview back, inspectArchive host here archive = .ok (preview, back) →
        back.files = content) ∧
      ∀ preview back, inspectArchive host files archive = .ok (preview, back) →
        preview.newFiles = [] ∧ (∀ name ∈ preview.conflicts, name = followsName) ∧
          preview.restoreBlockedReason = none := by
  obtain ⟨content, status, status', hexported, hcontent, hstatus', hmanifest, rfl⟩ :=
    exportArchive_ok h
  have hmade : ∀ here, here = files ∨ here = .empty →
      ((∃ result, inspectArchive host here (host.zip (archiveFiles content manifest)) = .ok result) ↔
        Fits host (archiveFiles content manifest)) := by
    intro here hhere
    obtain ⟨content', preview, hcontent', -, hiff⟩ := inspect_where_made h hhere
    rw [hcontent] at hcontent'
    obtain rfl := Except.ok.inj hcontent'
    exact ⟨fun ⟨result, hresult⟩ => ((hiff result).mp hresult).1,
      fun hfits => ⟨_, (hiff _).mpr ⟨hfits, rfl⟩⟩⟩
  have hiff := fun here result => @Exported.inspectArchive_iff host files here status status' content
    manifest now hexported hstatus' hmanifest result
  refine ⟨content, hcontent, hmade files (.inl rfl), hmade .empty (.inr rfl),
    fun here preview back hback => ?_, fun preview back hback => ?_⟩
  · obtain ⟨-, blocked, -, hresult⟩ := (hiff here _).mp hback
    rw [(Prod.mk.inj hresult).2, files_writeAll hexported.sorted]
  · obtain ⟨-, blocked, hblocked, hresult⟩ := (hiff files _).mp hback
    rw [hexported.blockedReason_own] at hblocked
    obtain rfl := Except.ok.inj hblocked
    rw [(Prod.mk.inj hresult).1]
    refine ⟨?_, fun name hname => ?_, rfl⟩
    · rw [previewOf, pathsOf, List.map_eq_nil_iff, List.filter_eq_nil_iff]
      intro file hfile
      rw [files_writeAll hexported.sorted] at hfile
      obtain ⟨data, hread, -⟩ := hexported.source hfile
      rw [hread]
      exact Bool.false_ne_true
    · by_contra hne
      obtain ⟨file, hfile, rfl⟩ := List.mem_map.mp hname
      obtain ⟨hmem, hdiffers⟩ := List.mem_filter.mp hfile
      rw [files_writeAll hexported.sorted] at hmem
      rw [hexported.read_eq hmem hne] at hdiffers
      simp at hdiffers

/-- A ledger whose pick audit has one row. -/
def auditedLedger : Directory Bytes := Directory.empty.write auditName (utf8 ['{', '}', '\n'])

/-- Its archive and manifest. -/
def auditArchive : Bytes × Json :=
  (exportArchive .standard auditedLedger true 0).toOption.getD ([], .null)

theorem exportArchive_auditedLedger :
    exportArchive .standard auditedLedger true 0 = .ok auditArchive := by
  have hok : (exportArchive .standard auditedLedger true 0).toBool = true := by decide +kernel
  unfold auditArchive
  cases hexport : exportArchive .standard auditedLedger true 0 with
  | error failure =>
      rw [hexport] at hok
      cases hok
  | ok made => rfl

theorem exportContent_auditedLedger :
    exportContent .standard auditedLedger true = .ok [(auditName, utf8 ['{', '}', '\n'])] := by
  decide +kernel

/-- The archive of a pick audit gives back what it was made from: the audit. -/
theorem inspect_auditArchive :
    exportContent .standard auditedLedger true = .ok [(auditName, utf8 ['{', '}', '\n'])] ∧
      ∀ preview back, inspectArchive .standard .empty auditArchive.1 = .ok (preview, back) →
        back.files = [(auditName, utf8 ['{', '}', '\n'])] := by
  obtain ⟨content, hcontent, -, -, hback, -⟩ := inspect_exportArchive exportArchive_auditedLedger
  rw [exportContent_auditedLedger] at hcontent
  obtain rfl := Except.ok.inj hcontent
  exact ⟨exportContent_auditedLedger, hback .empty⟩

end Export

end Golavo.Archive
