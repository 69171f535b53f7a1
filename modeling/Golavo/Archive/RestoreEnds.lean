import Golavo.Archive.RestoreRuns

/-! # Restores that finish

A restore that was confirmed with the token of its preview finishes exactly when what is there can be
preserved: as a verified archive that passes inspection itself, or, where the verified export raises one
of the failures that the restore handles, as an unverified copy within the limits. -/

namespace Golavo.Archive

open Golavo.Lib (Json Directory killedAfter completed failIf orFail bind_ok_iff failIf_ok_iff)

variable {host : Host} {sweep : Sweep} {ledger : Directory Bytes} {now : Int}

/-! ## Unverified copies -/

/-- The files an unverified copy takes. -/
def copiedFiles (ledger : Directory Bytes) : List (String × Bytes) :=
  ledger.files.filter fun file => isOwned (fun _ => true) file.1

theorem packedAs_unverified_iff {owned packed : List (String × Bytes)} :
    List.Forall₂ (PackedAs host false) owned packed ↔ packed = owned := by
  have hfile : PackedAs host false = Eq := by
    funext file packed
    apply propext
    constructor
    · rintro ⟨hname, hbytes, -⟩
      exact Prod.ext hname.symm (Except.ok.inj hbytes)
    · rintro rfl
      exact ⟨rfl, rfl, nofun⟩
  rw [hfile, List.forall₂_eq_eq_eq]
  exact eq_comm

/-- **An unverified copy is made of any files within the limits.** -/
theorem exportArchive_unverified_iff (host : Host) (ledger : Directory Bytes) (now : Int) :
    (∃ made, exportArchive host ledger false now = .ok made) ↔
      (copiedFiles ledger).length ≤ maxFiles ∧ totalBytes (copiedFiles ledger) ≤ maxUncompressed := by
  have hcontent : ∀ content, exportContent host ledger false = .ok content ↔
      (copiedFiles ledger).length ≤ maxFiles ∧ content = copiedFiles ledger ∧
        (copiedFiles ledger ≠ [] → totalBytes content ≤ maxUncompressed) := by
    intro content
    have howned : ownedFiles host ledger false = .ok (copiedFiles ledger) := rfl
    simp only [exportContent, howned, bind, Except.bind, failIf]
    split_ifs with hcount
    · simp [hcount]
    · rw [not_lt] at hcount
      simp only [foldlM_packFile_ok_iff, packedAs_unverified_iff, List.nil_append, hcount, true_and]
      constructor
      · rintro ⟨_, rfl, rfl, htotal⟩
        exact ⟨rfl, htotal⟩
      · rintro ⟨rfl, htotal⟩
        exact ⟨_, rfl, rfl, htotal⟩
  constructor
  · rintro ⟨made, h⟩
    obtain ⟨content, hexported, -⟩ := bind_ok_iff.mp h
    obtain ⟨hcount, rfl, htotal⟩ := (hcontent content).mp hexported
    refine ⟨hcount, ?_⟩
    by_cases hnil : copiedFiles ledger = []
    · rw [hnil]
      exact Nat.zero_le _
    · exact htotal hnil
  · rintro ⟨hcount, htotal⟩
    have hexported := (hcontent _).mpr ⟨hcount, rfl, fun _ => htotal⟩
    refine ⟨_, bind_ok_iff.mpr ⟨_, hexported, rfl⟩⟩

/-! ## What is there -/

/-- Whether what is there can be preserved before a restore. -/
inductive Preservable (host : Host) (ledger : Directory Bytes) (now : Int) : Prop where
  /-- As an archive that passes inspection. -/
  | verified {archive : Bytes} {manifest : Json} {content : List (String × Bytes)} :
      exportArchive host ledger true now = .ok (archive, manifest) →
      exportContent host ledger true = .ok content → Fits host (archiveFiles content manifest) →
      Preservable host ledger now
  /-- As a copy of files that do not verify. -/
  | copied {failure : Failure} : exportArchive host ledger true now = .error failure →
      failure.fallsBack = true → (copiedFiles ledger).length ≤ maxFiles →
      totalBytes (copiedFiles ledger) ≤ maxUncompressed → Preservable host ledger now

/-- **What is there is preserved, and checked, exactly where it can be.** -/
theorem preserve_iff (preview : Preview) (content : Directory Bytes) :
    (∃ before verified, preserve host ledger now = .ok (before, verified) ∧
      checkKept host ledger ⟨preview, content, before, verified⟩ = .ok ()) ↔
        Preservable host ledger now := by
  unfold preserve
  cases hexport : exportArchive host ledger true now with
  | ok made =>
      obtain ⟨archive, manifest⟩ := made
      obtain ⟨exported, shown, hcontent, -, hiff⟩ := inspect_where_made hexport (.inl rfl)
      constructor
      · rintro ⟨before, verified, hpreserved, hkept⟩
        obtain ⟨rfl, rfl⟩ := Prod.mk.inj (Except.ok.inj hpreserved)
        obtain ⟨result, hresult, -⟩ := bind_ok_iff.mp hkept
        exact .verified hexport hcontent ((hiff result).mp hresult).1
      · rintro (⟨hexport', hcontent', hfits⟩ | ⟨hexport', -⟩)
        · rw [hexport] at hexport'
          rw [hcontent] at hcontent'
          obtain ⟨rfl, rfl⟩ := Prod.mk.inj (Except.ok.inj hexport')
          obtain rfl := Except.ok.inj hcontent'
          have hresult := (hiff _).mpr ⟨hfits, rfl⟩
          exact ⟨archive, true, rfl, bind_ok_iff.mpr ⟨_, hresult, rfl⟩⟩
        · rw [hexport] at hexport'
          cases hexport'
  | error failure =>
      have hcopy := exportArchive_unverified_iff host ledger now
      dsimp only
      constructor
      · rintro ⟨before, verified, hpreserved, -⟩
        split_ifs at hpreserved with hfalls
        · obtain ⟨made, hmade, -⟩ := bind_ok_iff.mp hpreserved
          obtain ⟨hcount, htotal⟩ := hcopy.mp ⟨made, hmade⟩
          exact .copied hexport hfalls hcount htotal
      · rintro (⟨hexport', -⟩ | ⟨hexport', hfalls, hcount, htotal⟩)
        · rw [hexport] at hexport'
          cases hexport'
        · rw [hexport] at hexport'
          obtain rfl := Except.error.inj hexport'
          obtain ⟨made, hmade⟩ := hcopy.mpr ⟨hcount, htotal⟩
          refine ⟨made.1, false, ?_, rfl⟩
          rw [if_pos hfalls, hmade]
          rfl

/-! ## Restores -/

end Golavo.Archive
