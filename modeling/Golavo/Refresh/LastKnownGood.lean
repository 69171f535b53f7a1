import Golavo.Refresh.Generations

/-! # The last known good generation

What an activation keeps. The pointer has room for two ids, so an activation drops one: it drops the
recorded previous generation, and records as previous the generation that was recorded as active,
whether or not that one still verifies. -/

namespace Golavo.Refresh

open Golavo.Lib (Directory RunAllowed)

variable {γ : Type} {verify : String → γ → Verdict}

namespace Generations

/-! ## What each operation does -/

theorem require_ok_iff {s : Generations γ} {id : String} {u : Unit} :
    s.require verify id = .ok u ↔ s.inspect verify id = .verified := by
  rw [require, Golavo.Lib.failIf_ok_iff, not_not]

/-- An activation goes through when its target verifies. -/
theorem activateGeneration_ok_iff {prunes : Bool} {s s' : Generations γ} {id at_ : String} :
    s.activateGeneration verify prunes id at_ = .ok s' ↔ s.inspect verify id = .verified ∧
      s' = { pointer := some ⟨some id, s.nextPrevious id, some at_, false⟩
             trees := if prunes then
                 pruneGenerations ⟨some id, s.nextPrevious id, some at_, false⟩ s.trees
               else s.trees } := by
  rw [activateGeneration, Golavo.Lib.check_bind_ok_iff, require_ok_iff]
  exact and_congr_right fun _ => ⟨fun h => (Except.ok.inj h).symm, fun h => congrArg Except.ok h.symm⟩

/-- A rollback goes through when there is a previous generation and it verifies. -/
theorem rollback_ok_iff {s s' : Generations γ} {at_ : String} :
    s.rollback verify at_ = .ok s' ↔ ∃ previous, s.current.previousGenerationId = some previous ∧
      s.inspect verify previous = .verified ∧
      s' = ⟨some ⟨some previous, s.current.activeGenerationId, some at_, true⟩, s.trees⟩ := by
  rw [rollback, Golavo.Lib.bind_ok_iff]
  refine exists_congr fun previous => ?_
  rw [Golavo.Lib.orFail_ok_iff, Golavo.Lib.check_bind_ok_iff, require_ok_iff]
  exact and_congr_right fun _ => and_congr_right fun _ =>
    ⟨fun h => (Except.ok.inj h).symm, fun h => congrArg Except.ok h.symm⟩

/-- What is found in a directory depends on its bytes. -/
theorem inspect_congr {s s' : Generations γ} {id : String}
    (h : s'.trees.read id = s.trees.read id) : s'.inspect verify id = s.inspect verify id := by
  rw [inspect, inspect, h]

/-- A generation that verifies is on disk. -/
theorem read_of_verified {s : Generations γ} {id : String}
    (h : s.inspect verify id = .verified) : ∃ tree, s.trees.read id = some tree := by
  unfold inspect at h
  split at h
  · split at h
    · exact ⟨_, ‹_›⟩
    · cases h
  · cases h

/-- The fallback is served when the active generation, if any, does not verify and the previous one
does. -/
theorem activeGeneration_fallback {s : Generations γ} {p : Pointer} {g : String}
    (hpointer : s.pointer = some p)
    (hactive : ∀ a, p.activeGenerationId = some a → s.inspect verify a = .refused)
    (hprevious : p.previousGenerationId = some g) (hg : s.inspect verify g = .verified) :
    s.activeGeneration verify = .ok (some (g, true)) := by
  rw [activeGeneration, hpointer]
  simp only
  cases ha : p.activeGenerationId with
  | none => simp only [firstVerified, hprevious, hg]
  | some a => simp only [firstVerified, hprevious, hactive a ha, hg]

/-- A served fallback is the verified previous generation, and the active one was refused. -/
theorem of_activeGeneration_fallback {s : Generations γ} {g : String}
    (h : s.activeGeneration verify = .ok (some (g, true))) :
    (∀ a, s.current.activeGenerationId = some a → s.inspect verify a = .refused) ∧
      s.current.previousGenerationId = some g ∧ s.inspect verify g = .verified := by
  unfold activeGeneration at h
  cases hpointer : s.pointer with
  | none => simp [hpointer] at h
  | some p =>
      have hcurrent : s.current = p := by rw [current, hpointer, Option.getD_some]
      rw [hcurrent]
      simp only [hpointer] at h
      have hprevious : s.firstVerified verify [(p.previousGenerationId, true)] =
          .ok (some (g, true)) → p.previousGenerationId = some g ∧
            s.inspect verify g = .verified := by
        intro h
        cases hp : p.previousGenerationId with
        | none => simp [hp, firstVerified] at h
        | some q =>
            simp only [hp, firstVerified] at h
            cases hq : s.inspect verify q with
            | verified =>
                simp only [hq, Except.ok.injEq, Option.some.injEq, Prod.mk.injEq, and_true] at h
                exact ⟨congrArg some h, h ▸ hq⟩
            | refused => simp [hq] at h
            | crashed => simp [hq] at h
      cases ha : p.activeGenerationId with
      | none =>
          simp only [ha, firstVerified] at h
          exact ⟨fun a heq => absurd heq.symm (Option.some_ne_none a), hprevious h⟩
      | some a =>
          rw [ha, firstVerified] at h
          cases hq : s.inspect verify a with
          | verified => simp [hq] at h
          | refused =>
              simp only [hq] at h
              exact ⟨fun b heq => Option.some.inj heq ▸ hq, hprevious h⟩
          | crashed => simp [hq] at h

/-! ## What a step keeps -/

section Keeping

variable (verify)

/-- A generation verifies. -/
def Verified (s : Generations γ) (id : String) : Prop := s.inspect verify id = .verified

/-- The pointer names a generation. -/
def Names (s : Generations γ) (id : String) : Prop :=
  s.current.activeGenerationId = some id ∨ s.current.previousGenerationId = some id

/-- A generation the pointer no longer names, or whose directory is gone. -/
def Lost (s s' : Generations γ) (id : String) : Prop :=
  (s.Names id ∧ ¬ s'.Names id) ∨ (s'.trees.read id = none ∧ s.trees.read id ≠ none)

/-- No generation that verifies is lost in favour of a fallback that does not. -/
def PrefersVerified (s s' : Generations γ) : Prop :=
  ∀ g, s.Verified verify g → s.Lost s' g →
    ∀ p, s'.current.previousGenerationId = some p → s'.Verified verify p

/-- A rollback serves a generation, and so does what is left when `active` no longer verifies. -/
structure WithinReach (s : Generations γ) (active g : String) : Prop where
  rollback : ∀ at_, ∃ s', s.rollback verify at_ = .ok s' ∧
    s'.activeGeneration verify = .ok (some (g, false))
  fallback : ∀ tree, (s.corrupt active tree).inspect verify active = .refused →
    (s.corrupt active tree).activeGeneration verify = .ok (some (g, true))

/-- **An action keeps the last known good generation**: an activation leaves a served fallback within
reach, and no operation loses a generation that verifies in favour of one that does not. -/
def Keeps (prunes : Bool) (s : Generations γ) : GenerationAction γ → Prop
  | .activate id at_ => ∀ s', s.activateGeneration verify prunes id at_ = .ok s' →
      (∀ g, s.activeGeneration verify = .ok (some (g, true)) → g ≠ id →
        s'.WithinReach verify id g) ∧ s.PrefersVerified verify s'
  | .install id staged => s.PrefersVerified verify (s.installGeneration verify id staged).1
  | .rollback at_ => ∀ s', s.rollback verify at_ = .ok s' → s.PrefersVerified verify s'
  | .corrupt _ _ => True

/-- A generation an activation drops: neither its target nor what it records as previous. -/
def Drops (prunes : Bool) (s : Generations γ) (id g : String) : Prop :=
  g ≠ id ∧ s.nextPrevious id ≠ some g ∧ (s.Names g ∨ prunes = true)

/-- An activation is safe when what it records as previous verifies, or nothing it drops does. -/
def Safe (prunes : Bool) (s : Generations γ) : GenerationAction γ → Prop
  | .activate id _ => s.Verified verify id →
      (∀ p, s.nextPrevious id = some p → s.Verified verify p) ∨
        ∀ g, s.Verified verify g → ¬ s.Drops prunes id g
  | _ => True

end Keeping

/-- What an activation loses is what it drops. -/
theorem lost_activate_iff {prunes : Bool} {s s' : Generations γ} {id at_ g : String}
    (h : s.activateGeneration verify prunes id at_ = .ok s') (hg : s.Verified verify g) :
    s.Lost s' g ↔ s.Drops prunes id g := by
  obtain ⟨-, rfl⟩ := activateGeneration_ok_iff.mp h
  obtain ⟨tree, htree⟩ := read_of_verified hg
  have hnames : ∀ trees : Directory γ, Names ⟨some ⟨some id, s.nextPrevious id, some at_, false⟩,
      trees⟩ g ↔ g = id ∨ s.nextPrevious id = some g := by
    intro trees
    simp only [Names, current, Option.getD_some, Option.some.injEq, eq_comm]
  have hread : (if prunes then
      pruneGenerations ⟨some id, s.nextPrevious id, some at_, false⟩ s.trees
      else s.trees).read g = none ↔ prunes = true ∧ ¬ (g = id ∨ s.nextPrevious id = some g) := by
    cases prunes with
    | false => simp [htree]
    | true =>
        simp only [if_true, pruneGenerations, Directory.read_keep, htree, Bool.or_eq_true,
          decide_eq_true_eq, Option.some.injEq, @eq_comm _ id g, true_and]
        split_ifs with hkeep
        · simp [hkeep]
        · simp [hkeep]
  rw [Lost, hnames, hread, Drops, htree]
  have hsome : (some tree : Option γ) ≠ none := Option.some_ne_none _
  tauto

/-- What an activation records as previous verifies after it exactly when it did before. -/
theorem verified_nextPrevious {prunes : Bool} {s s' : Generations γ} {id at_ p : String}
    (h : s.activateGeneration verify prunes id at_ = .ok s') (hp : s.nextPrevious id = some p) :
    s'.Verified verify p ↔ s.Verified verify p := by
  obtain ⟨-, rfl⟩ := activateGeneration_ok_iff.mp h
  have hread : (if prunes then
      pruneGenerations ⟨some id, s.nextPrevious id, some at_, false⟩ s.trees
      else s.trees).read p = s.trees.read p := by
    cases prunes with
    | false => rfl
    | true => simp [pruneGenerations, Directory.read_keep, hp]
  rw [Verified, Verified, inspect_congr hread]

/-- **The activation lemma**: an activation prefers what verifies exactly when it is safe. -/
theorem prefersVerified_activate_iff {prunes : Bool} {s s' : Generations γ} {id at_ : String}
    (h : s.activateGeneration verify prunes id at_ = .ok s') :
    s.PrefersVerified verify s' ↔
      (∀ p, s.nextPrevious id = some p → s.Verified verify p) ∨
        ∀ g, s.Verified verify g → ¬ s.Drops prunes id g := by
  have hprevious : s'.current.previousGenerationId = s.nextPrevious id := by
    obtain ⟨-, rfl⟩ := activateGeneration_ok_iff.mp h
    rfl
  constructor
  · intro hprefers
    by_cases hdrop : ∃ g, s.Verified verify g ∧ s.Drops prunes id g
    · obtain ⟨g, hg, hdrop⟩ := hdrop
      exact .inl fun p hp => (verified_nextPrevious h hp).mp
        (hprefers g hg ((lost_activate_iff h hg).mpr hdrop) p (hprevious.trans hp))
    · exact .inr fun g hg hd => hdrop ⟨g, hg, hd⟩
  · rintro (hstands | hnone) g hg hlost p hp
    · have hp : s.nextPrevious id = some p := hprevious.symm.trans hp
      exact (verified_nextPrevious h hp).mpr (hstands p hp)
    · exact absurd ((lost_activate_iff h hg).mp hlost) (hnone g hg)

/-- A recorded previous generation that verifies is within reach. -/
theorem withinReach_of_previous {s : Generations γ} {active g : String} (hne : g ≠ active)
    (hactive : s.current.activeGenerationId = some active)
    (hprevious : s.current.previousGenerationId = some g) (hg : s.Verified verify g) :
    s.WithinReach verify active g where
  rollback := by
    intro at_
    refine ⟨_, rollback_ok_iff.mpr ⟨g, hprevious, hg, rfl⟩, ?_⟩
    have hsame : Generations.inspect verify
        ⟨some ⟨some g, s.current.activeGenerationId, some at_, true⟩, s.trees⟩ g = .verified := hg
    simp only [activeGeneration, firstVerified, hsame]
  fallback := by
    intro tree hrefused
    have hread : (s.corrupt active tree).trees.read g = s.trees.read g := by
      cases tree with
      | none => exact Directory.read_remove_ne hne _
      | some tree => exact Directory.read_write_ne hne _ _
    cases hpointer : s.pointer with
    | none =>
        rw [current, hpointer] at hactive
        exact absurd hactive.symm (Option.some_ne_none active)
    | some p =>
        rw [current, hpointer, Option.getD_some] at hactive hprevious
        exact activeGeneration_fallback (s := s.corrupt active tree) hpointer
          (fun a ha => Option.some.inj (hactive.symm.trans ha) ▸ hrefused) hprevious
          ((inspect_congr hread).trans hg)

/-- A safe activation leaves a served fallback within reach. -/
theorem withinReach_of_safe {prunes : Bool} {s s' : Generations γ} {id at_ g : String}
    (h : s.activateGeneration verify prunes id at_ = .ok s')
    (hsafe : (∀ p, s.nextPrevious id = some p → s.Verified verify p) ∨
      ∀ g, s.Verified verify g → ¬ s.Drops prunes id g)
    (hserved : s.activeGeneration verify = .ok (some (g, true))) (hne : g ≠ id) :
    s'.WithinReach verify id g := by
  obtain ⟨hrefused, hprevious, hg⟩ := of_activeGeneration_fallback hserved
  have hid := (activateGeneration_ok_iff.mp h).1
  cases hactive : s.current.activeGenerationId with
  | some a =>
      -- The recorded active generation was refused, so it becomes the previous one and `g` is lost.
      exfalso
      have ha : s.inspect verify a = .refused := hrefused a hactive
      have hane : a ≠ id := fun heq => by
        rw [heq, hid] at ha
        cases ha
      have hnext : s.nextPrevious id = some a := by simp [nextPrevious, hactive, hane]
      rcases hsafe with hstands | hnone
      · have := hstands a hnext
        rw [Verified, ha] at this
        cases this
      · refine hnone g hg ⟨hne, fun heq => ?_, .inl (.inr hprevious)⟩
        rw [hnext, Option.some.injEq] at heq
        rw [← heq, ha] at hg
        cases hg
  | none =>
      have hnext : s.nextPrevious id = some g := by simp [nextPrevious, hactive, hprevious]
      have hverified := (verified_nextPrevious h hnext).mpr hg
      obtain ⟨-, rfl⟩ := activateGeneration_ok_iff.mp h
      exact withinReach_of_previous hne rfl hnext hverified

/-- Nothing is lost where the pointer's ids and the directories stay. -/
theorem prefersVerified_of_not_lost {s s' : Generations γ} (h : ∀ g, ¬ s.Lost s' g) :
    s.PrefersVerified verify s' := fun g _ hlost => absurd hlost (h g)

theorem prefersVerified_install (s : Generations γ) (id : String) (staged : γ) :
    s.PrefersVerified verify (s.installGeneration verify id staged).1 := by
  refine prefersVerified_of_not_lost fun g => ?_
  unfold installGeneration
  split_ifs
  · cases hread : s.trees.read id with
    | some _ => simp [Lost]
    | none =>
        rintro (⟨hbefore, hafter⟩ | ⟨hgone, hthere⟩)
        · exact hafter hbefore
        · by_cases hg : g = id
          · exact hthere (hg ▸ hread)
          · exact hthere ((Directory.read_write_ne hg _ _).symm.trans hgone)
  · simp [Lost]

theorem prefersVerified_rollback {s s' : Generations γ} {at_ : String}
    (h : s.rollback verify at_ = .ok s') : s.PrefersVerified verify s' := by
  obtain ⟨previous, hprevious, -, rfl⟩ := rollback_ok_iff.mp h
  refine prefersVerified_of_not_lost fun g => ?_
  have hnames : Names
      ⟨some ⟨some previous, s.current.activeGenerationId, some at_, true⟩, s.trees⟩ g ↔
        s.Names g := by
    rw [Names, Names, hprevious]
    exact or_comm
  rintro (⟨hbefore, hafter⟩ | ⟨hgone, hthere⟩)
  · exact hafter (hnames.mpr hbefore)
  · exact hthere hgone

/-- **The step lemma**: an action keeps the last known good generation exactly when it is safe. -/
theorem keeps_iff_safe (prunes : Bool) (s : Generations γ) (a : GenerationAction γ) :
    s.Keeps verify prunes a ↔ s.Safe verify prunes a := by
  cases a with
  | install id staged => exact iff_of_true (prefersVerified_install s id staged) trivial
  | corrupt id tree => exact Iff.rfl
  | rollback at_ => exact iff_of_true (fun _ h => prefersVerified_rollback h) trivial
  | activate id at_ =>
      constructor
      · intro hkeeps hid
        have h := (@activateGeneration_ok_iff _ verify prunes s _ id at_).mpr ⟨hid, rfl⟩
        exact (prefersVerified_activate_iff h).mp (hkeeps _ h).2
      · intro hsafe s' h
        have hsafe := hsafe (activateGeneration_ok_iff.mp h).1
        exact ⟨fun g hserved hne => withinReach_of_safe h hsafe hserved hne,
          (prefersVerified_activate_iff h).mpr hsafe⟩

end Generations

/-- **The last known good generation survives** every step of a run exactly when every activation of
the run is safe. -/
theorem lastKnownGood_survives_iff (prunes : Bool) (s : Generations γ)
    (actions : List (GenerationAction γ)) :
    RunAllowed (Generations.Keeps verify prunes) (Generations.step verify prunes) s actions ↔
      RunAllowed (Generations.Safe verify prunes) (Generations.step verify prunes) s actions := by
  exact @RunAllowed.congr _ _ _ _ _ (fun _ => True)
    (fun s a _ => Generations.keeps_iff_safe prunes s a) (fun _ _ _ _ => trivial) s trivial actions

/-- A verifier that looks for the id a directory was sealed under. -/
def sealedUnder (id : String) (tree : Char) : Verdict :=
  if id.toList[2]? = some tree then .verified else .refused

/-- A generation id. -/
def generationId (c : Char) : String := String.ofList ('g' :: '_' :: List.replicate 64 c)

/-- Two generations are activated, the active one is corrupted, and a third is activated. -/
def lostRun : List (GenerationAction Char) :=
  [.install (generationId 'a') 'a', .activate (generationId 'a') "2026-07-15T00:00:00Z",
    .install (generationId 'b') 'b', .activate (generationId 'b') "2026-07-15T01:00:00Z",
    .corrupt (generationId 'b') (some 'x'), .install (generationId 'c') 'c',
    .activate (generationId 'c') "2026-07-15T02:00:00Z"]

/-- The activation records the corrupt generation as the previous one, and the fallback that was
served is out of reach. -/
theorem lastKnownGood_lost :
    ¬ RunAllowed (Generations.Keeps sealedUnder false) (Generations.step sealedUnder false) .empty
        lostRun ∧
      ¬ RunAllowed (Generations.Keeps sealedUnder true) (Generations.step sealedUnder true) .empty
        lostRun := by
  have hserved : ∀ prunes : Bool, Generations.activeGeneration sealedUnder
      ((lostRun.take 6).foldl (Generations.step sealedUnder prunes) .empty) =
        .ok (some (generationId 'a', true)) := by decide +kernel
  have hfails : ∀ prunes : Bool, (((Generations.activateGeneration sealedUnder prunes
      ((lostRun.take 6).foldl (Generations.step sealedUnder prunes) .empty) (generationId 'c')
        "2026-07-15T02:00:00Z").toOption.map fun s =>
          (s.rollback sealedUnder "2026-07-15T03:00:00Z").toOption.isNone) = some true) := by
    decide +kernel
  have hlost : ∀ prunes : Bool, ¬ RunAllowed (Generations.Keeps sealedUnder prunes)
      (Generations.step sealedUnder prunes) .empty lostRun := by
    intro prunes h
    obtain ⟨s', hactivate, hrollback⟩ := Option.map_eq_some_iff.mp (hfails prunes)
    obtain ⟨hreach, -⟩ := h.2.2.2.2.2.2.1 s' (Golavo.Lib.toOption_eq_some.mp hactivate)
    obtain ⟨r, hr, -⟩ := (hreach _ (hserved prunes) (by decide +kernel)).rollback
      "2026-07-15T03:00:00Z"
    rw [hr] at hrollback
    exact Bool.false_ne_true hrollback
  exact ⟨hlost false, hlost true⟩

end Golavo.Refresh
