import Golavo.Refresh.Receipts

/-! # No silent gap

In every run whose steps keep the marker of a change that has no receipt, the last change of the
pointer has a receipt or a gap is reported, at every step and wherever the run stops. A rollback
that fails after an activation without a receipt is the run where that goes wrong: it writes its
marker over the activation's, and takes it back. -/

namespace Golavo.Refresh

open Golavo.Lib (Reaches RunAllowed orFail bind_ok_iff check_bind_ok_iff orFail_ok_iff)

variable {γ : Type} {verify : String → γ → Verdict}

/-! ## Reports -/

/-- A marker names the active generation, and no receipt names its change. -/
def Reports (marker : Option Marker) (pointer : Option Pointer) (receipts : List Receipt) : Prop :=
  ∃ m p, marker = some m ∧ pointer = some p ∧
    p.activeGenerationId = some m.change.activeGenerationId ∧ ∀ r ∈ receipts, r.change ≠ m.change

theorem isSome_gap_iff {marker : Option Marker} {pointer : Option Pointer}
    {receipts : List Receipt} :
    (applicationReceiptGap marker pointer receipts false).isSome = true ↔
      Reports marker pointer receipts := by
  unfold Reports applicationReceiptGap
  cases marker with
  | none => simp [applicationReceiptGap.tail]
  | some m =>
      cases pointer with
      | none => simp [markerTargetsActive, applicationReceiptGap.tail]
      | some p =>
          by_cases hactive : p.activeGenerationId = some m.change.activeGenerationId
          · have hany : receipts.any (·.change = m.change) = true ↔
                ∃ r ∈ receipts, r.change = m.change := by simp
            by_cases hnamed : ∃ r ∈ receipts, r.change = m.change
            · simp only [markerTargetsActive, hactive, decide_true, if_true, hany.mpr hnamed]
              simpa [hactive] using hnamed
            · simp only [markerTargetsActive, hactive, decide_true, if_true, mt hany.mp hnamed]
              simpa [hactive] using hnamed
          · simp [markerTargetsActive, hactive, applicationReceiptGap.tail]

theorem mem_of_mem_listReceipts {receipts : List Receipt} {limit : Nat} {r : Receipt}
    (h : r ∈ listReceipts receipts limit) : r ∈ receipts :=
  List.mem_of_mem_drop (List.mem_reverse.mp h)

/-- A marker reports its change's generation whichever change of the same name it came from. -/
theorem Reports.congr {marker marker' : Option Marker} {pointer : Option Pointer}
    {receipts : List Receipt} (hsame : marker'.map Marker.change = marker.map Marker.change)
    (h : Reports marker pointer receipts) : Reports marker' pointer receipts := by
  obtain ⟨m, p, rfl, hp, hactive, hnone⟩ := h
  obtain ⟨m', rfl, hm'⟩ := Option.map_eq_some_iff.mp hsame
  exact ⟨m', p, rfl, hp, hm' ▸ hactive, hm' ▸ hnone⟩

namespace ReceiptSystem

/-- **A change is accounted for** by its receipt or by the marker. -/
theorem accounted_iff {s : ReceiptSystem γ} :
    s.Accounted ↔ s.Receipted ∨ Reports s.marker s.generations.pointer s.receipts := by
  refine or_congr_right ⟨fun h => ?_, fun h limit => isSome_gap_iff.mpr ?_⟩
  · obtain ⟨m, p, hm, hp, hactive, hnone⟩ := isSome_gap_iff.mp (h s.receipts.length)
    refine ⟨m, p, hm, hp, hactive, fun r hr => hnone r ?_⟩
    simpa [listReceipts] using hr
  · obtain ⟨m, p, hm, hp, hactive, hnone⟩ := h
    exact ⟨m, p, hm, hp, hactive, fun r hr => hnone r (mem_of_mem_listReceipts hr)⟩

/-! ## The invariant -/

/-- The pointer is the outcome of a change. -/
def Changed (s : ReceiptSystem γ) (change : Change) : Prop :=
  ∃ p, s.generations.pointer = some p ∧ p.change = some change

/-- The change of a pointer names its active generation. -/
theorem active_of_change {p : Pointer} {change : Change} (h : p.change = some change) :
    p.activeGenerationId = some change.activeGenerationId := by
  obtain ⟨active, hactive, h⟩ := Option.bind_eq_some_iff.mp h
  obtain ⟨at_, -, h⟩ := Option.bind_eq_some_iff.mp h
  rw [hactive, ← Option.some.inj h]

/-- A change the pointer is the outcome of is accounted for by any marker of it. -/
theorem accounted_of_changed {s : ReceiptSystem γ} {change : Change} (h : s.Changed change)
    (hmarker : s.marker.map Marker.change = some change) : s.Accounted := by
  obtain ⟨p, hp, hchange⟩ := h
  obtain ⟨m, hm, rfl⟩ := Option.map_eq_some_iff.mp hmarker
  rw [accounted_iff]
  by_cases hreceipt : ∃ r ∈ s.receipts, r.change = m.change
  · obtain ⟨r, hr, heq⟩ := hreceipt
    refine .inl fun q hq => ⟨r, hr, ?_⟩
    rw [← Option.some.inj (hp.symm.trans hq), hchange, heq]
  · push Not at hreceipt
    exact .inr ⟨m, p, hm, hp, active_of_change hchange, hreceipt⟩

/-- A receipt of the change the pointer is the outcome of. -/
theorem receipted_of_changed {s : ReceiptSystem γ} {change : Change} (h : s.Changed change)
    {r : Receipt} (hr : r ∈ s.receipts) (hchange : r.change = change) : s.Receipted := by
  obtain ⟨p, hp, hp'⟩ := h
  intro q hq
  exact ⟨r, hr, by rw [← Option.some.inj (hp.symm.trans hq), hp', hchange]⟩

/-- What the holder of the lock relies on: its marker until the swap, the pointer after it. -/
def HolderOk (s : ReceiptSystem γ) (own : Marker) : Stage → Prop
  | .marked => s.marker.map Marker.change = some own.change ∧
      (own.change.operation = .rollback →
        s.generations.current.previousGenerationId = some own.change.activeGenerationId)
  | .swapped => s.Changed own.change
  | .finishing (some _) => s.Changed own.change
  | .finishing none => True
  | .saving (some m) => s.Changed own.change ∧ m.change = own.change
  | .saving none => True

/-- What the holder relies on is about the pointer, and about the marker until the swap. -/
theorem HolderOk.congr {s s' : ReceiptSystem γ} {own : Marker} {stage : Stage}
    (h : s.HolderOk own stage) (hpointer : s'.generations.pointer = s.generations.pointer)
    (hmarker : stage = .marked → s'.marker.map Marker.change = s.marker.map Marker.change) :
    s'.HolderOk own stage := by
  have hchanged : ∀ change, s.Changed change → s'.Changed change := by
    rintro change ⟨p, hp, hchange⟩
    exact ⟨p, hpointer.trans hp, hchange⟩
  cases stage with
  | marked =>
      have hcurrent : s'.generations.current = s.generations.current :=
        congrArg (·.getD .absent) hpointer
      exact ⟨(hmarker rfl).trans h.1, fun hback => hcurrent ▸ h.2 hback⟩
  | swapped => exact hchanged _ h
  | finishing error =>
      cases error with
      | none => trivial
      | some message => exact hchanged _ h
  | saving marker =>
      cases marker with
      | none => trivial
      | some m => exact ⟨hchanged _ h.1, h.2⟩

/-- What holds throughout. -/
structure InOrder (s : ReceiptSystem γ) : Prop where
  accounted : s.Accounted
  holder : ∀ own stage, s.holder = some ⟨own, stage⟩ → s.HolderOk own stage

/-- What the invariant is about: the pointer, the receipts, the marker and the holder. -/
theorem InOrder.congr {s s' : ReceiptSystem γ} (h : s.InOrder)
    (hpointer : s'.generations.pointer = s.generations.pointer) (hreceipts : s'.receipts = s.receipts)
    (hmarker : s'.marker = s.marker)
    (hholder : ∀ own stage, s'.holder = some ⟨own, stage⟩ → s'.HolderOk own stage) :
    s'.InOrder := by
  refine ⟨?_, hholder⟩
  have haccounted := accounted_iff.mp h.accounted
  rw [accounted_iff, Receipted, hpointer, hreceipts, hmarker]
  exact haccounted

/-! ## What each step keeps -/

/-- What a swap leaves: the pointer is the outcome of the change. -/
theorem changePointer_ok {s : ReceiptSystem γ} {change : Change} {g : Generations γ}
    (h : s.changePointer verify change = .ok g)
    (hback : change.operation = .rollback →
      s.generations.current.previousGenerationId = some change.activeGenerationId) :
    ∃ p, g.pointer = some p ∧ p.change = some change := by
  obtain ⟨operation, id, at_⟩ := change
  cases operation with
  | refreshActivation =>
      obtain ⟨-, h⟩ := check_bind_ok_iff.mp h
      exact ⟨_, congrArg Generations.pointer (Except.ok.inj h).symm, rfl⟩
  | rollback =>
      obtain ⟨previous, hprevious, h⟩ := bind_ok_iff.mp h
      obtain ⟨-, h⟩ := check_bind_ok_iff.mp h
      obtain rfl := Option.some.inj ((orFail_ok_iff.mp hprevious).symm.trans (hback rfl))
      exact ⟨_, congrArg Generations.pointer (Except.ok.inj h).symm, rfl⟩

theorem inOrder_mark {s : ReceiptSystem γ} {marker : Marker}
    (hmay : s.MayMark marker.change)
    (hback : marker.change.operation = .rollback →
      s.generations.current.previousGenerationId = some marker.change.activeGenerationId) :
    (s.mark marker).InOrder := by
  refine ⟨accounted_iff.mpr ?_, ?_⟩
  · refine hmay.imp id ?_
    rintro ⟨hactive, hnone⟩
    cases hpointer : s.generations.pointer with
    | none => simp [Generations.current, hpointer, Pointer.absent] at hactive
    | some p =>
        refine ⟨marker, p, rfl, hpointer, ?_, hnone⟩
        simpa [Generations.current, hpointer] using hactive
  · intro own stage hholder
    obtain ⟨rfl, rfl⟩ := Holder.mk.inj (Option.some.inj hholder)
    exact ⟨rfl, hback⟩

theorem InOrder.swap {s : ReceiptSystem γ} (h : s.InOrder) :
    (s.step verify .swap).InOrder := by
  simp only [step]
  split
  · rename_i own hholder
    obtain ⟨hmarker, hback⟩ := h.holder own .marked hholder
    split
    · rename_i g hg
      have hchanged := changePointer_ok hg hback
      refine ⟨@accounted_of_changed _ _ own.change hchanged hmarker, ?_⟩
      intro own' stage hown
      obtain ⟨rfl, rfl⟩ := Holder.mk.inj (Option.some.inj hown)
      exact hchanged
    · refine h.congr rfl rfl rfl fun own' stage hown => ?_
      obtain ⟨rfl, rfl⟩ := Holder.mk.inj (Option.some.inj hown)
      trivial
  · exact h

theorem InOrder.swapFails {s : ReceiptSystem γ} (h : s.InOrder) :
    (s.step verify .swapFails).InOrder := by
  simp only [step]
  split
  · refine h.congr rfl rfl rfl fun own' stage hown => ?_
    obtain ⟨rfl, rfl⟩ := Holder.mk.inj (Option.some.inj hown)
    trivial
  · exact h

theorem InOrder.append {s : ReceiptSystem γ} (h : s.InOrder) (outcome : AppendOutcome) :
    (s.step verify (.append outcome)).InOrder := by
  simp only [step]
  split
  · rename_i own hholder
    have hchanged : s.Changed own.change := h.holder own .swapped hholder
    have hrecorded : ∀ holder : Option Holder, ({ s with
        receipts := s.receipts ++ [⟨own.change, s.generations.current.previousGenerationId⟩]
        holder := holder } : ReceiptSystem γ).Accounted := fun holder =>
      .inl (@receipted_of_changed _ _ own.change hchanged _
        (List.mem_append_right _ List.mem_cons_self) rfl)
    cases outcome with
    | recorded =>
        refine ⟨hrecorded _, fun own' stage hown => ?_⟩
        obtain ⟨rfl, rfl⟩ := Holder.mk.inj (Option.some.inj hown)
        trivial
    | failed message =>
        refine h.congr rfl rfl rfl fun own' stage hown => ?_
        obtain ⟨rfl, rfl⟩ := Holder.mk.inj (Option.some.inj hown)
        exact hchanged
    | recordedButFailed message =>
        refine ⟨hrecorded _, fun own' stage hown => ?_⟩
        obtain ⟨rfl, rfl⟩ := Holder.mk.inj (Option.some.inj hown)
        exact hchanged
  · exact h

/-- What is saved over a marker that is found: nothing, or that marker with the error. -/
theorem finishReceiptMarker_eq_some {own m : Marker} {error : Option String}
    {current : Option Marker} (h : finishReceiptMarker own error current = some (some m)) :
    m.change = own.change ∧ error.isSome = true := by
  unfold finishReceiptMarker at h
  split at h
  · cases h
  · rename_i found
    split_ifs at h with hsame
    obtain ⟨message, rfl, rfl⟩ := Option.map_eq_some_iff.mp (Option.some.inj h)
    exact ⟨hsame, rfl⟩

theorem InOrder.look {s : ReceiptSystem γ} (h : s.InOrder) : (s.step verify .look).InOrder := by
  simp only [step]
  split
  · rename_i own error hholder
    refine h.congr rfl rfl rfl fun own' stage hown => ?_
    obtain ⟨marker, hfound, heq⟩ := Option.map_eq_some_iff.mp hown
    obtain ⟨rfl, rfl⟩ := Holder.mk.inj heq
    cases marker with
    | none => trivial
    | some m =>
        obtain ⟨hsame, herror⟩ := finishReceiptMarker_eq_some hfound
        obtain ⟨message, rfl⟩ := Option.isSome_iff_exists.mp herror
        exact ⟨h.holder own _ hholder, hsame⟩
  · exact h

theorem InOrder.settle {s : ReceiptSystem γ} (h : s.InOrder)
    (hfits : s.KeepsGap .settle) : (s.step verify .settle).InOrder := by
  simp only [step]
  split
  · rename_i own marker hholder
    refine ⟨?_, nofun⟩
    cases marker with
    | none => exact .inl (hfits ⟨own, hholder⟩)
    | some m =>
        obtain ⟨hchanged, hsame⟩ := h.holder own _ hholder
        exact @accounted_of_changed _ _ own.change hchanged (congrArg some hsame)
  · exact h

theorem InOrder.save {s : ReceiptSystem γ} (h : s.InOrder) {i : Nat}
    (hfits : s.KeepsGap (.save i)) : (s.step verify (.save i)).InOrder := by
  simp only [step]
  split
  · rename_i copy hcopy
    rcases hfits copy hcopy with hsame | ⟨hreceipted, hidle⟩
    · refine ⟨accounted_iff.mpr ((accounted_iff.mp h.accounted).imp id (Reports.congr hsame)), ?_⟩
      exact fun own stage hown => (h.holder own stage hown).congr rfl fun _ => hsame
    · refine ⟨.inl hreceipted, fun own stage hown => ?_⟩
      refine (h.holder own stage hown).congr rfl fun hmarked => ?_
      subst hmarked
      exact absurd ⟨own, .inl hown⟩ hidle
  · exact h

/-- Directories come and go without the pointer. -/
theorem InOrder.trees {s : ReceiptSystem γ} (h : s.InOrder) {g : Generations γ}
    (hpointer : g.pointer = s.generations.pointer) : ({ s with generations := g }).InOrder := by
  exact h.congr hpointer rfl rfl fun own stage hown =>
    (h.holder own stage hown).congr hpointer fun _ => rfl

/-- **A step that keeps the gap keeps the system in order.** -/
theorem InOrder.step {s : ReceiptSystem γ} (h : s.InOrder) {a : ReceiptAction γ}
    (hfits : s.KeepsGap a) : (s.step verify a).InOrder := by
  cases a with
  | install id staged =>
      refine h.trees ?_
      unfold Generations.installGeneration
      split
      · split <;> rfl
      · rfl
  | corrupt id tree => exact h.trees rfl
  | activate id activatedAtUtc jobId =>
      cases hholder : s.holder with
      | some holder => simpa only [ReceiptSystem.step, hholder] using h
      | none =>
          simp only [ReceiptSystem.step, hholder]
          exact inOrder_mark (hfits hholder) nofun
  | rollback activatedAtUtc =>
      cases hholder : s.holder with
      | some holder => simpa only [ReceiptSystem.step, hholder] using h
      | none =>
          cases htarget : s.generations.current.previousGenerationId with
          | none => simpa only [ReceiptSystem.step, hholder, htarget] using h
          | some target =>
              simp only [ReceiptSystem.step, hholder, htarget]
              exact inOrder_mark (hfits target hholder htarget) fun _ => htarget
  | swap => exact h.swap
  | swapFails => exact h.swapFails
  | append outcome => exact h.append outcome
  | look => exact h.look
  | settle => exact h.settle hfits
  | abort => exact h.congr rfl rfl rfl nofun
  | load => exact h.congr rfl rfl rfl fun own stage hown =>
      (h.holder own stage hown).congr rfl fun _ => rfl
  | save i => exact h.save hfits
  | drop i => exact h.congr rfl rfl rfl fun own stage hown =>
      (h.holder own stage hown).congr rfl fun _ => rfl

/-! ## Every run -/

/-- **No receipt is silently missing** in a run whose steps keep the gap: at every step, wherever it
stops, the last change of the pointer has a receipt or a gap is reported. -/
theorem accounted_of_keepsGap (verify : String → γ → Verdict) {s : ReceiptSystem γ}
    (h : Reaches Quiet KeepsGap (ReceiptSystem.step verify) s) : s.Accounted := by
  have hinOrder : s.InOrder := by
    refine h.invariant (fun s hs => ⟨hs.1, fun own stage hown => ?_⟩)
      fun s a hs hfits => hs.step hfits
    rw [hs.2.1] at hown
    cases hown
  exact hinOrder.accounted

/-! ## A rollback that fails -/

/-- A tree is as it was installed, or not. -/
def intact (_ : String) (tree : Bool) : Verdict := if tree then .verified else .refused

/-- A generation of a letter. -/
def idOf (c : Char) : String := String.ofList ('g' :: '_' :: List.replicate 64 c)

/-- A generation is activated with its receipt, and a second one without. -/
def activations : List (ReceiptAction Bool) :=
  [.install (idOf 'a') true, .activate (idOf 'a') "2026-07-15T00:00:00Z" none, .swap,
    .append .recorded, .look, .settle,
    .install (idOf 'b') true, .activate (idOf 'b') "2026-07-15T01:00:00Z" none, .swap,
    .append (.failed "No space left on device"), .look, .settle]

/-- The first generation's bytes change, and a rollback to it fails. -/
def failingRollback : List (ReceiptAction Bool) :=
  [.corrupt (idOf 'a') (some false), .rollback "2026-07-15T02:00:00Z", .swap, .look, .settle]

/-- The system after some actions. -/
def after (actions : List (ReceiptAction Bool)) : ReceiptSystem Bool :=
  actions.foldl (ReceiptSystem.step intact) fresh

theorem reaches_after (actions : List (ReceiptAction Bool)) :
    Reaches (· = fresh) (fun _ _ => True) (ReceiptSystem.step intact) (after actions) := by
  refine Reaches.run (.start rfl) ?_
  generalize (fresh : ReceiptSystem Bool) = s
  induction actions generalizing s with
  | nil => trivial
  | cons a rest ih => exact ⟨trivial, ih _⟩

/-- **A failed rollback hides a gap**: the second activation has no receipt, which is reported until
a rollback fails; then nothing reports it. -/
theorem failed_rollback_hides_gap : ∃ s, Reaches (· = fresh) (fun _ _ => True)
    (ReceiptSystem.step intact) s ∧ ¬ s.Accounted := by
  refine ⟨after (activations ++ failingRollback), reaches_after _, fun h => ?_⟩
  have hmarker : (after (activations ++ failingRollback)).marker = none := by decide +kernel
  have hpointer : (after (activations ++ failingRollback)).generations.pointer =
      some ⟨some (idOf 'b'), some (idOf 'a'), some "2026-07-15T01:00:00Z", false⟩ := by
    decide +kernel
  have hreceipts : (after (activations ++ failingRollback)).receipts =
      [⟨⟨.refreshActivation, idOf 'a', "2026-07-15T00:00:00Z"⟩, none⟩] := by decide +kernel
  rcases accounted_iff.mp h with hreceipted | ⟨m, p, hm, -⟩
  · obtain ⟨r, hr, hchange⟩ := hreceipted _ hpointer
    rw [hreceipts, List.mem_singleton] at hr
    subst hr
    revert hchange
    decide +kernel
  · rw [hmarker] at hm
    cases hm

/-- A system whose last change is among its receipts. -/
theorem receipted_of_mem {s : ReceiptSystem γ} {change : Change}
    (hpointer : s.generations.pointer.bind Pointer.change = some change)
    (hmem : change ∈ s.receipts.map Receipt.change) : s.Receipted := by
  obtain ⟨p, hp, hchange⟩ := Option.bind_eq_some_iff.mp hpointer
  obtain ⟨r, hr, hr'⟩ := List.mem_map.mp hmem
  exact receipted_of_changed ⟨p, hp, hchange⟩ hr hr'

/-- The two activations alone are accounted for, the second by its gap. -/
theorem accounted_activations : (after activations).Accounted ∧
    ¬ (after activations).Receipted := by
  have hfirst : ∀ n, n = 5 ∨ n = 7 → (after (activations.take n)).Receipted := by
    rintro n (rfl | rfl) <;>
      exact @receipted_of_mem _ _ ⟨.refreshActivation, idOf 'a', "2026-07-15T00:00:00Z"⟩
        (by decide +kernel) (by decide +kernel)
  have hlast : (after (activations.take 11)).holder.map Holder.stage ≠ some (.saving none) := by
    decide +kernel
  have hrun : Reaches Quiet KeepsGap (ReceiptSystem.step intact) (after activations) :=
    Reaches.run (.start ⟨.inl nofun, rfl, rfl⟩) ⟨trivial, fun _ => .inl nofun, trivial, trivial,
      trivial, fun _ => hfirst 5 (.inl rfl), trivial, fun _ => .inl (hfirst 7 (.inr rfl)), trivial,
      trivial, trivial, fun ⟨_, hown⟩ => absurd (congrArg (Option.map Holder.stage) hown) hlast,
      trivial⟩
  refine ⟨accounted_of_keepsGap intact hrun, ?_⟩
  · intro h
    have hpointer : (after activations).generations.pointer =
        some ⟨some (idOf 'b'), some (idOf 'a'), some "2026-07-15T01:00:00Z", false⟩ := by
      decide +kernel
    obtain ⟨r, hr, hchange⟩ := h _ hpointer
    have hreceipts : (after activations).receipts =
        [⟨⟨.refreshActivation, idOf 'a', "2026-07-15T00:00:00Z"⟩, none⟩] := by decide +kernel
    rw [hreceipts, List.mem_singleton] at hr
    subst hr
    revert hchange
    decide +kernel

end ReceiptSystem

end Golavo.Refresh
