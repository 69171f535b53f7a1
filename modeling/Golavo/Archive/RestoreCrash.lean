import Golavo.Archive.Restore

/-! # Interrupted restores

Wherever a restore or a recovery is stopped, the disk **leads to** one ledger: the one that the next
recovery to finish leaves, however often recoveries are stopped before. Until a restore commits that is
the ledger it found, and from then on the one with the archive's files. -/

namespace Golavo.Archive

open Golavo.Lib (Json Directory FsCall killedAfter completed Throughout Atomic orFail failIf
  orFail_ok_iff failIf_ok_iff bind_ok_iff)
open Golavo.Ledger (itemsOf)

variable {host : Host} {sweep : Sweep} {target : Directory Bytes} {d : Disk} {t : Transaction}

theorem quietCall_effect : quietCall.effect = id := rfl

/-- An atomic write shows all of its change or none. -/
theorem atomic_atomicCalls (replace : Disk → Disk) : Atomic replace (atomicCalls replace) :=
  Lib.atomic_of_quiet (a := [quietCall, quietCall, quietCall, quietCall]) (b := [quietCall])
    (by simp [quietCall_effect]) (by simp [quietCall_effect]) ⟨replace, []⟩

/-! ## Clearing away -/

/-- A ledger that nothing is to be undone in. -/
def Resting (target : Directory Bytes) (d : Disk) : Prop :=
  d.ledger = target ∧ ∀ t ∈ d.transaction, ∀ document ∈ t.journal,
    ∃ journal phase entries, readJournal document = .ok (journal, phase, entries) ∧
      phase ≠ .applying

theorem completed_edits (edits : List (Transaction → Transaction)) (d : Disk) :
    ∃ t, completed (edits.map fun f => ⟨Disk.editTransaction f, []⟩) d =
      { d with transaction := t } := by
  induction edits generalizing d with
  | nil => exact ⟨d.transaction, rfl⟩
  | cons f rest ih =>
      obtain ⟨t, ht⟩ := ih (d.editTransaction f)
      refine ⟨t, ?_⟩
      rw [List.map_cons, Lib.completed_cons, ht]
      rfl

/-- **Clearing away takes the whole transaction.** -/
theorem completed_sweepCalls (sweep : Sweep) (t : Transaction) (d : Disk) :
    completed (sweepCalls sweep t) d = { d with transaction := none } := by
  obtain ⟨t', ht⟩ := completed_edits ((sweep.order t).map fun l t => l.removed t) d
  rw [List.map_map] at ht
  have hedits : completed ((sweep.order t).map fun leftover =>
      ⟨Disk.editTransaction (leftover.removed ·), []⟩) d = { d with transaction := t' } := ht
  rw [sweepCalls, Lib.completed_append, hedits]
  rfl

theorem Resting.removed (h : Resting target d) (leftover : Leftover) :
    Resting target (d.editTransaction (leftover.removed ·)) := by
  refine ⟨h.1, fun t ht document hdocument => ?_⟩
  obtain ⟨t', ht', rfl⟩ := Option.map_eq_some_iff.mp ht
  refine h.2 t' ht' document ?_
  cases leftover with
  | journal => cases hdocument
  | staged | kept => exact hdocument

/-- Nothing is undone while a transaction is cleared away. -/
theorem Resting.sweepCalls (h : Resting target d) (t : Transaction) :
    Throughout (Resting target) (Archive.sweepCalls sweep t) d := by
  refine fun k => Lib.killedAfter_invariant (fun call hcall s hs => ?_) k h
  rcases List.mem_append.mp hcall with hcall | hcall
  · obtain ⟨leftover, -, rfl⟩ := List.mem_map.mp hcall
    exact hs.removed leftover
  · rcases List.mem_cons.mp hcall with rfl | hcall
    · exact ⟨hs.1, fun t ht => nomatch ht⟩
    · rw [List.mem_singleton.mp hcall]
      exact hs

/-! ## Rolling back -/

/-- What a journal's entry has to say of a file for it to be undone. -/
def Undoable (t : Transaction) (target : Directory Bytes) (entry : Json) (name : String) : Prop :=
  declaredName entry = some name ∧
    ((entry.get "existed").getD .null).truthy = (target.read name).isSome ∧
      ∀ old, target.read name = some old → t.backup.read name = some old

/-- A file as it was. -/
def Disk.undone (target : Directory Bytes) (name : String) (d : Disk) : Disk :=
  match target.read name with
  | some old => d.putFile name old
  | none => d.dropFile name

@[simp] theorem Disk.undone_transaction (name : String) :
    (d.undone target name).transaction = d.transaction := by
  unfold Disk.undone
  split <;> rfl

@[simp] theorem Disk.undone_backups (name : String) : (d.undone target name).backups = d.backups := by
  unfold Disk.undone
  split <;> rfl

theorem Disk.read_undone_self (name : String) :
    (d.undone target name).ledger.read name = target.read name := by
  unfold Disk.undone
  split
  · rename_i old hold
    exact (Directory.read_write_self _ _ _).trans hold.symm
  · rename_i hnone
    exact (Directory.read_remove_self _ _).trans hnone.symm

theorem Disk.read_undone_ne {name other : String} (h : other ≠ name) :
    (d.undone target name).ledger.read other = d.ledger.read other := by
  unfold Disk.undone
  split
  · exact Directory.read_write_ne h _ _
  · exact Directory.read_remove_ne h _

theorem undoEntry_ok {entry : Json} {name : String} (h : Undoable t target entry name) :
    ∃ calls, undoEntry t entry = .ok calls ∧ Atomic (Disk.undone target name) calls := by
  obtain ⟨hname, hexisted, hkept⟩ := h
  unfold undoEntry Disk.undone
  rw [hname, hexisted]
  cases hread : target.read name with
  | some old =>
      refine ⟨atomicCalls (·.putFile name old), ?_, atomic_atomicCalls _⟩
      simp only [hkept old hread, orFail, bind, Except.bind, pure, Except.pure, Option.isSome_some,
        if_true]
  | none =>
      refine ⟨[⟨Disk.dropFile name, []⟩, quietCall], rfl, ?_⟩
      exact Lib.atomic_of_quiet (a := []) (b := [quietCall]) (by simp)
        (by simp [quietCall_effect]) ⟨Disk.dropFile name, []⟩

/-- A restore that is applying and can be undone: the files it does not name are as they were, and what
it keeps undoes the others. -/
structure Applying (target : Directory Bytes) (t : Transaction) (entries : List Json) (d : Disk) :
    Prop where
  transaction : d.transaction = some t
  undoable : ∀ entry ∈ entries, ∃ name, Undoable t target entry name
  others : ∀ name, (∀ entry ∈ entries, declaredName entry ≠ some name) →
    d.ledger.read name = target.read name

theorem Applying.undone {entries : List Json} {entry : Json} {name : String}
    (h : Applying target t entries d) (hentry : entry ∈ entries)
    (hname : declaredName entry = some name) : Applying target t entries (d.undone target name) where
  transaction := by rw [Disk.undone_transaction, h.transaction]
  undoable := h.undoable
  others := by
    intro other hother
    rw [Disk.read_undone_ne fun heq => hother entry hentry (hname.trans (congrArg some heq.symm)),
      h.others other hother]

/-- **Undoing gives back the files as they were**, and may be cut off and begun again. -/
theorem Applying.undoEntries {entries rest : List Json} (h : Applying target t entries d)
    (hsub : rest ⊆ entries) :
    (Archive.undoEntries t rest).ends = none ∧
      Throughout (Applying target t entries) (Archive.undoEntries t rest).calls d ∧
      (completed (Archive.undoEntries t rest).calls d).backups = d.backups ∧
      ∀ name, (completed (Archive.undoEntries t rest).calls d).ledger.read name =
        if ∃ entry ∈ rest, declaredName entry = some name then target.read name
        else d.ledger.read name := by
  induction rest generalizing d with
  | nil => exact ⟨rfl, Lib.throughout_nil h, rfl, fun name => (if_neg (by simp)).symm⟩
  | cons entry rest ih =>
      have hentry : entry ∈ entries := hsub List.mem_cons_self
      obtain ⟨name, hundoable⟩ := h.undoable entry hentry
      obtain ⟨calls, hcalls, hatomic⟩ := undoEntry_ok hundoable
      have hnext := h.undone hentry hundoable.1
      obtain ⟨hends, hthrough, hbackups, hread⟩ := ih hnext fun e he => hsub (List.mem_cons_of_mem _ he)
      have hcompleted := hatomic.completed d
      simp only [Archive.undoEntries, hcalls]
      refine ⟨hends, ?_, ?_, fun other => ?_⟩
      · refine (hatomic.throughout h hnext).append ?_
        rw [hcompleted]
        exact hthrough
      · rw [Lib.completed_append, hcompleted, hbackups, Disk.undone_backups]
      · rw [Lib.completed_append, hcompleted, hread other]
        by_cases hrest : ∃ e ∈ rest, declaredName e = some other
        · obtain ⟨e, he, hdeclared⟩ := hrest
          rw [if_pos ⟨e, he, hdeclared⟩, if_pos ⟨e, List.mem_cons_of_mem _ he, hdeclared⟩]
        · rw [if_neg hrest]
          by_cases hother : other = name
          · subst hother
            rw [if_pos ⟨entry, List.mem_cons_self, hundoable.1⟩, Disk.read_undone_self]
          · rw [Disk.read_undone_ne hother, if_neg]
            rintro ⟨e, he, hdeclared⟩
            rcases List.mem_cons.mp he with rfl | he
            · rw [hundoable.1] at hdeclared
              exact hother (Option.some.inj hdeclared).symm
            · exact hrest ⟨e, he, hdeclared⟩

/-! ## Recovery -/

/-- A disk from which recovery leads to a ledger. -/
def Leads (target : Directory Bytes) (d : Disk) : Prop :=
  Resting target d ∨ ∃ t document journal entries, t.journal = some document ∧
    readJournal document = .ok (journal, .applying, entries) ∧ Applying target t entries d

/-- A journal whose restore was undone says so. -/
theorem readJournal_rolledBack {document : Option Json} {journal : Json} {phase : Phase}
    {entries : List Json} (h : readJournal document = .ok (journal, phase, entries)) :
    readJournal (some (journal.set "phase" (.str Phase.rolledBack.text))) =
      .ok (journal.set "phase" (.str Phase.rolledBack.text), .rolledBack, entries) := by
  unfold readJournal at h
  obtain ⟨value, -, h⟩ := bind_ok_iff.mp h
  obtain ⟨_, hobj, h⟩ := bind_ok_iff.mp h
  obtain ⟨phase', -, h⟩ := bind_ok_iff.mp h
  obtain ⟨entries', hentries, h⟩ := bind_ok_iff.mp h
  obtain ⟨rfl, rfl, rfl⟩ : value = journal ∧ phase' = phase ∧ entries' = entries := by
    simpa [pure, Except.pure] using h
  have hobj : value.isObj = true := by simpa using failIf_ok_iff.mp hobj
  have hitems : itemsOf (value.set "phase" (.str Phase.rolledBack.text)) "files" = some entries' := by
    rw [itemsOf, Json.get_set_ne (by decide)]
    exact orFail_ok_iff.mp hentries
  have hphase : journalPhase (value.set "phase" (.str Phase.rolledBack.text)) = .ok .rolledBack := by
    rw [journalPhase, Json.get_set_self hobj]
    rfl
  simp only [readJournal, orFail, failIf, Json.isObj_set, hobj, hphase, hitems, bind, Except.bind, pure,
    Except.pure, Bool.true_eq_false, if_false]

/-- **Recovery gives back the ledger a disk leads to**, and a disk leads there wherever recovery is
stopped. -/
theorem Leads.recover (h : Leads target d) (sweep : Sweep) :
    (Archive.recover sweep d).ends = none ∧ Throughout (Leads target) (Archive.recover sweep d).calls d ∧
      completed (Archive.recover sweep d).calls d = ⟨target, none, d.backups⟩ := by
  rcases h with hrest | ⟨t, document, journal, entries, hjournal, hread, happlying⟩
  · have hclear : ∀ t, Throughout (Leads target) (sweepCalls sweep t) d ∧
        completed (sweepCalls sweep t) d = ⟨target, none, d.backups⟩ := by
      intro t
      refine ⟨fun k => .inl (hrest.sweepCalls t k), ?_⟩
      rw [completed_sweepCalls, hrest.1]
    unfold Archive.recover
    cases ht : d.transaction with
    | none =>
        refine ⟨rfl, Lib.throughout_nil (.inl hrest), ?_⟩
        obtain ⟨ledger, transaction, backups⟩ := d
        obtain rfl : transaction = none := ht
        obtain rfl : ledger = target := hrest.1
        rfl
    | some t =>
        cases hjournal : t.journal with
        | none => exact ⟨by simp only [hjournal], by simpa only [hjournal] using hclear t⟩
        | some document =>
            obtain ⟨journal, phase, entries, hread, hphase⟩ := hrest.2 t ht document hjournal
            cases phase with
            | applying => exact absurd rfl hphase
            | prepared => exact ⟨by simp only [hjournal, hread], by simpa only [hjournal, hread] using hclear t⟩
            | committed => exact ⟨by simp only [hjournal, hread], by simpa only [hjournal, hread] using hclear t⟩
            | rolledBack => exact ⟨by simp only [hjournal, hread], by simpa only [hjournal, hread] using hclear t⟩
  · obtain ⟨hends, hthrough, hbackups, hreads⟩ := happlying.undoEntries (List.Subset.refl entries)
    have hrecover : Archive.recover sweep d = rollBack sweep t journal entries := by
      simp only [Archive.recover, happlying.transaction, hjournal, hread]
    have happlied : Throughout (Leads target) (undoEntries t entries).calls d := fun k =>
      .inr ⟨t, document, journal, entries, hjournal, hread, hthrough k⟩
    have hdone := hthrough.completed
    -- all files are as they were once the last entry is undone
    have hledger : (completed (undoEntries t entries).calls d).ledger = target := by
      refine Directory.ext_read fun name => ?_
      rw [hreads name]
      split_ifs with hname
      · rfl
      · exact happlying.others name fun entry hentry heq => hname ⟨entry, hentry, heq⟩
    generalize hmid : completed (undoEntries t entries).calls d = mid at hdone hledger hbackups
    have hclosing := readJournal_rolledBack hread
    generalize hclose : journal.set "phase" (.str Phase.rolledBack.text) = closing at hclosing
    have hclosed : Resting target (mid.putJournal closing) := by
      refine ⟨hledger, fun t' ht' document' hdocument' => ?_⟩
      have ht : (mid.putJournal closing).transaction = some { t with journal := some (some closing) } := by
        rw [Disk.putJournal, Disk.editTransaction, hdone.transaction]
        rfl
      rw [ht] at ht'
      obtain rfl := Option.some.inj ht'
      obtain rfl := Option.some.inj hdocument'
      exact ⟨closing, .rolledBack, entries, hclosing, by decide⟩
    have hatomic := atomic_atomicCalls (Disk.putJournal closing)
    rw [hrecover, rollBack, hends, hclose]
    refine ⟨rfl, (happlied.append ?_).append ?_, ?_⟩
    · rw [hmid]
      exact hatomic.throughout (.inr ⟨t, document, journal, entries, hjournal, hread, hdone⟩)
        (.inl hclosed)
    · rw [Lib.completed_append, hmid, hatomic.completed]
      exact fun k => .inl (hclosed.sweepCalls _ k)
    · rw [Lib.completed_append, Lib.completed_append, hmid, hatomic.completed, completed_sweepCalls,
        hclosed.1, ← hbackups]
      rfl

end Golavo.Archive
