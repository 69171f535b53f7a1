import Golavo.Lib.Runs
import Golavo.Lib.Table

/-! # Dictionaries filled from lists

Entries put into a table one after the other, a later one over an earlier one under its key. Where
entries under one key are equal, the table holds exactly the entries put (`mem_putAll_iff`); putting them
with a check that they are goes through exactly then (`foldlM_putAgreeing_eq_some_iff`). -/

namespace Golavo.Lib.Table

variable {α κ : Type} {key : α → κ} [DecidableEq κ]

/-- Entries under one key are equal. -/
def Agreeing (key : α → κ) (items : List α) : Prop :=
  ∀ a ∈ items, ∀ b ∈ items, key a = key b → a = b

/-- Put entries in their order. -/
def putAll (t : Table α key) (items : List α) : Table α key := items.foldl put t

@[simp] theorem putAll_nil (t : Table α key) : t.putAll [] = t := rfl

@[simp] theorem putAll_cons (t : Table α key) (a : α) (items : List α) :
    t.putAll (a :: items) = (t.put a).putAll items := rfl

/-- What a table holds was there or was put. -/
theorem mem_of_mem_putAll {t : Table α key} {items : List α} {b : α}
    (h : b ∈ (t.putAll items).entries) : b ∈ t.entries ∨ b ∈ items := by
  induction items generalizing t with
  | nil => exact .inl h
  | cons a items ih =>
      rcases ih h with h | h
      · rcases mem_put.mp h with rfl | ⟨h, -⟩
        · exact .inr List.mem_cons_self
        · exact .inl h
      · exact .inr (List.mem_cons_of_mem _ h)

/-- Keys are never lost. -/
theorem exists_of_mem_put {t : Table α key} {a b : α} (h : b ∈ t.entries) :
    ∃ c ∈ (t.put a).entries, key c = key b := by
  by_cases hkey : key b = key a
  · exact ⟨a, mem_put.mpr (.inl rfl), hkey.symm⟩
  · exact ⟨b, mem_put.mpr (.inr ⟨h, hkey⟩), rfl⟩

/-- Every key that was there or was put is held. -/
theorem exists_mem_putAll {t : Table α key} {items : List α} {b : α}
    (h : b ∈ t.entries ∨ b ∈ items) : ∃ c ∈ (t.putAll items).entries, key c = key b := by
  induction items generalizing t b with
  | nil =>
      rcases h with h | h
      · exact ⟨b, h, rfl⟩
      · cases h
  | cons a items ih =>
      rcases h with h | h
      · obtain ⟨c, hc, hkey⟩ := exists_of_mem_put (a := a) h
        rw [← hkey]
        exact ih (.inl hc)
      · rcases List.mem_cons.mp h with rfl | h
        · exact ih (.inl (mem_put.mpr (.inl rfl)))
        · exact ih (.inr h)

/-- **Where entries under one key are equal, a table holds exactly those put.** -/
theorem mem_putAll_iff {items : List α} (h : Agreeing key items) {b : α} :
    b ∈ ((empty : Table α key).putAll items).entries ↔ b ∈ items := by
  constructor
  · intro hb
    exact (mem_of_mem_putAll hb).resolve_left List.not_mem_nil
  · intro hb
    obtain ⟨c, hc, hkey⟩ := exists_mem_putAll (t := (empty : Table α key)) (.inr hb)
    have hmem := (mem_of_mem_putAll hc).resolve_left List.not_mem_nil
    rwa [h c hmem b hb hkey] at hc

/-- Steps that put entries under keys of their own append them all. -/
theorem foldlM_put_fresh {ε β : Type} {step : Table α key → β → Except ε (Table α key)}
    {entryOf : β → α} {items : List β} {t : Table α key}
    (hstep : ∀ t : Table α key, ∀ b ∈ items, key (entryOf b) ∉ t.entries.map key →
      step t b = .ok (t.put (entryOf b)))
    (hnodup : (t.entries.map key ++ items.map fun b => key (entryOf b)).Nodup) :
    ∃ t', items.foldlM step t = .ok t' ∧ t'.entries = t.entries ++ items.map entryOf := by
  induction items generalizing t with
  | nil => exact ⟨t, rfl, by rw [List.map_nil, List.append_nil]⟩
  | cons b items ih =>
      have hfresh : key (entryOf b) ∉ t.entries.map key := fun hmem =>
        (List.nodup_append.mp hnodup).2.2 _ hmem _ List.mem_cons_self rfl
      have hentries : (t.put (entryOf b)).entries = t.entries ++ [entryOf b] := if_neg hfresh
      obtain ⟨t', ht', hrest⟩ := ih (t := t.put (entryOf b))
        (fun t c hc => hstep t c (List.mem_cons_of_mem _ hc)) (by
          rw [hentries, List.map_append, List.append_assoc]
          exact hnodup)
      refine ⟨t', ?_, ?_⟩
      · rw [List.foldlM_cons, hstep t b List.mem_cons_self hfresh]
        exact ht'
      · rw [hrest, hentries, List.map_cons, List.append_assoc, List.singleton_append]

/-! ## Checked -/

variable [DecidableEq α]

/-- Put an entry unless a different one is under its key. -/
def putAgreeing (t : Table α key) (a : α) : Option (Table α key) :=
  match t.get? (key a) with
  | none => some (t.put a)
  | some b => if b = a then some (t.put a) else none

theorem putAgreeing_eq_some_iff {t t' : Table α key} {a : α} :
    putAgreeing t a = some t' ↔ (∀ b ∈ t.entries, key b = key a → b = a) ∧ t' = t.put a := by
  unfold putAgreeing
  cases hget : t.get? (key a) with
  | none =>
      have hnone := get?_eq_none_iff.mp hget
      constructor
      · intro h
        refine ⟨fun b hb hkey => absurd (List.mem_map.mpr ⟨b, hb, hkey⟩) hnone, ?_⟩
        exact (Option.some.inj h).symm
      · rintro ⟨-, rfl⟩
        rfl
  | some c =>
      obtain ⟨hc, hkey⟩ := get?_eq_some_iff.mp hget
      dsimp only
      split_ifs with heq
      · subst heq
        constructor
        · intro h
          refine ⟨fun b hb hkey => ?_, (Option.some.inj h).symm⟩
          exact List.inj_on_of_nodup_map t.nodup hb hc hkey
        · rintro ⟨-, rfl⟩
          rfl
      · constructor
        · intro h
          cases h
        · rintro ⟨hagree, -⟩
          exact absurd (hagree c hc hkey) heq

/-- **Putting entries with a check goes through exactly where those under one key are equal.** -/
theorem foldlM_putAgreeing_eq_some_iff {t t' : Table α key} {items : List α} :
    items.foldlM putAgreeing t = some t' ↔
      (∀ a ∈ items, ∀ b, b ∈ t.entries ∨ b ∈ items → key b = key a → b = a) ∧
        t' = t.putAll items := by
  induction items generalizing t with
  | nil => simp [eq_comm]
  | cons a items ih =>
      rw [List.foldlM_cons]
      constructor
      · intro h
        obtain ⟨next, hnext, h⟩ := Option.bind_eq_some_iff.mp h
        obtain ⟨hfirst, rfl⟩ := putAgreeing_eq_some_iff.mp hnext
        obtain ⟨hrest, rfl⟩ := ih.mp h
        have hlater : ∀ c ∈ items, key c = key a → c = a := fun c hc hkey =>
          (hrest c hc a (.inl (mem_put.mpr (.inl rfl))) hkey.symm).symm
        refine ⟨List.forall_mem_cons.mpr ⟨?_, ?_⟩, rfl⟩
        · rintro b (hb | hb) hkey
          · exact hfirst b hb hkey
          · rcases List.mem_cons.mp hb with rfl | hb
            · rfl
            · exact hlater b hb hkey
        · rintro c hc b hb hkey
          by_cases hba : key b = key a
          · have hca := hlater c hc (hkey.symm.trans hba)
            rw [hca]
            rcases hb with hb | hb
            · exact hfirst b hb hba
            · rcases List.mem_cons.mp hb with rfl | hb
              · rfl
              · exact hlater b hb hba
          · rcases hb with hb | hb
            · exact hrest c hc b (.inl (mem_put.mpr (.inr ⟨hb, hba⟩))) hkey
            · rcases List.mem_cons.mp hb with rfl | hb
              · exact absurd rfl hba
              · exact hrest c hc b (.inr hb) hkey
      · rintro ⟨hagree, rfl⟩
        obtain ⟨hfirst, hrest⟩ := List.forall_mem_cons.mp hagree
        refine Option.bind_eq_some_iff.mpr ⟨t.put a, putAgreeing_eq_some_iff.mpr
          ⟨fun b hb => hfirst b (.inl hb), rfl⟩, ih.mpr ⟨fun c hc b hb hkey => ?_, rfl⟩⟩
        rcases hb with hb | hb
        · rcases mem_put.mp hb with rfl | ⟨hb, -⟩
          · exact hrest c hc b (.inr List.mem_cons_self) hkey
          · exact hrest c hc b (.inl hb) hkey
        · exact hrest c hc b (.inr (List.mem_cons_of_mem _ hb)) hkey

/-- From nothing, the check is that of the entries alone. -/
theorem foldlM_putAgreeing_empty {t' : Table α key} {items : List α} :
    items.foldlM putAgreeing (empty : Table α key) = some t' ↔
      Agreeing key items ∧ t' = empty.putAll items := by
  rw [foldlM_putAgreeing_eq_some_iff]
  refine and_congr_left fun _ => ⟨fun h a ha b hb hkey => (h a ha b (.inr hb) hkey.symm).symm, ?_⟩
  rintro h a ha b (hb | hb) hkey
  · cases hb
  · exact h b hb a ha hkey

end Golavo.Lib.Table
