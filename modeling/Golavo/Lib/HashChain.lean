import Mathlib.Data.List.Infix
import Mathlib.Data.List.Sort

/-! # Linked logs

A log in which every entry is linked to the one before it, the first to none. Appending an entry that
is linked to the last keeps the log linked; where the links count the entries, the counts are
`1, …, n`, and the entry with the greatest count is the last. -/

namespace Golavo.Lib

section Linked

variable {α : Type} {link : Option α → α → Prop} {log : List α} {e : α}

/-- Every entry is linked to the one before it. -/
def Linked (link : Option α → α → Prop) (log : List α) : Prop :=
  ∀ pre e post, log = pre ++ e :: post → link pre.getLast? e

theorem linked_nil : Linked link [] := fun pre e post h => by
  cases pre <;> cases h

/-- **Appending**: a log stays linked exactly when the new entry is linked to the last. -/
theorem linked_append_singleton :
    Linked link (log ++ [e]) ↔ Linked link log ∧ link log.getLast? e := by
  constructor
  · intro h
    refine ⟨fun pre a post heq => h pre a (post ++ [e]) (by rw [heq]; simp), h log e [] rfl⟩
  · rintro ⟨hlog, he⟩ pre a post heq
    rcases List.eq_nil_or_concat post with rfl | ⟨post, b, rfl⟩
    · obtain ⟨rfl, hlast⟩ := List.append_inj' heq rfl
      cases hlast
      exact he
    · rw [List.concat_eq_append, ← List.cons_append, ← List.append_assoc] at heq
      exact hlog pre a post (List.append_inj' heq rfl).1

/-- Two entries of a log that are next to each other. -/
theorem Linked.next (h : Linked link log) {pre post : List α} {a b : α}
    (heq : log = pre ++ a :: b :: post) : link (some a) b := by
  have hb := h (pre ++ [a]) b post (by rw [heq]; simp)
  rwa [List.getLast?_append_of_ne_nil _ (List.cons_ne_nil _ _)] at hb

/-- **Counted entries**: links that count give the counts `1, …, n`. -/
theorem Linked.counts (h : Linked link log) {count : α → Nat}
    (hcount : ∀ prev e, link prev e → count e = (prev.map count).getD 0 + 1) :
    log.map count = List.range' 1 log.length := by
  induction log using List.reverseRecOn with
  | nil => rfl
  | append_singleton log e ih =>
      obtain ⟨hlog, he⟩ := linked_append_singleton.mp h
      have hcounts := ih hlog
      have hlast : (log.getLast?.map count).getD 0 = log.length := by
        rw [← List.getLast?_map, hcounts]
        cases hlength : log.length with
        | zero => rfl
        | succ n =>
            rw [List.range'_concat]
            simp [Nat.add_comm]
      rw [List.map_append, hcounts, List.length_append, List.length_singleton,
        List.range'_concat, List.map_singleton, hcount _ _ he, hlast]
      simp [Nat.add_comm]

/-- The entry of a counted log with the greatest count is the last. -/
theorem head?_insertionSort_of_counts {count : α → Nat} (hlog : log ≠ [])
    (hcounts : log.map count = List.range' 1 log.length) :
    (log.insertionSort fun a b => count b ≤ count a).head? = log.getLast? := by
  let r : α → α → Prop := fun a b => count b ≤ count a
  have htotal : Std.Total r := ⟨fun a b => le_total (count b) (count a)⟩
  have htrans : IsTrans α r := ⟨fun _ _ _ hab hbc => hbc.trans hab⟩
  have hperm := List.perm_insertionSort r log
  have hsorted : (log.insertionSort r).Pairwise r := List.pairwise_insertionSort r log
  have hnodup : (log.map count).Nodup := hcounts ▸ List.nodup_range'
  have hlast := List.getLast?_eq_some_getLast hlog
  have hmem := List.getLast_mem hlog
  cases hsort : log.insertionSort r with
  | nil =>
      rw [hsort] at hperm
      exact absurd hperm.symm.eq_nil hlog
  | cons first rest =>
      have hfirst : first ∈ log := hperm.mem_iff.mp (hsort ▸ List.mem_cons_self)
      have hgreatest : count (log.getLast hlog) ≤ count first := by
        rw [hsort, List.pairwise_cons] at hsorted
        rcases List.mem_cons.mp (hsort ▸ hperm.mem_iff.mpr hmem) with heq | hrest
        · exact heq ▸ le_refl _
        · exact hsorted.1 _ hrest
      have hlength : count (log.getLast hlog) = log.length := by
        have hget : (log.map count).getLast? = some (count (log.getLast hlog)) := by
          rw [List.getLast?_map, hlast, Option.map_some]
        rw [hcounts] at hget
        obtain ⟨n, hn⟩ := Nat.exists_eq_succ_of_ne_zero (List.length_pos_iff.mpr hlog).ne'
        rw [hn, List.range'_concat, List.getLast?_concat, Option.some.injEq] at hget
        omega
      have hle : count first ≤ log.length := by
        have hcount : count first ∈ List.range' 1 log.length := hcounts ▸ List.mem_map_of_mem hfirst
        rw [List.mem_range'_1] at hcount
        omega
      rw [hlast, List.head?_cons, List.inj_on_of_nodup_map hnodup hfirst hmem (by omega)]

end Linked

end Golavo.Lib
