import Mathlib.Algebra.BigOperators.Group.List.Lemmas
import Mathlib.Algebra.GroupWithZero.Nat
import Mathlib.Data.List.Count
import Mathlib.Data.List.Dedup
import Mathlib.Order.Lattice

/-! # Counting in classes

Values are counted in the **bins** between consecutive edges, each closed below and open above but for
the last, which is closed; and in the groups of equal keys. Every value between the first edge and the
last falls in exactly one bin (`existsUnique_bin`), so the counts of the bins sum to the number of values
(`sum_binCounts`), and so do those of the groups (`sum_countP_dedup`). -/

namespace Golavo.Lib.Bins

section Bins

variable {α : Type*} [LinearOrder α]

/-- Whether a value falls in a bin. -/
def inBin (edges : List α) (i : Nat) (x : α) : Bool :=
  match edges[i]?, edges[i + 1]? with
  | some lower, some upper => lower ≤ x && if i + 2 = edges.length then x ≤ upper else x < upper
  | _, _ => false

/-- How many values fall in each bin. -/
def binCounts (edges : List α) (values : List α) : List Nat :=
  (List.range (edges.length - 1)).map fun i => values.countP (inBin edges i)

variable {edges : List α} {x : α}

theorem inBin_cons (a : α) (i : Nat) : inBin (a :: edges) (i + 1) x = inBin edges i x := by
  simp only [inBin, List.getElem?_cons_succ, List.length_cons, Nat.add_right_cancel_iff,
    show i + 1 + 2 = i + 2 + 1 from rfl]

/-- A value from the first edge to the last falls in some bin. -/
theorem exists_bin {first last : α} (hfirst : edges.head? = some first)
    (hlast : edges.getLast? = some last) (hlength : 2 ≤ edges.length) (hlow : first ≤ x)
    (hhigh : x ≤ last) : ∃ i < edges.length - 1, inBin edges i x = true := by
  induction edges generalizing first with
  | nil => simp at hlength
  | cons a edges ih =>
      obtain rfl := Option.some.inj hfirst
      cases edges with
      | nil => simp at hlength
      | cons b edges =>
          rcases lt_or_ge x b with hb | hb
          · refine ⟨0, by simp, ?_⟩
            simp only [inBin, List.getElem?_cons_zero, List.getElem?_cons_succ, Bool.and_eq_true,
              decide_eq_true_iff]
            refine ⟨hlow, ?_⟩
            split_ifs
            · exact decide_eq_true hb.le
            · exact decide_eq_true hb
          · cases edges with
            | nil =>
                have hlast : b = last := Option.some.inj hlast
                subst hlast
                refine ⟨0, by simp, ?_⟩
                simp [inBin, hlow, hhigh]
            | cons c edges =>
                obtain ⟨i, hi, hin⟩ := ih rfl (by simpa using hlast) (by simp) hb
                refine ⟨i + 1, ?_, by rw [inBin_cons]; exact hin⟩
                simp only [List.length_cons] at hi ⊢
                omega

/-- Two bins a value falls in are one. -/
theorem bin_le (hsorted : edges.Pairwise (· < ·)) {i j : Nat} (hi : inBin edges i x = true)
    (hj : inBin edges j x = true) : j ≤ i := by
  by_contra hlt
  unfold inBin at hi hj
  split at hi
  · rename_i lower upper hlower hupper
    split at hj
    · rename_i lower' upper' hlower' hupper'
      rw [Bool.and_eq_true, decide_eq_true_iff] at hi hj
      obtain ⟨hlen, rfl⟩ := List.getElem?_eq_some_iff.mp hupper
      obtain ⟨hlen', rfl⟩ := List.getElem?_eq_some_iff.mp hlower'
      obtain ⟨hlast, -⟩ := List.getElem?_eq_some_iff.mp hupper'
      have hx : x < edges[i + 1] := by
        have := hi.2
        rwa [if_neg (by omega), decide_eq_true_iff] at this
      have hle : edges[i + 1] ≤ edges[j] := by
        rcases Nat.lt_or_ge (i + 1) j with h | h
        · exact (List.pairwise_iff_getElem.mp hsorted _ _ _ _ h).le
        · exact le_of_eq (by congr 1; omega)
      exact absurd (hx.trans_le (hle.trans hj.1)) (lt_irrefl x)
    · cases hj
  · cases hi

/-- **Every value falls in exactly one bin.** -/
theorem existsUnique_bin (hsorted : edges.Pairwise (· < ·)) {first last : α}
    (hfirst : edges.head? = some first) (hlast : edges.getLast? = some last)
    (hlength : 2 ≤ edges.length) (hlow : first ≤ x) (hhigh : x ≤ last) :
    ∃! i, i < edges.length - 1 ∧ inBin edges i x = true := by
  obtain ⟨i, hi, hin⟩ := exists_bin hfirst hlast hlength hlow hhigh
  refine ⟨i, ⟨hi, hin⟩, fun j hj => ?_⟩
  exact Nat.le_antisymm (bin_le hsorted hin hj.2) (bin_le hsorted hj.2 hin)

/-- **The counts of the bins sum to the number of values.** -/
theorem sum_binCounts {values : List α}
    (h : ∀ x ∈ values, ∃! i, i < edges.length - 1 ∧ inBin edges i x = true) :
    (binCounts edges values).sum = values.length := by
  induction values with
  | nil =>
      refine List.sum_eq_zero fun n hn => ?_
      obtain ⟨i, -, rfl⟩ := List.mem_map.mp hn
      rfl
  | cons x values ih =>
      obtain ⟨hx, hvalues⟩ := List.forall_mem_cons.mp h
      obtain ⟨i, ⟨hi, hin⟩, hunique⟩ := hx
      have hone : (List.range (edges.length - 1)).countP (fun j => inBin edges j x) = 1 := by
        rw [List.countP_eq_length_filter, List.length_eq_one_iff]
        refine ⟨i, List.perm_singleton.mp ((List.perm_ext_iff_of_nodup
          (List.nodup_range.filter _) (List.nodup_singleton i)).mpr fun j => ?_)⟩
        rw [List.mem_filter, List.mem_range, List.mem_singleton]
        exact ⟨hunique j, fun h => h ▸ ⟨hi, hin⟩⟩
      have hcount : ∀ (is : List Nat) (p : Nat → Bool),
          (is.map fun i => if p i = true then 1 else 0).sum = is.countP p := by
        intro is p
        induction is with
        | nil => rfl
        | cons i is ih => rw [List.map_cons, List.sum_cons, ih, List.countP_cons, Nat.add_comm]
      simp only [binCounts, List.countP_cons, List.sum_map_add, List.length_cons] at ih ⊢
      rw [ih hvalues, hcount, hone]

end Bins

/-- **Groups of equal keys partition the items.** -/
theorem sum_countP_dedup {α κ : Type*} [DecidableEq κ] (key : α → κ) (items : List α) :
    ((items.map key).dedup.map fun k => items.countP fun a => key a = k).sum = items.length := by
  have hcount : ∀ k, items.countP (fun a => key a = k) = (items.map key).count k := fun k => by
    rw [List.count, List.countP_map]
    exact List.countP_congr fun a _ => by simp
  simp only [hcount]
  rw [List.sum_map_count_dedup_eq_length, List.length_map]

end Golavo.Lib.Bins
