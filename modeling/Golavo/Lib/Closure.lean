import Mathlib.Data.List.Nodup
import Mathlib.Data.List.Perm.Subperm
import Mathlib.Logic.Relation

/-! # Closures

A set grown by passes over some items until a pass adds nothing. Where every item adds only what is
related to what is there, and a pass that adds nothing leaves nothing related outside, the result is what
can be reached (`mem_saturate_iff`), in whatever order the items come. -/

namespace Golavo.Lib

variable {κ ι : Type}

/-- Passes over the items until one adds nothing. -/
def saturate [DecidableEq κ] (absorb : List κ → ι → List κ) (items : List ι) : Nat → List κ → List κ
  | 0, connected => connected
  | n + 1, connected =>
      let next := items.foldl absorb connected
      if next = connected then connected else saturate absorb items n next

/-- How items absorb what is related. -/
structure Absorbs (absorb : List κ → ι → List κ) (items : List ι) (nodes : List κ)
    (adj : κ → κ → Prop) : Prop where
  /-- An item adds to what is there. -/
  grows : ∀ connected, ∀ i ∈ items, connected <+: absorb connected i
  /-- What an item adds is a node related to what is there. -/
  sound : ∀ connected, ∀ i ∈ items, ∀ x ∈ absorb connected i, x ∈ connected ∨
    (x ∈ nodes ∧ ∃ y ∈ connected, adj y x)
  nodup : ∀ connected, ∀ i ∈ items, connected.Nodup → (absorb connected i).Nodup
  /-- Where no item adds anything, nothing related is missing. -/
  closed : ∀ connected, (∀ i ∈ items, absorb connected i = connected) →
    ∀ y ∈ connected, ∀ x, adj y x → x ∈ connected

namespace Absorbs

variable {absorb : List κ → ι → List κ} {items : List ι} {nodes : List κ} {adj : κ → κ → Prop}

/-- What may be absorbed from a root: distinct nodes that can be reached. -/
structure Reached (nodes : List κ) (adj : κ → κ → Prop) (root : κ) (connected : List κ) : Prop where
  root_mem : root ∈ connected
  nodup : connected.Nodup
  nodes : ∀ x ∈ connected, x ∈ nodes
  reach : ∀ x ∈ connected, Relation.ReflTransGen adj root x

/-- A pass reaches nothing but what can be reached. -/
theorem reached_foldl (h : Absorbs absorb items nodes adj) {root : κ} {connected : List κ}
    (hreached : Reached nodes adj root connected) {passed : List ι}
    (hpassed : ∀ i ∈ passed, i ∈ items) : Reached nodes adj root (passed.foldl absorb connected) := by
  induction passed generalizing connected with
  | nil => exact hreached
  | cons i passed ih =>
      obtain ⟨hi, hpassed⟩ := List.forall_mem_cons.mp hpassed
      refine ih ⟨(h.grows _ i hi).subset hreached.root_mem, h.nodup _ i hi hreached.nodup, ?_, ?_⟩
        hpassed
      · intro x hx
        rcases h.sound _ i hi x hx with hx | ⟨hx, -⟩
        · exact hreached.nodes x hx
        · exact hx
      · intro x hx
        rcases h.sound _ i hi x hx with hx | ⟨-, y, hy, hyx⟩
        · exact hreached.reach x hx
        · exact (hreached.reach y hy).tail hyx

theorem prefix_foldl (h : Absorbs absorb items nodes adj) (connected : List κ) {passed : List ι}
    (hpassed : ∀ i ∈ passed, i ∈ items) : connected <+: passed.foldl absorb connected := by
  induction passed generalizing connected with
  | nil => exact List.prefix_rfl
  | cons i passed ih =>
      obtain ⟨hi, hpassed⟩ := List.forall_mem_cons.mp hpassed
      exact (h.grows connected i hi).trans (ih _ hpassed)

/-- A pass that adds nothing adds nothing at any item. -/
theorem fixed_of_foldl (h : Absorbs absorb items nodes adj) {connected : List κ} {passed : List ι}
    (hpassed : ∀ i ∈ passed, i ∈ items) (hfixed : passed.foldl absorb connected = connected) :
    ∀ i ∈ passed, absorb connected i = connected := by
  induction passed with
  | nil => exact fun _ hi => absurd hi List.not_mem_nil
  | cons i passed ih =>
      obtain ⟨hi, hrest⟩ := List.forall_mem_cons.mp hpassed
      rw [List.foldl_cons] at hfixed
      have hfirst : absorb connected i = connected := by
        have hlength := (h.prefix_foldl (absorb connected i) hrest).length_le
        rw [hfixed] at hlength
        exact ((h.grows connected i hi).eq_of_length_le hlength).symm
      rw [hfirst] at hfixed
      exact List.forall_mem_cons.mpr ⟨hfirst, ih hrest hfixed⟩

/-- What is closed holds everything that can be reached from it. -/
theorem mem_of_reach (h : Absorbs absorb items nodes adj) {root x : κ} {connected : List κ}
    (hroot : root ∈ connected) (hfixed : items.foldl absorb connected = connected)
    (hreach : Relation.ReflTransGen adj root x) : x ∈ connected := by
  induction hreach with
  | refl => exact hroot
  | tail _ hadj ih => exact h.closed connected (h.fixed_of_foldl (fun _ hi => hi) hfixed) _ ih _ hadj

variable [DecidableEq κ]

/-- Enough passes reach a set a pass adds nothing to. -/
theorem saturate_spec (h : Absorbs absorb items nodes adj) {root : κ} {fuel : Nat}
    {connected : List κ} (hreached : Reached nodes adj root connected)
    (hfuel : nodes.length < fuel + connected.length) :
    Reached nodes adj root (saturate absorb items fuel connected) ∧
      items.foldl absorb (saturate absorb items fuel connected) =
        saturate absorb items fuel connected := by
  induction fuel generalizing connected with
  | zero =>
      have hle := (List.subperm_of_subset hreached.nodup hreached.nodes).length_le
      omega
  | succ fuel ih =>
      rw [saturate]
      split_ifs with hfixed
      · exact ⟨hreached, hfixed⟩
      · have hinitial := h.prefix_foldl connected fun (i : ι) (hi : i ∈ items) => hi
        have hlt : connected.length < (items.foldl absorb connected).length := by
          refine Nat.lt_of_le_of_ne hinitial.length_le fun heq => hfixed ?_
          exact (hinitial.eq_of_length heq).symm
        exact ih (h.reached_foldl hreached fun _ hi => hi) (by omega)

/-- **Enough passes reach exactly what can be reached.** -/
theorem mem_saturate_iff (h : Absorbs absorb items nodes adj) {root x : κ} (hroot : root ∈ nodes)
    {fuel : Nat} (hfuel : nodes.length ≤ fuel) :
    x ∈ saturate absorb items fuel [root] ↔ Relation.ReflTransGen adj root x := by
  have hstart : Reached nodes adj root [root] :=
    ⟨List.mem_singleton_self root, List.nodup_singleton root,
      fun x hx => (List.mem_singleton.mp hx) ▸ hroot,
      fun x hx => (List.mem_singleton.mp hx) ▸ .refl⟩
  have hbound : nodes.length < fuel + [root].length := by
    rw [List.length_singleton]
    omega
  obtain ⟨hreached, hfixed⟩ := h.saturate_spec hstart hbound
  exact ⟨hreached.reach x, h.mem_of_reach hreached.root_mem hfixed⟩

/-- No node is reached twice. -/
theorem nodup_saturate (h : Absorbs absorb items nodes adj) {root : κ} (hroot : root ∈ nodes)
    {fuel : Nat} (hfuel : nodes.length ≤ fuel) : (saturate absorb items fuel [root]).Nodup := by
  have hstart : Reached nodes adj root [root] :=
    ⟨List.mem_singleton_self root, List.nodup_singleton root,
      fun x hx => (List.mem_singleton.mp hx) ▸ hroot,
      fun x hx => (List.mem_singleton.mp hx) ▸ .refl⟩
  have hbound : nodes.length < fuel + [root].length := by
    rw [List.length_singleton]
    omega
  exact (h.saturate_spec hstart hbound).1.nodup

end Absorbs

end Golavo.Lib
