import Golavo.Lib.Runs

/-! # Interleaved requests

Requests that work on one store in several atomic steps each, and keep between two steps what they
have read. A pool holds the store and the requests under way; at any time a new request arrives or
one of those under way takes its next step.

An **outline** says what holds of the store throughout and what each request under way may rely on.
Where no step of one request breaks what another relies on, both hold in every pool reached. -/

namespace Golavo.Lib

/-- A store, the requests under way on it and the answers given so far. -/
structure Pool (σ φ ρ : Type) where
  store : σ
  waiting : List φ
  replies : List ρ

/-- What happens next: a request arrives, or the one at a place takes its next step. -/
inductive Move (φ : Type) where
  | arrive (p : φ)
  | advance (i : Nat)

section Pool

variable {σ φ ρ : Type} {act : φ → σ → σ × (φ ⊕ ρ)}

/-- A pool without requests. -/
def Pool.of (st : σ) : Pool σ φ ρ := ⟨st, [], []⟩

/-- The pool after a move: a step leaves its store, and its request goes on or answers. -/
def Pool.move (act : φ → σ → σ × (φ ⊕ ρ)) (s : Pool σ φ ρ) : Move φ → Pool σ φ ρ
  | .arrive p => { s with waiting := s.waiting ++ [p] }
  | .advance i =>
      match s.waiting[i]? with
      | none => s
      | some p =>
          match act p s.store with
          | (st, .inl next) => { s with store := st, waiting := s.waiting.set i next }
          | (st, .inr reply) =>
              { store := st, waiting := s.waiting.eraseIdx i, replies := s.replies ++ [reply] }

/-- A list around one of its items. -/
theorem exists_append_of_getElem? {xs : List φ} {i : Nat} {p : φ} (h : xs[i]? = some p) :
    ∃ pre post, xs = pre ++ p :: post ∧ pre.length = i := by
  obtain ⟨hi, rfl⟩ := List.getElem?_eq_some_iff.mp h
  refine ⟨xs.take i, xs.drop (i + 1), ?_, List.length_take_of_le (Nat.le_of_lt hi)⟩
  rw [← List.drop_eq_getElem_cons hi, List.take_append_drop]

/-- **What an advance does**: nothing, or one request takes its step and goes on or answers. -/
theorem Pool.advance_cases (act : φ → σ → σ × (φ ⊕ ρ)) (s : Pool σ φ ρ) (i : Nat) :
    (s.waiting[i]? = none ∧ s.move act (.advance i) = s) ∨
      ∃ pre p post, s.waiting[i]? = some p ∧ s.waiting = pre ++ p :: post ∧
        ((∃ next, (act p s.store).2 = .inl next ∧
            s.move act (.advance i) = ⟨(act p s.store).1, pre ++ next :: post, s.replies⟩) ∨
          ∃ reply, (act p s.store).2 = .inr reply ∧
            s.move act (.advance i) =
              ⟨(act p s.store).1, pre ++ post, s.replies ++ [reply]⟩) := by
  cases hget : s.waiting[i]? with
  | none => exact .inl ⟨rfl, by simp only [Pool.move, hget]⟩
  | some p =>
      obtain ⟨pre, post, hwaiting, rfl⟩ := exists_append_of_getElem? hget
      refine .inr ⟨pre, p, post, rfl, hwaiting, ?_⟩
      simp only [Pool.move, hget]
      rcases act p s.store with ⟨st, next | reply⟩
      · exact .inl ⟨next, rfl, by rw [hwaiting]; simp⟩
      · exact .inr ⟨reply, rfl, by rw [hwaiting]; simp [List.eraseIdx_append_of_length_le]⟩

/-- A move leaves the store or takes a step of a request under way. -/
theorem Pool.store_move (act : φ → σ → σ × (φ ⊕ ρ)) (s : Pool σ φ ρ) (m : Move φ) :
    (s.move act m).store = s.store ∨ ∃ p ∈ s.waiting, (s.move act m).store = (act p s.store).1 := by
  cases m with
  | arrive p => exact .inl rfl
  | advance i =>
      rcases Pool.advance_cases act s i with ⟨-, hmove⟩ | ⟨pre, p, post, -, hwaiting, hcase⟩
      · exact .inl (congrArg Pool.store hmove)
      · refine .inr ⟨p, hwaiting ▸ by simp, ?_⟩
        rcases hcase with ⟨next, -, hmove⟩ | ⟨reply, -, hmove⟩ <;> rw [hmove]

/-- **The store rule**: what every step of every request keeps holds of every store reached. -/
theorem Pool.store_invariant {P : σ → Prop} {init : Pool σ φ ρ → Prop}
    {allowed : Pool σ φ ρ → Move φ → Prop} {s : Pool σ φ ρ}
    (h : Reaches init allowed (Pool.move act) s) (hinit : ∀ s, init s → P s.store)
    (hstep : ∀ p st, P st → P (act p st).1) : P s.store := by
  refine @Reaches.invariant _ _ _ _ _ (fun s => P s.store) _ h hinit fun s m hs _ => ?_
  rcases Pool.store_move act s m with hsame | ⟨p, -, hstore⟩
  · exact hsame ▸ hs
  · exact hstore ▸ hstep p s.store hs

/-- The answers after a step. -/
def answered (replies : List ρ) : φ ⊕ ρ → List ρ
  | .inl _ => replies
  | .inr reply => replies ++ [reply]

/-- What holds of the store and the answers throughout (`inv`), what a request under way relies on
(`here`) and what holds between any two of them (`apart`), where every step fits (`fits`). -/
structure Outline (act : φ → σ → σ × (φ ⊕ ρ)) (fits : φ → σ → Prop) (inv : σ → List ρ → Prop)
    (here : φ → σ → List ρ → Prop) (apart : φ → φ → Prop) : Prop where
  symm : ∀ {p q}, apart p q → apart q p
  goes : ∀ {p st replies next}, inv st replies → here p st replies → fits p st →
    (act p st).2 = .inl next → inv (act p st).1 replies ∧ here next (act p st).1 replies ∧
      ∀ {q}, apart p q → apart next q
  answers : ∀ {p st replies reply}, inv st replies → here p st replies → fits p st →
    (act p st).2 = .inr reply → inv (act p st).1 (replies ++ [reply])
  keeps : ∀ {p q st replies}, inv st replies → here p st replies → fits p st →
    here q st replies → apart p q → here q (act p st).1 (answered replies (act p st).2)

/-- What an outline says of a pool. -/
structure Sound (inv : σ → List ρ → Prop) (here : φ → σ → List ρ → Prop) (apart : φ → φ → Prop)
    (s : Pool σ φ ρ) : Prop where
  inv : inv s.store s.replies
  here : ∀ p ∈ s.waiting, here p s.store s.replies
  apart : s.waiting.Pairwise apart

/-- The requests on either side of one are apart from it. -/
theorem pairwise_around {apart : φ → φ → Prop} (hsymm : ∀ {p q}, apart p q → apart q p)
    {pre post : List φ} {p : φ} (h : (pre ++ p :: post).Pairwise apart) :
    (∀ q ∈ pre ++ post, apart p q) ∧ (pre ++ post).Pairwise apart := by
  rw [List.pairwise_append, List.pairwise_cons] at h
  obtain ⟨hpre, ⟨hp, hpost⟩, hcross⟩ := h
  refine ⟨fun q hq => ?_, List.pairwise_append.mpr ⟨hpre, hpost, fun a ha b hb =>
    hcross a ha b (List.mem_cons_of_mem _ hb)⟩⟩
  rcases List.mem_append.mp hq with hq | hq
  · exact hsymm (hcross q hq p List.mem_cons_self)
  · exact hp q hq

section Rule

variable {fits : φ → σ → Prop} {inv : σ → List ρ → Prop}
  {here : φ → σ → List ρ → Prop} {apart : φ → φ → Prop} {s : Pool σ φ ρ}

/-- A request that may rely on what it starts from keeps a pool sound. -/
theorem Sound.arrive (h : Sound inv here apart s) (hsymm : ∀ {p q}, apart p q → apart q p) {p : φ}
    (hhere : here p s.store s.replies) (hapart : ∀ q ∈ s.waiting, apart p q) :
    Sound inv here apart (s.move act (.arrive p)) where
  inv := h.inv
  here := fun q hq => by
    rcases List.mem_append.mp hq with hq | hq
    · exact h.here q hq
    · exact List.mem_singleton.mp hq ▸ hhere
  apart := List.pairwise_append.mpr ⟨h.apart, List.pairwise_singleton _ _, fun a ha b hb =>
    List.mem_singleton.mp hb ▸ hsymm (hapart a ha)⟩

/-- A step that fits keeps a pool sound. -/
theorem Outline.advance (ho : Outline act fits inv here apart) (h : Sound inv here apart s) {i : Nat}
    (hfits : ∀ p, s.waiting[i]? = some p → fits p s.store) :
    Sound inv here apart (s.move act (.advance i)) := by
  rcases Pool.advance_cases act s i with ⟨-, hmove⟩ | ⟨pre, p, post, hget, hwaiting, hcase⟩
  · rw [hmove]
    exact h
  · have hp : here p s.store s.replies := h.here p (hwaiting ▸ by simp)
    have hfit := hfits p hget
    obtain ⟨haround, hrest⟩ := pairwise_around ho.symm (hwaiting ▸ h.apart)
    have hothers : ∀ q ∈ pre ++ post,
        here q (act p s.store).1 (answered s.replies (act p s.store).2) := fun q hq =>
      ho.keeps h.inv hp hfit (h.here q (hwaiting ▸ List.mem_append.mpr ((List.mem_append.mp hq).imp
        id (List.mem_cons_of_mem _)))) (haround q hq)
    rcases hcase with ⟨next, hnext, hmove⟩ | ⟨reply, hreply, hmove⟩
    · rw [hnext] at hothers
      obtain ⟨hinv, hhere, hapart⟩ := ho.goes h.inv hp hfit hnext
      rw [hmove]
      refine ⟨hinv, fun q hq => ?_, ?_⟩
      · rcases List.mem_append.mp hq with hq | hq
        · exact hothers q (List.mem_append_left _ hq)
        · rcases List.mem_cons.mp hq with rfl | hq
          · exact hhere
          · exact hothers q (List.mem_append_right _ hq)
      · rw [List.pairwise_append] at hrest
        obtain ⟨hpre, hpost, hcross⟩ := hrest
        refine List.pairwise_append.mpr ⟨hpre, List.pairwise_cons.mpr
          ⟨fun q hq => hapart (haround q (List.mem_append_right _ hq)), hpost⟩, fun a ha b hb => ?_⟩
        rcases List.mem_cons.mp hb with rfl | hb
        · exact ho.symm (hapart (haround a (List.mem_append_left _ ha)))
        · exact hcross a ha b hb
    · rw [hreply] at hothers
      rw [hmove]
      exact ⟨ho.answers h.inv hp hfit hreply, hothers, hrest⟩

/-- **The interference rule**: an outline holds of every pool reached by steps that fit, where each
request that arrives finds what it relies on. -/
theorem Outline.sound (ho : Outline act fits inv here apart) {init : Pool σ φ ρ → Prop}
    {allowed : Pool σ φ ρ → Move φ → Prop} (hinit : ∀ s, init s → Sound inv here apart s)
    (harrive : ∀ s p, Sound inv here apart s → allowed s (.arrive p) →
      here p s.store s.replies ∧ ∀ q ∈ s.waiting, apart p q)
    (hfits : ∀ s i p, Sound inv here apart s → allowed s (.advance i) → s.waiting[i]? = some p →
      fits p s.store)
    (h : Reaches init allowed (Pool.move act) s) : Sound inv here apart s := by
  refine h.invariant hinit fun s m hs hm => ?_
  cases m with
  | arrive p =>
      obtain ⟨hhere, hapart⟩ := harrive s p hs hm
      exact hs.arrive ho.symm hhere hapart
  | advance i => exact ho.advance hs fun p hp => hfits s i p hs hm hp

/-- **The rule under an outline**: what every step that fits keeps, with what its request relies on,
holds of every pool reached. -/
theorem Outline.invariant (ho : Outline act fits inv here apart) {P : σ → List ρ → Prop}
    {init : Pool σ φ ρ → Prop} {allowed : Pool σ φ ρ → Move φ → Prop}
    (hinit : ∀ s, init s → Sound inv here apart s ∧ P s.store s.replies)
    (harrive : ∀ s p, Sound inv here apart s → allowed s (.arrive p) →
      here p s.store s.replies ∧ ∀ q ∈ s.waiting, apart p q)
    (hfits : ∀ s i p, Sound inv here apart s → allowed s (.advance i) → s.waiting[i]? = some p →
      fits p s.store)
    (hstep : ∀ {p st replies}, inv st replies → here p st replies → fits p st → P st replies →
      P (act p st).1 (answered replies (act p st).2))
    (h : Reaches init allowed (Pool.move act) s) :
    Sound inv here apart s ∧ P s.store s.replies := by
  refine @Reaches.invariant _ _ _ _ _ (fun s => Sound inv here apart s ∧ P s.store s.replies) _ h
    hinit fun s m hs hm => ?_
  obtain ⟨hs, hstore⟩ := hs
  cases m with
  | arrive p =>
      obtain ⟨hhere, hapart⟩ := harrive s p hs hm
      exact ⟨hs.arrive ho.symm hhere hapart, hstore⟩
  | advance i =>
      have hfit := fun p hp => hfits s i p hs hm hp
      refine ⟨ho.advance hs hfit, ?_⟩
      rcases Pool.advance_cases act s i with ⟨-, hmove⟩ | ⟨pre, p, post, hget, hwaiting, hcase⟩
      · rw [hmove]
        exact hstore
      · have hnext := hstep hs.inv (hs.here p (hwaiting ▸ by simp)) (hfit p hget) hstore
        rcases hcase with ⟨next, hgoes, hmove⟩ | ⟨reply, hreply, hmove⟩
        · rw [hgoes] at hnext
          rw [hmove]
          exact hnext
        · rw [hreply] at hnext
          rw [hmove]
          exact hnext

end Rule

end Pool

end Golavo.Lib
