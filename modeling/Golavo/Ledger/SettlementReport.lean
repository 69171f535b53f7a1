import Golavo.Ledger.CalibrationCounts
import Golavo.Ledger.SealOnce
import Golavo.Ledger.SingleResolution

/-! # What a settlement accounts for

A run that reports **accounts** for the ledger it started from: every open seal is in exactly one of
the three lists of the report, each for the reason the report gives, and the only artifacts that
were added are the ones it lists. What one step does is said once (`settleChain_ok`); the rest is an
induction over the eligible seals. -/

namespace Golavo.Ledger

open Golavo.Lib (Json Directory bind_ok_iff orFail_ok_iff wrapError_ok_iff)

/-! ## Seals of the record -/

section Seals

variable {rt : Runtime} {store : Store} {summary : Summary}

/-- **No two seals of a record have one id**, whatever the ledger. -/
theorem nodup_chains (h : calibrationSummary rt store = .ok summary) :
    (summary.chains.map Chain.sealedArtifactId).Nodup := by
  obtain ⟨artifacts, hload, h⟩ := bind_ok_iff.mp h
  obtain ⟨pairs, hpairs, h⟩ := bind_ok_iff.mp h
  obtain ⟨chains, hchains, h⟩ := bind_ok_iff.mp h
  obtain ⟨scored, -, h⟩ := bind_ok_iff.mp h
  obtain rfl := Except.ok.inj h
  obtain ⟨-, rfl⟩ := chainPairs_eq hpairs
  have hchains := orFail_ok_iff.mp hchains
  refine List.nodup_iff_count_le_one.mpr fun id => ?_
  by_cases hid : id ∈ chains.map Chain.sealedArtifactId
  · -- a seal that is listed is that of a root, and a root is listed once
    obtain ⟨chain, hchain, rfl⟩ := List.mem_map.mp hid
    obtain ⟨root, hroot, hnone, hof⟩ := root_of_mem_chains hchains hchain
    obtain ⟨stem, hstem, hloaded⟩ := load_of_mem hload hroot
    obtain rfl := Option.some.inj ((idOf_of_chainOf hof).symm.trans hstem)
    exact (count_chains hload hchains hloaded hnone).le
  · rw [List.count_eq_zero.mpr hid]
    exact Nat.zero_le 1

end Seals

/-! ## One step -/

/-- A ledger keeps everything another could load. -/
def Keeps (rt : Runtime) (store settled : Store) : Prop :=
  ∀ name b, loadVerifiedArtifact rt store name = .ok b →
    loadVerifiedArtifact rt settled name = .ok b

/-- Sources that publish a result publish this one. -/
def Agree (found : List ((Int × Int) × Json)) (score : Int × Int) : Prop :=
  found ≠ [] ∧ ∀ o ∈ found, o.1 = score

section Step

variable {rt : Runtime} {u : Unicode} {seen : Observed} {store settled : Store}

theorem Keeps.refl (rt : Runtime) (store : Store) : Keeps rt store store := fun _ _ h => h

theorem Keeps.trans {mid : Store} (h : Keeps rt store mid) (h' : Keeps rt mid settled) :
    Keeps rt store settled := fun name b hb => h' name b (h name b hb)

/-- What a scored seal of a report stands for: the sources agreed on its score, and the successor by
the newest observation was written on the way to the settled ledger. -/
structure ScoredSeal.Stands (rt : Runtime) (u : Unicode) (seen : Observed) (store settled : Store)
    (chain : Chain) (s : ScoredSeal) : Prop where
  named : s.sealedArtifactId = chain.sealedArtifactId
  agree : Agree (observations u seen chain) s.score
  written : ∃ snapshot sealed a before after, (s.score, snapshot) ∈ observations u seen chain ∧
    newestSnapshot (observations u seen chain) = some snapshot ∧
    loadVerifiedArtifact rt before chain.sealedArtifactId = .ok sealed ∧
    successor rt sealed (.scored snapshot s.score.1 s.score.2) = some a ∧
    Keeps rt store before ∧ writeArtifact rt a before = .ok (s.scoredArtifactId, after) ∧
    Keeps rt after settled

/-- What a reason an eligible seal was left open for stands for. -/
def PendingReason.Stands (rt : Runtime) (u : Unicode) (seen : Observed) (store : Store)
    (chain : Chain) : PendingReason → Prop
  | .awaitingIndependentConfirmation => False
  | .sourceConflict => ∃ o ∈ observations u seen chain, ∃ p ∈ observations u seen chain, o.1 ≠ p.1
  | .resultNotPublished => observations u seen chain = []
  | .scoringRefused => ∃ score snapshot before e, Agree (observations u seen chain) score ∧
      newestSnapshot (observations u seen chain) = some snapshot ∧ Keeps rt store before ∧
      scoreForecastResult rt chain.sealedArtifactId snapshot score.1 score.2 before = .error e

/-- Only nothing has no newest observation. -/
theorem newestSnapshot_eq_none {found : List ((Int × Int) × Json)}
    (h : newestSnapshot found = none) : found = [] := by
  cases found with
  | nil => rfl
  | cons first rest => cases h

/-- **What a settling step can do**: leave the seal open for a reason that stands, or score it. -/
theorem settleChain_ok {run next : Settling} {chain : Chain}
    (h : settleChain rt u seen run chain = .ok next) :
    (∃ reason notes, next = run.leave chain reason notes ∧
      reason.Stands rt u seen run.store chain) ∨
    ∃ s : ScoredSeal, s.Stands rt u seen run.store next.store chain ∧
      next.scored = run.scored ++ [s] ∧ next.stillPending = run.stillPending ∧
      ∀ name b, loadVerifiedArtifact rt next.store name = .ok b →
        loadVerifiedArtifact rt run.store name = .ok b ∨ name = s.scoredArtifactId := by
  unfold settleChain at h
  dsimp only at h
  split at h
  · rename_i score first rest snapshot hfound hnewest
    have hne : observations u seen chain ≠ [] := by
      rw [hfound]
      exact List.cons_ne_nil _ _
    split_ifs at h with hdiffer hanchor
    · -- the first observation and the one that differs from it
      rw [List.any_eq_true] at hdiffer
      obtain ⟨o, ho, hne⟩ := hdiffer
      refine .inl ⟨_, _, (Except.ok.inj h).symm, o, ho, (score, first), ?_, of_decide_eq_true hne⟩
      rw [hfound]
      exact List.mem_cons_self
    · have hagree : Agree (observations u seen chain) score := by
        refine ⟨hne, fun o ho => ?_⟩
        by_contra hother
        exact hdiffer (List.any_eq_true.mpr ⟨o, ho, decide_eq_true hother⟩)
      unfold settleScore at h
      split at h
      · rename_i stem store hscore
        obtain rfl := Except.ok.inj h
        obtain ⟨o, ho, rfl⟩ := newestSnapshot_mem hnewest
        obtain ⟨sealed, hload, hscored⟩ := bind_ok_iff.mp hscore
        obtain ⟨a, hmade, hwrite⟩ := successor_of_scoreVerifiedSeal hscored
        refine .inr ⟨⟨chain.sealedArtifactId, stem, score⟩, ⟨rfl, hagree, o.2, sealed, a, run.store,
          store, ?_, hnewest, wrapError_ok_iff.mp hload, hmade, Keeps.refl _ _, hwrite,
          Keeps.refl _ _⟩, rfl, rfl, fun name b hb => ?_⟩
        · dsimp only
          rw [← hagree.2 o ho]
          exact ho
        · -- every file but the one written is as before
          by_cases hname : name = stem
          · exact .inr hname
          · obtain ⟨-, -, _, _, -, -, -, rfl⟩ := writeArtifact_ok hwrite
            refine .inl ?_
            simpa only [loadVerifiedArtifact, Directory.read_write_ne hname] using hb
      · rename_i e hrefused
        split_ifs at h
        exact .inl ⟨_, _, (Except.ok.inj h).symm, score, snapshot, run.store, e, hagree, hnewest,
          Keeps.refl _ _, hrefused⟩
  · rename_i hnot
    refine .inl ⟨_, _, (Except.ok.inj h).symm, ?_⟩
    show observations u seen chain = []
    cases hnewest : newestSnapshot (observations u seen chain) with
    | none => exact newestSnapshot_eq_none hnewest
    | some snapshot =>
        cases hfound : observations u seen chain with
        | nil => rfl
        | cons o rest => exact absurd hnewest (hnot o.1 o.2 rest snapshot hfound)

end Step

/-! ## A whole run -/

section Run

variable {rt : Runtime} {u : Unicode} {seen : Observed} {store settled : Store} {chain : Chain}

/-- A scored seal stands between wider ledgers. -/
theorem ScoredSeal.Stands.widen {before after : Store} {s : ScoredSeal}
    (h : s.Stands rt u seen before after chain) (hb : Keeps rt store before)
    (ha : Keeps rt after settled) : s.Stands rt u seen store settled chain := by
  obtain ⟨snapshot, sealed, a, mid, mid', hmem, hnewest, hload, hmade, hkeeps, hwrite, hkeeps'⟩ :=
    h.written
  exact ⟨h.named, h.agree, snapshot, sealed, a, mid, mid', hmem, hnewest, hload, hmade,
    hb.trans hkeeps, hwrite, hkeeps'.trans ha⟩

/-- A reason stands from an earlier ledger on. -/
theorem PendingReason.Stands.widen {before : Store} {reason : PendingReason}
    (h : reason.Stands rt u seen before chain) (hb : Keeps rt store before) :
    reason.Stands rt u seen store chain := by
  cases reason with
  | scoringRefused =>
      obtain ⟨score, snapshot, mid, e, hagree, hnewest, hkeeps, hrefused⟩ := h
      exact ⟨score, snapshot, mid, e, hagree, hnewest, hb.trans hkeeps, hrefused⟩
  | awaitingIndependentConfirmation => exact h
  | sourceConflict => exact h
  | resultNotPublished => exact h

/-- A scored seal's write keeps what the ledger had. -/
theorem ScoredSeal.Stands.keeps {before after : Store} {s : ScoredSeal}
    (h : s.Stands rt u seen before after chain) : Keeps rt before after := by
  obtain ⟨_, _, _, _, _, -, -, -, -, hkeeps, hwrite, hkeeps'⟩ := h.written
  exact hkeeps.trans (Keeps.trans (fun _ _ => load_write hwrite) hkeeps')

/-- What a run over some eligible seals adds to a run under way: for each of them one entry, in one
of the two lists. -/
structure Settled (rt : Runtime) (u : Unicode) (seen : Observed) (run final : Settling)
    (chains : List Chain) (scored : List ScoredSeal) (left : List (String × PendingReason)) :
    Prop where
  scored_eq : final.scored = run.scored ++ scored
  left_eq : final.stillPending = run.stillPending ++ left
  once : (scored.map ScoredSeal.sealedArtifactId ++ left.map Prod.fst).Perm
    (chains.map Chain.sealedArtifactId)
  scored_stands : ∀ s ∈ scored, ∃ chain ∈ chains, s.Stands rt u seen run.store final.store chain
  left_stands : ∀ p ∈ left, ∃ chain ∈ chains, p.1 = chain.sealedArtifactId ∧
    p.2.Stands rt u seen run.store chain
  keeps : Keeps rt run.store final.store
  adds : ∀ name b, loadVerifiedArtifact rt final.store name = .ok b →
    loadVerifiedArtifact rt run.store name = .ok b ∨ ∃ s ∈ scored, name = s.scoredArtifactId

/-- One more seal, left open. -/
theorem Settled.cons_left {run final : Settling} {chains : List Chain} {scored : List ScoredSeal}
    {left : List (String × PendingReason)} {reason : PendingReason} {notes : List SettleNote}
    (h : Settled rt u seen (run.leave chain reason notes) final chains scored left)
    (hreason : reason.Stands rt u seen run.store chain) :
    Settled rt u seen run final (chain :: chains) scored
      ((chain.sealedArtifactId, reason) :: left) where
  scored_eq := h.scored_eq
  left_eq := by
    rw [h.left_eq, Settling.leave, List.append_assoc, List.singleton_append]
  once := by
    rw [List.map_cons, List.map_cons]
    exact List.perm_middle.trans (h.once.cons _)
  scored_stands s hs := by
    obtain ⟨c, hc, hstands⟩ := h.scored_stands s hs
    exact ⟨c, List.mem_cons_of_mem _ hc, hstands⟩
  left_stands p hp := by
    rcases List.mem_cons.mp hp with rfl | hp
    · exact ⟨chain, List.mem_cons_self, rfl, hreason⟩
    · obtain ⟨c, hc, hstands⟩ := h.left_stands p hp
      exact ⟨c, List.mem_cons_of_mem _ hc, hstands⟩
  keeps := h.keeps
  adds := h.adds

/-- One more seal, scored. -/
theorem Settled.cons_scored {run next final : Settling} {chains : List Chain}
    {scored : List ScoredSeal} {left : List (String × PendingReason)} {s : ScoredSeal}
    (h : Settled rt u seen next final chains scored left)
    (hs : s.Stands rt u seen run.store next.store chain)
    (hscored : next.scored = run.scored ++ [s]) (hleft : next.stillPending = run.stillPending)
    (hadds : ∀ name b, loadVerifiedArtifact rt next.store name = .ok b →
      loadVerifiedArtifact rt run.store name = .ok b ∨ name = s.scoredArtifactId) :
    Settled rt u seen run final (chain :: chains) (s :: scored) left where
  scored_eq := by
    rw [h.scored_eq, hscored, List.append_assoc, List.singleton_append]
  left_eq := by
    rw [h.left_eq, hleft]
  once := by
    rw [List.map_cons, List.map_cons, hs.named]
    exact h.once.cons _
  scored_stands t ht := by
    rcases List.mem_cons.mp ht with rfl | ht
    · exact ⟨chain, List.mem_cons_self, hs.widen (Keeps.refl _ _) h.keeps⟩
    · obtain ⟨c, hc, hstands⟩ := h.scored_stands t ht
      exact ⟨c, List.mem_cons_of_mem _ hc, hstands.widen hs.keeps (Keeps.refl _ _)⟩
  left_stands p hp := by
    obtain ⟨c, hc, hid, hstands⟩ := h.left_stands p hp
    exact ⟨c, List.mem_cons_of_mem _ hc, hid, hstands.widen hs.keeps⟩
  keeps := hs.keeps.trans h.keeps
  adds name b hb := by
    rcases h.adds name b hb with hb | ⟨t, ht, hname⟩
    · rcases hadds name b hb with hb | hname
      · exact .inl hb
      · exact .inr ⟨s, List.mem_cons_self, hname⟩
    · exact .inr ⟨t, List.mem_cons_of_mem _ ht, hname⟩

/-- **A run that gets through gives each eligible seal one entry.** -/
theorem settleChains_settled (chains : List Chain) {run final : Settling}
    (h : settleChains rt u seen run chains = (final, none)) :
    ∃ scored left, Settled rt u seen run final chains scored left := by
  induction chains generalizing run with
  | nil =>
      obtain rfl : run = final := congrArg Prod.fst h
      exact ⟨[], [], by simp, by simp, by simp, by simp, by simp, Keeps.refl _ _,
        fun _ _ hb => .inl hb⟩
  | cons chain rest ih =>
      rw [settleChains] at h
      split at h
      · rename_i next hnext
        obtain ⟨scored, left, hrest⟩ := ih h
        rcases settleChain_ok hnext with
          ⟨reason, notes, rfl, hstands⟩ | ⟨s, hs, hscored, hleft, hadds⟩
        · exact ⟨scored, _, hrest.cons_left hstands⟩
        · exact ⟨_, left, hrest.cons_scored hs hscored hleft hadds⟩
      · cases congrArg Prod.snd h

end Run

/-! ## The report -/

/-- The seals of a run that are taken to the sources: due, and not of a club competition. -/
def eligibleSeals (now : Int) (seals : List Chain) : List Chain :=
  seals.filter fun c => isDue now c && !requiresIndependentConfirmation c.competition

/-- A report accounts for a ledger's open seals and for what was added to it. -/
structure Accounts (rt : Runtime) (u : Unicode) (seen : Observed) (now : Int) (store : Store)
    (seals : List Chain) (settled : Store) (report : SettlementReport) : Prop where
  once : (report.deferred ++ report.scored.map ScoredSeal.sealedArtifactId ++
    report.stillPending.map Prod.fst).Perm (seals.map Chain.sealedArtifactId)
  distinct : (seals.map Chain.sealedArtifactId).Nodup
  deferred : ∀ chain ∈ seals, chain.sealedArtifactId ∈ report.deferred ↔ isDue now chain = false
  scored : ∀ s ∈ report.scored, ∃ chain ∈ seals, isDue now chain = true ∧
    requiresIndependentConfirmation chain.competition = false ∧
    s.Stands rt u seen store settled chain
  pending : ∀ p ∈ report.stillPending, ∃ chain ∈ seals, p.1 = chain.sealedArtifactId ∧
    isDue now chain = true ∧
    (requiresIndependentConfirmation chain.competition = true ∧
        p.2 = .awaitingIndependentConfirmation ∨
      requiresIndependentConfirmation chain.competition = false ∧
        p.2.Stands rt u seen store chain)
  keeps : Keeps rt store settled
  adds : ∀ name b, loadVerifiedArtifact rt settled name = .ok b →
    loadVerifiedArtifact rt store name = .ok b ∨ ∃ s ∈ report.scored, name = s.scoredArtifactId

/-- Seals are deferred, of a club competition, or eligible. -/
theorem perm_sorted (now : Int) (seals : List Chain) :
    (seals.filter (fun c => !isDue now c) ++
      (eligibleSeals now seals ++ seals.filter fun c =>
        isDue now c && requiresIndependentConfirmation c.competition)).Perm seals := by
  have hdue := List.filter_append_perm (fun c => !isDue now c) seals
  have hclub := List.filter_append_perm (fun c => !requiresIndependentConfirmation c.competition)
    (seals.filter fun c => isDue now c)
  simp only [List.filter_filter, Bool.not_not] at hdue hclub
  refine List.Perm.trans (List.Perm.append_left _ ?_) hdue
  simpa only [eligibleSeals, Bool.and_comm] using hclub

/-- **A settlement that reports accounts for every open seal and every artifact added**, for any
ledger, clock and loaders. -/
theorem settlement_accounts (rt : Runtime) (u : Unicode) (loaders : Loaders) (now : Int)
    (store settled : Store) (report : SettlementReport)
    (h : settlePendingForecasts rt u loaders now store = (settled, .ok report)) :
    ∃ summary, calibrationSummary rt store = .ok summary ∧
      Accounts rt u (observe u loaders (isoText (wholeSeconds now))
          (eligibleSeals (wholeSeconds now) (unresolvedChains summary)))
        (wholeSeconds now) store (unresolvedChains summary) settled report := by
  unfold settlePendingForecasts at h
  dsimp only at h
  split at h
  · cases congrArg Prod.snd h
  · rename_i seals hseals
    obtain ⟨summary, hsummary, hopen, -, hdeferred, hclubs, heligible⟩ := openSeals_ok hseals
    rw [hopen] at hdeferred hclubs heligible
    replace heligible : seals.eligible =
      eligibleSeals (wholeSeconds now) (unresolvedChains summary) := heligible
    rw [heligible] at h
    refine ⟨summary, hsummary, ?_⟩
    split at h
    · cases congrArg Prod.snd h
    · rename_i final hrun
      obtain ⟨scored, left, hsettled⟩ := settleChains_settled _ hrun
      have hscored : final.scored = scored := hsettled.scored_eq
      have hleft := hsettled.left_eq
      obtain ⟨rfl, hreport⟩ := Prod.mk.inj h
      obtain rfl := Except.ok.inj hreport
      have hdistinct := (nodup_chains hsummary).sublist
        ((List.filter_sublist (p := fun c => c.resolution.status = "pending" && !c.abstained &&
          c.probs.isSome)).map Chain.sealedArtifactId)
      have hclub : ∀ c ∈ seals.clubs, c ∈ unresolvedChains summary ∧
          isDue (wholeSeconds now) c = true ∧
          requiresIndependentConfirmation c.competition = true := by
        intro c hc
        rw [hclubs, List.mem_filter, Bool.and_eq_true] at hc
        exact hc
      have hdue : ∀ c ∈ eligibleSeals (wholeSeconds now) (unresolvedChains summary),
          c ∈ unresolvedChains summary ∧ isDue (wholeSeconds now) c = true ∧
          requiresIndependentConfirmation c.competition = false := by
        intro c hc
        rw [eligibleSeals, List.mem_filter, Bool.and_eq_true, Bool.not_eq_true'] at hc
        exact hc
      refine {
        once := ?_
        distinct := hdistinct
        deferred := fun chain hchain => ?_
        scored := fun s hs => ?_
        pending := fun p hp => ?_
        keeps := hsettled.keeps
        adds := hscored ▸ hsettled.adds }
      · rw [hscored, hleft, hdeferred]
        refine List.Perm.trans ?_ ((perm_sorted (wholeSeconds now) _).map _)
        rw [← hclubs, List.map_append, List.map_append, List.map_append, List.append_assoc]
        refine List.Perm.append_left _ ?_
        -- the clubs' entries come first in the list of what is still pending
        have hnames (seen : Observed) : (startSettling store seals seen).stillPending.map Prod.fst =
            seals.clubs.map Chain.sealedArtifactId := by
          rw [startSettling, List.map_map]
          rfl
        rw [hnames]
        refine List.Perm.trans (List.Perm.append_left _ List.perm_append_comm) ?_
        rw [← List.append_assoc]
        exact hsettled.once.append_right _
      · show chain.sealedArtifactId ∈ seals.deferred.map Chain.sealedArtifactId ↔ _
        rw [hdeferred]
        constructor
        · intro hmem
          obtain ⟨other, hother, hid⟩ := List.mem_map.mp hmem
          obtain ⟨hother, hnot⟩ := List.mem_filter.mp hother
          rw [← List.inj_on_of_nodup_map hdistinct hother hchain hid]
          simpa using hnot
        · intro hnot
          exact List.mem_map_of_mem (List.mem_filter.mpr ⟨hchain, by simpa using hnot⟩)
      · rw [hscored] at hs
        obtain ⟨chain, hchain, hstands⟩ := hsettled.scored_stands s hs
        obtain ⟨hmem, hisDue, hnational⟩ := hdue chain hchain
        exact ⟨chain, hmem, hisDue, hnational, hstands⟩
      · rw [hleft] at hp
        rcases List.mem_append.mp hp with hp | hp
        · obtain ⟨chain, hchain, rfl⟩ := List.mem_map.mp hp
          obtain ⟨hmem, hisDue, hisClub⟩ := hclub chain hchain
          exact ⟨chain, hmem, rfl, hisDue, .inl ⟨hisClub, rfl⟩⟩
        · obtain ⟨chain, hchain, hid, hstands⟩ := hsettled.left_stands p hp
          obtain ⟨hmem, hisDue, hnational⟩ := hdue chain hchain
          exact ⟨chain, hmem, hid, hisDue, .inr ⟨hnational, hstands⟩⟩

/-! ## The friendly, settled -/

/-- A source that publishes two goals to one for whatever it is asked, and no World Cup. -/
def twoOne : Loaders where
  martj _ targets := .ok ⟨martjSource, newer, wf_newer, targets.map fun key => (key, (2, 1))⟩
  worldCup year _ _ := .error (.invalidYear year)

/-- The seal of the friendly as the record lists it. -/
theorem chain_friendly {c : Json} (h : sealedFriendly = some c) : ∃ chain,
    chainOf (c, none) = some chain ∧ chain.kickoffUtc = "2024-03-18T00:00:00Z" ∧
      chain.competition = "Friendly" ∧ chain.abstained = false ∧ chain.probs.isSome = true := by
  have hfacts : sealedFriendly.bind (fun c => (chainOf (c, none)).map fun chain =>
      (chain.kickoffUtc, chain.competition, chain.abstained, chain.probs.isSome)) =
      some ("2024-03-18T00:00:00Z", "Friendly", false, true) := by decide +kernel
  rw [h, Option.bind_some] at hfacts
  obtain ⟨chain, hchain, hfacts⟩ := Option.map_eq_some_iff.mp hfacts
  simp only [Prod.mk.injEq] at hfacts
  exact ⟨chain, hchain, hfacts⟩

/-- A ledger that holds one open seal has one unresolved chain. -/
theorem unresolvedChains_single {rt : Runtime} {store : Store} (hsound : Sound rt store)
    {id : String} {c : Json} {chain : Chain} (hholds : Holds rt store id c)
    (honly : ∀ name b, Holds rt store name b → name = id ∧ b = c) (hroot : supersededOf c = none)
    (hchain : chainOf (c, none) = some chain) (hprobs : chain.probs.isSome = true)
    (habstained : chain.abstained = false) :
    ∃ summary, calibrationSummary rt store = .ok summary ∧ unresolvedChains summary = [chain] := by
  obtain ⟨summary, hsummary, hids, -⟩ := hsound.calibrationSummary
  refine ⟨summary, hsummary, List.perm_singleton.mp ?_⟩
  have hnodup : (unresolvedChains summary).Nodup := (List.Nodup.of_map _ hids).filter _
  refine (List.perm_ext_iff_of_nodup hnodup (List.nodup_singleton _)).mpr fun other => ?_
  have hpending := @Sound.mem_pending_iff _ _ hsound _ hsummary other
  simp only [unresolvedChains, List.mem_filter, Bool.and_eq_true, decide_eq_true_eq,
    Bool.not_eq_true', List.mem_singleton]
  constructor
  · rintro ⟨hmem, ⟨hstatus, -⟩, -⟩
    obtain ⟨stem, root, hstem, -, -, hof⟩ := hpending.mp ⟨hmem, hstatus⟩
    obtain ⟨rfl, rfl⟩ := honly stem root hstem
    exact Option.some.inj (hof.symm.trans hchain)
  · rintro rfl
    have hopen : ∀ name b, Holds rt store name b → supersededOf b ≠ some id := by
      intro name b hb hs
      obtain ⟨-, rfl⟩ := honly name b hb
      rw [hroot] at hs
      cases hs
    obtain ⟨hmem, hstatus⟩ := hpending.mpr ⟨id, c, hholds, hroot, hopen, hchain⟩
    exact ⟨hmem, ⟨hstatus, habstained⟩, hprobs⟩

/-- The scorer takes the friendly's result. -/
theorem score_friendly : ∃ id c store stem settled,
    sealFriendly.run .standard .ascii emptyLedger = store ∧ Sound .standard store ∧
      sealedFriendly = some c ∧ Holds .standard store id c ∧ supersededOf c = none ∧
      (∀ name b, Holds .standard store name b → name = id ∧ b = c) ∧
      scoreForecastResult .standard id newer 2 1 store = .ok (stem, settled) := by
  obtain ⟨id, c, store, hrun, hsound, hsealed, hholds, honly⟩ := run_sealFriendly
  obtain ⟨hstatus, hanchor⟩ := open_friendly hsealed
  have hdigits := leadingDigits_friendly
  simp only [hsealed, Option.map_some, Option.some.injEq, Prod.mk.injEq] at hdigits
  obtain ⟨hdigit, hdigit', -⟩ := hdigits
  obtain ⟨b, hb, hbvalid⟩ := exists_successor hholds.readBack hholds.valid
    (v := .scored newer 2 1) wf_newer ⟨by decide +kernel, by decide, by decide, _, hanchor, rfl⟩
  obtain ⟨id', hid', hwrite⟩ := write_successor (v := .scored newer 2 1) hholds.readBack wf_newer
    hb hbvalid store
  simp only [Option.bind_some, hb, leadingDigit, hholds.get_id, idOf, hid', Json.text?]
    at hdigit hdigit'
  obtain ⟨settled, hwrite⟩ | ⟨_, existing, hread, _⟩ := hwrite
  swap
  · obtain ⟨x, hx⟩ := hsound.files _ _ hread
    obtain ⟨rfl, -⟩ := honly _ _ hx
    rw [hdigit] at hdigit'
    cases hdigit'
  refine ⟨id, c, store, id', settled, hrun, hsound, hsealed, hholds,
    (hsound.root_of_open hholds (.inl hstatus)).supersedes, honly, ?_⟩
  simp only [scoreForecastResult, hholds.load, scoreVerifiedSeal_eq hb, hwrite, Lib.wrapError, bind,
    Except.bind]

/-- A run that takes up one seal and scores it reports it. -/
theorem settlePendingForecasts_single {rt : Runtime} {u : Unicode} {loaders : Loaders} {now : Int}
    {store settled : Store} {chain : Chain} {s : ScoredSeal}
    (hseals : openSeals rt (wholeSeconds now) store = .ok ⟨[chain], [], [], [chain]⟩)
    (hstep : ∀ run : Settling, run.store = store →
      settleChain rt u (observe u loaders (isoText (wholeSeconds now)) [chain]) run chain =
        .ok { run with store := settled, scored := run.scored ++ [s] }) :
    ∃ report, settlePendingForecasts rt u loaders now store = (settled, .ok report) ∧
      report.scored = [s] := by
  unfold settlePendingForecasts
  simp only [hseals, settleChains, hstep (startSettling _ _ _) rfl]
  exact ⟨_, rfl, rfl⟩

/-- The friendly is settled two days later. -/
theorem settle_friendly : ∃ settled report,
    settlePendingForecasts .standard .ascii twoOne 1710892800000000000
      (sealFriendly.run .standard .ascii emptyLedger) = (settled, .ok report) ∧
    report.scored.map ScoredSeal.score = [(2, 1)] := by
  obtain ⟨id, c, store, stem, settled, hrun, hsound, hsealed, hholds, hroot, honly, hscore⟩ :=
    score_friendly
  obtain ⟨chain, hchain, hkickoff, hcompetition, habstained, hprobs⟩ := chain_friendly hsealed
  obtain ⟨summary, hsummary, hopen⟩ := unresolvedChains_single hsound hholds honly hroot hchain
    hprobs habstained
  have hid : chain.sealedArtifactId = id :=
    Option.some.inj ((idOf_of_chainOf hchain).symm.trans hholds.idOf)
  have hinstant : kickoffInstant chain = some 1710720000000000000 := by
    rw [kickoffInstant, hkickoff]
    decide +kernel
  have hdue : isDue (wholeSeconds 1710892800000000000) chain = true := by
    rw [isDue, hinstant]
    decide
  have hnational : requiresIndependentConfirmation chain.competition = false := by
    rw [hcompetition]
    decide +kernel
  have hseals : openSeals .standard (wholeSeconds 1710892800000000000) store =
      .ok ⟨[chain], [], [], [chain]⟩ := by
    simp [openSeals, hsummary, hopen, hinstant, hdue, hnational, Lib.wrapError, Lib.failIf, bind,
      Except.bind, pure, Except.pure]
  have hfound : observations .ascii (observe .ascii twoOne
      (isoText (wholeSeconds 1710892800000000000)) [chain]) chain = [((2, 1), newer)] := by
    have hyears : worldCupYears [chain] = [] := by
      simp [worldCupYears, hcompetition]
    simp [observations, observe, hyears, observeMartj, twoOne, hcompetition, Results.find]
  have hanchor : snapshotAnchorUtc newer ≠ none := by decide +kernel
  have hstep (run : Settling) (hstore : run.store = store) :
      settleChain .standard .ascii (observe .ascii twoOne
        (isoText (wholeSeconds 1710892800000000000)) [chain]) run chain =
      .ok { run with store := settled, scored := run.scored ++ [⟨id, stem, (2, 1)⟩] } := by
    simp only [settleChain, hfound, newestSnapshot, List.foldl_nil, List.any_cons, List.any_nil,
      settleScore, hid, hstore, hscore]
    simp [hanchor]
  obtain ⟨report, hreport, hscored⟩ := settlePendingForecasts_single hseals hstep
  refine ⟨settled, report, ?_, ?_⟩
  · rw [hrun]
    exact hreport
  · rw [hscored]
    rfl

/-- The friendly's settlement accounts for it. -/
theorem settlement_accounts_friendly : ∃ settled report summary,
    calibrationSummary .standard (sealFriendly.run .standard .ascii emptyLedger) = .ok summary ∧
    report.scored.map ScoredSeal.score = [(2, 1)] ∧
    Accounts .standard .ascii (observe .ascii twoOne (isoText (wholeSeconds 1710892800000000000))
        (eligibleSeals (wholeSeconds 1710892800000000000) (unresolvedChains summary)))
      (wholeSeconds 1710892800000000000) (sealFriendly.run .standard .ascii emptyLedger)
      (unresolvedChains summary) settled report := by
  obtain ⟨settled, report, hrun, hscored⟩ := settle_friendly
  obtain ⟨summary, hsummary, haccounts⟩ := settlement_accounts .standard .ascii twoOne
    1710892800000000000 _ settled report hrun
  exact ⟨settled, report, summary, hsummary, hscored, haccounts⟩

end Golavo.Ledger
