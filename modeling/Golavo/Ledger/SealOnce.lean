import Golavo.Ledger.SealMatch

/-! # One root seal per fixture and family

However requests to seal interleave, a ledger never comes to hold two root seals of one fixture in
one family: the scan and the write are one step, and what a step writes is found by every later
scan. A request past the gate returns what the first one for its fixture and family returned. -/

namespace Golavo.Ledger

open Golavo.Lib (Json Directory Pool Move Reaches Outline bind_ok_iff
  wrapError_ok_iff toOption_eq_some forall₂_pairwise)
open Golavo.Forecast (Engine)
open Golavo.Ingest (Pack MatchRow)

/-! ## What a scan finds -/

section Scan

variable {rt : Runtime} {store : Store} {matchId family : String} {stem : String} {a : Json}

/-- No fixture has two root seals in one family. -/
def OneRoot (rt : Runtime) (store : Store) : Prop :=
  ∀ matchId family stem₁ stem₂ a₁ a₂, loadVerifiedArtifact rt store stem₁ = .ok a₁ →
    loadVerifiedArtifact rt store stem₂ = .ok a₂ → isRootOf matchId family a₁ = true →
    isRootOf matchId family a₂ = true → stem₁ = stem₂

/-- **What a scan that goes through found**: every file can be loaded, and it gives a root seal of
the fixture, or there is none. -/
theorem existingSeal_ok {found : Option Json}
    (h : existingSeal rt store matchId family = .ok found) : Loadable rt store ∧
      (∀ a, found = some a →
        isRootOf matchId family a = true ∧ ∃ stem, loadVerifiedArtifact rt store stem = .ok a) ∧
      (found = none → ∀ stem a, loadVerifiedArtifact rt store stem = .ok a →
        isRootOf matchId family a = false) := by
  obtain ⟨artifacts, hload, h⟩ := bind_ok_iff.mp h
  have hload := wrapError_ok_iff.mp hload
  have hmem : ∀ a, a ∈ artifacts.filter (isRootOf matchId family) ↔
      isRootOf matchId family a = true ∧ ∃ stem, loadVerifiedArtifact rt store stem = .ok a := by
    intro a
    rw [List.mem_filter, mem_of_loadLedger hload, and_comm]
  refine ⟨exists_loadLedger_iff.mp ⟨artifacts, hload⟩, ?_⟩
  split at h
  · cases h
  · rename_i roots _
    obtain rfl := Except.ok.inj h
    refine ⟨fun a ha => (hmem a).mp (List.mem_of_head? ha), fun hnone stem a ha => ?_⟩
    rw [List.head?_eq_none_iff] at hnone
    rw [← Bool.not_eq_true]
    intro hroot
    have := (hmem a).mpr ⟨hroot, stem, ha⟩
    rw [hnone] at this
    cases this

/-- **A scan of a ledger in order finds the root seal there is.** -/
theorem existingSeal_of_root (hloadable : Loadable rt store) (hone : OneRoot rt store)
    (hload : loadVerifiedArtifact rt store stem = .ok a) (hroot : isRootOf matchId family a = true) :
    existingSeal rt store matchId family = .ok (some a) := by
  obtain ⟨artifacts, hartifacts⟩ := exists_loadLedger_iff.mpr hloadable
  have ha : a ∈ artifacts.filter (isRootOf matchId family) :=
    List.mem_filter.mpr ⟨(mem_of_loadLedger hartifacts).mpr ⟨stem, hload⟩, hroot⟩
  -- different files hold different fixtures' roots
  have hapart : artifacts.Pairwise fun x y =>
      ¬ (isRootOf matchId family x = true ∧ isRootOf matchId family y = true) := by
    refine forall₂_pairwise (loadLedger_ok_iff.mp hartifacts)
      (store.artifacts.nodup_names.filter isArtifactStem) ?_
    rintro s t x y hx hy hne ⟨hrx, hry⟩
    exact hne (hone matchId family s t x y hx hy hrx hry)
  simp only [existingSeal, hartifacts, Lib.wrapError, bind, Except.bind]
  cases hfilter : artifacts.filter (isRootOf matchId family) with
  | nil =>
      rw [hfilter] at ha
      cases ha
  | cons x rest =>
      cases rest with
      | nil =>
          rw [hfilter, List.mem_singleton] at ha
          rw [ha]
          rfl
      | cons y rest =>
          have hsub := hapart.sublist (hfilter ▸ List.filter_sublist)
          have hx := (List.mem_filter.mp (hfilter ▸ List.mem_cons_self : x ∈ artifacts.filter _)).2
          have hy := (List.mem_filter.mp (hfilter ▸ List.mem_cons_of_mem x List.mem_cons_self :
            y ∈ artifacts.filter _)).2
          exact absurd ⟨hx, hy⟩ (List.rel_of_pairwise_cons hsub List.mem_cons_self)

end Scan

/-! ## What is written -/

section Write

variable {rt : Runtime} {u : Unicode} {engine : Engine} {code : CodeSha} {pack : Pack}
  {req : SealRequest} {store store' : Store} {stem matchId : String} {a c : Json}

/-- What the sealer makes is the root seal of the fixture and family it was asked for. -/
theorem isRootOf_of_build (h : buildForecastArtifact rt u engine code pack req = .ok a)
    (hc : canonical a = some c) (hid : req.matchId = some matchId) :
    isRootOf matchId req.family c = true := by
  obtain ⟨status, hstatus, hstatusOf⟩ := (root_of_build h hc).status
  obtain ⟨plan, bytes, hplan, hfinal⟩ := buildForecastArtifact_ok h
  obtain ⟨-, -, -, -, frame, stamp, view, -, hfind, -⟩ := planSeal_ok hplan
  obtain ⟨day, -, hrows⟩ := findMatch_ok hfind
  have hrow : plan.row ∈ frame.rows.filter
      (isFixture day req.homeTeam req.awayTeam req.matchId) := by
    rw [hrows]
    exact List.mem_singleton_self _
  have hmatch : plan.row.matchId = some matchId := by
    have hfixture := (List.mem_filter.mp hrow).2
    rw [hid] at hfixture
    simp only [isFixture, Bool.and_eq_true, Option.all_some, decide_eq_true_eq] at hfixture
    exact hfixture.2
  have hget : ∀ key, key ≠ "forecast" → key ≠ "artifact_id" → key ≠ "provenance" →
      c.get key = (sealRecord req code plan (planPrediction engine req plan)
        (rt.sha256 bytes)).get key := fun key h₁ h₂ h₃ => by
    rw [get_canonical hc h₁, get_finalise hfinal h₂ h₃]
  simp only [isRootOf, Bool.and_eq_true, decide_eq_true_eq]
  refine ⟨⟨⟨?_, ?_⟩, by simp [hstatusOf, hstatus]⟩, ?_⟩
  · rw [hget "match" (by decide) (by decide) (by decide)]
    simp [sealRecord, matchBlock, Json.get_mk, Lib.Fields.getField, Ingest.MatchRow.matchIdText,
      hmatch]
  · rw [hget "model" (by decide) (by decide) (by decide)]
    simp [sealRecord, modelBlock, Json.get_mk, Lib.Fields.getField]
  · rw [hget "supersedes" (by decide) (by decide) (by decide)]
    simp [sealRecord, Json.get_mk, Lib.Fields.getField, present]

/-- What can be loaded is a valid file. -/
theorem isValid_of_load {text : List Char} (h : loadVerifiedArtifact rt store stem = .ok a)
    (hread : store.artifacts.read stem = some text) : isValidArtifactText rt text stem = true := by
  unfold loadVerifiedArtifact at h
  rw [hread, Option.bind_some] at h
  unfold isValidArtifactText
  cases hloads : Json.loads text with
  | none => simp [hloads] at h
  | some artifact =>
      cases hverify : verifyArtifactIntegrity rt artifact (some stem) with
      | error e => simp [hloads, hverify, liftCheck] at h
      | ok b => simp [hverify, Except.isOk, Except.toBool]

/-- **What could be loaded before a write is loaded after it**: a valid file is not replaced. -/
theorem load_write (hwrite : writeArtifact rt a store = .ok (stem, store')) {name : String}
    {b : Json} (hload : loadVerifiedArtifact rt store name = .ok b) :
    loadVerifiedArtifact rt store' name = .ok b := by
  obtain ⟨-, -, bytes, event, -, -, hfree, rfl⟩ := writeArtifact_ok hwrite
  by_cases hname : name = stem
  · subst hname
    obtain ⟨⟨text, hread, -⟩, -⟩ := loadVerifiedArtifact_ok hload
    rcases hfree text hread with rfl | hinvalid
    · simpa only [loadVerifiedArtifact, Directory.write_of_read hread] using hload
    · rw [isValid_of_load hload hread] at hinvalid
      cases hinvalid
  · simpa only [loadVerifiedArtifact, Directory.read_write_ne hname] using hload

/-- A sealed ledger: one more file, which holds the seal, and every other as before. -/
structure Gains (rt : Runtime) (store written : Store) (stem : String) (c : Json) : Prop where
  load : loadVerifiedArtifact rt written stem = .ok c
  keeps : ∀ name b, loadVerifiedArtifact rt store name = .ok b →
    loadVerifiedArtifact rt written name = .ok b
  others : ∀ name, name ≠ stem → written.artifacts.read name = store.artifacts.read name

theorem Gains.load_other {written : Store} (h : Gains rt store written stem c) {name : String}
    (hne : name ≠ stem) :
    loadVerifiedArtifact rt written name = loadVerifiedArtifact rt store name := by
  simp only [loadVerifiedArtifact, h.others name hne]

theorem Gains.loadable {written : Store} (h : Gains rt store written stem c)
    (hloadable : Loadable rt store) : Loadable rt written := by
  intro name text hread hname
  by_cases hne : name = stem
  · exact ⟨c, hne ▸ h.load⟩
  · rw [h.load_other hne]
    exact hloadable name text (h.others name hne ▸ hread) hname

/-- **What sealing leaves.** -/
theorem sealForecast_ok
    (h : sealForecast rt u engine code pack req store = .ok (stem, store')) :
    ∃ a c, buildForecastArtifact rt u engine code pack req = .ok a ∧ canonical a = some c ∧
      Gains rt store store' stem c := by
  obtain ⟨a, ha, hwrite⟩ := bind_ok_iff.mp h
  have ha := wrapError_ok_iff.mp ha
  have hwrite := wrapError_ok_iff.mp hwrite
  obtain ⟨c, hc, hwf, hvalid, hident⟩ := canonical_of_build ha hwrite
  refine ⟨a, c, ha, hc, ?_, fun name b hb => load_write hwrite hb, fun name hne => ?_⟩
  · exact ((holds_write hwrite hc hwf hvalid hident stem c).mpr (.inr ⟨rfl, rfl⟩)).load
  · obtain ⟨-, -, bytes, event, -, -, -, rfl⟩ := writeArtifact_ok hwrite
    exact Directory.read_write_ne hne _ _

end Write

/-! ## One request -/

section Request

variable {rt : Runtime} {u : Unicode} {call : SealCall} {pack : Pack} {req : SealRequest}
  {store : Store}

/-- The gate asks the sealer for the request's own fixture and family. -/
theorem SealCall.gate_ok (h : call.gate = .ok (pack, req)) :
    req.matchId = some call.matchId ∧ req.family = call.family := by
  obtain ⟨_, -, h⟩ := bind_ok_iff.mp h
  obtain ⟨fixture, -, h⟩ := bind_ok_iff.mp h
  obtain ⟨_, -, h⟩ := bind_ok_iff.mp h
  obtain ⟨kickoff, -, h⟩ := bind_ok_iff.mp h
  obtain ⟨found, -, h⟩ := bind_ok_iff.mp h
  obtain ⟨-, rfl⟩ := Prod.mk.inj (Except.ok.inj h)
  exact ⟨rfl, rfl⟩

/-- A root seal of a request's fixture and family that the ledger holds, and its view. -/
def Answers (rt : Runtime) (store : Store) (call : SealCall) (r : SealResult) : Prop :=
  ∃ stem a, loadVerifiedArtifact rt store stem = .ok a ∧
    isRootOf call.matchId call.family a = true ∧ r = resultView r.created a

/-- **What happens under the lock**: the request raises and nothing changed; or the ledger, all of it
loadable, holds its root seal, which it returns; or it held none and gains the one returned. -/
theorem SealCall.underLock_cases (hgate : call.gate = .ok (pack, req)) :
    (∃ e, call.underLock rt u pack req store = (store, .error e)) ∨
    (∃ stem a, call.underLock rt u pack req store = (store, .ok (resultView false a)) ∧
      Loadable rt store ∧ loadVerifiedArtifact rt store stem = .ok a ∧
      isRootOf call.matchId call.family a = true) ∨
    ∃ stem c written, call.underLock rt u pack req store = (written, .ok (resultView true c)) ∧
      Loadable rt store ∧ (∀ name a, loadVerifiedArtifact rt store name = .ok a →
        isRootOf call.matchId call.family a = false) ∧
      isRootOf call.matchId call.family c = true ∧ Gains rt store written stem c := by
  obtain ⟨hid, hfamily⟩ := gate_ok hgate
  unfold underLock
  cases hscan : existingSeal rt store call.matchId call.family with
  | error e => exact .inl ⟨e, rfl⟩
  | ok found =>
      obtain ⟨hloadable, hsome, hnone⟩ := existingSeal_ok hscan
      cases found with
      | some a =>
          obtain ⟨hroot, stem, hload⟩ := hsome a rfl
          exact .inr (.inl ⟨stem, a, rfl, hloadable, hload, hroot⟩)
      | none =>
          cases hseal : sealForecast rt u call.engine call.code pack req store with
          | error e => exact .inl ⟨failureOf e, rfl⟩
          | ok made =>
              obtain ⟨stem, written⟩ := made
              obtain ⟨a, c, ha, hc, hgains⟩ := sealForecast_ok hseal
              refine .inr (.inr ⟨stem, c, written, by simp only [hgains.load], hloadable,
                hnone rfl, ?_, hgains⟩)
              rw [← hfamily]
              exact isRootOf_of_build ha hc hid

/-- A ledger in order that gains a root seal it had none like stays in order. -/
theorem Gains.oneRoot {written : Store} {stem matchId family : String} {c : Json}
    (h : Gains rt store written stem c) (hone : OneRoot rt store)
    (hnone : ∀ name a, loadVerifiedArtifact rt store name = .ok a →
      isRootOf matchId family a = false)
    (hroot : isRootOf matchId family c = true) : OneRoot rt written := by
  have hnew : ∀ {m f name a}, name ≠ stem → loadVerifiedArtifact rt written name = .ok a →
      isRootOf m f a = true → isRootOf m f c = true → False := by
    intro m f name a hne hload ha hc
    simp only [isRootOf, Bool.and_eq_true, decide_eq_true_eq] at hc hroot
    obtain rfl : m = matchId := by simpa using hc.1.1.1.symm.trans hroot.1.1.1
    obtain rfl : f = family := by simpa using hc.1.1.2.symm.trans hroot.1.1.2
    rw [h.load_other hne] at hload
    rw [hnone _ _ hload] at ha
    cases ha
  intro m f stem₁ stem₂ a₁ a₂ h₁ h₂ hr₁ hr₂
  by_cases hs₁ : stem₁ = stem <;> by_cases hs₂ : stem₂ = stem
  · exact hs₁.trans hs₂.symm
  · subst hs₁
    obtain rfl := Except.ok.inj (h.load.symm.trans h₁)
    exact (hnew hs₂ h₂ hr₂ hr₁).elim
  · subst hs₂
    obtain rfl := Except.ok.inj (h.load.symm.trans h₂)
    exact (hnew hs₁ h₁ hr₁ hr₂).elim
  · rw [h.load_other hs₁] at h₁
    rw [h.load_other hs₂] at h₂
    exact hone m f _ _ _ _ h₁ h₂ hr₁ hr₂

end Request

/-! ## Every run -/

section Runs

variable {rt : Runtime} {u : Unicode}

/-- Two requests are for one fixture in one family. -/
def SealCall.SameSeal (a b : SealCall) : Prop := a.matchId = b.matchId ∧ a.family = b.family

/-- After a request that returned a seal, one for the same fixture and family that passes the gate
returns that seal. -/
def Repeats (first later : SealReply) : Prop :=
  first.call.SameSeal later.call → ∀ r, first.outcome = .ok r → (∃ p, later.call.gate = .ok p) →
    later.outcome = .ok { r with created := false }

/-- What holds of the ledger and the answers: no fixture has two root seals in one family, every
seal returned is in the ledger, which can be read in full, and repeated requests agree. -/
structure InOrder (rt : Runtime) (store : Store) (replies : List SealReply) : Prop where
  oneRoot : OneRoot rt store
  recorded : ∀ reply ∈ replies, ∀ r, reply.outcome = .ok r →
    Loadable rt store ∧ Answers rt store reply.call r
  repeats : replies.Pairwise Repeats

/-- What a request under way relies on: it passed the gate. -/
def PastGate (phase : SealPhase) (_ : Store) (_ : List SealReply) : Prop :=
  match phase with
  | .called _ => True
  | .waiting call pack req => call.gate = .ok (pack, req)

/-- A request turned away at the gate adds its answer and no more. -/
theorem InOrder.turnedAway {store : Store} {replies : List SealReply} {call : SealCall}
    {e : SealFailure} (h : InOrder rt store replies) (hgate : call.gate = .error e) :
    InOrder rt store (replies ++ [⟨call, .error e⟩]) where
  oneRoot := h.oneRoot
  recorded := List.forall_mem_append.mpr ⟨h.recorded, by simp⟩
  repeats := List.pairwise_append.mpr ⟨h.repeats, List.pairwise_singleton _ _, by
    intro first _ later hlater _ r _ ⟨p, hp⟩
    rw [List.mem_singleton.mp hlater, hgate] at hp
    cases hp⟩

/-- Under a ledger in order a request past the gate repeats what an earlier one returned. -/
theorem InOrder.underLock_repeat {store : Store} {replies : List SealReply} {call : SealCall}
    {pack : Pack} {req : SealRequest} (h : InOrder rt store replies) {first : SealReply}
    (hfirst : first ∈ replies) (hsame : first.call.SameSeal call) {r : SealResult}
    (hr : first.outcome = .ok r) :
    call.underLock rt u pack req store = (store, .ok { r with created := false }) := by
  obtain ⟨hloadable, stem, a, hload, hroot, hview⟩ := h.recorded first hfirst r hr
  obtain ⟨hid, hfamily⟩ := hsame
  rw [hid, hfamily] at hroot
  rw [SealCall.underLock, existingSeal_of_root hloadable h.oneRoot hload hroot]
  rw [hview]
  rfl

/-- **A request past the gate keeps a ledger in order.** -/
theorem InOrder.underLock {store : Store} {replies : List SealReply} {call : SealCall}
    {pack : Pack} {req : SealRequest} (h : InOrder rt store replies)
    (hgate : call.gate = .ok (pack, req)) :
    InOrder rt (call.underLock rt u pack req store).1
      (replies ++ [⟨call, (call.underLock rt u pack req store).2⟩]) := by
  have hrepeats : (replies ++ [(⟨call, (call.underLock rt u pack req store).2⟩ : SealReply)]).Pairwise
      Repeats := by
    refine List.pairwise_append.mpr ⟨h.repeats, List.pairwise_singleton _ _, ?_⟩
    intro first hfirst later hlater hsame r hr _
    rw [List.mem_singleton.mp hlater] at hsame ⊢
    exact congrArg Prod.snd (h.underLock_repeat hfirst hsame hr)
  rcases SealCall.underLock_cases hgate with ⟨e, heq⟩ | ⟨stem, a, heq, hloadable, hload, hroot⟩ |
    ⟨stem, c, written, heq, hloadable, hnone, hroot, hgains⟩ <;> rw [heq] at hrepeats ⊢
  · exact ⟨h.oneRoot, List.forall_mem_append.mpr ⟨h.recorded, by simp⟩, hrepeats⟩
  · refine ⟨h.oneRoot, List.forall_mem_append.mpr ⟨h.recorded,
      List.forall_mem_singleton.mpr fun r hr => ?_⟩, hrepeats⟩
    rw [← Except.ok.inj hr]
    exact ⟨hloadable, stem, a, hload, hroot, rfl⟩
  · refine ⟨hgains.oneRoot h.oneRoot hnone hroot, List.forall_mem_append.mpr
      ⟨fun reply hreply r hr => ?_, List.forall_mem_singleton.mpr fun r hr => ?_⟩, hrepeats⟩
    · obtain ⟨-, stem', a, hload, hroot', hview⟩ := h.recorded reply hreply r hr
      exact ⟨hgains.loadable hloadable, stem', a, hgains.keeps _ _ hload, hroot', hview⟩
    · rw [← Except.ok.inj hr]
      exact ⟨hgains.loadable hloadable, stem, c, hgains.load, hroot, rfl⟩

/-- **Requests that interleave keep a ledger in order.** -/
theorem outline_sealMatch (rt : Runtime) (u : Unicode) :
    Outline (sealMatch rt u) (fun _ _ => True) (InOrder rt) PastGate (fun _ _ => True) where
  symm := fun _ => trivial
  goes := by
    intro phase store replies next hinv hhere _ hnext
    cases phase with
    | called call =>
        cases hgate : call.gate with
        | error e => simp [sealMatch, hgate] at hnext
        | ok p =>
            simp only [sealMatch, hgate, Sum.inl.injEq] at hnext ⊢
            rw [← hnext]
            exact ⟨hinv, hgate, fun _ => trivial⟩
    | waiting call pack req => simp [sealMatch] at hnext
  answers := by
    intro phase store replies reply hinv hhere _ hreply
    cases phase with
    | called call =>
        cases hgate : call.gate with
        | error e =>
            simp only [sealMatch, hgate, Sum.inr.injEq] at hreply ⊢
            rw [← hreply]
            exact hinv.turnedAway hgate
        | ok p => simp [sealMatch, hgate] at hreply
    | waiting call pack req =>
        simp only [sealMatch, Sum.inr.injEq] at hreply ⊢
        rw [← hreply]
        exact hinv.underLock hhere
  keeps := by
    intro p q store replies _ _ _ hq _
    cases q with
    | called call => trivial
    | waiting call pack req => exact hq

/-- The ledgers and answers that requests reach from a ledger. -/
def SealRun (rt : Runtime) (u : Unicode) (ledger : Store)
    (s : Pool Store SealPhase SealReply) : Prop :=
  Reaches (· = Pool.of ledger) (fun _ m => SealArrival m) (Pool.move (sealMatch rt u)) s

theorem SealRun.inOrder {ledger : Store} (hledger : OneRoot rt ledger)
    {s : Pool Store SealPhase SealReply} (h : SealRun rt u ledger s) :
    Lib.Sound (InOrder rt) PastGate (fun _ _ => True) s := by
  refine (outline_sealMatch rt u).sound ?_ ?_ (fun _ _ _ _ _ _ => trivial) h
  · rintro s rfl
    exact ⟨⟨hledger, by simp [Pool.of], .nil⟩, by simp [Pool.of], .nil⟩
  · intro s phase _ harrival
    cases phase with
    | called call => exact ⟨trivial, fun _ _ => trivial⟩
    | waiting call pack req => exact harrival.elim

/-- **Only a request that returns a new seal changes the ledger.** -/
theorem store_move_sealMatch {s : Pool Store SealPhase SealReply}
    (h : Lib.Sound (InOrder rt) PastGate (fun _ _ => True) s) (m : Move SealPhase) :
    (s.move (sealMatch rt u) m).store = s.store ∨ ∃ reply r, reply.outcome = .ok r ∧
      r.created = true ∧ (s.move (sealMatch rt u) m).replies = s.replies ++ [reply] := by
  cases m with
  | arrive phase => exact .inl rfl
  | advance i =>
      rcases Pool.advance_cases (sealMatch rt u) s i with ⟨-, hmove⟩ |
        ⟨before, phase, after, -, hwaiting, hcase⟩
      · exact .inl (congrArg Pool.store hmove)
      · have hhere := h.here phase (hwaiting ▸ by simp)
        cases phase with
        | called call =>
            left
            have hstore : (sealMatch rt u (.called call) s.store).1 = s.store := by
              cases hgate : call.gate <;> simp [sealMatch, hgate]
            rcases hcase with ⟨next, -, hmove⟩ | ⟨reply, -, hmove⟩ <;> rw [hmove, hstore]
        | waiting call pack req =>
            obtain ⟨reply, hreply, hmove⟩ := hcase.resolve_left fun ⟨next, hnext, _⟩ => by
              simp [sealMatch] at hnext
            simp only [sealMatch, Sum.inr.injEq] at hreply hmove
            rw [hmove, ← hreply]
            rcases SealCall.underLock_cases hhere with ⟨e, heq⟩ | ⟨stem, a, heq, -⟩ |
              ⟨stem, c, written, heq, -⟩ <;> rw [heq]
            · exact .inl rfl
            · exact .inl rfl
            · exact .inr ⟨_, resultView true c, rfl, rfl, rfl⟩

/-- **One root seal per fixture and family**: however requests interleave on a ledger with at most
one root seal for each fixture and family, it stays so; a request that passes the gate after another
for its fixture and family returned a seal returns that seal; and the ledger changes only where a
request returns a seal it made. -/
theorem one_root_seal (rt : Runtime) (u : Unicode) {ledger : Store} (hledger : OneRoot rt ledger)
    {s : Pool Store SealPhase SealReply} (h : SealRun rt u ledger s) :
    OneRoot rt s.store ∧ s.replies.Pairwise Repeats ∧ ∀ m,
      (s.move (sealMatch rt u) m).store = s.store ∨ ∃ reply r, reply.outcome = .ok r ∧
        r.created = true ∧ (s.move (sealMatch rt u) m).replies = s.replies ++ [reply] := by
  have hsound := h.inOrder hledger
  exact ⟨hsound.inv.oneRoot, hsound.inv.repeats, store_move_sealMatch hsound⟩

end Runs

/-! ## A friendly, sealed and asked for again -/

/-- The scheduled friendly as the index shows it. -/
def indexedFriendly : MatchRow where
  matchId := some "m_b"
  date := some (.aware (midnight 19800) 0)
  kickoffUtc := some (.aware (midnight 19800) 0)
  homeTeam := "Peru"
  awayTeam := "Chile"
  isComplete := some false
  tournament := "Friendly"
  sourceId := some internationalSourceId
  sourceKind := some "international"

/-- A request to seal it, at an instant. -/
def friendlyCall (now : String) : SealCall where
  matchId := "m_b"
  family := "elo_ordlogit"
  now := (parseUtc now).getD 0
  index := [indexedFriendly]
  packs := ⟨fun _ => none, none, fun _ _ => none, some friendlies⟩
  engine := evens
  code := noCode

/-- Six weeks ahead. -/
def earlyCall : SealCall := friendlyCall "2024-02-01T12:00:00Z"

/-- The evening after. -/
def lateCall : SealCall := friendlyCall "2024-03-18T20:00:00Z"

/-- The sealer's request for it. -/
def friendlyRequest : SealRequest := { request with matchId := some "m_b" }

theorem oneRoot_emptyLedger {rt : Runtime} : OneRoot rt emptyLedger := by
  intro _ _ stem _ a _ h
  obtain ⟨⟨text, hread, -⟩, -⟩ := loadVerifiedArtifact_ok h
  simp [emptyLedger] at hread

theorem gate_earlyCall : earlyCall.gate = .ok (friendlies, friendlyRequest) :=
  toOption_eq_some.mp (by decide +kernel)

theorem gate_lateCall : lateCall.gate = .error (.refused 422 "kickoff_passed"
    "the seal window closes at kickoff (date-only source: 00:00 UTC on match day)") := by
  rfl

theorem sealInputs_friendlyRequest : SealInputs .standard friendlies friendlyRequest :=
  ⟨by decide, sealInputs_friendly.representable, sealInputs_friendly.snapshots,
    sealInputs_friendly.timestamps⟩

/-- A request that finds no root seal makes one and returns it as it reads back. -/
theorem underLock_sealed {rt : Runtime} {u : Unicode} {call : SealCall} {pack : Pack}
    {req : SealRequest} {ledger written : Store} {stem : String} {a : Json}
    (hscan : existingSeal rt ledger call.matchId call.family = .ok none)
    (hseal : sealForecast rt u call.engine call.code pack req ledger = .ok (stem, written))
    (hload : loadVerifiedArtifact rt written stem = .ok a) :
    call.underLock rt u pack req ledger = (written, .ok (resultView true a)) := by
  simp only [SealCall.underLock, hscan, hseal, hload]

/-- A request that is answered under the lock, and then one that is turned away at the gate. -/
theorem sealRun_answered_refused {rt : Runtime} {u : Unicode} {first later : SealCall} {pack : Pack}
    {req : SealRequest} {ledger written : Store} {r : SealResult} {e : SealFailure}
    (hgate : first.gate = .ok (pack, req))
    (hunder : first.underLock rt u pack req ledger = (written, .ok r))
    (hlater : later.gate = .error e) :
    SealRun rt u ledger ⟨written, [], [⟨first, .ok r⟩, ⟨later, .error e⟩]⟩ := by
  have hrun : SealRun rt u ledger
      ([.arrive (.called first), .advance 0, .advance 0, .arrive (.called later),
        .advance 0].foldl (Pool.move (sealMatch rt u)) (Pool.of ledger)) :=
    Reaches.run (.start rfl) ⟨trivial, trivial, trivial, trivial, trivial, trivial⟩
  simpa only [List.foldl_cons, List.foldl_nil, Pool.move, Pool.of, List.nil_append,
    List.getElem?_cons_zero, List.set_cons_zero, List.eraseIdx_cons_zero, sealMatch, hgate, hunder,
    hlater, List.cons_append] using hrun

/-- The early request makes the seal. -/
theorem underLock_earlyCall : ∃ written c,
    earlyCall.underLock .standard .ascii friendlies friendlyRequest emptyLedger =
      (written, .ok (resultView true c)) := by
  have hplanned : (planSeal .ascii friendlies friendlyRequest).toOption.map SealPlan.abstained =
      some false := by decide +kernel
  obtain ⟨plan, hplan, habstained⟩ := Option.map_eq_some_iff.mp hplanned
  have hplan := toOption_eq_some.mp hplan
  have hcoherent : sealViolations (planPrediction evens friendlyRequest plan) = [] := by
    rw [planPrediction, habstained]
    rfl
  obtain ⟨a, ha⟩ : ∃ a, buildForecastArtifact .standard .ascii evens noCode friendlies
      friendlyRequest = .ok a := buildForecastArtifact_total hplan hcoherent
  obtain ⟨id, digest, bytes, c, -, -, -, -, -, hwrite, hload⟩ :=
    roundTrips_build ha (validateArtifact_build sealInputs_friendlyRequest ha)
  obtain ⟨written, hwrite⟩ := hwrite emptyLedger fun existing h => by simp [emptyLedger] at h
  obtain ⟨-, -, hload, -⟩ := hload _ _ _ hwrite
  have hseal : sealForecast .standard .ascii earlyCall.engine earlyCall.code friendlies
      friendlyRequest emptyLedger = .ok (id, written) := by
    have hbuild : buildForecastArtifact .standard .ascii earlyCall.engine earlyCall.code friendlies
        friendlyRequest = .ok a := ha
    rw [sealForecast, hbuild]
    simp only [hwrite, Lib.wrapError, bind, Except.bind]
  have hscan : existingSeal .standard emptyLedger earlyCall.matchId earlyCall.family = .ok none :=
    rfl
  exact ⟨written, c, underLock_sealed hscan hseal hload⟩

/-- The ledger and the two answers at the end. -/
theorem sealRun_friendlies : ∃ written c, SealRun .standard .ascii emptyLedger
    ⟨written, [], [⟨earlyCall, .ok (resultView true c)⟩, ⟨lateCall, .error (.refused 422
      "kickoff_passed"
      "the seal window closes at kickoff (date-only source: 00:00 UTC on match day)")⟩]⟩ := by
  obtain ⟨written, c, hunder⟩ := underLock_earlyCall
  exact ⟨written, c, sealRun_answered_refused gate_earlyCall hunder gate_lateCall⟩

/-- **A repeated request may raise**: asked for again after its kickoff, a sealed fixture is turned
away at the gate. -/
theorem repeat_after_kickoff : ∃ s first later r e, SealRun .standard .ascii emptyLedger s ∧
    s.replies = [first, later] ∧ first.call.SameSeal later.call ∧ first.outcome = .ok r ∧
      later.outcome = .error e := by
  obtain ⟨written, c, hrun⟩ := sealRun_friendlies
  exact ⟨_, _, _, _, _, hrun, rfl, ⟨rfl, rfl⟩, rfl, rfl⟩

/-- The friendly's ledger has one root seal of it. -/
theorem one_root_seal_friendly : ∃ written c, OneRoot .standard written ∧
    [(⟨earlyCall, .ok (resultView true c)⟩ : SealReply), ⟨lateCall, .error (.refused 422
      "kickoff_passed"
      "the seal window closes at kickoff (date-only source: 00:00 UTC on match day)")⟩].Pairwise
        Repeats := by
  obtain ⟨written, c, hrun⟩ := sealRun_friendlies
  obtain ⟨hone, hrepeats, -⟩ := one_root_seal .standard .ascii oneRoot_emptyLedger hrun
  exact ⟨written, c, hone, hrepeats⟩

end Golavo.Ledger
