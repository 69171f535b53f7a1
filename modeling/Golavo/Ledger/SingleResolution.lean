import Golavo.Ledger.Settlement
import Golavo.Ledger.SealIdentity
import Golavo.Ledger.SoundLedger

/-! # A seal resolves at most once

A ledger under its five writers: the sealer, the two scorers, the voider and the settler. Each keeps
a ledger sound as long as a seal that already has a successor is not given a different verdict; the
settler never does, since it only takes up open seals. -/

namespace Golavo.Ledger

open Golavo.Lib (Json Directory Reaches foldl_invariant orFail_ok_iff bind_ok_iff wrapError_ok_iff
  failIf_ok_iff mapM_eq_some_iff toOption_eq_some)
open Golavo.Forecast (Engine)
open Golavo.Ingest (Pack snapshotDescriptor)

/-! ## Calls -/

/-- Compute and write a seal (`seal_forecast`). -/
def sealForecast (rt : Runtime) (u : Unicode) (engine : Engine) (code : CodeSha) (pack : Pack)
    (req : SealRequest) (store : Store) : Except (SealError ⊕ StoreError) (String × Store) := do
  let artifact ← Lib.wrapError .inl (buildForecastArtifact rt u engine code pack req)
  Lib.wrapError .inr (writeArtifact rt artifact store)

/-- A call on a ledger. -/
inductive Call where
  | sealing (engine : Engine) (code : CodeSha) (pack : Pack) (req : SealRequest)
  | score (stem : String) (newerPack : Pack)
  | scoreResult (stem : String) (resultSnapshot : { j : Json // j.WF }) (homeGoals awayGoals : Int)
  | void (stem voidedAtUtc reason : String)
  | settle (feeds : Feeds) (now : Int)

/-- The ledger a call leaves: unchanged where it raises. -/
def Call.run (rt : Runtime) (u : Unicode) (store : Store) : Call → Store
  | .sealing engine code pack req =>
      match sealForecast rt u engine code pack req store with
      | .ok (_, written) => written
      | .error _ => store
  | .score stem newerPack =>
      match scoreForecast rt u stem newerPack store with
      | .ok (_, written) => written
      | .error _ => store
  | .scoreResult stem resultSnapshot homeGoals awayGoals =>
      match scoreForecastResult rt stem resultSnapshot homeGoals awayGoals store with
      | .ok (_, written) => written
      | .error _ => store
  | .void stem voidedAtUtc reason =>
      match voidForecast rt u stem voidedAtUtc reason store with
      | .ok (_, written) => written
      | .error _ => store
  | .settle feeds now => (settlePendingForecasts rt u (feeds.loaders u) now store).1

/-- The seal a call names and the verdict it gives of it. -/
def Call.verdict (u : Unicode) (sealed : Json) : Call → Option (String × Verdict)
  | .score stem newerPack =>
      (completedResult u sealed newerPack).toOption.map fun goals =>
        (stem, .scored (snapshotDescriptor newerPack.manifest) goals.1 goals.2)
  | .scoreResult stem resultSnapshot homeGoals awayGoals =>
      some (stem, .scored resultSnapshot homeGoals awayGoals)
  | .void stem voidedAtUtc reason =>
      (parseUtc voidedAtUtc).map fun voidedAt =>
        (stem, .voided voidedAt (String.ofList (u.strip reason.toList)))
  | _ => none

/-- What a scored or voided artifact says it was made from. -/
def Records (a : Json) : Verdict → Prop
  | .scored resultSnapshot homeGoals awayGoals =>
      statusOf a = some "scored" ∧
        ((snapshotsOf a).bind List.getLast?) = some resultSnapshot ∧
        ∃ evaluation actual, a.get "evaluation" = some evaluation ∧
          evaluation.get "actual" = some actual ∧
          actual.get "home_goals" = some (.int homeGoals) ∧
          actual.get "away_goals" = some (.int awayGoals)
  | .voided voidedAt reason =>
      statusOf a = some "voided" ∧ a.get "void_reason" = some (.str reason) ∧
        (a.get "provenance").bind (·.get "created_at_utc") = some (.str (isoText voidedAt))

/-- A seal's own checks turn a verdict away: it is not open, the result is not newer, or a score is
negative. -/
def Verdict.Refused (sealed : Json) : Verdict → Prop
  | .scored resultSnapshot homeGoals awayGoals =>
      (∃ e, scoreSnapshotAnchor sealed resultSnapshot = .error e) ∨ homeGoals < 0 ∨ awayGoals < 0
  | .voided _ _ => statusOf sealed ≠ some "sealed" ∧ statusOf sealed ≠ some "abstained"

/-- A call does not resolve a seal a second time: wherever the seal it names already has a
successor, the seal turns the verdict away, or the successor records that very verdict. -/
def Call.ResolvesOnce (rt : Runtime) (u : Unicode) (store : Store) (call : Call) : Prop :=
  ∀ sealed stem v, call.verdict u sealed = some (stem, v) →
    loadVerifiedArtifact rt store stem = .ok sealed →
    ∀ file a, loadVerifiedArtifact rt store file = .ok a → supersededOf a = some stem →
      v.Refused sealed ∨ Records a v

/-! ## The sealer -/

section Seal

variable {rt : Runtime} {u : Unicode} {engine : Engine} {code : CodeSha} {pack : Pack}
  {req : SealRequest} {a c : Json} {store store' : Store} {stem : String}

/-- What the sealer makes is a root, and so is its canonical form. -/
theorem root_of_build (h : buildForecastArtifact rt u engine code pack req = .ok a)
    (hc : canonical a = some c) : Root c := by
  obtain ⟨plan, bytes, -, hfinal⟩ := buildForecastArtifact_ok h
  constructor
  · rw [supersededOf, get_canonical hc (by decide), get_finalise hfinal (by decide) (by decide)]
    simp [sealRecord, Json.get_mk, Lib.Fields.getField, Json.text?]
  · refine ⟨if plan.abstained then "abstained" else "sealed", ?_, ?_⟩
    · split_ifs <;> simp [rootStatuses]
    · rw [statusOf, get_canonical hc (by decide), get_finalise hfinal (by decide) (by decide)]
      simp [sealRecord, Json.get_mk, Lib.Fields.getField, Json.text?]

/-- A seal that is computed and written leaves the written ledger. -/
theorem run_sealing (ha : buildForecastArtifact rt u engine code pack req = .ok a)
    (hwrite : writeArtifact rt a store = .ok (stem, store')) :
    (Call.sealing engine code pack req).run rt u store = store' := by
  simp only [Call.run, sealForecast, ha, hwrite, Lib.wrapError, bind, Except.bind]

/-- What the sealer writes has a canonical form that is valid and identified by its file's name. -/
theorem canonical_of_build (ha : buildForecastArtifact rt u engine code pack req = .ok a)
    (hwrite : writeArtifact rt a store = .ok (stem, store')) :
    ∃ c, canonical a = some c ∧ c.WF ∧ validateArtifact rt c = .ok () ∧
      ∃ digest, Identified rt c stem digest := by
  obtain ⟨hvalid, -⟩ := writeArtifact_ok hwrite
  obtain ⟨plan, hash, hplan, hfinal⟩ := buildForecastArtifact_ok ha
  have hwf := wf_finalise (wf_sealRecord hplan _ _) hfinal
  obtain ⟨id, digest, bytes, c, -, hbytes, hloads, -, -, -, hloaded⟩ := roundTrips_build ha hvalid
  obtain ⟨rfl, -, hload, -⟩ := hloaded _ _ _ hwrite
  obtain ⟨-, hcvalid, hident⟩ := loadVerifiedArtifact_ok hload
  obtain ⟨d, hd, rfl⟩ := Option.map_eq_some_iff.mp hbytes
  rw [loads_canonicalBytes hwf hd] at hloads
  obtain rfl := Option.some.inj hloads
  exact ⟨d, hd, wf_canonical hwf hd, hcvalid, hident⟩

/-- **Sealing keeps a ledger sound.** -/
theorem Sound.seal (hsound : Sound rt store)
    (h : sealForecast rt u engine code pack req store = .ok (stem, store')) : Sound rt store' := by
  obtain ⟨a, ha, hwrite⟩ := bind_ok_iff.mp h
  have ha := wrapError_ok_iff.mp ha
  have hwrite := wrapError_ok_iff.mp hwrite
  obtain ⟨c, hc, hwf, hvalid, hident⟩ := canonical_of_build ha hwrite
  have hroot := root_of_build ha hc
  refine hsound.write hwrite hc hwf hvalid hident (.inl hroot) ?_
  intro name b superseded _ _ hsuperseded
  rw [hroot.supersedes] at hsuperseded
  cases hsuperseded

end Seal

/-! ## Verdicts -/

section Resolve

variable {rt : Runtime} {sealed a b : Json} {v w : Verdict} {store store' : Store} {stem file : String}

/-- Only an open artifact has a successor. -/
theorem open_of_successor (h : successor rt sealed v = some a) :
    statusOf sealed = some "sealed" ∨ statusOf sealed = some "abstained" := by
  cases v with
  | scored resultSnapshot homeGoals awayGoals =>
      obtain ⟨newAnchor, t, id, snapshots, hanchor, -⟩ := successor_scored_eq_some.mp h
      obtain ⟨_, hopen, -⟩ := bind_ok_iff.mp hanchor
      have hopen := failIf_ok_iff.mp hopen
      tauto
  | voided voidedAt reason => exact (successor_voided_eq_some.mp h).1

theorem Sound.root_of_open (hsound : Sound rt store) (hsealed : Holds rt store stem sealed)
    (hopen : statusOf sealed = some "sealed" ∨ statusOf sealed = some "abstained") :
    Root sealed := by
  refine (hsound.kinds stem sealed hsealed).resolve_right ?_
  rintro ⟨_, _, v, -, -, -, hmade⟩
  rw [statusOf_successor hmade] at hopen
  cases v <;> simp [Verdict.status] at hopen

/-- **Resolving a seal keeps a ledger sound**, when no other artifact succeeds it. -/
theorem Sound.resolve (hsound : Sound rt store) (hsealed : Holds rt store stem sealed)
    (hv : v.WF) (hmade : successor rt sealed v = some a)
    (hwrite : writeArtifact rt a store = .ok (file, store'))
    (honce : ∀ name b, Holds rt store name b → supersededOf b = some stem → b = a) :
    Sound rt store' := by
  have hread := hsealed.readBack
  obtain ⟨hwf, hcanonical⟩ := canonical_successor hread hv hmade
  obtain ⟨hvalid, hid, -⟩ := writeArtifact_ok hwrite
  obtain ⟨id, digest, hident⟩ := identified_successor hread hv hmade hvalid
  obtain rfl := Json.str.inj (Option.some.inj (hident.artifact_id.symm.trans hid))
  have hroot := hsound.root_of_open hsealed (open_of_successor hmade)
  refine hsound.write hwrite hcanonical hwf hvalid ⟨digest, hident⟩
    (.inr ⟨stem, sealed, v, hsealed, hroot, hv, hmade⟩) ?_
  intro name b superseded hb hsuperseded hsuperseded'
  rw [supersededOf_successor hmade, hsealed.idOf] at hsuperseded'
  rw [← Option.some.inj hsuperseded'] at hsuperseded
  exact honce name b hb hsuperseded

/-- A finalised record keeps what its provenance says besides the digest. -/
theorem get_provenance_finalise {record : Json} (h : finalise rt record = some a) {key : String}
    (hkey : key ≠ "payload_sha256") : (a.get "provenance").bind (·.get key) =
      (record.get "provenance").bind (·.get key) := by
  obtain ⟨id, -, h⟩ := Option.bind_eq_some_iff.mp h
  obtain ⟨digest, -, h⟩ := Option.bind_eq_some_iff.mp h
  rw [← Option.some.inj h, Json.get_update_self, Json.get_set_ne (by decide)]
  cases record.get "provenance" with
  | none => rfl
  | some provenance => simp [Json.get_set_ne hkey]

/-- The snapshots of a scored successor end with the result's. -/
theorem snapshotsOf_scored {resultSnapshot : Json} {homeGoals awayGoals : Int} {snapshots : List Json}
    (h : successor rt sealed (.scored resultSnapshot homeGoals awayGoals) = some a)
    (hsnapshots : snapshotsOf sealed = some snapshots) :
    snapshotsOf a = some (snapshots ++ [resultSnapshot]) := by
  obtain ⟨newAnchor, t, id, snapshots', -, -, -, -, hsnapshots', hfinal⟩ :=
    successor_scored_eq_some.mp h
  obtain rfl := Option.some.inj (hsnapshots.symm.trans hsnapshots')
  obtain ⟨inputs, hinputs, hobj⟩ : ∃ inputs, sealed.get "inputs" = some inputs ∧
      inputs.isObj = true := by
    unfold snapshotsOf at hsnapshots
    split at hsnapshots
    · rename_i items hitems
      obtain ⟨inputs, hinputs, hget⟩ := Option.bind_eq_some_iff.mp hitems
      exact ⟨inputs, hinputs, Json.isObj_of_get hget⟩
    · cases hsnapshots
  rw [snapshotsOf, get_finalise hfinal (by decide) (by decide), scoreRecord, renewProvenance,
    Json.get_update_ne (by decide), Json.get_set_ne (by decide), Json.get_update_self,
    Json.get_set_ne (by decide), Json.get_set_ne (by decide), hinputs, Option.map_some,
    Option.bind_some, Json.get_set_self hobj]

/-- **A verdict that an artifact records makes it again**: a seal's successor tells which result, or
which time and reason, it was made from. -/
theorem successor_of_records (hmade : successor rt sealed w = some a) (hrecords : Records a v)
    (hother : successor rt sealed v = some b) : a = b := by
  cases w with
  | scored resultSnapshot homeGoals awayGoals =>
      cases v with
      | voided voidedAt reason =>
          have hstatus := hrecords.1
          rw [statusOf_successor hmade] at hstatus
          simp [Verdict.status] at hstatus
      | scored resultSnapshot' homeGoals' awayGoals' =>
          obtain ⟨-, hlast, evaluation, actual, heval, hactual, hhome, haway⟩ := hrecords
          obtain ⟨newAnchor, t, id, snapshots, hanchor, hgoals, ht, hid, hsnapshots, hfinal⟩ :=
            successor_scored_eq_some.mp hmade
          obtain ⟨newAnchor', t', id', snapshots', hanchor', hgoals', ht', hid', hsnapshots',
            hfinal'⟩ := successor_scored_eq_some.mp hother
          rw [snapshotsOf_scored hmade hsnapshots, Option.bind_some, List.getLast?_append] at hlast
          obtain rfl : resultSnapshot = resultSnapshot' := by simpa using hlast
          obtain ⟨t₁, anchor₁, hblock⟩ := evaluation_scored hmade
          obtain rfl := Option.some.inj (hblock.symm.trans heval)
          rw [actual_evaluationBlock] at hactual
          obtain rfl := Option.some.inj hactual
          rw [Json.get_mk] at hhome haway
          obtain rfl : homeGoals = homeGoals' := by simpa [Lib.Fields.getField] using hhome
          obtain rfl : awayGoals = awayGoals' := by simpa [Lib.Fields.getField] using haway
          exact Option.some.inj (hmade.symm.trans hother)
  | voided voidedAt reason =>
      cases v with
      | scored resultSnapshot homeGoals awayGoals =>
          have hstatus := hrecords.1
          rw [statusOf_successor hmade] at hstatus
          simp [Verdict.status] at hstatus
      | voided voidedAt' reason' =>
          obtain ⟨-, hreason, hcreated⟩ := hrecords
          obtain ⟨hopen, id, hid, hfinal⟩ := successor_voided_eq_some.mp hmade
          obtain ⟨-, id', hid', hfinal'⟩ := successor_voided_eq_some.mp hother
          obtain rfl := Option.some.inj (hid.symm.trans hid')
          have hobj := Json.isObj_of_get hid
          rw [get_finalise hfinal (by decide) (by decide), voidRecord, renewProvenance,
            Json.get_update_ne (by decide), Json.get_set_self (by simpa using hobj)] at hreason
          obtain rfl : reason = reason' := by simpa using hreason
          rw [get_provenance_finalise hfinal (by decide), voidRecord, renewProvenance,
            Json.get_update_self, Json.get_set_ne (by decide), Json.get_set_ne (by decide),
            Json.get_set_ne (by decide)] at hcreated
          have htime : isoText voidedAt = isoText voidedAt' := by
            obtain ⟨provenance, hprovenance, hcreated⟩ := Option.bind_eq_some_iff.mp hcreated
            obtain ⟨original, -, rfl⟩ := Option.map_eq_some_iff.mp hprovenance
            have hblock : original.isObj = true := by simpa using Json.isObj_of_get hcreated
            rw [Json.get_set_ne (by decide), Json.get_set_self hblock] at hcreated
            simpa using hcreated
          rw [voidRecord, renewProvenance, htime] at hfinal
          exact Option.some.inj (hfinal.symm.trans hfinal')

end Resolve

/-! ## The settler -/

section Settle

variable {rt : Runtime} {u : Unicode}

/-- What is observed of martj42 is pinned by the descriptor of a committed feed. -/
theorem snapshot_fetchMartj42 {source : Except SettlementError Feed} {retrievedAt : String}
    {targets : List MatchKey} {results : SourceResults}
    (h : fetchMartj42 u source retrievedAt targets = .ok results) :
    ∃ url feed, commit feed = .ok () ∧
      results.snapshot = feedDescriptor martjSource url retrievedAt feed := by
  obtain ⟨feed, -, h⟩ := bind_ok_iff.mp h
  obtain ⟨_, hcommit, h⟩ := bind_ok_iff.mp h
  obtain ⟨scores, -, h⟩ := bind_ok_iff.mp h
  rw [← Except.ok.inj h]
  exact ⟨_, feed, hcommit, rfl⟩

theorem snapshot_fetchWorldCup {source : Except SettlementError Feed} {year retrievedAt : String}
    {targets : List MatchKey} {results : SourceResults}
    (h : fetchWorldCup u source year retrievedAt targets = .ok results) :
    ∃ url feed, commit feed = .ok () ∧
      results.snapshot = feedDescriptor worldCupSource url retrievedAt feed := by
  obtain ⟨_, -, h⟩ := bind_ok_iff.mp h
  obtain ⟨feed, -, h⟩ := bind_ok_iff.mp h
  obtain ⟨_, hcommit, h⟩ := bind_ok_iff.mp h
  obtain ⟨scores, -, h⟩ := bind_ok_iff.mp h
  rw [← Except.ok.inj h]
  exact ⟨_, feed, hcommit, rfl⟩

/-- The descriptor of every source observed has a property. -/
structure Observed.All (P : Json → Prop) (seen : Observed) : Prop where
  martj : ∀ s ∈ seen.martj, P s.snapshot
  worldCup : ∀ s ∈ seen.worldCup, P s.2.snapshot

/-- Whatever a loader answers, its descriptor has a property. -/
structure Loaders.All (P : Json → Prop) (loaders : Loaders) : Prop where
  martj : ∀ retrievedAt targets source, loaders.martj retrievedAt targets = .ok source →
    P source.snapshot
  worldCup : ∀ year retrievedAt targets source,
    loaders.worldCup year retrievedAt targets = .ok source → P source.snapshot

/-- **What all descriptors of the loaders have, all sources observed have.** -/
theorem all_observe {P : Json → Prop} {loaders : Loaders} (hP : loaders.All P)
    (retrievedAt : String) (eligible : List Chain) :
    (observe u loaders retrievedAt eligible).All P := by
  have hmartj : (if eligible = [] then (⟨none, [], []⟩ : Observed)
      else observeMartj loaders retrievedAt (eligible.map (chainKey u))).All P := by
    unfold observeMartj
    split_ifs
    · exact ⟨by simp, by simp⟩
    · split
      · rename_i source hsource
        refine ⟨fun s hs => ?_, by simp⟩
        split_ifs at hs
        · obtain rfl := Option.some.inj hs
          exact hP.martj _ _ _ hsource
        · cases hs
      · exact ⟨by simp, by simp⟩
  refine @foldl_invariant _ _ _ (fun _ seen => Observed.All P seen) ?_ _ _ hmartj
  intro year rest seen hseen
  unfold observeWorldCup
  split
  · rename_i source hsource
    refine ⟨hseen.martj, fun s hs => ?_⟩
    rcases List.mem_append.mp hs with hs | hs
    · exact hseen.worldCup s hs
    · rw [List.mem_singleton.mp hs]
      exact hP.worldCup _ _ _ _ hsource
  · exact ⟨hseen.martj, hseen.worldCup⟩

/-- What all descriptors of committed feeds have, the loaders that fetch them have. -/
theorem Feeds.all_loaders {P : Json → Prop} (feeds : Feeds)
    (hP : ∀ sourceId url retrievedAt feed, commit feed = .ok () →
      P (feedDescriptor sourceId url retrievedAt feed)) : (feeds.loaders u).All P where
  martj retrievedAt targets source hsource := by
    obtain ⟨url, feed, hcommit, hsnapshot⟩ := snapshot_fetchMartj42 hsource
    rw [hsnapshot]
    exact hP _ url _ feed hcommit
  worldCup year retrievedAt targets source hsource := by
    obtain ⟨url, feed, hcommit, hsnapshot⟩ := snapshot_fetchWorldCup hsource
    rw [hsnapshot]
    exact hP _ url _ feed hcommit

/-- What the descriptors of all sources have, the observations of a seal have. -/
theorem Observed.All.observations {P : Json → Prop} {seen : Observed} (h : seen.All P)
    {chain : Chain} {o : (Int × Int) × Json} (ho : o ∈ observations u seen chain) : P o.2 := by
  have hfrom : ∀ (source : Option SourceResults) (items : List ((Int × Int) × Json)),
      (source = none → items = []) →
      (∀ s, source = some s → items =
        (s.results.find (chainKey u chain)).toList.map fun score => (score, s.snapshot)) →
      (∀ s ∈ source, P s.snapshot) → o ∈ items → P o.2 := by
    intro source items hnone hsome hsource ho
    cases source with
    | none => simp [hnone rfl] at ho
    | some s =>
        rw [hsome s rfl] at ho
        obtain ⟨score, -, rfl⟩ := List.mem_map.mp ho
        exact hsource s rfl
  rcases List.mem_append.mp ho with ho | ho
  · exact hfrom seen.martj _ (fun hs => by simp only [hs]) (fun s hs => by simp only [hs]) h.martj ho
  · split_ifs at ho
    · exact hfrom (Lib.Fields.getField (String.ofList (chain.kickoffUtc.toList.take 4)) seen.worldCup) _
        (fun hs => by simp only [hs]) (fun s hs => by simp only [hs])
        (fun s hs => h.worldCup _ (Lib.Fields.mem_of_getField hs)) ho
    · simp at ho

/-- What is observed of a seal is pinned by well-formed descriptors. -/
theorem wf_observations {seen : Observed} {chain : Chain} {o : (Int × Int) × Json}
    (ho : o ∈ observations u seen chain) : o.2.WF :=
  Observed.All.observations ⟨fun s _ => s.snapshot_wf, fun s _ => s.2.snapshot_wf⟩ ho

/-- The newest observation is one of them. -/
theorem newestSnapshot_mem {found : List ((Int × Int) × Json)} {snapshot : Json}
    (h : newestSnapshot found = some snapshot) : ∃ o ∈ found, o.2 = snapshot := by
  cases found with
  | nil => cases h
  | cons first rest =>
      refine ⟨_, Lib.foldl_pick_mem (fun best o => ?_) rest first, Option.some.inj h⟩
      split_ifs
      · exact .inr rfl
      · exact .inl rfl

/-- A settling step leaves the ledger, or scores the seal from a well-formed result. -/
theorem settleChain_store {seen : Observed} {run next : Settling} {chain : Chain}
    (h : settleChain rt u seen run chain = .ok next) :
    next.store = run.store ∨
      ∃ (snapshot : Json) (homeGoals awayGoals : Int) (stem : String), snapshot.WF ∧
        scoreForecastResult rt chain.sealedArtifactId snapshot homeGoals awayGoals run.store =
          .ok (stem, next.store) := by
  unfold settleChain at h
  dsimp only at h
  split at h
  · rename_i score _ _ snapshot _ hnewest
    split_ifs at h
    · rw [← Except.ok.inj h]
      exact .inl rfl
    · unfold settleScore at h
      split at h
      · rename_i stem store hscore
        obtain ⟨o, ho, rfl⟩ := newestSnapshot_mem hnewest
        rw [← Except.ok.inj h]
        exact .inr ⟨o.2, score.1, score.2, stem, wf_observations ho, hscore⟩
      · split_ifs at h
        rw [← Except.ok.inj h]
        exact .inl rfl
  · rw [← Except.ok.inj h]
    exact .inl rfl

/-- What every settling step keeps, a whole run keeps, however far it gets. -/
theorem settleChains_invariant {seen : Observed} {inv : List Chain → Settling → Prop}
    (hstep : ∀ chain rest run next, inv (chain :: rest) run →
      settleChain rt u seen run chain = .ok next → inv rest next)
    {chains : List Chain} {run : Settling} (h : inv chains run) :
    ∃ todo, inv todo (settleChains rt u seen run chains).1 := by
  induction chains generalizing run with
  | nil => exact ⟨[], h⟩
  | cons chain rest ih =>
      rw [settleChains]
      split
      · rename_i next hnext
        exact ih (hstep chain rest run next h hnext)
      · exact ⟨_, h⟩

end Settle

/-! ## Runs -/

section Runs

variable {rt : Runtime} {u : Unicode} {store : Store}

/-- Scoring the seal a ledger holds, where nothing else succeeds it, keeps the ledger sound and adds
no successor of another seal. -/
theorem Sound.score (hsound : Sound rt store) {stem file : String} {snapshot : Json}
    (hsnapshot : snapshot.WF) {homeGoals awayGoals : Int} {store' : Store}
    (h : scoreForecastResult rt stem snapshot homeGoals awayGoals store = .ok (file, store'))
    (honce : ∀ sealed a, Holds rt store stem sealed →
      successor rt sealed (.scored snapshot homeGoals awayGoals) = some a →
      ∀ name b, Holds rt store name b → supersededOf b = some stem → b = a) :
    Sound rt store' ∧ ∀ name b, Holds rt store' name b → Holds rt store name b ∨
      supersededOf b = some stem := by
  obtain ⟨sealed, hload, hscore⟩ := bind_ok_iff.mp h
  have hsealed := hsound.holds_of_load (wrapError_ok_iff.mp hload)
  obtain ⟨a, hmade, hwrite⟩ := successor_of_scoreVerifiedSeal hscore
  have hv : (Verdict.scored snapshot homeGoals awayGoals).WF := hsnapshot
  refine ⟨hsound.resolve hsealed hv hmade hwrite (honce sealed a hsealed hmade), ?_⟩
  intro name b hb
  obtain ⟨hwf, hcanonical⟩ := canonical_successor hsealed.readBack hv hmade
  obtain ⟨hvalid, hid, -⟩ := writeArtifact_ok hwrite
  obtain ⟨id, digest, hident⟩ := identified_successor hsealed.readBack hv hmade hvalid
  obtain rfl := Json.str.inj (Option.some.inj (hident.artifact_id.symm.trans hid))
  rcases (holds_write hwrite hcanonical hwf hvalid ⟨digest, hident⟩ name b).mp hb with hb | ⟨-, rfl⟩
  · exact .inl hb
  · exact .inr ((supersededOf_successor hmade).trans hsealed.idOf)

/-- The open seals are those of the record that are still open, sorted. -/
theorem openSeals_ok {now : Int} {seals : OpenSeals} (h : openSeals rt now store = .ok seals) :
    ∃ summary, calibrationSummary rt store = .ok summary ∧
      seals.unresolved = unresolvedChains summary ∧
      (∀ chain ∈ seals.unresolved, ∃ kickoff, kickoffInstant chain = some kickoff) ∧
      seals.deferred = seals.unresolved.filter (fun c => !isDue now c) ∧
      seals.clubs = seals.unresolved.filter (fun c =>
        isDue now c && requiresIndependentConfirmation c.competition) ∧
      seals.eligible = seals.unresolved.filter (fun c =>
        isDue now c && !requiresIndependentConfirmation c.competition) := by
  obtain ⟨summary, hsummary, h⟩ := bind_ok_iff.mp h
  obtain ⟨_, hkickoffs, h⟩ := bind_ok_iff.mp h
  obtain rfl := Except.ok.inj h
  rw [failIf_ok_iff, Bool.not_eq_true, List.any_eq_false] at hkickoffs
  refine ⟨summary, wrapError_ok_iff.mp hsummary, rfl, fun chain hchain => ?_, rfl, rfl, rfl⟩
  have hnone := hkickoffs chain hchain
  rw [decide_eq_true_iff] at hnone
  exact Option.ne_none_iff_exists'.mp hnone

/-- What a settlement does to the ledger: nothing, or it settles some of the open seals, in the
order of the record. -/
theorem settlePendingForecasts_store (loaders : Loaders) (now : Int) :
    (settlePendingForecasts rt u loaders now store).1 = store ∨
      ∃ (summary : Summary) (seals : OpenSeals) (seen : Observed),
        calibrationSummary rt store = .ok summary ∧
        seals.eligible.Sublist (unresolvedChains summary) ∧
        seen = observe u loaders (isoText (wholeSeconds now)) seals.eligible ∧
        (settlePendingForecasts rt u loaders now store).1 =
          (settleChains rt u seen (startSettling store seals seen) seals.eligible).1.store := by
  unfold settlePendingForecasts
  dsimp only
  split
  · exact .inl rfl
  · rename_i seals hseals
    obtain ⟨summary, hsummary, hunresolved, -, -, -, heligible⟩ := openSeals_ok hseals
    refine .inr ⟨summary, seals, _, hsummary, ?_, rfl, ?_⟩
    · rw [heligible, hunresolved]
      exact List.filter_sublist
    · split
      · rename_i hrun
        rw [hrun]
      · rename_i hrun
        rw [hrun]

/-- Settling open seals, each once, keeps a ledger sound. -/
theorem Sound.settleChains {seen : Observed} (eligible : List Chain)
    {run : Settling} (hsound : Sound rt run.store)
    (hdistinct : (eligible.map Chain.sealedArtifactId).Nodup)
    (hopen : ∀ chain ∈ eligible, ∀ name b, Holds rt run.store name b →
      supersededOf b ≠ some chain.sealedArtifactId) :
    Sound rt (settleChains rt u seen run eligible).1.store := by
  refine (@settleChains_invariant rt u seen (fun todo run => Sound rt run.store ∧
    (todo.map Chain.sealedArtifactId).Nodup ∧ ∀ chain ∈ todo, ∀ name b,
      Holds rt run.store name b → supersededOf b ≠ some chain.sealedArtifactId) ?_ eligible run
    ⟨hsound, hdistinct, hopen⟩).choose_spec.1
  intro chain rest run next ⟨hrun, hids, hfree⟩ hnext
  rw [List.map_cons, List.nodup_cons] at hids
  rcases settleChain_store hnext with
    hstore | ⟨snapshot, homeGoals, awayGoals, file, hsnapshot, hscore⟩
  · rw [hstore]
    exact ⟨hrun, hids.2, fun c hc => hfree c (List.mem_cons_of_mem _ hc)⟩
  · obtain ⟨hsound, hadded⟩ := hrun.score hsnapshot hscore fun _ _ _ _ name b hb hs =>
      absurd hs (hfree chain List.mem_cons_self name b hb)
    refine ⟨hsound, hids.2, fun c hc name b hb hs => ?_⟩
    rcases hadded name b hb with hb | hs'
    · exact hfree c (List.mem_cons_of_mem _ hc) name b hb hs
    · have heq := Option.some.inj (hs'.symm.trans hs)
      exact hids.1 (heq ▸ List.mem_map_of_mem (f := Chain.sealedArtifactId) hc)

/-- **Settling keeps a ledger sound**: it takes up open seals, each once. -/
theorem Sound.settle (hsound : Sound rt store) (loaders : Loaders) (now : Int) : Sound rt (settlePendingForecasts rt u loaders now store).1 := by
  rcases @settlePendingForecasts_store rt u store loaders now with
    hstore | ⟨summary, seals, seen, hsummary, hsub, rfl, hstore⟩
  · rwa [hstore]
  · rw [hstore]
    obtain ⟨known, hknown, hnodup, hrecorded⟩ := hsound.calibrationSummary
    obtain rfl := Except.ok.inj (hknown.symm.trans hsummary)
    refine Sound.settleChains _ hsound
      (hnodup.sublist ((hsub.trans List.filter_sublist).map _)) fun chain hchain => ?_
    have hmem := List.mem_filter.mp (hsub.subset hchain)
    simp only [Bool.and_eq_true, decide_eq_true_eq] at hmem
    exact (hrecorded chain hmem.1).pending hmem.2.1.1

/-- A verdict that makes a successor was not refused. -/
theorem not_refused_of_successor {sealed a : Json} {v : Verdict}
    (h : successor rt sealed v = some a) : ¬ v.Refused sealed := by
  cases v with
  | scored resultSnapshot homeGoals awayGoals =>
      obtain ⟨newAnchor, t, id, snapshots, hanchor, hgoals, -⟩ := successor_scored_eq_some.mp h
      rintro (⟨e, he⟩ | hgoals')
      · rw [hanchor] at he
        cases he
      · omega
  | voided voidedAt reason =>
      have hopen := (successor_voided_eq_some.mp h).1
      rintro ⟨h₁, h₂⟩
      tauto

/-- What a call that resolves once writes is the only successor of its seal. -/
theorem Call.ResolvesOnce.eq_made {call : Call} (honce : call.ResolvesOnce rt u store)
    (hsound : Sound rt store) {sealed a : Json} {stem : String} {v : Verdict}
    (hverdict : call.verdict u sealed = some (stem, v)) (hsealed : Holds rt store stem sealed)
    (hmade : successor rt sealed v = some a) (name : String) (b : Json)
    (hb : Holds rt store name b) (hs : supersededOf b = some stem) : b = a := by
  rcases honce sealed stem v hverdict hsealed.load name b hb.load hs with hrefused | hrecords
  · exact absurd hrefused (not_refused_of_successor hmade)
  · rcases hsound.kinds name b hb with hroot | ⟨stem', sealed', w, hsealed', -, -, hmade'⟩
    · rw [hroot.supersedes] at hs
      cases hs
    · have hsame := (supersededOf_successor hmade').trans hsealed'.idOf
      obtain rfl := Option.some.inj (hsame.symm.trans hs)
      obtain rfl := hsealed.unique hsealed'
      exact successor_of_records hmade' hrecords hmade

/-- **A call that resolves no seal twice keeps a ledger sound.** -/
theorem Sound.run (hsound : Sound rt store) {call : Call} (honce : call.ResolvesOnce rt u store) :
    Sound rt (call.run rt u store) := by
  cases call with
  | sealing engine code pack req =>
      simp only [Call.run]
      split
      · rename_i hrun
        exact hsound.seal hrun
      · exact hsound
  | score stem newerPack =>
      simp only [Call.run]
      split
      · rename_i hrun
        obtain ⟨sealed, hload, hrun⟩ := bind_ok_iff.mp hrun
        obtain ⟨_, -, hrun⟩ := bind_ok_iff.mp hrun
        obtain ⟨goals, hgoals, hrun⟩ := bind_ok_iff.mp hrun
        have hsealed := hsound.holds_of_load (wrapError_ok_iff.mp hload)
        obtain ⟨a, hmade, hwrite⟩ := successor_of_scoreVerifiedSeal hrun
        have hv : (Verdict.scored (snapshotDescriptor newerPack.manifest) goals.1 goals.2).WF := by
          rw [Verdict.WF, snapshotDescriptor]
          exact wf_descriptor _ _ _ _ _ _ _
        refine hsound.resolve hsealed hv hmade hwrite
          fun name b => honce.eq_made hsound ?_ hsealed hmade name b
        simp [Call.verdict, hgoals, Except.toOption]
      · exact hsound
  | scoreResult stem resultSnapshot homeGoals awayGoals =>
      simp only [Call.run]
      split
      · rename_i hrun
        exact (hsound.score resultSnapshot.2 hrun fun sealed a hsealed hmade name b =>
          honce.eq_made hsound rfl hsealed hmade name b).1
      · exact hsound
  | void stem voidedAtUtc reason =>
      simp only [Call.run]
      split
      · rename_i hrun
        obtain ⟨sealed, voidedAt, a, hload, hvoidedAt, hmade, hwrite⟩ :=
          successor_of_voidForecast hrun
        have hsealed := hsound.holds_of_load hload
        refine hsound.resolve hsealed (v := .voided voidedAt _) trivial hmade hwrite
          fun name b => honce.eq_made hsound ?_ hsealed hmade name b
        simp [Call.verdict, hvoidedAt]
      · exact hsound
  | settle feeds now => exact hsound.settle (feeds.loaders u) now

theorem sound_emptyLedger : Sound rt emptyLedger where
  files stem text h := by simp [emptyLedger] at h
  kinds stem a h := by simpa [emptyLedger] using h.read
  once s₁ s₂ a₁ a₂ superseded h := by simpa [emptyLedger] using h.read

/-- No seal of a ledger has two successors, and its calibration record can be read. -/
def ResolvedOnce (rt : Runtime) (store : Store) : Prop :=
  (∀ stem file₁ file₂ a₁ a₂, loadVerifiedArtifact rt store file₁ = .ok a₁ →
    loadVerifiedArtifact rt store file₂ = .ok a₂ → supersededOf a₁ = some stem →
    supersededOf a₂ = some stem → file₁ = file₂) ∧
  ∃ summary, calibrationSummary rt store = .ok summary

end Runs

/-! ## A friendly, scored and then voided -/

theorem wf_newer : newer.WF := by
  rw [newer, snapshotDescriptor]
  exact wf_descriptor _ _ _ _ _ _ _

/-- The call that seals the friendly. -/
def sealFriendly : Call := .sealing evens noCode friendlies request

/-- The ledger after the friendly was sealed. -/
theorem run_sealFriendly : ∃ id c store, sealFriendly.run .standard .ascii emptyLedger = store ∧
    Sound .standard store ∧ sealedFriendly = some c ∧ Holds .standard store id c ∧
    ∀ name b, Holds .standard store name b → name = id ∧ b = c := by
  obtain ⟨a, id, bytes, c, store, ha, hvalid, hc, hbytes, hback, hid, hstore, hwrite, -, -,
    hloaded⟩ := seal_friendly
  have hrun : sealFriendly.run .standard .ascii emptyLedger = store := run_sealing ha hwrite
  have hsound : Sound .standard store := by
    rw [← hrun]
    exact sound_emptyLedger.run (fun sealed stem v h => by simp [sealFriendly, Call.verdict] at h)
  have hholds := hsound.holds_of_load hloaded
  refine ⟨id, c, store, hrun, hsound, ?_, hholds, fun name b hb => ?_⟩
  · rw [sealedFriendly, ha]
    exact hc
  · have hread := hb.read
    rw [hstore] at hread
    by_cases hname : name = id
    · exact ⟨hname, by rw [hname] at hb; exact hb.unique hholds⟩
    · rw [Directory.read_write_ne hname] at hread
      simp at hread

end Golavo.Ledger
