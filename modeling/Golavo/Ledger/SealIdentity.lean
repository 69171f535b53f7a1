import Golavo.Ledger.ResolutionValid

/-! # The identity of a seal survives the ledger

Everything the three operations that make artifacts produce keeps its id and its digest through the
canonical bytes, the file and the reader. -/

namespace Golavo.Ledger

open Golavo.Lib (Decimal Json Schema CompleteLines toOption_eq_some)
open Golavo.Forecast (Triple Prediction Engine Distribution tripleSum canonicalProbs)
open Golavo.Ingest (Pack SourceRow Manifest snapshotDescriptor coSourceDescriptors)

/-- **Seal identity round trip.** What the sealer makes of the inputs its callers promise is
acceptable and round-trips, and so does what the scorer and the voider make of a seal that was
written; and canonical bytes are the canonical bytes of what they read back as, with a written triple
that is a distribution summing to exactly one. -/
theorem seal_identity_round_trip (rt : Runtime) (u : Unicode) :
    (∀ engine code pack req a, buildForecastArtifact rt u engine code pack req = .ok a →
      (SealInputs rt pack req → validateArtifact rt a = .ok ()) ∧
        (validateArtifact rt a = .ok () → RoundTrips rt a)) ∧
    (∀ sealed resultSnapshot homeGoals awayGoals store stem store', ReadBack sealed →
      resultSnapshot.WF →
      scoreVerifiedSeal rt sealed resultSnapshot homeGoals awayGoals store = .ok (stem, store') →
        ∃ a, writeArtifact rt a store = .ok (stem, store') ∧ RoundTrips rt a) ∧
    (∀ file voidedAtUtc reason store stem store',
      (∀ text, store.artifacts.read file = some text →
        ∃ j, Json.loads text = some j ∧ ReadBack j) →
      voidForecast rt u file voidedAtUtc reason store = .ok (stem, store') →
        ∃ a, writeArtifact rt a store = .ok (stem, store') ∧ RoundTrips rt a) ∧
    ∀ payload bytes, payload.WF → canonicalBytes payload = some bytes →
      ∃ c, Json.loads bytes = some c ∧ canonicalBytes c = some bytes ∧
        ∀ probs t, probsOf payload = some probs → tripleOf probs = some t → Distribution t →
          ∃ written, (probsOf c).bind tripleOf = some written ∧ (tripleSum written).toRat = 1 ∧
            ∀ o, 0 ≤ (written.at o).toRat ∧ (written.at o).toRat ≤ 1 := by
  refine ⟨fun engine code pack req a h => ⟨fun hin => validateArtifact_build hin h,
    fun hvalid => roundTrips_build h hvalid⟩, ?_, ?_, ?_⟩
  · intro sealed resultSnapshot homeGoals awayGoals store stem store' hsealed hsnapshot h
    exact roundTrips_score hsealed hsnapshot h
  · intro file voidedAtUtc reason store stem store' hsealed h
    exact roundTrips_void hsealed h
  · intro payload bytes hwf hbytes
    obtain ⟨c, hc, rfl⟩ := Option.map_eq_some_iff.mp hbytes
    refine ⟨c, Json.loads_dumps (wf_canonical hwf hc), ?_, fun probs t hprobs ht hdist => ?_⟩
    · rw [canonicalBytes, canonical_idem hc, Option.map_some]
    · rw [canonical_of_some hprobs ht] at hc
      refine ⟨canonicalProbs t, ?_, hdist.canonical.sum_one,
        fun o => ⟨hdist.canonical.nonneg o, hdist.canonical.le_one o⟩⟩
      rw [← Option.some.inj hc, probsOf_withProbs hprobs, Option.bind_some, tripleOf_tripleJson]

/-! ## A friendly, sealed and scored -/

/-- A pack of ten played friendlies and a scheduled one. -/
def friendlies : Pack where
  manifest :=
    { sourceId := "martj42", upstreamRef := "0123456789abcdef", url := "https://example.org/pack"
      retrievedAtUtc := "2024-01-01T00:00:00Z", license := "CC0-1.0"
      sha256 := "ba7816bf8f01cfea414140de5dae2223b00361a396177a9cb410ff61f20015ad" }
  rows := ((List.range 10).map fun i =>
      { matchId := "m_" ++ String.ofList (List.replicate (i + 1) 'a'), date := 19000 + i
        homeTeam := "Peru", awayTeam := "Chile", homeScore := some 1, awayScore := some 0
        tournament := "Friendly" }) ++
    [{ matchId := "m_b", date := 19800, homeTeam := "Peru", awayTeam := "Chile"
       tournament := "Friendly" }]

/-- The scheduled friendly, asked for six weeks ahead. -/
def request : SealRequest where
  date := "2024-03-18"
  homeTeam := "Peru"
  awayTeam := "Chile"
  asOfUtc := "2024-02-01T12:00:00Z"

/-- One family that answers one half, a quarter and a quarter. -/
def evens : Engine where
  predict _ _ _ _ _ _ :=
    { probs := ⟨.ofScaled 5 1, .ofScaled 25 2, .ofScaled 25 2⟩
      expectedGoals := none
      params := []
      matrix := none
      distribution :=
        { nonneg := fun o => by
            cases o <;> simp only [Triple.at, Decimal.toRat_ofScaled] <;> positivity
          sum_one := by
            simp only [tripleSum, Decimal.toRat_add, Decimal.toRat_ofScaled]
            norm_num }
      rates_nonneg := by simp
      params_wf := by simp
      outcomes := by simp }

/-- A checkout without a revision. -/
def noCode : CodeSha := ⟨"0000000", by decide⟩

/-- A ledger before anything was written. -/
def emptyLedger : Store := ⟨.empty, []⟩

/-- A newer observation of the pack. -/
def newer : Json :=
  snapshotDescriptor { friendlies.manifest with retrievedAtUtc := "2024-03-20T00:00:00Z" }

/-- The seal of the scheduled friendly as a file of it reads back. -/
def sealedFriendly : Option Json :=
  (buildForecastArtifact .standard .ascii evens noCode friendlies request).toOption.bind canonical

theorem sealInputs_friendly : SealInputs .standard friendlies request where
  horizon := by decide
  representable :=
    { named := by decide +kernel
      dates := by
        intro s hs
        simp only [friendlies, List.mem_append, List.mem_map, List.mem_range,
          List.mem_singleton] at hs
        unfold NanosecondInstant midnight dayNs
        rcases hs with ⟨i, hi, rfl⟩ | rfl
        · dsimp only
          omega
        · decide
      kickoffs := by simp [friendlies] }
  snapshots := by decide +kernel
  timestamps _ _ := rfl

theorem planSeal_friendly :
    ∃ plan, planSeal .ascii friendlies request = .ok plan ∧ plan.abstained = false := by
  have h : (planSeal .ascii friendlies request).toOption.map SealPlan.abstained = some false := by
    decide +kernel
  obtain ⟨plan, hplan, habstained⟩ := Option.map_eq_some_iff.mp h
  exact ⟨plan, toOption_eq_some.mp hplan, habstained⟩

/-- The friendly is sealed, written and read back. -/
theorem seal_friendly : ∃ a id bytes c store,
    buildForecastArtifact .standard .ascii evens noCode friendlies request = .ok a ∧
      validateArtifact .standard a = .ok () ∧ canonical a = some c ∧
      canonicalBytes a = some bytes ∧ ReadBack c ∧ c.get "artifact_id" = some (.str id) ∧
      store = ⟨Lib.Directory.empty.write id (bytes ++ ['\n']), store.audit⟩ ∧
      writeArtifact .standard a emptyLedger = .ok (id, store) ∧ CompleteLines store.audit ∧ Json.loads (bytes ++ ['\n']) = some c ∧
      loadVerifiedArtifact .standard store id = .ok c := by
  obtain ⟨plan, hplan, habstained⟩ := planSeal_friendly
  have hcoherent : sealViolations (planPrediction evens request plan) = [] := by
    rw [planPrediction, habstained]
    rfl
  obtain ⟨a, ha⟩ : ∃ a, buildForecastArtifact .standard .ascii evens noCode friendlies request = .ok a :=
    buildForecastArtifact_total hplan hcoherent
  have hvalid := validateArtifact_build sealInputs_friendly ha
  obtain ⟨id, digest, bytes, c, hcarries, hbytes, hloads, hccarries, -, hwrite, hload⟩ :=
    roundTrips_build ha hvalid
  obtain ⟨store, hwrite⟩ := hwrite emptyLedger fun existing h => by simp [emptyLedger] at h
  obtain ⟨-, hread, hloaded, haudit⟩ := hload _ _ _ hwrite
  have hstore := hwrite
  obtain ⟨-, hid, bytes', line, hbytes', -, -, hstore⟩ := writeArtifact_ok hstore
  obtain rfl := Option.some.inj (hbytes.symm.trans hbytes')
  obtain ⟨plan', hash, hplan', hfinal⟩ := buildForecastArtifact_ok ha
  have hwf := wf_finalise (wf_sealRecord hplan' _ _) hfinal
  have hc : canonical a = some c := by
    obtain ⟨d, hd, hdumps⟩ := Option.map_eq_some_iff.mp hbytes
    have hback := loads_canonicalBytes hwf hd
    rw [hdumps, hloads] at hback
    rw [hd, Option.some.inj hback]
  refine ⟨a, id, bytes, c, store, ha, hvalid, hc, hbytes, ⟨a, bytes, hwf, hbytes, hloads⟩,
    hccarries.1, ?_, hwrite, (haudit (.inl rfl)).1, hloads, hloaded⟩
  rw [hstore]
  rfl

/-- The first digit of an artifact's id. -/
def leadingDigit (a : Json) : Option Char := (idOf a).bind fun id => id.toList[3]?

/-- The sealed friendly is open, and the newer observation is newer. -/
theorem open_friendly {c : Json} (h : sealedFriendly = some c) : statusOf c = some "sealed" ∧
    scoreSnapshotAnchor c newer = .ok 1710892800000000000 := by
  have hfacts : sealedFriendly.map (fun c => (statusOf c,
      (scoreSnapshotAnchor c newer).toOption)) =
      some (some "sealed", some 1710892800000000000) := by decide +kernel
  simp only [h, Option.map_some, Option.some.injEq, Prod.mk.injEq] at hfacts
  exact ⟨hfacts.1, toOption_eq_some.mp hfacts.2⟩

/-- The seal, its score and its abandonment have ids that differ in their first digit. -/
theorem leadingDigits_friendly : sealedFriendly.map (fun c => (leadingDigit c,
    (successor .standard c (.scored newer 2 1)).bind leadingDigit,
    (successor .standard c (.voided 1709251200000000000 "abandoned")).bind leadingDigit)) =
      some (some '2', some 'e', some 'f') := by
  decide +kernel

/-- The friendly's seal, its score and its abandonment all go through and round-trip. -/
theorem seal_identity_round_trip_friendly : ∃ a c,
    buildForecastArtifact .standard .ascii evens noCode friendlies request = .ok a ∧
      RoundTrips .standard a ∧
      (∃ stem store b, scoreVerifiedSeal .standard c newer 2 1 emptyLedger = .ok (stem, store) ∧
        RoundTrips .standard b) ∧
      (∃ file store stem store' b,
        voidForecast .standard .ascii file "2024-03-01T00:00:00Z" "abandoned" store =
          .ok (stem, store') ∧ RoundTrips .standard b) ∧
      ∃ written, (probsOf c).bind tripleOf = some written ∧ (tripleSum written).toRat = 1 := by
  obtain ⟨a, id, bytes, c, store, ha, hvalid, hc, hbytes, hback, hid, hstore, -, haudit, hloads,
    hloaded⟩ := seal_friendly
  obtain ⟨hbuild, hscore, hvoid, hcanonical⟩ := seal_identity_round_trip .standard .ascii
  have hsealed : sealedFriendly = some c := by
    rw [sealedFriendly, ha]
    exact hc
  obtain ⟨-, hcvalid, -⟩ := loadVerifiedArtifact_ok hloaded
  obtain ⟨hstatus, hanchor⟩ := open_friendly hsealed
  have hnewerWF : newer.WF := by
    rw [newer, snapshotDescriptor]
    exact wf_descriptor _ _ _ _ _ _ _
  refine ⟨a, c, ha, (hbuild _ _ _ _ a ha).2 ((hbuild _ _ _ _ a ha).1 sealInputs_friendly), ?_, ?_,
    ?_⟩
  · obtain ⟨a, ha, havalid⟩ := exists_successor hback hcvalid (v := .scored newer 2 1) hnewerWF
      ⟨by decide +kernel, by decide, by decide, _, hanchor, rfl⟩
    obtain ⟨stem, -, ⟨store', hrun⟩ | ⟨-, existing, hread, -⟩⟩ :=
      write_successor (v := .scored newer 2 1) hback hnewerWF ha havalid emptyLedger
    · have hrun : scoreVerifiedSeal .standard c newer 2 1 emptyLedger = .ok (stem, store') := by
        rw [scoreVerifiedSeal_eq ha, hrun]
        rfl
      obtain ⟨b, -, hb⟩ := hscore c newer 2 1 emptyLedger stem store' hback hnewerWF hrun
      exact ⟨stem, store', b, hrun, hb⟩
    · simp [emptyLedger] at hread
  · have hreason : String.ofList (Unicode.ascii.strip "abandoned".toList) = "abandoned" := by
      decide
    obtain ⟨b, hb, hbvalid⟩ := exists_successor hback hcvalid
      (v := .voided 1709251200000000000 "abandoned") trivial
      ⟨.inl hstatus, by decide, rfl⟩
    obtain ⟨id', hid', hrun⟩ := write_successor (v := .voided 1709251200000000000 "abandoned") hback
      trivial hb hbvalid store
    rcases hrun with ⟨store', hrun⟩ | ⟨-, existing, hread, -⟩
    · have hrun : voidForecast .standard .ascii id "2024-03-01T00:00:00Z" "abandoned" store =
          .ok (id', store') := by
        have hinstant : parseUtc "2024-03-01T00:00:00Z" = some 1709251200000000000 := by
          decide +kernel
        rw [voidForecast_eq hloaded (by rw [hreason]; decide) hinstant
          (by rw [hreason]; exact hb), hrun]
        rfl
      obtain ⟨d, -, hd⟩ := hvoid id "2024-03-01T00:00:00Z" "abandoned" store id' store'
        (fun text htext => by
          rw [hstore, Lib.Directory.read_write_self] at htext
          rw [← Option.some.inj htext]
          exact ⟨c, hloads, hback⟩) hrun
      exact ⟨id, store, id', store', d, hrun, hd⟩
    · -- the only file is the seal's own, and the ids differ in their first digit
      exfalso
      have hdigits := leadingDigits_friendly
      simp only [hsealed, Option.map_some, Option.some.injEq, Prod.mk.injEq, hb, Option.bind_some,
        leadingDigit, idOf, hid, hid', Json.text?] at hdigits
      have hne : id' ≠ id := by
        rintro rfl
        exact absurd (hdigits.1.symm.trans hdigits.2.2) (by decide)
      rw [hstore, Lib.Directory.read_write_ne hne] at hread
      simp at hread
  · obtain ⟨plan, hash, hplan, hfinal⟩ := buildForecastArtifact_ok ha
    have hwf := wf_finalise (wf_sealRecord hplan _ _) hfinal
    obtain ⟨c', hloads', -, hprobs⟩ := hcanonical a bytes hwf hbytes
    obtain rfl : c' = c := by
      obtain ⟨d, hd, rfl⟩ := Option.map_eq_some_iff.mp hbytes
      rw [Json.loads_dumps (wf_canonical hwf hd)] at hloads'
      rw [loads_canonicalBytes hwf hd] at hloads
      exact Option.some.inj (hloads'.symm.trans hloads)
    obtain ⟨plan', hplan', habstained⟩ := planSeal_friendly
    obtain rfl : plan = plan' := Except.ok.inj (hplan.symm.trans hplan')
    have hp := probsOf_seal (get_forecast_build hfinal)
    rw [planPrediction, habstained] at hp
    obtain ⟨written, hwritten, hsum, -⟩ := hprobs _ _ hp (tripleOf_tripleJson _)
      (Prediction.distribution _)
    exact ⟨written, hwritten, hsum⟩

end Golavo.Ledger
