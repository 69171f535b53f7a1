import Golavo.Follows.History

/-! # Settlements recorded on follows

A settlement report names scored artifacts and the teams of their fixtures; a follow shows the teams
of its own. The two are compared by the names, so a report is recorded right exactly when the names
tell its fixtures apart. -/

namespace Golavo.Follows

open Golavo.Lib (Json Reaches insertNew insertAllNew)
open Golavo.Ledger (Runtime)

/-! ## What a scored artifact says -/

/-- A scored artifact: the seal it scores, the teams, the source of the result, and the match the
seal is of. -/
structure ScoredArtifact where
  sealedArtifactId : String
  homeTeam : String
  awayTeam : String
  sourceId : String
  matchId : String
  deriving DecidableEq, Repr

variable (artifacts : String → ScoredArtifact)

/-- An entry that reports what its scored artifact says. -/
structure SettledItem.Truthful (item : SettledItem) : Prop where
  sealed : item.sealedArtifactId = (artifacts item.scoredArtifactId).sealedArtifactId
  home : item.homeTeam = (artifacts item.scoredArtifactId).homeTeam
  away : item.awayTeam = (artifacts item.scoredArtifactId).awayTeam
  source : item.sourceId = (artifacts item.scoredArtifactId).sourceId

/-- Whether a scored artifact is of the match a subscription follows. -/
def FollowRow.Owns (row : FollowRow) (artifactId : String) : Prop :=
  (artifacts artifactId).matchId = row.canonicalMatchId

/-- Whether an event records an artifact's settlement on a subscription. -/
def FollowEvent.Records (followId artifactId : String) (e : FollowEvent) : Prop :=
  e.content.followId = followId ∧ e.content.eventType = .settlementRecorded ∧
    e.content.reference = artifactId

instance (followId artifactId : String) (e : FollowEvent) :
    Decidable (e.Records followId artifactId) := inferInstanceAs (Decidable (_ ∧ _ ∧ _))

/-- Whether an artifact's settlement is recorded on a subscription. -/
def FollowDb.HasRecord (db : FollowDb) (followId artifactId : String) : Prop :=
  ∃ e ∈ db.events, e.Records followId artifactId

/-- The stores reached from an empty one when every report recorded is truthful. -/
def ReachedTruthful (rt : Runtime) : FollowDb → Prop :=
  Reaches (· = emptyDb) (fun _ step => ∀ item ∈ step.settled, item.Truthful artifacts)
    fun db step => FollowStep.run rt db step

theorem ReachedTruthful.reached {rt : Runtime} {db : FollowDb}
    (h : ReachedTruthful artifacts rt db) : ReachedStore rt db :=
  Reaches.mono h fun _ _ _ => trivial

/-! ## The claim and the condition -/

/-- **A report is recorded right**: an entry that is not recorded yet is recorded on an active
subscription exactly when it is of the match followed, nothing else is, and no artifact is recorded
twice on a subscription. -/
structure RecordsOwn (rt : Runtime) (db : FollowDb) (order : ScanOrder) (scored : List SettledItem)
    (checkedAtUtc : Option String) (now : Int) : Prop where
  own : ∀ row ∈ db.active, ∀ item ∈ scored,
    ¬ db.HasRecord row.followId item.scoredArtifactId →
      ((recordSettlementReport rt db order scored checkedAtUtc now).HasRecord row.followId
          item.scoredArtifactId ↔ row.Owns artifacts item.scoredArtifactId)
  only : ∀ e ∈ (recordSettlementReport rt db order scored checkedAtUtc now).events,
    e ∈ db.events ∨ ∃ row ∈ db.active, ∃ item ∈ scored,
      e.Records row.followId item.scoredArtifactId
  once : ∀ followId artifactId,
    ((recordSettlementReport rt db order scored checkedAtUtc now).events.filter
      (·.Records followId artifactId)).length ≤ 1

/-- Whether the team names tell the fixtures of a report apart: an entry that is not recorded yet on
an active subscription names the two teams the subscription shows exactly when it is of the match
followed. -/
def NamesTellApart (db : FollowDb) (scored : List SettledItem) : Prop :=
  ∀ row ∈ db.active, ∀ item ∈ scored, ¬ db.HasRecord row.followId item.scoredArtifactId →
    (item.matchesSnapshot row.currentSnapshot = true ↔ row.Owns artifacts item.scoredArtifactId)

/-! ## Contents of settlement events -/

/-- The content of the event that records an artifact's settlement on a subscription. -/
def recordedContent (followId artifactId : String) : EventContent where
  followId := followId
  eventType := .settlementRecorded
  sourceId := (artifacts artifactId).sourceId
  reference := artifactId
  before := .null
  after := .mk [("sealed_artifact_id", .str (artifacts artifactId).sealedArtifactId),
    ("scored_artifact_id", .str artifactId)]
  conflict := .null

variable {artifacts}

theorem SettledItem.Truthful.content {item : SettledItem} (h : item.Truthful artifacts)
    (row : FollowRow) (checkedAtUtc : Option String) (followId : String) :
    (settledDraft row checkedAtUtc item).content followId =
      recordedContent artifacts followId item.scoredArtifactId := by
  simp [settledDraft, EventDraft.content, recordedContent, referenceOf, orText, item.scored_ne,
    h.sealed, h.source]

/-- Two truthful entries of one artifact name the same teams. -/
theorem SettledItem.Truthful.matchesSnapshot_eq {item other : SettledItem}
    (h : item.Truthful artifacts) (h' : other.Truthful artifacts)
    (heq : other.scoredArtifactId = item.scoredArtifactId) (snapshot : Json) :
    other.matchesSnapshot snapshot = item.matchesSnapshot snapshot := by
  simp only [SettledItem.matchesSnapshot, h.home, h.away, h'.home, h'.away, heq]

/-- A history whose settlements are recorded as their artifacts say. -/
def TruthfulHistory (artifacts : String → ScoredArtifact) (events : List FollowEvent) : Prop :=
  ∀ e ∈ events, e.content.eventType = .settlementRecorded →
    e.content = recordedContent artifacts e.content.followId e.content.reference

theorem TruthfulHistory.map {events : List FollowEvent} (h : TruthfulHistory artifacts events)
    {f : FollowEvent → FollowEvent} (hf : ∀ e, (f e).content = e.content) :
    TruthfulHistory artifacts (events.map f) := by
  intro e he htype
  obtain ⟨old, hold, rfl⟩ := List.mem_map.mp he
  rw [hf old] at htype ⊢
  exact h old hold htype

theorem truthful_rule (artifacts : String → ScoredArtifact) (rt : Runtime) :
    DraftRule rt (fun d => d.eventType = .settlementRecorded → ∀ followId,
      d.content followId = recordedContent artifacts followId (d.content followId).reference)
      (TruthfulHistory artifacts) where
  other d hne heq := absurd heq hne
  insert events db followId now d hd hevents := by
    intro e he htype
    rcases Lib.mem_insertAllNew (show e ∈ insertAllNew _ _ [_] from he) with he | he
    · exact hevents e he htype
    · obtain rfl := List.mem_singleton.mp he
      exact hd htype followId
  touch events f hf hevents := hevents.map fun e => (hf e).content

/-- The settlements of a truthful step are drafts of their artifacts. -/
theorem settled_content {step : FollowStep} (h : ∀ item ∈ step.settled, item.Truthful artifacts) :
    ∀ item ∈ step.settled, ∀ row checkedAtUtc,
      (settledDraft row checkedAtUtc item).eventType = .settlementRecorded → ∀ followId,
        (settledDraft row checkedAtUtc item).content followId = recordedContent artifacts followId
          ((settledDraft row checkedAtUtc item).content followId).reference := by
  intro item hitem row checkedAtUtc _ followId
  rw [(h item hitem).content]
  rfl

/-- **Every store reached by truthful reports has a truthful history.** -/
theorem ReachedTruthful.history {rt : Runtime} {db : FollowDb}
    (h : ReachedTruthful artifacts rt db) : TruthfulHistory artifacts db.events := by
  have hnil : TruthfulHistory artifacts [] := fun e he => absurd he List.not_mem_nil
  refine @Reaches.invariant _ _ _ _ _ (fun db => TruthfulHistory artifacts db.events) _ h ?_ ?_
  · rintro _ rfl
    exact hnil
  · intro db step hdb hallowed
    cases step with
    | claimNotifications limit batchId now =>
        simp only [FollowStep.run, claimNotifications]
        split_ifs
        · refine hdb.map fun e => ?_
          split_ifs <;> rfl
        · exact hdb
    | removeHistory => exact hnil
    | _ => exact (truthful_rule artifacts rt).run hdb rfl (settled_content hallowed)

/-! ## Recording a report -/

section Report

variable {rt : Runtime} {db : FollowDb} {order : ScanOrder} {scored : List SettledItem}
  {checkedAtUtc : Option String} {now : Int}

/-- The events a report tries to write. -/
def reportEvents (rt : Runtime) (db : FollowDb) (order : ScanOrder) (scored : List SettledItem)
    (checkedAtUtc : Option String) (now : Int) : List FollowEvent :=
  (order.scan db.active).flatMap fun row =>
    ((scored.filter (·.matchesSnapshot row.currentSnapshot)).map (settledDraft row checkedAtUtc)).map
      (·.toEvent rt db row.followId now)

theorem events_recordSettlementReport :
    (recordSettlementReport rt db order scored checkedAtUtc now).events =
      insertAllNew FollowEvent.eventId db.events
        (reportEvents rt db order scored checkedAtUtc now) := by
  have hrows : ∀ (rows : List FollowRow) (start : FollowDb),
      start.notificationsOptIn = db.notificationsOptIn →
        (rows.foldl (fun db row => db.insertEvents rt row.followId now
          ((scored.filter (·.matchesSnapshot row.currentSnapshot)).map
            (settledDraft row checkedAtUtc))) start).events =
          insertAllNew FollowEvent.eventId start.events (rows.flatMap fun row =>
            ((scored.filter (·.matchesSnapshot row.currentSnapshot)).map
              (settledDraft row checkedAtUtc)).map (·.toEvent rt db row.followId now)) := by
    intro rows
    induction rows with
    | nil => exact fun _ _ => rfl
    | cons row rest ih =>
        intro start hoptIn
        rw [List.foldl_cons, ih _ (by rw [optIn_insertEvents, hoptIn]), events_insertEvents,
          List.flatMap_cons, Lib.insertAllNew_append]
        congr 2
        exact List.map_congr_left fun d _ => toEvent_congr hoptIn d
  exact hrows _ db rfl

theorem mem_reportEvents {e : FollowEvent} :
    e ∈ reportEvents rt db order scored checkedAtUtc now ↔
      ∃ row ∈ db.active, ∃ item ∈ scored, item.matchesSnapshot row.currentSnapshot = true ∧
        e = (settledDraft row checkedAtUtc item).toEvent rt db row.followId now := by
  simp only [reportEvents, List.mem_flatMap, (order.perm db.active).mem_iff, List.mem_map,
    List.mem_filter]
  constructor
  · rintro ⟨row, hrow, _, ⟨item, ⟨hitem, hmatches⟩, rfl⟩, rfl⟩
    exact ⟨row, hrow, item, hitem, hmatches, rfl⟩
  · rintro ⟨row, hrow, item, hitem, hmatches, rfl⟩
    exact ⟨row, hrow, _, ⟨item, ⟨hitem, hmatches⟩, rfl⟩, rfl⟩

theorem records_toEvent {row : FollowRow} {item : SettledItem} (h : item.Truthful artifacts)
    (followId artifactId : String) :
    ((settledDraft row checkedAtUtc item).toEvent rt db row.followId now).Records followId
      artifactId ↔ row.followId = followId ∧ item.scoredArtifactId = artifactId := by
  rw [FollowEvent.Records, content_toEvent, h.content]
  simp [recordedContent]

/-- The contents of a history and of the events a report may write. -/
def reportContents (artifacts : String → ScoredArtifact) (db : FollowDb)
    (scored : List SettledItem) : Set EventContent :=
  {c | c ∈ db.events.map FollowEvent.content ∨ ∃ row ∈ db.active, ∃ item ∈ scored,
    c = recordedContent artifacts row.followId item.scoredArtifactId}

/-- **An entry is recorded on a subscription that shows its teams**, and where it was recorded
before. -/
theorem hasRecord_iff (hkeyed : Keyed db) (haddressed : Addressed rt db.events)
    (hscored : ∀ item ∈ scored, item.Truthful artifacts)
    (hapart : Set.InjOn (EventContent.id rt) (reportContents artifacts db scored))
    {row : FollowRow} (hrow : row ∈ db.active) {item : SettledItem} (hitem : item ∈ scored)
    (hnew : ¬ db.HasRecord row.followId item.scoredArtifactId) :
    (recordSettlementReport rt db order scored checkedAtUtc now).HasRecord row.followId
      item.scoredArtifactId ↔ item.matchesSnapshot row.currentSnapshot = true := by
  unfold FollowDb.HasRecord
  rw [events_recordSettlementReport]
  constructor
  · rintro ⟨e, he, hrecords⟩
    rcases Lib.mem_insertAllNew he with he | he
    · exact absurd ⟨e, he, hrecords⟩ hnew
    · obtain ⟨row', hrow', item', hitem', hmatches, rfl⟩ := mem_reportEvents.mp he
      obtain ⟨hid, hartifact⟩ := (records_toEvent (hscored item' hitem') _ _).mp hrecords
      obtain rfl : row' = row := hkeyed.eq_of_followId (mem_active.mp hrow').1
        (mem_active.mp hrow).1 hid
      rw [← (hscored item hitem).matchesSnapshot_eq (hscored item' hitem') hartifact]
      exact hmatches
  · intro hmatches
    have hdraft : (settledDraft row checkedAtUtc item).toEvent rt db row.followId now ∈
        reportEvents rt db order scored checkedAtUtc now :=
      mem_reportEvents.mpr ⟨row, hrow, item, hitem, hmatches, rfl⟩
    obtain ⟨e, he, hid⟩ := List.mem_map.mp
      (@Lib.key_mem_insertAllNew _ _ _ FollowEvent.eventId db.events _ _ hdraft)
    have hcontents : recordedContent artifacts row.followId item.scoredArtifactId ∈
        reportContents artifacts db scored := .inr ⟨row, hrow, item, hitem, rfl⟩
    have hsettled := (hscored item hitem).content row checkedAtUtc row.followId
    -- the event with the draft's id has the draft's content
    have hcontent : e.content = recordedContent artifacts row.followId item.scoredArtifactId := by
      rcases Lib.mem_insertAllNew he with hmem | hmem
      · refine hapart (.inl (List.mem_map_of_mem hmem)) hcontents ?_
        rw [← haddressed.eventId e hmem, hid, eventId_toEvent, hsettled]
      · obtain ⟨row', hrow', item', hitem', -, rfl⟩ := mem_reportEvents.mp hmem
        rw [content_toEvent, (hscored item' hitem').content]
        refine hapart (.inr ⟨row', hrow', item', hitem', rfl⟩) hcontents ?_
        rw [eventId_toEvent, eventId_toEvent, hsettled, (hscored item' hitem').content] at hid
        exact hid
    refine ⟨e, he, ?_⟩
    rw [FollowEvent.Records, hcontent]
    exact ⟨rfl, rfl, rfl⟩

/-- A history that is truthful and names its events by their contents records no artifact twice. -/
theorem once_of_truthful {events : List FollowEvent} (haddressed : Addressed rt events)
    (htruthful : TruthfulHistory artifacts events) (followId artifactId : String) :
    (events.filter (·.Records followId artifactId)).length ≤ 1 := by
  have hsame : ∀ e ∈ events.filter (·.Records followId artifactId),
      e.eventId = (recordedContent artifacts followId artifactId).id rt := by
    intro e he
    obtain ⟨hmem, hrecords⟩ := List.mem_filter.mp he
    obtain ⟨hfollow, htype, hreference⟩ := of_decide_eq_true hrecords
    rw [haddressed.eventId e hmem, htruthful e hmem htype, hfollow, hreference]
  have hnodup : ((events.filter (·.Records followId artifactId)).map FollowEvent.eventId).Nodup :=
    haddressed.nodup.sublist (List.filter_sublist.map _)
  have hall : (events.filter (·.Records followId artifactId)).map FollowEvent.eventId =
      List.replicate (events.filter (·.Records followId artifactId)).length
        ((recordedContent artifacts followId artifactId).id rt) :=
    List.eq_replicate_iff.mpr ⟨List.length_map _, fun id hid => by
      obtain ⟨e, he, rfl⟩ := List.mem_map.mp hid
      exact hsame e he⟩
  rw [hall, List.nodup_replicate] at hnodup
  exact hnodup

/-- **When a report is recorded right.** In a store reached by truthful reports, a truthful report is
recorded on the fixtures it settled alone exactly when the team names tell its fixtures apart. -/
theorem recordsOwn_iff (hreached : ReachedTruthful artifacts rt db)
    (hscored : ∀ item ∈ scored, item.Truthful artifacts)
    (hapart : Set.InjOn (EventContent.id rt) (reportContents artifacts db scored)) :
    RecordsOwn artifacts rt db order scored checkedAtUtc now ↔
      NamesTellApart artifacts db scored := by
  have hnext : ReachedTruthful artifacts rt
      (recordSettlementReport rt db order scored checkedAtUtc now) := by
    have hsettled : ∀ item ∈ (FollowStep.settlements order scored checkedAtUtc now).settled,
        item.Truthful artifacts := hscored
    exact .next hreached hsettled
  have hrecord : ∀ row ∈ db.active, ∀ item ∈ scored,
      ¬ db.HasRecord row.followId item.scoredArtifactId →
        ((recordSettlementReport rt db order scored checkedAtUtc now).HasRecord row.followId
          item.scoredArtifactId ↔ item.matchesSnapshot row.currentSnapshot = true) :=
    fun row hrow item hitem => hasRecord_iff hreached.reached.keyed hreached.reached.addressed
      hscored hapart hrow hitem
  constructor
  · intro h row hrow item hitem hnew
    rw [← hrecord row hrow item hitem hnew]
    exact h.own row hrow item hitem hnew
  · intro h
    refine ⟨fun row hrow item hitem hnew => ?_, fun e he => ?_,
      once_of_truthful hnext.reached.addressed hnext.history⟩
    · rw [hrecord row hrow item hitem hnew]
      exact h row hrow item hitem hnew
    · rw [events_recordSettlementReport] at he
      refine (Lib.mem_insertAllNew he).imp_right fun hmem => ?_
      obtain ⟨row, hrow, item, hitem, -, rfl⟩ := mem_reportEvents.mp hmem
      exact ⟨row, hrow, item, hitem, (records_toEvent (hscored item hitem) _ _).mpr ⟨rfl, rfl⟩⟩

end Report

/-! ## Two meetings of the same teams -/

/-- A friendly of the teams of the World Cup fixture. -/
def friendly : IndexMatch :=
  { cupFixture "match-3" "2026-03-27T00:00:00Z" with
    competition := some "Friendly"
    sourceId := some martj42
    upstreamFixtureKey := none
    provenance := [("identity", some martj42)] }

/-- The scored artifact of the World Cup fixture. -/
def cupArtifact : ScoredArtifact := ⟨"fa_seal", "France", "Spain", worldcup, "match-1"⟩

/-- The entry that reports it. -/
def cupItem : SettledItem where
  sealedArtifactId := "fa_seal"
  scoredArtifactId := "fa_scored"
  homeTeam := "France"
  awayTeam := "Spain"
  sourceId := worldcup
  approved := by decide
  sealed_ne := by decide
  scored_ne := by decide

theorem cupItem_truthful : ∀ item ∈ [cupItem], item.Truthful fun _ => cupArtifact := by
  intro item hitem
  rw [List.mem_singleton.mp hitem]
  exact ⟨rfl, rfl, rfl, rfl⟩

/-- The settlement of a followed fixture is recorded on its follow. -/
theorem recordsOwn_followed :
    RecordsOwn (fun _ => cupArtifact) .standard (followedBefore .standard) .insertion [cupItem]
        none 1 ↔
      NamesTellApart (fun _ => cupArtifact) (followedBefore .standard) [cupItem] := by
  have hreached : ReachedTruthful (fun _ => cupArtifact) .standard (followedBefore .standard) :=
    .next (.start rfl) fun item hitem => absurd hitem List.not_mem_nil
  refine recordsOwn_iff hreached cupItem_truthful ?_
  have hevents : ((followedBefore .standard).events.map FollowEvent.content).length = 1 ∧
      (followedBefore .standard).active.map FollowRow.followId = ["fm_1"] ∧
      (recordedContent (fun _ => cupArtifact) "fm_1" "fa_scored").id .standard ∉
        (followedBefore .standard).events.map fun e => e.content.id .standard := by
    decide +kernel
  obtain ⟨hone, hactive, hids⟩ := hevents
  obtain ⟨only, honly⟩ := List.length_eq_one_iff.mp hone
  have hcases : ∀ c ∈ reportContents (fun _ => cupArtifact) (followedBefore .standard) [cupItem],
      c = only ∨ c = recordedContent (fun _ => cupArtifact) "fm_1" "fa_scored" := by
    rintro c (hc | ⟨row, hrow, item, hitem, rfl⟩)
    · exact .inl (List.mem_singleton.mp (honly ▸ hc))
    · have hid : row.followId ∈ ["fm_1"] := hactive ▸ List.mem_map_of_mem hrow
      rw [List.mem_singleton.mp hid, List.mem_singleton.mp hitem]
      exact .inr rfl
  have hne : only.id .standard ≠
      (recordedContent (fun _ => cupArtifact) "fm_1" "fa_scored").id .standard := by
    intro heq
    refine hids ?_
    have hmem : only ∈ (followedBefore .standard).events.map FollowEvent.content := by
      rw [honly]
      exact List.mem_singleton_self _
    obtain ⟨e, he, rfl⟩ := List.mem_map.mp hmem
    exact List.mem_map.mpr ⟨e, he, heq⟩
  intro a ha b hb hid
  rcases hcases a ha with rfl | rfl <;> rcases hcases b hb with rfl | rfl
  · rfl
  · exact absurd hid hne
  · exact absurd hid.symm hne
  · rfl

/-- A store with both fixtures followed. -/
def followedBoth : FollowDb :=
  FollowStep.run .standard (followedBefore .standard) (.follow (followOf friendly "fm_2" 1))

/-- **Two meetings of the same teams**: the settlement of one is recorded on the follow of the other
too. -/
theorem recordsOwn_rematch :
    ¬ RecordsOwn (fun _ => cupArtifact) .standard followedBoth .insertion [cupItem] none 2 := by
  intro h
  have hrecorded : followedBoth.active.map (fun row => (row.followId, row.canonicalMatchId)) =
        [("fm_1", "match-1"), ("fm_2", "match-3")] ∧
      (∀ e ∈ followedBoth.events, ¬ e.Records "fm_2" "fa_scored") ∧
      ∃ e ∈ (recordSettlementReport .standard followedBoth .insertion [cupItem] none 2).events,
        e.Records "fm_2" "fa_scored" := by
    decide +kernel
  obtain ⟨hrows, hnew, hrecord⟩ := hrecorded
  have hmem : ("fm_2", "match-3") ∈
      followedBoth.active.map (fun row => (row.followId, row.canonicalMatchId)) := by
    rw [hrows]
    simp
  obtain ⟨row, hrow, hpair⟩ := List.mem_map.mp hmem
  obtain ⟨hid, hmatch⟩ := Prod.mk.inj hpair
  have hown := (h.own row hrow cupItem (List.mem_singleton_self _) fun hrecord => by
    obtain ⟨e, he, hrecords⟩ := hrecord
    rw [hid] at hrecords
    exact hnew e he hrecords).mp (hid ▸ hrecord)
  rw [FollowRow.Owns, hmatch] at hown
  exact absurd hown (by decide)

end Golavo.Follows
