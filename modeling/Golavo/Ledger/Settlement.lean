import Golavo.Identity
import Golavo.Ledger.Calibration
import Golavo.Ledger.RoundTrip

/-! # Settlement

`settle_pending_forecasts` asks two trusted result feeds about every seal that is still open, past
kickoff by the **grace**, and not of a club competition, and appends a scored successor where the
feeds publish a result. A feed's rows are keyed by day, teams and competition. -/

namespace Golavo.Ledger

open Golavo.Lib (Json failIf orFail wrapError bind_ok_iff orFail_ok_iff failIf_ok_iff
  wrapError_ok_iff)

/-! ## Competitions -/

/-- A competition of the catalog: its id, its team scope and the names sources give it. -/
structure Competition where
  competitionId : String
  teamScope : String
  sourceCompetitionNames : List String

/-- The frozen competition catalog, identities only. -/
def competitions : List Competition :=
  [⟨"england-premier-league", "club", ["English Premier League"]⟩,
    ⟨"spain-la-liga", "club", ["La Liga"]⟩, ⟨"germany-bundesliga", "club", ["Bundesliga"]⟩,
    ⟨"italy-serie-a", "club", ["Serie A"]⟩, ⟨"france-ligue-1", "club", ["Ligue 1"]⟩,
    ⟨"uefa-champions-league", "club", ["UEFA Champions League"]⟩,
    ⟨"uefa-europa-league", "club", ["UEFA Europa League"]⟩,
    ⟨"uefa-conference-league", "club", ["UEFA Conference League"]⟩,
    ⟨"fifa-world-cup", "international", ["FIFA World Cup"]⟩,
    ⟨"uefa-euro", "international", ["UEFA Euro"]⟩,
    ⟨"uefa-euro-qualification", "international", ["UEFA Euro qualification"]⟩,
    ⟨"uefa-nations-league", "international", ["UEFA Nations League"]⟩,
    ⟨"uefa-world-cup-qualification", "international", []⟩]

/-- One definition by stable id. -/
def competitionById (id : String) : Option Competition :=
  competitions.find? fun c => c.competitionId = id

/-- The id of the competition a source names. -/
def competitionIdForSourceName (name : String) : Option String :=
  (competitions.find? fun c => name ∈ c.sourceCompetitionNames).map Competition.competitionId

/-- Whether a competition is a club one, which needs multi-source agreement to settle. -/
def requiresIndependentConfirmation (competition : String) : Bool :=
  ((competitionIdForSourceName competition).bind competitionById).any fun c => c.teamScope = "club"

/-! ## Keys -/

/-- A fixture's identity, scoped to its competition. -/
structure MatchKey where
  day : String
  home : String
  away : String
  competition : String
  deriving DecidableEq, Repr

/-- Whether a text starts with `YYYY-MM-DD`. -/
def startsWithIsoDay (u : Unicode) (s : List Char) : Bool :=
  match s.take 10 with
  | [a, b, c, d, '-', e, f, '-', g, h] => [a, b, c, d, e, f, g, h].all u.isDecimal
  | _ => false

/-- The day part of a key (`fixture_date`): the day a text starts with; a text without one keys to
itself. -/
def fixtureDate (u : Unicode) (date : String) : String :=
  if startsWithIsoDay u date.toList then dayPrefix date else date

/-- The key of a fixture (`_key`). -/
def matchKey (u : Unicode) (date home away competition : String) : MatchKey :=
  ⟨fixtureDate u date, u.normalize home, u.normalize away, u.normalize competition⟩

/-- The key of a seal: the day is the one its kickoff's text starts with. -/
def chainKey (u : Unicode) (chain : Chain) : MatchKey :=
  matchKey u (dayPrefix chain.kickoffUtc) chain.homeTeam chain.awayTeam chain.competition

/-! ## Feeds -/

/-- A trusted result source that could not be read or safely interpreted. -/
inductive SettlementError where
  | unreachable
  | incompleteCommit
  | conflictingRows (day : String)
  | invalidScore
  | invalidYear (year : String)
  deriving DecidableEq, Repr

/-- A row of a feed, with its score once it is published. -/
structure FeedRow where
  date : String
  homeTeam : String
  awayTeam : String
  competition : String
  score : Option (Int × Int)
  deriving DecidableEq, Repr

/-- What a repository serves: a commit and the rows of the payload at it. -/
structure Feed where
  ref : String
  committedAt : String
  sha256 : String
  rows : List FeedRow
  deriving DecidableEq, Repr

/-- The scores of a feed by key. -/
abbrev Results := List (MatchKey × (Int × Int))

/-- The score under a key. -/
def Results.find (results : Results) (key : MatchKey) : Option (Int × Int) :=
  (List.find? (fun r => r.1 = key) results).map Prod.snd

/-- One pinned observation of a source. -/
structure SourceResults where
  sourceId : String
  snapshot : Json
  snapshot_wf : snapshot.WF
  results : Results

/-- Add a score; two different ones under a key conflict (`_insert_result`). -/
def insertResult (results : Results) (key : MatchKey) (score : Int × Int) :
    Except SettlementError Results :=
  match results.find key with
  | some previous =>
      if previous ≠ score then .error (.conflictingRows key.day) else .ok results
  | none => .ok (results ++ [(key, score)])

/-- Take one row of a feed into its results. -/
def collectRow (u : Unicode) (targets : List MatchKey) (nonnegative : Bool) (results : Results)
    (row : FeedRow) : Except SettlementError Results :=
  match row.score with
  | none => .ok results
  | some score => do
      failIf (nonnegative = true ∧ (score.1 < 0 ∨ score.2 < 0)) .invalidScore
      let key := matchKey u row.date row.homeTeam row.awayTeam row.competition
      if key ∈ targets then insertResult results key score else return results

/-- The completed rows of martj42's table, of the fixtures asked for (`martj42_results`). -/
def martj42Results (u : Unicode) (rows : List FeedRow) (targets : List MatchKey) :
    Except SettlementError Results :=
  rows.foldlM (collectRow u targets true) []

/-- The completed rows of a World Cup file (`world_cup_results`): a row without a date or a team is
skipped, and every row is of the World Cup. -/
def worldCupResults (u : Unicode) (rows : List FeedRow) (targets : List MatchKey) :
    Except SettlementError Results :=
  ((rows.filter fun r => r.date ≠ "" ∧ r.homeTeam ≠ "" ∧ r.awayTeam ≠ "").map fun r =>
    { r with competition := "FIFA World Cup" }).foldlM (collectRow u targets false) []

def martjSource : String := "martj42-international-results"

def worldCupSource : String := "openfootball-worldcup-json"

/-- A commit response must carry a ref and a time (`_commit`). -/
def commit (feed : Feed) : Except SettlementError Unit :=
  failIf (feed.ref.toList.length < 12 ∨ feed.committedAt = "") .incompleteCommit

/-- The descriptor of a pinned payload (`_descriptor`). -/
def feedDescriptor (sourceId url retrievedAt : String) (feed : Feed) : Json :=
  Ingest.descriptor sourceId url feed.ref retrievedAt feed.sha256 "CC0-1.0" (some feed.committedAt)

theorem wf_feedDescriptor (sourceId url retrievedAt : String) (feed : Feed) :
    (feedDescriptor sourceId url retrievedAt feed).WF := wf_descriptor _ _ _ _ _ _ _

/-- Observe martj42 (`fetch_martj42`). -/
def fetchMartj42 (u : Unicode) (source : Except SettlementError Feed) (retrievedAt : String)
    (targets : List MatchKey) : Except SettlementError SourceResults := do
  let feed ← source
  commit feed
  let results ← martj42Results u feed.rows targets
  return ⟨martjSource, feedDescriptor martjSource
    "https://github.com/martj42/international_results" retrievedAt feed, wf_feedDescriptor _ _ _ _,
    results⟩

/-- Observe a World Cup (`fetch_world_cup`). -/
def fetchWorldCup (u : Unicode) (source : Except SettlementError Feed) (year retrievedAt : String)
    (targets : List MatchKey) : Except SettlementError SourceResults := do
  failIf (year.toList.length ≠ 4 ∨ !year.toList.all u.isDigit) (.invalidYear year)
  let feed ← source
  commit feed
  let results ← worldCupResults u feed.rows targets
  return ⟨worldCupSource, feedDescriptor worldCupSource
    "https://github.com/openfootball/worldcup.json" retrievedAt feed, wf_feedDescriptor _ _ _ _,
    results⟩

/-! ## Settling -/

/-- How long after kickoff a result is first looked for: three hours. -/
def resultGrace : Int := 3 * 3600 * secondNs

/-- Why a seal stays open. -/
inductive PendingReason where
  | awaitingIndependentConfirmation
  | sourceConflict
  | resultNotPublished
  | scoringRefused
  deriving DecidableEq, Repr

/-- What went wrong along the way. -/
inductive SettleNote where
  | source (sourceId : String) (error : SettlementError)
  | consensus (homeTeam awayTeam : String)
  | scoring (sealedArtifactId : String) (error : ResolveError)

/-- A seal that was scored. -/
structure ScoredSeal where
  sealedArtifactId : String
  scoredArtifactId : String
  score : Int × Int
  deriving DecidableEq, Repr

/-- What a settlement run reports. -/
structure SettlementReport where
  checkedAtUtc : String
  pendingBeforeCheck : Nat
  eligible : Nat
  deferred : List String
  scored : List ScoredSeal
  stillPending : List (String × PendingReason)
  errors : List SettleNote

/-- The two loaders of a run: what each answers when it is asked, at a retrieval time, about some
fixtures. -/
structure Loaders where
  martj (retrievedAt : String) (targets : List MatchKey) : Except SettlementError SourceResults
  worldCup (year retrievedAt : String) (targets : List MatchKey) :
    Except SettlementError SourceResults

/-- The feeds a run can reach. -/
structure Feeds where
  martj : Except SettlementError Feed
  worldCup : String → Except SettlementError Feed

/-- The loaders that fetch the two feeds. -/
def Feeds.loaders (u : Unicode) (feeds : Feeds) : Loaders where
  martj retrievedAt targets := fetchMartj42 u feeds.martj retrievedAt targets
  worldCup year retrievedAt targets :=
    fetchWorldCup u (feeds.worldCup year) year retrievedAt targets

/-- The seals a run starts from: open, not abstained, with probabilities. -/
def unresolvedChains (summary : Summary) : List Chain :=
  summary.chains.filter fun c =>
    c.resolution.status = "pending" && !c.abstained && c.probs.isSome

/-- The instant of a chain's kickoff. -/
def kickoffInstant (chain : Chain) : Option Int :=
  match readStamp chain.kickoffUtc with
  | some (.aware wall offset) => some (wall - offset)
  | _ => none

/-- The years of the World Cup seals among some chains. -/
def worldCupYears (chains : List Chain) : List String :=
  (((chains.filter fun c => c.competition = "FIFA World Cup").map fun c =>
    String.ofList (c.kickoffUtc.toList.take 4)).dedup).insertionSort (· ≤ ·)

/-- The sources a run could observe, and what failed. -/
structure Observed where
  martj : Option SourceResults
  worldCup : List (String × SourceResults)
  errors : List SettleNote

/-- Observe martj42's table; it is looked up again under its own id. -/
def observeMartj (loaders : Loaders) (retrievedAt : String) (targets : List MatchKey) : Observed :=
  match loaders.martj retrievedAt targets with
  | .ok source => ⟨if source.sourceId = martjSource then some source else none, [], []⟩
  | .error e => ⟨none, [], [.source martjSource e]⟩

/-- Observe one World Cup file. -/
def observeWorldCup (loaders : Loaders) (retrievedAt : String) (targets : List MatchKey)
    (seen : Observed) (year : String) : Observed :=
  match loaders.worldCup year retrievedAt
      (targets.filter fun k => year.toList.isPrefixOf k.day.toList) with
  | .ok source => { seen with worldCup := seen.worldCup ++ [(year, source)] }
  | .error e => { seen with errors := seen.errors ++ [.source worldCupSource e] }

/-- Observe every source the eligible seals need. -/
def observe (u : Unicode) (loaders : Loaders) (retrievedAt : String) (eligible : List Chain) :
    Observed :=
  let targets := eligible.map (chainKey u)
  let martj := if eligible = [] then ⟨none, [], []⟩ else observeMartj loaders retrievedAt targets
  (worldCupYears eligible).foldl (observeWorldCup loaders retrievedAt targets) martj

/-- The published results of a seal, martj42's first. -/
def observations (u : Unicode) (seen : Observed) (chain : Chain) : List ((Int × Int) × Json) :=
  let key := chainKey u chain
  let from_ (source : Option SourceResults) : List ((Int × Int) × Json) :=
    match source with
    | some s => (s.results.find key).toList.map fun score => (score, s.snapshot)
    | none => []
  from_ seen.martj ++
    if chain.competition = "FIFA World Cup" then
      from_ (Lib.Fields.getField (String.ofList (chain.kickoffUtc.toList.take 4)) seen.worldCup)
    else []

/-- The observation with the latest anchor text, the first of equal ones. -/
def newestSnapshot : List ((Int × Int) × Json) → Option Json
  | [] => none
  | first :: rest =>
      some (rest.foldl (fun best o =>
        if (snapshotAnchorUtc best.2).getD "" < (snapshotAnchorUtc o.2).getD "" then o else best)
        first).2

/-- A run under way. -/
structure Settling where
  store : Store
  scored : List ScoredSeal
  stillPending : List (String × PendingReason)
  errors : List SettleNote

/-- What makes a settlement raise. -/
inductive SettleFailure where
  | record (error : CalibrationError)
  /-- The kickoff of an open seal is no instant. -/
  | badKickoff
  /-- A descriptor says neither when it was committed nor when it was retrieved. -/
  | noAnchor
  /-- The descriptor of a refused result has no source id to report. -/
  | noSourceId
  /-- A scoring error outside the families that are handled. -/
  | scoring (error : ResolveError)
  deriving DecidableEq

/-- Whether a scoring error is an `OSError` or a `ValueError`; a rejection by the schema is
neither. -/
def ResolveError.isHandled : ResolveError → Bool
  | .store (.invalid .schema) | .store (.invalid .unreadable) | .unreadable => false
  | _ => true

/-- A seal that stays open. -/
def Settling.leave (run : Settling) (chain : Chain) (reason : PendingReason)
    (notes : List SettleNote) : Settling :=
  { run with
    stillPending := run.stillPending ++ [(chain.sealedArtifactId, reason)]
    errors := run.errors ++ notes }

/-- Score a seal from the newest of its observations, which agree. -/
def settleScore (rt : Runtime) (run : Settling) (chain : Chain) (score : Int × Int)
    (snapshot : Json) : Except SettleFailure Settling :=
  match scoreForecastResult rt chain.sealedArtifactId snapshot score.1 score.2 run.store with
  | .ok (stem, store) =>
      .ok { run with
        store := store
        scored := run.scored ++ [⟨chain.sealedArtifactId, stem, score⟩] }
  | .error e =>
      if e.isHandled = false then .error (.scoring e)
      else if snapshot.get "source_id" = none then .error .noSourceId
      else .ok (run.leave chain .scoringRefused [.scoring chain.sealedArtifactId e])

/-- Settle one eligible seal. -/
def settleChain (rt : Runtime) (u : Unicode) (seen : Observed) (run : Settling) (chain : Chain) :
    Except SettleFailure Settling :=
  let found := observations u seen chain
  match found, newestSnapshot found with
  | (score, _) :: _, some snapshot =>
      if found.any fun o => o.1 ≠ score then
        .ok (run.leave chain .sourceConflict [.consensus chain.homeTeam chain.awayTeam])
      else if found.any fun o => snapshotAnchorUtc o.2 = none then .error .noAnchor
      else settleScore rt run chain score snapshot
  | _, _ => .ok (run.leave chain .resultNotPublished [])

/-- Settle the eligible seals in order; what was written stays where a later one raises. -/
def settleChains (rt : Runtime) (u : Unicode) (seen : Observed) :
    Settling → List Chain → Settling × Option SettleFailure
  | run, [] => (run, none)
  | run, chain :: rest =>
      match settleChain rt u seen run chain with
      | .ok next => settleChains rt u seen next rest
      | .error e => (run, some e)

/-- The open seals of a run, sorted. -/
structure OpenSeals where
  unresolved : List Chain
  /-- Not past kickoff by the grace. -/
  deferred : List Chain
  clubs : List Chain
  eligible : List Chain

/-- Whether a seal is past its kickoff by the grace. -/
def isDue (now : Int) (chain : Chain) : Bool :=
  (kickoffInstant chain).any fun kickoff => kickoff + resultGrace ≤ now

/-- Sort the open seals of a ledger. -/
def openSeals (rt : Runtime) (now : Int) (store : Store) : Except SettleFailure OpenSeals := do
  let summary ← wrapError .record (calibrationSummary rt store)
  let unresolved := unresolvedChains summary
  failIf (unresolved.any fun c => kickoffInstant c = none) .badKickoff
  return {
    unresolved := unresolved
    deferred := unresolved.filter fun c => !isDue now c
    clubs := unresolved.filter fun c => isDue now c && requiresIndependentConfirmation c.competition
    eligible := unresolved.filter fun c =>
      isDue now c && !requiresIndependentConfirmation c.competition }

/-- A run at its first eligible seal. -/
def startSettling (store : Store) (seals : OpenSeals) (seen : Observed) : Settling where
  store := store
  scored := []
  stillPending := seals.clubs.map fun c => (c.sealedArtifactId, .awaitingIndependentConfirmation)
  errors := seen.errors

/-- Check trusted sources and append scored successors for completed seals
(`settle_pending_forecasts`): the ledger that is left, and the report unless it raises. -/
def settlePendingForecasts (rt : Runtime) (u : Unicode) (loaders : Loaders) (now : Int)
    (store : Store) : Store × Except SettleFailure SettlementReport :=
  let now := wholeSeconds now
  match openSeals rt now store with
  | .error e => (store, .error e)
  | .ok seals =>
      let seen := observe u loaders (isoText now) seals.eligible
      match settleChains rt u seen (startSettling store seals seen) seals.eligible with
      | (settled, some e) => (settled.store, .error e)
      | (settled, none) =>
          (settled.store, .ok
            { checkedAtUtc := isoText now
              pendingBeforeCheck := seals.unresolved.length
              eligible := seals.eligible.length
              deferred := seals.deferred.map Chain.sealedArtifactId
              scored := settled.scored
              stillPending := settled.stillPending
              errors := settled.errors })

end Golavo.Ledger
