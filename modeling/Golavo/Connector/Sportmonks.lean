import Golavo.Lib.Json
import Golavo.Lib.Check

/-! # The Sportmonks connector

Its settings file, the calls that change it and the fetches it admits, each a thread that takes one
atomic step at a time: a settings read or write, the registration of a cancel event, a cancellation
pass, a token read, the start of a provider request, the answer of one, and the return. -/

namespace Golavo.Connector

open Golavo.Lib

/-! ## Settings -/

def schemaVersion : String := "0.1.0"

/-- `CAPABILITIES`. -/
def capabilities : List String :=
  ["external_prediction", "external_odds", "player_lens", "transfer_desk"]

/-- `MATCH_CAPABILITIES`. -/
def matchCapabilities : List String := ["external_prediction", "external_odds", "player_lens"]

/-- `TERMS_ACCEPTANCE_VERSION`. -/
def termsAcceptanceVersion : String :=
  "sportmonks-terms-sha256:43901aed7fd5e36e36205e814a064d5851ecb66df8387f0079a586bed6df8aeb"

/-- `TOP_FIVE_COMPETITIONS`. -/
def topFiveCompetitions : List String :=
  ["English Premier League", "Bundesliga", "La Liga", "Serie A", "Ligue 1"]

/-- What `load_settings` returns and `configure` writes. -/
structure Settings where
  enabled : Bool
  capabilities : List String
  termsAcceptedAtUtc : Option String
  termsAcceptanceVersion : Option String
deriving DecidableEq, Repr

def defaultSettings : Settings := ⟨false, matchCapabilities, none, none⟩

/-- A string value. -/
def text : Json → Option String
  | .str s => some s
  | _ => none

def textOrNull : Option String → Json
  | some s => .str s
  | none => .null

/-- The names of a non-empty, unique, allowlisted list of capabilities. -/
def allowlisted : Json → Option (List String)
  | .arr items =>
      match items.mapM text with
      | some names =>
          if names ≠ [] ∧ names.Nodup ∧ ∀ name ∈ names, name ∈ capabilities then some names else none
      | none => none
  | _ => none

/-- `load_settings`, from the document the settings file holds, where it can be read as one. -/
def loadSettings : Option Json → Settings
  | none => defaultSettings
  | some value =>
      if value.get "schema_version" ≠ some (.str schemaVersion) then defaultSettings
      else
        match (value.get "capabilities").bind allowlisted with
        | none => defaultSettings
        | some names =>
            let acceptedAt := (value.get "terms_accepted_at_utc").bind text
            let accepted := acceptedAt.isSome &&
              value.get "terms_acceptance_version" == some (.str termsAcceptanceVersion)
            { enabled := value.get "enabled" == some (.bool true) && accepted
              capabilities := names
              termsAcceptedAtUtc := if accepted then acceptedAt else none
              termsAcceptanceVersion := if accepted then some termsAcceptanceVersion else none }

/-- The payload `_atomic_settings` writes. -/
def Settings.toJson (s : Settings) : Json :=
  .mk [("schema_version", .str schemaVersion), ("enabled", .bool s.enabled),
    ("capabilities", .arr (s.capabilities.map .str)),
    ("terms_accepted_at_utc", textOrNull s.termsAcceptedAtUtc),
    ("terms_acceptance_version", textOrNull s.termsAcceptanceVersion)]

/-- What is stored with `enabled` unset is loaded as disabled. -/
theorem enabled_loadSettings_toJson {s : Settings} (h : s.enabled = false) :
    (loadSettings (some s.toJson)).enabled = false := by
  have hget : s.toJson.get "enabled" = some (.bool false) := by
    rw [Settings.toJson, Json.get_mk, h]
    rfl
  unfold loadSettings
  dsimp only
  split
  · rfl
  · split
    · rfl
    · simp [hget]

/-! ## A settings change -/

/-- How `configure` refuses: the `ValueError`s and the `PermissionError` it raises. -/
inductive ConfigureFailure where
  | unknownFields (names : List String)
  | enabledNotBoolean
  | capabilitiesNotAllowlisted
  | termsNotAccepted
deriving DecidableEq, Repr

/-- The fields of a request that `configure` does not know. -/
def unknownFields : Json → List String
  | .obj fields =>
      (fields.map Prod.fst).filter (· ∉ ["enabled", "capabilities", "accept_terms"])
  | _ => []

/-- The `enabled` a request asks for, or the current one. -/
def requestedEnabled (current : Settings) (request : Json) : Except ConfigureFailure Bool :=
  match request.get "enabled" with
  | none => .ok current.enabled
  | some (.bool enabled) => .ok enabled
  | some _ => .error .enabledNotBoolean

/-- The capabilities a request asks for, or the current ones. -/
def requestedCapabilities (current : Settings) (request : Json) :
    Except ConfigureFailure (List String) :=
  match allowlisted ((request.get "capabilities").getD (.arr (current.capabilities.map .str))) with
  | some names => .ok names
  | none => .error .capabilitiesNotAllowlisted

/-- `configure` up to its cancellation pass: the payload it will write over the settings it read. -/
def planSettings (current : Settings) (request : Json) (now : String) :
    Except ConfigureFailure Settings := do
  failIf (unknownFields request ≠ []) (.unknownFields (unknownFields request))
  let enabled ← requestedEnabled current request
  let names ← requestedCapabilities current request
  let accepts := enabled && current.termsAcceptanceVersion != some termsAcceptanceVersion
  failIf (accepts && request.get "accept_terms" != some (.bool true)) .termsNotAccepted
  return { enabled := enabled
           capabilities := names
           termsAcceptedAtUtc := if accepts then some now else current.termsAcceptedAtUtc
           termsAcceptanceVersion :=
             if accepts then some termsAcceptanceVersion else current.termsAcceptanceVersion }

/-- Whether `configure` cancels the requests under way before it writes. -/
def cancels (current payload : Settings) : Bool :=
  !payload.enabled || payload.capabilities != current.capabilities

/-- A request that names `enabled` gets what it names. -/
theorem planSettings_enabled {current payload : Settings} {request : Json} {now : String} {b : Bool}
    (h : planSettings current request now = .ok payload)
    (hnames : request.get "enabled" = some (.bool b)) : payload.enabled = b := by
  obtain ⟨-, -, h⟩ := bind_ok_iff.mp h
  obtain ⟨enabled, henabled, h⟩ := bind_ok_iff.mp h
  obtain ⟨names, -, h⟩ := bind_ok_iff.mp h
  obtain ⟨-, -, h⟩ := bind_ok_iff.mp h
  rw [requestedEnabled, hnames] at henabled
  cases henabled
  cases h
  rfl

/-! ## Fetches -/

/-- How a fetch is refused before its first provider request, and that it was cancelled or failed
later. -/
inductive FetchFailure where
  | providerDisabled
  | termsReviewRequired
  | capabilityDisabled
  | competitionNotSupported
  | teamSideInvalid
  | credentialMissing
  | requestCancelled
  | failed
deriving DecidableEq, Repr

/-- `fetch_outside_signals`, or `fetch_team_transfers` for a side. -/
inductive FetchKind where
  | outsideSignals
  | teamTransfers (side : String)
deriving DecidableEq, Repr

structure FetchRequest where
  kind : FetchKind
  competition : Option String
deriving DecidableEq, Repr

/-- Whether the match is in one of the five domestic leagues. -/
def FetchRequest.inTopFive (r : FetchRequest) : Bool :=
  r.competition.any (· ∈ topFiveCompetitions)

/-- The checks of a fetch on the settings it read. -/
def admitRequest (r : FetchRequest) (settings : Settings) : Except FetchFailure Unit := do
  failIf (!settings.enabled) .providerDisabled
  failIf (settings.termsAcceptanceVersion ≠ some termsAcceptanceVersion) .termsReviewRequired
  match r.kind with
  | .outsideSignals =>
      let enabled := settings.capabilities.filter (· ∈ matchCapabilities)
      failIf (enabled = []) .capabilityDisabled
      failIf (enabled = ["player_lens"] && !r.inTopFive) .competitionNotSupported
  | .teamTransfers side =>
      failIf ("transfer_desk" ∉ settings.capabilities) .capabilityDisabled
      failIf (!r.inTopFive) .competitionNotSupported
      failIf (side ∉ ["home", "away"]) .teamSideInvalid

/-- No fetch is admitted by disabled settings. -/
theorem admit_disabled {r : FetchRequest} {settings : Settings} (h : settings.enabled = false) :
    admitRequest r settings = .error .providerDisabled := by
  rw [admitRequest, h]
  rfl

/-! ## Threads -/

/-- Where a `configure` call stands. On its return it knows how many calls had asked for the
connector when it wrote, where its request disabled it. -/
inductive ConfigurePhase where
  | reading
  | cancelling (payload : Settings)
  | writing (payload : Settings)
  | returning (disabledAt : Option Nat)
  | refused (failure : ConfigureFailure)
  | returned
deriving DecidableEq, Repr

/-- Where a `delete_api_token` call stands. -/
inductive DeletePhase where
  | cancelling
  | removing
  | returned
deriving DecidableEq, Repr

/-- Where a fetch stands: its event not yet registered, its settings or token not yet read, about to
start a provider request, waiting for one, done with its last one, ended. -/
inductive FetchPhase where
  | registering
  | reading
  | loadingToken
  | calling
  | awaiting
  | ready
  | raised (failure : FetchFailure)
  | returned
deriving DecidableEq, Repr

/-- Whether the event of a fetch is among the active ones. -/
def FetchPhase.registered : FetchPhase → Bool
  | .reading | .loadingToken | .calling | .awaiting | .ready => true
  | _ => false

/-- Whether a fetch has been admitted by the settings it read and has not ended. -/
def FetchPhase.admitted : FetchPhase → Bool
  | .loadingToken | .calling | .awaiting | .ready => true
  | _ => false

inductive Thread where
  | configure (request : Json) (phase : ConfigurePhase)
  | deleteApiToken (phase : DeletePhase)
  | fetch (request : FetchRequest) (cancelled : Bool) (phase : FetchPhase)
deriving DecidableEq

/-- The thread after a cancellation pass, which sets every active event. -/
def Thread.cancel : Thread → Thread
  | .fetch request cancelled phase => .fetch request (cancelled || phase.registered) phase
  | other => other

/-- What the provider answers, or the fetch finds in it: another request follows, none does, or the
fetch fails. -/
inductive Answer where
  | more
  | last
  | fails
deriving DecidableEq, Repr

/-- What a step is given from outside: the clock and the provider. -/
structure Input where
  now : String
  answer : Answer
deriving DecidableEq, Repr

/-- A fetch after its next step. -/
def stepFetch (settings : Settings) (token : Option String) (input : Input)
    (request : FetchRequest) (cancelled : Bool) : FetchPhase → FetchPhase
  | .registering => .reading
  | .reading =>
      match admitRequest request settings with
      | .error failure => .raised failure
      | .ok () => .loadingToken
  | .loadingToken => if token.isNone then .raised .credentialMissing else .calling
  | .calling =>
      if cancelled then .raised .requestCancelled
      else if input.answer = .fails then .raised .failed else .awaiting
  | .awaiting =>
      if cancelled then .raised .requestCancelled
      else
        match input.answer with
        | .more => .calling
        | .last => .ready
        | .fails => .raised .failed
  | .ready => .returned
  | ended => ended

/-! ## The connector -/

/-- The settings file, the token and the threads. Beside them, how many calls that ask for the
connector have written, and that count when a call that disables it last wrote and last returned. -/
structure World where
  file : Option Json
  environment : Option String
  keychain : Option String
  threads : List Thread
  enables : Nat
  disabledAt : Option Nat
  returnedAt : Option Nat
deriving DecidableEq

def World.start (file : Option Json) (environment keychain : Option String) : World :=
  ⟨file, environment, keychain, [], 0, none, none⟩

/-- `load_api_token`: the environment first. -/
def World.loadApiToken (w : World) : Option String := w.environment.orElse fun _ => w.keychain

/-- `cancel_pending_requests`. -/
def World.cancelPendingRequests (w : World) : World :=
  { w with threads := w.threads.map Thread.cancel }

def World.put (w : World) (i : Nat) (t : Thread) : World := { w with threads := w.threads.set i t }

/-- A disabling write stands: no call that asked for the connector has written since. -/
def World.disabled (w : World) : Bool := w.disabledAt == some w.enables

/-- A call that disabled the connector has returned, and none that asked for it has written since
that call wrote. -/
def World.off (w : World) : Bool := w.returnedAt == some w.enables

/-- `_atomic_settings`, with what it says of the connector when the request names `enabled`. -/
def World.writeSettings (w : World) (request : Json) (payload : Settings) : World :=
  let w := { w with file := some payload.toJson }
  match request.get "enabled" with
  | some (.bool true) => { w with enables := w.enables + 1 }
  | some (.bool false) => { w with disabledAt := some w.enables }
  | _ => w

/-- A `configure` call's next step. -/
def World.stepConfigure (w : World) (i : Nat) (input : Input) (request : Json) :
    ConfigurePhase → World
  | .reading =>
      let current := loadSettings w.file
      match planSettings current request input.now with
      | .error failure => w.put i (.configure request (.refused failure))
      | .ok payload =>
          if cancels current payload then w.put i (.configure request (.cancelling payload))
          else w.put i (.configure request (.writing payload))
  | .cancelling payload => w.cancelPendingRequests.put i (.configure request (.writing payload))
  | .writing payload =>
      let disables := request.get "enabled" == some (.bool false)
      (w.writeSettings request payload).put i
        (.configure request (.returning (if disables then some w.enables else none)))
  | .returning disabledAt =>
      let w := w.put i (.configure request .returned)
      if disabledAt = some w.enables then { w with returnedAt := disabledAt } else w
  | _ => w

/-- A `delete_api_token` call's next step: a token from the environment is not its to remove. -/
def World.stepDelete (w : World) (i : Nat) : DeletePhase → World
  | .cancelling => w.cancelPendingRequests.put i (.deleteApiToken .removing)
  | .removing =>
      let w := w.put i (.deleteApiToken .returned)
      if w.environment.isSome then w else { w with keychain := none }
  | .returned => w

/-- What happens next: a call arrives, or a thread takes its next step. -/
inductive Move where
  | configure (request : Json)
  | deleteApiToken
  | fetch (request : FetchRequest)
  | run (i : Nat) (input : Input)
deriving DecidableEq

def World.step (w : World) : Move → World
  | .configure request => { w with threads := w.threads ++ [.configure request .reading] }
  | .deleteApiToken => { w with threads := w.threads ++ [.deleteApiToken .cancelling] }
  | .fetch request => { w with threads := w.threads ++ [.fetch request false .registering] }
  | .run i input =>
      match w.threads[i]? with
      | some (.configure request phase) => w.stepConfigure i input request phase
      | some (.deleteApiToken phase) => w.stepDelete i phase
      | some (.fetch request cancelled phase) =>
          w.put i (.fetch request cancelled
            (stepFetch (loadSettings w.file) w.loadApiToken input request cancelled phase))
      | none => w

end Golavo.Connector
