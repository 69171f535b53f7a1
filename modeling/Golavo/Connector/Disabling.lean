import Golavo.Connector.Sportmonks
import Golavo.Lib.Runs

/-! # Disabling the connector

Once a call that disables the connector has returned, no fetch starts a provider request or returns
provider data, on every run whose steps keep two rules: a call that says nothing of `enabled` writes
back no settings it read before the disabling write, and when a disabling call returns, every fetch
admitted before is one its cancellation pass has reached, with a provider call still to come. A
fetch that registers and reads its settings between that pass and the write is neither. -/

namespace Golavo.Connector

open Golavo.Lib

/-! ## The property and its condition -/

/-- A step starts a provider request. -/
def World.StartsRequest (w : World) : Move → Prop
  | .run i input =>
      match w.threads[i]? with
      | some (.fetch _ cancelled .calling) => cancelled = false ∧ input.answer ≠ .fails
      | _ => False
  | _ => False

/-- A step returns provider data. -/
def World.ReturnsData (w : World) : Move → Prop
  | .run i _ =>
      match w.threads[i]? with
      | some (.fetch _ _ .ready) => True
      | _ => False
  | _ => False

/-- What disabling promises of a step. -/
def Quiet (w : World) (move : Move) : Prop :=
  w.off = true → ¬w.StartsRequest move ∧ ¬w.ReturnsData move

/-- A fetch admitted by the settings it read is one a cancellation pass has reached, and it has a
provider call still to come. -/
def Thread.stopped : Thread → Bool
  | .fetch _ cancelled phase => !phase.admitted || cancelled && phase != .ready
  | _ => true

/-- The condition on a step: settings read before a disabling write are not written back by a call
that says nothing of `enabled`, and a disabling call returns where every admitted fetch is
stopped. -/
def Meets (w : World) : Move → Prop
  | .run i _ =>
      match w.threads[i]? with
      | some (.configure request (.writing payload)) =>
          request.get "enabled" = none → w.disabled = true → payload.enabled = false
      | some (.configure _ (.returning (some epoch))) =>
          epoch = w.enables → ∀ t ∈ w.threads, t.stopped = true
      | _ => True
  | _ => True

instance World.decidableStartsRequest (w : World) (move : Move) : Decidable (w.StartsRequest move) := by
  unfold World.StartsRequest
  split
  · split <;> infer_instance
  · infer_instance

instance World.decidableReturnsData (w : World) (move : Move) : Decidable (w.ReturnsData move) := by
  unfold World.ReturnsData
  split
  · split <;> infer_instance
  · infer_instance

instance Quiet.decidable (w : World) (move : Move) : Decidable (Quiet w move) :=
  inferInstanceAs (Decidable (_ → _))

instance Meets.decidable (w : World) (move : Move) : Decidable (Meets w move) := by
  unfold Meets
  split
  · split <;> infer_instance
  · infer_instance

/-! ## The invariant -/

/-- A call that disabled the connector at an epoch did so no later than now, and where no call has
asked for the connector since, its write stands. -/
def World.DisabledBy (w : World) (epoch : Nat) : Prop :=
  epoch ≤ w.enables ∧ (epoch = w.enables → w.disabledAt = some epoch)

/-- A payload says of `enabled` what its request does, where that says anything. -/
def Says (request : Json) (payload : Settings) : Prop :=
  (∃ b, request.get "enabled" = some (.bool b) ∧ payload.enabled = b) ∨
    request.get "enabled" = none

/-- What a thread knows of the world it runs in. -/
def Thread.Fits (w : World) : Thread → Prop
  | .configure request (.cancelling payload) => Says request payload
  | .configure request (.writing payload) => Says request payload
  | .configure _ (.returning (some epoch)) => w.DisabledBy epoch
  | _ => True

/-- What holds throughout: a standing disabling write leaves the settings disabled, every thread
fits, and while the connector is off every fetch is stopped. -/
structure World.Shut (w : World) : Prop where
  disabled : w.disabled = true → (loadSettings w.file).enabled = false
  past : ∀ epoch, w.disabledAt = some epoch → epoch ≤ w.enables
  returned : ∀ epoch, w.returnedAt = some epoch → w.DisabledBy epoch
  fits : ∀ t ∈ w.threads, t.Fits w
  stopped : w.off = true → ∀ t ∈ w.threads, t.stopped = true

theorem shut_start (file : Option Json) (environment keychain : Option String) :
    (World.start file environment keychain).Shut :=
  ⟨nofun, nofun, nofun, nofun, nofun⟩

/-- While the connector is off a disabling write stands. -/
theorem World.Shut.disabled_of_off {w : World} (h : w.Shut) (hoff : w.off = true) :
    w.disabled = true := by
  have hreturned : w.returnedAt = some w.enables := by simpa [World.off] using hoff
  simpa [World.disabled] using (h.returned _ hreturned).2 rfl

theorem planSettings_states {current payload : Settings} {request : Json} {now : String}
    (h : planSettings current request now = .ok payload) : Says request payload := by
  cases hget : request.get "enabled" with
  | none => exact .inr hget
  | some value =>
      cases value with
      | bool b => exact .inl ⟨b, hget, planSettings_enabled h hget⟩
      | _ =>
          obtain ⟨-, -, h⟩ := bind_ok_iff.mp h
          obtain ⟨enabled, henabled, -⟩ := bind_ok_iff.mp h
          simp [requestedEnabled, hget] at henabled

/-! ## What a thread's step changes -/

/-- A cancellation pass stops no thread less. -/
theorem Thread.stopped_cancel {t : Thread} (h : t.stopped = true) : t.cancel.stopped = true := by
  cases t with
  | fetch request cancelled phase => cases cancelled <;> cases phase <;> simp_all [Thread.cancel,
      Thread.stopped, FetchPhase.registered, FetchPhase.admitted]
  | _ => exact h

theorem Thread.fits_cancel {w : World} {t : Thread} (h : t.Fits w) : t.cancel.Fits w := by
  cases t with
  | fetch request cancelled phase => trivial
  | _ => exact h

/-- The threads of a world are among those of another, up to a cancellation pass and the one that
took its step. -/
theorem mem_put {w : World} {i : Nat} {t x : Thread} (h : x ∈ (w.put i t).threads) :
    x = t ∨ x ∈ w.threads := by
  rcases List.mem_or_eq_of_mem_set h with hmem | heq
  · exact .inr hmem
  · exact .inl heq

/-- A thread put back leaves a world shut where it fits and is stopped while the connector is off. -/
theorem World.Shut.put {w : World} (h : w.Shut) {i : Nat} {t : Thread} (hfits : t.Fits w)
    (hstopped : w.off = true → t.stopped = true) : (w.put i t).Shut where
  disabled := h.disabled
  past := h.past
  returned := h.returned
  fits x hx := by
    rcases mem_put hx with rfl | hmem
    · exact hfits
    · exact h.fits x hmem
  stopped hoff x hx := by
    rcases mem_put hx with rfl | hmem
    · exact hstopped hoff
    · exact h.stopped hoff x hmem

/-- A call that arrives leaves a world shut. -/
theorem World.Shut.arrive {w : World} (h : w.Shut) {t : Thread} (hfits : t.Fits w)
    (hstopped : t.stopped = true) : World.Shut { w with threads := w.threads ++ [t] } where
  disabled := h.disabled
  past := h.past
  returned := h.returned
  fits x hx := by
    rcases List.mem_append.mp hx with hmem | hmem
    · exact h.fits x hmem
    · exact List.mem_singleton.mp hmem ▸ hfits
  stopped hoff x hx := by
    rcases List.mem_append.mp hx with hmem | hmem
    · exact h.stopped hoff x hmem
    · exact List.mem_singleton.mp hmem ▸ hstopped

theorem World.Shut.cancelPendingRequests {w : World} (h : w.Shut) :
    w.cancelPendingRequests.Shut where
  disabled := h.disabled
  past := h.past
  returned := h.returned
  fits x hx := by
    obtain ⟨t, hmem, rfl⟩ := List.mem_map.mp hx
    exact Thread.fits_cancel (h.fits t hmem)
  stopped hoff x hx := by
    obtain ⟨t, hmem, rfl⟩ := List.mem_map.mp hx
    exact Thread.stopped_cancel (h.stopped hoff t hmem)

/-! ## Writes and returns -/

theorem Thread.Fits.mono {w v : World} {t : Thread} (h : t.Fits w)
    (hby : ∀ epoch, w.DisabledBy epoch → v.DisabledBy epoch) : t.Fits v := by
  cases t with
  | configure request phase =>
      cases phase with
      | returning disabledAt =>
          cases disabledAt with
          | some epoch => exact hby epoch h
          | none => trivial
      | _ => exact h
  | _ => trivial

/-- A write that asks for the connector ends what stood: nothing is disabled by it. -/
theorem World.Shut.enable {w : World} (h : w.Shut) (file : Option Json) :
    World.Shut { w with file := file, enables := w.enables + 1 } := by
  have hby : ∀ epoch, w.DisabledBy epoch →
      World.DisabledBy { w with file := file, enables := w.enables + 1 } epoch :=
    fun epoch hby => ⟨Nat.le_succ_of_le hby.1, fun heq => by have := hby.1; simp_all⟩
  exact {
    disabled := fun hdisabled => by
      have := h.past (w.enables + 1) (by simpa [World.disabled] using hdisabled)
      omega
    past := fun epoch hepoch => Nat.le_succ_of_le (h.past epoch hepoch)
    returned := fun epoch hepoch => hby epoch (h.returned epoch hepoch)
    fits := fun t ht => (h.fits t ht).mono hby
    stopped := fun hoff => by
      have := (h.returned (w.enables + 1) (by simpa [World.off] using hoff)).1
      omega }

/-- A write that disables the connector leaves the settings disabled. -/
theorem World.Shut.disable {w : World} (h : w.Shut) {payload : Settings}
    (hpayload : payload.enabled = false) :
    World.Shut { w with file := some payload.toJson, disabledAt := some w.enables } := by
  have hby : ∀ epoch, w.DisabledBy epoch →
      World.DisabledBy { w with file := some payload.toJson, disabledAt := some w.enables } epoch :=
    fun epoch hby => ⟨hby.1, fun heq => congrArg some heq.symm⟩
  exact {
    disabled := fun _ => enabled_loadSettings_toJson hpayload
    past := fun epoch hepoch => by cases hepoch; exact Nat.le_refl _
    returned := fun epoch hepoch => hby epoch (h.returned epoch hepoch)
    fits := fun t ht => (h.fits t ht).mono hby
    stopped := h.stopped }

/-- A write that says nothing of the connector, and does not undo a standing disabling write. -/
theorem World.Shut.rewrite {w : World} (h : w.Shut) {payload : Settings}
    (hpayload : w.disabled = true → payload.enabled = false) :
    World.Shut { w with file := some payload.toJson } where
  disabled hdisabled := enabled_loadSettings_toJson (hpayload hdisabled)
  past := h.past
  returned := h.returned
  fits t ht := (h.fits t ht).mono fun _ hby => hby
  stopped := h.stopped

/-- A write leaves the world shut, with what its call remembers of it on its way back. -/
theorem World.Shut.write {w : World} (h : w.Shut) {request : Json} {payload : Settings}
    (hstates : Says request payload)
    (hkeeps : request.get "enabled" = none → w.disabled = true → payload.enabled = false) (i : Nat)
    (input : Input) : (w.stepConfigure i input request (.writing payload)).Shut := by
  simp only [World.stepConfigure, World.writeSettings]
  rcases hstates with ⟨b, hget, hpayload⟩ | hget <;> rw [hget]
  · cases b with
    | true => exact (h.enable _).put trivial (fun _ => rfl)
    | false =>
        refine (h.disable hpayload).put ?_ (fun _ => rfl)
        simp only [BEq.rfl, if_true]
        exact ⟨Nat.le_refl _, fun _ => rfl⟩
  · exact (h.rewrite (hkeeps hget)).put trivial (fun _ => rfl)

/-- A return of a call that disabled the connector turns it off where its write stands. -/
theorem World.Shut.return {w : World} (h : w.Shut) {disabledAt : Option Nat}
    (hfits : ∀ epoch, disabledAt = some epoch → w.DisabledBy epoch)
    (hstops : disabledAt = some w.enables → ∀ t ∈ w.threads, t.stopped = true) (i : Nat)
    (input : Input) (request : Json) :
    (w.stepConfigure i input request (.returning disabledAt)).Shut := by
  have hput : (w.put i (.configure request .returned)).Shut := h.put trivial (fun _ => rfl)
  simp only [World.stepConfigure]
  split
  · rename_i hnow
    refine ⟨hput.disabled, hput.past, hfits, hput.fits, fun _ x hx => ?_⟩
    rcases mem_put hx with rfl | hmem
    · rfl
    · exact hstops hnow x hmem
  · exact hput

/-! ## The law -/

/-- A step of a `configure` call that meets the condition leaves the world shut. -/
theorem World.Shut.stepConfigure {w : World} (h : w.Shut) {i : Nat} {input : Input} {request : Json}
    {phase : ConfigurePhase} (hget : w.threads[i]? = some (.configure request phase))
    (hmeets : Meets w (.run i input)) : (w.stepConfigure i input request phase).Shut := by
  have hfits : (Thread.configure request phase).Fits w :=
    h.fits _ (List.mem_of_getElem? hget)
  simp only [Meets, hget] at hmeets
  cases phase with
  | reading =>
      simp only [World.stepConfigure]
      split
      · exact h.put trivial (fun _ => rfl)
      · rename_i payload hplan
        split
        · exact h.put (planSettings_states hplan) (fun _ => rfl)
        · exact h.put (planSettings_states hplan) (fun _ => rfl)
  | cancelling payload => exact h.cancelPendingRequests.put hfits (fun _ => rfl)
  | writing payload => exact h.write hfits hmeets i input
  | returning disabledAt =>
      refine h.return ?_ ?_ i input request
      · rintro epoch rfl
        exact hfits
      · rintro rfl
        exact hmeets rfl
  | _ => exact h

/-- A fetch's next step leaves it stopped where disabled settings are all it can read. -/
theorem stopped_stepFetch {settings : Settings} (hsettings : settings.enabled = false)
    {request : FetchRequest} {cancelled : Bool} {phase : FetchPhase}
    (h : (Thread.fetch request cancelled phase).stopped = true) (token : Option String)
    (input : Input) : (Thread.fetch request cancelled
      (stepFetch settings token input request cancelled phase)).stopped = true := by
  cases phase with
  | reading => rw [stepFetch, admit_disabled hsettings]; rfl
  | loadingToken =>
      cases token with
      | none => rfl
      | some _ => exact h
  | calling =>
      cases cancelled with
      | true => rfl
      | false => exact absurd h nofun
  | awaiting =>
      cases cancelled with
      | true => rfl
      | false => exact absurd h nofun
  | _ => rfl

/-- **The step**: one that meets the condition leaves the world shut. -/
theorem World.Shut.step {w : World} (h : w.Shut) {move : Move} (hmeets : Meets w move) :
    (w.step move).Shut := by
  cases move with
  | configure request => exact h.arrive trivial rfl
  | deleteApiToken => exact h.arrive trivial rfl
  | fetch request => exact h.arrive trivial rfl
  | run i input =>
      simp only [World.step]
      cases hget : w.threads[i]? with
      | none => exact h
      | some t =>
          cases t with
          | configure request phase => exact h.stepConfigure hget hmeets
          | deleteApiToken phase =>
              cases phase with
              | cancelling => exact h.cancelPendingRequests.put trivial (fun _ => rfl)
              | removing =>
                  have hput : (w.put i (.deleteApiToken .returned)).Shut := h.put trivial (fun _ => rfl)
                  simp only [World.stepDelete]
                  split
                  · exact hput
                  · exact ⟨hput.disabled, hput.past, hput.returned, hput.fits, hput.stopped⟩
              | returned => exact h
          | fetch request cancelled phase =>
              refine h.put trivial fun hoff => ?_
              exact stopped_stepFetch (h.disabled (h.disabled_of_off hoff))
                (h.stopped hoff _ (List.mem_of_getElem? hget)) _ input

/-- No step of a shut world that is off starts a request or returns data. -/
theorem World.Shut.quiet {w : World} (h : w.Shut) (move : Move) : Quiet w move := by
  intro hoff
  cases move with
  | run i input =>
      simp only [World.StartsRequest, World.ReturnsData]
      cases hget : w.threads[i]? with
      | none => exact ⟨id, id⟩
      | some t =>
          have hstopped := h.stopped hoff t (List.mem_of_getElem? hget)
          cases t with
          | fetch request cancelled phase =>
              cases phase with
              | calling =>
                  refine ⟨fun hstarts => ?_, id⟩
                  simp [Thread.stopped, FetchPhase.admitted, hstarts.1] at hstopped
              | ready => simp [Thread.stopped, FetchPhase.admitted] at hstopped
              | _ => exact ⟨id, id⟩
          | _ => exact ⟨id, id⟩
  | _ => exact ⟨id, id⟩

/-- **Disabling is effective**: on every run whose steps meet the condition, from any settings file
and token, no fetch starts a provider request or returns provider data while the connector is
off. -/
theorem disabling_effective (file : Option Json) (environment keychain : Option String)
    (moves : List Move)
    (hmeets : RunAllowed Meets World.step (World.start file environment keychain) moves) :
    RunAllowed Quiet World.step (World.start file environment keychain) moves := by
  have hshut := shut_start file environment keychain
  generalize World.start file environment keychain = w at hmeets hshut
  induction moves generalizing w with
  | nil => trivial
  | cons move rest ih => exact ⟨hshut.quiet move, ih _ hmeets.2 (hshut.step hmeets.1)⟩

/-- An enabled connector with a token. -/
def enabledStart : World :=
  .start (some (Settings.toJson ⟨true, matchCapabilities, some "2026-09-01T00:00:00Z",
    some termsAcceptanceVersion⟩)) (some "token") none

/-- A call that disables the connector, and a fetch of outside signals. -/
def disableCall : Move := .configure (.mk [("enabled", .bool false)])

def fetchCall : Move := .fetch ⟨.outsideSignals, some "La Liga"⟩

def next (i : Nat) : Move := .run i ⟨"2026-09-02T00:00:00Z", .more⟩

/-- A fetch waits for the provider while the connector is disabled, and is stopped by its answer. -/
theorem disabling_stops_fetch :
    RunAllowed Quiet World.step enabledStart
      [fetchCall, next 0, next 0, next 0, next 0, disableCall, next 1, next 1, next 1, next 1,
        next 0] :=
  disabling_effective _ _ _ _ (by decide)

/-- A fetch registers and reads its settings after the cancellation pass and before the write, and
starts its first request once the call has returned. -/
theorem disabling_missed :
    ¬RunAllowed Quiet World.step enabledStart
      [disableCall, next 0, next 0, fetchCall, next 1, next 1, next 1, next 0, next 0, next 1] := by
  decide

end Golavo.Connector
