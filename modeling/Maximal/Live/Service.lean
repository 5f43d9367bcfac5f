import Maximal.Auth.Connectivity
import Maximal.Live.Delivery

/-!
# The live service

The one hub of the process, wired to what produces its frames. The auth status is published
wherever a variable that it reports is written; the usage of the day is read again by a timer
after events were recorded. A snapshot reads the status when its subscriber is registered and the
usage some time later.

## Main definitions

- `statusJson`, `emissionJson` — the status as it is sent
- `Change` — the writes to the variables that the status reports, each with what it publishes
- `LiveService`, `LiveService.step`
- `ShowsStatus` — a value is the status of the variables, as of some time

## Main results

- `applyFrames_getD` — what a client makes of frames without a snapshot among them
- `getAuthStatus_earlier` — a status of an earlier time is the one there is, or an expired code
- `Change.apply_quiet` — a write that publishes nothing changes nothing that the status reports
-/

namespace Maximal.Live

open Js Auth Net Runs

/-! ## The status as it is sent -/

/-- A field that is left out where its value is falsy. -/
def fieldIf (key : String) : Option String → List (String × Json)
  | some value => if value = "" then [] else [(key, .string value)]
  | none => []

/-- A field whose value may be undefined: JSON leaves it out. -/
def fieldIfDefined (key : String) (value : Option String) : List (String × Json) :=
  (value.map fun value => (key, Json.string value)).toList

section Status

variable (toISOString : ℤ → String)

def authenticatedExtras (source : Identity) : List (String × Json) :=
  fieldIf "account_avatar_url" source.avatarUrl ++
    match source.connectedSinceMs with
    | some since => if since = 0 then [] else [("connected_since", .string (toISOString since))]
    | none => []

def rejectionPayload : Option UpstreamRejection → List (String × Json)
  | some rejection =>
    [("last_upstream_rejection", .object
      ([("message", .string rejection.message), ("status", .number (.ofNat rejection.status)),
        ("at", .string (toISOString rejection.time))] ++
        fieldIf "remediation_url" rejection.remediationUrl))]
  | none => []

def networkPayload : Option NetworkBanner → List (String × Json)
  | some diagnosis =>
    [("network_diagnosis", .object
      [("kind", .string diagnosis.kind),
        ("scope", (diagnosis.scope.map Json.string).getD .null)])]
  | none => []

def sidecarFields (sidecar : StatusSidecar) : List (String × Json) :=
  rejectionPayload toISOString sidecar.lastUpstreamRejection ++
    networkPayload sidecar.networkDiagnosis

def statusFields : AuthStatus → List (String × Json)
  | .unauthenticated sidecar =>
    ("state", .string "unauthenticated") :: sidecarFields toISOString sidecar
  | .deviceCodeIssued userCode verificationUri expiresAt =>
    [("state", .string "device_code_issued"), ("user_code", .string userCode),
      ("verification_uri", .string verificationUri),
      ("expires_at", .string (toISOString expiresAt))]
  | .polling userCode verificationUri expiresAt =>
    [("state", .string "polling"), ("user_code", .string userCode),
      ("verification_uri", .string verificationUri),
      ("expires_at", .string (toISOString expiresAt))]
  | .authenticated identity accountType sidecar =>
    ("state", .string "authenticated") :: fieldIfDefined "account_login" identity.login ++
      [("account_type", .string accountType)] ++
      authenticatedExtras toISOString identity ++ sidecarFields toISOString sidecar
  | .error error =>
    [("state", .string "error"), ("error", .string error.message)] ++
      fieldIf "remediation_url" error.remediationUrl

def statusJson (status : AuthStatus) : Json := .object (statusFields toISOString status)

/-- The payload of `emitAuthChangedWithReconnect`: only two of the states carry the flag. -/
def reconnectJson (status : AuthStatus) : Json :=
  match status with
  | .authenticated .. | .unauthenticated _ =>
    .object (statusFields toISOString status ++ [("notify_on_reconnect", .bool true)])
  | _ => statusJson toISOString status

def emissionJson (r : Runtime) : Emission → Json
  | .authChanged => statusJson toISOString (getAuthStatus r)
  | .authChangedWithReconnect => reconnectJson toISOString (getAuthStatus r)

end Status

/-! ## What is written, and what it publishes -/

inductive Change where
  | setAuthState (next : AuthState)
  /-- The stretch of `startDeviceFlow` after the code has arrived: the flow is installed, its poller
  runs up to the first poll, and the status is published again. -/
  | installFlow (flow : ActiveFlow)
  | setLastUpstreamRejection (message : String) (remediationUrl : Option String) (status : ℕ)
  | clearLastUpstreamRejection
  | noteConnectivityFailure (diagnosis : Option NetworkDiagnosis)
  | noteConnectivityRecovered
  | clearNetworkDiagnosis
  /-- At the end of an account switch. -/
  | emitAuthChanged

/-- A function on the banner, in the state of the process. -/
def onBanner (f : Connectivity → Connectivity × List Emission) (h : HysteresisState) (r : Runtime) :
    (HysteresisState × Runtime) × List Emission :=
  let out := f ⟨h, r.networkDiagnosis⟩
  ((out.1.hysteresis, { r with networkDiagnosis := out.1.networkDiagnosis }), out.2)

/-- The rejection that is there says the same. -/
def sameRejection (existing : UpstreamRejection) (message : String)
    (remediationUrl : Option String) (status : ℕ) : Bool :=
  existing.message = message && existing.remediationUrl = remediationUrl &&
    existing.status = status

def Change.apply (h : HysteresisState) (r : Runtime) :
    Change → (HysteresisState × Runtime) × List Emission
  | .setAuthState next => ((h, r.setAuthState next), [.authChanged])
  | .installFlow flow => ((h, r.setAuthState (.polling flow)), [.authChanged, .authChanged])
  | .setLastUpstreamRejection message remediationUrl status =>
    if r.lastUpstreamRejection.any fun existing =>
        sameRejection existing message remediationUrl status
    then ((h, r), [])
    else
      ((h, { r with lastUpstreamRejection := some ⟨message, remediationUrl, status, r.now⟩ }),
        [.authChanged])
  | .clearLastUpstreamRejection =>
    ((h, { r with lastUpstreamRejection := none }),
      if r.lastUpstreamRejection.isSome then [.authChanged] else [])
  | .noteConnectivityFailure diagnosis =>
    onBanner (Auth.noteConnectivityFailure diagnosis r.now) h r
  | .noteConnectivityRecovered => onBanner (Auth.noteConnectivityRecovered r.now) h r
  | .clearNetworkDiagnosis => onBanner Auth.clearNetworkDiagnosis h r
  | .emitAuthChanged => ((h, r), [.authChanged])

/-- What else the process does: the variables of the status are left alone, and time passes. -/
structure Elsewhere (r r' : Runtime) : Prop where
  authState : r'.authState = r.authState
  lastUpstreamRejection : r'.lastUpstreamRejection = r.lastUpstreamRejection
  networkDiagnosis : r'.networkDiagnosis = r.networkDiagnosis
  accountType : r'.accountType = r.accountType
  now : r.now ≤ r'.now

instance (r r' : Runtime) : Decidable (Elsewhere r r') :=
  decidable_of_iff
    (r'.authState = r.authState ∧ r'.lastUpstreamRejection = r.lastUpstreamRejection ∧
      r'.networkDiagnosis = r.networkDiagnosis ∧ r'.accountType = r.accountType ∧ r.now ≤ r'.now)
    ⟨fun h => ⟨h.1, h.2.1, h.2.2.1, h.2.2.2.1, h.2.2.2.2⟩,
      fun h => ⟨h.authState, h.lastUpstreamRejection, h.networkDiagnosis, h.accountType, h.now⟩⟩

/-! ## The service -/

/-- A summary of the day's usage, with how many of the recorded events had been written (or had
failed) when the table was read. -/
structure Reading where
  summary : Json
  settled : ℕ

/-- What `buildControlSnapshot` has read for a subscriber, and where things stood when the
subscriber was registered. -/
structure Build where
  auth : Json
  recorded : ℕ
  /-- How many summaries had been shown. -/
  shown : ℕ
  usage : Option Reading := none

structure LiveService where
  hysteresis : HysteresisState := initialHysteresisState
  auth : Runtime
  /-- How many usage events were recorded, and how many of them the write queue is done with. -/
  recorded : ℕ := 0
  settled : ℕ := 0
  hub : Option ControlHub := none
  usageDirty : Bool := false
  /-- The queries of the timer that have not read the table, each with the number of events
  recorded when it began. -/
  reading : List ℕ := []
  /-- What queries of the timer have read, for their callbacks. -/
  answers : List Reading := []
  builds : List Build := []
  /-- The summaries that were shown, and everything that was ever read. -/
  shown : List Reading := []
  readings : List Reading := []

namespace LiveService

def DEFAULT_HUB : ControlHub := { queueCapacity := DEFAULT_QUEUE_CAPACITY }

/-- The handler of `auth.changed`. -/
def publish (s : LiveService) (payload : Json) : LiveService :=
  { s with hub := s.hub.map fun hub => hub.emit .auth (some payload) }

inductive Event where
  | change (c : Change)
  | elsewhere (r : Runtime)
  | record
  | settle
  | getControlHub
  | tick
  | summaryRead (j : ℕ) (summary : Json)
  | summaryFailed (j : ℕ)
  /-- The callback of a query of the timer. -/
  | summaryShown
  | heartbeat
  /-- The actions on accounts end with it. -/
  | emitAccounts (accounts : Json)
  | subscribe
  /-- The query of a snapshot reads the table. -/
  | usageRead (i : ℕ) (summary : Json)
  | snapshotBuilt (i : ℕ) (accounts apps models clients : Json)
  | snapshotFailed (i : ℕ)
  | resume (i : ℕ)
  | writeDone (i : ℕ)
  | writeFailed (i : ℕ)
  | unsubscribe (i : ℕ)

def snapshotOf (b : Build) (usage : Reading) (accounts apps models clients : Json) : Json :=
  .object [("auth", b.auth), ("accounts", accounts), ("apps", apps), ("models", models),
    ("usage", usage.summary), ("clients", clients)]

def onHub (s : LiveService) (e : ControlHub.Event) : Option LiveService := do
  let hub ← s.hub
  let hub' ← ControlHub.step e hub
  return { s with hub := some hub' }

def step (toISOString : ℤ → String) (e : Event) (s : LiveService) : Option LiveService :=
  match e with
  | .change c =>
    let out := c.apply s.hysteresis s.auth
    let payloads := out.2.map (emissionJson toISOString out.1.2)
    some (payloads.foldl publish { s with hysteresis := out.1.1, auth := out.1.2 })
  | .elsewhere r => if Elsewhere s.auth r then some { s with auth := r } else none
  | .record => some { s with recorded := s.recorded + 1, usageDirty := s.hub.isSome }
  | .settle => if s.settled < s.recorded then some { s with settled := s.settled + 1 } else none
  | .getControlHub => some { s with hub := some (s.hub.getD DEFAULT_HUB) }
  | .tick =>
    if s.usageDirty then some { s with usageDirty := false, reading := s.recorded :: s.reading }
    else none
  | .summaryRead j summary =>
    match s.reading[j]? with
    | some recorded =>
      -- the query waits until the write queue is done with what was recorded before it
      if recorded ≤ s.settled then
        some { s with
          reading := s.reading.eraseIdx j
          answers := s.answers ++ [⟨summary, s.settled⟩]
          readings := s.readings ++ [⟨summary, s.settled⟩] }
      else none
    | none => none
  | .summaryFailed j => some { s with reading := s.reading.eraseIdx j }
  | .summaryShown =>
    match s.hub, s.answers with
    | some hub, r :: answers =>
      some { s with
        hub := some (hub.recordUsage (some r.summary)).flushUsage
        answers
        shown := s.shown ++ [r] }
    | _, _ => none
  | .heartbeat => s.onHub .heartbeat
  | .emitAccounts accounts => s.onHub (.emit .accounts (some accounts))
  | .subscribe =>
    s.hub.map fun hub =>
      { s with
        hub := some hub.subscribe
        builds := s.builds ++
          [⟨statusJson toISOString (getAuthStatus s.auth), s.recorded, s.shown.length, none⟩] }
  | .usageRead i summary =>
    match s.builds[i]? with
    | some ⟨auth, recorded, shown, none⟩ =>
      if recorded ≤ s.settled then
        some { s with
          builds := s.builds.set i ⟨auth, recorded, shown, some ⟨summary, s.settled⟩⟩
          readings := s.readings ++ [⟨summary, s.settled⟩] }
      else none
    | _ => none
  | .snapshotBuilt i accounts apps models clients => do
    let b ← s.builds[i]?
    let usage ← b.usage
    s.onHub (.snapshotBuilt i (snapshotOf b usage accounts apps models clients))
  | .snapshotFailed i => s.onHub (.snapshotFailed i)
  | .resume i => s.onHub (.resume i)
  | .writeDone i => s.onHub (.writeDone i)
  | .writeFailed i => s.onHub (.writeFailed i)
  | .unsubscribe i => s.onHub (.unsubscribe i)

/-- The timer has nothing to do: no event since its last query began, and no query under way. -/
structure Idle (s : LiveService) : Prop where
  usageDirty : s.usageDirty = false
  reading : s.reading = []
  answers : s.answers = []

end LiveService

/-! ## What a client makes of the frames -/

section Client

variable {frames : List Frame} {frame : Frame} {state : ControlState}

theorem exists_handleBlock (h : frame.publishes .snapshot = none) :
    ∃ state', handleBlock state frame = .ok state' := by
  cases frame with
  | heartbeat => exact ⟨state, rfl⟩
  | notification topic data =>
    cases topic with
    | snapshot => cases h
    | _ => exact ⟨_, rfl⟩

/-- Without a snapshot among them, the frames are all applied, and a topic that none is about is
left alone. -/
theorem applyFrames_getD (hframes : ∀ frame ∈ frames, frame.publishes .snapshot = none) :
    ∃ state', applyFrames state frames = .ok state' ∧
      ∀ topic, state' topic = (latest topic frames).getD (state topic) := by
  induction frames using List.reverseRecOn with
  | nil => exact ⟨state, rfl, fun _ => rfl⟩
  | append_singleton frames frame ih =>
    obtain ⟨mid, hmid, htopics⟩ := ih fun f hf => hframes f (List.mem_append_left _ hf)
    have hframe := hframes frame (List.mem_append_right _ (List.mem_singleton_self _))
    have hexists : ∃ state', handleBlock mid frame = .ok state' := exists_handleBlock hframe
    obtain ⟨state', hblock⟩ := hexists
    refine ⟨state', ?_, fun topic => ?_⟩
    · rw [applyFrames, List.foldlM_append]
      rw [applyFrames] at hmid
      rw [hmid]
      exact applyFrames_singleton.trans hblock
    · rw [handleBlock_topic hblock hframe, htopics]
      cases hpub : frame.publishes topic with
      | none => rw [latest_append_of_none hpub, Option.getD_none]
      | some data => rw [latest_append_of_some hpub, Option.getD_some, Option.getD_some]

end Client

/-! ## The status that is shown -/

/-- The value is the status of the variables as of some time, perhaps with the reconnect flag. -/
def ShowsStatus (toISOString : ℤ → String) (r : Runtime) (value : Val) : Prop :=
  ∃ t ≤ r.now, ∃ emission,
    value = some (emissionJson toISOString { r with now := t } emission)

variable {toISOString : ℤ → String} {r r' : Runtime} {value : Val}

theorem showsStatus_emission (emission : Emission) :
    ShowsStatus toISOString r (some (emissionJson toISOString r emission)) :=
  ⟨r.now, le_refl _, emission, rfl⟩

theorem Elsewhere.getAuthStatus_eq (h : Elsewhere r r') (t : ℤ) :
    getAuthStatus { r' with now := t } = getAuthStatus { r with now := t } := by
  simp only [getAuthStatus, Runtime.isFlowExpired, h.authState, h.lastUpstreamRejection,
    h.networkDiagnosis, h.accountType]
  cases r.authState <;> rfl

theorem Elsewhere.showsStatus (h : Elsewhere r r') (hshows : ShowsStatus toISOString r value) :
    ShowsStatus toISOString r' value := by
  obtain ⟨t, ht, emission, rfl⟩ := hshows
  refine ⟨t, ht.trans h.now, emission, ?_⟩
  cases emission with
  | authChanged => rw [emissionJson, emissionJson, h.getAuthStatus_eq]
  | authChangedWithReconnect => rw [emissionJson, emissionJson, h.getAuthStatus_eq]

/-- The code of a device flow. -/
def IsCodeOf (flow : ActiveFlow) (status : AuthStatus) : Prop :=
  status = .deviceCodeIssued flow.deviceCode.userCode flow.deviceCode.verificationUri
      flow.expiresAt ∨
    status = .polling flow.deviceCode.userCode flow.deviceCode.verificationUri flow.expiresAt

/-- A status of an earlier time is the one there is, or it shows a code that has expired since. -/
theorem getAuthStatus_earlier {t : ℤ} (ht : t ≤ r.now) :
    getAuthStatus { r with now := t } = getAuthStatus r ∨
      ∃ flow, r.currentFlow = some flow ∧ flow.expiresAt ≤ r.now ∧
        IsCodeOf flow (getAuthStatus { r with now := t }) := by
  cases hstate : r.authState with
  | signedOut | signedIn identity | error error =>
    refine .inl ?_
    rw [getAuthStatus, getAuthStatus]
    simp only [hstate]
  | deviceIssued flow | polling flow =>
    by_cases hnow : flow.expiresAt ≤ r.now
    · by_cases hthen : flow.expiresAt ≤ t
      · refine .inl ?_
        rw [getAuthStatus, getAuthStatus]
        simp only [hstate, Runtime.isFlowExpired, hnow, hthen]
      · refine .inr ⟨flow, by rw [Runtime.currentFlow, hstate], hnow, ?_⟩
        rw [getAuthStatus]
        simp [Runtime.isFlowExpired, hthen, IsCodeOf]
    · have hthen : ¬ flow.expiresAt ≤ t := fun hle => hnow (hle.trans ht)
      refine .inl ?_
      rw [getAuthStatus, getAuthStatus]
      simp only [hstate, Runtime.isFlowExpired, hnow, hthen]

/-! ## Writes that publish nothing -/

theorem elsewhere_refl (r : Runtime) : Elsewhere r r := ⟨rfl, rfl, rfl, rfl, le_refl _⟩

theorem clearNetworkDiagnosis_quiet {c : Connectivity}
    (h : (Auth.clearNetworkDiagnosis c).2 = []) :
    (Auth.clearNetworkDiagnosis c).1.networkDiagnosis = c.networkDiagnosis := by
  cases hdiagnosis : c.networkDiagnosis with
  | none => rfl
  | some diagnosis => simp [Auth.clearNetworkDiagnosis, hdiagnosis] at h

theorem setNetworkDiagnosis_quiet {c : Connectivity} {banner : Option NetworkBanner}
    (h : (Auth.setNetworkDiagnosis banner c).2 = []) :
    (Auth.setNetworkDiagnosis banner c).1.networkDiagnosis = c.networkDiagnosis := by
  cases banner with
  | none => exact clearNetworkDiagnosis_quiet h
  | some banner =>
    rw [Auth.setNetworkDiagnosis] at h ⊢
    split
    · rfl
    · next hne =>
      rw [if_neg hne] at h
      cases h

theorem noteConnectivityFailure_quiet {c : Connectivity} {diagnosis : Option NetworkDiagnosis}
    {now : ℤ} (h : (Auth.noteConnectivityFailure diagnosis now c).2 = []) :
    (Auth.noteConnectivityFailure diagnosis now c).1.networkDiagnosis = c.networkDiagnosis := by
  cases diagnosis with
  | none => rfl
  | some diagnosis => exact setNetworkDiagnosis_quiet h

theorem noteConnectivityRecovered_quiet {c : Connectivity} {now : ℤ}
    (h : (Auth.noteConnectivityRecovered now c).2 = []) :
    (Auth.noteConnectivityRecovered now c).1.networkDiagnosis = c.networkDiagnosis := by
  rw [Auth.noteConnectivityRecovered] at h ⊢
  dsimp only at h ⊢
  refine @clearNetworkDiagnosis_quiet ⟨_, c.networkDiagnosis⟩ ?_
  split at h
  · exact (List.append_eq_nil_iff.1 h).1
  · exact h

theorem onBanner_quiet {f : Connectivity → Connectivity × List Emission}
    (hf : ∀ c, (f c).2 = [] → (f c).1.networkDiagnosis = c.networkDiagnosis)
    {h : HysteresisState} (hquiet : (onBanner f h r).2 = []) :
    Elsewhere r (onBanner f h r).1.2 where
  authState := rfl
  lastUpstreamRejection := rfl
  networkDiagnosis := hf _ hquiet
  accountType := rfl
  now := le_refl _

/-- A write that publishes nothing changes nothing that the status reports. -/
theorem Change.apply_quiet {c : Change} {h : HysteresisState} (hquiet : (c.apply h r).2 = []) :
    Elsewhere r (c.apply h r).1.2 := by
  cases c with
  | setAuthState next => cases hquiet
  | installFlow flow => cases hquiet
  | emitAuthChanged => cases hquiet
  | setLastUpstreamRejection message remediationUrl status =>
    rw [Change.apply] at hquiet ⊢
    split
    · exact elsewhere_refl r
    · next hnew =>
      rw [if_neg hnew] at hquiet
      cases hquiet
  | clearLastUpstreamRejection =>
    have hnone : r.lastUpstreamRejection = none := by
      cases hrejection : r.lastUpstreamRejection with
      | none => rfl
      | some rejection => simp [Change.apply, hrejection] at hquiet
    exact ⟨rfl, hnone.symm, rfl, rfl, le_refl _⟩
  | noteConnectivityFailure diagnosis =>
    exact onBanner_quiet (fun _ => noteConnectivityFailure_quiet) hquiet
  | noteConnectivityRecovered =>
    exact onBanner_quiet (fun _ => noteConnectivityRecovered_quiet) hquiet
  | clearNetworkDiagnosis => exact onBanner_quiet (fun _ => clearNetworkDiagnosis_quiet) hquiet

end Maximal.Live
