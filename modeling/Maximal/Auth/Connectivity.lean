import Maximal.Auth.Token
import Maximal.Lib.Runs
import Maximal.Net.NetworkHysteresis

/-!
# The network banner

The refresh loop feeds its successes and its classified failures through the hysteresis. A mint
proves the connection too, and tells nobody.

## Main definitions

- `TokenEvent` — what happens to the token code
- `noteConnectivityFailure`, `noteConnectivityRecovered`
- `Outage` — the failures since the service was last reached
- `Follows` — the banner and the notifications are those of the outages
- `RefreshRun` — a run of the refresh loop, with its events

## Main results

- `banner_follows_outages`
- `refreshRun_follows` — the refresh loop makes these events
-/

namespace Maximal.Auth

open Net Runs

/-! ## Banner and notifications -/

/-- What the banner needs of a diagnosis. -/
structure NetworkDiagnosis where
  kind : String
  scope : Option String
  deriving DecidableEq

inductive Emission where
  | authChanged
  | authChangedWithReconnect
  deriving DecidableEq

/-- The shared machine and the banner. -/
structure Connectivity where
  hysteresis : HysteresisState
  networkDiagnosis : Option NetworkBanner
  deriving DecidableEq

def clearNetworkDiagnosis (c : Connectivity) : Connectivity × List Emission :=
  ({ c with networkDiagnosis := none }, if c.networkDiagnosis.isSome then [.authChanged] else [])

def setNetworkDiagnosis (value : Option NetworkBanner) (c : Connectivity) :
    Connectivity × List Emission :=
  match value with
  | none => clearNetworkDiagnosis c
  | some value =>
    if c.networkDiagnosis = some value then (c, [])
    else ({ c with networkDiagnosis := some value }, [.authChanged])

def noteConnectivityFailure (diagnosis : Option NetworkDiagnosis) (now : ℤ) (c : Connectivity) :
    Connectivity × List Emission :=
  match diagnosis with
  | none => (c, [])
  | some diagnosis =>
    let advanced := Net.step c.hysteresis (some diagnosis) now
    setNetworkDiagnosis (advanced.bannerDiagnosis.map fun d => ⟨d.kind, d.scope⟩)
      { c with hysteresis := advanced.state }

def noteConnectivityRecovered (now : ℤ) (c : Connectivity) : Connectivity × List Emission :=
  let advanced := Net.step c.hysteresis (none : Option NetworkDiagnosis) now
  let (c, emissions) := clearNetworkDiagnosis { c with hysteresis := advanced.state }
  (c, if advanced.notifyReconnect then emissions ++ [.authChangedWithReconnect] else emissions)

/-! ## What happens -/

inductive TokenEvent where
  | refreshed
  /-- With the diagnosis, if the failure was one of the transport and could be classified. -/
  | refreshFailed (diagnosis : Option NetworkDiagnosis)
  /-- The service refuses the credential for the last time: it was reached. -/
  | rejected
  /-- By a sign-in, an account switch, a re-arm or the online retry: `setupCopilotToken`. -/
  | minted
  | signedOut
  deriving DecidableEq

def Connectivity.apply (now : ℤ) (c : Connectivity) : TokenEvent → Connectivity × List Emission
  | .refreshed => noteConnectivityRecovered now c
  | .refreshFailed diagnosis => noteConnectivityFailure diagnosis now c
  | .rejected => noteConnectivityRecovered now c
  | .minted => (c, [])
  | .signedOut => clearNetworkDiagnosis c

/-! ## Outages -/

/-- The classified failures since the service was last reached. -/
structure Outage where
  first : ℤ
  last : ℤ
  deriving DecidableEq

def TokenEvent.reaches : TokenEvent → Bool
  | .refreshed | .rejected | .minted => true
  | .refreshFailed _ | .signedOut => false

def TokenEvent.isFailure : TokenEvent → Bool
  | .refreshFailed diagnosis => diagnosis.isSome
  | .refreshed | .rejected | .minted | .signedOut => false

/-- An outage that is over. -/
structure Ended where
  outage : Outage
  reachedAt : ℤ
  deriving DecidableEq

def Ended.isLong (e : Ended) : Bool := NOTIFY_ON_RECONNECT_MS < e.reachedAt - e.outage.first

/-- The token code and an observer who knows the history. -/
structure Observed where
  connectivity : Connectivity
  /-- The failures of the outage that goes on. -/
  outage : Option Outage
  ended : List Ended
  /-- The times of the reconnect notifications. -/
  notified : List ℤ
  deriving DecidableEq

def Observed.start : Observed := ⟨⟨initialHysteresisState, none⟩, none, [], []⟩

def Observed.step : ℤ × TokenEvent → Observed → Option Observed
  | (now, event), o =>
    let (connectivity, emissions) := o.connectivity.apply now event
    some
      { connectivity
        outage :=
          if event.reaches then none
          else if event.isFailure then some ⟨(o.outage.map (·.first)).getD now, now⟩
          else o.outage
        ended :=
          if event.reaches then o.ended ++ (o.outage.map (⟨·, now⟩)).toList else o.ended
        notified :=
          o.notified ++ (emissions.filter (· = .authChangedWithReconnect)).map fun _ => now }

/-- The banner is shown only while the failures since the service was last reached go on long
enough, so never right after it was reached. The notifications are those of the long outages that
are over, each at the time at which the service was reached again. -/
structure Follows (o : Observed) : Prop where
  shown : ∀ banner, o.connectivity.networkDiagnosis = some banner →
    ∃ outage, o.outage = some outage ∧ NETWORK_BANNER_ONSET_MS ≤ outage.last - outage.first
  clear : o.outage = none → o.connectivity.networkDiagnosis = none
  notified : o.notified = (o.ended.filter (·.isLong)).map (·.reachedAt)

/-- The machine knows the beginning of the outage. -/
structure Synchronised (o : Observed) : Prop extends Follows o where
  firstFailureAt : o.connectivity.hysteresis.firstFailureAt = o.outage.map (·.first)

/-- No outage goes on when a token is minted. -/
def MintsConnected (label : ℤ × TokenEvent) (o : Observed) : Prop :=
  label.2 = .minted → o.outage = none

instance (label : ℤ × TokenEvent) (o : Observed) : Decidable (MintsConnected label o) :=
  inferInstanceAs (Decidable (_ → _))

/-! ## Steps -/

/-- The reconnect notifications among the emissions, at one time. -/
def notifiedBy (now : ℤ) (emissions : List Emission) : List ℤ :=
  (emissions.filter (· = .authChangedWithReconnect)).map fun _ => now

section Notes

variable {c : Connectivity} {now : ℤ}

theorem notifiedBy_clear : notifiedBy now (clearNetworkDiagnosis c).2 = [] := by
  rw [clearNetworkDiagnosis]
  dsimp only
  split <;> rfl

theorem notifiedBy_set {value : Option NetworkBanner} :
    notifiedBy now (setNetworkDiagnosis value c).2 = [] := by
  cases value with
  | none => exact notifiedBy_clear
  | some value =>
    rw [setNetworkDiagnosis]
    split <;> rfl

theorem setNetworkDiagnosis_fst {value : Option NetworkBanner} :
    (setNetworkDiagnosis value c).1 = { c with networkDiagnosis := value } := by
  cases value with
  | none => rfl
  | some value =>
    rw [setNetworkDiagnosis]
    split
    · next hsame => rw [← hsame]
    · rfl

theorem notifiedBy_append (emissions emissions' : List Emission) :
    notifiedBy now (emissions ++ emissions') =
      notifiedBy now emissions ++ notifiedBy now emissions' := by
  rw [notifiedBy, List.filter_append, List.map_append, notifiedBy, notifiedBy]

theorem notifiedBy_recovered :
    notifiedBy now (noteConnectivityRecovered now c).2 =
      if (Net.step c.hysteresis (none : Option NetworkDiagnosis) now).notifyReconnect then [now]
      else [] := by
  rw [noteConnectivityRecovered]
  dsimp only
  split
  · rw [notifiedBy_append, notifiedBy_clear]
    rfl
  · exact notifiedBy_clear

/-- A classified failure: the banner is that of the machine. -/
theorem noteConnectivityFailure_fst (diagnosis : NetworkDiagnosis) :
    (noteConnectivityFailure (some diagnosis) now c).1 =
      ⟨(Net.step c.hysteresis (some diagnosis) now).state,
        (Net.step c.hysteresis (some diagnosis) now).bannerDiagnosis.map fun d => ⟨d.kind, d.scope⟩⟩ :=
  setNetworkDiagnosis_fst

theorem notifiedBy_failure (diagnosis : Option NetworkDiagnosis) :
    notifiedBy now (noteConnectivityFailure diagnosis now c).2 = [] := by
  cases diagnosis with
  | none => rfl
  | some diagnosis => exact notifiedBy_set

end Notes

section Steps

variable {o o' : Observed} {now : ℤ}

theorem Observed.step_eq (now : ℤ) (event : TokenEvent) (o : Observed) :
    Observed.step (now, event) o = some
      { connectivity := (o.connectivity.apply now event).1
        outage :=
          if event.reaches then none
          else if event.isFailure then some ⟨(o.outage.map (·.first)).getD now, now⟩
          else o.outage
        ended :=
          if event.reaches then o.ended ++ (o.outage.map (⟨·, now⟩)).toList else o.ended
        notified := o.notified ++ notifiedBy now (o.connectivity.apply now event).2 } := rfl

/-- The service is reached, and the machine told. -/
theorem Synchronised.recovered (h : Synchronised o) :
    Synchronised
      { connectivity := (noteConnectivityRecovered now o.connectivity).1
        outage := none
        ended := o.ended ++ (o.outage.map (⟨·, now⟩)).toList
        notified := o.notified ++ notifiedBy now (noteConnectivityRecovered now o.connectivity).2 }
    where
  shown := nofun
  clear _ := rfl
  firstFailureAt := rfl
  notified := by
    -- the machine notifies by the first failure it holds, the outage by its own
    have hnotify : (Net.step o.connectivity.hysteresis (none : Option NetworkDiagnosis)
        now).notifyReconnect = (o.outage.map (·.first)).any fun first =>
          NOTIFY_ON_RECONNECT_MS < now - first := by
      rw [← h.firstFailureAt]
      rfl
    rw [notifiedBy_recovered, hnotify, h.notified, List.filter_append, List.map_append]
    cases o.outage with
    | none => rfl
    | some outage =>
      rw [Option.map_some, Option.map_some, Option.any_some, Option.toList_some,
        List.filter_singleton, Ended.isLong]
      dsimp only
      cases decide (NOTIFY_ON_RECONNECT_MS < now - outage.first) <;> rfl

/-- A failure more. -/
theorem Synchronised.failed (h : Synchronised o) (diagnosis : NetworkDiagnosis) :
    Synchronised
      { connectivity := (noteConnectivityFailure (some diagnosis) now o.connectivity).1
        outage := some ⟨(o.outage.map (·.first)).getD now, now⟩
        ended := o.ended
        notified := o.notified ++
          notifiedBy now (noteConnectivityFailure (some diagnosis) now o.connectivity).2 } where
  shown banner hbanner := by
    rw [noteConnectivityFailure_fst] at hbanner
    obtain ⟨shown, hshown, -⟩ := Option.map_eq_some_iff.1 hbanner
    -- a banner is shown only behind the onset of the outage
    obtain ⟨honset, -⟩ := onset_of_banner hshown
    rw [h.firstFailureAt] at honset
    exact ⟨_, rfl, honset⟩
  clear := nofun
  firstFailureAt := by
    rw [noteConnectivityFailure_fst, ← h.firstFailureAt]
    rfl
  notified := by rw [notifiedBy_failure, List.append_nil, h.notified]

/-- A mint while no outage goes on. -/
theorem Synchronised.minted (h : Synchronised o) (houtage : o.outage = none) :
    Synchronised
      { connectivity := o.connectivity
        outage := none
        ended := o.ended ++ (o.outage.map (⟨·, now⟩)).toList
        notified := o.notified ++ notifiedBy now [] } where
  shown banner hbanner :=
    absurd (hbanner.symm.trans (h.clear houtage)) (Option.some_ne_none banner)
  clear _ := h.clear houtage
  firstFailureAt := h.firstFailureAt.trans (congrArg _ houtage)
  notified := by
    rw [houtage, Option.map_none, Option.toList_none, List.append_nil]
    exact (List.append_nil _).trans h.notified

/-- What neither fails nor reaches the service leaves the banner or clears it. -/
theorem Synchronised.silent (h : Synchronised o) {c : Connectivity} {emissions : List Emission}
    (hhysteresis : c.hysteresis = o.connectivity.hysteresis)
    (hbanner : c.networkDiagnosis = o.connectivity.networkDiagnosis ∨ c.networkDiagnosis = none)
    (hquiet : notifiedBy now emissions = []) :
    Synchronised
      { o with connectivity := c, notified := o.notified ++ notifiedBy now emissions } where
  shown banner hshown := by
    obtain hsame | hnone := hbanner
    · exact h.shown banner (hsame.symm.trans hshown)
    · exact absurd (hshown.symm.trans hnone) (Option.some_ne_none _)
  clear houtage := by
    obtain hsame | hnone := hbanner
    · exact hsame.trans (h.clear houtage)
    · exact hnone
  firstFailureAt := (congrArg _ hhysteresis).trans h.firstFailureAt
  notified := by rw [hquiet, List.append_nil, h.notified]

theorem synchronised_step (label : ℤ × TokenEvent) (o o' : Observed) (h : Synchronised o)
    (hok : MintsConnected label o) (hstep : Observed.step label o = some o') :
    Synchronised o' := by
  obtain ⟨now, event⟩ := label
  rw [Observed.step_eq] at hstep
  obtain rfl := Option.some.inj hstep
  cases event with
  -- an answer of the service ends the outage, a refusal as well
  | refreshed | rejected => exact h.recovered
  | refreshFailed diagnosis =>
    cases diagnosis with
    | none => exact h.silent rfl (.inl rfl) rfl
    | some diagnosis => exact h.failed diagnosis
  -- a mint tells the machine nothing, which is right only while it has nothing to tell
  | minted => exact h.minted (hok rfl)
  | signedOut => exact h.silent rfl (.inr rfl) notifiedBy_clear

theorem synchronised_start : Synchronised .start where
  shown := nofun
  clear _ := rfl
  firstFailureAt := rfl
  notified := rfl

/-- In every run whose mints come while no outage goes on, the banner and the notifications are
those of the outages. -/
theorem banner_follows_outages {events : List (ℤ × TokenEvent)}
    (hmints : Meets Observed.step MintsConnected events .start)
    (h : exec Observed.step events .start = some o) : Follows o :=
  (exec_invariant synchronised_step hmints synchronised_start h).toFollows

end Steps

def offline : TokenEvent := .refreshFailed (some ⟨"offline", some "github-copilot-auth"⟩)

/-- Failures for half a minute and more, a refresh, and a mint afterwards. -/
def recovery : List (ℤ × TokenEvent) :=
  [(0, offline), (15000, offline), (30000, offline), (45000, .refreshed), (50000, .minted)]

theorem banner_follows_recovery :
    ∃ o, exec Observed.step recovery .start = some o ∧ Follows o ∧ o.notified = [45000] :=
  have hmints : Meets Observed.step MintsConnected recovery .start := by decide
  ⟨_, rfl, banner_follows_outages hmints rfl, rfl⟩

/-- A mint ends an outage, and the banner stays. An outage of a second that a mint ended is told of
by the next refresh. -/
theorem mint_leaves_banner :
    (∃ o, exec Observed.step
        [(0, offline), (15000, offline), (30000, offline), (31000, .minted)] .start = some o ∧
      o.outage = none ∧ o.connectivity.networkDiagnosis.isSome = true ∧ ¬Follows o) ∧
    ∃ o, exec Observed.step [(0, offline), (1000, .minted), (40000, .refreshed)] .start = some o ∧
      o.ended = [⟨⟨0, 0⟩, 1000⟩] ∧ o.notified = [40000] ∧ ¬Follows o := by
  refine ⟨⟨_, rfl, rfl, rfl, fun h => ?_⟩, _, rfl, rfl, rfl, fun h => ?_⟩
  · exact absurd (h.clear rfl) (Option.some_ne_none _)
  · exact absurd h.notified (by decide)

/-! ## The token code makes these events -/

/-- The event of an answer to the refresh loop, if it makes one. After a probe, the banner is that of
the failure. -/
inductive Feeds (now : ℤ) (c : Connectivity) : RefreshPoint → Answer → Option TokenEvent → Prop
  | waited (refreshAtMs : ℤ) (fatalRetries : ℕ) :
      Feeds now c (.waiting refreshAtMs fatalRetries) .done none
  | refreshed (sentWith : Option String) (fatalRetries : ℕ) (token : String) (refreshIn : ℕ) :
      Feeds now c (.refreshing sentWith fatalRetries) (.minted token refreshIn) (some .refreshed)
  | retried (sentWith : Option String) (fatalRetries status : ℕ) (remediationUrl : Option String) :
      isAuthFatal status → fatalRetries + 1 < maxFatalRefreshRetries →
      Feeds now c (.refreshing sentWith fatalRetries) (.refused status remediationUrl) none
  | rejected (sentWith : Option String) (fatalRetries status : ℕ)
      (remediationUrl : Option String) : isAuthFatal status →
      ¬fatalRetries + 1 < maxFatalRefreshRetries →
      Feeds now c (.refreshing sentWith fatalRetries) (.refused status remediationUrl)
        (some .rejected)
  | refused (sentWith : Option String) (fatalRetries status : ℕ) (remediationUrl : Option String) :
      ¬isAuthFatal status →
      Feeds now c (.refreshing sentWith fatalRetries) (.refused status remediationUrl)
        (some (.refreshFailed none))
  | errored (sentWith : Option String) (fatalRetries : ℕ) (message : String) :
      Feeds now c (.refreshing sentWith fatalRetries) (.failed message) (some (.refreshFailed none))
  | unreachable (sentWith : Option String) (fatalRetries : ℕ) (message : String) :
      Feeds now c (.refreshing sentWith fatalRetries) (.unreachable message) none
  | failed (fatalRetries : ℕ) (diagnosis : NetworkDiagnosis) :
      Feeds now c (.diagnosing fatalRetries)
        (.diagnosed (noteConnectivityFailure (some diagnosis) now c).1.networkDiagnosis)
        (some (.refreshFailed (some diagnosis)))
  | unclassified (fatalRetries : ℕ) :
      Feeds now c (.diagnosing fatalRetries) .done (some (.refreshFailed none))
  | degraded (degrade : ℕ) : Feeds now c (.degrading degrade) .done none

/-- A run of one refresh loop while time passes, with the events that it makes. Nobody else writes
the banner meanwhile. -/
inductive RefreshRun (controller : ℕ) :
    List (ℤ × TokenEvent) → Runtime → Async RefreshPoint Unit → Prop
  | started (r : Runtime) (out : Async RefreshPoint Unit) : r.networkDiagnosis = none →
      RefreshRun controller [] r out
  | waited {events : List (ℤ × TokenEvent)} {r : Runtime} {out : Async RefreshPoint Unit}
      (now : ℤ) : RefreshRun controller events r out →
      RefreshRun controller events { r with now } out
  | answered {events : List (ℤ × TokenEvent)} {r r' : Runtime} {out : Async RefreshPoint Unit}
      {o : Observed} (point : RefreshPoint) (answer : Answer) (event : Option TokenEvent) :
      RefreshRun controller events r (.suspended point) →
      exec Observed.step events .start = some o → Feeds r.now o.connectivity point answer event →
      resumeRefresh controller r point answer = some (r', out) →
      RefreshRun controller (events ++ (event.map (r.now, ·)).toList) r' out

theorem refreshLoopHead_banner {r r' : Runtime} {controller : ℕ} {refreshAtMs : ℤ}
    {fatalRetries : ℕ} {out : Async RefreshPoint Unit}
    (h : refreshLoopHead r controller refreshAtMs fatalRetries = (r', out)) :
    r'.networkDiagnosis = r.networkDiagnosis := by
  rw [refreshLoopHead] at h
  split at h
  · rw [← (Prod.mk.inj h).1]
    rfl
  · split at h <;> rw [(Prod.mk.inj h).1]

theorem DegradeStep.banner {r r' : Runtime} {error : CopilotAuthFatalError} {out : Option ℕ}
    (h : DegradeStep r error r' out) : r'.networkDiagnosis = r.networkDiagnosis := by
  cases h with
  | joined | skipped => rfl
  | repeated => simp
  | started => simp

/-- What an answer does to the banner is what its event does. -/
theorem resumeRefresh_banner {controller : ℕ} {r r' : Runtime} {c : Connectivity}
    {point : RefreshPoint} {answer : Answer} {event : Option TokenEvent}
    {out : Async RefreshPoint Unit}
    (hfeeds : Feeds r.now c point answer event) (hr : r.networkDiagnosis = c.networkDiagnosis)
    (h : resumeRefresh controller r point answer = some (r', out)) :
    r'.networkDiagnosis =
      (event.elim c fun event => (c.apply r.now event).1).networkDiagnosis := by
  cases hfeeds with
  | refreshed | failed => exact refreshLoopHead_banner (Option.some.inj h)
  | waited | errored | unclassified =>
    exact (refreshLoopHead_banner (Option.some.inj h)).trans hr
  | unreachable =>
    rw [← (Prod.mk.inj (Option.some.inj h)).1]
    exact hr
  | degraded degrade =>
    rw [resumeRefresh] at h
    split at h
    · cases h
    · rw [← (Prod.mk.inj (Option.some.inj h)).1]
      exact hr
  | retried sentWith fatalRetries status remediationUrl hfatal hretries =>
    rw [resumeRefresh, if_pos hfatal, if_pos hretries] at h
    exact (refreshLoopHead_banner (Option.some.inj h)).trans hr
  | refused sentWith fatalRetries status remediationUrl hfatal =>
    rw [resumeRefresh, if_neg hfatal] at h
    exact (refreshLoopHead_banner (Option.some.inj h)).trans hr
  | rejected sentWith fatalRetries status remediationUrl hfatal hlast =>
    have hdegrade := (markAuthDegraded_step { r with networkDiagnosis := none }
      (copilotRejection r status remediationUrl)).banner
    rw [resumeRefresh, if_pos hfatal, if_neg hlast] at h
    dsimp only at h
    split at h
    · next r₁ hmark =>
      rw [hmark] at hdegrade
      rw [← (Prod.mk.inj (Option.some.inj h)).1]
      exact hdegrade
    · next r₁ degrade hmark =>
      rw [hmark] at hdegrade
      rw [← (Prod.mk.inj (Option.some.inj h)).1]
      exact hdegrade

/-- The loop mints nothing. -/
theorem Feeds.ne_minted {now : ℤ} {c : Connectivity} {point : RefreshPoint} {answer : Answer}
    {event : Option TokenEvent} (h : Feeds now c point answer event) : event ≠ some .minted := by
  cases h <;> simp

/-- In every run of the refresh loop, the banner of the process is that of the outage that its
answers make. -/
theorem refreshRun_follows {controller : ℕ} {events : List (ℤ × TokenEvent)} {r : Runtime}
    {out : Async RefreshPoint Unit} (h : RefreshRun controller events r out) :
    ∃ o, exec Observed.step events .start = some o ∧ Synchronised o ∧
      r.networkDiagnosis = o.connectivity.networkDiagnosis := by
  induction h with
  | started r out hnone => exact ⟨_, rfl, synchronised_start, hnone⟩
  | waited now _ ih => exact ih
  | @answered events r r' out o point answer event _ hexec hfeeds hresume ih =>
    obtain ⟨o₁, hexec₁, hsync, hbanner⟩ := ih
    obtain rfl : o = o₁ := Option.some.inj (hexec.symm.trans hexec₁)
    have hnext := resumeRefresh_banner hfeeds hbanner hresume
    cases event with
    | none =>
      rw [Option.map_none, Option.toList_none, List.append_nil]
      exact ⟨o, hexec, hsync, hnext⟩
    | some event =>
      have hminted : MintsConnected (r.now, event) o := fun heq =>
        absurd (congrArg some heq) hfeeds.ne_minted
      obtain ⟨o', hstep⟩ : ∃ o', Observed.step (r.now, event) o = some o' := ⟨_, rfl⟩
      refine ⟨o', ?_, synchronised_step _ _ _ hsync hminted hstep, ?_⟩
      · rw [Option.map_some, Option.toList_some, exec_append, hexec, Option.bind_some, exec, hstep]
        rfl
      · rw [Observed.step_eq] at hstep
        rw [← Option.some.inj hstep]
        exact hnext

end Maximal.Auth
