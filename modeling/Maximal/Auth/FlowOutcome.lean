import Maximal.Auth.Frame
import Maximal.Lib.Runs

/-!
# Flows reach an outcome

While the state holds a flow that was not aborted, a poller of the flow is suspended. A poller that
returns without an outcome of its own relies on a degrade to have set the state; in the grace
window after a success there is none.
-/

namespace Maximal.Auth

variable {r r' r'' : Runtime} {answer : Answer}

/-! ## The poller -/

/-- The degrade that a poller waits for. -/
def PollerPoint.waitsFor : PollerPoint → Option ℕ
  | .minting _ _ (.degrading _ degrade) => some degrade
  | _ => none

/-- The state holds a flow that was not aborted. -/
def Holds (r : Runtime) (flow : ActiveFlow) : Prop :=
  r.currentFlow = some flow ∧ flow.abort ∉ r.aborted

theorem Holds.of_advances {flow : ActiveFlow} (h : Holds r' flow) (hadvances : Advances r r') :
    Holds r flow := by
  refine ⟨?_, fun habort => h.2 (hadvances.aborted habort)⟩
  rcases hadvances.flow with hsame | hnone
  · exact hsame ▸ h.1
  · exact absurd (h.1.symm.trans hnone) (by simp)

/-- A poller of a flow that the state holds waits, if at all, for a degrade that is in flight. -/
def WaitsInFlight (r : Runtime) (flow : ActiveFlow) (point : PollerPoint) : Prop :=
  Holds r flow → ∀ degrade, point.waitsFor = some degrade → r.degradeInFlight = some degrade

theorem WaitsInFlight.advances {flow : ActiveFlow} {point : PollerPoint}
    (h : WaitsInFlight r flow point) (hadvances : Advances r r') : WaitsInFlight r' flow point := by
  intro hholds degrade hdegrade
  have hdegrade := h (hholds.of_advances hadvances) degrade hdegrade
  rcases hadvances.degrade with heq | hidle | hnone
  · exact heq.trans hdegrade
  · exact absurd (hidle.symm.trans hdegrade) (by simp)
  · exact absurd (hholds.1.symm.trans hnone) (by simp)

/-- A flow that the state holds is polled. Pollers are older than the next name. -/
structure FlowsPolled (r : Runtime) : Prop where
  polled : ∀ flow, Holds r flow → ∃ point, .poller flow point ∈ r.tasks
  waits : ∀ flow point, .poller flow point ∈ r.tasks → WaitsInFlight r flow point
  named : ∀ flow point, .poller flow point ∈ r.tasks → flow.abort < r.next

theorem FlowsPolled.advances (h : FlowsPolled r) (hadvances : Advances r r') : FlowsPolled r' where
  polled flow hholds := by
    obtain ⟨point, hpoint⟩ := h.polled flow (hholds.of_advances hadvances)
    exact ⟨point, hadvances.tasks hpoint⟩
  waits flow point hpoint :=
    (h.waits flow point (hadvances.pollers flow point hpoint)).advances hadvances
  named flow point hpoint :=
    lt_of_lt_of_le (h.named flow point (hadvances.pollers flow point hpoint)) hadvances.next

/-- What a poller leaves: it waits for a degrade in flight, or its flow is over. -/
def PollerLeaves (flow : ActiveFlow) (r : Runtime) : Async PollerPoint Unit → Prop
  | .suspended point => ∀ degrade, point.waitsFor = some degrade → r.degradeInFlight = some degrade
  | .returned () => ¬ Holds r flow

theorem not_holds_flowFailed (r : Runtime) (flow : ActiveFlow) (message : String) :
    ¬ Holds (flowFailed r flow message) flow := by
  rintro ⟨hflow, habort⟩
  unfold flowFailed flowFailureState at hflow habort
  split at hflow
  · next haborted => exact habort (by simp [haborted])
  · split at hflow <;> cases hflow

theorem pollerMinted_leaves {flow : ActiveFlow} {user : GitHubUser} {rec : AccountRecord}
    {copilotMinted : Bool} {out : Async PollerPoint Unit}
    (h : pollerMinted r flow user rec copilotMinted = (r', out)) : PollerLeaves flow r' out := by
  unfold pollerMinted at h
  split at h <;> cases h
  · next habort => exact fun hholds => hholds.2 habort
  · simp [PollerLeaves, PollerPoint.waitsFor]

/-- Does `markAuthDegraded` do nothing, though the state holds the flow? -/
def inGrace (r : Runtime) (flow : ActiveFlow) : Bool :=
  r.currentFlow = some flow && flow.abort ∉ r.aborted && r.degradeInFlight.isNone &&
    r.now - r.lastAuthSuccessMs < RECOVERY_GRACE_MS

/-- A mint that waits for a degrade waits for one in flight. -/
theorem MintStep.degrading_inFlight {onAuthFatal : OnAuthFatal} {mint : MintPoint}
    {error : CopilotAuthFatalError} {degrade : ℕ}
    (h : MintStep onAuthFatal r mint answer r' (.suspended (.degrading error degrade))) :
    r'.degradeInFlight = some degrade := by
  generalize hout : Async.suspended (MintPoint.degrading error degrade) = out at h
  cases h with
  | degraded _ _ _ _ started _ _ hdegrade =>
    cases hdegrade <;> cases hout
    · assumption
    · rfl
  | minted | refused | failed | unreachable | degradeOver | diagnosed => cases hout

/-- A mint that is rejected leaves no flow to poll, unless the degrade did nothing. -/
theorem MintStep.not_holds {flow : ActiveFlow} {mint : MintPoint} {error : CopilotAuthFatalError}
    (h : MintStep .degrade r mint answer r' (.returned (.error (.authFatal error))))
    (hwaits : ∀ error degrade, mint = .degrading error degrade → Holds r flow →
      r.degradeInFlight = some degrade)
    (hgrace : ∀ sentWith status remediationUrl, mint = .minting sentWith →
      answer = .refused status remediationUrl → isAuthFatal status = true →
      inGrace r flow = false) :
    ¬ Holds r' flow := by
  generalize hout : Async.returned (Except.error (MintError.authFatal error)) = out at h
  rintro ⟨hflow, habort⟩
  cases h with
  | degraded sentWith status remediationUrl _ _ _ hfatal hdegrade =>
    have hgrace := hgrace sentWith status remediationUrl rfl rfl hfatal
    cases hdegrade with
    | joined => cases hout
    | skipped hidle hwindow => simp [inGrace, hflow, habort, hidle, hwindow] at hgrace
    | repeated =>
      -- The flow of the state is aborted before the error is compared.
      have hflow : r.currentFlow = some flow := hflow
      exact habort (by simp [hflow])
    | started => cases hout
  | refused _ _ _ hthrow => cases hthrow
  | degradeOver error degrade hover => exact hover (hwaits error degrade rfl ⟨hflow, habort⟩)
  | minted | failed | unreachable | diagnosed => cases hout

theorem PollerStep.leaves {flow : ActiveFlow} {point : PollerPoint} {out : Async PollerPoint Unit}
    (h : PollerStep flow r point answer r' out) (hwaits : WaitsInFlight r flow point)
    (hgrace : ∀ user rec sentWith status remediationUrl,
      point = .minting user rec (.minting sentWith) → answer = .refused status remediationUrl →
      isAuthFatal status = true → inGrace r flow = false) :
    PollerLeaves flow r' out := by
  cases h with
  | abandoned _ habort => exact fun hholds => hholds.2 habort
  | approved | verified | adding => simp [PollerLeaves, PollerPoint.waitsFor]
  | pollFailed | unverified => exact not_holds_flowFailed r flow _
  | unwanted _ _ habort => exact fun hholds => hholds.2 habort
  | addFailed _ _ _ _ _ r₁ => exact not_holds_flowFailed r₁ flow _
  | committed _ _ _ _ _ _ _ _ hsetup =>
    cases hsetup
    simp [PollerLeaves, PollerPoint.waitsFor]
  | committedTaken _ _ _ _ _ _ _ _ _ _ hminted => exact pollerMinted_leaves hminted
  | minting user rec mint mint' _ _ hmint =>
    cases mint' with
    | degrading error degrade =>
      intro degrade' hdegrade
      cases hdegrade
      exact hmint.degrading_inFlight
    | minting | diagnosing => simp [PollerLeaves, PollerPoint.waitsFor]
  | minted _ _ _ _ _ _ _ _ hminted => exact pollerMinted_leaves hminted
  | rejected user rec mint _ error _ hmint =>
    refine hmint.not_holds ?_ ?_
    · rintro error degrade rfl hholds
      exact hwaits hholds degrade rfl
    · rintro sentWith status remediationUrl rfl hanswer hfatal
      exact hgrace user rec sentWith status remediationUrl rfl hanswer hfatal
  | retried _ _ _ _ _ _ _ _ _ _ _ hminted => exact pollerMinted_leaves hminted
  | finished => exact fun hholds => by cases hholds.1

/-! ## Every run -/

/-- The mint of a flow that the state holds is rejected while `markAuthDegraded` does nothing. -/
def rejectedInGrace (l : Label) (r : Runtime) : Bool :=
  match l.event with
  | .resume i (.refused status _) =>
    match r.tasks[i]? with
    | some (.poller flow (.minting _ _ (.minting _))) =>
      isAuthFatal status && inGrace (r.atTime l.now) flow
    | _ => false
  | _ => false

theorem FlowsPolled.without {i : ℕ} {task : Task} (h : FlowsPolled r)
    (htask : r.tasks[i]? = some task) (hpoller : ∀ flow point, task ≠ .poller flow point) :
    FlowsPolled (r.without i) where
  polled flow hholds := by
    obtain ⟨point, hpoint⟩ := h.polled flow hholds
    exact ⟨point, mem_eraseIdx_of_ne htask hpoint (hpoller flow point).symm⟩
  waits flow point hpoint := h.waits flow point (List.mem_of_mem_eraseIdx hpoint)
  named flow point hpoint := h.named flow point (List.mem_of_mem_eraseIdx hpoint)

theorem FlowsPolled.installFlow (h : FlowsPolled r) (resume : Option Identity)
    (code : DeviceCodeResponse) : FlowsPolled (installFlow r resume code) where
  polled flow hholds := by
    obtain rfl := Option.some.inj hholds.1
    exact ⟨.polling, by simp [Auth.installFlow]⟩
  waits flow point hpoint hholds := by
    obtain rfl := Option.some.inj hholds.1
    rcases List.mem_append.1 hpoint with hold | hnew
    · exact absurd (h.named _ _ hold) (lt_irrefl _)
    · obtain ⟨-, rfl⟩ := by simpa using hnew
      simp [PollerPoint.waitsFor]
  named flow point hpoint := by
    rcases List.mem_append.1 hpoint with hold | hnew
    · exact Nat.lt_succ_of_lt (h.named _ _ hold)
    · obtain ⟨rfl, -⟩ := by simpa using hnew
      exact Nat.lt_succ_self _

theorem FlowsPolled.poller {i : ℕ} {flow : ActiveFlow} {point : PollerPoint}
    {out : Async PollerPoint Unit} (h : FlowsPolled r)
    (htask : r.tasks[i]? = some (.poller flow point))
    (hstep : PollerStep flow (r.without i) point answer r' out)
    (hgrace : ∀ user rec sentWith status remediationUrl,
      point = .minting user rec (.minting sentWith) → answer = .refused status remediationUrl →
      isAuthFatal status = true → inGrace (r.without i) flow = false) :
    FlowsPolled (settle (.poller flow) (r', out)) := by
  have hmem := List.mem_of_getElem? htask
  have hadvances := hstep.advances
  have hleaves := hstep.leaves (h.waits flow point hmem) hgrace
  have hheld : ∀ flow', Holds r' flow' → Holds r flow' := fun flow' hholds =>
    Holds.of_advances (r := r.without i) hholds hadvances
  have hother : ∀ flow' point', .poller flow' point' ∈ r'.tasks →
      .poller flow' point' ∈ r.tasks := fun flow' point' hpoint =>
    List.mem_of_mem_eraseIdx (hadvances.pollers flow' point' hpoint)
  have hnamed : ∀ flow' point', .poller flow' point' ∈ r.tasks → flow'.abort < r'.next :=
    fun flow' point' hpoint => lt_of_lt_of_le (h.named flow' point' hpoint) hadvances.next
  have hwaits : ∀ flow' point', .poller flow' point' ∈ r'.tasks →
      WaitsInFlight r' flow' point' := by
    intro flow' point' hpoint
    have hwaits : WaitsInFlight (r.without i) flow' point' :=
      h.waits flow' point' (hother flow' point' hpoint)
    exact hwaits.advances hadvances
  cases out with
  | suspended next =>
    have hstays : ∀ flow' point', .poller flow' point' ∈ (r'.spawn (.poller flow next)).tasks →
        .poller flow' point' ∈ r'.tasks ∨ flow' = flow ∧ point' = next := by
      intro flow' point' hpoint
      simpa using hpoint
    refine ⟨fun flow' hholds => ?_, fun flow' point' hpoint => ?_, fun flow' point' hpoint => ?_⟩
    · by_cases hsame : flow' = flow
      · exact ⟨next, by simp [settle, hsame]⟩
      · obtain ⟨point', hpoint⟩ := h.polled flow' (hheld flow' hholds)
        have hpoint := mem_eraseIdx_of_ne htask hpoint (by simp [hsame])
        exact ⟨point', List.mem_append_left _ (hadvances.tasks hpoint)⟩
    · rcases hstays flow' point' hpoint with hold | ⟨rfl, rfl⟩
      · exact hwaits flow' point' hold
      · exact fun _ => hleaves
    · rcases hstays flow' point' hpoint with hold | ⟨rfl, rfl⟩
      · exact hnamed flow' point' (hother flow' point' hold)
      · exact hnamed flow' point hmem
  | returned =>
    refine ⟨fun flow' hholds => ?_, hwaits, fun flow' point' hpoint =>
      hnamed flow' point' (hother flow' point' hpoint)⟩
    have hne : flow' ≠ flow := by
      rintro rfl
      exact hleaves hholds
    obtain ⟨point', hpoint⟩ := h.polled flow' (hheld flow' hholds)
    have hpoint := mem_eraseIdx_of_ne htask hpoint (by simp [hne])
    exact ⟨point', hadvances.tasks hpoint⟩

theorem FlowsPolled.atTime (h : FlowsPolled r) (now : ℤ) : FlowsPolled (r.atTime now) :=
  ⟨h.polled, h.waits, h.named⟩

theorem FlowsPolled.step {l : Label} (h : FlowsPolled r) (hmeets : rejectedInGrace l r = false)
    (hstep : step l r = some r') : FlowsPolled r' := by
  have h := h.atTime l.now
  cases step_step hstep with
  | idle => exact h
  | called c => exact h.advances (call_advances _ c)
  | resumed i answer task _ hevent htask hresume =>
    have hother := h.without htask
    cases hresume with
    | installed resume code => exact (hother (by simp)).installFlow resume code
    | notInstalled => exact hother (by simp)
    | poller flow point _ _ _ hpoller =>
      refine h.poller htask hpoller ?_
      rintro user rec sentWith status remediationUrl rfl rfl hfatal
      have hgrace : inGrace (r.atTime l.now) flow = false := by
        simpa [rejectedInGrace, hevent, htask, hfatal] using hmeets
      exact hgrace
    | signOut _ _ _ _ hsignOut =>
      exact (hother (by simp)).advances (settle_advances hsignOut.advances (by simp))
    | rearm _ _ _ _ hrearm =>
      exact (hother (by simp)).advances (settle_advances hrearm.advances (by simp))
    | degrade _ _ _ _ _ _ hdegrade =>
      exact (hother (by simp)).advances (settle_advances hdegrade.advances (by simp))
    | activate _ _ _ _ _ hactivate =>
      exact (hother (by simp)).advances (settle_advances hactivate.advances (by simp))
    | mint _ _ _ _ _ hmint =>
      exact (hother (by simp)).advances (settle_advances hmint.advances (by simp))
    | refresh _ _ _ _ _ hrefresh =>
      exact (hother (by simp)).advances (settle_advances hrefresh.advances (by simp))
    | retry _ _ _ _ _ _ hretry =>
      exact (hother (by simp)).advances (settle_advances hretry.advances (by simp))
    | cleared _ _ _ _ hupdate =>
      exact (hother (by simp)).advances (settle_advances hupdate.advances (by simp))

/-- The flow that a task polls. -/
def Task.flow? : Task → Option ActiveFlow
  | .poller flow _ => some flow
  | _ => none

/-- When the poller of a flow has returned and the flow was not aborted, the state no longer holds
it, in every run in which no mint of a held flow is rejected in the grace window. -/
theorem flows_reach_outcome {labels : List Label} {r₀ r : Runtime}
    (hstart : r₀.currentFlow = none ∧ ∀ task ∈ r₀.tasks, task.flow? = none)
    (hmeets : Runs.Meets step (fun l r => rejectedInGrace l r = false) labels r₀)
    (hrun : Runs.exec step labels r₀ = some r) (flow : ActiveFlow)
    (hreturned : ∀ task ∈ r.tasks, task.flow? ≠ some flow) (habort : flow.abort ∉ r.aborted) :
    r.currentFlow ≠ some flow := by
  have hpollers : ∀ flow point, .poller flow point ∉ r₀.tasks := by
    intro flow point hpoint
    cases hstart.2 _ hpoint
  have hpolled : FlowsPolled r₀ := by
    refine ⟨fun flow hholds => ?_, fun flow point hpoint => absurd hpoint (hpollers flow point),
      fun flow point hpoint => absurd hpoint (hpollers flow point)⟩
    exact absurd (hstart.1.symm.trans hholds.1) (by simp)
  have hpolled : FlowsPolled r :=
    Runs.exec_invariant (fun _ _ _ h hmeets hstep => h.step hmeets hstep) hmeets hpolled hrun
  intro hflow
  obtain ⟨point, hpoint⟩ := hpolled.polled flow ⟨hflow, habort⟩
  exact hreturned _ hpoint rfl

/-- What a cold boot leaves of an account whose bearer is refreshed at this time. -/
def bootedSession (login githubToken bearer : String) (refreshAtMs : ℤ) : Runtime where
  now := 0
  githubToken := some githubToken
  userName := some login
  copilotToken := some ⟨bearer, some githubToken⟩
  authState := .signedIn { login := login, connectedSinceMs := some 0 }
  copilotRefreshLoopController := some 0
  next := 1
  tasks := [.refreshLoop 0 (.waiting refreshAtMs 0)]

def someCode : DeviceCodeResponse :=
  ⟨"3584d83530557fdd", "WDJB-MJHT", "https://github.com/login/device", 900, 5⟩

/-- The flow that is started half a minute later. -/
def someFlow : ActiveFlow := ⟨someCode, 930000, 1, some ⟨"alice", none, some 0⟩⟩

/-- The code is not approved. -/
def denied : List Label :=
  [⟨29000, .call .startDeviceFlow⟩, ⟨30000, .resume 1 (.deviceCode someCode)⟩,
    ⟨60000, .resume 1 (.failed "access_denied")⟩]

theorem flows_reach_outcome_denied :
    ∃ r, Runs.exec step denied (bootedSession "alice" "ghu_alice" "tid=alice" 1440000) = some r ∧
      r.currentFlow ≠ some someFlow := by
  have hmeets : Runs.Meets step (fun l r => rejectedInGrace l r = false) denied
      (bootedSession "alice" "ghu_alice" "tid=alice" 1440000) := by decide +kernel
  refine ⟨_, rfl, ?_⟩
  exact flows_reach_outcome (by decide +kernel) hmeets rfl _ (by decide +kernel) (by decide +kernel)

/-- The bearer of the session is refreshed while a second account is added, which is then
refused. -/
theorem not_all_flows_reach_outcome :
    ¬ ∀ (labels : List Label) (r₀ r : Runtime) (flow : ActiveFlow),
      (r₀.currentFlow = none ∧ ∀ task ∈ r₀.tasks, task.flow? = none) →
      Runs.exec step labels r₀ = some r → (∀ task ∈ r.tasks, task.flow? ≠ some flow) →
      flow.abort ∉ r.aborted → r.currentFlow ≠ some flow := by
  intro h
  refine h
    [⟨29000, .call .startDeviceFlow⟩, ⟨30000, .resume 1 (.deviceCode someCode)⟩,
      ⟨60000, .resume 1 (.tokens ⟨"ghu_bob", none, none, none⟩)⟩,
      ⟨60300, .resume 1 (.user ⟨"bob", none⟩)⟩, ⟨60310, .resume 1 .done⟩,
      -- The refresh is sent with the token of the session.
      ⟨60315, .resume 0 .done⟩, ⟨60320, .resume 0 .done⟩,
      ⟨60600, .resume 0 (.minted "tid=alice2" 1500)⟩, ⟨60900, .resume 0 (.refused 403 none)⟩]
    (bootedSession "alice" "ghu_alice" "tid=alice" 60315) _ someFlow (by decide +kernel) rfl
    (by decide +kernel) (by decide +kernel) (by decide +kernel)

end Maximal.Auth
