import Maximal.Auth.SignOut
import Mathlib.Data.List.Perm.Basic

/-!
# One flow at a time

A second flow is refused while the state holds one. The state holds it only when its code has
arrived, so two requests that wait for a code both install a flow. A state that is written over a
flow without aborting it leaves the poller behind, where a cancel does not reach it.

Where neither happens, a call that waits for its code is the only one, and the state has no flow
then that anyone still polls: this carries the induction.

## Main definitions

- `livePollers`, `OneFlow`
- `Task.overwrites` — the answers that write the state over the flow it holds
- `crossesFlow` — a second request for a code, or such an answer

## Main results

- `one_flow` — without them, there is one flow, and the state holds it
- `not_one_flow` — two requests wait for their codes
-/

namespace Maximal.Auth

variable {r r' r'' : Runtime} {answer : Answer}

/-! ## Live pollers -/

/-- Does the function wait for a device code? -/
def Task.awaitsCode : Task → Bool
  | .startDeviceFlow _ => true
  | _ => false

/-- Is the function part of a flow? -/
def Task.isOfFlow (task : Task) : Bool := task.awaitsCode || task.flow?.isSome

/-- The functions of the flows. -/
def tasksOfFlows (r : Runtime) : List Task := r.tasks.filter Task.isOfFlow

/-- The calls that wait for a device code. -/
def awaitedCodes (r : Runtime) : List Task := r.tasks.filter Task.awaitsCode

/-- The flows that are polled. -/
def pollers (r : Runtime) : List ActiveFlow := r.tasks.filterMap Task.flow?

theorem awaitedCodes_eq (r : Runtime) :
    awaitedCodes r = (tasksOfFlows r).filter Task.awaitsCode := by
  unfold awaitedCodes tasksOfFlows
  rw [List.filter_filter]
  refine List.filter_congr fun task _ => ?_
  cases hawaits : task.awaitsCode <;> simp [Task.isOfFlow, hawaits]

theorem pollers_eq (r : Runtime) : pollers r = (tasksOfFlows r).filterMap Task.flow? := by
  unfold pollers tasksOfFlows
  rw [List.filterMap_filter]
  refine List.filterMap_congr fun task _ => ?_
  cases hflow : task.flow? <;> simp [Task.isOfFlow, hflow]

/-- The pollers that have neither returned nor been aborted. -/
def livePollers (r : Runtime) : List ActiveFlow :=
  (pollers r).filter fun flow => flow.abort ∉ r.aborted

/-- At most one poller is live, and the state holds its flow. -/
structure OneFlow (r : Runtime) : Prop where
  atMostOne : (livePollers r).length ≤ 1
  held : ∀ flow ∈ livePollers r, r.currentFlow = some flow

instance (r : Runtime) : Decidable (OneFlow r) :=
  decidable_of_iff ((livePollers r).length ≤ 1 ∧ ∀ flow ∈ livePollers r, r.currentFlow = some flow)
    ⟨fun h => ⟨h.1, h.2⟩, fun h => ⟨h.atMostOne, h.held⟩⟩

theorem mem_livePollers {flow : ActiveFlow} :
    flow ∈ livePollers r ↔ flow ∈ pollers r ∧ flow.abort ∉ r.aborted := by
  simp [livePollers]

theorem oneFlow_of_nil (h : livePollers r = []) : OneFlow r := by
  refine ⟨?_, ?_⟩ <;> simp [h]

/-! ## Steps that leave a poller behind -/

/-- Does the state hold a flow that has not been aborted? -/
def holdsFlow (r : Runtime) : Bool := r.currentFlow.any fun flow => flow.abort ∉ r.aborted

/-- Does `startDeviceFlow` ask for a code? -/
def asksForCode (r : Runtime) : Bool := r.currentFlow.all r.isFlowExpired

/-- `finishRearmOnline` sets the state. -/
def RearmPoint.overwrites (r : Runtime) : RearmPoint → Answer → Bool
  | .first mint, answer | .second mint, answer => mint.revives answer && r.userName.isSome
  | .persisting update point, answer =>
    point.returns update r answer && r.githubToken.any (inferTokenType · = .gho) &&
      r.userName.isSome
  | _, _ => false

def SwitchPoint.overwrites : SwitchPoint → Bool
  | .refreshing => true
  | _ => false

def ActivatePoint.overwrites : ActivatePoint → Bool
  | .switching _ switch => switch.overwrites
  | _ => false

/-- The sweep ends: it has switched, or the error is shown. -/
def SweepPoint.overwrites (r : Runtime) : SweepPoint → Answer → Bool
  | .preflight _ _ _, _ => false
  | .switching _ switch _, _ => switch.overwrites
  | point, answer => point.revives r answer

def DegradePoint.overwrites (r : Runtime) : DegradePoint → Answer → Bool
  | .flagging update point, answer => !r.autoRecover && point.returns update r answer
  | .sweeping sweep, answer => sweep.overwrites r answer

def PollerPoint.isCaching : PollerPoint → Bool
  | .caching _ _ _ => true
  | _ => false

/-- Does the answer write the state, whatever flow it holds? -/
def Task.overwrites (r : Runtime) : Task → Answer → Bool
  -- The signal is not read after the models are cached.
  | .poller flow point, _ => flow.abort ∈ r.aborted && point.isCaching
  | .rearm point, answer => point.overwrites r answer
  | .degrade _ _ point, answer => point.overwrites r answer
  | .activate _ point, _ => point.overwrites
  | .onlineRetry _ onOnline point, answer => point.revives r onOnline answer
  | _, _ => false

/-- Does a second call ask for a code, or is the state written over a flow that has not been
aborted? -/
def crossesFlow (l : Label) (r : Runtime) : Bool :=
  match l.event with
  | .call .startDeviceFlow => asksForCode (r.atTime l.now) && awaitedCodes r ≠ []
  | .resume i answer => holdsFlow r && r.tasks[i]?.any (·.overwrites r answer)
  | _ => false

/-! ## What the functions leave -/

/-- What a function leaves that starts nothing of a flow. One that overwrites may write the state
over the flow that it holds. -/
structure Stays (overwrites : Bool) (r r' : Runtime) : Prop where
  tasksOfFlows : tasksOfFlows r' = tasksOfFlows r
  aborted : r.aborted ⊆ r'.aborted
  installs : ∀ flow, r'.currentFlow = some flow → r.currentFlow = some flow
  flow : overwrites = false → ∀ flow, r.currentFlow = some flow →
    flow.abort ∈ r'.aborted ∨ r'.currentFlow = some flow

namespace Stays

variable {overwrites : Bool}

@[refl] theorem refl (r : Runtime) : Stays overwrites r r :=
  ⟨rfl, List.Subset.refl _, fun _ => id, fun _ _ hflow => .inr hflow⟩

@[trans] theorem trans (h : Stays overwrites r r') (h' : Stays overwrites r' r'') :
    Stays overwrites r r'' where
  tasksOfFlows := h'.tasksOfFlows.trans h.tasksOfFlows
  aborted := List.Subset.trans h.aborted h'.aborted
  installs flow hflow := h.installs flow (h'.installs flow hflow)
  flow hkeeps flow hflow := by
    rcases h.flow hkeeps flow hflow with habort | hflow
    · exact .inl (h'.aborted habort)
    · exact h'.flow hkeeps flow hflow

theorem mono (h : Stays false r r') : Stays overwrites r r' :=
  ⟨h.tasksOfFlows, h.aborted, h.installs, fun _ => h.flow rfl⟩

/-- The variables of the flows are the same. -/
theorem of_eq (htasks : Auth.tasksOfFlows r' = Auth.tasksOfFlows r)
    (haborted : r.aborted ⊆ r'.aborted)
    (hstate : r'.authState = r.authState) : Stays overwrites r r' := by
  have hflow : r'.currentFlow = r.currentFlow := by
    unfold Runtime.currentFlow
    rw [hstate]
  refine ⟨htasks, haborted, fun flow hinstalled => ?_, fun _ flow hheld => .inr ?_⟩
  · rwa [hflow] at hinstalled
  · rwa [hflow]

/-- The state is written, but no flow is installed. -/
theorem of_written (htasks : r'.tasks = r.tasks) (haborted : r.aborted ⊆ r'.aborted)
    (hstate : r'.currentFlow = none) : Stays true r r' := by
  refine ⟨?_, haborted, fun flow hflow => ?_, fun h => by cases h⟩
  · rw [Auth.tasksOfFlows, htasks]
    rfl
  · cases hflow.symm.trans hstate

theorem pollers (h : Stays overwrites r r') : Auth.pollers r' = Auth.pollers r := by
  rw [pollers_eq, pollers_eq, h.tasksOfFlows]

theorem awaitedCodes (h : Stays overwrites r r') : Auth.awaitedCodes r' = Auth.awaitedCodes r := by
  rw [awaitedCodes_eq, awaitedCodes_eq, h.tasksOfFlows]

end Stays

theorem tasksOfFlows_spawn {task : Task} (htask : task.isOfFlow = false) :
    tasksOfFlows (r.spawn task) = tasksOfFlows r := by
  simp [tasksOfFlows, htask]

theorem DegradeStep.stays {error : CopilotAuthFatalError} {degrade : Option ℕ}
    (h : DegradeStep r error r' degrade) : Stays false r r' := by
  have htorn : ∀ flow, r.currentFlow = some flow → flow.abort ∈ (tearDown r).aborted := by
    intro flow hflow
    simp [hflow]
  cases h with
  | joined | skipped => rfl
  | repeated =>
    refine ⟨rfl, ?_, fun _ => id, fun _ flow hflow => .inl (htorn flow hflow)⟩
    intro controller hmem
    simp [hmem]
  | started =>
    refine ⟨tasksOfFlows_spawn rfl, ?_, fun _ => id, fun _ flow hflow => .inl (htorn flow hflow)⟩
    intro controller hmem
    simp [hmem]

theorem SetupStep.stays {out : Async MintPoint (Except MintError Unit)}
    (h : SetupStep r r' out) : Stays false r r' := by
  cases h with
  | taken => exact .of_eq (tasksOfFlows_spawn rfl) (List.subset_append_right _ _) rfl
  | sent => rfl

theorem bearerMinted_stays (r : Runtime) (bearer : Bearer) (refreshIn : ℕ) :
    Stays false r (bearerMinted r bearer refreshIn) :=
  .of_eq (by simp [tasksOfFlows, Task.isOfFlow, Task.awaitsCode, Task.flow?])
    (List.subset_append_right _ _) rfl

theorem MintStep.stays {onAuthFatal : OnAuthFatal} {point : MintPoint}
    {out : Async MintPoint (Except MintError Unit)}
    (h : MintStep onAuthFatal r point answer r' out) : Stays false r r' := by
  cases h with
  | minted => exact bearerMinted_stays r _ _
  | degraded _ _ _ _ _ _ _ hdegrade => exact hdegrade.stays
  | refused | failed | unreachable | degradeOver | diagnosed => rfl

theorem UpdateStep.stays {update : RegistryUpdate} {point : UpdatePoint}
    {out : Async UpdatePoint (Except String Unit)}
    (h : UpdateStep update r point answer r' out) : Stays false r r' := by
  cases h <;> exact .of_eq rfl (List.Subset.refl _) rfl

theorem HeadStep.stays {controller : ℕ} {out : Async RefreshPoint Unit}
    (h : HeadStep r controller r' out) : Stays false r r' := by
  cases h <;> exact .of_eq rfl (List.Subset.refl _) rfl

theorem RefreshStep.stays {controller : ℕ} {point : RefreshPoint}
    {out : Async RefreshPoint Unit} (h : RefreshStep controller r point answer r' out) :
    Stays false r r' := by
  have hbanner : ∀ banner, Stays false r { r with networkDiagnosis := banner } := fun banner =>
    .of_eq rfl (List.Subset.refl _) rfl
  have hended : ∀ r, Stays false r (refreshLoopEnded r controller) := fun r =>
    .of_eq rfl (List.Subset.refl _) rfl
  cases h with
  | refreshed sentWith fatalRetries token _ _ _ hhead =>
    have hset : Stays false r (bearerRefreshed r ⟨token, sentWith⟩ fatalRetries) := by
      refine .of_eq ?_ (List.Subset.refl _) rfl
      show (if fatalRetries > 0 then _ else _ : List Task).filter Task.isOfFlow = tasksOfFlows r
      split
      · exact tasksOfFlows_spawn rfl
      · rfl
    exact hset.trans hhead.stays
  | continued _ _ banner _ _ hhead => exact (hbanner banner).trans hhead.stays
  | degraded _ _ _ _ _ _ hdegrade => exact (hbanner none).trans hdegrade.stays
  | stopped _ _ _ _ _ hdegrade => exact ((hbanner none).trans hdegrade.stays).trans (hended _)
  | unreachable => rfl
  | degradeOver => exact hended r

theorem ScheduleStep.stays {onOnline : Option (Option String)}
    (h : ScheduleStep r onOnline r') : Stays false r r' := by
  cases h with
  | ended => exact .of_eq rfl (List.subset_append_right _ _) rfl
  | waiting => exact .of_eq (tasksOfFlows_spawn rfl) (List.subset_append_right _ _) rfl

theorem retryLoopEnded_stays (r : Runtime) (controller : ℕ) :
    Stays false r (retryLoopEnded r controller) :=
  .of_eq rfl (List.Subset.refl _) rfl

theorem retryLoopHead_stays {controller : ℕ} {out : Async RetryPoint Unit}
    (h : retryLoopHead r controller = (r', out)) : Stays false r r' := by
  unfold retryLoopHead at h
  split at h <;> cases h
  · exact retryLoopEnded_stays r controller
  · rfl

theorem retryMinted_stays {controller : ℕ} {out : Async RetryPoint Unit}
    (h : retryMinted r controller = (r', out)) : Stays false r r' := by
  unfold retryMinted at h
  split at h <;> cases h
  · exact .of_eq rfl (List.subset_append_right _ _) rfl
  · rfl

theorem markSignedIn_stays (r : Runtime) (login avatarUrl : Option String) :
    Stays true r (r.markSignedIn login avatarUrl) :=
  .of_written rfl (List.subset_append_right _ _) rfl

theorem RetryStep.stays {controller : ℕ} {onOnline : Option (Option String)}
    {point : RetryPoint} {out : Async RetryPoint Unit}
    (h : RetryStep controller onOnline r point answer r' out) :
    Stays (point.revives r onOnline answer) r r' := by
  have hended : ∀ r, Stays false r (retryLoopEnded r controller) := fun r =>
    retryLoopEnded_stays r controller
  cases h with
  | ended | unnamed => exact (hended r).mono
  | sent _ _ hsetup => exact hsetup.stays.mono
  | taken _ _ _ hsetup hminted => exact (hsetup.stays.trans (retryMinted_stays hminted)).mono
  | minting _ _ _ _ hmint => exact hmint.stays.mono
  | minted _ _ _ _ _ hmint hminted => exact (hmint.stays.trans (retryMinted_stays hminted)).mono
  | rejected _ _ _ _ hmint => exact (hmint.stays.trans (hended _)).mono
  | failed _ _ _ _ _ _ hmint hhead => exact (hmint.stays.trans (retryLoopHead_stays hhead)).mono
  | online _ login avatarUrl honline hname =>
    have hrevives : RetryPoint.caching.revives r onOnline answer = true := by
      simp [RetryPoint.revives, honline, hname]
    rw [hrevives]
    exact (markSignedIn_stays r login avatarUrl).trans (hended _).mono
  | identified user =>
    have hnamed : Stays true r (r.setUserName user.login) := .of_eq rfl (List.Subset.refl _) rfl
    exact hnamed.trans (markSignedIn_stays _ _ _)
  | unidentified => rfl

theorem SwitchStart.stays {rec : StoredRecord} {out : Async SwitchPoint (Except String Unit)}
    (h : SwitchStart r rec r' out) : Stays false r r' := by
  have hswitched : Stays false r (switched r rec) :=
    .of_eq rfl (List.subset_append_right _ _) rfl
  cases h with
  | sent _ hsetup => exact hswitched.trans hsetup.stays
  | taken hsetup => exact hswitched.trans hsetup.stays

theorem SwitchStep.stays {key : AccountKey} {rec : StoredRecord} {point : SwitchPoint}
    {out : Async SwitchPoint (Except String Unit)}
    (h : SwitchStep key rec r point answer r' out) : Stays point.overwrites r r' := by
  cases h with
  | minting _ _ _ _ hmint => exact hmint.stays
  | minted _ _ _ hmint => exact hmint.stays
  | rejected _ _ _ _ hmint => exact hmint.stays
  | activating _ _ _ _ hupdate => exact hupdate.stays
  | activated _ _ _ hupdate => exact hupdate.stays
  | unwritten _ _ _ _ hupdate => exact hupdate.stays
  | finished =>
    have hcleared : Stays true r { r with lastUpstreamRejection := none } :=
      .of_eq rfl (List.Subset.refl _) rfl
    exact hcleared.trans (markSignedIn_stays _ _ _)

theorem ActivateStep.stays {key : AccountKey} {point : ActivatePoint}
    {out : Async ActivatePoint ActivateResult}
    (h : ActivateStep key r point answer r' out) : Stays point.overwrites r r' := by
  cases h with
  | refused | found => rfl
  | started _ _ _ _ hstart => exact hstart.stays
  | switching _ _ _ _ _ hswitch => exact hswitch.stays
  | activated _ _ _ _ hswitch => exact hswitch.stays
  | failed _ _ _ _ _ hswitch => exact hswitch.stays

theorem TryStep.stays {cands : List Candidate} {out : Async SweepPoint SweepResult}
    (h : TryStep r cands r' out) : Stays false r r' := by
  cases h with
  | exhausted => exact .of_eq rfl (List.Subset.refl _) rfl
  | sent | unsent => rfl

theorem SweepStep.stays {point : SweepPoint} {out : Async SweepPoint SweepResult}
    (h : SweepStep r point answer r' out) : Stays (point.overwrites r answer) r r' := by
  cases h with
  | read _ _ _ _ _ htry => exact htry.stays.mono
  | started _ _ _ _ _ hstart => exact hstart.stays
  | refused => rfl
  | flagging _ _ _ _ _ _ hupdate => exact hupdate.stays.mono
  | flagged _ _ _ _ _ _ _ hupdate htry =>
    exact (hupdate.stays.trans htry.stays).mono
  | threw _ _ _ _ _ _ hupdate => exact hupdate.stays.mono
  | switching _ _ _ _ _ _ hswitch => exact hswitch.stays
  | recovered _ _ _ _ _ hswitch => exact hswitch.stays
  | failed _ _ _ _ _ _ hswitch => exact hswitch.stays

/-- A sweep that ends overwrites the flow. -/
theorem SweepStep.overwrites {point : SweepPoint} {result : SweepResult}
    (h : SweepStep r point answer r' (.returned result)) : point.overwrites r answer = true := by
  cases point with
  | preflight => cases h
  | switching cand switch rest =>
    cases h with
    | recovered _ _ _ _ _ hswitch =>
      cases hswitch
      rfl
  | reading => exact h.revives
  | flagging => exact h.revives

theorem SignOutStep.stays {point : SignOutPoint} {out : Async SignOutPoint Unit}
    (h : SignOutStep r point answer r' out) : Stays false r r' := by
  cases h with
  | deactivating _ _ _ _ hupdate => exact hupdate.stays
  | deactivated _ _ _ _ hupdate => exact hupdate.stays
  | unlinked => rfl

theorem degradeFailed_stays (r : Runtime) (error : CopilotAuthFatalError) :
    Stays true r (degradeFailed r error) :=
  .of_written rfl (List.Subset.refl _) rfl

theorem DegradeResume.stays {error : CopilotAuthFatalError} {point : DegradePoint}
    {out : Async DegradePoint Unit} (h : DegradeResume error r point answer r' out) :
    Stays (point.overwrites r answer) r r' := by
  cases h with
  | flagging _ _ _ _ _ hupdate => exact hupdate.stays.mono
  | sweepStarted _ _ _ _ _ hupdate => exact hupdate.stays.mono
  | flagged update point _ _ r₁ hupdate hsweep =>
    have hauto : r.autoRecover = r₁.autoRecover := by cases hupdate <;> rfl
    have hends : (DegradePoint.flagging update point).overwrites r answer = true := by
      simp [DegradePoint.overwrites, hauto, hsweep, hupdate.returns]
    rw [hends]
    exact hupdate.stays.mono.trans (degradeFailed_stays r₁ error)
  | sweeping _ _ _ _ hsweep => exact hsweep.stays
  | recovered sweep _ r₁ hsweep =>
    exact hsweep.stays.trans (.of_eq rfl (List.Subset.refl _) rfl)
  | exhausted sweep _ _ r₁ hsweep =>
    have hends : (DegradePoint.sweeping sweep).overwrites r answer = true := hsweep.overwrites
    have hstays := hsweep.stays
    rw [hsweep.overwrites] at hstays
    rw [hends]
    exact hstays.trans (degradeFailed_stays r₁ error)

/-- Where the name is known, a re-arm that comes online sets the state. -/
theorem rearmed_stays {overwrites : Bool} (h : Stays false r r')
    (hends : r'.userName.isSome = true → overwrites = true) :
    Stays overwrites r (rearmEnded (finishRearmOnline r')) := by
  unfold finishRearmOnline
  split
  · next login hname =>
    have hends : overwrites = true := hends (by rw [hname]; rfl)
    subst hends
    have hsignedIn := markSignedIn_stays r' login none
    exact (h.mono.trans hsignedIn).trans (.of_eq rfl (List.Subset.refl _) rfl)
  · exact h.mono.trans (.of_eq rfl (List.Subset.refl _) rfl)

theorem RearmStep.stays {point : RearmPoint} {out : Async RearmPoint RearmOutcome}
    (h : RearmStep r point answer r' out) : Stays (point.overwrites r answer) r r' := by
  have hended : ∀ r, Stays false r (rearmEnded r) := fun r => .of_eq rfl (List.Subset.refl _) rfl
  cases h with
  | first _ _ _ _ hmint => exact hmint.stays.mono
  | firstMinted mint _ _ hmint =>
    refine rearmed_stays hmint.stays fun hname => ?_
    obtain ⟨sentWith, token, refreshIn, rfl, rfl, rfl⟩ := hmint.minted_of_ok
    exact hname
  | firstRejected _ _ _ _ hmint => exact hmint.stays.mono
  | firstFailed _ _ _ _ hmint => exact (hmint.stays.trans (hended _)).mono
  | read => rfl
  | noRefreshToken | notRenewed => exact hended r
  | renewed => exact .of_eq rfl (List.Subset.refl _) rfl
  | persisting _ _ _ _ _ hupdate => exact hupdate.stays.mono
  | persisted _ _ _ _ _ _ _ hupdate hsetup => exact (hupdate.stays.trans hsetup.stays).mono
  | persistedTaken _ _ _ _ r₁ _ hupdate hsetup =>
    refine rearmed_stays (hupdate.stays.trans hsetup.stays) fun hname => ?_
    obtain ⟨token, htoken, hgho, rfl⟩ := hsetup.taken_of_ok
    have hsame : r₁.githubToken = r.githubToken ∧ r₁.userName = r.userName := by
      cases hupdate <;> exact ⟨rfl, rfl⟩
    have hname : r₁.userName.isSome = true := hname
    rw [hsame.1] at htoken
    rw [hsame.2] at hname
    simp [RearmPoint.overwrites, hupdate.returns, htoken, hgho, hname]
  | second _ _ _ _ hmint => exact hmint.stays.mono
  | secondMinted mint _ _ hmint =>
    refine rearmed_stays hmint.stays fun hname => ?_
    obtain ⟨sentWith, token, refreshIn, rfl, rfl, rfl⟩ := hmint.minted_of_ok
    exact hname
  | secondFailed _ _ _ _ _ hmint => exact (hmint.stays.trans (hended _)).mono

def Async.isReturned {P R : Type} : Async P R → Bool
  | .suspended _ => false
  | .returned _ => true

theorem pollerMinted_stays {flow : ActiveFlow} {user : GitHubUser} {rec : AccountRecord}
    {copilotMinted : Bool} {out : Async PollerPoint Unit}
    (h : pollerMinted r flow user rec copilotMinted = (r', out)) : Stays false r r' := by
  unfold pollerMinted at h
  split at h <;> cases h <;> rfl

theorem flowFailed_stays (r : Runtime) (flow : ActiveFlow) (message : String) :
    Stays (flow.abort ∉ r.aborted) r (flowFailed r flow message) := by
  unfold flowFailed
  split
  · rfl
  · next habort =>
    rw [decide_eq_true habort]
    refine .of_written rfl (List.Subset.refl _) ?_
    unfold flowFailureState
    cases flow.resume <;> rfl

/-- A poller that goes on has not written the state; nor has one that was aborted, unless it was
caching the models. -/
theorem PollerStep.stays {flow : ActiveFlow} {point : PollerPoint}
    {out : Async PollerPoint Unit} (h : PollerStep flow r point answer r' out) :
    Stays (out.isReturned && (flow.abort ∉ r.aborted || point.isCaching)) r r' := by
  have hfailed : ∀ message, Stays (true && (decide (flow.abort ∉ r.aborted) || false)) r
      (flowFailed r flow message) := by
    intro message
    rw [Bool.true_and, Bool.or_false]
    exact flowFailed_stays r flow message
  have hname : ∀ name, Stays false r (r.setUserName name) := fun name =>
    .of_eq rfl (List.Subset.refl _) rfl
  have htoken : ∀ (r : Runtime) token, Stays false r (r.setGithubToken token) := fun r token =>
    .of_eq rfl (List.Subset.refl _) rfl
  cases h with
  | abandoned | approved => rfl
  | pollFailed message => exact hfailed message
  | unverified _ _ message => exact hfailed message
  | unwanted | verified => exact (hname _).mono
  | adding _ _ _ _ _ _ hupdate => exact hupdate.stays.mono
  | addFailed _ _ _ _ message r₁ hupdate =>
    have haborted : r₁.aborted = r.aborted := by
      cases hupdate
      rfl
    have hfails := flowFailed_stays r₁ flow message
    rw [haborted] at hfails
    refine hupdate.stays.mono.trans ?_
    simpa [Async.isReturned, PollerPoint.isCaching] using hfails
  | committed _ _ _ _ r₁ _ _ hupdate hsetup =>
    exact ((hupdate.stays.trans (htoken r₁ _)).trans hsetup.stays).mono
  | committedTaken _ _ _ _ r₁ _ _ _ hupdate hsetup hminted =>
    have hstays := (hupdate.stays.trans (htoken r₁ _)).trans hsetup.stays
    exact (hstays.trans (pollerMinted_stays hminted)).mono
  | minting _ _ _ _ _ _ hmint => exact hmint.stays.mono
  | minted _ _ _ _ _ _ _ hmint hminted => exact (hmint.stays.trans (pollerMinted_stays hminted)).mono
  | rejected _ _ _ _ _ _ hmint => exact hmint.stays.mono
  | retried _ _ _ _ _ _ _ _ _ hmint hschedule hminted =>
    exact ((hmint.stays.trans hschedule.stays).trans (pollerMinted_stays hminted)).mono
  | finished _ _ copilotMinted =>
    have hstopped : Stays true r (if copilotMinted then r.stopCopilotOnlineRetry else r) := by
      cases copilotMinted with
      | false => rfl
      | true => exact .of_eq rfl (List.subset_append_right _ _) rfl
    rw [PollerPoint.isCaching, Bool.or_true, Async.isReturned, Bool.true_and]
    exact hstopped.trans (.of_written rfl (List.Subset.refl _) rfl)

/-! ## Calls -/

theorem settle_stays {P R : Type} {overwrites : Bool} {task : P → Task} {out : Async P R}
    (h : Stays overwrites r r') (htask : ∀ p, (task p).isOfFlow = false) :
    Stays overwrites r (settle task (r', out)) := by
  cases out with
  | suspended p => exact h.trans (.of_eq (tasksOfFlows_spawn (htask p)) (List.Subset.refl _) rfl)
  | returned => exact h

/-- A request ends the flow of the state only by an abort. -/
theorem call_stays {c : Call} (r : Runtime) (hcall : c ≠ .startDeviceFlow) :
    Stays false r (call r c) := by
  cases c with
  | startDeviceFlow => exact absurd rfl hcall
  | cancelDeviceFlow =>
    show Stays false r (cancelDeviceFlow r)
    unfold cancelDeviceFlow
    split
    · rfl
    · next flow hflow =>
      refine ⟨rfl, List.subset_cons_self _ _, fun flow' hflow' => ?_, fun _ flow' hflow' => .inl ?_⟩
      · cases hresume : flow.resume <;> simp [Runtime.currentFlow, hresume] at hflow'
      obtain rfl := Option.some.inj (hflow.symm.trans hflow')
      exact List.mem_cons_self
  | signOut =>
    refine ⟨tasksOfFlows_spawn rfl, ?_, ?_, fun _ flow hflow => .inl ?_⟩
    · intro controller hmem
      simp [call, signOut, hmem]
    · intro flow hflow
      cases hflow
    · simp [call, signOut, hflow]
  | rearmCopilotAuth =>
    show Stays false r (rearmCopilotAuth r)
    unfold rearmCopilotAuth
    split
    · rfl
    · split
      · rfl
      · split
        · rfl
        · exact .of_eq (tasksOfFlows_spawn rfl) (List.Subset.refl _) rfl
  | markAuthDegraded error => exact (markAuthDegraded_step r error).stays
  | activateAccountLive => exact .of_eq (tasksOfFlows_spawn rfl) (List.Subset.refl _) rfl
  | setupCopilotToken => exact settle_stays (setupCopilotToken_step rfl).stays fun _ => rfl
  | scheduleCopilotOnlineRetry onOnline => exact (scheduleCopilotOnlineRetry_step r onOnline).stays

/-! ## Every run -/

theorem OneFlow.of_sublist (h : OneFlow r) (hlive : (livePollers r').Sublist (livePollers r))
    (hflow : ∀ flow ∈ livePollers r', r.currentFlow = some flow → r'.currentFlow = some flow) :
    OneFlow r' where
  atMostOne := le_trans hlive.length_le h.atMostOne
  held flow hmem := hflow flow hmem (h.held flow (hlive.subset hmem))

/-- No poller comes to life. -/
theorem Stays.livePollers {overwrites : Bool} (h : Stays overwrites r r') :
    (livePollers r').Sublist (livePollers r) := by
  unfold Auth.livePollers
  rw [h.pollers]
  refine List.monotone_filter_right _ fun flow hlive => ?_
  simp only [decide_eq_true_eq] at hlive ⊢
  exact fun habort => hlive (h.aborted habort)

theorem OneFlow.stays {overwrites : Bool} (h : OneFlow r) (hstays : Stays overwrites r r')
    (hkeeps : livePollers r = [] ∨ overwrites = false) : OneFlow r' := by
  refine h.of_sublist hstays.livePollers fun flow hmem hflow => ?_
  rcases hkeeps with hnone | hkeeps
  · have hold := hstays.livePollers.subset hmem
    rw [hnone] at hold
    cases hold
  · rcases hstays.flow hkeeps flow hflow with habort | hflow
    · exact absurd habort (mem_livePollers.1 hmem).2
    · exact hflow

/-- The pollers, with the one that is resumed in front. -/
theorem pollers_without {i : ℕ} {flow : ActiveFlow} {point : PollerPoint}
    (htask : r.tasks[i]? = some (.poller flow point)) :
    (flow :: pollers (r.without i)).Perm (pollers r) := by
  obtain ⟨hlt, hget⟩ := List.getElem?_eq_some_iff.1 htask
  have hperm := (List.getElem_cons_eraseIdx_perm hlt).filterMap Task.flow?
  rw [hget] at hperm
  exact hperm

theorem livePollers_without (r : Runtime) (i : ℕ) :
    (livePollers (r.without i)).Sublist (livePollers r) :=
  ((List.eraseIdx_sublist r.tasks i).filterMap Task.flow?).filter _

theorem OneFlow.without (h : OneFlow r) (i : ℕ) : OneFlow (r.without i) :=
  h.of_sublist (livePollers_without r i) fun _ _ hflow => hflow

/-- The poller that is resumed is the only live one, if it is live. -/
theorem OneFlow.livePollers_without {i : ℕ} {flow : ActiveFlow} {point : PollerPoint}
    (h : OneFlow r) (htask : r.tasks[i]? = some (.poller flow point))
    (hlive : flow.abort ∉ r.aborted) : livePollers (r.without i) = [] := by
  have hlength := ((pollers_without htask).filter fun flow => flow.abort ∉ r.aborted).length_eq
  rw [List.filter_cons_of_pos (by simpa using hlive), List.length_cons] at hlength
  have hone := h.atMostOne
  unfold livePollers at hone ⊢
  refine List.length_eq_zero_iff.1 ?_
  show ((pollers (r.without i)).filter fun flow => flow.abort ∉ r.aborted).length = 0
  omega

theorem livePollers_spawn (r : Runtime) (flow : ActiveFlow) (point : PollerPoint) :
    livePollers (r.spawn (.poller flow point)) =
      livePollers r ++ if flow.abort ∈ r.aborted then [] else [flow] := by
  have hpollers : pollers (r.spawn (.poller flow point)) = pollers r ++ [flow] := by
    simp [pollers, Task.flow?]
  show (pollers (r.spawn (.poller flow point))).filter (fun flow => flow.abort ∉ r.aborted) = _
  rw [hpollers, List.filter_append, List.filter_singleton]
  by_cases habort : flow.abort ∈ r.aborted
  · rw [if_pos habort, decide_eq_false (not_not_intro habort)]
    rfl
  · rw [if_neg habort, decide_eq_true habort]
    rfl

/-- A poller is all there is. -/
theorem oneFlow_spawn {flow : ActiveFlow} {point : PollerPoint} (hnone : livePollers r = [])
    (hflow : flow.abort ∈ r.aborted ∨ r.currentFlow = some flow) :
    OneFlow (r.spawn (.poller flow point)) := by
  by_cases habort : flow.abort ∈ r.aborted
  · refine oneFlow_of_nil ?_
    rw [livePollers_spawn, hnone, if_pos habort, List.append_nil]
  · have hlive : livePollers (r.spawn (.poller flow point)) = [flow] := by
      rw [livePollers_spawn, hnone, if_neg habort, List.nil_append]
    refine ⟨by rw [hlive, List.length_singleton], fun flow' hmem => ?_⟩
    rw [hlive] at hmem
    obtain rfl := List.mem_singleton.1 hmem
    exact hflow.resolve_left habort

theorem OneFlow.poller {i : ℕ} {flow : ActiveFlow} {point : PollerPoint}
    {out : Async PollerPoint Unit} (h : OneFlow r)
    (htask : r.tasks[i]? = some (.poller flow point))
    (hstep : PollerStep flow (r.without i) point answer r' out)
    (hkeeps : livePollers r = [] ∨ (flow.abort ∈ r.aborted && point.isCaching) = false) :
    OneFlow (settle (.poller flow) (r', out)) := by
  have hstays := hstep.stays
  by_cases habort : flow.abort ∈ r.aborted
  · -- An aborted poller does not count.
    have haborted : flow.abort ∈ r'.aborted := hstays.aborted habort
    have hone : OneFlow r' := by
      refine (h.without i).stays hstays ?_
      rcases hkeeps with hnone | hkeeps
      · refine .inl (List.eq_nil_of_sublist_nil ?_)
        rw [← hnone]
        exact Auth.livePollers_without r i
      · have hhere : flow.abort ∈ (r.without i).aborted := habort
        rw [decide_eq_true habort, Bool.true_and] at hkeeps
        right
        simp [hhere, hkeeps]
    cases out with
    | suspended next =>
      refine hone.of_sublist ?_ fun _ _ hflow => hflow
      show (livePollers (r'.spawn _)).Sublist _
      rw [livePollers_spawn, if_pos haborted, List.append_nil]
    | returned => exact hone
  · -- A live one is all there is.
    have hnone : livePollers r' = [] := by
      refine List.eq_nil_of_sublist_nil ?_
      rw [← h.livePollers_without htask habort]
      exact hstays.livePollers
    cases out with
    | suspended next =>
      have hmem : flow ∈ livePollers r :=
        mem_livePollers.2 ⟨(pollers_without htask).subset List.mem_cons_self, habort⟩
      exact oneFlow_spawn hnone (hstays.flow rfl flow (h.held flow hmem))
    | returned => exact oneFlow_of_nil hnone

theorem OneFlow.livePollers_of_not_holdsFlow (h : OneFlow r) (hidle : holdsFlow r = false) :
    livePollers r = [] := by
  refine List.eq_nil_iff_forall_not_mem.2 fun flow hmem => ?_
  have hheld := h.held flow hmem
  have hlive := (mem_livePollers.1 hmem).2
  simp [holdsFlow, hheld, hlive] at hidle

/-- One flow at a time, whether it waits for its code or is polled. -/
structure FlowsInTurn (r : Runtime) : Prop where
  one : OneFlow r
  atMostOneAwaited : (awaitedCodes r).length ≤ 1
  idle : awaitedCodes r ≠ [] → holdsFlow r = false

theorem Stays.not_holdsFlow {overwrites : Bool} (h : Stays overwrites r r')
    (hidle : holdsFlow r = false) : holdsFlow r' = false := by
  unfold holdsFlow at hidle ⊢
  cases hflow : r'.currentFlow with
  | none => rfl
  | some flow =>
    rw [h.installs flow hflow, Option.any_some] at hidle
    have habort : flow.abort ∈ r.aborted := by simpa using hidle
    simpa using h.aborted habort

/-- A call that waits for its code is resumed. -/
theorem awaitedCodes_without {i : ℕ} {task : Task} (htask : r.tasks[i]? = some task)
    (hawaits : task.awaitsCode = true) :
    (awaitedCodes (r.without i)).length + 1 = (awaitedCodes r).length := by
  obtain ⟨hlt, hget⟩ := List.getElem?_eq_some_iff.1 htask
  have hperm := ((List.getElem_cons_eraseIdx_perm hlt).filter Task.awaitsCode).length_eq
  rw [hget, List.filter_cons_of_pos hawaits, List.length_cons] at hperm
  exact hperm

theorem FlowsInTurn.without (h : FlowsInTurn r) (i : ℕ) : FlowsInTurn (r.without i) := by
  have hawaited : (awaitedCodes (r.without i)).Sublist (awaitedCodes r) :=
    (List.eraseIdx_sublist r.tasks i).filter _
  refine ⟨h.one.without i, hawaited.length_le.trans h.atMostOneAwaited, fun hsome => ?_⟩
  refine h.idle fun hnone => hsome ?_
  rw [hnone] at hawaited
  exact List.eq_nil_of_sublist_nil hawaited

theorem FlowsInTurn.stays {overwrites : Bool} (h : FlowsInTurn r) (hstays : Stays overwrites r r')
    (hkeeps : holdsFlow r = false ∨ overwrites = false) : FlowsInTurn r' where
  one := h.one.stays hstays (hkeeps.imp_left h.one.livePollers_of_not_holdsFlow)
  atMostOneAwaited := hstays.awaitedCodes ▸ h.atMostOneAwaited
  idle hsome := hstays.not_holdsFlow (h.idle (hstays.awaitedCodes ▸ hsome))

theorem FlowsInTurn.poller {i : ℕ} {flow : ActiveFlow} {point : PollerPoint}
    {out : Async PollerPoint Unit} (h : FlowsInTurn r)
    (htask : r.tasks[i]? = some (.poller flow point))
    (hstep : PollerStep flow (r.without i) point answer r' out)
    (hkeeps : holdsFlow r = false ∨ (flow.abort ∈ r.aborted && point.isCaching) = false) :
    FlowsInTurn (settle (.poller flow) (r', out)) := by
  have hone := h.one.poller htask hstep (hkeeps.imp_left h.one.livePollers_of_not_holdsFlow)
  have hstays := hstep.stays
  have hawaited : awaitedCodes (settle (.poller flow) (r', out)) = awaitedCodes (r.without i) := by
    rw [← hstays.awaitedCodes]
    cases out with
    | suspended next => simp [settle, awaitedCodes, Task.awaitsCode]
    | returned => rfl
  have hsame : holdsFlow (settle (.poller flow) (r', out)) = holdsFlow r' := by cases out <;> rfl
  have hwithout := h.without i
  refine ⟨hone, hawaited ▸ hwithout.atMostOneAwaited, fun hsome => ?_⟩
  rw [hawaited] at hsome
  exact hsame.trans (hstays.not_holdsFlow (hwithout.idle hsome))

/-- The state holds no flow when the code arrives. -/
theorem FlowsInTurn.installFlow {i : ℕ} {resume : Option Identity} (h : FlowsInTurn r)
    (htask : r.tasks[i]? = some (.startDeviceFlow resume)) (code : DeviceCodeResponse) :
    FlowsInTurn (installFlow (r.without i) resume code) := by
  have hlength := awaitedCodes_without htask rfl
  have hone := h.atMostOneAwaited
  have hnone : awaitedCodes (r.without i) = [] := List.length_eq_zero_iff.1 (by omega)
  have hsome : awaitedCodes r ≠ [] := by
    intro hempty
    rw [hempty] at hlength
    cases hlength
  have hidle : livePollers (r.without i) = [] :=
    (h.one.without i).livePollers_of_not_holdsFlow (h.idle hsome)
  have hawaited : awaitedCodes (Auth.installFlow (r.without i) resume code) = [] := by
    rw [← hnone]
    simp [Auth.installFlow, awaitedCodes, Task.awaitsCode]
  refine ⟨oneFlow_spawn hidle (.inr rfl), ?_, fun hsome => absurd hawaited hsome⟩
  rw [hawaited]
  exact Nat.zero_le 1

theorem FlowsInTurn.startDeviceFlow (h : FlowsInTurn r)
    (hfirst : asksForCode r = true → awaitedCodes r = []) : FlowsInTurn (startDeviceFlow r) := by
  have hasked : ∀ {r₁ : Runtime} (resume : Option Identity), asksForCode r = true →
      Stays false r r₁ → holdsFlow r₁ = false →
      FlowsInTurn (r₁.spawn (.startDeviceFlow resume)) := by
    intro r₁ resume hasks hstays hidle
    have hone : OneFlow r₁ := h.one.stays hstays (.inr rfl)
    have hpollers : livePollers (r₁.spawn (.startDeviceFlow resume)) = livePollers r₁ := by
      show (pollers (r₁.spawn _)).filter _ = _
      rw [pollers, Runtime.spawn, List.filterMap_append]
      simp [livePollers, pollers, Task.flow?]
    have hawaited : awaitedCodes (r₁.spawn (.startDeviceFlow resume)) =
        [.startDeviceFlow resume] := by
      have hnone : awaitedCodes r₁ = [] := hstays.awaitedCodes.trans (hfirst hasks)
      have hspawned : awaitedCodes (r₁.spawn (.startDeviceFlow resume)) =
          awaitedCodes r₁ ++ [.startDeviceFlow resume] := by simp [awaitedCodes, Task.awaitsCode]
      rw [hspawned, hnone, List.nil_append]
    refine ⟨hone.of_sublist (hpollers ▸ List.Sublist.refl _) fun _ _ hflow => hflow, ?_, fun _ => hidle⟩
    rw [hawaited, List.length_singleton]
  unfold Auth.startDeviceFlow
  split
  · next existing hflow =>
    split
    · next hexpired =>
      refine hasked _ (by simp [asksForCode, hflow, hexpired])
        (.of_eq rfl (List.subset_cons_self _ _) rfl) ?_
      have hcurrent : (r.abort existing.abort).currentFlow = some existing := hflow
      rw [holdsFlow, hcurrent, Option.any_some]
      simp
    · exact h
  · next hflow => exact hasked _ (by simp [asksForCode, hflow]) (.refl r) (by simp [holdsFlow, hflow])

theorem FlowsInTurn.step {l : Label} (h : FlowsInTurn r) (hmeets : crossesFlow l r = false)
    (hstep : step l r = some r') : FlowsInTurn r' := by
  have hnow : FlowsInTurn (r.atTime l.now) :=
    ⟨⟨h.one.atMostOne, h.one.held⟩, h.atMostOneAwaited, h.idle⟩
  cases step_step hstep with
  | idle => exact hnow
  | called c hevent =>
    by_cases hcall : c = .startDeviceFlow
    · subst hcall
      refine hnow.startDeviceFlow fun hasks => ?_
      have hawaited : awaitedCodes r = [] := by simpa [crossesFlow, hevent, hasks] using hmeets
      exact hawaited
    · exact hnow.stays (call_stays _ hcall) (.inr rfl)
  | resumed i answer task _ hevent htask hresume =>
    have hother : FlowsInTurn ((r.atTime l.now).without i) := hnow.without i
    have hkeeps : holdsFlow r = false ∨ task.overwrites r answer = false := by
      simpa [crossesFlow, hevent, htask, or_iff_not_imp_left] using hmeets
    -- What the answer leaves, where the task is not of a flow.
    have hstays : Stays (task.overwrites r answer) ((r.atTime l.now).without i) r' →
        FlowsInTurn r' := fun hstays => hother.stays hstays hkeeps
    cases hresume with
    | installed resume code => exact hnow.installFlow htask code
    | notInstalled => exact hother
    | poller flow point _ _ _ hpoller => exact hnow.poller htask hpoller hkeeps
    | signOut _ _ _ _ hsignOut => exact hstays (settle_stays hsignOut.stays fun _ => rfl)
    | rearm _ _ _ _ hrearm => exact hstays (settle_stays hrearm.stays fun _ => rfl)
    | degrade _ _ _ _ _ _ hdegrade => exact hstays (settle_stays hdegrade.stays fun _ => rfl)
    | activate _ _ _ _ _ hactivate => exact hstays (settle_stays hactivate.stays fun _ => rfl)
    | mint _ _ _ _ _ hmint => exact hstays (settle_stays hmint.stays fun _ => rfl)
    | refresh _ _ _ _ _ hrefresh => exact hstays (settle_stays hrefresh.stays fun _ => rfl)
    | retry _ _ _ _ _ _ hretry => exact hstays (settle_stays hretry.stays fun _ => rfl)
    | cleared _ _ _ _ hupdate => exact hstays (settle_stays hupdate.stays fun _ => rfl)

theorem flowsInTurn_of_none (h : ∀ task ∈ r.tasks, task.isOfFlow = false) : FlowsInTurn r := by
  have hnone : tasksOfFlows r = [] :=
    List.filter_eq_nil_iff.2 fun task hmem => by simp [h task hmem]
  have hpollers : livePollers r = [] := by rw [livePollers, pollers_eq, hnone]; rfl
  have hawaited : awaitedCodes r = [] := by rw [awaitedCodes_eq, hnone]; rfl
  refine ⟨oneFlow_of_nil hpollers, ?_, fun hsome => absurd hawaited hsome⟩
  rw [hawaited]
  exact Nat.zero_le 1

/-- In every run in which no call asks for a code while another one waits for its own, and no answer
writes the state over a flow that has not been aborted, there is one flow at a time, and the state
holds it. -/
theorem one_flow {labels : List Label} {r₀ r : Runtime}
    (hstart : ∀ task ∈ r₀.tasks, task.isOfFlow = false)
    (hmeets : Runs.Meets step (fun l r => crossesFlow l r = false) labels r₀)
    (hrun : Runs.exec step labels r₀ = some r) : OneFlow r := by
  have hturn : FlowsInTurn r :=
    Runs.exec_invariant (fun _ _ _ h hok hstep => h.step hok hstep) hmeets
      (flowsInTurn_of_none hstart) hrun
  exact hturn.one

/-- A code is shown while the bearer of the session is refreshed. -/
def pendingOverRefresh : List Label :=
  [⟨29000, .call .startDeviceFlow⟩, ⟨1440000, .resume 0 .done⟩,
    ⟨1440100, .resume 0 (.deviceCode someCode)⟩, ⟨1440300, .resume 0 (.minted "tid=alice2" 1500)⟩]

theorem one_flow_pendingOverRefresh :
    ∃ r, Runs.exec step pendingOverRefresh
        (bootedSession "alice" "ghu_alice" "tid=alice" 1440000) = some r ∧ OneFlow r := by
  have hmeets : Runs.Meets step (fun l r => crossesFlow l r = false) pendingOverRefresh
      (bootedSession "alice" "ghu_alice" "tid=alice" 1440000) := by decide +kernel
  exact ⟨_, rfl, one_flow (by decide) hmeets rfl⟩

/-- A second request comes before the code of the first one. -/
theorem not_one_flow :
    ¬ ∀ (labels : List Label) (r₀ r : Runtime), (∀ task ∈ r₀.tasks, task.isOfFlow = false) →
      Runs.exec step labels r₀ = some r → OneFlow r := by
  intro h
  have hone := h
    [⟨1000, .call .startDeviceFlow⟩, ⟨1010, .call .startDeviceFlow⟩,
      ⟨1400, .resume 0 (.deviceCode someCode)⟩, ⟨1410, .resume 0 (.deviceCode someCode)⟩]
    { now := 0 } _ (by decide) rfl
  exact absurd hone.atMostOne (by decide +kernel)

end Maximal.Auth
