import Maximal.Auth.Controller

/-!
# What the functions leave alone

A function may end the flow that the state holds and abort controllers. It starts no flow, takes no
other function away, and replaces a degrade only when there is none.

## Main definitions

- `Advances`

## Main results

- `TaskStep.tasks_subset` — a step leaves the suspended functions
-/

namespace Maximal.Auth

variable {r r' r'' : Runtime} {answer : Answer}

/-- What the other functions leave of the flows. -/
structure Advances (r r' : Runtime) : Prop where
  flow : r'.currentFlow = r.currentFlow ∨ r'.currentFlow = none
  aborted : r.aborted ⊆ r'.aborted
  tasks : r.tasks ⊆ r'.tasks
  pollers : ∀ flow point, .poller flow point ∈ r'.tasks → .poller flow point ∈ r.tasks
  next : r.next ≤ r'.next
  degrade : r'.degradeInFlight = r.degradeInFlight ∨ r.degradeInFlight = none ∨
    r'.currentFlow = none

namespace Advances

@[refl] theorem refl (r : Runtime) : Advances r r :=
  ⟨.inl rfl, List.Subset.refl _, List.Subset.refl _, fun _ _ h => h, le_refl _, .inl rfl⟩

@[trans] theorem trans (h : Advances r r') (h' : Advances r' r'') : Advances r r'' where
  flow := by
    rcases h'.flow with hflow | hflow
    · exact hflow ▸ h.flow
    · exact .inr hflow
  aborted := List.Subset.trans h.aborted h'.aborted
  tasks := List.Subset.trans h.tasks h'.tasks
  pollers flow point hpoller := h.pollers flow point (h'.pollers flow point hpoller)
  next := le_trans h.next h'.next
  degrade := by
    have hnone : r'.currentFlow = none → r''.currentFlow = none := fun hnone =>
      h'.flow.elim (fun hflow => hflow.trans hnone) id
    rcases h.degrade with heq | hidle | hflow
    · exact heq ▸ h'.degrade
    · exact .inr (.inl hidle)
    · exact .inr (.inr (hnone hflow))

/-- A state without a flow is written. -/
theorem setAuthState {next : AuthState} (hnext : (r.setAuthState next).currentFlow = none) :
    Advances r (r.setAuthState next) :=
  ⟨.inr hnext, List.Subset.refl _, List.Subset.refl _, fun _ _ h => h, le_refl _, .inl rfl⟩

end Advances

/-! ## The functions, one by one -/

theorem DegradeStep.advances {error : CopilotAuthFatalError} {degrade : Option ℕ}
    (h : DegradeStep r error r' degrade) : Advances r r' := by
  cases h with
  | joined | skipped => rfl
  | repeated hidle =>
    constructor <;> simp +contextual [Runtime.currentFlow, List.subset_def]
  | started hidle =>
    constructor <;> simp +contextual [Runtime.currentFlow, hidle, List.subset_def]

theorem SetupStep.advances {out : Async MintPoint (Except MintError Unit)}
    (h : SetupStep r r' out) : Advances r r' := by
  cases h with
  | taken => constructor <;> simp [Runtime.currentFlow]
  | sent => rfl

theorem MintStep.advances {onAuthFatal : OnAuthFatal} {point : MintPoint}
    {out : Async MintPoint (Except MintError Unit)}
    (h : MintStep onAuthFatal r point answer r' out) : Advances r r' := by
  cases h with
  | minted => constructor <;> simp [Runtime.currentFlow]
  | degraded _ _ _ _ _ _ _ hdegrade => exact hdegrade.advances
  | refused | failed | unreachable | degradeOver | diagnosed => rfl

theorem UpdateStep.advances {update : RegistryUpdate} {point : UpdatePoint}
    {out : Async UpdatePoint (Except String Unit)}
    (h : UpdateStep update r point answer r' out) : Advances r r' := by
  cases h <;> constructor <;> simp [Runtime.currentFlow]

theorem HeadStep.advances {controller : ℕ} {out : Async RefreshPoint Unit}
    (h : HeadStep r controller r' out) : Advances r r' := by
  cases h <;> constructor <;> simp [Runtime.currentFlow]

theorem RefreshStep.advances {controller : ℕ} {point : RefreshPoint}
    {out : Async RefreshPoint Unit} (h : RefreshStep controller r point answer r' out) :
    Advances r r' := by
  have hbanner : ∀ banner, Advances r { r with networkDiagnosis := banner } := by
    intro banner
    constructor <;> simp [Runtime.currentFlow]
  have hended : ∀ r, Advances r (refreshLoopEnded r controller) := by
    intro r
    constructor <;> simp [Runtime.currentFlow]
  cases h with
  | refreshed sentWith fatalRetries token refreshIn _ _ hhead =>
    refine Advances.trans ?_ hhead.advances
    constructor <;> simp [Runtime.currentFlow]
    all_goals split <;> simp
  | continued _ _ banner _ _ hhead => exact (hbanner banner).trans hhead.advances
  | degraded _ _ _ _ _ _ hdegrade => exact (hbanner none).trans hdegrade.advances
  | stopped _ _ _ _ _ hdegrade => exact ((hbanner none).trans hdegrade.advances).trans (hended _)
  | unreachable => rfl
  | degradeOver => exact hended r

theorem ScheduleStep.advances {onOnline : Option (Option String)}
    (h : ScheduleStep r onOnline r') : Advances r r' := by
  cases h <;> constructor <;> simp +contextual [Runtime.currentFlow, List.subset_def]

theorem retryLoopHead_advances {controller : ℕ} {out : Async RetryPoint Unit}
    (h : retryLoopHead r controller = (r', out)) : Advances r r' := by
  unfold retryLoopHead at h
  split at h <;> cases h
  · constructor <;> simp [Runtime.currentFlow]
  · rfl

theorem retryMinted_advances {controller : ℕ} {out : Async RetryPoint Unit}
    (h : retryMinted r controller = (r', out)) : Advances r r' := by
  unfold retryMinted at h
  split at h <;> cases h
  · constructor <;> simp [Runtime.currentFlow]
  · rfl

theorem RetryStep.advances {controller : ℕ} {onOnline : Option (Option String)}
    {point : RetryPoint} {out : Async RetryPoint Unit}
    (h : RetryStep controller onOnline r point answer r' out) : Advances r r' := by
  have hended : ∀ r, Advances r (retryLoopEnded r controller) := by
    intro r
    constructor <;> simp [Runtime.currentFlow]
  cases h with
  | ended | unnamed => exact hended r
  | sent _ _ hsetup => exact hsetup.advances
  | taken _ _ _ hsetup hminted => exact hsetup.advances.trans (retryMinted_advances hminted)
  | minting _ _ _ _ hmint => exact hmint.advances
  | minted _ _ _ _ _ hmint hminted => exact hmint.advances.trans (retryMinted_advances hminted)
  | rejected _ _ _ _ hmint => exact hmint.advances.trans (hended _)
  | failed _ _ _ _ _ _ hmint hhead => exact hmint.advances.trans (retryLoopHead_advances hhead)
  | online => constructor <;> simp [Runtime.currentFlow]
  | identified => constructor <;> simp [Runtime.currentFlow]
  | unidentified => rfl

theorem SwitchStart.advances {rec : StoredRecord} {out : Async SwitchPoint (Except String Unit)}
    (h : SwitchStart r rec r' out) : Advances r r' := by
  have hswitched : Advances r (switched r rec) := by
    constructor <;> simp [Runtime.currentFlow]
  cases h with
  | sent _ hsetup => exact hswitched.trans hsetup.advances
  | taken hsetup => exact hswitched.trans hsetup.advances

theorem SwitchStep.advances {key : AccountKey} {rec : StoredRecord} {point : SwitchPoint}
    {out : Async SwitchPoint (Except String Unit)}
    (h : SwitchStep key rec r point answer r' out) : Advances r r' := by
  cases h with
  | minting _ _ _ _ hmint => exact hmint.advances
  | minted _ _ _ hmint => exact hmint.advances
  | rejected _ _ _ _ hmint => exact hmint.advances
  | activating _ _ _ _ hupdate => exact hupdate.advances
  | activated _ _ _ hupdate => exact hupdate.advances
  | unwritten _ _ _ _ hupdate => exact hupdate.advances
  | finished => constructor <;> simp [Runtime.currentFlow]

/-- A switch that succeeds leaves no flow in the state. -/
theorem SwitchStep.currentFlow_eq_none {key : AccountKey} {rec : StoredRecord}
    {point : SwitchPoint} (h : SwitchStep key rec r point answer r' (.returned (.ok ()))) :
    r'.currentFlow = none := by
  cases h
  rfl

theorem ActivateStep.advances {key : AccountKey} {point : ActivatePoint}
    {out : Async ActivatePoint ActivateResult}
    (h : ActivateStep key r point answer r' out) : Advances r r' := by
  cases h with
  | refused | found => rfl
  | started _ _ _ _ hstart => exact hstart.advances
  | switching _ _ _ _ _ hswitch => exact hswitch.advances
  | activated _ _ _ _ hswitch => exact hswitch.advances
  | failed _ _ _ _ _ hswitch => exact hswitch.advances

theorem TryStep.advances {cands : List Candidate} {out : Async SweepPoint SweepResult}
    (h : TryStep r cands r' out) : Advances r r' := by
  cases h with
  | exhausted => constructor <;> simp [Runtime.currentFlow]
  | sent | unsent => rfl

theorem SweepStep.advances {point : SweepPoint} {out : Async SweepPoint SweepResult}
    (h : SweepStep r point answer r' out) : Advances r r' := by
  cases h with
  | read _ _ _ _ _ htry => exact htry.advances
  | started _ _ _ _ _ hstart => exact hstart.advances
  | refused => rfl
  | flagging _ _ _ _ _ _ hupdate => exact hupdate.advances
  | flagged _ _ _ _ _ _ _ hupdate htry => exact hupdate.advances.trans htry.advances
  | threw _ _ _ _ _ _ hupdate => exact hupdate.advances
  | switching _ _ _ _ _ _ hswitch => exact hswitch.advances
  | recovered _ _ _ _ _ hswitch => exact hswitch.advances
  | failed _ _ _ _ _ _ hswitch => exact hswitch.advances

theorem SignOutStep.advances {point : SignOutPoint} {out : Async SignOutPoint Unit}
    (h : SignOutStep r point answer r' out) : Advances r r' := by
  cases h with
  | deactivating _ _ _ _ hupdate => exact hupdate.advances
  | deactivated _ _ _ _ hupdate => exact hupdate.advances
  | unlinked => rfl

theorem RearmStep.advances {point : RearmPoint} {out : Async RearmPoint RearmOutcome}
    (h : RearmStep r point answer r' out) : Advances r r' := by
  have hended : ∀ r, Advances r (rearmEnded r) := by
    intro r
    constructor <;> simp [Runtime.currentFlow]
  have hfinished : ∀ r, Advances r (rearmEnded (finishRearmOnline r)) := by
    intro r
    unfold finishRearmOnline
    split <;> constructor <;> simp [Runtime.currentFlow]
  cases h with
  | first _ _ _ _ hmint => exact hmint.advances
  | firstMinted _ _ _ hmint => exact hmint.advances.trans (hfinished _)
  | firstRejected _ _ _ _ hmint => exact hmint.advances
  | firstFailed _ _ _ _ hmint => exact hmint.advances.trans (hended _)
  | read => rfl
  | noRefreshToken | notRenewed => exact hended r
  | renewed => constructor <;> simp [Runtime.currentFlow]
  | persisting _ _ _ _ _ hupdate => exact hupdate.advances
  | persisted _ _ _ _ _ _ _ hupdate hsetup => exact hupdate.advances.trans hsetup.advances
  | persistedTaken _ _ _ _ _ _ hupdate hsetup =>
    exact (hupdate.advances.trans hsetup.advances).trans (hfinished _)
  | second _ _ _ _ hmint => exact hmint.advances
  | secondMinted _ _ _ hmint => exact hmint.advances.trans (hfinished _)
  | secondFailed _ _ _ _ _ hmint => exact hmint.advances.trans (hended _)

theorem degradeFailed_advances (r : Runtime) (error : CopilotAuthFatalError) :
    Advances r (degradeFailed r error) := by
  constructor <;> simp [Runtime.currentFlow]

/-- A degrade that ends leaves no flow in the state. -/
theorem DegradeResume.advances {error : CopilotAuthFatalError} {point : DegradePoint}
    {out : Async DegradePoint Unit} (h : DegradeResume error r point answer r' out) :
    Advances r r' := by
  cases h with
  | flagging _ _ _ _ _ hupdate => exact hupdate.advances
  | sweepStarted _ _ _ _ _ hupdate => exact hupdate.advances
  | flagged _ _ _ _ _ hupdate => exact hupdate.advances.trans (degradeFailed_advances _ _)
  | sweeping _ _ _ _ hsweep => exact hsweep.advances
  | recovered _ _ r₁ hsweep =>
    refine hsweep.advances.trans ?_
    have hnone : r₁.currentFlow = none := by
      cases hsweep with
      | read _ _ _ _ _ htry => cases htry
      | flagged _ _ _ _ _ _ _ _ htry => cases htry
      | recovered _ _ _ _ _ hswitch => exact hswitch.currentFlow_eq_none
    exact ⟨.inl rfl, List.Subset.refl _, List.Subset.refl _, fun _ _ h => h, le_refl _,
      .inr (.inr hnone)⟩
  | exhausted _ _ _ _ hsweep => exact hsweep.advances.trans (degradeFailed_advances _ _)

/-! ## The poller -/

theorem flowFailed_advances (r : Runtime) (flow : ActiveFlow) (message : String) :
    Advances r (flowFailed r flow message) := by
  unfold flowFailed
  split
  · rfl
  · refine Advances.setAuthState ?_
    unfold flowFailureState
    split <;> rfl

theorem pollerMinted_advances {flow : ActiveFlow} {user : GitHubUser} {rec : AccountRecord}
    {copilotMinted : Bool} {out : Async PollerPoint Unit}
    (h : pollerMinted r flow user rec copilotMinted = (r', out)) : Advances r r' := by
  unfold pollerMinted at h
  split at h <;> cases h <;> rfl

theorem PollerStep.advances {flow : ActiveFlow} {point : PollerPoint}
    {out : Async PollerPoint Unit} (h : PollerStep flow r point answer r' out) :
    Advances r r' := by
  have hname : ∀ name, Advances r (r.setUserName name) := by
    intro name
    constructor <;> simp [Runtime.currentFlow]
  have htoken : ∀ (r : Runtime) token, Advances r (r.setGithubToken token) := by
    intro r token
    constructor <;> simp [Runtime.currentFlow]
  cases h with
  | abandoned | approved => rfl
  | pollFailed | unverified => exact flowFailed_advances r flow _
  | unwanted | verified => exact hname _
  | adding _ _ _ _ _ _ hupdate => exact hupdate.advances
  | addFailed _ _ _ _ _ r₁ hupdate => exact hupdate.advances.trans (flowFailed_advances r₁ flow _)
  | committed _ _ _ _ r₁ _ _ hupdate hsetup =>
    exact (hupdate.advances.trans (htoken r₁ _)).trans hsetup.advances
  | committedTaken _ _ _ _ r₁ _ _ _ hupdate hsetup hminted =>
    have hadvances := (hupdate.advances.trans (htoken r₁ _)).trans hsetup.advances
    exact hadvances.trans (pollerMinted_advances hminted)
  | minting _ _ _ _ _ _ hmint => exact hmint.advances
  | minted _ _ _ _ _ _ _ hmint hminted => exact hmint.advances.trans (pollerMinted_advances hminted)
  | rejected _ _ _ _ _ _ hmint => exact hmint.advances
  | retried _ _ _ _ _ _ _ _ _ hmint hschedule hminted =>
    exact (hmint.advances.trans hschedule.advances).trans (pollerMinted_advances hminted)
  | finished _ _ copilotMinted =>
    cases copilotMinted <;> constructor <;> simp [Runtime.currentFlow]

/-! ## Calls and steps -/

theorem spawn_advances (r : Runtime) {task : Task} (htask : ∀ flow point, task ≠ .poller flow point) :
    Advances r (r.spawn task) := by
  constructor <;> simp [Runtime.currentFlow, fun flow point => (htask flow point).symm]

theorem settle_advances {P R : Type} {task : P → Task} {out : Async P R} (h : Advances r r')
    (htask : ∀ p flow point, task p ≠ .poller flow point) : Advances r (settle task (r', out)) := by
  cases out with
  | suspended p => exact h.trans (spawn_advances _ (htask p))
  | returned => exact h

theorem call_advances (r : Runtime) (c : Call) : Advances r (call r c) := by
  cases c with
  | startDeviceFlow =>
    show Advances r (startDeviceFlow r)
    unfold startDeviceFlow
    split
    · split
      · constructor <;> simp [Runtime.currentFlow]
      · rfl
    · exact spawn_advances _ (by simp)
  | cancelDeviceFlow =>
    show Advances r (cancelDeviceFlow r)
    unfold cancelDeviceFlow
    split
    · rfl
    · next flow _ =>
      have habort : Advances r (r.abort flow.abort) := by
        constructor <;> simp [Runtime.currentFlow]
      refine habort.trans (Advances.setAuthState ?_)
      split <;> rfl
  | signOut =>
    constructor <;> simp +contextual [call, signOut, Runtime.currentFlow, List.subset_def]
  | rearmCopilotAuth =>
    show Advances r (rearmCopilotAuth r)
    unfold rearmCopilotAuth
    split
    · rfl
    · split
      · rfl
      · split
        · rfl
        · constructor <;> simp [Runtime.currentFlow]
  | markAuthDegraded error => exact (markAuthDegraded_step r error).advances
  | activateAccountLive => exact spawn_advances _ (by simp)
  | setupCopilotToken => exact settle_advances (setupCopilotToken_step rfl).advances (by simp)
  | scheduleCopilotOnlineRetry onOnline => exact (scheduleCopilotOnlineRetry_step r onOnline).advances

theorem settle_tasks_subset {P R : Type} (task : P → Task) (r : Runtime) (out : Async P R) :
    r.tasks ⊆ (settle task (r, out)).tasks := by
  cases out with
  | suspended => exact List.subset_append_left _ _
  | returned => exact List.Subset.refl _

/-- A step leaves the suspended functions. -/
theorem TaskStep.tasks_subset {task : Task} (h : TaskStep r task answer r') :
    r.tasks ⊆ r'.tasks := by
  have hsettle : ∀ {P R : Type} (task : P → Task) (r' : Runtime) (out : Async P R),
      Advances r r' → r.tasks ⊆ (settle task (r', out)).tasks := fun task r' out hadvances =>
    List.Subset.trans hadvances.tasks (settle_tasks_subset task r' out)
  cases h with
  | installed => exact List.subset_append_left _ _
  | notInstalled => exact List.Subset.refl _
  | poller _ _ _ _ _ hpoller => exact hsettle _ _ _ hpoller.advances
  | signOut _ _ _ _ hsignOut => exact hsettle _ _ _ hsignOut.advances
  | rearm _ _ _ _ hrearm => exact hsettle _ _ _ hrearm.advances
  | degrade _ _ _ _ _ _ hdegrade => exact hsettle _ _ _ hdegrade.advances
  | activate _ _ _ _ _ hactivate => exact hsettle _ _ _ hactivate.advances
  | mint _ _ _ _ _ hmint => exact hsettle _ _ _ hmint.advances
  | refresh _ _ _ _ _ hrefresh => exact hsettle _ _ _ hrefresh.advances
  | retry _ _ _ _ _ _ hretry => exact hsettle _ _ _ hretry.advances
  | cleared _ _ _ _ hupdate => exact hsettle _ _ _ hupdate.advances

end Maximal.Auth
