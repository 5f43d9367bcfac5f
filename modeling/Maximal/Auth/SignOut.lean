import Maximal.Auth.FlowOutcome

/-!
# Sign-out

A sign-out wipes the tokens, aborts the flow of the state and the online retry, and shows the
session as signed out. It does not stop the refresh loop, and what is suspended over it may still
be answered. `Task.revives` lists the answers that bring a part of the session back.

## Main results

- `signOut_final` — without them, the session stays signed out
- `not_signOut_final` — a loop that was refreshing goes on and sets its bearer
-/

namespace Maximal.Auth

variable {r r' : Runtime} {answer : Answer}

/-! ## Answers that bring a session back -/

def MintPoint.revives : MintPoint → Answer → Bool
  | .minting _, .minted _ _ => true
  | _, _ => false

def PollerPoint.revives (aborted : Bool) : PollerPoint → Answer → Bool
  -- The failed flow sets its state.
  | .polling, .failed _ | .verifying _, .failed _ => !aborted
  | .adding _ _ (.writing _), .failed _ => !aborted
  | .adding _ _ (.writing _), .done => true
  | .minting _ _ mint, answer => mint.revives answer
  | .caching _ _ _, _ => true
  | _, _ => false

def RearmPoint.revives : RearmPoint → Answer → Bool
  | .first mint, answer | .second mint, answer => mint.revives answer
  | .renewing _, .tokens _ => true
  | _, _ => false

def SwitchPoint.revives : SwitchPoint → Answer → Bool
  | .minting mint, answer => mint.revives answer
  | .activating _, _ => false
  | .refreshing, _ => true

def ActivatePoint.revives : ActivatePoint → Answer → Bool
  | .preflight _ _, .done => true
  | .switching _ switch, answer => switch.revives answer
  | _, _ => false

def SweepPoint.revives (r : Runtime) : SweepPoint → Answer → Bool
  -- The sweep is exhausted, or a flag cannot be written: the error is shown.
  | .reading, .done => sweepCandidates r.registry = []
  | .reading, .failed _ => true
  | .flagging update point rest, answer =>
    point.returns update r answer && (rest = [] || answer ≠ .done)
  | .preflight _ _ _, .done => true
  | .switching _ switch _, answer => switch.revives answer
  | _, _ => false

def DegradePoint.revives (r : Runtime) : DegradePoint → Answer → Bool
  | .flagging update point, answer => !r.autoRecover && point.returns update r answer
  | .sweeping sweep, answer => sweep.revives r answer

def RefreshPoint.revives : RefreshPoint → Answer → Bool
  | .refreshing _ _, .minted _ _ => true
  | _, _ => false

/-- A mint of the online retry is undone. -/
def RetryPoint.revives (r : Runtime) (onOnline : Option (Option String)) :
    RetryPoint → Answer → Bool
  | .caching, _ => onOnline.isSome && r.userName.isSome
  | .identifying, .user _ => true
  | _, _ => false

/-- Does the answer bring back a token, a loop or another status? -/
def Task.revives (r : Runtime) : Task → Answer → Bool
  | .startDeviceFlow _, .deviceCode _ => true
  | .startDeviceFlow _, _ => false
  | .poller flow point, answer => point.revives (flow.abort ∈ r.aborted) answer
  | .signOut _, _ => false
  | .rearm point, answer => point.revives answer
  | .degrade _ _ point, answer => point.revives r answer
  | .activate _ point, answer => point.revives answer
  | .setupCopilotToken _ point, answer => point.revives answer
  | .refreshLoop _ point, answer => point.revives answer
  | .onlineRetry _ onOnline point, answer => point.revives r onOnline answer
  | .clearActiveNeedsReauth _, _ => false

/-! ## What the other answers leave -/

/-- The refresh loop that a task runs. -/
def Task.loop? : Task → Option ℕ
  | .refreshLoop controller _ => some controller
  | _ => none

/-- No refresh loop is live: started and not aborted. -/
def LoopsStopped (r : Runtime) : Prop :=
  ∀ task ∈ r.tasks, ∀ controller ∈ task.loop?, controller ∈ r.aborted

structure SignedOut (r : Runtime) : Prop where
  githubToken : r.githubToken = none
  copilotToken : r.copilotToken = none
  loops : LoopsStopped r
  authState : r.authState = .signedOut

theorem LoopsStopped.spawn {task : Task} (h : LoopsStopped r)
    (htask : ∀ controller ∈ task.loop?, controller ∈ r.aborted) : LoopsStopped (r.spawn task) := by
  intro task' hmem
  rcases List.mem_append.1 hmem with hold | hnew
  · exact h task' hold
  · rw [List.mem_singleton.1 hnew]
    exact htask

theorem SignedOut.spawn {task : Task} (h : SignedOut r)
    (htask : ∀ controller ∈ task.loop?, controller ∈ r.aborted) : SignedOut (r.spawn task) :=
  ⟨h.githubToken, h.copilotToken, h.loops.spawn htask, h.authState⟩

/-- Controllers are only added to the aborted ones. -/
theorem SignedOut.of_aborted (h : SignedOut r) (htasks : r'.tasks = r.tasks)
    (haborted : r.aborted ⊆ r'.aborted) (hgithub : r'.githubToken = none)
    (hcopilot : r'.copilotToken = none) (hstate : r'.authState = r.authState) : SignedOut r' where
  githubToken := hgithub
  copilotToken := hcopilot
  loops task hmem controller hcontroller :=
    haborted (h.loops task (htasks ▸ hmem) controller hcontroller)
  authState := hstate.trans h.authState

theorem SignedOut.tearDown (h : SignedOut r) : SignedOut (tearDown r) := by
  refine h.of_aborted rfl ?_ rfl rfl rfl
  intro controller hmem
  simp [hmem]

theorem DegradeStep.signedOut {error : CopilotAuthFatalError} {degrade : Option ℕ}
    (h : DegradeStep r error r' degrade) (hr : SignedOut r) : SignedOut r' := by
  cases h with
  | joined | skipped => exact hr
  | repeated => exact hr.tearDown
  | started =>
    refine SignedOut.spawn (hr.tearDown.of_aborted rfl (List.Subset.refl _) rfl rfl rfl) ?_
    simp [Task.loop?]

theorem SetupStep.signedOut {out : Async MintPoint (Except MintError Unit)}
    (h : SetupStep r r' out) (hr : SignedOut r) : r' = r := by
  cases h with
  | taken token htoken => exact absurd (hr.githubToken.symm.trans htoken) (by simp)
  | sent => rfl

theorem MintStep.signedOut {onAuthFatal : OnAuthFatal} {point : MintPoint}
    {out : Async MintPoint (Except MintError Unit)} (h : MintStep onAuthFatal r point answer r' out)
    (hr : SignedOut r) (hquiet : point.revives answer = false) : SignedOut r' := by
  cases h with
  | minted => cases hquiet
  | degraded _ _ _ _ _ _ _ hdegrade => exact hdegrade.signedOut hr
  | refused | failed | unreachable | degradeOver | diagnosed => exact hr

/-- Only a bearer that arrives lets a mint succeed. -/
theorem MintStep.not_revives {onAuthFatal : OnAuthFatal} {point : MintPoint}
    {out : Async MintPoint (Except MintError Unit)} (h : MintStep onAuthFatal r point answer r' out)
    (hout : out ≠ .returned (.ok ())) : point.revives answer = false := by
  cases h with
  | minted => exact absurd rfl hout
  | failed _ answer _ htransient => cases answer <;> first | rfl | cases htransient
  | degraded | refused | unreachable | degradeOver | diagnosed => rfl

theorem UpdateStep.signedOut {update : RegistryUpdate} {point : UpdatePoint}
    {out : Async UpdatePoint (Except String Unit)}
    (h : UpdateStep update r point answer r' out) (hr : SignedOut r) : SignedOut r' := by
  cases h with
  | read | idle | failed => exact hr
  | written => exact hr.of_aborted rfl (List.Subset.refl _) hr.githubToken hr.copilotToken rfl

theorem HeadStep.signedOut {controller : ℕ} {out : Async RefreshPoint Unit}
    (h : HeadStep r controller r' out) (hr : SignedOut r) : SignedOut r' := by
  cases h with
  | ended => exact hr.of_aborted rfl (List.Subset.refl _) hr.githubToken hr.copilotToken rfl
  | waiting | refreshing => exact hr

theorem RefreshStep.signedOut {controller : ℕ} {point : RefreshPoint}
    {out : Async RefreshPoint Unit} (h : RefreshStep controller r point answer r' out)
    (hr : SignedOut r) (hquiet : point.revives answer = false) : SignedOut r' := by
  have hbanner : ∀ banner, SignedOut { r with networkDiagnosis := banner } := fun banner =>
    hr.of_aborted rfl (List.Subset.refl _) hr.githubToken hr.copilotToken rfl
  have hended : ∀ r, SignedOut r → SignedOut (refreshLoopEnded r controller) := fun r hr =>
    hr.of_aborted rfl (List.Subset.refl _) hr.githubToken hr.copilotToken rfl
  cases h with
  | refreshed => cases hquiet
  | continued _ _ banner _ _ hhead => exact hhead.signedOut (hbanner banner)
  | degraded _ _ _ _ _ _ hdegrade => exact hdegrade.signedOut (hbanner none)
  | stopped _ _ _ _ _ hdegrade => exact hended _ (hdegrade.signedOut (hbanner none))
  | unreachable => exact hr
  | degradeOver => exact hended r hr

theorem retryLoopEnded_signedOut (hr : SignedOut r) (controller : ℕ) :
    SignedOut (retryLoopEnded r controller) :=
  hr.of_aborted rfl (List.Subset.refl _) hr.githubToken hr.copilotToken rfl

theorem retryLoopHead_signedOut {controller : ℕ} {out : Async RetryPoint Unit} (hr : SignedOut r)
    (h : retryLoopHead r controller = (r', out)) : SignedOut r' := by
  unfold retryLoopHead at h
  split at h <;> cases h
  · exact retryLoopEnded_signedOut hr controller
  · exact hr

theorem ScheduleStep.signedOut {onOnline : Option (Option String)}
    (h : ScheduleStep r onOnline r') (hr : SignedOut r) : SignedOut r' := by
  cases h with
  | ended =>
    have hscheduled : SignedOut (retryScheduled r) :=
      hr.of_aborted rfl (List.subset_append_right _ _) hr.githubToken hr.copilotToken rfl
    exact retryLoopEnded_signedOut hscheduled _
  | waiting htoken => exact absurd hr.githubToken htoken

/-- A mint of the online retry is undone: the GitHub token is gone. -/
theorem retryMinted_signedOut {controller : ℕ} {bearer : Bearer} {refreshIn : ℕ}
    {out : Async RetryPoint Unit} (hr : SignedOut r)
    (h : retryMinted (bearerMinted r bearer refreshIn) controller = (r', out)) :
    SignedOut r' := by
  have hgone : (bearerMinted r bearer refreshIn).githubToken = none := hr.githubToken
  unfold retryMinted at h
  rw [if_pos hgone] at h
  cases h
  refine ⟨hr.githubToken, rfl, ?_, hr.authState⟩
  intro task hmem controller' hcontroller
  have hmem : task ∈ r.tasks ∨ task = .clearActiveNeedsReauth .reading ∨
      task = .refreshLoop r.next (.waiting (getRefreshDeadlineMs refreshIn r.now) 0) := by
    simpa [or_assoc] using hmem
  rcases hmem with hold | rfl | rfl
  · have haborted := hr.loops task hold controller' hcontroller
    simp [haborted]
  · cases hcontroller
  · -- Its loop is the one that the undoing stops.
    cases hcontroller
    simp

theorem RetryStep.signedOut {controller : ℕ} {onOnline : Option (Option String)}
    {point : RetryPoint} {out : Async RetryPoint Unit}
    (h : RetryStep controller onOnline r point answer r' out) (hr : SignedOut r)
    (hquiet : point.revives r onOnline answer = false) : SignedOut r' := by
  cases h with
  | ended => exact retryLoopEnded_signedOut hr controller
  | unnamed => exact retryLoopEnded_signedOut hr controller
  | sent _ _ hsetup => exact hsetup.signedOut hr ▸ hr
  | taken _ _ _ hsetup =>
    obtain ⟨token, htoken, -⟩ := hsetup.taken_of_ok
    exact absurd (hr.githubToken.symm.trans htoken) (by simp)
  | minting _ _ _ _ hmint => exact hmint.signedOut hr (hmint.not_revives (by simp))
  | minted _ _ _ _ _ hmint hminted =>
    obtain ⟨_, _, _, -, -, rfl⟩ := hmint.minted_of_ok
    exact retryMinted_signedOut hr hminted
  | rejected _ _ _ _ hmint =>
    exact retryLoopEnded_signedOut (hmint.signedOut hr (hmint.not_revives (by simp))) controller
  | failed _ _ _ _ _ _ hmint hhead =>
    exact retryLoopHead_signedOut (hmint.signedOut hr (hmint.not_revives (by simp))) hhead
  | online _ _ _ honline hname => simp [RetryPoint.revives, honline, hname] at hquiet
  | identified => cases hquiet
  | unidentified => exact hr

theorem SwitchStep.signedOut {key : AccountKey} {rec : StoredRecord} {point : SwitchPoint}
    {out : Async SwitchPoint (Except String Unit)}
    (h : SwitchStep key rec r point answer r' out) (hr : SignedOut r)
    (hquiet : point.revives answer = false) : SignedOut r' := by
  cases h with
  | minting _ _ _ _ hmint => exact hmint.signedOut hr hquiet
  | minted _ _ _ hmint => exact hmint.signedOut hr hquiet
  | rejected _ _ _ _ hmint => exact hmint.signedOut hr hquiet
  | activating _ _ _ _ hupdate => exact hupdate.signedOut hr
  | activated _ _ _ hupdate => exact hupdate.signedOut hr
  | unwritten _ _ _ _ hupdate => exact hupdate.signedOut hr
  | finished => cases hquiet

theorem ActivateStep.signedOut {key : AccountKey} {point : ActivatePoint}
    {out : Async ActivatePoint ActivateResult}
    (h : ActivateStep key r point answer r' out) (hr : SignedOut r)
    (hquiet : point.revives answer = false) : SignedOut r' := by
  cases h with
  | refused | found => exact hr
  | started => cases hquiet
  | switching _ _ _ _ _ hswitch => exact hswitch.signedOut hr hquiet
  | activated _ _ _ _ hswitch => exact hswitch.signedOut hr hquiet
  | failed _ _ _ _ _ hswitch => exact hswitch.signedOut hr hquiet

/-- A sweep that goes on has changed nothing. -/
theorem TryStep.signedOut {cands : List Candidate} {point : SweepPoint}
    (h : TryStep r cands r' (.suspended point)) (hr : SignedOut r) : SignedOut r' := by
  generalize hout : Async.suspended point = out at h
  cases h with
  | exhausted => cases hout
  | sent | unsent => exact hr

theorem SweepStep.signedOut {point next : SweepPoint}
    (h : SweepStep r point answer r' (.suspended next)) (hr : SignedOut r)
    (hquiet : point.revives r answer = false) : SignedOut r' := by
  generalize hout : Async.suspended next = out at h
  cases h with
  | read _ _ _ _ _ htry =>
    subst hout
    exact htry.signedOut hr
  | started => cases hquiet
  | refused => exact hr
  | flagging _ _ _ _ _ _ hupdate => exact hupdate.signedOut hr
  | flagged _ _ _ _ _ _ _ hupdate htry =>
    subst hout
    exact htry.signedOut (hupdate.signedOut hr)
  | threw _ _ _ _ _ _ hupdate => exact hupdate.signedOut hr
  | switching _ _ _ _ _ _ hswitch => exact hswitch.signedOut hr hquiet
  | recovered _ _ _ _ _ hswitch => exact hswitch.signedOut hr hquiet
  | failed _ _ _ _ _ _ hswitch => exact hswitch.signedOut hr hquiet

theorem TryStep.returned {cands : List Candidate} {result : SweepResult}
    (h : TryStep r cands r' (.returned result)) : cands = [] := by
  cases h
  rfl

/-- A sweep that ends sets the state. -/
theorem SweepStep.revives {point : SweepPoint} {result : SweepResult}
    (h : SweepStep r point answer r' (.returned result)) : point.revives r answer = true := by
  generalize hout : Async.returned result = out at h
  cases h with
  | read answer cands _ _ hread htry =>
    subst hout
    have hcands := htry.returned
    cases answer <;> simp_all [registryRead, SweepPoint.revives]
  | flagged update point rest answer _ _ _ hupdate htry =>
    subst hout
    obtain rfl := htry.returned
    simp [SweepPoint.revives, hupdate.returns]
  | threw update point rest answer message _ hupdate =>
    cases hupdate
    simp [SweepPoint.revives, UpdatePoint.returns]
  | recovered _ _ _ _ _ hswitch =>
    cases hswitch
    rfl
  | started | refused | flagging | switching | failed => cases hout

theorem DegradeResume.signedOut {error : CopilotAuthFatalError} {point : DegradePoint}
    {out : Async DegradePoint Unit} (h : DegradeResume error r point answer r' out)
    (hr : SignedOut r) (hquiet : point.revives r answer = false) : SignedOut r' := by
  cases h with
  | flagging _ _ _ _ _ hupdate => exact hupdate.signedOut hr
  | sweepStarted _ _ _ _ _ hupdate => exact hupdate.signedOut hr
  | flagged update point answer _ r₁ hupdate hsweep =>
    have hauto : r.autoRecover = r₁.autoRecover := by cases hupdate <;> rfl
    simp [DegradePoint.revives, hauto, hsweep, hupdate.returns] at hquiet
  | sweeping _ _ _ _ hsweep => exact hsweep.signedOut hr hquiet
  | recovered _ _ _ hsweep => exact absurd (hsweep.revives.symm.trans hquiet) (by simp)
  | exhausted _ _ _ _ hsweep => exact absurd (hsweep.revives.symm.trans hquiet) (by simp)

theorem RearmStep.signedOut {point : RearmPoint} {out : Async RearmPoint RearmOutcome}
    (h : RearmStep r point answer r' out) (hr : SignedOut r)
    (hquiet : point.revives answer = false) : SignedOut r' := by
  have hended : ∀ r, SignedOut r → SignedOut (rearmEnded r) := fun r hr =>
    hr.of_aborted rfl (List.Subset.refl _) hr.githubToken hr.copilotToken rfl
  cases h with
  | first _ _ _ _ hmint => exact hmint.signedOut hr hquiet
  | firstMinted _ _ _ hmint =>
    obtain ⟨_, _, _, rfl, rfl, -⟩ := hmint.minted_of_ok
    cases hquiet
  | firstRejected _ _ _ _ hmint => exact hmint.signedOut hr hquiet
  | firstFailed _ _ _ _ hmint => exact hended _ (hmint.signedOut hr hquiet)
  | read => exact hr
  | noRefreshToken | notRenewed => exact hended r hr
  | renewed => cases hquiet
  | persisting _ _ _ _ _ hupdate => exact hupdate.signedOut hr
  | persisted _ _ _ _ r₁ _ _ hupdate hsetup =>
    have hr₁ := hupdate.signedOut hr
    exact hsetup.signedOut hr₁ ▸ hr₁
  | persistedTaken _ _ _ _ r₁ _ hupdate hsetup =>
    obtain ⟨token, htoken, -⟩ := hsetup.taken_of_ok
    exact absurd ((hupdate.signedOut hr).githubToken.symm.trans htoken) (by simp)
  | second _ _ _ _ hmint => exact hmint.signedOut hr hquiet
  | secondMinted _ _ _ hmint =>
    obtain ⟨_, _, _, rfl, rfl, -⟩ := hmint.minted_of_ok
    cases hquiet
  | secondFailed _ _ _ _ _ hmint => exact hended _ (hmint.signedOut hr hquiet)

theorem SignOutStep.signedOut {point : SignOutPoint} {out : Async SignOutPoint Unit}
    (h : SignOutStep r point answer r' out) (hr : SignedOut r) : SignedOut r' := by
  cases h with
  | deactivating _ _ _ _ hupdate => exact hupdate.signedOut hr
  | deactivated _ _ _ _ hupdate => exact hupdate.signedOut hr
  | unlinked => exact hr

theorem pollerMinted_signedOut {flow : ActiveFlow} {user : GitHubUser} {rec : AccountRecord}
    {copilotMinted : Bool} {out : Async PollerPoint Unit} (hr : SignedOut r)
    (h : pollerMinted r flow user rec copilotMinted = (r', out)) : SignedOut r' := by
  unfold pollerMinted at h
  split at h <;> cases h <;> exact hr

theorem PollerStep.signedOut {flow : ActiveFlow} {point : PollerPoint}
    {out : Async PollerPoint Unit} (h : PollerStep flow r point answer r' out) (hr : SignedOut r)
    (hquiet : point.revives (flow.abort ∈ r.aborted) answer = false) : SignedOut r' := by
  have hname : ∀ name, SignedOut (r.setUserName name) := fun name =>
    hr.of_aborted rfl (List.Subset.refl _) hr.githubToken hr.copilotToken rfl
  have hfailed : ∀ message, flow.abort ∈ r.aborted → SignedOut (flowFailed r flow message) := by
    intro message habort
    unfold flowFailed
    rw [if_pos habort]
    exact hr
  cases h with
  | abandoned | approved => exact hr
  | pollFailed message => exact hfailed message (by simpa [PollerPoint.revives] using hquiet)
  | unwanted | verified => exact hname _
  | unverified _ _ message => exact hfailed message (by simpa [PollerPoint.revives] using hquiet)
  | adding _ _ _ _ _ _ hupdate => exact hupdate.signedOut hr
  | addFailed _ _ _ _ _ _ hupdate =>
    cases hupdate
    exact hfailed _ (by simpa [PollerPoint.revives] using hquiet)
  | committed _ _ _ _ _ _ _ hupdate =>
    obtain ⟨_, rfl, rfl, -⟩ := hupdate.written_of_addAccount
    cases hquiet
  | committedTaken _ _ _ _ _ _ _ _ hupdate =>
    obtain ⟨_, rfl, rfl, -⟩ := hupdate.written_of_addAccount
    cases hquiet
  | minting _ _ _ _ _ _ hmint => exact hmint.signedOut hr hquiet
  | minted _ _ _ _ _ _ _ hmint =>
    obtain ⟨_, _, _, rfl, rfl, -⟩ := hmint.minted_of_ok
    cases hquiet
  | rejected _ _ _ _ _ _ hmint => exact hmint.signedOut hr hquiet
  | retried _ _ _ _ _ _ _ _ _ hmint hschedule hminted =>
    exact pollerMinted_signedOut (hschedule.signedOut (hmint.signedOut hr hquiet)) hminted
  | finished => cases hquiet

/-! ## Every run -/

theorem settle_signedOut {P R : Type} {task : P → Task} {out : Async P R} (hr : SignedOut r)
    (htask : ∀ p, ∀ controller ∈ (task p).loop?, controller ∈ r.aborted) :
    SignedOut (settle task (r, out)) := by
  cases out with
  | suspended p => exact hr.spawn (htask p)
  | returned => exact hr

theorem signOut_signedOut (hloops : LoopsStopped r) : SignedOut (signOut r) := by
  have hwiped : LoopsStopped r.abortCurrentFlow.stopCopilotOnlineRetry.clearTokenTrio := by
    intro task hmem controller hcontroller
    exact List.mem_append_right _ (List.mem_append_right _ (hloops task hmem controller hcontroller))
  exact ⟨rfl, rfl, LoopsStopped.spawn hwiped (by simp [Task.loop?]), rfl⟩

/-- Is a session asked for: a sign-in, or a switch to an account? -/
def Label.requestsSession (l : Label) : Bool :=
  match l.event with
  | .call .startDeviceFlow => true
  | .call (.activateAccountLive _) => true
  | _ => false

theorem call_signedOut {c : Call} {l : Label} (hevent : l.event = .call c)
    (hrequests : l.requestsSession = false) (hr : SignedOut r) : SignedOut (call r c) := by
  cases c with
  | startDeviceFlow => simp [Label.requestsSession, hevent] at hrequests
  | activateAccountLive key => simp [Label.requestsSession, hevent] at hrequests
  | cancelDeviceFlow =>
    have hflow : r.currentFlow = none := by simp [Runtime.currentFlow, hr.authState]
    show SignedOut (cancelDeviceFlow r)
    rw [cancelDeviceFlow, hflow]
    exact hr
  | signOut => exact signOut_signedOut hr.loops
  | rearmCopilotAuth =>
    show SignedOut (rearmCopilotAuth r)
    unfold rearmCopilotAuth
    rw [hr.githubToken]
    split <;> exact hr
  | markAuthDegraded error => exact (markAuthDegraded_step r error).signedOut hr
  | setupCopilotToken onAuthFatal =>
    have hsetup := setupCopilotToken_step (r := r) rfl
    exact settle_signedOut ((hsetup.signedOut hr).symm ▸ hr) (by simp [Task.loop?])
  | scheduleCopilotOnlineRetry onOnline =>
    exact (scheduleCopilotOnlineRetry_step r onOnline).signedOut hr

/-- No loop is live at a sign-out, and no answer brings the session back. -/
def keepsSignedOut (l : Label) (r : Runtime) : Bool :=
  match l.event with
  | .call .signOut => r.tasks.all fun task => task.loop?.all (· ∈ r.aborted)
  | .resume i answer =>
    match r.tasks[i]? with
    | some task => !task.revives (r.atTime l.now) answer
    | none => true
  | _ => true

theorem SignedOut.without (hr : SignedOut r) (i : ℕ) : SignedOut (r.without i) :=
  ⟨hr.githubToken, hr.copilotToken, fun task hmem => hr.loops task (List.mem_of_mem_eraseIdx hmem),
    hr.authState⟩

theorem SignedOut.atTime (hr : SignedOut r) (now : ℤ) : SignedOut (r.atTime now) :=
  ⟨hr.githubToken, hr.copilotToken, hr.loops, hr.authState⟩

theorem TaskStep.signedOut {task : Task} (h : TaskStep r task answer r') (hr : SignedOut r)
    (hquiet : task.revives r answer = false)
    (hloop : ∀ controller ∈ task.loop?, controller ∈ r.aborted) : SignedOut r' := by
  cases h with
  | installed => cases hquiet
  | notInstalled => exact hr
  | poller _ _ _ _ _ hpoller =>
    exact settle_signedOut (hpoller.signedOut hr hquiet) (by simp [Task.loop?])
  | signOut _ _ _ _ hsignOut =>
    exact settle_signedOut (hsignOut.signedOut hr) (by simp [Task.loop?])
  | rearm _ _ _ _ hrearm =>
    exact settle_signedOut (hrearm.signedOut hr hquiet) (by simp [Task.loop?])
  | degrade _ _ _ _ _ _ hdegrade =>
    exact settle_signedOut (hdegrade.signedOut hr hquiet) (by simp [Task.loop?])
  | activate _ _ _ _ _ hactivate =>
    exact settle_signedOut (hactivate.signedOut hr hquiet) (by simp [Task.loop?])
  | mint _ _ _ _ _ hmint =>
    exact settle_signedOut (hmint.signedOut hr hquiet) (by simp [Task.loop?])
  | refresh controller _ _ _ _ hrefresh =>
    -- A loop that goes on was stopped before.
    have haborted := hrefresh.advances.aborted (hloop controller rfl)
    refine settle_signedOut (hrefresh.signedOut hr hquiet) fun _ controller' hcontroller => ?_
    obtain rfl := Option.some.inj hcontroller
    exact haborted
  | retry _ _ _ _ _ _ hretry =>
    exact settle_signedOut (hretry.signedOut hr hquiet) (by simp [Task.loop?])
  | cleared _ _ _ _ hupdate =>
    exact settle_signedOut (hupdate.signedOut hr) (by simp [Task.loop?])

theorem SignedOut.step {l : Label} (hr : SignedOut r) (hrequests : l.requestsSession = false)
    (hkeeps : keepsSignedOut l r = true) (hstep : step l r = some r') : SignedOut r' := by
  have hnow := hr.atTime l.now
  cases step_step hstep with
  | idle => exact hnow
  | called c hevent => exact call_signedOut hevent hrequests hnow
  | resumed i answer task _ hevent htask hresume =>
    have hquiet : task.revives (r.atTime l.now) answer = false := by
      simpa [keepsSignedOut, hevent, htask] using hkeeps
    refine hresume.signedOut (hnow.without i) ?_ (hr.loops task (List.mem_of_getElem? htask))
    cases task <;> exact hquiet

/-- Until a session is asked for, a sign-out is final in every run in which no loop is live at a
sign-out and no answer brings the session back. -/
theorem signOut_final {now : ℤ} {labels : List Label} {r₀ r : Runtime}
    (hrequests : ∀ l ∈ labels, l.requestsSession = false)
    (hmeets : Runs.Meets step (fun l r => keepsSignedOut l r = true)
      (⟨now, .call .signOut⟩ :: labels) r₀)
    (hrun : Runs.exec step (⟨now, .call .signOut⟩ :: labels) r₀ = some r) :
    r.githubToken = none ∧ r.copilotToken = none ∧ LoopsStopped r ∧
      ∃ sidecar, getAuthStatus r = .unauthenticated sidecar := by
  have hloops : LoopsStopped (r₀.atTime now) := by
    have hkeeps := hmeets.1
    intro task hmem controller hcontroller
    simp only [keepsSignedOut, List.all_eq_true] at hkeeps
    have hall := hkeeps task hmem
    rw [Option.mem_def.1 hcontroller] at hall
    show controller ∈ r₀.aborted
    simpa using hall
  have hmeets := (Runs.meets_of_forall hrequests).and (hmeets.2 _ rfl)
  have hr : SignedOut r :=
    Runs.exec_invariant (fun _ _ _ hr hok hstep => hr.step hok.1 hok.2 hstep) hmeets
      (signOut_signedOut hloops) hrun
  refine ⟨hr.githubToken, hr.copilotToken, hr.loops,
    ⟨r.lastUpstreamRejection, r.networkDiagnosis⟩, ?_⟩
  rw [getAuthStatus, hr.authState]

/-- A `gho_` account, while another is signed in. -/
def addingSession : Runtime where
  now := 40000
  githubToken := some "gho_alice"
  userName := some "alice"
  copilotToken := some ⟨"gho_alice", some "gho_alice"⟩
  authState := .polling someFlow
  next := 2
  tasks := [.poller someFlow .polling]

/-- The code is approved after the sign-out. -/
def approvedLate : List Label :=
  [⟨50010, .resume 1 .done⟩, ⟨50020, .resume 1 .done⟩,
    ⟨55000, .resume 0 (.tokens ⟨"ghu_bob", none, none, none⟩)⟩]

theorem signOut_final_approvedLate :
    ∃ r, Runs.exec step (⟨50000, .call .signOut⟩ :: approvedLate) addingSession = some r ∧
      r.githubToken = none ∧ r.copilotToken = none ∧ LoopsStopped r ∧
        ∃ sidecar, getAuthStatus r = .unauthenticated sidecar := by
  have hrequests : ∀ l ∈ approvedLate, l.requestsSession = false := by decide
  have hmeets : Runs.Meets step (fun l r => keepsSignedOut l r = true)
      (⟨50000, .call .signOut⟩ :: approvedLate) addingSession := by decide +kernel
  exact ⟨_, rfl, signOut_final hrequests hmeets rfl⟩

def Task.isSignOut : Task → Bool
  | .signOut _ => true
  | _ => false

/-- The bearer is refreshed over a sign-out. -/
theorem not_signOut_final :
    ¬ ∀ (before labels : List Label) (now : ℤ) (r₀ s r : Runtime),
      Runs.exec step before r₀ = some s →
      (∀ l ∈ labels, l.requestsSession = false) →
      Runs.exec step (⟨now, .call .signOut⟩ :: labels) s = some r →
      (∀ task ∈ r.tasks, task.isSignOut = false) →
      r.githubToken = none ∧ r.copilotToken = none ∧ LoopsStopped r ∧
        ∃ sidecar, getAuthStatus r = .unauthenticated sidecar := by
  intro h
  have hend := h [⟨1440000, .resume 0 .done⟩]
    [⟨1440150, .resume 1 .done⟩, ⟨1440160, .resume 1 .done⟩,
      ⟨1440300, .resume 0 (.minted "tid=alice2" 1500)⟩]
    1440100 (bootedSession "alice" "ghu_alice" "tid=alice" 1440000) _ _ rfl (by decide) rfl
    (by decide +kernel)
  exact absurd hend.2.1 (by decide +kernel)

end Maximal.Auth
