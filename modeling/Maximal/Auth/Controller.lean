import Maximal.Auth.OnlineRetry
import Maximal.Auth.Recovery

/-!
# The auth controller

Device-code flows, sign-out, re-arming and degrading, and the machine that they form: an operation
is requested, or a suspended function gets its answer.

## Main definitions

- `startDeviceFlow`, `cancelDeviceFlow`, `resumePoller`
- `signOut`, `rearmCopilotAuth`, `resumeDegrade`
- `Call`, `resumeTask`
- `Label`, `step` — the machine
-/

namespace Maximal.Auth

/-! ## Device-code flows -/

/-- A restarted flow inherits the identity of the flow before. -/
def captureResumeTarget (r : Runtime) : Option ActiveFlow → Option Identity
  | some existing => existing.resume
  | none =>
    match r.authState with
    | .signedIn identity => some identity
    | _ => none

def startDeviceFlow (r : Runtime) : Runtime :=
  match r.currentFlow with
  | some existing =>
    if r.isFlowExpired existing then
      (r.abort existing.abort).spawn (.startDeviceFlow (captureResumeTarget r (some existing)))
    else r
  | none => r.spawn (.startDeviceFlow (captureResumeTarget r none))

/-- The code has arrived: the flow is installed and its poller runs up to the first poll. -/
def installFlow (r : Runtime) (resume : Option Identity) (code : DeviceCodeResponse) : Runtime :=
  let flow : ActiveFlow :=
    { deviceCode := code, expiresAt := r.now + code.expiresIn * 1000, abort := r.next,
      resume := resume }
  (({ r with next := r.next + 1 } : Runtime).setAuthState (.polling flow)).spawn
    (.poller flow .polling)

def cancelDeviceFlow (r : Runtime) : Runtime :=
  match r.currentFlow with
  | none => r
  | some flow =>
    (r.abort flow.abort).setAuthState
      (match flow.resume with
      | some identity => .signedIn identity
      | none => .signedOut)

def flowFailureState (flow : ActiveFlow) (fallback : ParsedCopilotError) : AuthState :=
  match flow.resume with
  | some identity => .signedIn identity
  | none => .error fallback

/-- The `catch` blocks: an aborted flow leaves the state alone. -/
def flowFailed (r : Runtime) (flow : ActiveFlow) (message : String) : Runtime :=
  if flow.abort ∈ r.aborted then r else r.setAuthState (flowFailureState flow ⟨message, none⟩)

/-- Past the mint: the signal is read, then the models are cached. -/
def pollerMinted (r : Runtime) (flow : ActiveFlow) (user : GitHubUser) (rec : AccountRecord)
    (copilotMinted : Bool) : Runtime × Async PollerPoint Unit :=
  if flow.abort ∈ r.aborted then (r, .returned ())
  else (r, .suspended (.caching user rec copilotMinted))

def resumePoller (flow : ActiveFlow) (r : Runtime) :
    PollerPoint → Answer → Option (Runtime × Async PollerPoint Unit)
  | .polling, .tokens tokens =>
    if flow.abort ∈ r.aborted then some (r, .returned ())
    else some (r, .suspended (.verifying tokens))
  | .polling, .failed message => some (flowFailed r flow message, .returned ())
  | .verifying tokens, .user user =>
    -- The name is written before the signal is read again.
    let r := r.setUserName user.login
    if flow.abort ∈ r.aborted then some (r, .returned ())
    else
      let account := makeAccountRecord user.login r.host .deviceCode tokens r.now
      some (r, .suspended (.adding user account .reading))
  | .verifying _, .failed _ =>
    some (flowFailed r flow "Couldn't verify your GitHub account. Try signing in again.",
      .returned ())
  | .adding user rec point, answer =>
    (resumeUpdate (.addAccount rec) r point answer).map fun
      | (r, .suspended point) => (r, .suspended (.adding user rec point))
      | (r, .returned (.ok ())) =>
        whileMinting user rec (setupCopilotToken (r.setGithubToken rec.token))
      | (r, .returned (.error message)) => (flowFailed r flow message, .returned ())
  | .minting user rec mint, answer =>
    (resumeMint .degrade r mint answer).map (whileMinting user rec)
  | .caching user _ copilotMinted, .done | .caching user _ copilotMinted, .failed _ =>
    let r := if copilotMinted then r.stopCopilotOnlineRetry else r
    some (r.setAuthState (.signedIn ⟨user.login, user.avatarUrl, some r.now⟩), .returned ())
  | _, _ => none
where
  whileMinting (user : GitHubUser) (rec : AccountRecord) :
      Runtime × Async MintPoint (Except MintError Unit) → Runtime × Async PollerPoint Unit
    | (r, .suspended mint) => (r, .suspended (.minting user rec mint))
    | (r, .returned (.ok ())) => pollerMinted r flow user rec true
    -- The degrade is taken to have set the final state.
    | (r, .returned (.error (.authFatal _))) => (r, .returned ())
    | (r, .returned (.error (.other _))) =>
      pollerMinted (scheduleCopilotOnlineRetry r none) flow user rec false

/-- What an answer to a poller can do. -/
inductive PollerStep (flow : ActiveFlow) (r : Runtime) :
    PollerPoint → Answer → Runtime → Async PollerPoint Unit → Prop
  | abandoned (tokens : DeviceTokenResult) : flow.abort ∈ r.aborted →
      PollerStep flow r .polling (.tokens tokens) r (.returned ())
  | approved (tokens : DeviceTokenResult) : flow.abort ∉ r.aborted →
      PollerStep flow r .polling (.tokens tokens) r (.suspended (.verifying tokens))
  | pollFailed (message : String) :
      PollerStep flow r .polling (.failed message) (flowFailed r flow message) (.returned ())
  | unwanted (tokens : DeviceTokenResult) (user : GitHubUser) : flow.abort ∈ r.aborted →
      PollerStep flow r (.verifying tokens) (.user user) (r.setUserName user.login) (.returned ())
  | verified (tokens : DeviceTokenResult) (user : GitHubUser) : flow.abort ∉ r.aborted →
      PollerStep flow r (.verifying tokens) (.user user) (r.setUserName user.login)
        (.suspended (.adding user
          (makeAccountRecord user.login r.host .deviceCode tokens r.now) .reading))
  | unverified (tokens : DeviceTokenResult) (error message : String) :
      PollerStep flow r (.verifying tokens) (.failed error) (flowFailed r flow message)
        (.returned ())
  | adding (user : GitHubUser) (rec : AccountRecord) (point point' : UpdatePoint) (answer : Answer)
      (r' : Runtime) : UpdateStep (.addAccount rec) r point answer r' (.suspended point') →
      PollerStep flow r (.adding user rec point) answer r' (.suspended (.adding user rec point'))
  | addFailed (user : GitHubUser) (rec : AccountRecord) (point : UpdatePoint) (answer : Answer)
      (message : String) (r₁ : Runtime) :
      UpdateStep (.addAccount rec) r point answer r₁ (.returned (.error message)) →
      PollerStep flow r (.adding user rec point) answer (flowFailed r₁ flow message) (.returned ())
  | committed (user : GitHubUser) (rec : AccountRecord) (point : UpdatePoint) (answer : Answer)
      (r₁ r' : Runtime) (mint : MintPoint) :
      UpdateStep (.addAccount rec) r point answer r₁ (.returned (.ok ())) →
      SetupStep (r₁.setGithubToken rec.token) r' (.suspended mint) →
      PollerStep flow r (.adding user rec point) answer r' (.suspended (.minting user rec mint))
  | committedTaken (user : GitHubUser) (rec : AccountRecord) (point : UpdatePoint)
      (answer : Answer) (r₁ r₂ r' : Runtime) (out : Async PollerPoint Unit) :
      UpdateStep (.addAccount rec) r point answer r₁ (.returned (.ok ())) →
      SetupStep (r₁.setGithubToken rec.token) r₂ (.returned (.ok ())) →
      pollerMinted r₂ flow user rec true = (r', out) →
      PollerStep flow r (.adding user rec point) answer r' out
  | minting (user : GitHubUser) (rec : AccountRecord) (mint mint' : MintPoint) (answer : Answer)
      (r' : Runtime) : MintStep .degrade r mint answer r' (.suspended mint') →
      PollerStep flow r (.minting user rec mint) answer r' (.suspended (.minting user rec mint'))
  | minted (user : GitHubUser) (rec : AccountRecord) (mint : MintPoint) (answer : Answer)
      (r₁ r' : Runtime) (out : Async PollerPoint Unit) :
      MintStep .degrade r mint answer r₁ (.returned (.ok ())) →
      pollerMinted r₁ flow user rec true = (r', out) →
      PollerStep flow r (.minting user rec mint) answer r' out
  | rejected (user : GitHubUser) (rec : AccountRecord) (mint : MintPoint) (answer : Answer)
      (error : CopilotAuthFatalError) (r' : Runtime) :
      MintStep .degrade r mint answer r' (.returned (.error (.authFatal error))) →
      PollerStep flow r (.minting user rec mint) answer r' (.returned ())
  | retried (user : GitHubUser) (rec : AccountRecord) (mint : MintPoint) (answer : Answer)
      (message : String) (r₁ r₂ r' : Runtime) (out : Async PollerPoint Unit) :
      MintStep .degrade r mint answer r₁ (.returned (.error (.other message))) →
      ScheduleStep r₁ none r₂ → pollerMinted r₂ flow user rec false = (r', out) →
      PollerStep flow r (.minting user rec mint) answer r' out
  | finished (user : GitHubUser) (rec : AccountRecord) (copilotMinted : Bool) (answer : Answer) :
      PollerStep flow r (.caching user rec copilotMinted) answer
        ((if copilotMinted then r.stopCopilotOnlineRetry else r).setAuthState
          (.signedIn ⟨user.login, user.avatarUrl, some r.now⟩)) (.returned ())

theorem resumePoller_step {flow : ActiveFlow} {r r' : Runtime} {point : PollerPoint}
    {answer : Answer} {out : Async PollerPoint Unit}
    (h : resumePoller flow r point answer = some (r', out)) :
    PollerStep flow r point answer r' out := by
  have hnow : ∀ b : Bool, (if b then r.stopCopilotOnlineRetry else r).now = r.now := by
    intro b
    cases b <;> rfl
  unfold resumePoller at h
  split at h
  · split at h <;> cases h
    · next habort => exact .abandoned _ habort
    · next habort => exact .approved _ habort
  · cases h
    exact .pollFailed _
  · dsimp only [Runtime.setUserName] at h
    split at h <;> cases h
    · next habort => exact .unwanted _ _ habort
    · next habort => exact .verified _ _ habort
  · cases h
    exact .unverified _ _ _
  · obtain ⟨⟨r₁, point | ⟨message | _⟩⟩, hupdate, hrun⟩ := Option.map_eq_some_iff.1 h
    · cases hrun
      exact .adding _ _ _ _ _ _ (resumeUpdate_step hupdate)
    · cases hrun
      exact .addFailed _ _ _ _ _ _ (resumeUpdate_step hupdate)
    · have hupdate := resumeUpdate_step hupdate
      dsimp only at hrun
      generalize hsetup : setupCopilotToken _ = run at hrun
      obtain ⟨r₂, mint | ⟨error | _⟩⟩ := run
      · cases hrun
        exact .committed _ _ _ _ _ _ _ hupdate (setupCopilotToken_step hsetup)
      · cases setupCopilotToken_step hsetup
      · exact .committedTaken _ _ _ _ _ _ _ _ hupdate (setupCopilotToken_step hsetup) hrun
  · obtain ⟨⟨r₁, mint | ⟨⟨error⟩ | _⟩ | _⟩, hmint, hrun⟩ := Option.map_eq_some_iff.1 h
    · cases hrun
      exact .minting _ _ _ _ _ _ (resumeMint_step hmint)
    · cases hrun
      exact .rejected _ _ _ _ _ _ (resumeMint_step hmint)
    · exact .retried _ _ _ _ _ _ _ _ _ (resumeMint_step hmint)
        (scheduleCopilotOnlineRetry_step _ _) hrun
    · exact .minted _ _ _ _ _ _ _ (resumeMint_step hmint) hrun
  · cases h
    rw [hnow]
    exact .finished _ _ _ _
  · cases h
    rw [hnow]
    exact .finished _ _ _ _
  · cases h

/-! ## Signing out -/

def signOut (r : Runtime) : Runtime :=
  let r := r.abortCurrentFlow.stopCopilotOnlineRetry.clearTokenTrio
  let r := { r with lastUpstreamRejection := none, networkDiagnosis := none }
  (r.setAuthState .signedOut).spawn (.signOut (.deactivating .reading))

def resumeSignOut (r : Runtime) :
    SignOutPoint → Answer → Option (Runtime × Async SignOutPoint Unit)
  | .deactivating point, answer =>
    (resumeUpdate .deactivateActive r point answer).map fun
      | (r, .suspended point) => (r, .suspended (.deactivating point))
      -- A registry that could not be written is only logged.
      | (r, .returned _) => (r, .suspended .unlinking)
  | .unlinking, .done | .unlinking, .failed _ => some (r, .returned ())
  | _, _ => none

/-- What an answer to a sign-out can do. -/
inductive SignOutStep (r : Runtime) :
    SignOutPoint → Answer → Runtime → Async SignOutPoint Unit → Prop
  | deactivating (point point' : UpdatePoint) (answer : Answer) (r' : Runtime) :
      UpdateStep .deactivateActive r point answer r' (.suspended point') →
      SignOutStep r (.deactivating point) answer r' (.suspended (.deactivating point'))
  | deactivated (point : UpdatePoint) (answer : Answer) (result : Except String Unit)
      (r' : Runtime) : UpdateStep .deactivateActive r point answer r' (.returned result) →
      SignOutStep r (.deactivating point) answer r' (.suspended .unlinking)
  | unlinked (answer : Answer) : SignOutStep r .unlinking answer r (.returned ())

theorem resumeSignOut_step {r r' : Runtime} {point : SignOutPoint} {answer : Answer}
    {out : Async SignOutPoint Unit} (h : resumeSignOut r point answer = some (r', out)) :
    SignOutStep r point answer r' out := by
  unfold resumeSignOut at h
  split at h
  · obtain ⟨⟨r₁, point | _⟩, hupdate, hrun⟩ := Option.map_eq_some_iff.1 h <;> cases hrun
    · exact .deactivating _ _ _ _ (resumeUpdate_step hupdate)
    · exact .deactivated _ _ _ _ (resumeUpdate_step hupdate)
  · cases h
    exact .unlinked _
  · cases h
    exact .unlinked _
  · cases h

/-! ## Re-arming -/

inductive RearmOutcome where
  | online | authFatal | offline
  deriving DecidableEq, Repr

@[simp] def rearmEnded (r : Runtime) : Runtime := { r with rearmInFlight := false }

def finishRearmOnline (r : Runtime) : Runtime :=
  match r.userName with
  | some login => r.markSignedIn login
  | none => r.noteAuthSuccess

def rearmCopilotAuth (r : Runtime) : Runtime :=
  if r.rearmInFlight then r
  else
    match r.githubToken with
    | none => r
    | some token =>
      if inferTokenType token = .gho then r
      else
        ({ r with rearmInFlight := true } : Runtime).spawn (.rearm (.first (.minting (some token))))

def resumeRearm (r : Runtime) :
    RearmPoint → Answer → Option (Runtime × Async RearmPoint RearmOutcome)
  | .first mint, answer =>
    (resumeMint .throw r mint answer).map fun
      | (r, .suspended mint) => (r, .suspended (.first mint))
      | (r, .returned (.ok ())) => (rearmEnded (finishRearmOnline r), .returned .online)
      | (r, .returned (.error (.authFatal _))) => (r, .suspended .reading)
      | (r, .returned (.error (.other _))) => (rearmEnded r, .returned .offline)
  | .reading, .done => some (afterRead r.registry)
  | .reading, .failed _ => some (afterRead emptyRegistry)
  | .renewing rec, .tokens renewed =>
    let renewed := { renewed with refreshToken := renewed.refreshToken.or rec.refreshToken }
    let next := makeAccountRecord rec.login rec.host rec.addedVia renewed r.now
    some (r.setGithubToken renewed.accessToken,
      .suspended (.persisting (.addAccount next) .reading))
  | .renewing _, .failed _ => some (rearmEnded r, .returned .authFatal)
  | .persisting update point, answer =>
    (resumeUpdate update r point answer).map fun
      | (r, .suspended point) => (r, .suspended (.persisting update point))
      -- A token that could not be persisted is live in memory.
      | (r, .returned _) => whileSecond (setupCopilotToken r)
  | .second mint, answer => (resumeMint .throw r mint answer).map whileSecond
  | _, _ => none
where
  afterRead (reg : AccountRegistry) : Runtime × Async RearmPoint RearmOutcome :=
    match ((getActiveRecord reg).bind (·.account?)).filter (·.refreshToken.isSome) with
    | some rec => (r, .suspended (.renewing rec))
    | none => (rearmEnded r, .returned .authFatal)
  whileSecond :
      Runtime × Async MintPoint (Except MintError Unit) → Runtime × Async RearmPoint RearmOutcome
    | (r, .suspended mint) => (r, .suspended (.second mint))
    | (r, .returned (.ok ())) => (rearmEnded (finishRearmOnline r), .returned .online)
    | (r, .returned (.error (.authFatal _))) => (rearmEnded r, .returned .authFatal)
    | (r, .returned (.error (.other _))) => (rearmEnded r, .returned .offline)

/-- What an answer to a re-arm can do. -/
inductive RearmStep (r : Runtime) :
    RearmPoint → Answer → Runtime → Async RearmPoint RearmOutcome → Prop
  | first (mint mint' : MintPoint) (answer : Answer) (r' : Runtime) :
      MintStep .throw r mint answer r' (.suspended mint') →
      RearmStep r (.first mint) answer r' (.suspended (.first mint'))
  | firstMinted (mint : MintPoint) (answer : Answer) (r' : Runtime) :
      MintStep .throw r mint answer r' (.returned (.ok ())) →
      RearmStep r (.first mint) answer (rearmEnded (finishRearmOnline r')) (.returned .online)
  | firstRejected (mint : MintPoint) (answer : Answer) (error : CopilotAuthFatalError)
      (r' : Runtime) : MintStep .throw r mint answer r' (.returned (.error (.authFatal error))) →
      RearmStep r (.first mint) answer r' (.suspended .reading)
  | firstFailed (mint : MintPoint) (answer : Answer) (message : String) (r' : Runtime) :
      MintStep .throw r mint answer r' (.returned (.error (.other message))) →
      RearmStep r (.first mint) answer (rearmEnded r') (.returned .offline)
  | read (answer : Answer) (rec : AccountRecord) :
      (getActiveRecord r.registry).bind (·.account?) = some rec →
      RearmStep r .reading answer r (.suspended (.renewing rec))
  | noRefreshToken (answer : Answer) :
      RearmStep r .reading answer (rearmEnded r) (.returned .authFatal)
  | renewed (rec next : AccountRecord) (renewed : DeviceTokenResult) :
      next.login = rec.login → next.token = renewed.accessToken →
      RearmStep r (.renewing rec) (.tokens renewed) (r.setGithubToken renewed.accessToken)
        (.suspended (.persisting (.addAccount next) .reading))
  | notRenewed (rec : AccountRecord) (message : String) :
      RearmStep r (.renewing rec) (.failed message) (rearmEnded r) (.returned .authFatal)
  | persisting (update : RegistryUpdate) (point point' : UpdatePoint) (answer : Answer)
      (r' : Runtime) : UpdateStep update r point answer r' (.suspended point') →
      RearmStep r (.persisting update point) answer r' (.suspended (.persisting update point'))
  | persisted (update : RegistryUpdate) (point : UpdatePoint) (answer : Answer)
      (result : Except String Unit) (r₁ r' : Runtime) (mint : MintPoint) :
      UpdateStep update r point answer r₁ (.returned result) →
      SetupStep r₁ r' (.suspended mint) →
      RearmStep r (.persisting update point) answer r' (.suspended (.second mint))
  | persistedTaken (update : RegistryUpdate) (point : UpdatePoint) (answer : Answer)
      (result : Except String Unit) (r₁ r' : Runtime) :
      UpdateStep update r point answer r₁ (.returned result) →
      SetupStep r₁ r' (.returned (.ok ())) →
      RearmStep r (.persisting update point) answer (rearmEnded (finishRearmOnline r'))
        (.returned .online)
  | second (mint mint' : MintPoint) (answer : Answer) (r' : Runtime) :
      MintStep .throw r mint answer r' (.suspended mint') →
      RearmStep r (.second mint) answer r' (.suspended (.second mint'))
  | secondMinted (mint : MintPoint) (answer : Answer) (r' : Runtime) :
      MintStep .throw r mint answer r' (.returned (.ok ())) →
      RearmStep r (.second mint) answer (rearmEnded (finishRearmOnline r')) (.returned .online)
  | secondFailed (mint : MintPoint) (answer : Answer) (error : MintError) (r' : Runtime)
      (outcome : RearmOutcome) : MintStep .throw r mint answer r' (.returned (.error error)) →
      RearmStep r (.second mint) answer (rearmEnded r') (.returned outcome)

theorem resumeRearm_step {r r' : Runtime} {point : RearmPoint} {answer : Answer}
    {out : Async RearmPoint RearmOutcome} (h : resumeRearm r point answer = some (r', out)) :
    RearmStep r point answer r' out := by
  have hread : ∀ answer reg, reg = r.registry ∨ reg = emptyRegistry →
      some (resumeRearm.afterRead r reg) = some (r', out) →
      RearmStep r .reading answer r' out := by
    intro answer reg hreg h
    unfold resumeRearm.afterRead at h
    split at h <;> cases h
    · next rec hactive =>
      have hactive := (Option.filter_eq_some_iff.1 hactive).1
      rcases hreg with rfl | rfl
      · exact .read _ _ hactive
      · cases hactive
    · exact .noRefreshToken _
  unfold resumeRearm at h
  split at h
  · obtain ⟨⟨r₁, mint | ⟨⟨error⟩ | _⟩ | _⟩, hmint, hrun⟩ := Option.map_eq_some_iff.1 h <;>
      cases hrun
    · exact .first _ _ _ _ (resumeMint_step hmint)
    · exact .firstRejected _ _ _ _ (resumeMint_step hmint)
    · exact .firstFailed _ _ _ _ (resumeMint_step hmint)
    · exact .firstMinted _ _ _ (resumeMint_step hmint)
  · exact hread _ _ (.inl rfl) h
  · exact hread _ _ (.inr rfl) h
  · cases h
    exact .renewed _ _ _ rfl rfl
  · cases h
    exact .notRenewed _ _
  · obtain ⟨⟨r₁, point | result⟩, hupdate, hrun⟩ := Option.map_eq_some_iff.1 h
    · cases hrun
      exact .persisting _ _ _ _ _ (resumeUpdate_step hupdate)
    · have hupdate := resumeUpdate_step hupdate
      dsimp only at hrun
      generalize hsetup : setupCopilotToken _ = run at hrun
      obtain ⟨r₂, mint | ⟨error | _⟩⟩ := run
      · cases hrun
        exact .persisted _ _ _ _ _ _ _ hupdate (setupCopilotToken_step hsetup)
      · cases setupCopilotToken_step hsetup
      · cases hrun
        exact .persistedTaken _ _ _ _ _ _ hupdate (setupCopilotToken_step hsetup)
  · obtain ⟨⟨r₁, mint | ⟨⟨error⟩ | _⟩ | _⟩, hmint, hrun⟩ := Option.map_eq_some_iff.1 h <;>
      cases hrun
    · exact .second _ _ _ _ (resumeMint_step hmint)
    · exact .secondFailed _ _ _ _ _ (resumeMint_step hmint)
    · exact .secondFailed _ _ _ _ _ (resumeMint_step hmint)
    · exact .secondMinted _ _ _ (resumeMint_step hmint)
  · cases h

/-! ## Degrading -/

/-- The degrade promise settles. -/
@[simp] def degradeEnded (r : Runtime) : Runtime := { r with degradeInFlight := none }

@[simp] def degradeFailed (r : Runtime) (error : CopilotAuthFatalError) : Runtime :=
  degradeEnded (r.setAuthState (.error error.toParsedCopilotError))

def resumeDegrade (error : CopilotAuthFatalError) (r : Runtime) :
    DegradePoint → Answer → Option (Runtime × Async DegradePoint Unit)
  | .flagging update point, answer =>
    (resumeUpdate update r point answer).map fun
      | (r, .suspended point) => (r, .suspended (.flagging update point))
      -- A flag that could not be written is only logged.
      | (r, .returned _) =>
        if r.autoRecover then (r, .suspended (.sweeping .reading))
        else (degradeFailed r error, .returned ())
  | .sweeping sweep, answer =>
    (resumeSweep r sweep answer).map fun
      | (r, .suspended sweep) => (r, .suspended (.sweeping sweep))
      | (r, .returned .recovered) => (degradeEnded r, .returned ())
      | (r, .returned _) => (degradeFailed r error, .returned ())

/-- What an answer to a degrade can do. -/
inductive DegradeResume (error : CopilotAuthFatalError) (r : Runtime) :
    DegradePoint → Answer → Runtime → Async DegradePoint Unit → Prop
  | flagging (update : RegistryUpdate) (point point' : UpdatePoint) (answer : Answer)
      (r' : Runtime) : UpdateStep update r point answer r' (.suspended point') →
      DegradeResume error r (.flagging update point) answer r'
        (.suspended (.flagging update point'))
  | sweepStarted (update : RegistryUpdate) (point : UpdatePoint) (answer : Answer)
      (result : Except String Unit) (r' : Runtime) :
      UpdateStep update r point answer r' (.returned result) → r'.autoRecover = true →
      DegradeResume error r (.flagging update point) answer r' (.suspended (.sweeping .reading))
  | flagged (update : RegistryUpdate) (point : UpdatePoint) (answer : Answer)
      (result : Except String Unit) (r' : Runtime) :
      UpdateStep update r point answer r' (.returned result) → r'.autoRecover = false →
      DegradeResume error r (.flagging update point) answer (degradeFailed r' error) (.returned ())
  | sweeping (sweep sweep' : SweepPoint) (answer : Answer) (r' : Runtime) :
      SweepStep r sweep answer r' (.suspended sweep') →
      DegradeResume error r (.sweeping sweep) answer r' (.suspended (.sweeping sweep'))
  | recovered (sweep : SweepPoint) (answer : Answer) (r' : Runtime) :
      SweepStep r sweep answer r' (.returned .recovered) →
      DegradeResume error r (.sweeping sweep) answer (degradeEnded r') (.returned ())
  | exhausted (sweep : SweepPoint) (answer : Answer) (result : SweepResult) (r' : Runtime) :
      SweepStep r sweep answer r' (.returned result) → result ≠ .recovered →
      DegradeResume error r (.sweeping sweep) answer (degradeFailed r' error) (.returned ())

theorem resumeDegrade_step {error : CopilotAuthFatalError} {r r' : Runtime} {point : DegradePoint}
    {answer : Answer} {out : Async DegradePoint Unit}
    (h : resumeDegrade error r point answer = some (r', out)) :
    DegradeResume error r point answer r' out := by
  unfold resumeDegrade at h
  split at h
  · obtain ⟨⟨r₁, point | result⟩, hupdate, hrun⟩ := Option.map_eq_some_iff.1 h
    · cases hrun
      exact .flagging _ _ _ _ _ (resumeUpdate_step hupdate)
    · dsimp only at hrun
      split at hrun <;> cases hrun
      · next hsweep => exact .sweepStarted _ _ _ _ _ (resumeUpdate_step hupdate) hsweep
      · next hsweep =>
        exact .flagged _ _ _ _ _ (resumeUpdate_step hupdate) (Bool.eq_false_iff.2 hsweep)
  · obtain ⟨⟨r₁, sweep | ⟨_ | _ | _⟩⟩, hsweep, hrun⟩ := Option.map_eq_some_iff.1 h <;> cases hrun
    · exact .sweeping _ _ _ _ (resumeSweep_step hsweep)
    · exact .recovered _ _ _ (resumeSweep_step hsweep)
    · exact .exhausted _ _ _ _ (resumeSweep_step hsweep) (by decide)
    · exact .exhausted _ _ _ _ (resumeSweep_step hsweep) (by decide)

/-! ## The machine -/

/-- The operations that requests and the cold boot ask for. -/
inductive Call where
  | startDeviceFlow
  | cancelDeviceFlow
  | signOut
  | rearmCopilotAuth
  | markAuthDegraded (error : CopilotAuthFatalError)
  | activateAccountLive (key : AccountKey)
  | setupCopilotToken (onAuthFatal : OnAuthFatal)
  | scheduleCopilotOnlineRetry (onOnline : Option (Option String))
  deriving DecidableEq, Repr

/-- A task that has run to its next suspension. -/
def settle {P R : Type} (task : P → Task) : Runtime × Async P R → Runtime
  | (r, .suspended point) => r.spawn (task point)
  | (r, .returned _) => r

def call (r : Runtime) : Call → Runtime
  | .startDeviceFlow => startDeviceFlow r
  | .cancelDeviceFlow => cancelDeviceFlow r
  | .signOut => signOut r
  | .rearmCopilotAuth => rearmCopilotAuth r
  | .markAuthDegraded error => (markAuthDegraded r error).1
  | .activateAccountLive key => r.spawn (.activate key .reading)
  | .setupCopilotToken onAuthFatal =>
    settle (.setupCopilotToken onAuthFatal) (setupCopilotToken r)
  | .scheduleCopilotOnlineRetry onOnline => scheduleCopilotOnlineRetry r onOnline

def resumeTask (r : Runtime) : Task → Answer → Option Runtime
  | .startDeviceFlow resume, .deviceCode code => some (installFlow r resume code)
  | .startDeviceFlow _, .failed _ => some r
  | .startDeviceFlow _, _ => none
  | .poller flow point, answer =>
    (resumePoller flow r point answer).map (settle (.poller flow))
  | .signOut point, answer => (resumeSignOut r point answer).map (settle .signOut)
  | .rearm point, answer => (resumeRearm r point answer).map (settle .rearm)
  | .degrade id error point, answer =>
    (resumeDegrade error r point answer).map (settle (.degrade id error))
  | .activate key point, answer => (resumeActivate key r point answer).map (settle (.activate key))
  | .setupCopilotToken onAuthFatal point, answer =>
    (resumeMint onAuthFatal r point answer).map (settle (.setupCopilotToken onAuthFatal))
  | .refreshLoop controller point, answer =>
    (resumeRefresh controller r point answer).map (settle (.refreshLoop controller))
  | .onlineRetry controller onOnline point, answer =>
    (resumeRetry controller onOnline r point answer).map (settle (.onlineRetry controller onOnline))
  | .clearActiveNeedsReauth point, answer =>
    (resumeUpdate .clearActiveNeedsReauth r point answer).map (settle .clearActiveNeedsReauth)

/-- What an answer to a suspended function can do. -/
inductive TaskStep (r : Runtime) : Task → Answer → Runtime → Prop
  | installed (resume : Option Identity) (code : DeviceCodeResponse) :
      TaskStep r (.startDeviceFlow resume) (.deviceCode code) (installFlow r resume code)
  | notInstalled (resume : Option Identity) (message : String) :
      TaskStep r (.startDeviceFlow resume) (.failed message) r
  | poller (flow : ActiveFlow) (point : PollerPoint) (answer : Answer) (r' : Runtime)
      (out : Async PollerPoint Unit) : PollerStep flow r point answer r' out →
      TaskStep r (.poller flow point) answer (settle (.poller flow) (r', out))
  | signOut (point : SignOutPoint) (answer : Answer) (r' : Runtime)
      (out : Async SignOutPoint Unit) : SignOutStep r point answer r' out →
      TaskStep r (.signOut point) answer (settle .signOut (r', out))
  | rearm (point : RearmPoint) (answer : Answer) (r' : Runtime)
      (out : Async RearmPoint RearmOutcome) : RearmStep r point answer r' out →
      TaskStep r (.rearm point) answer (settle .rearm (r', out))
  | degrade (id : ℕ) (error : CopilotAuthFatalError) (point : DegradePoint) (answer : Answer)
      (r' : Runtime) (out : Async DegradePoint Unit) : DegradeResume error r point answer r' out →
      TaskStep r (.degrade id error point) answer (settle (.degrade id error) (r', out))
  | activate (key : AccountKey) (point : ActivatePoint) (answer : Answer) (r' : Runtime)
      (out : Async ActivatePoint ActivateResult) : ActivateStep key r point answer r' out →
      TaskStep r (.activate key point) answer (settle (.activate key) (r', out))
  | mint (onAuthFatal : OnAuthFatal) (point : MintPoint) (answer : Answer) (r' : Runtime)
      (out : Async MintPoint (Except MintError Unit)) :
      MintStep onAuthFatal r point answer r' out →
      TaskStep r (.setupCopilotToken onAuthFatal point) answer
        (settle (.setupCopilotToken onAuthFatal) (r', out))
  | refresh (controller : ℕ) (point : RefreshPoint) (answer : Answer) (r' : Runtime)
      (out : Async RefreshPoint Unit) : RefreshStep controller r point answer r' out →
      TaskStep r (.refreshLoop controller point) answer (settle (.refreshLoop controller) (r', out))
  | retry (controller : ℕ) (onOnline : Option (Option String)) (point : RetryPoint)
      (answer : Answer) (r' : Runtime) (out : Async RetryPoint Unit) :
      RetryStep controller onOnline r point answer r' out →
      TaskStep r (.onlineRetry controller onOnline point) answer
        (settle (.onlineRetry controller onOnline) (r', out))
  | cleared (point : UpdatePoint) (answer : Answer) (r' : Runtime)
      (out : Async UpdatePoint (Except String Unit)) :
      UpdateStep .clearActiveNeedsReauth r point answer r' out →
      TaskStep r (.clearActiveNeedsReauth point) answer (settle .clearActiveNeedsReauth (r', out))

theorem resumeTask_step {r r' : Runtime} {task : Task} {answer : Answer}
    (h : resumeTask r task answer = some r') : TaskStep r task answer r' := by
  cases task with
  | startDeviceFlow resume =>
    cases answer with
    | deviceCode code =>
      cases h
      exact .installed resume code
    | failed message =>
      cases h
      exact .notInstalled resume message
    | _ => cases h
  | poller flow point =>
    obtain ⟨⟨r₁, out⟩, hpoller, rfl⟩ := Option.map_eq_some_iff.1 h
    exact .poller _ _ _ _ _ (resumePoller_step hpoller)
  | signOut point =>
    obtain ⟨⟨r₁, out⟩, hsignOut, rfl⟩ := Option.map_eq_some_iff.1 h
    exact .signOut _ _ _ _ (resumeSignOut_step hsignOut)
  | rearm point =>
    obtain ⟨⟨r₁, out⟩, hrearm, rfl⟩ := Option.map_eq_some_iff.1 h
    exact .rearm _ _ _ _ (resumeRearm_step hrearm)
  | degrade id error point =>
    obtain ⟨⟨r₁, out⟩, hdegrade, rfl⟩ := Option.map_eq_some_iff.1 h
    exact .degrade _ _ _ _ _ _ (resumeDegrade_step hdegrade)
  | activate key point =>
    obtain ⟨⟨r₁, out⟩, hactivate, rfl⟩ := Option.map_eq_some_iff.1 h
    exact .activate _ _ _ _ _ (resumeActivate_step hactivate)
  | setupCopilotToken onAuthFatal point =>
    obtain ⟨⟨r₁, out⟩, hmint, rfl⟩ := Option.map_eq_some_iff.1 h
    exact .mint _ _ _ _ _ (resumeMint_step hmint)
  | refreshLoop controller point =>
    obtain ⟨⟨r₁, out⟩, hrefresh, rfl⟩ := Option.map_eq_some_iff.1 h
    exact .refresh _ _ _ _ _ (resumeRefresh_step hrefresh)
  | onlineRetry controller onOnline point =>
    obtain ⟨⟨r₁, out⟩, hretry, rfl⟩ := Option.map_eq_some_iff.1 h
    exact .retry _ _ _ _ _ _ (resumeRetry_step hretry)
  | clearActiveNeedsReauth point =>
    obtain ⟨⟨r₁, out⟩, hupdate, rfl⟩ := Option.map_eq_some_iff.1 h
    exact .cleared _ _ _ _ (resumeUpdate_step hupdate)

/-- What happens next, at which reading of the clock. -/
inductive Event where
  | call (call : Call)
  | resume (task : ℕ) (answer : Answer)
  /-- Time passes. -/
  | idle
  deriving DecidableEq, Repr

structure Label where
  now : ℤ
  event : Event
  deriving DecidableEq, Repr

/-- At this reading of the clock. -/
def Runtime.atTime (r : Runtime) (now : ℤ) : Runtime := { r with now := now }

/-- One task less. -/
def Runtime.without (r : Runtime) (i : ℕ) : Runtime := { r with tasks := r.tasks.eraseIdx i }

def step (l : Label) (r : Runtime) : Option Runtime :=
  match l.event with
  | .idle => some (r.atTime l.now)
  | .call c => some (call (r.atTime l.now) c)
  | .resume i answer =>
    (r.tasks[i]?).bind fun task => resumeTask ((r.atTime l.now).without i) task answer

/-- What a label can do. -/
inductive Step (l : Label) (r : Runtime) : Runtime → Prop
  | idle : l.event = .idle → Step l r (r.atTime l.now)
  | called (c : Call) : l.event = .call c → Step l r (call (r.atTime l.now) c)
  | resumed (i : ℕ) (answer : Answer) (task : Task) (r' : Runtime) :
      l.event = .resume i answer → r.tasks[i]? = some task →
      TaskStep ((r.atTime l.now).without i) task answer r' →
      Step l r r'

theorem step_step {l : Label} {r r' : Runtime} (h : step l r = some r') : Step l r r' := by
  unfold step at h
  split at h
  · next hevent =>
    cases h
    exact .idle hevent
  · next c hevent =>
    cases h
    exact .called c hevent
  · next i answer hevent =>
    obtain ⟨task, htask, hresume⟩ := Option.bind_eq_some_iff.1 h
    exact .resumed i answer task r' hevent htask (resumeTask_step hresume)

/-- The other tasks stay suspended. -/
theorem mem_eraseIdx_of_ne {tasks : List Task} {i : ℕ} {task other : Task}
    (htask : tasks[i]? = some task) (hother : other ∈ tasks) (hne : other ≠ task) :
    other ∈ tasks.eraseIdx i := by
  obtain ⟨j, hj⟩ := List.mem_iff_getElem?.1 hother
  refine List.mem_eraseIdx_iff_getElem?.2 ⟨j, ?_, hj⟩
  rintro rfl
  exact hne (Option.some.inj (hj.symm.trans htask))

end Maximal.Auth
