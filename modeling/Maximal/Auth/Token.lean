import Maximal.Auth.Runtime

/-!
# Copilot tokens

The exchange of the GitHub token for a Copilot bearer, the loop that refreshes the bearer, and the
synchronous part of a degrade, which both reach. A function `resumeX` runs `X` from a program point
to the next suspension; it is undefined for an answer that cannot come there.

## Main definitions

- `Answer` — what an `await` may give
- `resumeUpdate`
- `markAuthDegraded`
- `setupCopilotToken`, `resumeMint`
- `startCopilotRefreshLoop`, `resumeRefresh`
-/

namespace Maximal.Auth

inductive Answer where
  /-- A promise without a value is fulfilled, or a timer has elapsed. -/
  | done
  /-- A promise is rejected with an error of this message. -/
  | failed (message : String)
  | deviceCode (code : DeviceCodeResponse)
  | tokens (tokens : DeviceTokenResult)
  | user (user : GitHubUser)
  | minted (token : String) (refreshIn : ℕ)
  /-- Refused with this HTTP status. Without one it is 0. -/
  | refused (status : ℕ) (remediationUrl : Option String)
  /-- No response: the error is a transport failure. -/
  | unreachable (message : String)
  /-- The diagnosis of a transport failure, with the banner it leads to. -/
  | diagnosed (banner : Option NetworkBanner)
  deriving DecidableEq, Repr

/-! ## Registry updates -/

def resumeUpdate (update : RegistryUpdate) (r : Runtime) :
    UpdatePoint → Answer → Option (Runtime × Async UpdatePoint (Except String Unit))
  | .reading, .done => some (r, afterRead r.registry)
  -- An unreadable registry reads as an empty one.
  | .reading, .failed _ => some (r, afterRead emptyRegistry)
  | .writing next, .done => some ({ r with registry := next }, .returned (.ok ()))
  | .writing _, .failed message => some (r, .returned (.error message))
  | _, _ => none
where
  afterRead (reg : AccountRegistry) : Async UpdatePoint (Except String Unit) :=
    match update.apply reg with
    | some next => .suspended (.writing next)
    | none => .returned (.ok ())

/-- What reading the registry gives. -/
def registryRead (r : Runtime) : Answer → Option AccountRegistry
  | .done => some r.registry
  | .failed _ => some emptyRegistry
  | _ => none

/-- What an answer to a helper can do. -/
inductive UpdateStep (update : RegistryUpdate) (r : Runtime) :
    UpdatePoint → Answer → Runtime → Async UpdatePoint (Except String Unit) → Prop
  | read (answer : Answer) (reg next : AccountRegistry) : registryRead r answer = some reg →
      update.apply reg = some next →
      UpdateStep update r .reading answer r (.suspended (.writing next))
  | idle (answer : Answer) (reg : AccountRegistry) : registryRead r answer = some reg →
      update.apply reg = none →
      UpdateStep update r .reading answer r (.returned (.ok ()))
  | written (next : AccountRegistry) :
      UpdateStep update r (.writing next) .done { r with registry := next } (.returned (.ok ()))
  | failed (next : AccountRegistry) (message : String) :
      UpdateStep update r (.writing next) (.failed message) r (.returned (.error message))

theorem resumeUpdate_step {update : RegistryUpdate} {r r' : Runtime} {point : UpdatePoint}
    {answer : Answer} {out : Async UpdatePoint (Except String Unit)}
    (h : resumeUpdate update r point answer = some (r', out)) :
    UpdateStep update r point answer r' out := by
  have hread : ∀ answer reg, registryRead r answer = some reg →
      UpdateStep update r .reading answer r (resumeUpdate.afterRead update reg) := by
    intro answer reg hreg
    unfold resumeUpdate.afterRead
    split
    · next next hnext => exact .read _ _ next hreg hnext
    · next hnone => exact .idle _ _ hreg hnone
  unfold resumeUpdate at h
  split at h <;> cases h
  · exact hread _ _ rfl
  · exact hread _ _ rfl
  · exact .written _
  · exact .failed _ _

/-- An account that was added has been written. -/
theorem UpdateStep.written_of_addAccount {rec : AccountRecord} {r r' : Runtime}
    {point : UpdatePoint} {answer : Answer}
    (h : UpdateStep (.addAccount rec) r point answer r' (.returned (.ok ()))) :
    ∃ next, point = .writing next ∧ answer = .done ∧ r' = { r with registry := next } := by
  cases h with
  | idle answer reg hread hidle => cases hidle
  | written next => exact ⟨next, rfl, rfl, rfl⟩

/-- Does the helper return? -/
def UpdatePoint.returns (update : RegistryUpdate) (r : Runtime) : UpdatePoint → Answer → Bool
  | .reading, .done => (update.apply r.registry).isNone
  | .reading, .failed _ => (update.apply emptyRegistry).isNone
  | .writing _, _ => true
  | _, _ => false

/-- A helper that returns was ready to. -/
theorem UpdateStep.returns {update : RegistryUpdate} {r r' : Runtime} {point : UpdatePoint}
    {answer : Answer} {result : Except String Unit}
    (h : UpdateStep update r point answer r' (.returned result)) :
    point.returns update r answer = true := by
  cases h with
  | idle answer reg hread hidle =>
    cases answer <;> cases hread
    · exact Option.isNone_iff_eq_none.2 hidle
    · exact Option.isNone_iff_eq_none.2 hidle
  | written | failed => rfl

/-! ## Degrading -/

def RECOVERY_GRACE_MS : ℤ := 3000

/-- What a degrade stops and wipes before it is first suspended. -/
@[simp] def tearDown (r : Runtime) : Runtime :=
  r.abortCurrentFlow.stopCopilotRefreshLoop.stopCopilotOnlineRetry.clearTokenTrio

/-- A degrade that is suspended at its flag. -/
@[simp] def degradeStarted (r : Runtime) (error : CopilotAuthFatalError) : Runtime :=
  let update := .markActiveNeedsReauth ⟨some error.status, error.message, r.now⟩
  ({ tearDown r with degradeInFlight := some r.next, next := r.next + 1 } : Runtime).spawn
    (.degrade r.next error (.flagging update .reading))

/-- Is this error shown already? -/
def isShown (r : Runtime) (error : CopilotAuthFatalError) : Bool :=
  match r.authState with
  | .error shown => shown.message = error.message
  | _ => false

/-- `runDegrade`, up to its first suspension. -/
def runDegrade (r : Runtime) (error : CopilotAuthFatalError) : Runtime × Option ℕ :=
  if isShown r error then (tearDown r, none) else (degradeStarted r error, some r.next)

/-- Does `markAuthDegraded` pass its guards? -/
def degradesNow (r : Runtime) : Bool :=
  r.degradeInFlight.isNone && RECOVERY_GRACE_MS ≤ r.now - r.lastAuthSuccessMs

/-- The degrade that the returned promise waits for; `none` if it is fulfilled already. -/
def markAuthDegraded (r : Runtime) (error : CopilotAuthFatalError) : Runtime × Option ℕ :=
  match r.degradeInFlight with
  | some degrade => (r, some degrade)
  | none =>
    if r.now - r.lastAuthSuccessMs < RECOVERY_GRACE_MS then (r, none) else runDegrade r error

/-- What `markAuthDegraded` can do. -/
inductive DegradeStep (r : Runtime) (error : CopilotAuthFatalError) : Runtime → Option ℕ → Prop
  | joined (degrade : ℕ) : r.degradeInFlight = some degrade → DegradeStep r error r (some degrade)
  | skipped : r.degradeInFlight = none → r.now - r.lastAuthSuccessMs < RECOVERY_GRACE_MS →
      DegradeStep r error r none
  | repeated : r.degradeInFlight = none → isShown r error = true →
      RECOVERY_GRACE_MS ≤ r.now - r.lastAuthSuccessMs → DegradeStep r error (tearDown r) none
  | started : r.degradeInFlight = none → RECOVERY_GRACE_MS ≤ r.now - r.lastAuthSuccessMs →
      DegradeStep r error (degradeStarted r error) (some r.next)

theorem markAuthDegraded_step (r : Runtime) (error : CopilotAuthFatalError) :
    DegradeStep r error (markAuthDegraded r error).1 (markAuthDegraded r error).2 := by
  unfold markAuthDegraded
  cases hdegrade : r.degradeInFlight with
  | some degrade => exact .joined degrade hdegrade
  | none =>
    dsimp only
    split
    · next hgrace => exact .skipped hdegrade hgrace
    · next hgrace =>
      unfold runDegrade
      split
      · next hshown => exact .repeated hdegrade hshown (Int.not_lt.1 hgrace)
      · exact .started hdegrade (Int.not_lt.1 hgrace)

/-! ## Minting -/

def REFRESH_POLL_INTERVAL_MS : ℤ := 15000
def EARLY_REFRESH_BUFFER_MS : ℤ := 60000
def RETRY_REFRESH_DELAY_MS : ℤ := 15000
def MIN_REFRESH_DELAY_MS : ℤ := 1000
def maxFatalRefreshRetries : ℕ := 3

def getRefreshDeadlineMs (refreshIn : ℕ) (now : ℤ) : ℤ :=
  now + max (refreshIn * 1000 - EARLY_REFRESH_BUFFER_MS) MIN_REFRESH_DELAY_MS

def getRefreshPollDelayMs (refreshAtMs now : ℤ) : ℤ :=
  min (max (refreshAtMs - now) 0) REFRESH_POLL_INTERVAL_MS

/-- The error of `getCopilotToken` for a response 401 or 403. -/
def copilotRejection (r : Runtime) (status : ℕ) (remediationUrl : Option String) :
    CopilotAuthFatalError :=
  let who := r.userName.getD "your account"
  { message :=
      if status = 401 then
        "GitHub rejected " ++ who ++ "'s token — it may be expired or revoked. " ++
          "Run `gh auth login` and try again, or sign in with a code."
      else
        who ++ " doesn't have access to GitHub Copilot. " ++
          "Pick another account with an active Copilot subscription, or sign in with a code."
    remediationUrl := remediationUrl
    status := status }

def isAuthFatal (status : ℕ) : Bool := status = 401 || status = 403

/-- The loop starts with a wait: its first deadline is at least a second away. -/
@[simp] def startCopilotRefreshLoop (r : Runtime) (refreshIn : ℕ) : Runtime :=
  let task := .refreshLoop r.next (.waiting (getRefreshDeadlineMs refreshIn r.now) 0)
  ({ r with copilotRefreshLoopController := some r.next, next := r.next + 1 } : Runtime).spawn task

/-- The bearer has arrived: it is set, and a loop that keeps it fresh replaces the one before. -/
@[simp] def bearerMinted (r : Runtime) (bearer : Bearer) (refreshIn : ℕ) : Runtime :=
  startCopilotRefreshLoop
    ((r.setCopilotToken bearer).spawn (.clearActiveNeedsReauth .reading)).stopCopilotRefreshLoop
    refreshIn

/-- A `gho_` token is the bearer. -/
@[simp] def bearerTaken (r : Runtime) (token : String) : Runtime :=
  ((r.setCopilotToken ⟨token, some token⟩).spawn
    (.clearActiveNeedsReauth .reading)).stopCopilotRefreshLoop

def setupCopilotToken (r : Runtime) : Runtime × Async MintPoint (Except MintError Unit) :=
  match r.githubToken with
  | some token =>
    if inferTokenType token = .gho then (bearerTaken r token, .returned (.ok ()))
    else (r, .suspended (.minting (some token)))
  | none => (r, .suspended (.minting none))

def resumeMint (onAuthFatal : OnAuthFatal) (r : Runtime) :
    MintPoint → Answer → Option (Runtime × Async MintPoint (Except MintError Unit))
  | .minting sentWith, .minted token refreshIn =>
    some (bearerMinted r ⟨token, sentWith⟩ refreshIn, .returned (.ok ()))
  | .minting _, .refused status remediationUrl =>
    if isAuthFatal status then
      let error := copilotRejection r status remediationUrl
      match onAuthFatal with
      | .throw => some (r, .returned (.error (.authFatal error)))
      | .degrade =>
        match markAuthDegraded r error with
        | (r, none) => some (r, .returned (.error (.authFatal error)))
        | (r, some degrade) => some (r, .suspended (.degrading error degrade))
    else some (r, .returned (.error (.other "Failed to get Copilot token")))
  | .minting _, .failed message => some (r, .returned (.error (.other message)))
  | .minting _, .unreachable message => some (r, .suspended (.diagnosing message))
  | .degrading error degrade, .done =>
    if r.degradeInFlight = some degrade then none
    else some (r, .returned (.error (.authFatal error)))
  | .diagnosing message, .diagnosed _ | .diagnosing message, .done =>
    some (r, .returned (.error (.other message)))
  | _, _ => none

/-- What `setupCopilotToken` can do up to its first suspension. -/
inductive SetupStep (r : Runtime) :
    Runtime → Async MintPoint (Except MintError Unit) → Prop
  | taken (token : String) : r.githubToken = some token → inferTokenType token = .gho →
      SetupStep r (bearerTaken r token) (.returned (.ok ()))
  | sent : (∀ token, r.githubToken = some token → inferTokenType token ≠ .gho) →
      SetupStep r r (.suspended (.minting r.githubToken))

theorem setupCopilotToken_step {r r' : Runtime} {out : Async MintPoint (Except MintError Unit)}
    (h : setupCopilotToken r = (r', out)) : SetupStep r r' out := by
  unfold setupCopilotToken at h
  cases htoken : r.githubToken with
  | none =>
    rw [htoken] at h
    cases h
    have hsent : ∀ token, r.githubToken = some token → inferTokenType token ≠ .gho := by
      simp [htoken]
    exact htoken ▸ SetupStep.sent hsent
  | some token =>
    rw [htoken] at h
    dsimp only at h
    split at h <;> cases h
    · next hgho => exact .taken token htoken hgho
    · next hgho =>
      have hsent : ∀ token, r.githubToken = some token → inferTokenType token ≠ .gho := by
        simpa [htoken] using hgho
      exact htoken ▸ SetupStep.sent hsent

/-- Does the mint fail at once, with nothing to blame the account for? -/
def Answer.isTransient : Answer → Bool
  | .refused status _ => !isAuthFatal status
  | .failed _ => true
  | _ => false

/-- Does the answer reject the GitHub token? -/
def MintPoint.isRejected : MintPoint → Answer → Bool
  | .minting _, .refused status _ => isAuthFatal status
  | _, _ => false

/-- What an answer to `setupCopilotToken` can do. -/
inductive MintStep (onAuthFatal : OnAuthFatal) (r : Runtime) :
    MintPoint → Answer → Runtime → Async MintPoint (Except MintError Unit) → Prop
  | minted (sentWith : Option String) (token : String) (refreshIn : ℕ) :
      MintStep onAuthFatal r (.minting sentWith) (.minted token refreshIn)
        (bearerMinted r ⟨token, sentWith⟩ refreshIn) (.returned (.ok ()))
  | degraded (sentWith : Option String) (status : ℕ) (remediationUrl : Option String) (r' : Runtime)
      (degrade : Option ℕ) : onAuthFatal = .degrade → isAuthFatal status = true →
      DegradeStep r (copilotRejection r status remediationUrl) r' degrade →
      MintStep onAuthFatal r (.minting sentWith) (.refused status remediationUrl) r'
        (match degrade with
        | none => .returned (.error (.authFatal (copilotRejection r status remediationUrl)))
        | some degrade =>
          .suspended (.degrading (copilotRejection r status remediationUrl) degrade))
  | refused (sentWith : Option String) (status : ℕ) (remediationUrl : Option String) :
      onAuthFatal = .throw → isAuthFatal status = true →
      MintStep onAuthFatal r (.minting sentWith) (.refused status remediationUrl) r
        (.returned (.error (.authFatal (copilotRejection r status remediationUrl))))
  | failed (sentWith : Option String) (answer : Answer) (message : String) :
      answer.isTransient = true →
      MintStep onAuthFatal r (.minting sentWith) answer r (.returned (.error (.other message)))
  | unreachable (sentWith : Option String) (message : String) :
      MintStep onAuthFatal r (.minting sentWith) (.unreachable message) r
        (.suspended (.diagnosing message))
  | degradeOver (error : CopilotAuthFatalError) (degrade : ℕ) : r.degradeInFlight ≠ some degrade →
      MintStep onAuthFatal r (.degrading error degrade) .done r
        (.returned (.error (.authFatal error)))
  | diagnosed (message : String) (answer : Answer) :
      MintStep onAuthFatal r (.diagnosing message) answer r
        (.returned (.error (.other message)))

theorem resumeMint_step {onAuthFatal : OnAuthFatal} {r r' : Runtime} {point : MintPoint}
    {answer : Answer} {out : Async MintPoint (Except MintError Unit)}
    (h : resumeMint onAuthFatal r point answer = some (r', out)) :
    MintStep onAuthFatal r point answer r' out := by
  unfold resumeMint at h
  split at h
  · cases h
    exact .minted _ _ _
  · next sentWith status remediationUrl =>
    split at h
    · next hfatal =>
      dsimp only at h
      split at h
      · cases h
        exact .refused _ _ _ rfl hfatal
      · have hstep := markAuthDegraded_step r (copilotRejection r status remediationUrl)
        split at h <;> cases h <;> simp_all only
        · exact .degraded _ _ _ _ none rfl hfatal hstep
        · exact .degraded _ _ _ _ (some _) rfl hfatal hstep
    · next hstatus =>
      cases h
      exact .failed _ _ _ (by simpa [Answer.isTransient] using hstatus)
  · cases h
    exact .failed _ _ _ rfl
  · cases h
    exact .unreachable _ _
  · split at h <;> cases h
    next hdegrade => exact .degradeOver _ _ hdegrade
  · cases h
    exact .diagnosed _ _
  · cases h
    exact .diagnosed _ _
  · cases h

/-- A mint succeeds where the bearer arrives. -/
theorem MintStep.minted_of_ok {onAuthFatal : OnAuthFatal} {r r' : Runtime} {point : MintPoint}
    {answer : Answer} (h : MintStep onAuthFatal r point answer r' (.returned (.ok ()))) :
    ∃ sentWith token refreshIn, point = .minting sentWith ∧ answer = .minted token refreshIn ∧
      r' = bearerMinted r ⟨token, sentWith⟩ refreshIn := by
  generalize hout : Async.returned (Except.ok ()) = out at h
  cases h with
  | minted sentWith token refreshIn => exact ⟨sentWith, token, refreshIn, rfl, rfl, rfl⟩
  | degraded _ _ _ _ degrade => cases degrade <;> cases hout
  | refused | failed | unreachable | degradeOver | diagnosed => cases hout

/-- A `gho_` token is taken at once. -/
theorem SetupStep.taken_of_ok {r r' : Runtime} (h : SetupStep r r' (.returned (.ok ()))) :
    ∃ token, r.githubToken = some token ∧ inferTokenType token = .gho ∧
      r' = bearerTaken r token := by
  cases h with
  | taken token htoken hgho => exact ⟨token, htoken, hgho, rfl⟩

/-! ## Refreshing -/

/-- The loop promise settles. -/
@[simp] def refreshLoopEnded (r : Runtime) (controller : ℕ) : Runtime :=
  { r with
    copilotRefreshLoopController :=
      if r.copilotRefreshLoopController = some controller then none
      else r.copilotRefreshLoopController }

/-- From the `while` guard to the next suspension. -/
def refreshLoopHead (r : Runtime) (controller : ℕ) (refreshAtMs : ℤ) (fatalRetries : ℕ) :
    Runtime × Async RefreshPoint Unit :=
  if controller ∈ r.aborted then (refreshLoopEnded r controller, .returned ())
  else if getRefreshPollDelayMs refreshAtMs r.now > 0 then
    (r, .suspended (.waiting refreshAtMs fatalRetries))
  else (r, .suspended (.refreshing r.githubToken fatalRetries))

/-- Where the loop is next suspended. -/
inductive HeadStep (r : Runtime) (controller : ℕ) : Runtime → Async RefreshPoint Unit → Prop
  | ended : controller ∈ r.aborted →
      HeadStep r controller (refreshLoopEnded r controller) (.returned ())
  | waiting (refreshAtMs : ℤ) (fatalRetries : ℕ) :
      HeadStep r controller r (.suspended (.waiting refreshAtMs fatalRetries))
  | refreshing (fatalRetries : ℕ) :
      HeadStep r controller r (.suspended (.refreshing r.githubToken fatalRetries))

theorem refreshLoopHead_step (r : Runtime) (controller : ℕ) (refreshAtMs : ℤ) (fatalRetries : ℕ) :
    HeadStep r controller (refreshLoopHead r controller refreshAtMs fatalRetries).1
      (refreshLoopHead r controller refreshAtMs fatalRetries).2 := by
  unfold refreshLoopHead
  split
  · next haborted => exact .ended haborted
  · split
    · exact .waiting _ _
    · exact .refreshing _

/-- The bearer is replaced. -/
@[simp] def bearerRefreshed (r : Runtime) (bearer : Bearer) (fatalRetries : ℕ) : Runtime :=
  { r.setCopilotToken bearer with
    lastAuthSuccessMs := r.now
    networkDiagnosis := none
    tasks :=
      if fatalRetries > 0 then r.tasks ++ [.clearActiveNeedsReauth .reading] else r.tasks }

/-- The signal is not read between the answer of `getCopilotToken` and `setCopilotToken`. -/
def resumeRefresh (controller : ℕ) (r : Runtime) :
    RefreshPoint → Answer → Option (Runtime × Async RefreshPoint Unit)
  | .waiting refreshAtMs fatalRetries, .done =>
    some (refreshLoopHead r controller refreshAtMs fatalRetries)
  | .refreshing sentWith fatalRetries, .minted token refreshIn =>
    some (refreshLoopHead (bearerRefreshed r ⟨token, sentWith⟩ fatalRetries) controller
      (getRefreshDeadlineMs refreshIn r.now) 0)
  | .refreshing _ fatalRetries, .refused status remediationUrl =>
    if isAuthFatal status then
      if fatalRetries + 1 < maxFatalRefreshRetries then
        some (refreshLoopHead r controller (r.now + RETRY_REFRESH_DELAY_MS) (fatalRetries + 1))
      else
        let error := copilotRejection r status remediationUrl
        match markAuthDegraded { r with networkDiagnosis := none } error with
        | (r, none) => some (refreshLoopEnded r controller, .returned ())
        | (r, some degrade) => some (r, .suspended (.degrading degrade))
    else some (refreshLoopHead r controller (r.now + RETRY_REFRESH_DELAY_MS) fatalRetries)
  | .refreshing _ fatalRetries, .failed _ =>
    some (refreshLoopHead r controller (r.now + RETRY_REFRESH_DELAY_MS) fatalRetries)
  | .refreshing _ fatalRetries, .unreachable _ => some (r, .suspended (.diagnosing fatalRetries))
  | .diagnosing fatalRetries, .diagnosed banner =>
    some (refreshLoopHead { r with networkDiagnosis := banner } controller
      (r.now + RETRY_REFRESH_DELAY_MS) fatalRetries)
  -- The probe itself failed: the banner stays.
  | .diagnosing fatalRetries, .done =>
    some (refreshLoopHead r controller (r.now + RETRY_REFRESH_DELAY_MS) fatalRetries)
  | .degrading degrade, .done =>
    if r.degradeInFlight = some degrade then none
    else some (refreshLoopEnded r controller, .returned ())
  | _, _ => none

/-- Does the answer reject the GitHub token, with no retry left? -/
def RefreshPoint.isRejected : RefreshPoint → Answer → Bool
  | .refreshing _ fatalRetries, .refused status _ =>
    isAuthFatal status && maxFatalRefreshRetries ≤ fatalRetries + 1
  | _, _ => false

/-- What an answer to the loop can do. -/
inductive RefreshStep (controller : ℕ) (r : Runtime) :
    RefreshPoint → Answer → Runtime → Async RefreshPoint Unit → Prop
  | refreshed (sentWith : Option String) (fatalRetries : ℕ) (token : String) (refreshIn : ℕ)
      (r' : Runtime) (out : Async RefreshPoint Unit) :
      HeadStep (bearerRefreshed r ⟨token, sentWith⟩ fatalRetries) controller r' out →
      RefreshStep controller r (.refreshing sentWith fatalRetries) (.minted token refreshIn) r' out
  | continued (point : RefreshPoint) (answer : Answer) (banner : Option NetworkBanner)
      (r' : Runtime) (out : Async RefreshPoint Unit) :
      HeadStep { r with networkDiagnosis := banner } controller r' out →
      point.isRejected answer = false → RefreshStep controller r point answer r' out
  | degraded (sentWith : Option String) (fatalRetries status : ℕ) (remediationUrl : Option String)
      (r' : Runtime) (degrade : ℕ) :
      DegradeStep { r with networkDiagnosis := none } (copilotRejection r status remediationUrl) r'
        (some degrade) →
      (RefreshPoint.refreshing sentWith fatalRetries).isRejected
        (.refused status remediationUrl) = true →
      RefreshStep controller r (.refreshing sentWith fatalRetries) (.refused status remediationUrl)
        r' (.suspended (.degrading degrade))
  | stopped (sentWith : Option String) (fatalRetries status : ℕ) (remediationUrl : Option String)
      (r' : Runtime) :
      DegradeStep { r with networkDiagnosis := none } (copilotRejection r status remediationUrl) r'
        none →
      (RefreshPoint.refreshing sentWith fatalRetries).isRejected
        (.refused status remediationUrl) = true →
      RefreshStep controller r (.refreshing sentWith fatalRetries) (.refused status remediationUrl)
        (refreshLoopEnded r' controller) (.returned ())
  | unreachable (sentWith : Option String) (fatalRetries : ℕ) (message : String) :
      RefreshStep controller r (.refreshing sentWith fatalRetries) (.unreachable message) r
        (.suspended (.diagnosing fatalRetries))
  | degradeOver (degrade : ℕ) :
      RefreshStep controller r (.degrading degrade) .done (refreshLoopEnded r controller)
        (.returned ())

theorem resumeRefresh_step {controller : ℕ} {r r' : Runtime} {point : RefreshPoint}
    {answer : Answer} {out : Async RefreshPoint Unit}
    (h : resumeRefresh controller r point answer = some (r', out)) :
    RefreshStep controller r point answer r' out := by
  have hcontinued : ∀ point answer banner refreshAtMs fatalRetries,
      some (refreshLoopHead { r with networkDiagnosis := banner } controller refreshAtMs
        fatalRetries) = some (r', out) → point.isRejected answer = false →
      RefreshStep controller r point answer r' out := by
    intro point answer banner refreshAtMs fatalRetries hhead hrejected
    have hstep := refreshLoopHead_step { r with networkDiagnosis := banner } controller
      refreshAtMs fatalRetries
    rw [Option.some.inj hhead] at hstep
    exact .continued _ _ banner _ _ hstep hrejected
  unfold resumeRefresh at h
  split at h
  · exact hcontinued _ _ r.networkDiagnosis _ _ h rfl
  · next sentWith fatalRetries token refreshIn =>
    have hstep := refreshLoopHead_step (bearerRefreshed r ⟨token, sentWith⟩ fatalRetries) controller
      (getRefreshDeadlineMs refreshIn r.now) 0
    rw [Option.some.inj h] at hstep
    exact .refreshed _ _ _ _ _ _ hstep
  · next sentWith fatalRetries status remediationUrl =>
    split at h
    · next hfatal =>
      split at h
      · next hretries =>
        refine hcontinued _ _ r.networkDiagnosis _ _ h ?_
        simp [RefreshPoint.isRejected, hretries]
      · next hretries =>
        have hrejected : (RefreshPoint.refreshing sentWith fatalRetries).isRejected
            (.refused status remediationUrl) = true := by
          simp [RefreshPoint.isRejected, hfatal, Nat.not_lt.1 hretries]
        have hstep := markAuthDegraded_step { r with networkDiagnosis := none }
          (copilotRejection r status remediationUrl)
        dsimp only at h
        split at h <;> cases h <;> simp_all only
        · exact .stopped _ _ _ _ _ hstep hrejected
        · exact .degraded _ _ _ _ _ _ hstep hrejected
    · next hfatal =>
      refine hcontinued _ _ r.networkDiagnosis _ _ h ?_
      simp [RefreshPoint.isRejected, hfatal]
  · exact hcontinued _ _ r.networkDiagnosis _ _ h rfl
  · cases h
    exact .unreachable _ _ _
  · exact hcontinued _ _ _ _ _ h rfl
  · exact hcontinued _ _ r.networkDiagnosis _ _ h rfl
  · split at h <;> cases h
    exact .degradeOver _
  · cases h

end Maximal.Auth
