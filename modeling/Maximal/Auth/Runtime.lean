import Maximal.Auth.AccountRegistry

/-!
# The state of the auth modules

The variables of the auth modules, and the asynchronous functions that are suspended. A function
is suspended at an `await` that waits for the network, the disk, a timer or another function; where
it stands is a program point with the locals in scope. What runs between two such points runs
alone.

## Main definitions

- `AuthState`, `ActiveFlow`, `Bearer`
- `MintPoint`, `PollerPoint`, … — the program points of each function
- `Task` — a suspended function
- `Runtime` — the variables, the clock and the suspended functions
- `getAuthStatus`
-/

namespace Maximal.Auth

/-! ## Status -/

/-- The identity that a session shows, or that a flow falls back to (`ResumeTarget`). -/
structure Identity where
  /-- Undefined after a switch to what is no account. -/
  login : Option String
  avatarUrl : Option String := none
  connectedSinceMs : Option ℤ := none
  deriving DecidableEq, Repr

structure DeviceCodeResponse where
  deviceCode : String
  userCode : String
  verificationUri : String
  expiresIn : ℕ
  interval : ℕ
  deriving DecidableEq, Repr

/-- A device-code flow. Its `AbortController` is `abort`. -/
structure ActiveFlow where
  deviceCode : DeviceCodeResponse
  expiresAt : ℤ
  abort : ℕ
  resume : Option Identity
  deriving DecidableEq, Repr

structure ParsedCopilotError where
  message : String
  remediationUrl : Option String
  deriving DecidableEq, Repr

inductive AuthState where
  | signedOut
  | deviceIssued (flow : ActiveFlow)
  | polling (flow : ActiveFlow)
  | signedIn (identity : Identity)
  | error (error : ParsedCopilotError)
  deriving DecidableEq, Repr

structure CopilotAuthFatalError extends ParsedCopilotError where
  status : ℕ
  deriving DecidableEq, Repr

structure UpstreamRejection where
  message : String
  remediationUrl : Option String
  status : ℕ
  /-- The field `at`. -/
  time : ℤ
  deriving DecidableEq, Repr

structure NetworkBanner where
  kind : String
  scope : Option String
  deriving DecidableEq, Repr

/-- A Copilot bearer, with the GitHub token that the request which fetched it was sent with. A
`gho_` token used as a bearer is its own source. -/
structure Bearer where
  token : String
  mintedWith : Option String
  deriving DecidableEq, Repr

/-! ## Program points -/

/-- What a stretch between two suspensions ends in. -/
inductive Async (P R : Type) where
  | suspended (point : P)
  | returned (result : R)

/-- A helper that rewrites the registry. -/
inductive UpdatePoint where
  | reading
  | writing (next : AccountRegistry)
  deriving DecidableEq, Repr

inductive OnAuthFatal where
  | degrade | throw
  deriving DecidableEq, Repr

/-- `setupCopilotToken`. -/
inductive MintPoint where
  /-- `await getCopilotToken()`, with the GitHub token on the request. -/
  | minting (sentWith : Option String)
  /-- `await markAuthDegraded(error)`, which waits for this degrade. -/
  | degrading (error : CopilotAuthFatalError) (degrade : ℕ)
  /-- `await logRefreshFailure(…)`. -/
  | diagnosing (message : String)
  deriving DecidableEq, Repr

/-- How `setupCopilotToken` throws. -/
inductive MintError where
  | authFatal (error : CopilotAuthFatalError)
  | other (message : String)
  deriving DecidableEq, Repr

def MintError.message : MintError → String
  | .authFatal error => error.message
  | .other message => message

/-- `runCopilotRefreshLoop`. -/
inductive RefreshPoint where
  | waiting (refreshAtMs : ℤ) (fatalRetries : ℕ)
  | refreshing (sentWith : Option String) (fatalRetries : ℕ)
  | diagnosing (fatalRetries : ℕ)
  | degrading (degrade : ℕ)
  deriving DecidableEq, Repr

/-- `runOnlineRetryLoop`. -/
inductive RetryPoint where
  | waiting
  | minting (mint : MintPoint)
  | caching
  /-- The hook of the cold boot, which looks the login up first. -/
  | identifying
  deriving DecidableEq, Repr

/-- `switchActiveAccountLive`. -/
inductive SwitchPoint where
  | minting (mint : MintPoint)
  | activating (update : UpdatePoint)
  | refreshing
  deriving DecidableEq, Repr

/-- `activateAccountLive`. -/
inductive ActivatePoint where
  | reading
  /-- `await preflight(…)`, with the GitHub token on the request. -/
  | preflight (rec : StoredRecord) (sentWith : String)
  | switching (rec : StoredRecord) (switch : SwitchPoint)
  deriving DecidableEq, Repr

abbrev Candidate := AccountKey × StoredRecord

/-- `attemptAutoRecovery`. -/
inductive SweepPoint where
  | reading
  | preflight (cand : Candidate) (sentWith : String) (rest : List Candidate)
  | flagging (update : RegistryUpdate) (point : UpdatePoint) (rest : List Candidate)
  | switching (cand : Candidate) (switch : SwitchPoint) (rest : List Candidate)
  deriving DecidableEq, Repr

/-- `runDegrade`. -/
inductive DegradePoint where
  | flagging (update : RegistryUpdate) (point : UpdatePoint)
  | sweeping (sweep : SweepPoint)
  deriving DecidableEq, Repr

/-- `runRearm`; the last three before `second` are `renewGithubToken`. -/
inductive RearmPoint where
  | first (mint : MintPoint)
  | reading
  | renewing (rec : AccountRecord)
  | persisting (update : RegistryUpdate) (point : UpdatePoint)
  | second (mint : MintPoint)
  deriving DecidableEq, Repr

/-- The answer of `getGitHubUser`. -/
structure GitHubUser where
  login : String
  avatarUrl : Option String := none
  deriving DecidableEq, Repr

/-- `runPoller`. -/
inductive PollerPoint where
  | polling
  | verifying (tokens : DeviceTokenResult)
  | adding (user : GitHubUser) (rec : AccountRecord) (point : UpdatePoint)
  | minting (user : GitHubUser) (rec : AccountRecord) (mint : MintPoint)
  | caching (user : GitHubUser) (rec : AccountRecord) (copilotMinted : Bool)
  deriving DecidableEq, Repr

/-- `signOut`. -/
inductive SignOutPoint where
  | deactivating (point : UpdatePoint)
  | unlinking
  deriving DecidableEq, Repr

/-- A suspended function, with what identifies it. -/
inductive Task where
  | startDeviceFlow (resume : Option Identity)
  | poller (flow : ActiveFlow) (point : PollerPoint)
  | signOut (point : SignOutPoint)
  | rearm (point : RearmPoint)
  | degrade (id : ℕ) (error : CopilotAuthFatalError) (point : DegradePoint)
  | activate (key : AccountKey) (point : ActivatePoint)
  | setupCopilotToken (onAuthFatal : OnAuthFatal) (point : MintPoint)
  | refreshLoop (controller : ℕ) (point : RefreshPoint)
  /-- With the avatar that the cold boot looked up, where the cold boot scheduled the loop. -/
  | onlineRetry (controller : ℕ) (onOnline : Option (Option String)) (point : RetryPoint)
  | clearActiveNeedsReauth (point : UpdatePoint)
  deriving DecidableEq, Repr

/-! ## Variables -/

structure Runtime where
  /-- The last reading of the clock. -/
  now : ℤ
  githubToken : Option String := none
  userName : Option String := none
  copilotToken : Option Bearer := none
  accountType : String := "individual"
  lastUpstreamRejection : Option UpstreamRejection := none
  networkDiagnosis : Option NetworkBanner := none
  authState : AuthState := .signedOut
  copilotRefreshLoopController : Option ℕ := none
  retryController : Option ℕ := none
  /-- Is an auto-recovery sweep registered? -/
  autoRecover : Bool := false
  degradeInFlight : Option ℕ := none
  rearmInFlight : Bool := false
  lastAuthSuccessMs : ℤ := 0
  /-- The controllers whose `abort` was called. -/
  aborted : List ℕ := []
  /-- The name of the next controller or degrade. -/
  next : ℕ := 0
  /-- `currentGitHubHost()`. -/
  host : String := "github.com"
  /-- The contents of `accounts.json`. -/
  registry : AccountRegistry := emptyRegistry
  tasks : List Task := []
  deriving DecidableEq, Repr

namespace Runtime

@[simp] def spawn (r : Runtime) (task : Task) : Runtime := { r with tasks := r.tasks ++ [task] }

@[simp] def setGithubToken (r : Runtime) (token : Option String) : Runtime :=
  { r with githubToken := token }

@[simp] def setCopilotToken (r : Runtime) (bearer : Bearer) : Runtime :=
  { r with copilotToken := some bearer }

@[simp] def setUserName (r : Runtime) (name : Option String) : Runtime := { r with userName := name }

@[simp] def clearTokenTrio (r : Runtime) : Runtime :=
  { r with githubToken := none, copilotToken := none, userName := none }

@[simp] def setAuthState (r : Runtime) (next : AuthState) : Runtime := { r with authState := next }

@[simp] def abort (r : Runtime) (controller : ℕ) : Runtime :=
  { r with aborted := controller :: r.aborted }

/-- The active device-code flow, if the current state has one. -/
def currentFlow (r : Runtime) : Option ActiveFlow :=
  match r.authState with
  | .deviceIssued flow => some flow
  | .polling flow => some flow
  | _ => none

def isFlowExpired (r : Runtime) (flow : ActiveFlow) : Bool := flow.expiresAt ≤ r.now

/-- `currentFlow()?.abort.abort()`. -/
@[simp] def abortCurrentFlow (r : Runtime) : Runtime :=
  { r with aborted := (r.currentFlow.map (·.abort)).toList ++ r.aborted }

/-- Aborts the controller, if there is one. -/
@[simp] def stopCopilotRefreshLoop (r : Runtime) : Runtime :=
  { r with
    aborted := r.copilotRefreshLoopController.toList ++ r.aborted
    copilotRefreshLoopController := none }

/-- Aborts the controller, if there is one. -/
@[simp] def stopCopilotOnlineRetry (r : Runtime) : Runtime :=
  { r with aborted := r.retryController.toList ++ r.aborted, retryController := none }

@[simp] def noteAuthSuccess (r : Runtime) : Runtime := { r with lastAuthSuccessMs := r.now }

@[simp] def markSignedIn (r : Runtime) (login : Option String) (avatarUrl : Option String := none) :
    Runtime :=
  r.stopCopilotOnlineRetry.noteAuthSuccess.setAuthState
    (.signedIn { login := login, avatarUrl := avatarUrl, connectedSinceMs := some r.now })

end Runtime

/-! ## The reported status -/

/-- What `authenticated` and `unauthenticated` carry besides the identity. -/
structure StatusSidecar where
  lastUpstreamRejection : Option UpstreamRejection
  networkDiagnosis : Option NetworkBanner
  deriving DecidableEq, Repr

inductive AuthStatus where
  | unauthenticated (sidecar : StatusSidecar)
  | deviceCodeIssued (userCode verificationUri : String) (expiresAt : ℤ)
  | polling (userCode verificationUri : String) (expiresAt : ℤ)
  | authenticated (identity : Identity) (accountType : String) (sidecar : StatusSidecar)
  | error (error : ParsedCopilotError)
  deriving DecidableEq, Repr

def getAuthStatus (r : Runtime) : AuthStatus :=
  let sidecar : StatusSidecar := ⟨r.lastUpstreamRejection, r.networkDiagnosis⟩
  -- A stale flow shows the session it was started over, if there was one.
  let pending (flow : ActiveFlow) (status : String → String → ℤ → AuthStatus) : AuthStatus :=
    if r.isFlowExpired flow then
      match flow.resume with
      | some identity => .authenticated identity r.accountType sidecar
      | none => .unauthenticated sidecar
    else status flow.deviceCode.userCode flow.deviceCode.verificationUri flow.expiresAt
  match r.authState with
  | .signedIn identity => .authenticated identity r.accountType sidecar
  | .error error => .error error
  | .deviceIssued flow => pending flow .deviceCodeIssued
  | .polling flow => pending flow .polling
  | .signedOut => .unauthenticated sidecar

end Maximal.Auth
