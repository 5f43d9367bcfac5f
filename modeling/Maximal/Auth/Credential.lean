import Maximal.Auth.FlowOutcome
import Maximal.Auth.Ownership
import Maximal.Auth.TokenWrites

/-!
# An identity that is shown has its token

The status takes the identity from the state alone: a session, or the session that an expired flow
was started over. The GitHub token is another variable. A switch, a degrade and a renewal write the
token first and set the state at their end; a flow restores the identity that it has captured,
whatever has become of the token.

## Main definitions

- `written` — a record of the login whose token was written last

## Main results

- `authenticated_owns_token` — where every such answer finds that the token of its identity was
  written last, what the status shows is the login of the token
- `not_authenticated_owns_token` — a flow that is started over a session restores it after a
  sign-out
-/

namespace Maximal.Auth

variable {owner : String → String} {r r' : Runtime} {answer : Answer}

/-- The identity that is shown as authenticated. -/
def identityShown (r : Runtime) : Option Identity :=
  match r.authState with
  | .signedIn identity => some identity
  | .deviceIssued flow => if r.isFlowExpired flow then flow.resume else none
  | .polling flow => if r.isFlowExpired flow then flow.resume else none
  | _ => none

theorem identityShown_of_authenticated {identity : Identity} {accountType : String}
    {sidecar : StatusSidecar} (h : getAuthStatus r = .authenticated identity accountType sidecar) :
    identityShown r = some identity := by
  unfold getAuthStatus at h
  unfold identityShown
  cases hstate : r.authState with
  | signedIn shown =>
    rw [hstate] at h
    cases h
    rfl
  | deviceIssued flow | polling flow =>
    rw [hstate] at h
    dsimp only at h ⊢
    split at h
    · next hexpired =>
      rw [if_pos hexpired]
      split at h <;> cases h
      assumption
    · cases h
  | signedOut | error =>
    rw [hstate] at h
    cases h

/-- Is there a GitHub token, and of this login? -/
def owns (owner : String → String) (r : Runtime) (login : Option String) : Bool :=
  r.githubToken.any fun token => some (owner token) = login

/-- Does the login of the identity that is shown have its token? -/
def backed (holds : Option String → Bool) (r : Runtime) : Bool :=
  (identityShown r).all fun identity => holds identity.login

/-- The session is as it was: the state, the GitHub token and the clock. -/
structure SameSession (r r' : Runtime) : Prop where
  authState : r'.authState = r.authState
  githubToken : r'.githubToken = r.githubToken
  now : r'.now = r.now

theorem SameSession.identityShown (h : SameSession r r') :
    identityShown r' = identityShown r := by
  unfold Auth.identityShown Runtime.isFlowExpired
  rw [h.authState, h.now]

theorem SameSession.owns (h : SameSession r r') : owns owner r' = owns owner r := by
  funext login
  rw [Auth.owns, Auth.owns, h.githubToken]

theorem SameSession.backed (h : SameSession r r') :
    Auth.backed (Auth.owns owner r') r' = Auth.backed (Auth.owns owner r) r := by
  simp only [Auth.backed, h.identityShown, h.owns]

theorem backed_of_none {holds : Option String → Bool} (h : identityShown r = none) :
    backed holds r = true := by
  rw [backed, h, Option.all_none]

theorem backed_of_signedIn {holds : Option String → Bool} {identity : Identity}
    (h : r.authState = .signedIn identity) (hholds : holds identity.login = true) :
    backed holds r = true := by
  have hshown : identityShown r = some identity := by rw [identityShown, h]
  rw [backed, hshown, Option.all_some]
  exact hholds

theorem owns_of_owned {rec : AccountRecord} (hrec : rec.Owned owner)
    (htoken : r.githubToken = some rec.token) : owns owner r rec.login = true := by
  rw [owns, htoken, Option.any_some]
  exact decide_eq_true (congrArg some hrec)

/-! ## Answers that show an identity without its token -/

/-- Does the mint fail for good? -/
def MintPoint.fails : MintPoint → Answer → Bool
  | .minting _, .minted _ _ => false
  | .minting _, .unreachable _ => false
  | _, _ => true

/-- Does the switch end without an account? -/
def SwitchPoint.givesUp : SwitchPoint → Answer → Bool
  | .minting mint, answer => mint.fails answer
  | .activating (.writing _), .failed _ => true
  | _, _ => false

section Conditions

-- Is this the login whose token was written last?
variable (holds : Option String → Bool)

/-- The switch ends with an account whose token is not the one that was written last. -/
def SwitchPoint.misattributes (rec : StoredRecord) : SwitchPoint → Bool
  | .refreshing => !holds rec.login
  | _ => false

def ActivatePoint.misattributes (r : Runtime) : ActivatePoint → Answer → Bool
  | .switching rec switch, answer =>
    switch.misattributes holds rec || switch.givesUp answer && !backed holds r
  | _, _ => false

def DegradePoint.misattributes : DegradePoint → Bool
  | .sweeping (.switching cand switch _) => switch.misattributes holds cand.2
  | _ => false

/-- Coming online shows the name of the user, if there is one. -/
def onlineBacked (r : Runtime) : Bool :=
  match r.userName with
  | some login => holds (some login)
  | none => backed holds r

def RearmPoint.misattributes (r : Runtime) : RearmPoint → Answer → Bool
  | .first (.minting _), .minted _ _ => !onlineBacked holds r
  | .second (.minting _), .minted _ _ => !onlineBacked holds r
  | .second mint, answer => mint.fails answer && !backed holds r
  | .persisting update point, answer =>
    point.returns update r answer && r.githubToken.any (inferTokenType · = .gho) &&
      !onlineBacked holds r
  | _, _ => false

/-- The identity that a flow restores does not have its token. -/
def resumeLost (resume : Option Identity) : Bool :=
  resume.any fun identity => !holds identity.login

def PollerPoint.misattributes (r : Runtime) (flow : ActiveFlow) : PollerPoint → Answer → Bool
  | .polling, .failed _ => flow.abort ∉ r.aborted && resumeLost holds flow.resume
  | .verifying _, .failed _ => flow.abort ∉ r.aborted && resumeLost holds flow.resume
  | .adding _ _ (.writing _), .failed _ => flow.abort ∉ r.aborted && resumeLost holds flow.resume
  -- The token is replaced while another account is shown.
  | .adding _ rec (.writing _), .done =>
    (identityShown r).any fun identity => identity.login ≠ some rec.login
  | .caching user _ _, _ => !holds (some user.login)
  | _, _ => false

def RetryPoint.misattributes (r : Runtime) (onOnline : Option (Option String)) :
    RetryPoint → Answer → Bool
  | .caching, _ => onOnline.isSome && r.userName.any fun login => !holds (some login)
  | .identifying, .user user => !holds (some user.login)
  | _, _ => false

def Task.misattributes (r : Runtime) : Task → Answer → Bool
  -- A code that has expired when it arrives.
  | .startDeviceFlow resume, .deviceCode code => code.expiresIn = 0 && resumeLost holds resume
  | .poller flow point, answer => point.misattributes holds r flow answer
  | .rearm point, answer => point.misattributes holds r answer
  | .degrade _ _ point, _ => point.misattributes holds
  | .activate _ point, answer => point.misattributes holds r answer
  | .onlineRetry _ onOnline point, answer => point.misattributes holds r onOnline answer
  | _, _ => false

end Conditions

/-! ## What the other answers leave -/

/-- Has the function wiped or replaced the token, with the state still to come? -/
def Task.unsettled : Task → Bool
  | .activate _ (.switching _ _) => true
  | .degrade _ _ _ => true
  | .rearm (.persisting _ _) => true
  | .rearm (.second _) => true
  | _ => false

def Secured (owner : String → String) (r : Runtime) : Prop :=
  backed (owns owner r) r = true ∨ ∃ task ∈ r.tasks, task.unsettled = true

theorem SameSession.secured (h : SameSession r r')
    (hr : Auth.backed (Auth.owns owner r) r = true) :
    Secured owner r' :=
  .inl (h.backed.trans hr)

theorem DegradeStep.secured {error : CopilotAuthFatalError} {degrade : Option ℕ}
    (h : DegradeStep r error r' degrade) (hr : backed (owns owner r) r = true) :
    Secured owner r' := by
  cases h with
  | joined | skipped => exact .inl hr
  | repeated _ hshown =>
    refine .inl (backed_of_none ?_)
    show identityShown (tearDown r) = none
    unfold isShown at hshown
    unfold identityShown
    dsimp only [tearDown, Runtime.abortCurrentFlow, Runtime.stopCopilotRefreshLoop,
      Runtime.stopCopilotOnlineRetry, Runtime.clearTokenTrio]
    split at hshown
    · next hstate => rw [hstate]
    · cases hshown
  | started => exact .inr ⟨_, List.mem_append_right _ List.mem_cons_self, rfl⟩

theorem SetupStep.sameSession {out : Async MintPoint (Except MintError Unit)}
    (h : SetupStep r r' out) : SameSession r r' := by
  cases h <;> exact ⟨rfl, rfl, rfl⟩

theorem UpdateStep.sameSession {update : RegistryUpdate} {point : UpdatePoint}
    {out : Async UpdatePoint (Except String Unit)} (h : UpdateStep update r point answer r' out) :
    SameSession r r' := by
  cases h <;> exact ⟨rfl, rfl, rfl⟩

theorem SignOutStep.sameSession {point : SignOutPoint} {out : Async SignOutPoint Unit}
    (h : SignOutStep r point answer r' out) : SameSession r r' := by
  cases h with
  | deactivating _ _ _ _ hupdate => exact hupdate.sameSession
  | deactivated _ _ _ _ hupdate => exact hupdate.sameSession
  | unlinked => exact ⟨rfl, rfl, rfl⟩

theorem MintStep.secured {onAuthFatal : OnAuthFatal} {point : MintPoint}
    {out : Async MintPoint (Except MintError Unit)} (h : MintStep onAuthFatal r point answer r' out)
    (hr : backed (owns owner r) r = true) : Secured owner r' := by
  cases h with
  | minted => exact SameSession.secured ⟨rfl, rfl, rfl⟩ hr
  | degraded _ _ _ _ _ _ _ hdegrade => exact hdegrade.secured hr
  | refused | failed | unreachable | degradeOver | diagnosed => exact .inl hr

/-- Without a degrade, a mint leaves the session. -/
theorem MintStep.sameSession {point : MintPoint} {out : Async MintPoint (Except MintError Unit)}
    (h : MintStep .throw r point answer r' out) : SameSession r r' := by
  cases h with
  | minted => exact ⟨rfl, rfl, rfl⟩
  | degraded _ _ _ _ _ hdegrade => cases hdegrade
  | refused | failed | unreachable | degradeOver | diagnosed => exact ⟨rfl, rfl, rfl⟩

theorem MintStep.fails {point : MintPoint} {error : MintError}
    (h : MintStep .throw r point answer r' (.returned (.error error))) :
    point.fails answer = true := by
  generalize hout : Async.returned (Except.error error) = out at h
  cases h with
  | minted => cases hout
  | unreachable => cases hout
  | degraded _ _ _ _ _ hdegrade => cases hdegrade
  | failed _ answer _ htransient => cases answer <;> first | rfl | cases htransient
  | refused | degradeOver | diagnosed => rfl

theorem HeadStep.sameSession {controller : ℕ} {out : Async RefreshPoint Unit}
    (h : HeadStep r controller r' out) : SameSession r r' := by
  cases h <;> exact ⟨rfl, rfl, rfl⟩

theorem Secured.of_eq (h : Secured owner r) (hsame : SameSession r r')
    (htasks : r'.tasks = r.tasks) : Secured owner r' := by
  rcases h with hr | ⟨task, hmem, hunsettled⟩
  · exact hsame.secured hr
  · exact .inr ⟨task, htasks ▸ hmem, hunsettled⟩

theorem RefreshStep.secured {controller : ℕ} {point : RefreshPoint}
    {out : Async RefreshPoint Unit} (h : RefreshStep controller r point answer r' out)
    (hr : backed (owns owner r) r = true) : Secured owner r' := by
  have hbanner : ∀ banner, SameSession r { r with networkDiagnosis := banner } := fun banner =>
    ⟨rfl, rfl, rfl⟩
  cases h with
  | refreshed sentWith fatalRetries token _ _ _ hhead =>
    have hrefreshed : SameSession r (bearerRefreshed r ⟨token, sentWith⟩ fatalRetries) :=
      ⟨rfl, rfl, rfl⟩
    exact hhead.sameSession.secured (hrefreshed.backed.trans hr)
  | continued _ _ banner _ _ hhead =>
    exact hhead.sameSession.secured ((hbanner banner).backed.trans hr)
  | degraded _ _ _ _ _ _ hdegrade => exact hdegrade.secured ((hbanner none).backed.trans hr)
  | stopped _ _ _ _ _ hdegrade =>
    exact (hdegrade.secured ((hbanner none).backed.trans hr)).of_eq ⟨rfl, rfl, rfl⟩ rfl
  | unreachable => exact .inl hr
  | degradeOver => exact SameSession.secured ⟨rfl, rfl, rfl⟩ hr

theorem ScheduleStep.sameSession {onOnline : Option (Option String)}
    (h : ScheduleStep r onOnline r') : SameSession r r' := by
  cases h <;> exact ⟨rfl, rfl, rfl⟩

theorem retryLoopHead_sameSession {controller : ℕ} {out : Async RetryPoint Unit}
    (h : retryLoopHead r controller = (r', out)) : SameSession r r' ∧ r'.tasks = r.tasks := by
  unfold retryLoopHead at h
  split at h <;> cases h <;> exact ⟨⟨rfl, rfl, rfl⟩, rfl⟩

theorem retryMinted_sameSession {controller : ℕ} {out : Async RetryPoint Unit}
    (h : retryMinted r controller = (r', out)) : SameSession r r' ∧ r'.tasks = r.tasks := by
  unfold retryMinted at h
  split at h <;> cases h <;> exact ⟨⟨rfl, rfl, rfl⟩, rfl⟩

theorem RetryStep.secured {controller : ℕ} {onOnline : Option (Option String)}
    {point : RetryPoint} {out : Async RetryPoint Unit}
    (h : RetryStep controller onOnline r point answer r' out)
    (hok : point.misattributes (owns owner r) r onOnline answer = false)
    (hr : backed (owns owner r) r = true) :
    Secured owner r' := by
  cases h with
  | ended | unnamed => exact SameSession.secured ⟨rfl, rfl, rfl⟩ hr
  | sent _ _ hsetup => exact hsetup.sameSession.secured hr
  | taken _ _ _ hsetup hminted =>
    obtain ⟨hsame, htasks⟩ := retryMinted_sameSession hminted
    exact (hsetup.sameSession.secured hr).of_eq hsame htasks
  | minting _ _ _ _ hmint => exact hmint.secured hr
  | minted _ _ _ _ _ hmint hminted =>
    obtain ⟨hsame, htasks⟩ := retryMinted_sameSession hminted
    exact (hmint.secured hr).of_eq hsame htasks
  | rejected _ _ _ _ hmint => exact (hmint.secured hr).of_eq ⟨rfl, rfl, rfl⟩ rfl
  | failed _ _ _ _ _ _ hmint hhead =>
    obtain ⟨hsame, htasks⟩ := retryLoopHead_sameSession hhead
    exact (hmint.secured hr).of_eq hsame htasks
  | online _ login _ honline hname =>
    have howns : owns owner r (some login) = true := by
      simpa [RetryPoint.misattributes, honline, hname] using hok
    exact .inl (backed_of_signedIn rfl howns)
  | identified user =>
    have howns : owns owner r (some user.login) = true := by
      simpa [RetryPoint.misattributes] using hok
    exact .inl (backed_of_signedIn rfl howns)
  | unidentified => exact .inl hr

/-! ### Switches -/

theorem SwitchStep.sameSession {key : AccountKey} {rec : StoredRecord} {point : SwitchPoint}
    {message : String} (h : SwitchStep key rec r point answer r' (.returned (.error message))) :
    SameSession r r' ∧ point.givesUp answer = true := by
  generalize hout : Async.returned (Except.error message) = out at h
  cases h with
  | rejected _ _ _ _ hmint => exact ⟨hmint.sameSession, hmint.fails⟩
  | unwritten _ _ _ _ hupdate =>
    refine ⟨hupdate.sameSession, ?_⟩
    cases hupdate
    rfl
  | minting | minted | activating | activated | finished => cases hout

/-- A switch that succeeds shows its account, whose token it has written at its start. -/
theorem SwitchStep.backed {key : AccountKey} {rec : StoredRecord} {point : SwitchPoint}
    (h : SwitchStep key rec r point answer r' (.returned (.ok ())))
    (hok : point.misattributes (owns owner r) rec = false) :
    Auth.backed (owns owner r') r' = true := by
  cases h
  have howns : owns owner r rec.login = true := by simpa [SwitchPoint.misattributes] using hok
  exact backed_of_signedIn rfl howns

/-- What a function leaves: an identity that has its token, or a point that is unsettled. -/
def Leaves {P R : Type} (owner : String → String) (task : P → Task) (r : Runtime)
    (out : Async P R) : Prop :=
  Secured owner r ∨ ∃ point, out = .suspended point ∧ (task point).unsettled = true

theorem ActivateStep.leaves {key : AccountKey} {point : ActivatePoint}
    {out : Async ActivatePoint ActivateResult} (h : ActivateStep key r point answer r' out)
    (hok : point.misattributes (owns owner r) r answer = false)
    (hr : backed (owns owner r) r = true ∨ (Task.activate key point).unsettled = true) :
    Leaves owner (.activate key) r' out := by
  cases h with
  | refused point _ _ _ hswitch =>
    refine .inl (.inl (hr.resolve_right ?_))
    cases point with
    | switching rec switch => exact absurd rfl (hswitch rec switch)
    | reading | preflight => simp [Task.unsettled]
  | found => exact .inl (.inl (hr.resolve_right (by simp [Task.unsettled])))
  | started => exact .inr ⟨_, rfl, rfl⟩
  | switching => exact .inr ⟨_, rfl, rfl⟩
  | activated rec switch _ _ hswitch =>
    have hfinished : switch.misattributes (owns owner r) rec = false := by
      simp only [ActivatePoint.misattributes, Bool.or_eq_false_iff] at hok
      exact hok.1
    exact .inl (.inl (hswitch.backed hfinished))
  | failed rec switch _ _ _ hswitch =>
    obtain ⟨hsame, hgivesUp⟩ := hswitch.sameSession
    have hbacked : backed (owns owner r) r = true := by
      simp only [ActivatePoint.misattributes, hgivesUp, Bool.or_eq_false_iff] at hok
      simpa using hok.2
    exact .inl (hsame.secured hbacked)

/-- A degrade that ends shows the error or the account that it has switched to. -/
theorem DegradeResume.leaves {id : ℕ} {error : CopilotAuthFatalError} {point : DegradePoint}
    {out : Async DegradePoint Unit} (h : DegradeResume error r point answer r' out)
    (hok : point.misattributes (owns owner r) = false) :
    Leaves owner (.degrade id error) r' out := by
  have hfailed : ∀ r, Secured owner (degradeFailed r error) := fun r => .inl (backed_of_none rfl)
  cases h with
  | flagging | sweepStarted | sweeping => exact .inr ⟨_, rfl, rfl⟩
  | flagged => exact .inl (hfailed _)
  | exhausted => exact .inl (hfailed _)
  | recovered sweep _ r₁ hsweep =>
    have hsame : SameSession r₁ (degradeEnded r₁) := ⟨rfl, rfl, rfl⟩
    cases hsweep with
    | read _ cands _ _ _ htry => cases cands <;> cases htry
    | flagged _ _ rest _ _ _ _ _ htry => cases rest <;> cases htry
    | recovered cand switch rest _ _ hswitch =>
      exact .inl (hsame.secured (hswitch.backed hok))

/-! ### Re-arming -/

theorem finishRearmOnline_backed (h : onlineBacked (owns owner r) r = true) :
    backed (owns owner (rearmEnded (finishRearmOnline r))) (rearmEnded (finishRearmOnline r)) =
      true := by
  unfold onlineBacked at h
  unfold finishRearmOnline
  cases hname : r.userName with
  | some login =>
    rw [hname] at h
    exact backed_of_signedIn rfl h
  | none =>
    rw [hname] at h
    exact SameSession.backed (r := r) ⟨rfl, rfl, rfl⟩ ▸ h

theorem SameSession.onlineBacked (h : SameSession r r') (hname : r'.userName = r.userName) :
    Auth.onlineBacked (Auth.owns owner r') r' = Auth.onlineBacked (Auth.owns owner r) r := by
  unfold Auth.onlineBacked
  rw [hname, h.backed, h.owns]

theorem RearmStep.leaves {point : RearmPoint} {out : Async RearmPoint RearmOutcome}
    (h : RearmStep r point answer r' out)
    (hok : point.misattributes (owns owner r) r answer = false)
    (hr : backed (owns owner r) r = true ∨ (Task.rearm point).unsettled = true) :
    Leaves owner .rearm r' out := by
  have hended : ∀ r, SameSession r (rearmEnded r) := fun r => ⟨rfl, rfl, rfl⟩
  have hsettled : (Task.rearm point).unsettled = false → backed (owns owner r) r = true := by
    intro hunsettled
    simpa [hunsettled] using hr
  cases h with
  | first _ _ _ _ hmint => exact .inl (hmint.sameSession.secured (hsettled rfl))
  | firstMinted _ _ _ hmint =>
    obtain ⟨sentWith, token, refreshIn, rfl, rfl, rfl⟩ := hmint.minted_of_ok
    have honline : onlineBacked (owns owner r) r = true := by
      simpa [RearmPoint.misattributes] using hok
    have hsame : SameSession r (bearerMinted r ⟨token, sentWith⟩ refreshIn) := ⟨rfl, rfl, rfl⟩
    exact .inl (.inl (finishRearmOnline_backed ((hsame.onlineBacked rfl).trans honline)))
  | firstRejected _ _ _ _ hmint => exact .inl (hmint.sameSession.secured (hsettled rfl))
  | firstFailed _ _ _ _ hmint =>
    exact .inl ((hended _).secured (hmint.sameSession.backed.trans (hsettled rfl)))
  | read => exact .inl (.inl (hsettled rfl))
  | noRefreshToken | notRenewed => exact .inl ((hended _).secured (hsettled rfl))
  | renewed | persisting | second => exact .inr ⟨_, rfl, rfl⟩
  | persisted => exact .inr ⟨_, rfl, rfl⟩
  | persistedTaken update point _ _ r₁ _ hupdate hsetup =>
    obtain ⟨token, htoken, hgho, rfl⟩ := hsetup.taken_of_ok
    have hsame : SameSession r (bearerTaken r₁ token) :=
      ⟨hupdate.sameSession.authState, hupdate.sameSession.githubToken, hupdate.sameSession.now⟩
    have hname : (bearerTaken r₁ token).userName = r.userName := by cases hupdate <;> rfl
    have htaken : r.githubToken = some token := hupdate.sameSession.githubToken ▸ htoken
    have honline : onlineBacked (owns owner r) r = true := by
      simpa [RearmPoint.misattributes, hupdate.returns, htaken, hgho] using hok
    exact .inl (.inl (finishRearmOnline_backed ((hsame.onlineBacked hname).trans honline)))
  | secondMinted _ _ _ hmint =>
    obtain ⟨sentWith, token, refreshIn, rfl, rfl, rfl⟩ := hmint.minted_of_ok
    have honline : onlineBacked (owns owner r) r = true := by
      simpa [RearmPoint.misattributes] using hok
    have hsame : SameSession r (bearerMinted r ⟨token, sentWith⟩ refreshIn) := ⟨rfl, rfl, rfl⟩
    exact .inl (.inl (finishRearmOnline_backed ((hsame.onlineBacked rfl).trans honline)))
  | secondFailed mint answer _ _ _ hmint =>
    have hfails := hmint.fails
    have hbacked : backed (owns owner r) r = true := by
      cases mint <;> cases answer <;> simp_all [RearmPoint.misattributes, MintPoint.fails]
    exact .inl ((hended _).secured (hmint.sameSession.backed.trans hbacked))

/-! ### Flows -/

theorem flowFailed_backed {flow : ActiveFlow} (message : String)
    (hr : backed (owns owner r) r = true)
    (hok : flow.abort ∉ r.aborted → resumeLost (owns owner r) flow.resume = false) :
    backed (owns owner (flowFailed r flow message)) (flowFailed r flow message) = true := by
  unfold flowFailed
  split
  · exact hr
  · next habort =>
    have hresume := hok habort
    unfold flowFailureState
    cases hidentity : flow.resume with
    | none => exact backed_of_none rfl
    | some identity =>
      have howns : owns owner r identity.login = true := by
        simpa [resumeLost, hidentity] using hresume
      exact backed_of_signedIn rfl howns

theorem pollerMinted_eq {flow : ActiveFlow} {user : GitHubUser} {rec : AccountRecord}
    {copilotMinted : Bool} {out : Async PollerPoint Unit}
    (h : pollerMinted r flow user rec copilotMinted = (r', out)) : r' = r := by
  unfold pollerMinted at h
  split at h <;> cases h <;> rfl

/-- A token that is committed under no identity, or under its own. -/
theorem committed_backed {rec : AccountRecord} (hrec : rec.Owned owner)
    (hok : (identityShown r).any (fun identity => identity.login ≠ some rec.login) = false) :
    backed (owns owner (r.setGithubToken rec.token)) (r.setGithubToken rec.token) = true := by
  have hshown : identityShown (r.setGithubToken rec.token) = identityShown r := rfl
  unfold backed
  rw [hshown]
  cases hidentity : identityShown r with
  | none => rfl
  | some identity =>
    have hlogin : identity.login = some rec.login := by simpa [hidentity] using hok
    rw [Option.all_some, hlogin]
    exact owns_of_owned hrec rfl

theorem PollerStep.secured {flow : ActiveFlow} {point : PollerPoint} {out : Async PollerPoint Unit}
    (h : PollerStep flow r point answer r' out) (hpoint : point.Owned owner)
    (hok : point.misattributes (owns owner r) r flow answer = false)
    (hr : backed (owns owner r) r = true) :
    Secured owner r' := by
  cases h with
  | abandoned | approved => exact .inl hr
  | unwanted | verified => exact SameSession.secured ⟨rfl, rfl, rfl⟩ hr
  | pollFailed message =>
    refine .inl (flowFailed_backed message hr fun habort => ?_)
    simpa [PollerPoint.misattributes, habort] using hok
  | unverified _ _ message =>
    refine .inl (flowFailed_backed message hr fun habort => ?_)
    simpa [PollerPoint.misattributes, habort] using hok
  | adding _ _ _ _ _ _ hupdate => exact hupdate.sameSession.secured hr
  | addFailed _ _ _ _ message _ hupdate =>
    cases hupdate
    refine .inl (flowFailed_backed message hr fun habort => ?_)
    simpa [PollerPoint.misattributes, habort] using hok
  | committed _ rec _ _ _ _ _ hupdate hsetup =>
    obtain ⟨next, rfl, rfl, rfl⟩ := hupdate.written_of_addAccount
    have hsame : SameSession (r.setGithubToken rec.token)
        (({ r with registry := next } : Runtime).setGithubToken rec.token) := ⟨rfl, rfl, rfl⟩
    exact hsetup.sameSession.secured (hsame.backed.trans (committed_backed hpoint.1.2 hok))
  | committedTaken _ rec _ _ _ _ _ _ hupdate hsetup hminted =>
    obtain ⟨next, rfl, rfl, rfl⟩ := hupdate.written_of_addAccount
    have hsame : SameSession (r.setGithubToken rec.token)
        (({ r with registry := next } : Runtime).setGithubToken rec.token) := ⟨rfl, rfl, rfl⟩
    rw [pollerMinted_eq hminted]
    exact hsetup.sameSession.secured (hsame.backed.trans (committed_backed hpoint.1.2 hok))
  | minting _ _ _ _ _ _ hmint => exact hmint.secured hr
  | minted _ _ _ _ _ _ _ hmint hminted =>
    rw [pollerMinted_eq hminted]
    exact hmint.secured hr
  | rejected _ _ _ _ _ _ hmint => exact hmint.secured hr
  | retried _ _ _ _ _ _ _ _ _ hmint hschedule hminted =>
    rw [pollerMinted_eq hminted]
    rcases hmint.secured hr with hr₁ | ⟨task, hmem, hunsettled⟩
    · exact hschedule.sameSession.secured hr₁
    · exact .inr ⟨task, hschedule.advances.tasks hmem, hunsettled⟩
  | finished user rec copilotMinted =>
    have howns : owns owner r (some user.login) = true := by
      simpa [PollerPoint.misattributes] using hok
    refine .inl (backed_of_signedIn rfl ?_)
    cases copilotMinted <;> exact howns

/-! ## Every run -/

theorem Leaves.settle {P R : Type} {task : P → Task} {out : Async P R}
    (h : Leaves owner task r out) : Secured owner (settle task (r, out)) := by
  rcases h with hr | ⟨point, rfl, hunsettled⟩
  · cases out with
    | suspended point =>
      rcases hr with hr | ⟨other, hmem, hunsettled⟩
      · exact SameSession.secured ⟨rfl, rfl, rfl⟩ hr
      · exact .inr ⟨other, List.mem_append_left _ hmem, hunsettled⟩
    | returned => exact hr
  · exact .inr ⟨task point, List.mem_append_right _ List.mem_cons_self, hunsettled⟩

theorem TaskStep.secured {task : Task} (h : TaskStep r task answer r') (htask : task.Owned owner)
    (hok : task.misattributes (owns owner r) r answer = false)
    (hr : backed (owns owner r) r = true ∨ task.unsettled = true) : Secured owner r' := by
  cases h with
  | installed resume code =>
    have hshown : identityShown (installFlow r resume code) =
        if decide (r.now + code.expiresIn * 1000 ≤ r.now) then resume else none := rfl
    refine .inl ?_
    unfold backed
    rw [hshown]
    split
    · next hexpired =>
      have hnow : code.expiresIn = 0 := by
        have hle := of_decide_eq_true hexpired
        omega
      cases resume with
      | none => rfl
      | some identity =>
        have howns : owns owner r identity.login = true := by
          simpa [Task.misattributes, resumeLost, hnow] using hok
        exact howns
    · rfl
  | notInstalled => exact .inl (hr.resolve_right (by simp [Task.unsettled]))
  | poller _ _ _ _ _ hstep =>
    have hr := hr.resolve_right (by simp [Task.unsettled])
    exact Leaves.settle (.inl (hstep.secured htask hok hr))
  | signOut _ _ _ _ hstep =>
    have hbacked := hr.resolve_right (by simp [Task.unsettled])
    exact Leaves.settle (.inl (hstep.sameSession.secured hbacked))
  | rearm _ _ _ _ hstep => exact (hstep.leaves hok hr).settle
  | degrade _ _ _ _ _ _ hstep => exact (hstep.leaves hok).settle
  | activate _ _ _ _ _ hstep => exact (hstep.leaves hok hr).settle
  | mint _ _ _ _ _ hstep =>
    have hr := hr.resolve_right (by simp [Task.unsettled])
    exact Leaves.settle (.inl (hstep.secured hr))
  | refresh _ _ _ _ _ hstep =>
    have hr := hr.resolve_right (by simp [Task.unsettled])
    exact Leaves.settle (.inl (hstep.secured hr))
  | retry _ _ _ _ _ _ hstep =>
    have hr := hr.resolve_right (by simp [Task.unsettled])
    exact Leaves.settle (.inl (hstep.secured hok hr))
  | cleared _ _ _ _ hstep =>
    have hr := hr.resolve_right (by simp [Task.unsettled])
    exact Leaves.settle (.inl (hstep.sameSession.secured hr))

/-- A flow has expired over an identity without its token. -/
def outlived (holds : Option String → Bool) (r : Runtime) : Bool :=
  r.currentFlow.any fun flow => r.isFlowExpired flow && resumeLost holds flow.resume

/-- Does a call restore an identity without its token? -/
def Call.misattributes (holds : Option String → Bool) (r : Runtime) : Call → Bool
  | .cancelDeviceFlow => r.currentFlow.any fun flow => resumeLost holds flow.resume
  | _ => false

/-- At this reading of the clock, and with no function left that is to set the state, an identity is
shown whose token is not the one that was written last. -/
def misattributes (l : Label) (r : Runtime) (holds : Option String → Bool) : Bool :=
  match l.event with
  | .idle => (r.tasks.all fun task => !task.unsettled) && outlived holds (r.atTime l.now)
  | .call c =>
    (r.tasks.all fun task => !task.unsettled) &&
      (outlived holds (r.atTime l.now) || c.misattributes holds (r.atTime l.now))
  | .resume i answer =>
    match r.tasks[i]? with
    | some task =>
      ((r.tasks.eraseIdx i).all fun task => !task.unsettled) &&
        (!task.unsettled && outlived holds (r.atTime l.now) ||
          task.misattributes holds (r.atTime l.now) answer)
    | none => false

theorem backed_atTime {now : ℤ} (hr : backed (owns owner r) r = true)
    (hok : outlived (owns owner r) (r.atTime now) = false) :
    backed (owns owner (r.atTime now)) (r.atTime now) = true := by
  have hflow : ∀ flow, r.currentFlow = some flow → identityShown (r.atTime now) =
      (if (r.atTime now).isFlowExpired flow then flow.resume else none) →
      backed (owns owner (r.atTime now)) (r.atTime now) = true := by
    intro flow hflow hshown
    have hcurrent : (r.atTime now).currentFlow = some flow := hflow
    unfold backed
    rw [hshown]
    split
    · next hexpired =>
      cases hresume : flow.resume with
      | none => rfl
      | some identity =>
        have howns : owns owner r identity.login = true := by
          simpa [outlived, hcurrent, hexpired, resumeLost, hresume] using hok
        exact howns
    · rfl
  cases hstate : r.authState with
  | signedIn identity =>
    have howns : owns owner r identity.login = true := by
      simpa [backed, identityShown, hstate] using hr
    exact backed_of_signedIn hstate howns
  | deviceIssued flow | polling flow =>
    exact hflow flow (by simp [Runtime.currentFlow, hstate])
      (by simp [identityShown, Runtime.atTime, hstate])
  | signedOut | error =>
    exact backed_of_none (by simp [identityShown, Runtime.atTime, hstate])

theorem call_secured {c : Call} (hr : backed (owns owner r) r = true)
    (hok : c.misattributes (owns owner r) r = false) : Secured owner (call r c) := by
  have hkept : ∀ r', SameSession r r' → Secured owner r' := fun r' hsame => hsame.secured hr
  cases c with
  | startDeviceFlow =>
    show Secured owner (startDeviceFlow r)
    unfold startDeviceFlow
    split
    · split
      · exact hkept _ ⟨rfl, rfl, rfl⟩
      · exact .inl hr
    · exact hkept _ ⟨rfl, rfl, rfl⟩
  | cancelDeviceFlow =>
    show Secured owner (cancelDeviceFlow r)
    unfold cancelDeviceFlow
    split
    · exact .inl hr
    · next flow hflow =>
      cases hresume : flow.resume with
      | none => exact .inl (backed_of_none rfl)
      | some identity =>
        have howns : owns owner r identity.login = true := by
          simpa [Call.misattributes, hflow, resumeLost, hresume] using hok
        exact .inl (backed_of_signedIn rfl howns)
  | signOut => exact .inl (backed_of_none rfl)
  | rearmCopilotAuth =>
    show Secured owner (rearmCopilotAuth r)
    unfold rearmCopilotAuth
    split
    · exact .inl hr
    · split
      · exact .inl hr
      · split
        · exact .inl hr
        · exact hkept _ ⟨rfl, rfl, rfl⟩
  | markAuthDegraded error => exact (markAuthDegraded_step r error).secured hr
  | activateAccountLive => exact hkept _ ⟨rfl, rfl, rfl⟩
  | setupCopilotToken onAuthFatal =>
    have hsetup : SameSession r (setupCopilotToken r).1 := (setupCopilotToken_step rfl).sameSession
    exact Leaves.settle (.inl (hsetup.secured hr))
  | scheduleCopilotOnlineRetry onOnline =>
    exact hkept _ (scheduleCopilotOnlineRetry_step r onOnline).sameSession

theorem Secured.step {l : Label} (h : Secured owner r) (howned : r.Owned owner)
    (hok : misattributes l r (owns owner r) = false) (hstep : step l r = some r') :
    Secured owner r' := by
  have hsettled : ∀ tasks : List Task, (¬ ∃ task ∈ tasks, task.unsettled = true) →
      (tasks.all fun task => !task.unsettled) = true := by
    intro tasks hnone
    simpa using hnone
  cases step_step hstep with
  | idle hevent =>
    rcases h with hr | hunsettled
    · by_cases hother : ∃ task ∈ r.tasks, task.unsettled = true
      · exact .inr hother
      · have houtlived : outlived (owns owner r) (r.atTime l.now) = false := by
          simpa [misattributes, hevent, hsettled _ hother] using hok
        exact .inl (backed_atTime hr houtlived)
    · exact .inr hunsettled
  | called c hevent =>
    by_cases hother : ∃ task ∈ r.tasks, task.unsettled = true
    · obtain ⟨task, hmem, hunsettled⟩ := hother
      exact .inr ⟨task, (call_advances (r.atTime l.now) c).tasks hmem, hunsettled⟩
    · have hcall : outlived (owns owner r) (r.atTime l.now) = false ∧
          c.misattributes (owns owner r) (r.atTime l.now) = false := by
        simpa [misattributes, hevent, hsettled _ hother] using hok
      exact call_secured (backed_atTime (h.resolve_right hother) hcall.1) hcall.2
  | resumed i answer task _ hevent htask hresume =>
    by_cases hother : ∃ other ∈ r.tasks.eraseIdx i, other.unsettled = true
    · -- Another function is to set the state.
      obtain ⟨other, hmem, hunsettled⟩ := hother
      exact .inr ⟨other, hresume.tasks_subset hmem, hunsettled⟩
    · have hlabel : (task.unsettled = false → outlived (owns owner r) (r.atTime l.now) = false) ∧
          task.misattributes (owns owner r) (r.atTime l.now) answer = false := by
        simpa [misattributes, hevent, htask, hsettled _ hother] using hok
      have hmisattributes :
          task.misattributes (owns owner r) ((r.atTime l.now).without i) answer = false := by
        cases task <;> exact hlabel.2
      refine hresume.secured (howned.tasks task (List.mem_of_getElem? htask)) hmisattributes ?_
      by_cases hunsettled : task.unsettled = true
      · exact .inr hunsettled
      · have hr : backed (owns owner r) r = true := by
          refine h.resolve_right ?_
          rintro ⟨other, hmem, hother'⟩
          have hne : other ≠ task := by
            rintro rfl
            exact hunsettled hother'
          exact hother ⟨other, mem_eraseIdx_of_ne htask hmem hne, hother'⟩
        have hnow := backed_atTime hr (hlabel.1 (Bool.eq_false_iff.2 hunsettled))
        exact .inl hnow

/-- Is the function one of the operations that are asked for, or a degrade? -/
def Task.isOperation : Task → Bool
  | .startDeviceFlow _ => true
  | .signOut _ => true
  | .activate _ _ => true
  | .degrade _ _ _ => true
  | .rearm _ => true
  | _ => false

theorem Task.isOperation_of_unsettled {task : Task} (h : task.unsettled = true) :
    task.isOperation = true := by
  cases task with
  | activate | degrade | rearm => rfl
  | _ => cases h

/-! ### The account whose token was written last -/

/-- The login of the account whose token was written last; none where it was wiped. -/
def written (l : Label) (r _ : Runtime) (login : Option String) : Option String :=
  (l.write? r).elim login TokenWrite.login

def isWritten (written login : Option String) : Bool := login.isSome && login = written

theorem owns_eq_isWritten (owner : String → String) (r : Runtime) :
    owns owner r = isWritten (r.githubToken.map owner) := by
  funext login
  unfold owns isWritten
  cases r.githubToken with
  | none => cases login <;> simp
  | some token => cases login <;> simp [eq_comm]

theorem eq_wiped_of_wipedIf {wiped : Bool} {write : TokenWrite} (h : wipedIf wiped = some write) :
    write = .wiped := by
  unfold wipedIf at h
  split at h <;> cases h
  rfl

theorem StoredRecord.Owned.write {rec : StoredRecord} (h : rec.Owned owner) :
    rec.write.token.map owner = rec.write.login := by
  cases rec with
  | account account => exact congrArg some (h account rfl)
  | bare => rfl

theorem SweepPoint.write?_owned {sweep : SweepPoint} {write : TokenWrite}
    (hsweep : sweep.Owned owner) (h : sweep.write? r answer = some write) :
    write.token.map owner = write.login := by
  unfold SweepPoint.write? at h
  split at h
  · next cand _ _ =>
    cases h
    exact (hsweep cand List.mem_cons_self).write
  · rw [eq_wiped_of_wipedIf h]
    rfl
  · cases h
    rfl
  · rw [eq_wiped_of_wipedIf h]
    rfl
  · cases h

/-- A function writes the token of the login that it names. -/
theorem Task.write?_owned {task : Task} {write : TokenWrite} (htask : task.Owned owner)
    (htruth : ∀ rec renewed, task = .rearm (.renewing rec) → answer = .tokens renewed →
      owner renewed.accessToken = rec.login)
    (h : task.write? r answer = some write) : write.token.map owner = write.login := by
  unfold Task.write? at h
  split at h
  · cases h
    exact congrArg some htask.1.2
  · next rec renewed =>
    cases h
    exact congrArg some (htruth rec renewed rfl rfl)
  · cases h
    exact StoredRecord.Owned.write htask
  · exact SweepPoint.write?_owned htask h
  · rw [eq_wiped_of_wipedIf h]
    rfl

theorem Label.write?_owned {l : Label} {write : TokenWrite} (hr : r.Owned owner)
    (htruth : truthful owner l r = true) (h : l.write? r = some write) :
    write.token.map owner = write.login := by
  unfold Label.write? at h
  split at h
  · cases h
  · next c _ =>
    cases c with
    | signOut =>
      cases h
      rfl
    | markAuthDegraded =>
      rw [eq_wiped_of_wipedIf h]
      rfl
    | _ => cases h
  · next i answer hevent =>
    obtain ⟨task, htask, hwrite⟩ := Option.bind_eq_some_iff.1 h
    refine Task.write?_owned (hr.tasks task (List.mem_of_getElem? htask)) ?_ hwrite
    rintro rec renewed rfl rfl
    simpa [truthful, hevent, htask] using htruth

/-- The owner of the token is the one that is recorded. -/
theorem written_step {l : Label} (hr : r.Owned owner) (htruth : truthful owner l r = true)
    (hstep : step l r = some r') :
    r'.githubToken.map owner = written l r r' (r.githubToken.map owner) := by
  rw [(step_tokens hstep).githubToken, written]
  cases hwrite : l.write? r with
  | none => rfl
  | some write => exact Label.write?_owned hr htruth hwrite

/-- Where no operation is suspended, the status shows a login as authenticated only while there is
a GitHub token of that login, in every run in which no answer, call or reading of the clock shows an
identity of another login than the one whose token was written last. -/
theorem authenticated_owns_token {labels : List Label} {r₀ r : Runtime}
    (howned : r₀.Owned owner) (hstart : backed (owns owner r₀) r₀ = true)
    (htruth : Runs.Meets step (fun l r => truthful owner l r = true) labels r₀)
    (hmeets : Runs.Meets (Runs.recorded step written)
      (fun l s => misattributes l s.1 (isWritten s.2) = false) labels
      (r₀, r₀.githubToken.map owner))
    (hrun : Runs.exec step labels r₀ = some r)
    (hquiet : ∀ task ∈ r.tasks, task.isOperation = false) {identity : Identity}
    {accountType : String} {sidecar : StatusSidecar}
    (hstatus : getAuthStatus r = .authenticated identity accountType sidecar) :
    ∃ token, r.githubToken = some token ∧ some (owner token) = identity.login := by
  obtain ⟨-, hinv, -⟩ :
      ∃ login, (r.Owned owner ∧ Secured owner r) ∧ r.githubToken.map owner = login := by
    refine Runs.recorded_invariant
      (I := fun r login => (r.Owned owner ∧ Secured owner r) ∧ r.githubToken.map owner = login) ?_
      (htruth.recorded.and hmeets) ⟨⟨howned, .inl hstart⟩, rfl⟩ hrun
    rintro l r r' _ ⟨⟨howned, hsecured⟩, rfl⟩ ⟨htruth, hok⟩ hstep
    dsimp only at hok
    rw [← owns_eq_isWritten] at hok
    exact ⟨⟨howned.step htruth hstep, hsecured.step howned hok hstep⟩,
      written_step howned htruth hstep⟩
  have hr : backed (owns owner r) r = true := by
    refine hinv.2.resolve_right ?_
    rintro ⟨task, hmem, hunsettled⟩
    have hoperation := Task.isOperation_of_unsettled hunsettled
    exact absurd (hoperation.symm.trans (hquiet task hmem)) (by simp)
  have hshown := identityShown_of_authenticated hstatus
  rw [backed, hshown, Option.all_some, owns, Option.any_eq_true] at hr
  obtain ⟨token, htoken, howner⟩ := hr
  exact ⟨token, htoken, of_decide_eq_true howner⟩

/-- The owners of two tokens. -/
def someOwner (token : String) : String :=
  if token = "ghu_bob" then "bob" else "alice"

theorem bootedSession_owned :
    (bootedSession "alice" "ghu_alice" "tid=alice" 1440000).Owned someOwner := by
  constructor
  · simp [bootedSession, AccountRegistry.Owned, emptyRegistry]
  · simp [bootedSession, Task.Owned]

theorem authenticated_owns_token_denied :
    ∃ r identity accountType sidecar,
      Runs.exec step denied (bootedSession "alice" "ghu_alice" "tid=alice" 1440000) = some r ∧
      getAuthStatus r = .authenticated identity accountType sidecar ∧
      ∃ token, r.githubToken = some token ∧ some (someOwner token) = identity.login := by
  have htruth : Runs.Meets step (fun l r => truthful someOwner l r = true) denied
      (bootedSession "alice" "ghu_alice" "tid=alice" 1440000) := by decide +kernel
  have hmeets : Runs.Meets (Runs.recorded step written)
      (fun l s => misattributes l s.1 (isWritten s.2) = false) denied
      (bootedSession "alice" "ghu_alice" "tid=alice" 1440000, some "alice") := by decide +kernel
  refine ⟨_, ⟨some "alice", none, some 0⟩, "individual", ⟨none, none⟩, rfl, rfl, ?_⟩
  exact authenticated_owns_token bootedSession_owned (by decide +kernel) htruth hmeets rfl
    (by decide +kernel) rfl

/-- A flow is asked for, the account is signed out before the code arrives, and the flow is
cancelled. -/
theorem not_authenticated_owns_token :
    ¬ ∀ (owner : String → String) (labels : List Label) (r₀ r : Runtime), r₀.Owned owner →
      backed (owns owner r₀) r₀ = true →
      Runs.Meets step (fun l r => truthful owner l r = true) labels r₀ →
      Runs.exec step labels r₀ = some r → (∀ task ∈ r.tasks, task.isOperation = false) →
      ∀ identity accountType sidecar,
        getAuthStatus r = .authenticated identity accountType sidecar →
        ∃ token, r.githubToken = some token ∧ some (owner token) = identity.login := by
  intro h
  obtain ⟨token, htoken, -⟩ := h someOwner
    [⟨29000, .call .startDeviceFlow⟩, ⟨29100, .call .signOut⟩, ⟨29110, .resume 2 .done⟩,
      ⟨29120, .resume 2 .done⟩, ⟨30000, .resume 1 (.deviceCode someCode)⟩,
      ⟨35000, .call .cancelDeviceFlow⟩]
    (bootedSession "alice" "ghu_alice" "tid=alice" 1440000) _ bootedSession_owned
    (by decide +kernel) (by decide +kernel) rfl (by decide +kernel) ⟨some "alice", none, some 0⟩
    "individual" ⟨none, none⟩ rfl
  cases htoken

end Maximal.Auth
