import Maximal.Auth.Token

/-!
# The online-retry loop

After a first mint that failed transiently, the loop mints again on a fixed cadence until it
succeeds or the GitHub credential is gone.

## Main definitions

- `scheduleCopilotOnlineRetry`, `resumeRetry`
-/

namespace Maximal.Auth

/-- The loop promise settles. -/
@[simp] def retryLoopEnded (r : Runtime) (controller : ℕ) : Runtime :=
  { r with
    retryController := if r.retryController = some controller then none else r.retryController }

/-- From the `while` guard to the next suspension. -/
def retryLoopHead (r : Runtime) (controller : ℕ) : Runtime × Async RetryPoint Unit :=
  if controller ∈ r.aborted ∨ r.githubToken = none then
    (retryLoopEnded r controller, .returned ())
  else (r, .suspended .waiting)

/-- The loop before has been stopped, and there is a controller for the next one. -/
@[simp] def retryScheduled (r : Runtime) : Runtime :=
  { r.stopCopilotOnlineRetry with retryController := some r.next, next := r.next + 1 }

def scheduleCopilotOnlineRetry (r : Runtime) (onOnline : Option (Option String)) : Runtime :=
  match retryLoopHead (retryScheduled r) r.next with
  | (r', .suspended point) => r'.spawn (.onlineRetry r.next onOnline point)
  | (r', .returned ()) => r'

/-- What scheduling a loop can do. -/
inductive ScheduleStep (r : Runtime) (onOnline : Option (Option String)) : Runtime → Prop
  | ended : ScheduleStep r onOnline (retryLoopEnded (retryScheduled r) r.next)
  | waiting : r.githubToken ≠ none →
      ScheduleStep r onOnline ((retryScheduled r).spawn (.onlineRetry r.next onOnline .waiting))

theorem scheduleCopilotOnlineRetry_step (r : Runtime) (onOnline : Option (Option String)) :
    ScheduleStep r onOnline (scheduleCopilotOnlineRetry r onOnline) := by
  unfold scheduleCopilotOnlineRetry retryLoopHead
  by_cases hstop : r.next ∈ (retryScheduled r).aborted ∨ (retryScheduled r).githubToken = none
  · rw [if_pos hstop]
    exact .ended
  · rw [if_neg hstop]
    exact .waiting (not_or.1 hstop).2

/-- Past a mint that did not fail. -/
def retryMinted (r : Runtime) (controller : ℕ) : Runtime × Async RetryPoint Unit :=
  if r.githubToken = none then
    -- A teardown landed while the mint was in flight: undo it.
    (retryLoopEnded { r.stopCopilotRefreshLoop with copilotToken := none } controller,
      .returned ())
  else (r, .suspended .caching)

def resumeRetry (controller : ℕ) (onOnline : Option (Option String)) (r : Runtime) :
    RetryPoint → Answer → Option (Runtime × Async RetryPoint Unit)
  | .waiting, .done =>
    if controller ∈ r.aborted ∨ r.githubToken = none then
      some (retryLoopEnded r controller, .returned ())
    else some (whileMinting (setupCopilotToken r))
  | .minting mint, answer => (resumeMint .degrade r mint answer).map whileMinting
  | .caching, .done | .caching, .failed _ =>
    match onOnline, r.userName with
    | none, _ => some (retryLoopEnded r controller, .returned ())
    | some avatarUrl, some login =>
      some (retryLoopEnded (r.markSignedIn login avatarUrl) controller, .returned ())
    | some _, none => some (retryLoopEnded r controller, .suspended .identifying)
  | .identifying, .user user =>
    some ((r.setUserName user.login).markSignedIn user.login user.avatarUrl, .returned ())
  | .identifying, .failed _ => some (r, .returned ())
  | _, _ => none
where
  whileMinting : Runtime × Async MintPoint (Except MintError Unit) → Runtime × Async RetryPoint Unit
    | (r, .suspended mint) => (r, .suspended (.minting mint))
    | (r, .returned (.ok ())) => retryMinted r controller
    | (r, .returned (.error (.authFatal _))) => (retryLoopEnded r controller, .returned ())
    | (r, .returned (.error (.other _))) => retryLoopHead r controller

/-- What an answer to the loop can do. -/
inductive RetryStep (controller : ℕ) (onOnline : Option (Option String)) (r : Runtime) :
    RetryPoint → Answer → Runtime → Async RetryPoint Unit → Prop
  | ended (point : RetryPoint) (answer : Answer) : (∀ mint, point ≠ .minting mint) →
      RetryStep controller onOnline r point answer (retryLoopEnded r controller) (.returned ())
  | sent (r' : Runtime) (mint : MintPoint) : SetupStep r r' (.suspended mint) →
      RetryStep controller onOnline r .waiting .done r' (.suspended (.minting mint))
  | taken (r₁ r' : Runtime) (out : Async RetryPoint Unit) : SetupStep r r₁ (.returned (.ok ())) →
      retryMinted r₁ controller = (r', out) →
      RetryStep controller onOnline r .waiting .done r' out
  | minting (mint mint' : MintPoint) (answer : Answer) (r' : Runtime) :
      MintStep .degrade r mint answer r' (.suspended mint') →
      RetryStep controller onOnline r (.minting mint) answer r' (.suspended (.minting mint'))
  | minted (mint : MintPoint) (answer : Answer) (r₁ r' : Runtime) (out : Async RetryPoint Unit) :
      MintStep .degrade r mint answer r₁ (.returned (.ok ())) →
      retryMinted r₁ controller = (r', out) →
      RetryStep controller onOnline r (.minting mint) answer r' out
  | rejected (mint : MintPoint) (answer : Answer) (error : CopilotAuthFatalError) (r' : Runtime) :
      MintStep .degrade r mint answer r' (.returned (.error (.authFatal error))) →
      RetryStep controller onOnline r (.minting mint) answer (retryLoopEnded r' controller)
        (.returned ())
  | failed (mint : MintPoint) (answer : Answer) (message : String) (r₁ r' : Runtime)
      (out : Async RetryPoint Unit) :
      MintStep .degrade r mint answer r₁ (.returned (.error (.other message))) →
      retryLoopHead r₁ controller = (r', out) →
      RetryStep controller onOnline r (.minting mint) answer r' out
  | online (answer : Answer) (login : String) (avatarUrl : Option String) :
      onOnline = some avatarUrl → r.userName = some login →
      RetryStep controller onOnline r .caching answer
        (retryLoopEnded (r.markSignedIn login avatarUrl) controller) (.returned ())
  | unnamed (answer : Answer) (avatarUrl : Option String) : onOnline = some avatarUrl →
      RetryStep controller onOnline r .caching answer (retryLoopEnded r controller)
        (.suspended .identifying)
  | identified (user : GitHubUser) :
      RetryStep controller onOnline r .identifying (.user user)
        ((r.setUserName user.login).markSignedIn user.login user.avatarUrl) (.returned ())
  | unidentified (message : String) :
      RetryStep controller onOnline r .identifying (.failed message) r (.returned ())

theorem resumeRetry_step {controller : ℕ} {onOnline : Option (Option String)} {r r' : Runtime}
    {point : RetryPoint} {answer : Answer} {out : Async RetryPoint Unit}
    (h : resumeRetry controller onOnline r point answer = some (r', out)) :
    RetryStep controller onOnline r point answer r' out := by
  have hcaching : ∀ answer, resumeRetry controller onOnline r .caching .done = some (r', out) →
      RetryStep controller onOnline r .caching answer r' out := by
    intro answer h
    unfold resumeRetry at h
    dsimp only at h
    split at h <;> cases h
    · exact .ended _ _ (by simp)
    · next hname => exact .online _ _ _ rfl hname
    · exact .unnamed _ _ rfl
  unfold resumeRetry at h
  split at h
  · split_ifs at h
    · cases h
      exact .ended _ _ (by simp)
    · rw [Option.some.injEq] at h
      rcases hsetup : setupCopilotToken r with ⟨r₁, mint | ⟨⟨error⟩ | _⟩ | _⟩ <;> rw [hsetup] at h
      · cases h
        exact .sent _ _ (setupCopilotToken_step hsetup)
      · cases setupCopilotToken_step hsetup
      · cases setupCopilotToken_step hsetup
      · exact .taken _ _ _ (setupCopilotToken_step hsetup) h
  · obtain ⟨⟨r₁, mint | ⟨⟨error⟩ | _⟩ | _⟩, hmint, hrun⟩ := Option.map_eq_some_iff.1 h
    · cases hrun
      exact .minting _ _ _ _ (resumeMint_step hmint)
    · cases hrun
      exact .rejected _ _ _ _ (resumeMint_step hmint)
    · exact .failed _ _ _ _ _ _ (resumeMint_step hmint) hrun
    · exact .minted _ _ _ _ _ (resumeMint_step hmint) hrun
  · exact hcaching _ h
  · exact hcaching _ h
  · cases h
    exact .identified _
  · cases h
    exact .unidentified _
  · cases h

end Maximal.Auth
