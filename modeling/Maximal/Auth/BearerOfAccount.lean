import Maximal.Auth.FlowOutcome
import Maximal.Auth.Overtaken

/-!
# The bearer is the account's

A sign-in, a switch and a renewal write the GitHub token first and mint after it: until the mint is
answered, the bearer may be the one of the account before. A mint that fails leaves it there, and
an answer to a request that was overtaken brings it back.

## Main results

- `bearer_of_account` — without them, the bearer was minted with the current GitHub token
- `not_bearer_of_account` — a refresh that was sent before a sign-in and is answered after it
-/

namespace Maximal.Auth

variable {r r' : Runtime} {answer : Answer}

/-! ## A bearer on the way -/

/-- Has the GitHub token been written, with its bearer still to come? -/
def RearmPoint.mends : RearmPoint → Bool
  | .persisting _ _ => true
  | .second mint => mint.sent?.isSome
  | _ => false

def Task.mends : Task → Bool
  | .poller _ point => point.sent?.isSome
  | .rearm point => point.mends
  | .degrade _ _ point => point.sent?.isSome
  | .activate _ point => point.sent?.isSome
  | _ => false

/-- Is the function a sign-in, a switch or a re-arm? -/
def Task.changesAccount : Task → Bool
  | .startDeviceFlow _ => true
  | .poller _ _ => true
  | .rearm _ => true
  | .activate _ _ => true
  | .degrade _ _ (.sweeping (.switching _ _ _)) => true
  | _ => false

theorem Task.changesAccount_of_mends {task : Task} (h : task.mends = true) :
    task.changesAccount = true := by
  cases task with
  | degrade id error point =>
    cases point with
    | sweeping sweep => cases sweep <;> first | rfl | cases h
    | flagging => cases h
  | poller | rearm | activate => rfl
  | _ => cases h

/-- Does the degrade for this answer wipe the tokens? -/
def wipes (r : Runtime) : Answer → Bool
  | .refused status _ =>
    isAuthFatal status && r.degradeInFlight.isNone &&
      RECOVERY_GRACE_MS ≤ r.now - r.lastAuthSuccessMs
  | _ => false

/-! ## The functions, one by one -/

theorem DegradeStep.coherent {error : CopilotAuthFatalError} {degrade : Option ℕ}
    (h : DegradeStep r error r' degrade) (hr : Coherent r) : Coherent r' := by
  cases h with
  | joined | skipped => exact hr
  | repeated | started => exact coherent_of_none rfl

theorem DegradeStep.coherent_of_wipes {error : CopilotAuthFatalError} {degrade : Option ℕ}
    (h : DegradeStep r error r' degrade) (hwipes : wipes r answer = true) : Coherent r' := by
  cases answer with
  | refused status remediationUrl =>
    simp only [wipes, Bool.and_eq_true, decide_eq_true_eq, Option.isNone_iff_eq_none] at hwipes
    cases h with
    | joined degrade hjoined => exact absurd (hjoined.symm.trans hwipes.1.2) (by simp)
    | skipped _ hgrace => exact absurd hgrace (by omega)
    | repeated | started => exact coherent_of_none rfl
  | _ => cases hwipes

/-- Where nothing has been sent, no bearer is on its way. -/
theorem coherent_of_unsent {sent : Option (Option String)} {p : Prop}
    (hr : Coherent r ∨ sent.isSome = true ∧ p) (hsent : sent = none) : Coherent r := by
  obtain hr | ⟨hsome, -⟩ := hr
  · exact hr
  · rw [hsent] at hsome
    cases hsome

theorem SetupStep.coherent {out : Async MintPoint (Except MintError Unit)}
    (h : SetupStep r r' out) (hr : Coherent r) : Coherent r' := by
  cases h with
  | taken token htoken => exact coherent_of_minted rfl htoken.symm
  | sent => exact hr

/-- The bearer that arrives is the one that was asked for with the current token; where it does
not arrive, the bearer before was, or the tokens are wiped. -/
theorem MintStep.coherent {onAuthFatal : OnAuthFatal} {point : MintPoint}
    {out : Async MintPoint (Except MintError Unit)} (h : MintStep onAuthFatal r point answer r' out)
    (hfresh : ∀ sentWith ∈ point.sent?, answer.isMinted = true → sentWith = r.githubToken)
    (hr : Coherent r ∨ point.sent?.isSome = true ∧
      (answer.isMinted = true ∨ onAuthFatal = .degrade ∧ wipes r answer = true)) :
    Coherent r' := by
  cases h with
  | minted sentWith token refreshIn => exact coherent_of_minted rfl (hfresh sentWith rfl rfl)
  | degraded _ _ _ _ _ _ _ hdegrade =>
    rcases hr with hr | ⟨-, hminted | ⟨-, hwipes⟩⟩
    · exact hdegrade.coherent hr
    · cases hminted
    · exact hdegrade.coherent_of_wipes hwipes
  | refused _ _ _ hthrow =>
    rcases hr with hr | ⟨-, hminted | ⟨hdegrade, -⟩⟩
    · exact hr
    · cases hminted
    · cases hthrow.symm.trans hdegrade
  | failed _ answer _ htransient =>
    rcases hr with hr | ⟨-, hminted | ⟨-, hwipes⟩⟩
    · exact hr
    · cases answer <;> simp_all [Answer.isMinted, Answer.isTransient]
    · cases answer with
      | refused status =>
        have hstatus : isAuthFatal status = false := by simpa [Answer.isTransient] using htransient
        simp [wipes, hstatus] at hwipes
      | _ => cases hwipes
  | unreachable =>
    rcases hr with hr | ⟨-, hminted | ⟨-, hwipes⟩⟩
    · exact hr
    · cases hminted
    · cases hwipes
  | degradeOver | diagnosed =>
    rcases hr with hr | ⟨hsent, -⟩
    · exact hr
    · cases hsent

theorem MintStep.ok_of_isMinted {onAuthFatal : OnAuthFatal} {point : MintPoint}
    {out : Async MintPoint (Except MintError Unit)} (h : MintStep onAuthFatal r point answer r' out)
    {sentWith : Option String} (hsent : sentWith ∈ point.sent?) (hminted : answer.isMinted = true) :
    out = .returned (.ok ()) := by
  cases h with
  | minted => rfl
  | failed _ answer _ htransient => cases answer <;> simp_all [Answer.isMinted, Answer.isTransient]
  | degraded | refused | unreachable => cases hminted
  | degradeOver | diagnosed => cases hsent

/-- No bearer has arrived. -/
theorem MintStep.coherent_of_not_ok {onAuthFatal : OnAuthFatal} {point : MintPoint}
    {out : Async MintPoint (Except MintError Unit)} (h : MintStep onAuthFatal r point answer r' out)
    (hout : out ≠ .returned (.ok ())) (hr : Coherent r) : Coherent r' :=
  h.coherent (fun _ hsent hminted => absurd (h.ok_of_isMinted hsent hminted) hout) (.inl hr)

theorem UpdateStep.coherent {update : RegistryUpdate} {point : UpdatePoint}
    {out : Async UpdatePoint (Except String Unit)}
    (h : UpdateStep update r point answer r' out) (hr : Coherent r) : Coherent r' := by
  cases h with
  | read | idle | failed => exact hr
  | written => exact hr.of_eq rfl rfl

theorem HeadStep.coherent {controller : ℕ} {out : Async RefreshPoint Unit}
    (h : HeadStep r controller r' out) (hr : Coherent r) : Coherent r' := by
  cases h with
  | ended => exact hr.of_eq rfl rfl
  | waiting | refreshing => exact hr

theorem RefreshStep.coherent {controller : ℕ} {point : RefreshPoint}
    {out : Async RefreshPoint Unit} (h : RefreshStep controller r point answer r' out)
    (hfresh : ∀ sentWith ∈ point.sent?, answer.isMinted = true → sentWith = r.githubToken)
    (hr : Coherent r) : Coherent r' := by
  cases h with
  | refreshed sentWith fatalRetries token _ _ _ hhead =>
    exact hhead.coherent (coherent_of_minted rfl (hfresh sentWith rfl rfl))
  | continued _ _ _ _ _ hhead => exact hhead.coherent (hr.of_eq rfl rfl)
  | degraded _ _ _ _ _ _ hdegrade => exact hdegrade.coherent (hr.of_eq rfl rfl)
  | stopped _ _ _ _ _ hdegrade =>
    exact (hdegrade.coherent (hr.of_eq rfl rfl)).of_eq rfl rfl
  | unreachable => exact hr
  | degradeOver => exact hr.of_eq rfl rfl

theorem retryLoopHead_coherent {controller : ℕ} {out : Async RetryPoint Unit} (hr : Coherent r)
    (h : retryLoopHead r controller = (r', out)) : Coherent r' := by
  unfold retryLoopHead at h
  split at h <;> cases h
  · exact hr.of_eq rfl rfl
  · exact hr

theorem ScheduleStep.coherent {onOnline : Option (Option String)}
    (h : ScheduleStep r onOnline r') (hr : Coherent r) : Coherent r' := by
  cases h with
  | ended | waiting => exact hr.of_eq rfl rfl

/-- Where the GitHub token is gone, the mint is undone. -/
theorem retryMinted_coherent {controller : ℕ} {out : Async RetryPoint Unit}
    (hr : r.githubToken ≠ none → Coherent r) (h : retryMinted r controller = (r', out)) :
    Coherent r' := by
  unfold retryMinted at h
  split at h <;> cases h
  · exact coherent_of_none rfl
  · next htoken => exact hr htoken

theorem RetryStep.coherent {controller : ℕ} {onOnline : Option (Option String)}
    {point : RetryPoint} {out : Async RetryPoint Unit}
    (h : RetryStep controller onOnline r point answer r' out)
    (hfresh : ∀ sentWith ∈ point.sent?, answer.isMinted = true → r.githubToken ≠ none →
      sentWith = r.githubToken)
    (hr : Coherent r) : Coherent r' := by
  cases h with
  | ended | unnamed => exact hr.of_eq rfl rfl
  | sent _ _ hsetup => exact hsetup.coherent hr
  | taken _ _ _ hsetup hminted => exact retryMinted_coherent (fun _ => hsetup.coherent hr) hminted
  | minting _ _ _ _ hmint => exact hmint.coherent_of_not_ok (by simp) hr
  | minted _ _ _ _ _ hmint hminted =>
    obtain ⟨sentWith, token, refreshIn, rfl, rfl, rfl⟩ := hmint.minted_of_ok
    refine retryMinted_coherent (fun htoken => ?_) hminted
    exact coherent_of_minted rfl (hfresh sentWith rfl rfl htoken)
  | rejected _ _ _ _ hmint => exact (hmint.coherent_of_not_ok (by simp) hr).of_eq rfl rfl
  | failed _ _ _ _ _ _ hmint hhead =>
    exact retryLoopHead_coherent (hmint.coherent_of_not_ok (by simp) hr) hhead
  | online | identified => exact hr.of_eq rfl rfl
  | unidentified => exact hr

/-- The switch has sent its mint, or taken its bearer. -/
theorem SwitchStart.mended {rec : StoredRecord} {switch : SwitchPoint}
    (h : SwitchStart r rec r' (.suspended switch)) :
    Coherent r' ∨ switch.sent?.isSome = true := by
  cases h with
  | sent mint hsetup =>
    cases hsetup
    exact .inr rfl
  | taken hsetup =>
    obtain ⟨token, htoken, -, rfl⟩ := hsetup.taken_of_ok
    exact .inl (coherent_of_minted rfl htoken.symm)

theorem SwitchStep.coherent {key : AccountKey} {rec : StoredRecord} {point : SwitchPoint}
    {out : Async SwitchPoint (Except String Unit)}
    (h : SwitchStep key rec r point answer r' out)
    (hfresh : ∀ sentWith ∈ point.sent?, answer.isMinted = true → sentWith = r.githubToken)
    (hr : Coherent r ∨ point.sent?.isSome = true ∧ answer.isMinted = true) : Coherent r' := by
  have hmint : Coherent r ∨ point.sent?.isSome = true ∧
      (answer.isMinted = true ∨ OnAuthFatal.throw = .degrade ∧ wipes r answer = true) :=
    hr.imp_right fun hr => ⟨hr.1, .inl hr.2⟩
  have hsent : point.sent? = none → Coherent r := coherent_of_unsent hr
  cases h with
  | minting _ _ _ _ hstep => exact hstep.coherent hfresh hmint
  | minted _ _ _ hstep => exact hstep.coherent hfresh hmint
  | rejected _ _ _ _ hstep => exact hstep.coherent hfresh hmint
  | activating _ _ _ _ hupdate => exact hupdate.coherent (hsent rfl)
  | activated _ _ _ hupdate => exact hupdate.coherent (hsent rfl)
  | unwritten _ _ _ _ hupdate => exact hupdate.coherent (hsent rfl)
  | finished => exact (hsent rfl).of_eq rfl rfl

/-- What a function leaves: a bearer of the current token, or a point that awaits it. -/
def Mended {P R : Type} (mends : P → Bool) (r : Runtime) (out : Async P R) : Prop :=
  Coherent r ∨ ∃ point, out = .suspended point ∧ mends point = true

theorem ActivateStep.mended {key : AccountKey} {point : ActivatePoint}
    {out : Async ActivatePoint ActivateResult}
    (h : ActivateStep key r point answer r' out)
    (hfresh : ∀ sentWith ∈ point.sent?, answer.isMinted = true → sentWith = r.githubToken)
    (hr : Coherent r ∨ point.sent?.isSome = true ∧ answer.isMinted = true) :
    Mended (·.sent?.isSome) r' out := by
  have hsent : point.sent? = none → Coherent r := coherent_of_unsent hr
  cases h with
  | refused point _ _ _ hpoint =>
    refine .inl (hsent ?_)
    cases point with
    | switching rec switch => exact absurd rfl (hpoint rec switch)
    | reading | preflight => rfl
  | found => exact .inl (hsent rfl)
  | started rec _ _ switch hstart => exact hstart.mended.imp_right fun hsent => ⟨_, rfl, hsent⟩
  | switching _ _ _ _ _ hswitch => exact .inl (hswitch.coherent hfresh hr)
  | activated _ _ _ _ hswitch => exact .inl (hswitch.coherent hfresh hr)
  | failed _ _ _ _ _ hswitch => exact .inl (hswitch.coherent hfresh hr)

theorem TryStep.coherent {cands : List Candidate} {out : Async SweepPoint SweepResult}
    (h : TryStep r cands r' out) (hr : Coherent r) : Coherent r' := by
  cases h with
  | exhausted => exact coherent_of_none rfl
  | sent | unsent => exact hr

theorem SweepStep.mended {point : SweepPoint} {out : Async SweepPoint SweepResult}
    (h : SweepStep r point answer r' out)
    (hfresh : ∀ sentWith ∈ point.sent?, answer.isMinted = true → sentWith = r.githubToken)
    (hr : Coherent r ∨ point.sent?.isSome = true ∧ answer.isMinted = true) :
    Mended (·.sent?.isSome) r' out := by
  have hsent : point.sent? = none → Coherent r := coherent_of_unsent hr
  cases h with
  | read _ _ _ _ _ htry => exact .inl (htry.coherent (hsent rfl))
  | started cand _ rest _ switch hstart =>
    exact hstart.mended.imp_right fun hsent => ⟨_, rfl, hsent⟩
  | refused => exact .inl (hsent rfl)
  | flagging _ _ _ _ _ _ hupdate => exact .inl (hupdate.coherent (hsent rfl))
  | flagged _ _ _ _ _ _ _ hupdate htry =>
    exact .inl (htry.coherent (hupdate.coherent (hsent rfl)))
  | threw _ _ _ _ _ _ hupdate => exact .inl (hupdate.coherent (hsent rfl))
  | switching _ _ _ _ _ _ hswitch => exact .inl (hswitch.coherent hfresh hr)
  | recovered _ _ _ _ _ hswitch => exact .inl (hswitch.coherent hfresh hr)
  | failed _ _ _ _ _ _ hswitch => exact .inl (hswitch.coherent hfresh hr)

theorem DegradeResume.mended {error : CopilotAuthFatalError} {point : DegradePoint}
    {out : Async DegradePoint Unit} (h : DegradeResume error r point answer r' out)
    (hfresh : ∀ sentWith ∈ point.sent?, answer.isMinted = true → sentWith = r.githubToken)
    (hr : Coherent r ∨ point.sent?.isSome = true ∧ answer.isMinted = true) :
    Mended (·.sent?.isSome) r' out := by
  have hsent : point.sent? = none → Coherent r := coherent_of_unsent hr
  cases h with
  | flagging _ _ _ _ _ hupdate => exact .inl (hupdate.coherent (hsent rfl))
  | sweepStarted _ _ _ _ _ hupdate => exact .inl (hupdate.coherent (hsent rfl))
  | flagged _ _ _ _ _ hupdate => exact .inl ((hupdate.coherent (hsent rfl)).of_eq rfl rfl)
  | sweeping sweep sweep' _ _ hsweep =>
    refine (hsweep.mended hfresh hr).imp_right ?_
    rintro ⟨next, hnext, hsent⟩
    cases hnext
    exact ⟨_, rfl, hsent⟩
  | recovered _ _ _ hsweep | exhausted _ _ _ _ hsweep =>
    rcases hsweep.mended hfresh hr with hr | ⟨next, hnext, -⟩
    · exact .inl (hr.of_eq rfl rfl)
    · cases hnext

theorem finishRearmOnline_coherent (hr : Coherent r) : Coherent (finishRearmOnline r) := by
  unfold finishRearmOnline
  split <;> exact hr.of_eq rfl rfl

theorem RearmStep.mended {point : RearmPoint} {out : Async RearmPoint RearmOutcome}
    (h : RearmStep r point answer r' out)
    (hfresh : ∀ sentWith ∈ point.sent?, answer.isMinted = true → sentWith = r.githubToken)
    (hr : Coherent r ∨ point.mends = true ∧ (point.sent?.isSome = true → answer.isMinted = true)) :
    Mended RearmPoint.mends r' out := by
  have hidle : point.mends = false → Coherent r := by
    intro hmends
    simpa [hmends] using hr
  have hfirst : ∀ mint, point = .first mint → Coherent r ∨ mint.sent?.isSome = true ∧
      (answer.isMinted = true ∨ OnAuthFatal.throw = .degrade ∧ wipes r answer = true) := by
    rintro mint rfl
    exact .inl (hidle rfl)
  have hsecond : ∀ mint, point = .second mint → Coherent r ∨ mint.sent?.isSome = true ∧
      (answer.isMinted = true ∨ OnAuthFatal.throw = .degrade ∧ wipes r answer = true) := by
    rintro mint rfl
    exact hr.imp_right fun hr => ⟨hr.1, .inl (hr.2 hr.1)⟩
  cases h with
  | first mint _ _ _ hmint => exact .inl (hmint.coherent hfresh (hfirst mint rfl))
  | firstMinted mint _ _ hmint =>
    exact .inl ((finishRearmOnline_coherent (hmint.coherent hfresh (hfirst mint rfl))).of_eq rfl rfl)
  | firstRejected mint _ _ _ hmint => exact .inl (hmint.coherent hfresh (hfirst mint rfl))
  | firstFailed mint _ _ _ hmint =>
    exact .inl ((hmint.coherent hfresh (hfirst mint rfl)).of_eq rfl rfl)
  | read => exact .inl (hidle rfl)
  | noRefreshToken | notRenewed => exact .inl ((hidle rfl).of_eq rfl rfl)
  | renewed => exact .inr ⟨_, rfl, rfl⟩
  | persisting => exact .inr ⟨_, rfl, rfl⟩
  | persisted _ _ _ _ _ _ _ _ hsetup =>
    cases hsetup
    exact .inr ⟨_, rfl, rfl⟩
  | persistedTaken _ _ _ _ _ _ _ hsetup =>
    obtain ⟨token, htoken, -, rfl⟩ := hsetup.taken_of_ok
    have htaken : Coherent (bearerTaken _ token) := coherent_of_minted rfl htoken.symm
    exact .inl ((finishRearmOnline_coherent htaken).of_eq rfl rfl)
  | second mint _ _ _ hmint => exact .inl (hmint.coherent hfresh (hsecond mint rfl))
  | secondMinted mint _ _ hmint =>
    exact .inl ((finishRearmOnline_coherent (hmint.coherent hfresh (hsecond mint rfl))).of_eq rfl rfl)
  | secondFailed mint _ _ _ _ hmint =>
    exact .inl ((hmint.coherent hfresh (hsecond mint rfl)).of_eq rfl rfl)

theorem SignOutStep.coherent {point : SignOutPoint} {out : Async SignOutPoint Unit}
    (h : SignOutStep r point answer r' out) (hr : Coherent r) : Coherent r' := by
  cases h with
  | deactivating _ _ _ _ hupdate => exact hupdate.coherent hr
  | deactivated _ _ _ _ hupdate => exact hupdate.coherent hr
  | unlinked => exact hr

theorem flowFailed_coherent (hr : Coherent r) (flow : ActiveFlow) (message : String) :
    Coherent (flowFailed r flow message) := by
  unfold flowFailed
  split
  · exact hr
  · exact hr.of_eq rfl rfl

theorem pollerMinted_coherent {flow : ActiveFlow} {user : GitHubUser} {rec : AccountRecord}
    {copilotMinted : Bool} {out : Async PollerPoint Unit} (hr : Coherent r)
    (h : pollerMinted r flow user rec copilotMinted = (r', out)) : Coherent r' := by
  unfold pollerMinted at h
  split at h <;> cases h <;> exact hr

theorem PollerStep.mended {flow : ActiveFlow} {point : PollerPoint} {out : Async PollerPoint Unit}
    (h : PollerStep flow r point answer r' out)
    (hfresh : ∀ sentWith ∈ point.sent?, answer.isMinted = true → sentWith = r.githubToken)
    (hr : Coherent r ∨
      point.sent?.isSome = true ∧ (answer.isMinted = true ∨ wipes r answer = true)) :
    Mended (·.sent?.isSome) r' out := by
  have hsent : point.sent? = none → Coherent r := coherent_of_unsent hr
  have hmint : Coherent r ∨ point.sent?.isSome = true ∧
      (answer.isMinted = true ∨ OnAuthFatal.degrade = .degrade ∧ wipes r answer = true) := by
    simpa using hr
  cases h with
  | abandoned | approved => exact .inl (hsent rfl)
  | unwanted | verified => exact .inl ((hsent rfl).of_eq rfl rfl)
  | pollFailed | unverified => exact .inl (flowFailed_coherent (hsent rfl) flow _)
  | adding _ _ _ _ _ _ hupdate => exact .inl (hupdate.coherent (hsent rfl))
  | addFailed _ _ _ _ _ _ hupdate =>
    exact .inl (flowFailed_coherent (hupdate.coherent (hsent rfl)) flow _)
  | committed _ _ _ _ _ _ _ _ hsetup =>
    cases hsetup
    exact .inr ⟨_, rfl, rfl⟩
  | committedTaken _ _ _ _ _ _ _ _ _ hsetup hminted =>
    obtain ⟨token, htoken, -, rfl⟩ := hsetup.taken_of_ok
    exact .inl (pollerMinted_coherent (coherent_of_minted rfl htoken.symm) hminted)
  | minting _ _ _ _ _ _ hstep => exact .inl (hstep.coherent hfresh hmint)
  | minted _ _ _ _ _ _ _ hstep hminted =>
    exact .inl (pollerMinted_coherent (hstep.coherent hfresh hmint) hminted)
  | rejected _ _ _ _ _ _ hstep => exact .inl (hstep.coherent hfresh hmint)
  | retried _ _ _ _ _ _ _ _ _ hstep hschedule hminted =>
    have hcoherent := hschedule.coherent (hstep.coherent hfresh hmint)
    exact .inl (pollerMinted_coherent hcoherent hminted)
  | finished _ _ copilotMinted =>
    refine .inl ((hsent rfl).of_eq ?_ ?_)
    · cases copilotMinted <;> rfl
    · cases copilotMinted <;> rfl

/-! ## Every run -/

def Task.isOnlineRetry : Task → Bool
  | .onlineRetry _ _ _ => true
  | _ => false

/-- Does the answer leave a bearer that another token was exchanged for? A bearer arrives whose request
was overtaken, or a sign-in, a switch or a re-arm is left without its own, while the one before is
stale. -/
def Task.mismatches (r : Runtime) (overtaken staleBearer : Bool) (task : Task) (answer : Answer) :
    Bool :=
  task.sent?.isSome &&
    if answer.isMinted then overtaken && !(task.isOnlineRetry && r.githubToken.isNone)
    else task.mends && staleBearer && !(task.flow?.isSome && wipes r answer)

theorem Task.fresh_of_not_mismatches {task : Task} {overtaken staleBearer : Bool}
    (h : task.mismatches r overtaken staleBearer answer = false)
    (hfresh : overtaken = false → ∀ sentWith ∈ task.sent?, sentWith = r.githubToken)
    (hretry : task.isOnlineRetry = true → r.githubToken ≠ none) :
    ∀ sentWith ∈ task.sent?, answer.isMinted = true → sentWith = r.githubToken := by
  intro sentWith hsent hminted
  refine hfresh ?_ sentWith hsent
  rw [mismatches, Option.mem_def.1 hsent] at h
  cases honline : task.isOnlineRetry with
  | false => simpa [hminted, honline] using h
  | true => simpa [hminted, honline, hretry honline] using h

theorem Task.coherent_of_not_mismatches {task : Task} {overtaken staleBearer : Bool}
    (h : task.mismatches r overtaken staleBearer answer = false)
    (hbearer : staleBearer = false → Coherent r) (hr : Coherent r ∨ task.mends = true) :
    Coherent r ∨ task.mends = true ∧ (task.sent?.isSome = true →
      answer.isMinted = true ∨ task.flow?.isSome = true ∧ wipes r answer = true) := by
  by_cases hcoherent : Coherent r
  · exact .inl hcoherent
  · have hmends := hr.resolve_left hcoherent
    have hstale : staleBearer = true := by
      by_contra hfresh
      exact hcoherent (hbearer (Bool.eq_false_iff.2 hfresh))
    refine .inr ⟨hmends, fun hsent => ?_⟩
    rw [mismatches, hsent] at h
    by_cases hminted : answer.isMinted = true
    · exact .inl hminted
    · right
      simpa [hminted, hmends, hstale] using h

/-- Is the bearer that of the current token, or is one on the way? -/
def Mending (r : Runtime) : Prop := Coherent r ∨ ∃ task ∈ r.tasks, task.mends = true

theorem Coherent.settle {P R : Type} (hr : Coherent r) (task : P → Task) (out : Async P R) :
    Coherent (settle task (r, out)) := by
  cases out with
  | suspended => exact hr.of_eq rfl rfl
  | returned => exact hr

theorem Mended.settle {P R : Type} {mends : P → Bool} {task : P → Task} {out : Async P R}
    (h : Mended mends r out) (htask : ∀ p, mends p = true → (task p).mends = true) :
    Mending (settle task (r, out)) := by
  rcases h with hr | ⟨point, rfl, hmends⟩
  · exact .inl (hr.settle task out)
  · exact .inr ⟨task point, by simp [Auth.settle], htask point hmends⟩

theorem TaskStep.mending {task : Task} {overtaken staleBearer : Bool}
    (h : TaskStep r task answer r')
    (hok : task.mismatches r overtaken staleBearer answer = false)
    (hcurrent : overtaken = false → ∀ sentWith ∈ task.sent?, sentWith = r.githubToken)
    (hbearer : staleBearer = false → Coherent r) (hr : Coherent r ∨ task.mends = true) :
    Mending r' := by
  have hfresh := Task.fresh_of_not_mismatches hok hcurrent
  have hmended := Task.coherent_of_not_mismatches hok hbearer hr
  have hkept : ∀ {P R : Type} (task : P → Task) (r' : Runtime) (out : Async P R), Coherent r' →
      Mending (settle task (r', out)) := fun task r' out hr' => .inl (hr'.settle task out)
  cases h with
  | installed => exact .inl ((hr.resolve_right (by simp [Task.mends])).of_eq rfl rfl)
  | notInstalled => exact .inl (hr.resolve_right (by simp [Task.mends]))
  | poller _ _ _ _ _ hpoller =>
    refine (hpoller.mended (hfresh (by simp [Task.isOnlineRetry])) ?_).settle (by simp [Task.mends])
    exact hmended.imp_right fun hm => ⟨hm.1, (hm.2 hm.1).imp_right And.right⟩
  | signOut _ _ _ _ hsignOut =>
    exact hkept _ _ _ (hsignOut.coherent (hr.resolve_right (by simp [Task.mends])))
  | rearm _ _ _ _ hrearm =>
    refine (hrearm.mended (hfresh (by simp [Task.isOnlineRetry])) ?_).settle (by simp [Task.mends])
    refine hmended.imp_right fun hm => ⟨hm.1, fun hsent => ?_⟩
    exact (hm.2 hsent).resolve_right (by simp [Task.flow?])
  | degrade _ _ _ _ _ _ hdegrade =>
    refine (hdegrade.mended (hfresh (by simp [Task.isOnlineRetry])) ?_).settle (by simp [Task.mends])
    exact hmended.imp_right fun hm => ⟨hm.1, (hm.2 hm.1).resolve_right (by simp [Task.flow?])⟩
  | activate _ _ _ _ _ hactivate =>
    refine (hactivate.mended (hfresh (by simp [Task.isOnlineRetry])) ?_).settle
      (by simp [Task.mends])
    exact hmended.imp_right fun hm => ⟨hm.1, (hm.2 hm.1).resolve_right (by simp [Task.flow?])⟩
  | mint _ _ _ _ _ hmint =>
    have hcoherent := hr.resolve_right (by simp [Task.mends])
    exact hkept _ _ _ (hmint.coherent (hfresh (by simp [Task.isOnlineRetry])) (.inl hcoherent))
  | refresh _ _ _ _ _ hrefresh =>
    have hcoherent := hr.resolve_right (by simp [Task.mends])
    exact hkept _ _ _ (hrefresh.coherent (hfresh (by simp [Task.isOnlineRetry])) hcoherent)
  | retry _ _ _ _ _ _ hretry =>
    have hcoherent := hr.resolve_right (by simp [Task.mends])
    refine hkept _ _ _ (hretry.coherent (fun sentWith hsent hminted htoken => ?_) hcoherent)
    exact hfresh (fun _ => htoken) sentWith hsent hminted
  | cleared _ _ _ _ hupdate =>
    exact hkept _ _ _ (hupdate.coherent (hr.resolve_right (by simp [Task.mends])))

theorem call_coherent (hr : Coherent r) (c : Call) : Coherent (call r c) := by
  cases c with
  | startDeviceFlow =>
    show Coherent (startDeviceFlow r)
    unfold startDeviceFlow
    split
    · split
      · exact hr.of_eq rfl rfl
      · exact hr
    · exact hr.of_eq rfl rfl
  | cancelDeviceFlow =>
    show Coherent (cancelDeviceFlow r)
    unfold cancelDeviceFlow
    split
    · exact hr
    · exact hr.of_eq rfl rfl
  | signOut => exact coherent_of_none rfl
  | rearmCopilotAuth =>
    show Coherent (rearmCopilotAuth r)
    unfold rearmCopilotAuth
    split
    · exact hr
    · split
      · exact hr
      · split
        · exact hr
        · exact hr.of_eq rfl rfl
  | markAuthDegraded error => exact (markAuthDegraded_step r error).coherent hr
  | activateAccountLive => exact hr.of_eq rfl rfl
  | setupCopilotToken onAuthFatal =>
    have hcoherent : Coherent (setupCopilotToken r).1 := (setupCopilotToken_step rfl).coherent hr
    exact hcoherent.settle (.setupCopilotToken onAuthFatal) (setupCopilotToken r).2
  | scheduleCopilotOnlineRetry onOnline =>
    exact (scheduleCopilotOnlineRetry_step r onOnline).coherent hr

/-- An answer leaves a bearer of another account, and no bearer is on the way. -/
def leavesMismatch (l : Label) (r : Runtime) (ledger : Ledger) : Bool :=
  match l.event with
  | .resume i answer =>
    match ledger.suspended[i]? with
    | some (task, overtaken) =>
      task.mismatches (r.atTime l.now) overtaken ledger.staleBearer answer &&
        (r.tasks.eraseIdx i).all fun task => !task.mends
    | none => false
  | _ => false

theorem Mending.step {l : Label} {ledger : Ledger} (h : Mending r) (hledger : ledger.Keeps r)
    (hok : leavesMismatch l r ledger = false) (hstep : step l r = some r') : Mending r' := by
  cases step_step hstep with
  | idle => exact h.imp_left fun hr => hr.of_eq rfl rfl
  | called c =>
    rcases h with hr | ⟨task, hmem, hmends⟩
    · have hnow : Coherent (r.atTime l.now) := hr.of_eq rfl rfl
      exact .inl (call_coherent hnow c)
    · exact .inr ⟨task, (call_advances (r.atTime l.now) c).tasks hmem, hmends⟩
  | resumed i answer task _ hevent htask hresume =>
    by_cases hother : ∃ other ∈ r.tasks.eraseIdx i, other.mends = true
    · -- Another bearer is on the way.
      obtain ⟨other, hmem, hmends⟩ := hother
      exact .inr ⟨other, hresume.tasks_subset hmem, hmends⟩
    · obtain ⟨overtaken, hentry⟩ := hledger.entry htask
      have hmismatches :
          task.mismatches (r.atTime l.now) overtaken ledger.staleBearer answer = false := by
        have hall : (r.tasks.eraseIdx i).all (fun task => !task.mends) = true := by
          simpa using hother
        simpa [leavesMismatch, hevent, hentry, hall] using hok
      have hcurrent : overtaken = false → ∀ sentWith ∈ task.sent?, sentWith = r.githubToken :=
        fun hfresh => hledger.fresh _ (List.mem_of_getElem? hentry) hfresh
      have hbearer : ledger.staleBearer = false → Coherent ((r.atTime l.now).without i) :=
        fun hfresh => (hledger.bearer hfresh).of_eq rfl rfl
      refine hresume.mending hmismatches hcurrent hbearer ?_
      rcases h with hr | ⟨other, hmem, hmends⟩
      · exact .inl (hr.of_eq rfl rfl)
      · by_cases hsame : other = task
        · exact .inr (hsame ▸ hmends)
        · exact absurd ⟨other, mem_eraseIdx_of_ne htask hmem hsame, hmends⟩ hother

/-- Where no sign-in, switch or re-arm is suspended, the bearer was minted with the current GitHub
token, in every run in which no bearer of an overtaken request arrives and no sign-in, switch or
re-arm ends over a stale one. -/
theorem bearer_of_account {labels : List Label} {r₀ r : Runtime} (hstart : Coherent r₀)
    (hmeets : Runs.Meets (Runs.recorded step Ledger.next)
      (fun l s => leavesMismatch l s.1 s.2 = false) labels (r₀, .start r₀))
    (hrun : Runs.exec step labels r₀ = some r)
    (hquiet : ∀ task ∈ r.tasks, task.changesAccount = false) : Coherent r := by
  obtain ⟨-, hmending, -⟩ : ∃ ledger, Mending r ∧ Ledger.Keeps r ledger := by
    refine Runs.recorded_invariant (I := fun r ledger => Mending r ∧ Ledger.Keeps r ledger) ?_
      hmeets ⟨.inl hstart, .start r₀⟩ hrun
    rintro l r r' ledger ⟨hmending, hledger⟩ hok hstep
    exact ⟨hmending.step hledger hok hstep, hledger.step hstep⟩
  refine hmending.resolve_right ?_
  rintro ⟨task, hmem, hmends⟩
  have hchanges := Task.changesAccount_of_mends hmends
  exact absurd (hchanges.symm.trans (hquiet task hmem)) (by simp)

/-- A second account is added. -/
def added : List Label :=
  [⟨29000, .call .startDeviceFlow⟩, ⟨30000, .resume 1 (.deviceCode someCode)⟩,
    ⟨60000, .resume 1 (.tokens ⟨"ghu_bob", none, none, none⟩)⟩,
    ⟨60300, .resume 1 (.user ⟨"bob", none⟩)⟩, ⟨60310, .resume 1 .done⟩,
    ⟨60320, .resume 1 .done⟩, ⟨60600, .resume 1 (.minted "tid=bob" 1500)⟩,
    ⟨60900, .resume 3 .done⟩]

theorem bearer_of_account_added :
    ∃ r, Runs.exec step added (bootedSession "alice" "ghu_alice" "tid=alice" 1440000) = some r ∧
      Coherent r := by
  have hmeets : Runs.Meets (Runs.recorded step Ledger.next)
      (fun l s => leavesMismatch l s.1 s.2 = false) added
      (bootedSession "alice" "ghu_alice" "tid=alice" 1440000,
        .start (bootedSession "alice" "ghu_alice" "tid=alice" 1440000)) := by decide +kernel
  exact ⟨_, rfl, bearer_of_account (by decide +kernel) hmeets rfl (by decide +kernel)⟩

/-- The bearer of the first account is refreshed while the second is added. -/
theorem not_bearer_of_account :
    ¬ ∀ (labels : List Label) (r₀ r : Runtime), Coherent r₀ →
      Runs.exec step labels r₀ = some r →
      (∀ task ∈ r.tasks, task.changesAccount = false) → Coherent r := by
  intro h
  have hend := h
    (added.take 5 ++
      -- The request of the refresh has the first token.
      [⟨60315, .resume 0 .done⟩, ⟨60320, .resume 0 .done⟩,
        ⟨60600, .resume 1 (.minted "tid=bob" 1500)⟩, ⟨60900, .resume 3 .done⟩,
        ⟨61000, .resume 0 (.minted "tid=alice2" 1500)⟩])
    (bootedSession "alice" "ghu_alice" "tid=alice" 60315) _ (by decide +kernel) rfl
    (by decide +kernel)
  exact absurd hend (by decide +kernel)

end Maximal.Auth
