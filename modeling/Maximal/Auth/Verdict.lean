import Maximal.Auth.BearerOfAccount

/-!
# Verdicts on credentials, and writes of the registry

A request carries the GitHub token of an account, and its answer is a verdict on that token. What a
function does later to the registry follows from the verdicts it has got. A function changes the
registry only where its helper lands a write, and what the helper writes is made of what it has read.

## Main definitions

- `Verdict`, `Task.verdict` — what an answer says of the token that the request carried
- `Task.update?` — the helper that a function waits for
- `Quiet`, `Effect` — what a step leaves of the registry and of the functions

## Main results

- `settle_effect`
-/

namespace Maximal.Auth

variable {r r' r'' : Runtime} {answer : Answer}

/-! ## Verdicts -/

/-- What became of a request that carried this GitHub token. -/
inductive Verdict where
  | minted (token : Option String)
  | rejected (token : Option String)
  deriving DecidableEq, Repr

def verdictOf : Option (Option String) → Answer → Option Verdict
  | some token, .minted _ _ => some (.minted token)
  | some token, .refused status _ => if isAuthFatal status then some (.rejected token) else none
  | _, _ => none

/-- A `gho_` token needs no mint. -/
def takenVerdict (token : String) : Option Verdict :=
  if inferTokenType token = .gho then some (.minted (some token)) else none

/-- Once the preflight has passed, the switch begins with the token of the record. -/
def preflightVerdict (rec : StoredRecord) (sentWith : String) : Answer → Option Verdict
  | .done => rec.token.bind takenVerdict
  | answer => verdictOf (some (some sentWith)) answer

def ActivatePoint.verdict : ActivatePoint → Answer → Option Verdict
  | .preflight rec sentWith, answer => preflightVerdict rec sentWith answer
  | point, answer => verdictOf point.sent? answer

def SweepPoint.verdict : SweepPoint → Answer → Option Verdict
  | .preflight cand sentWith _, answer => preflightVerdict cand.2 sentWith answer
  | point, answer => verdictOf point.sent? answer

def DegradePoint.verdict : DegradePoint → Answer → Option Verdict
  | .flagging _ _, _ => none
  | .sweeping sweep, answer => sweep.verdict answer

def RearmPoint.verdict (r : Runtime) : RearmPoint → Answer → Option Verdict
  | .persisting update point, answer =>
    if point.returns update r answer then r.githubToken.bind takenVerdict else none
  | point, answer => verdictOf point.sent? answer

def PollerPoint.verdict : PollerPoint → Answer → Option Verdict
  | .adding _ rec (.writing _), .done => takenVerdict rec.token
  | point, answer => verdictOf point.sent? answer

def RetryPoint.verdict (r : Runtime) : RetryPoint → Answer → Option Verdict
  | .waiting, .done => r.githubToken.bind takenVerdict
  | point, answer => verdictOf point.sent? answer

/-- What the answer says of the GitHub token that the request carried. -/
def Task.verdict (r : Runtime) : Task → Answer → Option Verdict
  | .poller _ point, answer => point.verdict answer
  | .rearm point, answer => point.verdict r answer
  | .degrade _ _ point, answer => point.verdict answer
  | .activate _ point, answer => point.verdict answer
  | .setupCopilotToken _ point, answer => verdictOf point.sent? answer
  | .refreshLoop _ point, answer => verdictOf point.sent? answer
  | .onlineRetry _ _ point, answer => point.verdict r answer
  | _, _ => none

def SwitchPoint.update? (key : AccountKey) : SwitchPoint → Option (RegistryUpdate × UpdatePoint)
  | .activating point => some (.activateAndClearNeedsReauth key, point)
  | _ => none

def ActivatePoint.update? (key : AccountKey) :
    ActivatePoint → Option (RegistryUpdate × UpdatePoint)
  | .switching _ switch => switch.update? key
  | _ => none

def SweepPoint.update? : SweepPoint → Option (RegistryUpdate × UpdatePoint)
  | .flagging update point _ => some (update, point)
  | .switching cand switch _ => switch.update? cand.1
  | _ => none

def DegradePoint.update? : DegradePoint → Option (RegistryUpdate × UpdatePoint)
  | .flagging update point => some (update, point)
  | .sweeping sweep => sweep.update?

def RearmPoint.update? : RearmPoint → Option (RegistryUpdate × UpdatePoint)
  | .persisting update point => some (update, point)
  | _ => none

def PollerPoint.update? : PollerPoint → Option (RegistryUpdate × UpdatePoint)
  | .adding _ rec point => some (.addAccount rec, point)
  | _ => none

def SignOutPoint.update? : SignOutPoint → Option (RegistryUpdate × UpdatePoint)
  | .deactivating point => some (.deactivateActive, point)
  | _ => none

/-- The helper that the function waits for. -/
def Task.update? : Task → Option (RegistryUpdate × UpdatePoint)
  | .poller _ point => point.update?
  | .signOut point => point.update?
  | .rearm point => point.update?
  | .degrade _ _ point => point.update?
  | .activate key point => point.update? key
  | .clearActiveNeedsReauth point => some (.clearActiveNeedsReauth, point)
  | _ => none

/-- Is no write under way? -/
def NotWriting (update? : Option (RegistryUpdate × UpdatePoint)) : Prop :=
  ∀ update next, update? ≠ some (update, .writing next)

/-! ## What a step starts -/

/-- A function that a step starts besides the one that it resumes. -/
def Task.Fresh (v : Option Verdict) : Task → Prop
  | .clearActiveNeedsReauth point => point = .reading ∧ ∃ token, v = some (.minted token)
  | .degrade _ _ point =>
    (∃ error, point = .flagging (.markActiveNeedsReauth error) .reading) ∧
      ∃ token, v = some (.rejected token)
  | .refreshLoop _ _ => True
  | .onlineRetry _ _ _ => True
  | _ => False

theorem Task.Fresh.notWriting {v : Option Verdict} {task : Task} (h : task.Fresh v) :
    NotWriting task.update? := by
  intro update next hwriting
  cases task with
  | clearActiveNeedsReauth point =>
    obtain ⟨rfl, -⟩ := h
    cases hwriting
  | degrade id error point =>
    obtain ⟨⟨error', rfl⟩, -⟩ := h
    cases hwriting
  | refreshLoop | onlineRetry => cases hwriting
  | startDeviceFlow | poller | signOut | rearm | activate | setupCopilotToken => exact h

/-- What a function that writes no registry leaves. -/
structure Quiet (v : Option Verdict) (r r' : Runtime) : Prop where
  registry : r'.registry = r.registry
  tasks : ∃ new, r'.tasks = r.tasks ++ new ∧ ∀ task ∈ new, task.Fresh v

namespace Quiet

variable {v : Option Verdict}

@[refl] theorem refl (r : Runtime) : Quiet v r r := ⟨rfl, [], (List.append_nil _).symm, by simp⟩

@[trans] theorem trans (h : Quiet v r r') (h' : Quiet v r' r'') : Quiet v r r'' := by
  obtain ⟨new, htasks, hnew⟩ := h.tasks
  obtain ⟨new', htasks', hnew'⟩ := h'.tasks
  refine ⟨h'.registry.trans h.registry, new ++ new', ?_, fun task hmem => ?_⟩
  · rw [htasks', htasks, List.append_assoc]
  · rcases List.mem_append.1 hmem with hold | hlate
    · exact hnew task hold
    · exact hnew' task hlate

theorem of_eq (hregistry : r'.registry = r.registry) (htasks : r'.tasks = r.tasks) :
    Quiet v r r' :=
  ⟨hregistry, [], htasks.trans (List.append_nil _).symm, by simp⟩

theorem started {task : Task} (hregistry : r'.registry = r.registry)
    (htasks : r'.tasks = r.tasks ++ [task]) (htask : task.Fresh v) : Quiet v r r' :=
  ⟨hregistry, [task], htasks, fun _ hmem => List.mem_singleton.1 hmem ▸ htask⟩

end Quiet

variable {v : Option Verdict}

theorem DegradeStep.quiet {error : CopilotAuthFatalError} {degrade : Option ℕ}
    (h : DegradeStep r error r' degrade) (hv : ∃ token, v = some (.rejected token)) :
    Quiet v r r' := by
  cases h with
  | joined | skipped => rfl
  | repeated => exact .of_eq rfl rfl
  | started => exact .started rfl rfl ⟨⟨_, rfl⟩, hv⟩

theorem bearerTaken_quiet (r : Runtime) {token : String} (hgho : inferTokenType token = .gho) :
    Quiet (takenVerdict token) r (bearerTaken r token) :=
  .started rfl rfl ⟨rfl, some token, if_pos hgho⟩

/-- The token that is set is taken, or nothing has happened yet. -/
theorem SetupStep.quiet {out : Async MintPoint (Except MintError Unit)}
    (h : SetupStep r r' out) : Quiet (r.githubToken.bind takenVerdict) r r' := by
  cases h with
  | taken token htoken hgho =>
    rw [htoken]
    exact bearerTaken_quiet r hgho
  | sent => rfl

theorem bearerMinted_quiet (r : Runtime) (bearer : Bearer) (refreshIn : ℕ)
    (hv : ∃ token, v = some (.minted token)) : Quiet v r (bearerMinted r bearer refreshIn) := by
  refine ⟨rfl, [.clearActiveNeedsReauth .reading, _], List.append_assoc _ _ _, ?_⟩
  intro task hmem
  rcases List.mem_pair.1 hmem with rfl | rfl
  · exact ⟨rfl, hv⟩
  · trivial

theorem MintStep.quiet {onAuthFatal : OnAuthFatal} {point : MintPoint}
    {out : Async MintPoint (Except MintError Unit)}
    (h : MintStep onAuthFatal r point answer r' out) : Quiet (verdictOf point.sent? answer) r r' := by
  cases h with
  | minted sentWith => exact bearerMinted_quiet r _ _ ⟨sentWith, rfl⟩
  | degraded sentWith _ _ _ _ _ hfatal hdegrade =>
    exact hdegrade.quiet ⟨sentWith, if_pos hfatal⟩
  | refused | failed | unreachable | degradeOver | diagnosed => rfl

theorem HeadStep.quiet {controller : ℕ} {out : Async RefreshPoint Unit}
    (h : HeadStep r controller r' out) : Quiet v r r' := by
  cases h <;> exact .of_eq rfl rfl

theorem refreshLoopHead_quiet {controller fatalRetries : ℕ} {refreshAtMs : ℤ}
    {out : Async RefreshPoint Unit}
    (h : refreshLoopHead r controller refreshAtMs fatalRetries = (r', out)) : Quiet v r r' := by
  have hhead := refreshLoopHead_step r controller refreshAtMs fatalRetries
  rw [h] at hhead
  exact hhead.quiet

theorem bearerRefreshed_quiet (r : Runtime) (bearer : Bearer) (fatalRetries : ℕ)
    (hv : ∃ token, v = some (.minted token)) : Quiet v r (bearerRefreshed r bearer fatalRetries) := by
  by_cases hretries : fatalRetries > 0
  · exact .started rfl (if_pos hretries) ⟨rfl, hv⟩
  · exact .of_eq rfl (if_neg hretries)

/-- Only a refused request degrades the session. -/
theorem resumeRefresh_quiet {controller : ℕ} {point : RefreshPoint} {out : Async RefreshPoint Unit}
    (h : resumeRefresh controller r point answer = some (r', out)) :
    Quiet (verdictOf point.sent? answer) r r' := by
  have hended : ∀ {v : Option Verdict} (r : Runtime), Quiet v r (refreshLoopEnded r controller) :=
    fun r => .of_eq rfl rfl
  unfold resumeRefresh at h
  split at h
  · exact refreshLoopHead_quiet (Option.some.inj h)
  · next sentWith fatalRetries token refreshIn =>
    have hset := bearerRefreshed_quiet (v := some (.minted sentWith)) r ⟨token, sentWith⟩ fatalRetries
      ⟨sentWith, rfl⟩
    exact hset.trans (refreshLoopHead_quiet (Option.some.inj h))
  · next sentWith fatalRetries status remediationUrl =>
    split at h
    · next hfatal =>
      split at h
      · exact refreshLoopHead_quiet (Option.some.inj h)
      · have hdegrade := markAuthDegraded_step { r with networkDiagnosis := none }
          (copilotRejection r status remediationUrl)
        have hcleared : Quiet (some (.rejected sentWith)) r { r with networkDiagnosis := none } :=
          .of_eq rfl rfl
        have hverdict : verdictOf (RefreshPoint.sent? (.refreshing sentWith fatalRetries))
            (.refused status remediationUrl) = some (.rejected sentWith) := if_pos hfatal
        rw [hverdict]
        dsimp only at h
        split at h <;> cases h <;> simp_all only
        · exact (hcleared.trans (hdegrade.quiet ⟨sentWith, rfl⟩)).trans (hended _)
        · exact hcleared.trans (hdegrade.quiet ⟨sentWith, rfl⟩)
    · exact refreshLoopHead_quiet (Option.some.inj h)
  · exact refreshLoopHead_quiet (Option.some.inj h)
  · cases h
    rfl
  · next fatalRetries banner =>
    have hset : Quiet none r { r with networkDiagnosis := banner } := .of_eq rfl rfl
    exact hset.trans (refreshLoopHead_quiet (Option.some.inj h))
  · exact refreshLoopHead_quiet (Option.some.inj h)
  · split at h <;> cases h
    exact hended r
  · cases h

theorem ScheduleStep.quiet {onOnline : Option (Option String)} (h : ScheduleStep r onOnline r') :
    Quiet v r r' := by
  cases h with
  | ended => exact .of_eq rfl rfl
  | waiting => exact .started rfl rfl trivial

theorem retryLoopHead_quiet {controller : ℕ} {out : Async RetryPoint Unit}
    (h : retryLoopHead r controller = (r', out)) : Quiet v r r' := by
  unfold retryLoopHead at h
  split at h <;> cases h <;> exact .of_eq rfl rfl

theorem retryMinted_quiet {controller : ℕ} {out : Async RetryPoint Unit}
    (h : retryMinted r controller = (r', out)) : Quiet v r r' := by
  unfold retryMinted at h
  split at h <;> cases h <;> exact .of_eq rfl rfl

theorem RetryStep.quiet {controller : ℕ} {onOnline : Option (Option String)} {point : RetryPoint}
    {out : Async RetryPoint Unit} (h : RetryStep controller onOnline r point answer r' out) :
    Quiet (point.verdict r answer) r r' := by
  have hended : ∀ {v : Option Verdict} (r : Runtime), Quiet v r (retryLoopEnded r controller) :=
    fun r => .of_eq rfl rfl
  have hsignedIn : ∀ {v : Option Verdict} (r : Runtime) login avatarUrl,
      Quiet v r (r.markSignedIn login avatarUrl) := fun r login avatarUrl => .of_eq rfl rfl
  cases h with
  | ended | unnamed => exact hended r
  | sent _ _ hsetup => exact hsetup.quiet
  | taken _ _ _ hsetup hminted => exact hsetup.quiet.trans (retryMinted_quiet hminted)
  | minting _ _ _ _ hmint => exact hmint.quiet
  | minted _ _ _ _ _ hmint hminted => exact hmint.quiet.trans (retryMinted_quiet hminted)
  | rejected _ _ _ _ hmint => exact hmint.quiet.trans (hended _)
  | failed _ _ _ _ _ _ hmint hhead => exact hmint.quiet.trans (retryLoopHead_quiet hhead)
  | online _ login avatarUrl => exact (hsignedIn r login avatarUrl).trans (hended _)
  | identified user => exact .of_eq rfl rfl
  | unidentified => rfl

theorem SwitchStart.quiet {rec : StoredRecord} {out : Async SwitchPoint (Except String Unit)}
    (h : SwitchStart r rec r' out) : Quiet (rec.token.bind takenVerdict) r r' := by
  have hswitched : Quiet (rec.token.bind takenVerdict) r (switched r rec) := .of_eq rfl rfl
  cases h with
  | sent _ hsetup => exact hswitched.trans hsetup.quiet
  | taken hsetup => exact hswitched.trans hsetup.quiet

/-! ## Effects on the registry -/

/-- What a step does for the helper that the function waits for, before and after it. -/
inductive Effect (v : Option Verdict) (r : Runtime)
    (before : Option (RegistryUpdate × UpdatePoint)) (answer : Answer) (r' : Runtime)
    (after : Option (RegistryUpdate × UpdatePoint)) : Prop
  | quiet : Quiet v r r' → NotWriting after → Effect v r before answer r' after
  /-- The helper has read, and is about to write. -/
  | read (update : RegistryUpdate) (reg next : AccountRegistry) :
      before = some (update, .reading) → registryRead r answer = some reg →
      update.apply reg = some next → r' = r → after = some (update, .writing next) →
      Effect v r before answer r' after
  /-- The helper has written. -/
  | written (update : RegistryUpdate) (next : AccountRegistry) :
      before = some (update, .writing next) → answer = .done →
      Quiet v { r with registry := next } r' → NotWriting after → Effect v r before answer r' after

theorem notWriting_none : NotWriting none := fun _ _ h => by cases h

/-- The function goes on, once its helper has returned. -/
theorem Effect.continues {before after : Option (RegistryUpdate × UpdatePoint)}
    (h : Effect v r before answer r' none) (hquiet : Quiet v r' r'') (hafter : NotWriting after) :
    Effect v r before answer r'' after := by
  cases h with
  | quiet hfirst => exact .quiet (hfirst.trans hquiet) hafter
  | read _ _ _ _ _ _ _ hwriting => cases hwriting
  | written update next hbefore hanswer hfirst =>
    exact .written update next hbefore hanswer (hfirst.trans hquiet) hafter

theorem UpdateStep.effect {update : RegistryUpdate} {point point' : UpdatePoint}
    (h : UpdateStep update r point answer r' (.suspended point')) :
    Effect v r (some (update, point)) answer r' (some (update, point')) := by
  cases h with
  | read _ reg next hread hnext => exact .read update reg next rfl hread hnext rfl rfl

theorem UpdateStep.effect_returned {update : RegistryUpdate} {point : UpdatePoint}
    {result : Except String Unit} (h : UpdateStep update r point answer r' (.returned result)) :
    Effect v r (some (update, point)) answer r' none := by
  cases h with
  | idle | failed => exact .quiet (.refl r) notWriting_none
  | written next => exact .written update next rfl rfl (.refl _) notWriting_none

def Async.update? {P R : Type} (update? : P → Option (RegistryUpdate × UpdatePoint)) :
    Async P R → Option (RegistryUpdate × UpdatePoint)
  | .suspended point => update? point
  | .returned _ => none

theorem SwitchStep.effect {key : AccountKey} {rec : StoredRecord} {point : SwitchPoint}
    {out : Async SwitchPoint (Except String Unit)}
    (h : SwitchStep key rec r point answer r' out) :
    Effect (verdictOf point.sent? answer) r (point.update? key) answer r'
      (out.update? (SwitchPoint.update? key)) := by
  have hidle : NotWriting (some (RegistryUpdate.activateAndClearNeedsReauth key, .reading)) := by
    intro update next hwriting
    cases hwriting
  cases h with
  | minting _ _ _ _ hmint => exact .quiet hmint.quiet notWriting_none
  | minted _ _ _ hmint => exact .quiet hmint.quiet hidle
  | rejected _ _ _ _ hmint => exact .quiet hmint.quiet notWriting_none
  | activating _ _ _ _ hupdate => exact hupdate.effect
  | activated _ _ _ hupdate => exact hupdate.effect_returned.continues (.refl _) notWriting_none
  | unwritten _ _ _ _ hupdate => exact hupdate.effect_returned
  | finished => exact .quiet (.of_eq rfl rfl) notWriting_none

/-- A switch begins with its mint; a `gho_` token is committed at once. -/
theorem SwitchStart.notWriting {key : AccountKey} {rec : StoredRecord} {switch : SwitchPoint}
    (h : SwitchStart r rec r' (.suspended switch)) : NotWriting (switch.update? key) := by
  intro update next hwriting
  cases h <;> cases hwriting

theorem ActivateStep.effect {key : AccountKey} {point : ActivatePoint}
    {out : Async ActivatePoint ActivateResult} (h : ActivateStep key r point answer r' out) :
    Effect (point.verdict answer) r (point.update? key) answer r'
      (out.update? (ActivatePoint.update? key)) := by
  cases h with
  | refused => exact .quiet (.refl r) notWriting_none
  | found => exact .quiet (.refl r) notWriting_none
  | started _ _ _ _ hstart => exact .quiet hstart.quiet hstart.notWriting
  | switching _ _ _ _ _ hswitch => exact hswitch.effect
  | activated _ _ _ _ hswitch => exact hswitch.effect
  | failed _ _ _ _ _ hswitch => exact hswitch.effect

theorem flagBad_quiet (r : Runtime) (cand : Candidate) (message : String) (rest : List Candidate) :
    Quiet v r (flagBad r cand message rest).1 ∧
      NotWriting ((flagBad r cand message rest).2.update? SweepPoint.update?) := by
  refine ⟨.refl r, ?_⟩
  intro update next hwriting
  cases hwriting

theorem TryStep.quiet {cands : List Candidate} {out : Async SweepPoint SweepResult}
    (h : TryStep r cands r' out) : Quiet v r r' ∧ NotWriting (out.update? SweepPoint.update?) := by
  cases h with
  | exhausted => exact ⟨.of_eq rfl rfl, notWriting_none⟩
  | sent => exact ⟨.refl r, notWriting_none⟩
  | unsent cand message rest => exact flagBad_quiet r cand message rest

theorem SweepStep.effect {point : SweepPoint} {out : Async SweepPoint SweepResult}
    (h : SweepStep r point answer r' out) :
    Effect (point.verdict answer) r point.update? answer r' (out.update? SweepPoint.update?) := by
  cases h with
  | read _ _ _ _ _ htry =>
    obtain ⟨hquiet, hidle⟩ := htry.quiet
    exact .quiet hquiet hidle
  | started _ _ _ _ _ hstart => exact .quiet hstart.quiet hstart.notWriting
  | refused cand _ rest answer message =>
    obtain ⟨hquiet, hidle⟩ := flagBad_quiet r cand message rest
    exact .quiet hquiet hidle
  | flagging _ _ _ _ _ _ hupdate => exact hupdate.effect
  | flagged _ _ _ _ _ _ _ hupdate htry =>
    obtain ⟨hquiet, hidle⟩ := htry.quiet
    exact hupdate.effect_returned.continues hquiet hidle
  | threw _ _ _ _ _ _ hupdate => exact hupdate.effect_returned
  | switching _ _ _ _ _ _ hswitch => exact hswitch.effect
  | recovered _ _ _ _ _ hswitch => exact hswitch.effect
  | failed cand _ rest _ message r₁ hswitch =>
    obtain ⟨hquiet, hidle⟩ := flagBad_quiet r₁ cand message rest
    exact Effect.continues hswitch.effect hquiet hidle

theorem DegradeResume.effect {error : CopilotAuthFatalError} {point : DegradePoint}
    {out : Async DegradePoint Unit} (h : DegradeResume error r point answer r' out) :
    Effect (point.verdict answer) r point.update? answer r' (out.update? DegradePoint.update?) := by
  have hfailed : ∀ {v : Option Verdict} (r : Runtime), Quiet v r (degradeFailed r error) :=
    fun r => .of_eq rfl rfl
  cases h with
  | flagging _ _ _ _ _ hupdate => exact hupdate.effect
  | sweepStarted _ _ _ _ _ hupdate =>
    exact hupdate.effect_returned.continues (.refl _) notWriting_none
  | flagged _ _ _ _ _ hupdate =>
    exact hupdate.effect_returned.continues (hfailed _) notWriting_none
  | sweeping _ _ _ _ hsweep => exact hsweep.effect
  | recovered _ _ _ hsweep =>
    exact Effect.continues hsweep.effect (.of_eq rfl rfl) notWriting_none
  | exhausted _ _ _ _ hsweep =>
    exact Effect.continues hsweep.effect (hfailed _) notWriting_none

theorem SignOutStep.effect {point : SignOutPoint} {out : Async SignOutPoint Unit}
    (h : SignOutStep r point answer r' out) :
    Effect v r point.update? answer r' (out.update? SignOutPoint.update?) := by
  cases h with
  | deactivating _ _ _ _ hupdate => exact hupdate.effect
  | deactivated _ _ _ _ hupdate => exact hupdate.effect_returned.continues (.refl _) notWriting_none
  | unlinked => exact .quiet (.refl r) notWriting_none

theorem rearmFinished_quiet (r : Runtime) : Quiet v r (rearmEnded (finishRearmOnline r)) := by
  unfold finishRearmOnline
  split <;> exact .of_eq rfl rfl

/-- Once the renewed token is persisted, it is set up. -/
theorem UpdateStep.rearm_verdict {update : RegistryUpdate} {point : UpdatePoint}
    {result : Except String Unit} (h : UpdateStep update r point answer r' (.returned result)) :
    (RearmPoint.persisting update point).verdict r answer = r'.githubToken.bind takenVerdict := by
  have hgithub : r'.githubToken = r.githubToken := by cases h <;> rfl
  rw [hgithub]
  exact if_pos h.returns

theorem RearmStep.effect {point : RearmPoint} {out : Async RearmPoint RearmOutcome}
    (h : RearmStep r point answer r' out) :
    Effect (point.verdict r answer) r point.update? answer r' (out.update? RearmPoint.update?) := by
  have hended : ∀ {v : Option Verdict} (r : Runtime), Quiet v r (rearmEnded r) :=
    fun r => .of_eq rfl rfl
  cases h with
  | first _ _ _ _ hmint => exact .quiet hmint.quiet notWriting_none
  | firstMinted _ _ _ hmint =>
    exact .quiet (hmint.quiet.trans (rearmFinished_quiet _)) notWriting_none
  | firstRejected _ _ _ _ hmint => exact .quiet hmint.quiet notWriting_none
  | firstFailed _ _ _ _ hmint => exact .quiet (hmint.quiet.trans (hended _)) notWriting_none
  | read => exact .quiet (.refl r) notWriting_none
  | noRefreshToken | notRenewed => exact .quiet (hended r) notWriting_none
  | renewed rec next =>
    refine .quiet (.of_eq rfl rfl) ?_
    intro update next hwriting
    cases hwriting
  | persisting update point point' _ _ hupdate => exact hupdate.effect
  | persisted update point _ _ _ _ _ hupdate hsetup =>
    rw [hupdate.rearm_verdict]
    exact hupdate.effect_returned.continues hsetup.quiet notWriting_none
  | persistedTaken update point _ _ _ r₂ hupdate hsetup =>
    rw [hupdate.rearm_verdict]
    exact hupdate.effect_returned.continues (hsetup.quiet.trans (rearmFinished_quiet r₂))
      notWriting_none
  | second _ _ _ _ hmint => exact .quiet hmint.quiet notWriting_none
  | secondMinted _ _ _ hmint =>
    exact .quiet (hmint.quiet.trans (rearmFinished_quiet _)) notWriting_none
  | secondFailed _ _ _ _ _ hmint => exact .quiet (hmint.quiet.trans (hended _)) notWriting_none

theorem pollerMinted_quiet {flow : ActiveFlow} {user : GitHubUser} {rec : AccountRecord}
    {copilotMinted : Bool} {out : Async PollerPoint Unit}
    (h : pollerMinted r flow user rec copilotMinted = (r', out)) :
    Quiet v r r' ∧ NotWriting (out.update? PollerPoint.update?) := by
  unfold pollerMinted at h
  split at h <;> cases h <;> exact ⟨.refl r, notWriting_none⟩

theorem flowFailed_quiet (r : Runtime) (flow : ActiveFlow) (message : String) :
    Quiet v r (flowFailed r flow message) := by
  unfold flowFailed
  split <;> exact .of_eq rfl rfl

theorem PollerStep.effect {flow : ActiveFlow} {point : PollerPoint} {out : Async PollerPoint Unit}
    (h : PollerStep flow r point answer r' out) :
    Effect (point.verdict answer) r point.update? answer r' (out.update? PollerPoint.update?) := by
  have htoken : ∀ {v : Option Verdict} (r : Runtime) token, Quiet v r (r.setGithubToken token) :=
    fun r token => .of_eq rfl rfl
  cases h with
  | abandoned | approved => exact .quiet (.refl r) notWriting_none
  | pollFailed | unverified => exact .quiet (flowFailed_quiet r flow _) notWriting_none
  | unwanted => exact .quiet (.of_eq rfl rfl) notWriting_none
  | verified =>
    refine .quiet (.of_eq rfl rfl) ?_
    intro update next hwriting
    cases hwriting
  | adding _ _ _ _ _ _ hupdate => exact hupdate.effect
  | addFailed _ _ _ _ _ r₁ hupdate =>
    exact hupdate.effect_returned.continues (flowFailed_quiet r₁ flow _) notWriting_none
  | committed _ rec _ _ r₁ _ _ hupdate hsetup =>
    obtain ⟨next, rfl, rfl, rfl⟩ := hupdate.written_of_addAccount
    exact hupdate.effect_returned.continues ((htoken _ rec.token).trans hsetup.quiet) notWriting_none
  | committedTaken _ rec _ _ r₁ _ _ _ hupdate hsetup hminted =>
    obtain ⟨next, rfl, rfl, rfl⟩ := hupdate.written_of_addAccount
    obtain ⟨hquiet, hidle⟩ := pollerMinted_quiet hminted
    exact hupdate.effect_returned.continues
      (((htoken _ rec.token).trans hsetup.quiet).trans hquiet) hidle
  | minting _ _ _ _ _ _ hmint => exact .quiet hmint.quiet notWriting_none
  | minted _ _ _ _ _ _ _ hmint hminted =>
    obtain ⟨hquiet, hidle⟩ := pollerMinted_quiet hminted
    exact .quiet (hmint.quiet.trans hquiet) hidle
  | rejected _ _ _ _ _ _ hmint => exact .quiet hmint.quiet notWriting_none
  | retried _ _ _ _ _ _ _ _ _ hmint hschedule hminted =>
    obtain ⟨hquiet, hidle⟩ := pollerMinted_quiet hminted
    exact .quiet ((hmint.quiet.trans hschedule.quiet).trans hquiet) hidle
  | finished _ _ copilotMinted =>
    refine .quiet ?_ notWriting_none
    cases copilotMinted <;> exact .of_eq rfl rfl

/-! ## The machine -/

/-- Is the function a sign-in? -/
def Task.isSignIn : Task → Bool
  | .poller _ _ => true
  | _ => false

/-- What an answer does to the registry and to the helper that the function waits for. -/
inductive TaskEffect (r : Runtime) (task : Task) (answer : Answer) (r' : Runtime)
    (new : List Task) : Prop
  | quiet : r'.registry = r.registry → (∀ t ∈ new, NotWriting t.update?) →
      TaskEffect r task answer r' new
  | read (update : RegistryUpdate) (reg next : AccountRegistry) (t : Task) :
      task.update? = some (update, .reading) → registryRead r answer = some reg →
      update.apply reg = some next → r'.registry = r.registry → new = [t] →
      t.update? = some (update, .writing next) → t.isSignIn = task.isSignIn →
      TaskEffect r task answer r' new
  | written (update : RegistryUpdate) (next : AccountRegistry) :
      task.update? = some (update, .writing next) → answer = .done → r'.registry = next →
      (∀ t ∈ new, NotWriting t.update?) → TaskEffect r task answer r' new

/-- A function that has run to its next suspension, with what it started. -/
theorem settle_effect {P R : Type} {mk : P → Task} {task : Task}
    (update? : P → Option (RegistryUpdate × UpdatePoint)) {out : Async P R} {ok : Task → Prop}
    (h : Effect v r task.update? answer r' (out.update? update?))
    (hupdate : ∀ p, (mk p).update? = update? p) (hkind : ∀ p, (mk p).isSignIn = task.isSignIn)
    (hfresh : ∀ t, Task.Fresh v t → ok t) (hnext : ∀ p, out = .suspended p → ok (mk p)) :
    ∃ new, (settle mk (r', out)).tasks = r.tasks ++ new ∧ (∀ t ∈ new, ok t) ∧
      TaskEffect r task answer (settle mk (r', out)) new := by
  -- The functions that are started come first, then the one that goes on.
  have hsettle : ∀ {r₀ : Runtime}, Quiet v r₀ r' → NotWriting (out.update? update?) →
      ∃ new, (settle mk (r', out)).tasks = r₀.tasks ++ new ∧ (∀ t ∈ new, ok t) ∧
        (∀ t ∈ new, NotWriting t.update?) ∧ (settle mk (r', out)).registry = r₀.registry := by
    intro r₀ hquiet hidle
    obtain ⟨new, htasks, hnew⟩ := hquiet.tasks
    cases out with
    | suspended p =>
      refine ⟨new ++ [mk p], ?_, ?_, ?_, hquiet.registry⟩
      · show r'.tasks ++ [mk p] = _
        rw [htasks, List.append_assoc]
      · intro t hmem
        rcases List.mem_append.1 hmem with hstarted | hlast
        · exact hfresh t (hnew t hstarted)
        · exact List.mem_singleton.1 hlast ▸ hnext p rfl
      · intro t hmem
        rcases List.mem_append.1 hmem with hstarted | hlast
        · exact (hnew t hstarted).notWriting
        · rw [List.mem_singleton.1 hlast, hupdate]
          exact hidle
    | returned result =>
      exact ⟨new, htasks, fun t hmem => hfresh t (hnew t hmem),
        fun t hmem => (hnew t hmem).notWriting, hquiet.registry⟩
  cases h with
  | quiet hquiet hidle =>
    obtain ⟨new, htasks, hok, hwriting, hregistry⟩ := hsettle hquiet hidle
    exact ⟨new, htasks, hok, .quiet hregistry hwriting⟩
  | read update reg next hbefore hread happly hsame hafter =>
    subst hsame
    cases out with
    | suspended p =>
      refine ⟨[mk p], rfl, ?_, .read update reg next (mk p) hbefore hread happly rfl rfl ?_ (hkind p)⟩
      · intro t hmem
        exact List.mem_singleton.1 hmem ▸ hnext p rfl
      · rw [hupdate]
        exact hafter
    | returned => cases hafter
  | written update next hbefore hanswer hquiet hidle =>
    obtain ⟨new, htasks, hok, hwriting, hregistry⟩ := hsettle hquiet hidle
    exact ⟨new, htasks, hok, .written update next hbefore hanswer hregistry hwriting⟩

end Maximal.Auth
