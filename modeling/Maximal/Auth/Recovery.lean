import Maximal.Auth.Token

/-!
# Switching accounts

A live switch overwrites the GitHub token and the user name, mints, and only then commits the
account on disk. A user asks for one account; the auto-recovery sweep tries one after the other.

## Main definitions

- `switchActiveAccountLive`, `resumeSwitch`
- `activateAccountLive`, `resumeActivate`
- `resumeSweep` — the candidates of `attemptAutoRecovery`
-/

namespace Maximal.Auth

/-! ## One switch -/

def switchActiveAccountLive (r : Runtime) (rec : StoredRecord) :
    Runtime × Async SwitchPoint (Except String Unit) :=
  let r := ((r.setGithubToken rec.token).setUserName rec.login).stopCopilotRefreshLoop
  match setupCopilotToken r with
  | (r, .suspended mint) => (r, .suspended (.minting mint))
  | (r, .returned (.ok ())) => (r, .suspended (.activating .reading))
  | (r, .returned (.error error)) => (r, .returned (.error error.message))

def resumeSwitch (key : AccountKey) (rec : StoredRecord) (r : Runtime) :
    SwitchPoint → Answer → Option (Runtime × Async SwitchPoint (Except String Unit))
  | .minting mint, answer =>
    (resumeMint .throw r mint answer).map fun
      | (r, .suspended mint) => (r, .suspended (.minting mint))
      | (r, .returned (.ok ())) => (r, .suspended (.activating .reading))
      | (r, .returned (.error error)) => (r, .returned (.error error.message))
  | .activating point, answer =>
    (resumeUpdate (.activateAndClearNeedsReauth key) r point answer).map fun
      | (r, .suspended point) => (r, .suspended (.activating point))
      | (r, .returned (.ok ())) => (r, .suspended .refreshing)
      | (r, .returned (.error message)) => (r, .returned (.error message))
  -- A failed refresh of the models is only logged.
  | .refreshing, .done | .refreshing, .failed _ =>
    some (({ r with lastUpstreamRejection := none } : Runtime).markSignedIn rec.login,
      .returned (.ok ()))
  | _, _ => none

/-- The token and the name of the account are in place, the loop of the account before is
stopped. -/
@[simp] def switched (r : Runtime) (rec : StoredRecord) : Runtime :=
  ((r.setGithubToken rec.token).setUserName rec.login).stopCopilotRefreshLoop

/-- What a switch can do up to its first suspension. -/
inductive SwitchStart (r : Runtime) (rec : StoredRecord) :
    Runtime → Async SwitchPoint (Except String Unit) → Prop
  | sent (r' : Runtime) (mint : MintPoint) :
      SetupStep (switched r rec) r' (.suspended mint) →
      SwitchStart r rec r' (.suspended (.minting mint))
  | taken (r' : Runtime) : SetupStep (switched r rec) r' (.returned (.ok ())) →
      SwitchStart r rec r' (.suspended (.activating .reading))

theorem switchActiveAccountLive_step {r r' : Runtime} {rec : StoredRecord}
    {out : Async SwitchPoint (Except String Unit)}
    (h : switchActiveAccountLive r rec = (r', out)) : SwitchStart r rec r' out := by
  unfold switchActiveAccountLive at h
  rcases hsetup : setupCopilotToken (switched r rec) with ⟨r₁, mint | ⟨error | _⟩⟩ <;>
    rw [switched] at hsetup <;> dsimp only at h <;> rw [hsetup] at h
  · cases h
    exact .sent _ _ (setupCopilotToken_step hsetup)
  · cases setupCopilotToken_step hsetup
  · cases h
    exact .taken _ (setupCopilotToken_step hsetup)

/-- What an answer to a switch can do. -/
inductive SwitchStep (key : AccountKey) (rec : StoredRecord) (r : Runtime) :
    SwitchPoint → Answer → Runtime → Async SwitchPoint (Except String Unit) → Prop
  | minting (mint mint' : MintPoint) (answer : Answer) (r' : Runtime) :
      MintStep .throw r mint answer r' (.suspended mint') →
      SwitchStep key rec r (.minting mint) answer r' (.suspended (.minting mint'))
  | minted (mint : MintPoint) (answer : Answer) (r' : Runtime) :
      MintStep .throw r mint answer r' (.returned (.ok ())) →
      SwitchStep key rec r (.minting mint) answer r' (.suspended (.activating .reading))
  | rejected (mint : MintPoint) (answer : Answer) (error : MintError) (r' : Runtime) :
      MintStep .throw r mint answer r' (.returned (.error error)) →
      SwitchStep key rec r (.minting mint) answer r' (.returned (.error error.message))
  | activating (point point' : UpdatePoint) (answer : Answer) (r' : Runtime) :
      UpdateStep (.activateAndClearNeedsReauth key) r point answer r' (.suspended point') →
      SwitchStep key rec r (.activating point) answer r' (.suspended (.activating point'))
  | activated (point : UpdatePoint) (answer : Answer) (r' : Runtime) :
      UpdateStep (.activateAndClearNeedsReauth key) r point answer r' (.returned (.ok ())) →
      SwitchStep key rec r (.activating point) answer r' (.suspended .refreshing)
  | unwritten (point : UpdatePoint) (answer : Answer) (message : String) (r' : Runtime) :
      UpdateStep (.activateAndClearNeedsReauth key) r point answer r'
        (.returned (.error message)) →
      SwitchStep key rec r (.activating point) answer r' (.returned (.error message))
  | finished (answer : Answer) :
      SwitchStep key rec r .refreshing answer
        (({ r with lastUpstreamRejection := none } : Runtime).markSignedIn rec.login)
        (.returned (.ok ()))

theorem resumeSwitch_step {key : AccountKey} {rec : StoredRecord} {r r' : Runtime}
    {point : SwitchPoint} {answer : Answer} {out : Async SwitchPoint (Except String Unit)}
    (h : resumeSwitch key rec r point answer = some (r', out)) :
    SwitchStep key rec r point answer r' out := by
  unfold resumeSwitch at h
  split at h
  · obtain ⟨⟨r₁, mint | ⟨error | _⟩⟩, hmint, hrun⟩ := Option.map_eq_some_iff.1 h <;> cases hrun
    · exact .minting _ _ _ _ (resumeMint_step hmint)
    · exact .rejected _ _ _ _ (resumeMint_step hmint)
    · exact .minted _ _ _ (resumeMint_step hmint)
  · obtain ⟨⟨r₁, point | ⟨error | _⟩⟩, hupdate, hrun⟩ := Option.map_eq_some_iff.1 h <;> cases hrun
    · exact .activating _ _ _ _ (resumeUpdate_step hupdate)
    · exact .unwritten _ _ _ _ (resumeUpdate_step hupdate)
    · exact .activated _ _ _ (resumeUpdate_step hupdate)
  · cases h
    exact .finished _
  · cases h
    exact .finished _
  · cases h

/-- The GitHub token that the preflight is sent with: that of the session for what has none. -/
def preflightToken (r : Runtime) (rec : StoredRecord) : Option String :=
  rec.token.or r.githubToken

/-- The text of `preflightCopilotError`. -/
def preflightCopilotError (status : ℕ) (login? : Option String) : String :=
  let login := login?.getD "undefined"
  if status = 401 then
    "GitHub rejected " ++ login ++ "'s token — it may be expired or revoked. " ++
      "Run `gh auth login` and try again, or sign in with a code."
  else if status = 403 ∨ status = 404 then
    login ++ " doesn't have access to GitHub Copilot. " ++
      "Pick another account, or sign in with a code."
  else
    "Couldn't verify " ++ login ++ " with GitHub" ++
      (if status = 0 then "" else " (HTTP " ++ toString status ++ ")") ++
      ". Check your connection and try again."

/-! ## On request -/

inductive ActivateResult where
  | ok
  | failed (status : ℕ) (message : String)
  deriving DecidableEq, Repr

def resumeActivate (key : AccountKey) (r : Runtime) :
    ActivatePoint → Answer → Option (Runtime × Async ActivatePoint ActivateResult)
  | .reading, .done => some (afterRead r.registry)
  | .reading, .failed _ => some (afterRead emptyRegistry)
  | .preflight rec _, .done => some (whileSwitching rec (switchActiveAccountLive r rec))
  | .preflight rec _, .refused status _ =>
    some (r, .returned (.failed 422 (preflightCopilotError status rec.login)))
  | .switching rec switch, answer => (resumeSwitch key rec r switch answer).map (whileSwitching rec)
  | _, _ => none
where
  afterRead (reg : AccountRegistry) : Runtime × Async ActivatePoint ActivateResult :=
    match reg.find? key with
    | none => (r, .returned (.failed 404 ("No account " ++ key ++ ".")))
    | some rec =>
      match preflightToken r rec with
      | some token => (r, .suspended (.preflight rec token))
      -- Without a token nothing is sent.
      | none => (r, .returned (.failed 422 (preflightCopilotError 0 rec.login)))
  whileSwitching (rec : StoredRecord) :
      Runtime × Async SwitchPoint (Except String Unit) → Runtime × Async ActivatePoint ActivateResult
    | (r, .suspended switch) => (r, .suspended (.switching rec switch))
    | (r, .returned (.ok ())) => (r, .returned .ok)
    | (r, .returned (.error message)) => (r, .returned (.failed 422 message))

/-- What an answer to a requested switch can do. -/
inductive ActivateStep (key : AccountKey) (r : Runtime) :
    ActivatePoint → Answer → Runtime → Async ActivatePoint ActivateResult → Prop
  | refused (point : ActivatePoint) (answer : Answer) (status : ℕ) (message : String) :
      (∀ rec switch, point ≠ .switching rec switch) → point = .reading ∨ answer ≠ .done →
      ActivateStep key r point answer r (.returned (.failed status message))
  | found (answer : Answer) (reg : AccountRegistry) (rec : StoredRecord) (sentWith : String) :
      registryRead r answer = some reg → reg.find? key = some rec →
      preflightToken r rec = some sentWith →
      ActivateStep key r .reading answer r (.suspended (.preflight rec sentWith))
  | started (rec : StoredRecord) (sentWith : String) (r' : Runtime) (switch : SwitchPoint) :
      SwitchStart r rec r' (.suspended switch) →
      ActivateStep key r (.preflight rec sentWith) .done r' (.suspended (.switching rec switch))
  | switching (rec : StoredRecord) (switch switch' : SwitchPoint) (answer : Answer)
      (r' : Runtime) : SwitchStep key rec r switch answer r' (.suspended switch') →
      ActivateStep key r (.switching rec switch) answer r' (.suspended (.switching rec switch'))
  | activated (rec : StoredRecord) (switch : SwitchPoint) (answer : Answer) (r' : Runtime) :
      SwitchStep key rec r switch answer r' (.returned (.ok ())) →
      ActivateStep key r (.switching rec switch) answer r' (.returned .ok)
  | failed (rec : StoredRecord) (switch : SwitchPoint) (answer : Answer) (message : String)
      (r' : Runtime) : SwitchStep key rec r switch answer r' (.returned (.error message)) →
      ActivateStep key r (.switching rec switch) answer r' (.returned (.failed 422 message))

theorem resumeActivate_step {key : AccountKey} {r r' : Runtime} {point : ActivatePoint}
    {answer : Answer} {out : Async ActivatePoint ActivateResult}
    (h : resumeActivate key r point answer = some (r', out)) :
    ActivateStep key r point answer r' out := by
  have hread : ∀ answer reg, registryRead r answer = some reg →
      ActivateStep key r .reading answer (resumeActivate.afterRead key r reg).1
        (resumeActivate.afterRead key r reg).2 := by
    intro answer reg hreg
    unfold resumeActivate.afterRead
    split
    · exact .refused _ _ _ _ (by simp) (.inl rfl)
    · next rec hfound =>
      split
      · next sentWith htoken => exact .found _ reg _ _ hreg hfound htoken
      · exact .refused _ _ _ _ (by simp) (.inl rfl)
  unfold resumeActivate at h
  split at h
  · have hstep := hread .done r.registry rfl
    rwa [Option.some.inj h] at hstep
  · next message =>
    have hstep := hread (.failed message) emptyRegistry rfl
    rwa [Option.some.inj h] at hstep
  · next rec sentWith =>
    rw [Option.some.injEq] at h
    rcases hstart : switchActiveAccountLive r rec with ⟨r₁, switch | ⟨message | _⟩⟩ <;>
      rw [hstart] at h <;> cases h
    · exact .started _ _ _ _ (switchActiveAccountLive_step hstart)
    · cases switchActiveAccountLive_step hstart
    · cases switchActiveAccountLive_step hstart
  · cases h
    exact .refused _ _ _ _ (by simp) (.inr (by simp))
  · obtain ⟨⟨r₁, switch | ⟨message | _⟩⟩, hswitch, hrun⟩ := Option.map_eq_some_iff.1 h <;> cases hrun
    · exact .switching _ _ _ _ _ (resumeSwitch_step hswitch)
    · exact .failed _ _ _ _ _ (resumeSwitch_step hswitch)
    · exact .activated _ _ _ _ (resumeSwitch_step hswitch)
  · cases h

/-! ## The sweep -/

inductive SweepResult where
  | recovered
  | exhausted
  /-- A flag could not be written. -/
  | threw
  deriving DecidableEq, Repr

/-- The accounts that are neither active nor flagged. -/
def sweepCandidates (reg : AccountRegistry) : List Candidate :=
  reg.accounts.filter fun e => reg.activeKey ≠ some e.1 ∧ e.2.needsReauth = false

/-- `flagBad`. -/
def flagBad (r : Runtime) (cand : Candidate) (message : String) (rest : List Candidate) :
    Runtime × Async SweepPoint SweepResult :=
  (r, .suspended (.flagging (.markNeedsReauth cand.1 ⟨none, message, r.now⟩) .reading rest))

def tryCandidates (r : Runtime) : List Candidate → Runtime × Async SweepPoint SweepResult
  | [] => (r.clearTokenTrio, .returned .exhausted)
  | cand :: rest =>
    match preflightToken r cand.2 with
    | some token => (r, .suspended (.preflight cand token rest))
    -- Without a token nothing is sent.
    | none => flagBad r cand (preflightCopilotError 0 cand.2.login) rest

def resumeSweep (r : Runtime) :
    SweepPoint → Answer → Option (Runtime × Async SweepPoint SweepResult)
  | .reading, .done => some (tryCandidates r (sweepCandidates r.registry))
  | .reading, .failed _ => some (tryCandidates r [])
  | .preflight cand _ rest, .done =>
    some (whileSwitching cand rest (switchActiveAccountLive r cand.2))
  | .preflight cand _ rest, .refused status _ =>
    some (flagBad r cand (preflightCopilotError status cand.2.login) rest)
  | .flagging update point rest, answer =>
    (resumeUpdate update r point answer).map fun
      | (r, .suspended point) => (r, .suspended (.flagging update point rest))
      | (r, .returned (.ok ())) => tryCandidates r rest
      | (r, .returned (.error _)) => (r, .returned .threw)
  | .switching cand switch rest, answer =>
    (resumeSwitch cand.1 cand.2 r switch answer).map (whileSwitching cand rest)
  | _, _ => none
where
  whileSwitching (cand : Candidate) (rest : List Candidate) :
      Runtime × Async SwitchPoint (Except String Unit) → Runtime × Async SweepPoint SweepResult
    | (r, .suspended switch) => (r, .suspended (.switching cand switch rest))
    | (r, .returned (.ok ())) => (r, .returned .recovered)
    | (r, .returned (.error message)) => flagBad r cand message rest

/-- What comes of the candidates that are left. -/
inductive TryStep (r : Runtime) :
    List Candidate → Runtime → Async SweepPoint SweepResult → Prop
  | exhausted : TryStep r [] r.clearTokenTrio (.returned .exhausted)
  | sent (cand : Candidate) (sentWith : String) (rest : List Candidate) :
      preflightToken r cand.2 = some sentWith →
      TryStep r (cand :: rest) r (.suspended (.preflight cand sentWith rest))
  | unsent (cand : Candidate) (message : String) (rest : List Candidate) : cand.2.token = none →
      TryStep r (cand :: rest) (flagBad r cand message rest).1 (flagBad r cand message rest).2

theorem tryCandidates_step (r : Runtime) (cands : List Candidate) :
    TryStep r cands (tryCandidates r cands).1 (tryCandidates r cands).2 := by
  cases cands with
  | nil => exact .exhausted
  | cons cand rest =>
    dsimp only [tryCandidates]
    split
    · next sentWith htoken => exact .sent cand sentWith rest htoken
    · next htoken => exact .unsent cand _ rest (Option.or_eq_none_iff.1 htoken).1

/-- What an answer to the sweep can do. -/
inductive SweepStep (r : Runtime) :
    SweepPoint → Answer → Runtime → Async SweepPoint SweepResult → Prop
  | read (answer : Answer) (cands : List Candidate) (r' : Runtime)
      (out : Async SweepPoint SweepResult) :
      (registryRead r answer).map sweepCandidates = some cands → TryStep r cands r' out →
      SweepStep r .reading answer r' out
  | started (cand : Candidate) (sentWith : String) (rest : List Candidate) (r' : Runtime)
      (switch : SwitchPoint) : SwitchStart r cand.2 r' (.suspended switch) →
      SweepStep r (.preflight cand sentWith rest) .done r' (.suspended (.switching cand switch rest))
  | refused (cand : Candidate) (sentWith : String) (rest : List Candidate) (answer : Answer)
      (message : String) : answer ≠ .done →
      SweepStep r (.preflight cand sentWith rest) answer (flagBad r cand message rest).1
        (flagBad r cand message rest).2
  | flagging (update : RegistryUpdate) (point point' : UpdatePoint) (rest : List Candidate)
      (answer : Answer) (r' : Runtime) :
      UpdateStep update r point answer r' (.suspended point') →
      SweepStep r (.flagging update point rest) answer r'
        (.suspended (.flagging update point' rest))
  | flagged (update : RegistryUpdate) (point : UpdatePoint) (rest : List Candidate)
      (answer : Answer) (r₁ r' : Runtime) (out : Async SweepPoint SweepResult) :
      UpdateStep update r point answer r₁ (.returned (.ok ())) → TryStep r₁ rest r' out →
      SweepStep r (.flagging update point rest) answer r' out
  | threw (update : RegistryUpdate) (point : UpdatePoint) (rest : List Candidate)
      (answer : Answer) (message : String) (r' : Runtime) :
      UpdateStep update r point answer r' (.returned (.error message)) →
      SweepStep r (.flagging update point rest) answer r' (.returned .threw)
  | switching (cand : Candidate) (switch switch' : SwitchPoint) (rest : List Candidate)
      (answer : Answer) (r' : Runtime) :
      SwitchStep cand.1 cand.2 r switch answer r' (.suspended switch') →
      SweepStep r (.switching cand switch rest) answer r'
        (.suspended (.switching cand switch' rest))
  | recovered (cand : Candidate) (switch : SwitchPoint) (rest : List Candidate) (answer : Answer)
      (r' : Runtime) : SwitchStep cand.1 cand.2 r switch answer r' (.returned (.ok ())) →
      SweepStep r (.switching cand switch rest) answer r' (.returned .recovered)
  | failed (cand : Candidate) (switch : SwitchPoint) (rest : List Candidate) (answer : Answer)
      (message : String) (r' : Runtime) :
      SwitchStep cand.1 cand.2 r switch answer r' (.returned (.error message)) →
      SweepStep r (.switching cand switch rest) answer (flagBad r' cand message rest).1
        (flagBad r' cand message rest).2

theorem resumeSweep_step {r r' : Runtime} {point : SweepPoint} {answer : Answer}
    {out : Async SweepPoint SweepResult} (h : resumeSweep r point answer = some (r', out)) :
    SweepStep r point answer r' out := by
  have htry : ∀ {r₁ : Runtime} {cands : List Candidate}, tryCandidates r₁ cands = (r', out) →
      TryStep r₁ cands r' out := by
    intro r₁ cands htry
    have hstep := tryCandidates_step r₁ cands
    rwa [htry] at hstep
  unfold resumeSweep at h
  split at h
  · exact .read _ _ _ _ rfl (htry (Option.some.inj h))
  · exact .read _ _ _ _ rfl (htry (Option.some.inj h))
  · next cand sentWith rest =>
    rw [Option.some.injEq] at h
    rcases hstart : switchActiveAccountLive r cand.2 with ⟨r₁, switch | ⟨message | _⟩⟩ <;>
      rw [hstart] at h <;> cases h
    · exact .started _ _ _ _ _ (switchActiveAccountLive_step hstart)
    · cases switchActiveAccountLive_step hstart
    · cases switchActiveAccountLive_step hstart
  · cases h
    exact .refused _ _ _ _ _ (by simp)
  · obtain ⟨⟨r₁, point | ⟨message | _⟩⟩, hupdate, hrun⟩ := Option.map_eq_some_iff.1 h
    · cases hrun
      exact .flagging _ _ _ _ _ _ (resumeUpdate_step hupdate)
    · cases hrun
      exact .threw _ _ _ _ _ _ (resumeUpdate_step hupdate)
    · exact .flagged _ _ _ _ _ _ _ (resumeUpdate_step hupdate) (htry hrun)
  · obtain ⟨⟨r₁, switch | ⟨message | _⟩⟩, hswitch, hrun⟩ := Option.map_eq_some_iff.1 h <;> cases hrun
    · exact .switching _ _ _ _ _ _ (resumeSwitch_step hswitch)
    · exact .failed _ _ _ _ _ _ (resumeSwitch_step hswitch)
    · exact .recovered _ _ _ _ _ (resumeSwitch_step hswitch)
  · cases h

end Maximal.Auth
