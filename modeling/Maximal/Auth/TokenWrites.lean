import Maximal.Auth.Controller

/-!
# Writes of the GitHub token

The GitHub token is one variable, and many functions write it: a sign-in commits its own, a switch
writes the one of its account, a re-arm one that was renewed; a sign-out, a degrade and a sweep
without candidates wipe it. Requests carry the token that was current when they were sent, and a
bearer that arrives is one of the token on its request.

## Main definitions

- `TokenWrite`, `Label.write?` — what a step writes, by the function that is resumed and its answer
- `Task.sent?` — the token on the request that a function waits for
- `Coherent` — the bearer was minted with the current token
- `TokenEffect` — what a step makes of the tokens and of the requests

## Main results

- `step_tokens` — a step writes what it is said to write, and nothing else
-/

namespace Maximal.Auth

variable {r r' r'' r₁ : Runtime} {answer : Answer}

/-! ## Writes -/

/-- The token of an account, or none. -/
inductive TokenWrite where
  | account (token login : String)
  | wiped
  deriving DecidableEq, Repr

def TokenWrite.token : TokenWrite → Option String
  | account token _ => some token
  | wiped => none

def TokenWrite.login : TokenWrite → Option String
  | account _ login => some login
  | wiped => none

/-- What a switch to the record writes. -/
def StoredRecord.write : StoredRecord → TokenWrite
  | account rec => .account rec.token rec.login
  | bare _ _ => .wiped

theorem StoredRecord.token_write (rec : StoredRecord) : rec.write.token = rec.token := by
  cases rec <;> rfl

def wipedIf (wiped : Bool) : Option TokenWrite := if wiped then some .wiped else none

/-- Does the answer reach `markAuthDegraded`? -/
def Task.degrades : Task → Answer → Bool
  | .poller _ (.minting _ _ mint), answer => mint.isRejected answer
  | .setupCopilotToken .degrade mint, answer => mint.isRejected answer
  | .onlineRetry _ _ (.minting mint), answer => mint.isRejected answer
  | .refreshLoop _ point, answer => point.isRejected answer
  | _, _ => false

/-- Does the helper return without an error? -/
def UpdatePoint.succeeds (update : RegistryUpdate) (r : Runtime) : UpdatePoint → Answer → Bool
  | .reading, answer => UpdatePoint.reading.returns update r answer
  | .writing _, .done => true
  | _, _ => false

/-- A sweep begins a switch, or has no candidate left. -/
def SweepPoint.write? (r : Runtime) : SweepPoint → Answer → Option TokenWrite
  | .preflight cand _ _, .done => some cand.2.write
  | .reading, .done => wipedIf (sweepCandidates r.registry = [])
  | .reading, .failed _ => some .wiped
  | .flagging update point [], answer => wipedIf (point.succeeds update r answer)
  | _, _ => none

/-- What the answer writes. -/
def Task.write? (r : Runtime) : Task → Answer → Option TokenWrite
  | .poller _ (.adding _ rec (.writing _)), .done => some (.account rec.token rec.login)
  | .rearm (.renewing rec), .tokens renewed => some (.account renewed.accessToken rec.login)
  | .activate _ (.preflight rec _), .done => some rec.write
  | .degrade _ _ (.sweeping sweep), answer => sweep.write? r answer
  | task, answer => wipedIf (task.degrades answer && degradesNow r)

def Call.write? (r : Runtime) : Call → Option TokenWrite
  | .signOut => some .wiped
  | .markAuthDegraded _ => wipedIf (degradesNow r)
  | _ => none

/-- What the step writes. -/
def Label.write? (l : Label) (r : Runtime) : Option TokenWrite :=
  match l.event with
  | .idle => none
  | .call c => c.write? (r.atTime l.now)
  | .resume i answer => r.tasks[i]?.bind fun task => task.write? (r.atTime l.now) answer

/-! ## Requests on the way -/

/-- The GitHub token that the awaited request was sent with. -/
def MintPoint.sent? : MintPoint → Option (Option String)
  | .minting sentWith => some sentWith
  | _ => none

def SwitchPoint.sent? : SwitchPoint → Option (Option String)
  | .minting mint => mint.sent?
  | _ => none

def ActivatePoint.sent? : ActivatePoint → Option (Option String)
  | .switching _ switch => switch.sent?
  | _ => none

def SweepPoint.sent? : SweepPoint → Option (Option String)
  | .switching _ switch _ => switch.sent?
  | _ => none

def DegradePoint.sent? : DegradePoint → Option (Option String)
  | .sweeping sweep => sweep.sent?
  | _ => none

def PollerPoint.sent? : PollerPoint → Option (Option String)
  | .minting _ _ mint => mint.sent?
  | _ => none

def RearmPoint.sent? : RearmPoint → Option (Option String)
  | .first mint => mint.sent?
  | .second mint => mint.sent?
  | _ => none

def RefreshPoint.sent? : RefreshPoint → Option (Option String)
  | .refreshing sentWith _ => some sentWith
  | _ => none

def RetryPoint.sent? : RetryPoint → Option (Option String)
  | .minting mint => mint.sent?
  | _ => none

def Task.sent? : Task → Option (Option String)
  | .poller _ point => point.sent?
  | .rearm point => point.sent?
  | .degrade _ _ point => point.sent?
  | .activate _ point => point.sent?
  | .setupCopilotToken _ point => point.sent?
  | .refreshLoop _ point => point.sent?
  | .onlineRetry _ _ point => point.sent?
  | _ => none

def Answer.isMinted : Answer → Bool
  | .minted _ _ => true
  | _ => false

/-- The token that a bearer was asked for with, where the answer is one. -/
def Answer.mints (answer : Answer) (sent? : Option (Option String)) : Option (Option String) :=
  if answer.isMinted then sent? else none

theorem Answer.sent_of_mints {sent? : Option (Option String)} {sentWith : Option String}
    (h : sentWith ∈ answer.mints sent?) : sentWith ∈ sent? := by
  unfold mints at h
  split at h
  · exact h
  · cases h

/-- An answer with a bearer writes no GitHub token. -/
theorem Task.write?_of_minted {task : Task} {sentWith : Option String}
    (h : sentWith ∈ answer.mints task.sent?) : task.write? r answer = none := by
  have hsent := Answer.sent_of_mints h
  unfold Answer.mints at h
  split at h
  · next hminted =>
    cases answer with
    | minted token refreshIn =>
      cases task with
      | poller flow point => cases point with
        | minting user rec mint => cases mint <;> rfl
        | _ => cases hsent
      | rearm point => cases point <;> rfl
      | degrade id error point => cases point with
        | sweeping sweep => cases sweep with
          | switching => rfl
          | _ => cases hsent
        | _ => cases hsent
      | activate key point => cases point <;> rfl
      | setupCopilotToken onAuthFatal mint => cases onAuthFatal <;> cases mint <;> rfl
      | refreshLoop controller point => cases point <;> rfl
      | onlineRetry controller onOnline point => cases point with
        | minting mint => cases mint <;> rfl
        | _ => rfl
      | _ => cases hsent
    | _ => cases hminted
  · cases h

/-! ## The bearer -/

/-- The bearer was minted with the current GitHub token. -/
def Coherent (r : Runtime) : Prop := ∀ bearer ∈ r.copilotToken, bearer.mintedWith = r.githubToken

instance (r : Runtime) : Decidable (Coherent r) :=
  match h : r.copilotToken with
  | none => .isTrue (by simp [Coherent, h])
  | some bearer => decidable_of_iff (bearer.mintedWith = r.githubToken) (by simp [Coherent, h])

theorem Coherent.of_eq (hr : Coherent r) (hgithub : r'.githubToken = r.githubToken)
    (hcopilot : r'.copilotToken = r.copilotToken) : Coherent r' := by
  intro bearer hbearer
  rw [hgithub]
  exact hr bearer (hcopilot ▸ hbearer)

theorem coherent_of_none (h : r.copilotToken = none) : Coherent r := by
  simp [Coherent, h]

theorem coherent_of_minted {bearer : Bearer} (h : r.copilotToken = some bearer)
    (hminted : bearer.mintedWith = r.githubToken) : Coherent r := by
  simp [Coherent, h, hminted]

/-! ## What a step makes of the tokens -/

/-- The GitHub token is written as said. The bearer stays, or is of the current token, or is the one
that was asked for. The requests that are sent carry the current token. -/
structure TokenEffect (write? : Option TokenWrite) (minted? : Option (Option String))
    (r r' : Runtime) : Prop where
  githubToken : r'.githubToken = write?.elim r.githubToken TokenWrite.token
  bearer : r'.copilotToken = r.copilotToken ∨ Coherent r' ∨
    ∃ sentWith ∈ minted?, ∀ bearer ∈ r'.copilotToken, bearer.mintedWith = sentWith
  tasks : ∃ new, r'.tasks = r.tasks ++ new ∧
    ∀ task ∈ new, ∀ sentWith ∈ task.sent?, sentWith = r'.githubToken

namespace TokenEffect

variable {write? : Option TokenWrite} {minted? : Option (Option String)}

theorem of_eq (hgithub : r'.githubToken = r.githubToken)
    (hcopilot : r'.copilotToken = r.copilotToken)
    (htasks : r'.tasks = r.tasks) : TokenEffect none minted? r r' :=
  ⟨hgithub, .inl hcopilot, [], by rw [htasks, List.append_nil], by simp⟩

@[refl] theorem refl (r : Runtime) : TokenEffect none minted? r r := of_eq rfl rfl rfl

/-- The token is written. -/
theorem written {write : TokenWrite} (hgithub : r'.githubToken = write.token)
    (hcopilot : r'.copilotToken = r.copilotToken ∨ Coherent r') (htasks : r'.tasks = r.tasks) :
    TokenEffect (some write) minted? r r' :=
  ⟨hgithub, hcopilot.imp_right .inl, [], by rw [htasks, List.append_nil], by simp⟩

/-- A function is started that waits for no answer to a request. -/
theorem spawned {task : Task} (hgithub : r'.githubToken = r.githubToken)
    (hcopilot : r'.copilotToken = r.copilotToken ∨ Coherent r')
    (htasks : r'.tasks = r.tasks ++ [task]) (htask : task.sent? = none) :
    TokenEffect none minted? r r' := by
  refine ⟨hgithub, hcopilot.imp_right .inl, [task], htasks, ?_⟩
  simp [htask]

/-- What follows leaves the GitHub token. -/
theorem andThen (h : TokenEffect write? minted? r r₁) (h' : TokenEffect none none r₁ r') :
    TokenEffect write? minted? r r' := by
  have hgithub : r'.githubToken = r₁.githubToken := h'.githubToken
  refine ⟨hgithub.trans h.githubToken, ?_, ?_⟩
  · rcases h'.bearer with hkept | hcoherent | ⟨sentWith, hsent, -⟩
    · rw [hkept]
      exact h.bearer.imp_right (.imp_left (·.of_eq hgithub hkept))
    · exact .inr (.inl hcoherent)
    · cases hsent
  · obtain ⟨new, htasks, hnew⟩ := h.tasks
    obtain ⟨new', htasks', hnew'⟩ := h'.tasks
    refine ⟨new ++ new', by rw [htasks', htasks, List.append_assoc], fun task hmem => ?_⟩
    rcases List.mem_append.1 hmem with hold | hlate
    · rw [hgithub]
      exact hnew task hold
    · exact hnew' task hlate

/-- What comes before leaves the tokens and the functions. -/
theorem of_before (h : TokenEffect write? minted? r₁ r') (hgithub : r₁.githubToken = r.githubToken)
    (hcopilot : r₁.copilotToken = r.copilotToken) (htasks : r₁.tasks = r.tasks) :
    TokenEffect write? minted? r r' :=
  ⟨hgithub ▸ h.githubToken, hcopilot ▸ h.bearer, htasks ▸ h.tasks⟩

theorem of_none (h : TokenEffect write? none r r') : TokenEffect write? minted? r r' := by
  refine ⟨h.githubToken, ?_, h.tasks⟩
  rcases h.bearer with hkept | hcoherent | ⟨sentWith, hsent, -⟩
  · exact .inl hkept
  · exact .inr (.inl hcoherent)
  · cases hsent

end TokenEffect

/-- Where a function is suspended at a request, it is sent with the current token. -/
def Sends {P R : Type} (sent? : P → Option (Option String)) (r : Runtime) (out : Async P R) : Prop :=
  ∀ point, out = .suspended point → ∀ sentWith ∈ sent? point, sentWith = r.githubToken

theorem sends_of_none {P R : Type} {sent? : P → Option (Option String)} {point : P}
    (h : sent? point = none) : Sends sent? r (Async.suspended point : Async P R) := by
  rintro _ ⟨⟩ sentWith hsent
  rw [h] at hsent
  cases hsent

theorem sends_returned {P R : Type} {sent? : P → Option (Option String)} (result : R) :
    Sends sent? r (Async.returned result : Async P R) := by
  intro _ h
  cases h

theorem Sends.within {P Q R S : Type} {sent? : P → Option (Option String)}
    {sent?' : Q → Option (Option String)} {point : P} {point' : Q}
    (h : Sends sent? r (Async.suspended point : Async P R)) (hsame : sent?' point' = sent? point) :
    Sends sent?' r (Async.suspended point' : Async Q S) := by
  rintro _ ⟨⟩ sentWith hsent
  rw [hsame] at hsent
  exact h point rfl sentWith hsent

/-! ## The functions, one by one -/

theorem DegradeStep.tokens {error : CopilotAuthFatalError} {degrade : Option ℕ}
    (h : DegradeStep r error r' degrade) : TokenEffect (wipedIf (degradesNow r)) none r r' := by
  have hpassed : r.degradeInFlight = none → RECOVERY_GRACE_MS ≤ r.now - r.lastAuthSuccessMs →
      wipedIf (degradesNow r) = some .wiped := by
    intro hidle hgrace
    simp [degradesNow, wipedIf, hidle, hgrace]
  cases h with
  | joined degrade hjoined =>
    have hnot : wipedIf (degradesNow r) = none := by simp [degradesNow, wipedIf, hjoined]
    exact hnot ▸ .refl r
  | skipped hidle hgrace =>
    have hnot : wipedIf (degradesNow r) = none := by
      simp [degradesNow, wipedIf, Int.not_le.2 hgrace]
    exact hnot ▸ .refl r
  | repeated hidle _ hgrace =>
    rw [hpassed hidle hgrace]
    exact .written rfl (.inr (coherent_of_none rfl)) rfl
  | started hidle hgrace =>
    rw [hpassed hidle hgrace]
    have htorn : TokenEffect (some .wiped) none r (tearDown r) :=
      .written rfl (.inr (coherent_of_none rfl)) rfl
    exact htorn.andThen (.spawned rfl (.inl rfl) rfl rfl)

theorem SetupStep.tokens {out : Async MintPoint (Except MintError Unit)}
    (h : SetupStep r r' out) : TokenEffect none none r r' ∧ Sends MintPoint.sent? r' out := by
  cases h with
  | taken token htoken =>
    refine ⟨.spawned rfl (.inr ?_) rfl rfl, sends_returned _⟩
    exact coherent_of_minted rfl htoken.symm
  | sent =>
    refine ⟨.refl r, ?_⟩
    rintro _ ⟨⟩ sentWith hsent
    exact (Option.mem_some.1 hsent).symm

theorem MintStep.tokens {onAuthFatal : OnAuthFatal} {point : MintPoint}
    {out : Async MintPoint (Except MintError Unit)}
    (h : MintStep onAuthFatal r point answer r' out) :
    TokenEffect (wipedIf (onAuthFatal = .degrade && point.isRejected answer && degradesNow r))
      (answer.mints point.sent?) r r' ∧ Sends MintPoint.sent? r' out := by
  have hkept : ∀ {wiped : Bool} {minted? : Option (Option String)}, wiped = false →
      TokenEffect (wipedIf wiped) minted? r r := by
    rintro wiped minted? rfl
    exact .refl r
  cases h with
  | minted sentWith token refreshIn =>
    have hnot : MintPoint.isRejected (.minting sentWith) (.minted token refreshIn) = false := rfl
    rw [hnot, Bool.and_false, Bool.false_and]
    refine ⟨⟨rfl, .inr (.inr ⟨sentWith, rfl, ?_⟩), ?_⟩, sends_returned _⟩
    · rintro bearer ⟨⟩
      rfl
    · refine ⟨[.clearActiveNeedsReauth .reading, _], List.append_assoc _ _ _, fun task hmem => ?_⟩
      rcases List.mem_pair.1 hmem with rfl | rfl <;> exact fun _ hsent => by cases hsent
  | degraded sentWith status remediationUrl _ degrade hdegrades hfatal hdegrade =>
    have hreaches : MintPoint.isRejected (.minting sentWith) (.refused status remediationUrl) =
        true := hfatal
    rw [hreaches, hdegrades, decide_eq_true rfl, Bool.true_and, Bool.true_and]
    refine ⟨hdegrade.tokens.of_none, ?_⟩
    cases degrade with
    | none => exact sends_returned _
    | some degrade => exact sends_of_none rfl
  | refused _ _ _ hthrow => exact ⟨hkept (by simp [hthrow]), sends_returned _⟩
  | failed _ answer _ htransient =>
    refine ⟨hkept ?_, sends_returned _⟩
    cases answer with
    | refused status =>
      have hstatus : isAuthFatal status = false := by simpa [Answer.isTransient] using htransient
      simp [MintPoint.isRejected, hstatus]
    | _ => simp [MintPoint.isRejected]
  | unreachable => exact ⟨hkept (by simp [MintPoint.isRejected]), sends_of_none rfl⟩
  | degradeOver => exact ⟨hkept (by simp [MintPoint.isRejected]), sends_returned _⟩
  | diagnosed => exact ⟨hkept (by simp [MintPoint.isRejected]), sends_returned _⟩

/-- A mint that throws wipes nothing. -/
theorem MintStep.tokens_throw {point : MintPoint} {out : Async MintPoint (Except MintError Unit)}
    (h : MintStep .throw r point answer r' out) :
    TokenEffect none (answer.mints point.sent?) r r' ∧ Sends MintPoint.sent? r' out := h.tokens

theorem UpdateStep.tokens {update : RegistryUpdate} {point : UpdatePoint}
    {out : Async UpdatePoint (Except String Unit)} {minted? : Option (Option String)}
    (h : UpdateStep update r point answer r' out) : TokenEffect none minted? r r' := by
  cases h <;> exact .of_eq rfl rfl rfl

theorem UpdateStep.succeeds {update : RegistryUpdate} {point : UpdatePoint}
    (h : UpdateStep update r point answer r' (.returned (.ok ()))) :
    point.succeeds update r answer = true := by
  cases h with
  | idle answer reg hread hidle => exact UpdateStep.returns (.idle answer reg hread hidle)
  | written => rfl

theorem UpdateStep.not_succeeds {update : RegistryUpdate} {point : UpdatePoint}
    {out : Async UpdatePoint (Except String Unit)} (h : UpdateStep update r point answer r' out)
    (hout : out ≠ .returned (.ok ())) : point.succeeds update r answer = false := by
  cases h with
  | read answer reg next hread hnext =>
    cases answer <;> cases hread
    · exact (congrArg Option.isNone hnext).trans rfl
    · exact (congrArg Option.isNone hnext).trans rfl
  | failed => rfl
  | idle | written => exact absurd rfl hout

theorem HeadStep.tokens {controller : ℕ} {out : Async RefreshPoint Unit}
    (h : HeadStep r controller r' out) :
    TokenEffect none none r r' ∧ Sends RefreshPoint.sent? r' out := by
  cases h with
  | ended => exact ⟨.of_eq rfl rfl rfl, sends_returned _⟩
  | waiting => exact ⟨.refl r, sends_of_none rfl⟩
  | refreshing =>
    refine ⟨.refl r, ?_⟩
    rintro _ ⟨⟩ sentWith hsent
    exact (Option.mem_some.1 hsent).symm

theorem bearerRefreshed_tokens (r : Runtime) (bearer : Bearer) (fatalRetries : ℕ) :
    TokenEffect none (some bearer.mintedWith) r (bearerRefreshed r bearer fatalRetries) := by
  refine ⟨rfl, .inr (.inr ⟨_, rfl, ?_⟩), ?_⟩
  · rintro bearer ⟨⟩
    rfl
  · by_cases hretries : fatalRetries > 0
    · exact ⟨[.clearActiveNeedsReauth .reading], if_pos hretries, by simp [Task.sent?]⟩
    · exact ⟨[], (if_neg hretries).trans (List.append_nil _).symm, by simp⟩

theorem RefreshStep.tokens {controller : ℕ} {point : RefreshPoint} {out : Async RefreshPoint Unit}
    (h : RefreshStep controller r point answer r' out) :
    TokenEffect (wipedIf (point.isRejected answer && degradesNow r)) (answer.mints point.sent?) r r' ∧
      Sends RefreshPoint.sent? r' out := by
  have hbanner : ∀ {r₁ : Runtime} {banner : Option NetworkBanner} {write? : Option TokenWrite}
      {minted? : Option (Option String)},
      TokenEffect write? minted? { r with networkDiagnosis := banner } r₁ →
      TokenEffect write? minted? r r₁ := fun h => h.of_before rfl rfl rfl
  cases h with
  | refreshed sentWith fatalRetries token refreshIn _ _ hhead =>
    obtain ⟨htokens, hsends⟩ := hhead.tokens
    exact ⟨(bearerRefreshed_tokens r ⟨token, sentWith⟩ fatalRetries).andThen htokens, hsends⟩
  | continued _ _ banner _ _ hhead hrejected =>
    obtain ⟨htokens, hsends⟩ := hhead.tokens
    rw [hrejected, Bool.false_and]
    exact ⟨hbanner htokens.of_none, hsends⟩
  | degraded _ _ _ _ _ _ hdegrade hrejected =>
    rw [hrejected, Bool.true_and]
    exact ⟨hbanner hdegrade.tokens.of_none, sends_of_none rfl⟩
  | stopped _ _ _ _ _ hdegrade hrejected =>
    rw [hrejected, Bool.true_and]
    exact ⟨hbanner (hdegrade.tokens.of_none.andThen (.of_eq rfl rfl rfl)), sends_returned _⟩
  | unreachable => exact ⟨.refl r, sends_of_none rfl⟩
  | degradeOver => exact ⟨.of_eq rfl rfl rfl, sends_returned _⟩

theorem ScheduleStep.tokens {onOnline : Option (Option String)} (h : ScheduleStep r onOnline r') :
    TokenEffect none none r r' := by
  cases h with
  | ended => exact .of_eq rfl rfl rfl
  | waiting => exact .spawned rfl (.inl rfl) rfl rfl

theorem retryLoopHead_tokens {controller : ℕ} {out : Async RetryPoint Unit}
    (h : retryLoopHead r controller = (r', out)) :
    TokenEffect none none r r' ∧ Sends RetryPoint.sent? r' out := by
  unfold retryLoopHead at h
  split at h <;> cases h
  · exact ⟨.of_eq rfl rfl rfl, sends_returned _⟩
  · exact ⟨.refl r, sends_of_none rfl⟩

/-- A bearer that is taken back is none. -/
theorem retryMinted_tokens {controller : ℕ} {out : Async RetryPoint Unit}
    (h : retryMinted r controller = (r', out)) :
    TokenEffect none none r r' ∧ Sends RetryPoint.sent? r' out := by
  unfold retryMinted at h
  split at h <;> cases h
  · refine ⟨⟨rfl, .inr (.inl (coherent_of_none rfl)), [], ?_, by simp⟩, sends_returned _⟩
    exact (List.append_nil _).symm
  · exact ⟨.refl r, sends_of_none rfl⟩

theorem RetryStep.tokens {controller : ℕ} {onOnline : Option (Option String)} {point : RetryPoint}
    {out : Async RetryPoint Unit} (h : RetryStep controller onOnline r point answer r' out) :
    TokenEffect
        (wipedIf ((Task.onlineRetry controller onOnline point).degrades answer && degradesNow r))
        (answer.mints point.sent?) r r' ∧ Sends RetryPoint.sent? r' out := by
  cases h with
  | ended point answer hpoint =>
    cases point with
    | minting mint => exact absurd rfl (hpoint mint)
    | waiting | caching | identifying => exact ⟨.of_eq rfl rfl rfl, sends_returned _⟩
  | sent _ _ hsetup =>
    obtain ⟨htokens, hsends⟩ := hsetup.tokens
    exact ⟨htokens.of_none, hsends.within rfl⟩
  | taken _ _ _ hsetup hminted =>
    obtain ⟨htokens, hsends⟩ := retryMinted_tokens hminted
    exact ⟨hsetup.tokens.1.of_none.andThen htokens, hsends⟩
  | minting _ _ _ _ hmint =>
    obtain ⟨htokens, hsends⟩ := hmint.tokens
    exact ⟨htokens, hsends.within rfl⟩
  | minted _ _ _ _ _ hmint hminted =>
    obtain ⟨htokens, hsends⟩ := retryMinted_tokens hminted
    exact ⟨hmint.tokens.1.andThen htokens, hsends⟩
  | rejected _ _ _ _ hmint => exact ⟨hmint.tokens.1.andThen (.of_eq rfl rfl rfl), sends_returned _⟩
  | failed _ _ _ _ _ _ hmint hhead =>
    obtain ⟨htokens, hsends⟩ := retryLoopHead_tokens hhead
    exact ⟨hmint.tokens.1.andThen htokens, hsends⟩
  | online => exact ⟨.of_eq rfl rfl rfl, sends_returned _⟩
  | unnamed => exact ⟨.of_eq rfl rfl rfl, sends_of_none rfl⟩
  | identified => exact ⟨.of_eq rfl rfl rfl, sends_returned _⟩
  | unidentified => exact ⟨.refl r, sends_returned _⟩

/-! ### Switches -/

theorem SwitchStart.tokens {rec : StoredRecord} {out : Async SwitchPoint (Except String Unit)}
    {minted? : Option (Option String)} (h : SwitchStart r rec r' out) :
    TokenEffect (some rec.write) minted? r r' ∧ Sends SwitchPoint.sent? r' out := by
  have hswitched : TokenEffect (some rec.write) minted? r (switched r rec) :=
    .written rec.token_write.symm (.inl rfl) rfl
  cases h with
  | sent _ hsetup =>
    obtain ⟨htokens, hsends⟩ := hsetup.tokens
    exact ⟨hswitched.andThen htokens, hsends.within rfl⟩
  | taken hsetup => exact ⟨hswitched.andThen hsetup.tokens.1, sends_of_none rfl⟩

theorem SwitchStep.tokens {key : AccountKey} {rec : StoredRecord} {point : SwitchPoint}
    {out : Async SwitchPoint (Except String Unit)} (h : SwitchStep key rec r point answer r' out) :
    TokenEffect none (answer.mints point.sent?) r r' ∧ Sends SwitchPoint.sent? r' out := by
  cases h with
  | minting _ _ _ _ hmint =>
    obtain ⟨htokens, hsends⟩ := hmint.tokens_throw
    exact ⟨htokens, hsends.within rfl⟩
  | minted _ _ _ hmint => exact ⟨hmint.tokens_throw.1, sends_of_none rfl⟩
  | rejected _ _ _ _ hmint => exact ⟨hmint.tokens_throw.1, sends_returned _⟩
  | activating _ _ _ _ hupdate => exact ⟨hupdate.tokens, sends_of_none rfl⟩
  | activated _ _ _ hupdate => exact ⟨hupdate.tokens, sends_of_none rfl⟩
  | unwritten _ _ _ _ hupdate => exact ⟨hupdate.tokens, sends_returned _⟩
  | finished => exact ⟨.of_eq rfl rfl rfl, sends_returned _⟩

theorem ActivateStep.tokens {key : AccountKey} {point : ActivatePoint}
    {out : Async ActivatePoint ActivateResult} (h : ActivateStep key r point answer r' out) :
    TokenEffect ((Task.activate key point).write? r answer) (answer.mints point.sent?) r r' ∧
      Sends ActivatePoint.sent? r' out := by
  cases h with
  | refused point _ _ _ hpoint hanswer =>
    refine ⟨?_, sends_returned _⟩
    cases point with
    | switching rec switch => exact absurd rfl (hpoint rec switch)
    | reading => exact .refl r
    | preflight rec sentWith =>
      have hdone : answer ≠ .done := hanswer.resolve_left (by simp)
      cases answer with
      | done => exact absurd rfl hdone
      | _ => exact .refl r
  | found => exact ⟨.refl r, sends_of_none rfl⟩
  | started rec _ _ switch hstart =>
    obtain ⟨htokens, hsends⟩ := hstart.tokens
    exact ⟨htokens, hsends.within rfl⟩
  | switching _ _ _ _ _ hswitch =>
    obtain ⟨htokens, hsends⟩ := hswitch.tokens
    exact ⟨htokens, hsends.within rfl⟩
  | activated _ _ _ _ hswitch => exact ⟨hswitch.tokens.1, sends_returned _⟩
  | failed _ _ _ _ _ hswitch => exact ⟨hswitch.tokens.1, sends_returned _⟩

theorem flagBad_tokens (r : Runtime) (cand : Candidate) (message : String) (rest : List Candidate) :
    TokenEffect none none r (flagBad r cand message rest).1 ∧
      Sends SweepPoint.sent? (flagBad r cand message rest).1 (flagBad r cand message rest).2 :=
  ⟨.refl r, sends_of_none rfl⟩

theorem TryStep.tokens {cands : List Candidate} {out : Async SweepPoint SweepResult}
    (h : TryStep r cands r' out) :
    TokenEffect (wipedIf (cands = [])) none r r' ∧ Sends SweepPoint.sent? r' out := by
  cases h with
  | exhausted => exact ⟨.written rfl (.inr (coherent_of_none rfl)) rfl, sends_returned _⟩
  | sent => exact ⟨.refl r, sends_of_none rfl⟩
  | unsent cand message rest => exact flagBad_tokens r cand message rest

theorem SweepStep.tokens {point : SweepPoint} {out : Async SweepPoint SweepResult}
    (h : SweepStep r point answer r' out) :
    TokenEffect (point.write? r answer) (answer.mints point.sent?) r r' ∧
      Sends SweepPoint.sent? r' out := by
  cases h with
  | read answer cands _ _ hread htry =>
    obtain ⟨htokens, hsends⟩ := htry.tokens
    obtain ⟨reg, hreg, rfl⟩ := Option.map_eq_some_iff.1 hread
    refine ⟨?_, hsends⟩
    cases answer <;> cases hreg <;> exact htokens.of_none
  | started cand _ rest _ switch hstart =>
    obtain ⟨htokens, hsends⟩ := hstart.tokens
    exact ⟨htokens, hsends.within rfl⟩
  | refused cand _ rest answer message hanswer =>
    obtain ⟨htokens, hsends⟩ := flagBad_tokens r cand message rest
    refine ⟨?_, hsends⟩
    cases answer with
    | done => exact absurd rfl hanswer
    | _ => exact htokens.of_none
  | flagging update point _ rest _ _ hupdate =>
    have hnot := hupdate.not_succeeds (by simp)
    refine ⟨?_, sends_of_none rfl⟩
    cases rest with
    | nil =>
      show TokenEffect (wipedIf (point.succeeds update r answer)) _ r r'
      rw [hnot]
      exact hupdate.tokens
    | cons => exact hupdate.tokens
  | flagged update point rest _ r₁ _ _ hupdate htry =>
    obtain ⟨htokens, hsends⟩ := htry.tokens
    have hsucceeds := hupdate.succeeds
    have hkept : r₁.githubToken = r.githubToken ∧ r₁.copilotToken = r.copilotToken ∧
        r₁.tasks = r.tasks := by cases hupdate <;> exact ⟨rfl, rfl, rfl⟩
    refine ⟨?_, hsends⟩
    have hflagged := htokens.of_before hkept.1 hkept.2.1 hkept.2.2
    cases rest with
    | nil =>
      show TokenEffect (wipedIf (point.succeeds update r answer)) _ r r'
      rw [hsucceeds]
      exact hflagged.of_none
    | cons => exact hflagged.of_none
  | threw update point rest _ _ _ hupdate =>
    have hnot := hupdate.not_succeeds (by simp)
    refine ⟨?_, sends_returned _⟩
    cases rest with
    | nil =>
      show TokenEffect (wipedIf (point.succeeds update r answer)) _ r r'
      rw [hnot]
      exact hupdate.tokens
    | cons => exact hupdate.tokens
  | switching _ _ _ _ _ _ hswitch =>
    obtain ⟨htokens, hsends⟩ := hswitch.tokens
    exact ⟨htokens, hsends.within rfl⟩
  | recovered _ _ _ _ _ hswitch => exact ⟨hswitch.tokens.1, sends_returned _⟩
  | failed cand _ rest _ message r₁ hswitch =>
    obtain ⟨htokens, hsends⟩ := flagBad_tokens r₁ cand message rest
    exact ⟨hswitch.tokens.1.andThen htokens, hsends⟩

theorem DegradeResume.tokens {id : ℕ} {error : CopilotAuthFatalError} {point : DegradePoint}
    {out : Async DegradePoint Unit} (h : DegradeResume error r point answer r' out) :
    TokenEffect ((Task.degrade id error point).write? r answer) (answer.mints point.sent?) r r' ∧
      Sends DegradePoint.sent? r' out := by
  cases h with
  | flagging _ _ _ _ _ hupdate => exact ⟨hupdate.tokens, sends_of_none rfl⟩
  | sweepStarted _ _ _ _ _ hupdate => exact ⟨hupdate.tokens, sends_of_none rfl⟩
  | flagged _ _ _ _ _ hupdate => exact ⟨hupdate.tokens.andThen (.of_eq rfl rfl rfl), sends_returned _⟩
  | sweeping _ _ _ _ hsweep =>
    obtain ⟨htokens, hsends⟩ := hsweep.tokens
    exact ⟨htokens, hsends.within rfl⟩
  | recovered _ _ _ hsweep => exact ⟨hsweep.tokens.1.andThen (.of_eq rfl rfl rfl), sends_returned _⟩
  | exhausted _ _ _ _ hsweep => exact ⟨hsweep.tokens.1.andThen (.of_eq rfl rfl rfl), sends_returned _⟩

theorem SignOutStep.tokens {point : SignOutPoint} {out : Async SignOutPoint Unit}
    {minted? : Option (Option String)} (h : SignOutStep r point answer r' out) :
    TokenEffect none minted? r r' := by
  cases h with
  | deactivating _ _ _ _ hupdate => exact hupdate.tokens
  | deactivated _ _ _ _ hupdate => exact hupdate.tokens
  | unlinked => exact .refl r

/-! ### Re-arms and sign-ins -/

theorem rearmFinished_tokens (r : Runtime) :
    TokenEffect none none r (rearmEnded (finishRearmOnline r)) := by
  unfold finishRearmOnline
  split <;> exact .of_eq rfl rfl rfl

theorem RearmStep.tokens {point : RearmPoint} {out : Async RearmPoint RearmOutcome}
    (h : RearmStep r point answer r' out) :
    TokenEffect ((Task.rearm point).write? r answer) (answer.mints point.sent?) r r' ∧
      Sends RearmPoint.sent? r' out := by
  have hended : ∀ {r : Runtime} {minted? : Option (Option String)},
      TokenEffect none minted? r (rearmEnded r) := .of_eq rfl rfl rfl
  cases h with
  | first _ _ _ _ hmint | second _ _ _ _ hmint =>
    obtain ⟨htokens, hsends⟩ := hmint.tokens_throw
    exact ⟨htokens, hsends.within rfl⟩
  | firstMinted _ _ _ hmint | secondMinted _ _ _ hmint =>
    exact ⟨hmint.tokens_throw.1.andThen (rearmFinished_tokens _), sends_returned _⟩
  | firstRejected _ _ _ _ hmint => exact ⟨hmint.tokens_throw.1, sends_of_none rfl⟩
  | firstFailed _ _ _ _ hmint => exact ⟨hmint.tokens_throw.1.andThen hended, sends_returned _⟩
  | secondFailed _ _ _ _ _ hmint => exact ⟨hmint.tokens_throw.1.andThen hended, sends_returned _⟩
  | read => exact ⟨.refl r, sends_of_none rfl⟩
  | noRefreshToken => exact ⟨hended, sends_returned _⟩
  | notRenewed => exact ⟨hended, sends_returned _⟩
  | renewed => exact ⟨.written rfl (.inl rfl) rfl, sends_of_none rfl⟩
  | persisting _ _ _ _ _ hupdate => exact ⟨hupdate.tokens, sends_of_none rfl⟩
  | persisted _ _ _ _ _ _ _ hupdate hsetup =>
    obtain ⟨htokens, hsends⟩ := hsetup.tokens
    exact ⟨hupdate.tokens.andThen htokens, hsends.within rfl⟩
  | persistedTaken _ _ _ _ _ _ hupdate hsetup =>
    exact ⟨(hupdate.tokens.andThen hsetup.tokens.1).andThen (rearmFinished_tokens _),
      sends_returned _⟩

theorem flowFailed_tokens {minted? : Option (Option String)} (r : Runtime) (flow : ActiveFlow)
    (message : String) : TokenEffect none minted? r (flowFailed r flow message) := by
  unfold flowFailed
  split <;> exact .of_eq rfl rfl rfl

theorem pollerMinted_tokens {flow : ActiveFlow} {user : GitHubUser} {rec : AccountRecord}
    {copilotMinted : Bool} {out : Async PollerPoint Unit}
    (h : pollerMinted r flow user rec copilotMinted = (r', out)) :
    r' = r ∧ Sends PollerPoint.sent? r' out := by
  unfold pollerMinted at h
  split at h <;> cases h
  · exact ⟨rfl, sends_returned _⟩
  · exact ⟨rfl, sends_of_none rfl⟩

theorem PollerStep.tokens {flow : ActiveFlow} {point : PollerPoint} {out : Async PollerPoint Unit}
    (h : PollerStep flow r point answer r' out) :
    TokenEffect ((Task.poller flow point).write? r answer) (answer.mints point.sent?) r r' ∧
      Sends PollerPoint.sent? r' out := by
  have hcommitted : ∀ {rec : AccountRecord} {next : AccountRegistry}
      {minted? : Option (Option String)}, TokenEffect (some (.account rec.token rec.login)) minted? r
        (({ r with registry := next } : Runtime).setGithubToken rec.token) :=
    .written rfl (.inl rfl) rfl
  cases h with
  | abandoned => exact ⟨.refl r, sends_returned _⟩
  | approved => exact ⟨.refl r, sends_of_none rfl⟩
  | pollFailed => exact ⟨flowFailed_tokens r flow _, sends_returned _⟩
  | unverified => exact ⟨flowFailed_tokens r flow _, sends_returned _⟩
  | unwanted => exact ⟨.of_eq rfl rfl rfl, sends_returned _⟩
  | verified => exact ⟨.of_eq rfl rfl rfl, sends_of_none rfl⟩
  | adding _ _ _ _ _ _ hupdate =>
    refine ⟨?_, sends_of_none rfl⟩
    cases hupdate
    exact .refl r
  | addFailed _ _ _ _ message _ hupdate =>
    refine ⟨?_, sends_returned _⟩
    cases hupdate
    exact flowFailed_tokens r flow message
  | committed _ _ _ _ _ _ _ hupdate hsetup =>
    obtain ⟨next, rfl, rfl, rfl⟩ := hupdate.written_of_addAccount
    obtain ⟨htokens, hsends⟩ := hsetup.tokens
    exact ⟨hcommitted.andThen htokens, hsends.within rfl⟩
  | committedTaken _ _ _ _ _ _ _ _ hupdate hsetup hminted =>
    obtain ⟨next, rfl, rfl, rfl⟩ := hupdate.written_of_addAccount
    obtain ⟨rfl, hsends⟩ := pollerMinted_tokens hminted
    exact ⟨hcommitted.andThen hsetup.tokens.1, hsends⟩
  | minting _ _ _ _ _ _ hmint =>
    obtain ⟨htokens, hsends⟩ := hmint.tokens
    exact ⟨htokens, hsends.within rfl⟩
  | minted _ _ _ _ _ _ _ hmint hminted =>
    obtain ⟨rfl, hsends⟩ := pollerMinted_tokens hminted
    exact ⟨hmint.tokens.1, hsends⟩
  | rejected _ _ _ _ _ _ hmint => exact ⟨hmint.tokens.1, sends_returned _⟩
  | retried _ _ _ _ _ _ _ _ _ hmint hschedule hminted =>
    obtain ⟨rfl, hsends⟩ := pollerMinted_tokens hminted
    exact ⟨hmint.tokens.1.andThen hschedule.tokens, hsends⟩
  | finished _ _ copilotMinted =>
    refine ⟨?_, sends_returned _⟩
    cases copilotMinted <;> exact .of_eq rfl rfl rfl

/-! ## The machine -/

theorem TokenEffect.settle {P R : Type} {write? : Option TokenWrite}
    {minted? : Option (Option String)} {sent? : P → Option (Option String)} {mk : P → Task}
    {out : Async P R} (h : TokenEffect write? minted? r r' ∧ Sends sent? r' out)
    (hmk : ∀ point, (mk point).sent? = sent? point) :
    TokenEffect write? minted? r (settle mk (r', out)) := by
  obtain ⟨htokens, hsends⟩ := h
  cases out with
  | returned => exact htokens
  | suspended point =>
    refine htokens.andThen ⟨rfl, .inl rfl, [mk point], rfl, fun task hmem sentWith hsent => ?_⟩
    rw [List.mem_singleton.1 hmem, hmk] at hsent
    exact hsends point rfl sentWith hsent

theorem TaskStep.tokens {task : Task} (h : TaskStep r task answer r') :
    TokenEffect (task.write? r answer) (answer.mints task.sent?) r r' := by
  have hidle : ∀ {P R : Type} (r' : Runtime) (out : Async P R),
      Sends (fun _ => none) r' out := by
    intro P R r' out point _ sentWith hsent
    cases hsent
  cases h with
  | installed resume code => exact .spawned rfl (.inl rfl) rfl rfl
  | notInstalled => exact .refl r
  | poller _ _ _ _ _ hstep => exact .settle hstep.tokens fun _ => rfl
  | signOut _ _ _ _ hstep => exact .settle ⟨hstep.tokens, hidle _ _⟩ fun _ => rfl
  | rearm _ _ _ _ hstep => exact .settle hstep.tokens fun _ => rfl
  | degrade _ _ _ _ _ _ hstep => exact .settle hstep.tokens fun _ => rfl
  | activate _ _ _ _ _ hstep => exact .settle hstep.tokens fun _ => rfl
  | mint onAuthFatal _ _ _ _ hstep =>
    cases onAuthFatal with
    | degrade => exact .settle hstep.tokens fun _ => rfl
    | throw => exact .settle hstep.tokens_throw fun _ => rfl
  | refresh _ _ _ _ _ hstep => exact .settle hstep.tokens fun _ => rfl
  | retry _ _ _ _ _ _ hstep => exact .settle hstep.tokens fun _ => rfl
  | cleared _ _ _ _ hstep => exact .settle ⟨hstep.tokens, hidle _ _⟩ fun _ => rfl

theorem call_tokens (r : Runtime) (c : Call) : TokenEffect (c.write? r) none r (call r c) := by
  cases c with
  | startDeviceFlow =>
    show TokenEffect none none r (startDeviceFlow r)
    unfold startDeviceFlow
    split
    · split
      · exact .spawned rfl (.inl rfl) rfl rfl
      · exact .refl r
    · exact .spawned rfl (.inl rfl) rfl rfl
  | cancelDeviceFlow =>
    show TokenEffect none none r (cancelDeviceFlow r)
    unfold cancelDeviceFlow
    split
    · exact .refl r
    · exact .of_eq rfl rfl rfl
  | signOut =>
    refine ⟨rfl, .inr (.inl (coherent_of_none rfl)), [.signOut (.deactivating .reading)], rfl, ?_⟩
    simp [Task.sent?]
  | rearmCopilotAuth =>
    show TokenEffect none none r (rearmCopilotAuth r)
    unfold rearmCopilotAuth
    split
    · exact .refl r
    · split
      · exact .refl r
      · next token htoken =>
        split
        · exact .refl r
        · refine ⟨rfl, .inl rfl, [.rearm (.first (.minting (some token)))], rfl, ?_⟩
          simp [Task.sent?, RearmPoint.sent?, MintPoint.sent?, htoken]
  | markAuthDegraded error => exact (markAuthDegraded_step r error).tokens
  | activateAccountLive key => exact .spawned rfl (.inl rfl) rfl rfl
  | setupCopilotToken onAuthFatal =>
    have hsetup : SetupStep r (setupCopilotToken r).1 (setupCopilotToken r).2 :=
      setupCopilotToken_step rfl
    exact .settle hsetup.tokens fun _ => rfl
  | scheduleCopilotOnlineRetry onOnline => exact (scheduleCopilotOnlineRetry_step r onOnline).tokens

theorem Task.write?_without (r : Runtime) (now : ℤ) (i : ℕ) (task : Task) (answer : Answer) :
    task.write? ((r.atTime now).without i) answer = task.write? (r.atTime now) answer := by
  unfold Task.write?
  rfl

/-- The token on the request that the step answers with a bearer. -/
def Label.minted? (l : Label) (r : Runtime) : Option (Option String) :=
  match l.event with
  | .resume i answer => answer.mints (r.tasks[i]?.bind (·.sent?))
  | _ => none

theorem Label.write?_of_minted {l : Label} {sentWith : Option String}
    (h : sentWith ∈ l.minted? r) : l.write? r = none := by
  unfold minted? at h
  unfold write?
  split at h
  · next i answer hevent =>
    simp only [hevent]
    obtain ⟨task, htask, hsent⟩ := Option.bind_eq_some_iff.1 (Answer.sent_of_mints h)
    rw [htask, Option.bind_some] at h ⊢
    exact Task.write?_of_minted h
  · cases h

/-- The functions that stay suspended. -/
def Label.others {α : Type} (l : Label) (tasks : List α) : List α :=
  match l.event with
  | .resume i _ => tasks.eraseIdx i
  | _ => tasks

/-- A step writes the GitHub token where it is said to, and nowhere else. -/
theorem step_tokens {l : Label} (h : step l r = some r') :
    TokenEffect (l.write? r) (l.minted? r) { r with tasks := l.others r.tasks } r' := by
  cases step_step h with
  | idle hevent =>
    simp only [Label.write?, Label.minted?, Label.others, hevent]
    exact .of_eq rfl rfl rfl
  | called c hevent =>
    simp only [Label.write?, Label.minted?, Label.others, hevent]
    exact (call_tokens (r.atTime l.now) c).of_before rfl rfl rfl
  | resumed i answer task _ hevent htask hresume =>
    simp only [Label.write?, Label.minted?, Label.others, hevent, htask, Option.bind_some]
    rw [← Task.write?_without r l.now i]
    exact hresume.tokens.of_before rfl rfl rfl

end Maximal.Auth
