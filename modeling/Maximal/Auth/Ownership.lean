import Maximal.Auth.Frame
import Maximal.Lib.Runs

/-!
# Whose token a record holds

GitHub issues a token to one login. A record is made of a token and the login that GitHub answered
for it, or that a record with the token's refresh token held; from then on it is only copied.

## Main definitions

- `AccountRecord.Owned`, `Runtime.Owned` — every record holds a token of its login
- `truthful` — the answers that name the login of a token name its owner

## Main results

- `Runtime.Owned.step`
-/

namespace Maximal.Auth

variable {owner : String → String} {r r' : Runtime} {answer : Answer}

/-! ## The registry -/

def AccountRecord.Owned (owner : String → String) (rec : AccountRecord) : Prop :=
  owner rec.token = rec.login

/-- What has no token has no login. -/
def StoredRecord.Owned (owner : String → String) (rec : StoredRecord) : Prop :=
  ∀ account ∈ rec.account?, account.Owned owner

theorem StoredRecord.owned_account {rec : AccountRecord} (h : rec.Owned owner) :
    (StoredRecord.account rec).Owned owner := by
  rintro account ⟨⟩
  exact h

theorem StoredRecord.Owned.withFlags {rec : StoredRecord} (h : rec.Owned owner) (needsReauth : Bool)
    (lastError : Option AccountAuthError) : (rec.withFlags needsReauth lastError).Owned owner := by
  cases rec with
  | account account =>
    rintro _ ⟨⟩
    exact h account rfl
  | bare => exact h

namespace AccountRegistry

def Owned (owner : String → String) (reg : AccountRegistry) : Prop :=
  ∀ e ∈ reg.accounts, e.2.Owned owner

variable {reg : AccountRegistry} {key : AccountKey} {rec : StoredRecord}

theorem Owned.find? (hreg : reg.Owned owner) (h : reg.find? key = some rec) : rec.Owned owner := by
  unfold AccountRegistry.find? at h
  rcases Option.or_eq_some_iff.1 h with hlookup | ⟨-, hinherited⟩
  · exact hreg _ (mem_of_lookup hlookup)
  · split at hinherited <;> cases hinherited
    intro account haccount
    cases haccount

theorem Owned.withAccount (hreg : reg.Owned owner) (hrec : rec.Owned owner)
    (h : rec.isBare = decide (key ∈ inheritedNames)) : (reg.withAccount key rec h).Owned owner := by
  intro e hmem
  unfold AccountRegistry.withAccount at hmem
  dsimp only at hmem
  split at hmem
  · obtain ⟨e', he', rfl⟩ := List.mem_map.1 hmem
    split
    · exact hrec
    · exact hreg e' he'
  · rcases List.mem_append.1 hmem with hold | hnew
    · exact hreg e hold
    · rw [List.mem_singleton.1 hnew]
      exact hrec

theorem Owned.setActive (hreg : reg.Owned owner) : (setActive reg key).Owned owner := by
  unfold Auth.setActive
  split <;> exact hreg

theorem Owned.markNeedsReauth (hreg : reg.Owned owner) (error : AccountAuthError) :
    (markNeedsReauth reg key error).Owned owner := by
  cases hfound : reg.find? key with
  | none =>
    rw [markNeedsReauth_of_none hfound]
    exact hreg
  | some rec =>
    rw [markNeedsReauth_of_some hfound]
    exact hreg.withAccount ((hreg.find? hfound).withFlags _ _) _

theorem Owned.clearNeedsReauth (hreg : reg.Owned owner) : (clearNeedsReauth reg key).Owned owner := by
  cases hfound : reg.find? key with
  | none =>
    rw [clearNeedsReauth_of_none hfound]
    exact hreg
  | some rec =>
    rw [clearNeedsReauth_of_some hfound]
    split
    · exact hreg
    · exact hreg.withAccount ((hreg.find? hfound).withFlags _ _) _

end AccountRegistry

def RegistryUpdate.Owned (owner : String → String) : RegistryUpdate → Prop
  | .addAccount rec => rec.Owned owner
  | _ => True

theorem RegistryUpdate.Owned.apply {update : RegistryUpdate} {reg next : AccountRegistry}
    (hupdate : update.Owned owner) (hreg : reg.Owned owner) (h : update.apply reg = some next) :
    next.Owned owner := by
  cases update with
  | addAccount rec =>
    cases h
    refine hreg.withAccount (StoredRecord.owned_account hupdate) ?_
    exact (decide_eq_false (accountKey_notInherited _ _)).symm
  | deactivateActive =>
    simp only [RegistryUpdate.apply] at h
    split at h <;> cases h
    exact hreg
  | markActiveNeedsReauth error =>
    obtain ⟨key, -, rfl⟩ := Option.map_eq_some_iff.1 h
    exact hreg.markNeedsReauth error
  | clearActiveNeedsReauth =>
    obtain ⟨key, -, hcleared⟩ := Option.bind_eq_some_iff.1 h
    dsimp only at hcleared
    split at hcleared <;> cases hcleared
    exact hreg.clearNeedsReauth
  | markNeedsReauth key error =>
    cases h
    exact hreg.markNeedsReauth error
  | activateAndClearNeedsReauth key =>
    cases h
    exact hreg.setActive.clearNeedsReauth

/-! ## Suspended functions -/

def UpdatePoint.Owned (owner : String → String) : UpdatePoint → Prop
  | .reading => True
  | .writing next => next.Owned owner

def SwitchPoint.Owned (owner : String → String) : SwitchPoint → Prop
  | .activating point => point.Owned owner
  | _ => True

def ActivatePoint.Owned (owner : String → String) : ActivatePoint → Prop
  | .reading => True
  | .preflight rec _ => rec.Owned owner
  | .switching rec switch => rec.Owned owner ∧ switch.Owned owner

def SweepPoint.Owned (owner : String → String) : SweepPoint → Prop
  | .reading => True
  | .preflight cand _ rest => ∀ c ∈ cand :: rest, c.2.Owned owner
  | .flagging update point rest =>
    (update.Owned owner ∧ point.Owned owner) ∧ ∀ c ∈ rest, c.2.Owned owner
  | .switching cand switch rest => (∀ c ∈ cand :: rest, c.2.Owned owner) ∧ switch.Owned owner

def DegradePoint.Owned (owner : String → String) : DegradePoint → Prop
  | .flagging update point => update.Owned owner ∧ point.Owned owner
  | .sweeping sweep => sweep.Owned owner

def RearmPoint.Owned (owner : String → String) : RearmPoint → Prop
  | .renewing rec => rec.Owned owner
  | .persisting update point => update.Owned owner ∧ point.Owned owner
  | _ => True

/-- The record of a user, with a token of the user. -/
def GitHubUser.Holds (owner : String → String) (user : GitHubUser) (rec : AccountRecord) : Prop :=
  rec.login = user.login ∧ rec.Owned owner

def PollerPoint.Owned (owner : String → String) : PollerPoint → Prop
  | .adding user rec point => user.Holds owner rec ∧ point.Owned owner
  | .minting user rec _ => user.Holds owner rec
  | .caching user rec _ => user.Holds owner rec
  | _ => True

def SignOutPoint.Owned (owner : String → String) : SignOutPoint → Prop
  | .deactivating point => point.Owned owner
  | .unlinking => True

def Task.Owned (owner : String → String) : Task → Prop
  | .poller _ point => point.Owned owner
  | .signOut point => point.Owned owner
  | .rearm point => point.Owned owner
  | .degrade _ _ point => point.Owned owner
  | .activate _ point => point.Owned owner
  | .clearActiveNeedsReauth point => point.Owned owner
  | _ => True

structure Runtime.Owned (owner : String → String) (r : Runtime) : Prop where
  registry : r.registry.Owned owner
  tasks : ∀ task ∈ r.tasks, task.Owned owner

namespace Runtime.Owned

theorem of_eq (h : r.Owned owner) (hregistry : r'.registry = r.registry)
    (htasks : r'.tasks = r.tasks) : r'.Owned owner :=
  ⟨hregistry ▸ h.registry, htasks ▸ h.tasks⟩

theorem spawn {task : Task} (h : r.Owned owner) (htask : task.Owned owner) :
    (r.spawn task).Owned owner := by
  refine ⟨h.registry, fun task' hmem => ?_⟩
  rcases List.mem_append.1 hmem with hold | hnew
  · exact h.tasks task' hold
  · rw [List.mem_singleton.1 hnew]
    exact htask

end Runtime.Owned

/-- The point where a function is suspended, if it is. -/
def Async.All {P R : Type} (p : P → Prop) : Async P R → Prop
  | .suspended point => p point
  | .returned _ => True

/-! ## The functions, one by one -/

theorem registryRead_owned {reg : AccountRegistry} (h : r.Owned owner)
    (hread : registryRead r answer = some reg) : reg.Owned owner := by
  cases answer <;> cases hread
  · exact h.registry
  · simp [AccountRegistry.Owned, emptyRegistry]

theorem UpdateStep.owned {update : RegistryUpdate} {point : UpdatePoint}
    {out : Async UpdatePoint (Except String Unit)} (h : UpdateStep update r point answer r' out)
    (hr : r.Owned owner) (hupdate : update.Owned owner) (hpoint : point.Owned owner) :
    r'.Owned owner ∧ out.All (·.Owned owner) := by
  cases h with
  | read answer reg next hread happly =>
    exact ⟨hr, hupdate.apply (registryRead_owned hr hread) happly⟩
  | idle | failed => exact ⟨hr, trivial⟩
  | written next => exact ⟨⟨hpoint, hr.tasks⟩, trivial⟩

theorem DegradeStep.owned {error : CopilotAuthFatalError} {degrade : Option ℕ}
    (h : DegradeStep r error r' degrade) (hr : r.Owned owner) : r'.Owned owner := by
  cases h with
  | joined | skipped => exact hr
  | repeated => exact hr.of_eq rfl rfl
  | started =>
    refine Runtime.Owned.spawn (hr.of_eq rfl rfl) ?_
    exact ⟨trivial, trivial⟩

theorem bearerTaken_owned (hr : r.Owned owner) (token : String) : (bearerTaken r token).Owned owner := by
  have hspawned : (r.spawn (.clearActiveNeedsReauth .reading)).Owned owner := hr.spawn trivial
  exact hspawned.of_eq rfl rfl

theorem bearerMinted_owned (hr : r.Owned owner) (bearer : Bearer) (refreshIn : ℕ) :
    (bearerMinted r bearer refreshIn).Owned owner := by
  have hspawned : (r.spawn (.clearActiveNeedsReauth .reading)).Owned owner := hr.spawn trivial
  exact Runtime.Owned.spawn (hspawned.of_eq rfl rfl) trivial

theorem SetupStep.owned {out : Async MintPoint (Except MintError Unit)}
    (h : SetupStep r r' out) (hr : r.Owned owner) : r'.Owned owner := by
  cases h with
  | taken token => exact bearerTaken_owned hr token
  | sent => exact hr

theorem MintStep.owned {onAuthFatal : OnAuthFatal} {point : MintPoint}
    {out : Async MintPoint (Except MintError Unit)} (h : MintStep onAuthFatal r point answer r' out)
    (hr : r.Owned owner) : r'.Owned owner := by
  cases h with
  | minted => exact bearerMinted_owned hr _ _
  | degraded _ _ _ _ _ _ _ hdegrade => exact hdegrade.owned hr
  | refused | failed | unreachable | degradeOver | diagnosed => exact hr

theorem HeadStep.owned {controller : ℕ} {out : Async RefreshPoint Unit}
    (h : HeadStep r controller r' out) (hr : r.Owned owner) : r'.Owned owner := by
  cases h with
  | ended => exact hr.of_eq rfl rfl
  | waiting | refreshing => exact hr

theorem bearerRefreshed_owned (hr : r.Owned owner) (bearer : Bearer) (fatalRetries : ℕ) :
    (bearerRefreshed r bearer fatalRetries).Owned owner := by
  refine ⟨hr.registry, fun task hmem => ?_⟩
  dsimp only [bearerRefreshed, Runtime.setCopilotToken] at hmem
  split at hmem
  · have hspawned : (r.spawn (.clearActiveNeedsReauth .reading)).Owned owner := hr.spawn trivial
    exact hspawned.tasks task hmem
  · exact hr.tasks task hmem

theorem RefreshStep.owned {controller : ℕ} {point : RefreshPoint}
    {out : Async RefreshPoint Unit} (h : RefreshStep controller r point answer r' out)
    (hr : r.Owned owner) : r'.Owned owner := by
  cases h with
  | refreshed _ _ _ _ _ _ hhead => exact hhead.owned (bearerRefreshed_owned hr _ _)
  | continued _ _ _ _ _ hhead => exact hhead.owned (hr.of_eq rfl rfl)
  | degraded _ _ _ _ _ _ hdegrade => exact hdegrade.owned (hr.of_eq rfl rfl)
  | stopped _ _ _ _ _ hdegrade => exact (hdegrade.owned (hr.of_eq rfl rfl)).of_eq rfl rfl
  | unreachable => exact hr
  | degradeOver => exact hr.of_eq rfl rfl

theorem ScheduleStep.owned {onOnline : Option (Option String)} (h : ScheduleStep r onOnline r')
    (hr : r.Owned owner) : r'.Owned owner := by
  cases h with
  | ended => exact hr.of_eq rfl rfl
  | waiting => exact Runtime.Owned.spawn (hr.of_eq rfl rfl) trivial

theorem retryLoopHead_owned {controller : ℕ} {out : Async RetryPoint Unit} (hr : r.Owned owner)
    (h : retryLoopHead r controller = (r', out)) : r'.Owned owner := by
  unfold retryLoopHead at h
  split at h <;> cases h
  · exact hr.of_eq rfl rfl
  · exact hr

theorem retryMinted_owned {controller : ℕ} {out : Async RetryPoint Unit} (hr : r.Owned owner)
    (h : retryMinted r controller = (r', out)) : r'.Owned owner := by
  unfold retryMinted at h
  split at h <;> cases h
  · exact hr.of_eq rfl rfl
  · exact hr

theorem RetryStep.owned {controller : ℕ} {onOnline : Option (Option String)}
    {point : RetryPoint} {out : Async RetryPoint Unit}
    (h : RetryStep controller onOnline r point answer r' out) (hr : r.Owned owner) :
    r'.Owned owner := by
  cases h with
  | ended | unnamed => exact hr.of_eq rfl rfl
  | sent _ _ hsetup => exact hsetup.owned hr
  | taken _ _ _ hsetup hminted => exact retryMinted_owned (hsetup.owned hr) hminted
  | minting _ _ _ _ hmint => exact hmint.owned hr
  | minted _ _ _ _ _ hmint hminted => exact retryMinted_owned (hmint.owned hr) hminted
  | rejected _ _ _ _ hmint => exact (hmint.owned hr).of_eq rfl rfl
  | failed _ _ _ _ _ _ hmint hhead => exact retryLoopHead_owned (hmint.owned hr) hhead
  | online | identified => exact hr.of_eq rfl rfl
  | unidentified => exact hr

theorem SwitchStart.owned {rec : StoredRecord} {out : Async SwitchPoint (Except String Unit)}
    (h : SwitchStart r rec r' out) (hr : r.Owned owner) :
    r'.Owned owner ∧ out.All (·.Owned owner) := by
  have hswitched : (switched r rec).Owned owner := hr.of_eq rfl rfl
  cases h with
  | sent _ hsetup => exact ⟨hsetup.owned hswitched, trivial⟩
  | taken hsetup => exact ⟨hsetup.owned hswitched, trivial⟩

theorem SwitchStep.owned {key : AccountKey} {rec : StoredRecord} {point : SwitchPoint}
    {out : Async SwitchPoint (Except String Unit)}
    (h : SwitchStep key rec r point answer r' out) (hr : r.Owned owner)
    (hpoint : point.Owned owner) : r'.Owned owner ∧ out.All (·.Owned owner) := by
  cases h with
  | minting _ _ _ _ hmint => exact ⟨hmint.owned hr, trivial⟩
  | minted _ _ _ hmint => exact ⟨hmint.owned hr, trivial⟩
  | rejected _ _ _ _ hmint => exact ⟨hmint.owned hr, trivial⟩
  | activating _ _ _ _ hupdate => exact hupdate.owned hr trivial hpoint
  | activated _ _ _ hupdate => exact ⟨(hupdate.owned hr trivial hpoint).1, trivial⟩
  | unwritten _ _ _ _ hupdate => exact ⟨(hupdate.owned hr trivial hpoint).1, trivial⟩
  | finished => exact ⟨hr.of_eq rfl rfl, trivial⟩

theorem ActivateStep.owned {key : AccountKey} {point : ActivatePoint}
    {out : Async ActivatePoint ActivateResult}
    (h : ActivateStep key r point answer r' out) (hr : r.Owned owner)
    (hpoint : point.Owned owner) : r'.Owned owner ∧ out.All (·.Owned owner) := by
  cases h with
  | refused => exact ⟨hr, trivial⟩
  | found _ reg _ _ hread hfound => exact ⟨hr, (registryRead_owned hr hread).find? hfound⟩
  | started rec _ _ switch hstart =>
    obtain ⟨hr', hswitch⟩ := hstart.owned hr
    exact ⟨hr', hpoint, hswitch⟩
  | switching _ _ _ _ _ hstep =>
    obtain ⟨hr', hswitch⟩ := hstep.owned hr hpoint.2
    exact ⟨hr', hpoint.1, hswitch⟩
  | activated _ _ _ _ hstep => exact ⟨(hstep.owned hr hpoint.2).1, trivial⟩
  | failed _ _ _ _ _ hstep => exact ⟨(hstep.owned hr hpoint.2).1, trivial⟩

theorem TryStep.owned {cands : List Candidate} {out : Async SweepPoint SweepResult}
    (h : TryStep r cands r' out) (hr : r.Owned owner) (hcands : ∀ c ∈ cands, c.2.Owned owner) :
    r'.Owned owner ∧ out.All (·.Owned owner) := by
  cases h with
  | exhausted => exact ⟨hr.of_eq rfl rfl, trivial⟩
  | sent => exact ⟨hr, hcands⟩
  | unsent => exact ⟨hr, ⟨trivial, trivial⟩, fun c hc => hcands c (List.mem_cons_of_mem _ hc)⟩

theorem sweepCandidates_owned {reg : AccountRegistry} (hreg : reg.Owned owner) :
    ∀ c ∈ sweepCandidates reg, c.2.Owned owner := by
  intro c hmem
  exact hreg c (List.mem_of_mem_filter hmem)

theorem SweepStep.owned {point : SweepPoint} {out : Async SweepPoint SweepResult}
    (h : SweepStep r point answer r' out) (hr : r.Owned owner) (hpoint : point.Owned owner) :
    r'.Owned owner ∧ out.All (·.Owned owner) := by
  cases h with
  | read answer cands _ _ hread htry =>
    obtain ⟨reg, hreg, rfl⟩ := Option.map_eq_some_iff.1 hread
    exact htry.owned hr (sweepCandidates_owned (registryRead_owned hr hreg))
  | started cand _ rest _ switch hstart =>
    obtain ⟨hr', hswitch⟩ := hstart.owned hr
    exact ⟨hr', hpoint, hswitch⟩
  | refused cand _ rest => exact ⟨hr, ⟨trivial, trivial⟩, fun c hc => hpoint c (List.mem_cons_of_mem _ hc)⟩
  | flagging _ _ _ _ _ _ hupdate =>
    obtain ⟨hr', hnext⟩ := hupdate.owned hr hpoint.1.1 hpoint.1.2
    exact ⟨hr', ⟨hpoint.1.1, hnext⟩, hpoint.2⟩
  | flagged _ _ _ _ _ _ _ hupdate htry =>
    exact htry.owned (hupdate.owned hr hpoint.1.1 hpoint.1.2).1 hpoint.2
  | threw _ _ _ _ _ _ hupdate => exact ⟨(hupdate.owned hr hpoint.1.1 hpoint.1.2).1, trivial⟩
  | switching _ _ _ _ _ _ hstep =>
    obtain ⟨hr', hswitch⟩ := hstep.owned hr hpoint.2
    exact ⟨hr', hpoint.1, hswitch⟩
  | recovered _ _ _ _ _ hstep => exact ⟨(hstep.owned hr hpoint.2).1, trivial⟩
  | failed _ _ _ _ _ _ hstep =>
    exact ⟨(hstep.owned hr hpoint.2).1, ⟨trivial, trivial⟩,
      fun c hc => hpoint.1 c (List.mem_cons_of_mem _ hc)⟩

theorem DegradeResume.owned {error : CopilotAuthFatalError} {point : DegradePoint}
    {out : Async DegradePoint Unit} (h : DegradeResume error r point answer r' out)
    (hr : r.Owned owner) (hpoint : point.Owned owner) :
    r'.Owned owner ∧ out.All (·.Owned owner) := by
  cases h with
  | flagging _ _ _ _ _ hupdate =>
    obtain ⟨hr', hnext⟩ := hupdate.owned hr hpoint.1 hpoint.2
    exact ⟨hr', hpoint.1, hnext⟩
  | sweepStarted _ _ _ _ _ hupdate => exact ⟨(hupdate.owned hr hpoint.1 hpoint.2).1, trivial⟩
  | flagged _ _ _ _ _ hupdate =>
    exact ⟨(hupdate.owned hr hpoint.1 hpoint.2).1.of_eq rfl rfl, trivial⟩
  | sweeping _ _ _ _ hsweep => exact hsweep.owned hr hpoint
  | recovered _ _ _ hsweep => exact ⟨(hsweep.owned hr hpoint).1.of_eq rfl rfl, trivial⟩
  | exhausted _ _ _ _ hsweep => exact ⟨(hsweep.owned hr hpoint).1.of_eq rfl rfl, trivial⟩

theorem SignOutStep.owned {point : SignOutPoint} {out : Async SignOutPoint Unit}
    (h : SignOutStep r point answer r' out) (hr : r.Owned owner) (hpoint : point.Owned owner) :
    r'.Owned owner ∧ out.All (·.Owned owner) := by
  cases h with
  | deactivating _ _ _ _ hupdate => exact hupdate.owned hr trivial hpoint
  | deactivated _ _ _ _ hupdate => exact ⟨(hupdate.owned hr trivial hpoint).1, trivial⟩
  | unlinked => exact ⟨hr, trivial⟩

theorem finishRearmOnline_owned (hr : r.Owned owner) : (finishRearmOnline r).Owned owner := by
  unfold finishRearmOnline
  split <;> exact hr.of_eq rfl rfl

theorem RearmStep.owned {point : RearmPoint} {out : Async RearmPoint RearmOutcome}
    (h : RearmStep r point answer r' out) (hr : r.Owned owner) (hpoint : point.Owned owner)
    (htruth : ∀ rec renewed, point = .renewing rec → answer = .tokens renewed →
      owner renewed.accessToken = rec.login) :
    r'.Owned owner ∧ out.All (·.Owned owner) := by
  cases h with
  | first _ _ _ _ hmint => exact ⟨hmint.owned hr, trivial⟩
  | firstMinted _ _ _ hmint =>
    exact ⟨(finishRearmOnline_owned (hmint.owned hr)).of_eq rfl rfl, trivial⟩
  | firstRejected _ _ _ _ hmint => exact ⟨hmint.owned hr, trivial⟩
  | firstFailed _ _ _ _ hmint => exact ⟨(hmint.owned hr).of_eq rfl rfl, trivial⟩
  | read _ rec hactive =>
    obtain ⟨stored, hstored, hrec⟩ := Option.bind_eq_some_iff.1 hactive
    obtain ⟨key, -, hfound⟩ := Option.bind_eq_some_iff.1 hstored
    exact ⟨hr, hr.registry.find? hfound rec hrec⟩
  | noRefreshToken | notRenewed => exact ⟨hr.of_eq rfl rfl, trivial⟩
  | renewed rec next renewed hlogin htoken =>
    have hnext : next.Owned owner := by
      show owner next.token = next.login
      rw [htoken, hlogin]
      exact htruth rec renewed rfl rfl
    exact ⟨hr.of_eq rfl rfl, hnext, trivial⟩
  | persisting _ _ _ _ _ hupdate =>
    obtain ⟨hr', hnext⟩ := hupdate.owned hr hpoint.1 hpoint.2
    exact ⟨hr', hpoint.1, hnext⟩
  | persisted _ _ _ _ _ _ _ hupdate hsetup =>
    exact ⟨hsetup.owned (hupdate.owned hr hpoint.1 hpoint.2).1, trivial⟩
  | persistedTaken _ _ _ _ _ _ hupdate hsetup =>
    have hr' := hsetup.owned (hupdate.owned hr hpoint.1 hpoint.2).1
    exact ⟨(finishRearmOnline_owned hr').of_eq rfl rfl, trivial⟩
  | second _ _ _ _ hmint => exact ⟨hmint.owned hr, trivial⟩
  | secondMinted _ _ _ hmint =>
    exact ⟨(finishRearmOnline_owned (hmint.owned hr)).of_eq rfl rfl, trivial⟩
  | secondFailed _ _ _ _ _ hmint => exact ⟨(hmint.owned hr).of_eq rfl rfl, trivial⟩

theorem flowFailed_owned (hr : r.Owned owner) (flow : ActiveFlow) (message : String) :
    (flowFailed r flow message).Owned owner := by
  unfold flowFailed
  split
  · exact hr
  · exact hr.of_eq rfl rfl

theorem pollerMinted_owned {flow : ActiveFlow} {user : GitHubUser} {rec : AccountRecord}
    {copilotMinted : Bool} {out : Async PollerPoint Unit} (hr : r.Owned owner)
    (hrec : user.Holds owner rec) (h : pollerMinted r flow user rec copilotMinted = (r', out)) :
    r'.Owned owner ∧ out.All (·.Owned owner) := by
  unfold pollerMinted at h
  split at h <;> cases h
  · exact ⟨hr, trivial⟩
  · exact ⟨hr, hrec⟩

theorem PollerStep.owned {flow : ActiveFlow} {point : PollerPoint} {out : Async PollerPoint Unit}
    (h : PollerStep flow r point answer r' out) (hr : r.Owned owner) (hpoint : point.Owned owner)
    (htruth : ∀ tokens user, point = .verifying tokens → answer = .user user →
      owner tokens.accessToken = user.login) :
    r'.Owned owner ∧ out.All (·.Owned owner) := by
  cases h with
  | abandoned | approved => exact ⟨hr, trivial⟩
  | pollFailed | unverified => exact ⟨flowFailed_owned hr flow _, trivial⟩
  | unwanted => exact ⟨hr.of_eq rfl rfl, trivial⟩
  | verified tokens user =>
    exact ⟨hr.of_eq rfl rfl, ⟨rfl, htruth tokens user rfl rfl⟩, trivial⟩
  | adding user rec _ _ _ _ hupdate =>
    obtain ⟨hr', hnext⟩ := hupdate.owned hr hpoint.1.2 hpoint.2
    exact ⟨hr', hpoint.1, hnext⟩
  | addFailed _ _ _ _ _ _ hupdate =>
    exact ⟨flowFailed_owned (hupdate.owned hr hpoint.1.2 hpoint.2).1 flow _, trivial⟩
  | committed _ rec _ _ _ _ _ hupdate hsetup =>
    have hr₁ := (hupdate.owned hr hpoint.1.2 hpoint.2).1
    exact ⟨hsetup.owned (hr₁.of_eq rfl rfl), hpoint.1⟩
  | committedTaken _ rec _ _ _ _ _ _ hupdate hsetup hminted =>
    have hr₁ := (hupdate.owned hr hpoint.1.2 hpoint.2).1
    exact pollerMinted_owned (hsetup.owned (hr₁.of_eq rfl rfl)) hpoint.1 hminted
  | minting _ _ _ _ _ _ hmint => exact ⟨hmint.owned hr, hpoint⟩
  | minted _ _ _ _ _ _ _ hmint hminted => exact pollerMinted_owned (hmint.owned hr) hpoint hminted
  | rejected _ _ _ _ _ _ hmint => exact ⟨hmint.owned hr, trivial⟩
  | retried _ _ _ _ _ _ _ _ _ hmint hschedule hminted =>
    exact pollerMinted_owned (hschedule.owned (hmint.owned hr)) hpoint hminted
  | finished _ _ copilotMinted =>
    refine ⟨hr.of_eq ?_ ?_, trivial⟩ <;> cases copilotMinted <;> rfl

/-! ## Every step -/

/-- The user that GitHub answers for a token owns it, and so does the login of the account that a
token is renewed for. -/
def truthful (owner : String → String) (l : Label) (r : Runtime) : Bool :=
  match l.event with
  | .resume i answer =>
    match r.tasks[i]?, answer with
    | some (.poller _ (.verifying tokens)), .user user => owner tokens.accessToken = user.login
    | some (.rearm (.renewing rec)), .tokens renewed => owner renewed.accessToken = rec.login
    | _, _ => true
  | _ => true

theorem Runtime.Owned.settle {P R : Type} {task : P → Task} {p : P → Prop} {out : Async P R}
    (h : r.Owned owner ∧ out.All p) (htask : ∀ point, p point → (task point).Owned owner) :
    (settle task (r, out)).Owned owner := by
  cases out with
  | suspended point => exact h.1.spawn (htask point h.2)
  | returned => exact h.1

theorem TaskStep.owned {task : Task} (h : TaskStep r task answer r') (hr : r.Owned owner)
    (htask : task.Owned owner)
    (hpoller : ∀ flow tokens user, task = .poller flow (.verifying tokens) → answer = .user user →
      owner tokens.accessToken = user.login)
    (hrearm : ∀ rec renewed, task = .rearm (.renewing rec) → answer = .tokens renewed →
      owner renewed.accessToken = rec.login) : r'.Owned owner := by
  have hsettle : ∀ {P R : Type} (task : P → Task) (r' : Runtime) (out : Async P R),
      r'.Owned owner → (∀ point, (task point).Owned owner) →
      (Auth.settle task (r', out)).Owned owner := fun task r' out hr' htask =>
    Runtime.Owned.settle (p := fun _ => True) ⟨hr', by cases out <;> trivial⟩ fun point _ => htask point
  cases h with
  | installed resume code => exact Runtime.Owned.spawn (hr.of_eq rfl rfl) trivial
  | notInstalled => exact hr
  | poller flow point _ _ _ hstep =>
    refine Runtime.Owned.settle (hstep.owned hr htask ?_) fun _ h => h
    rintro tokens user rfl hanswer
    exact hpoller flow tokens user rfl hanswer
  | signOut _ _ _ _ hstep => exact Runtime.Owned.settle (hstep.owned hr htask) fun _ h => h
  | rearm point _ _ _ hstep =>
    refine Runtime.Owned.settle (hstep.owned hr htask ?_) fun _ h => h
    rintro rec renewed rfl hanswer
    exact hrearm rec renewed rfl hanswer
  | degrade _ _ _ _ _ _ hstep => exact Runtime.Owned.settle (hstep.owned hr htask) fun _ h => h
  | activate _ _ _ _ _ hstep => exact Runtime.Owned.settle (hstep.owned hr htask) fun _ h => h
  | mint _ _ _ _ _ hstep => exact hsettle _ _ _ (hstep.owned hr) fun _ => trivial
  | refresh _ _ _ _ _ hstep => exact hsettle _ _ _ (hstep.owned hr) fun _ => trivial
  | retry _ _ _ _ _ _ hstep => exact hsettle _ _ _ (hstep.owned hr) fun _ => trivial
  | cleared _ _ _ _ hstep =>
    exact Runtime.Owned.settle (hstep.owned hr trivial htask) fun _ h => h

theorem call_owned (hr : r.Owned owner) (c : Call) : (call r c).Owned owner := by
  cases c with
  | startDeviceFlow =>
    show (startDeviceFlow r).Owned owner
    unfold startDeviceFlow
    split
    · split
      · exact Runtime.Owned.spawn (hr.of_eq rfl rfl) trivial
      · exact hr
    · exact hr.spawn trivial
  | cancelDeviceFlow =>
    show (cancelDeviceFlow r).Owned owner
    unfold cancelDeviceFlow
    split
    · exact hr
    · exact hr.of_eq rfl rfl
  | signOut => exact Runtime.Owned.spawn (hr.of_eq rfl rfl) trivial
  | rearmCopilotAuth =>
    show (rearmCopilotAuth r).Owned owner
    unfold rearmCopilotAuth
    split
    · exact hr
    · split
      · exact hr
      · split
        · exact hr
        · exact Runtime.Owned.spawn (hr.of_eq rfl rfl) trivial
  | markAuthDegraded error => exact (markAuthDegraded_step r error).owned hr
  | activateAccountLive key => exact hr.spawn trivial
  | setupCopilotToken onAuthFatal =>
    have hsetup : (setupCopilotToken r).1.Owned owner := (setupCopilotToken_step rfl).owned hr
    show (settle (.setupCopilotToken onAuthFatal) (setupCopilotToken r)).Owned owner
    cases hout : setupCopilotToken r with
    | mk r' out =>
      rw [hout] at hsetup
      cases out with
      | suspended => exact hsetup.spawn trivial
      | returned => exact hsetup
  | scheduleCopilotOnlineRetry onOnline => exact (scheduleCopilotOnlineRetry_step r onOnline).owned hr

theorem Runtime.Owned.step {l : Label} (hr : r.Owned owner) (htruth : truthful owner l r = true)
    (hstep : step l r = some r') : r'.Owned owner := by
  have hnow : (r.atTime l.now).Owned owner := hr.of_eq rfl rfl
  cases step_step hstep with
  | idle => exact hnow
  | called c => exact call_owned hnow c
  | resumed i answer task _ hevent htask hresume =>
    have hwithout : ((r.atTime l.now).without i).Owned owner :=
      ⟨hr.registry, fun task' hmem => hr.tasks task' (List.mem_of_mem_eraseIdx hmem)⟩
    refine hresume.owned hwithout (hr.tasks task (List.mem_of_getElem? htask)) ?_ ?_
    · rintro flow tokens user rfl rfl
      simpa [truthful, hevent, htask] using htruth
    · rintro rec renewed rfl rfl
      simpa [truthful, hevent, htask] using htruth

end Maximal.Auth
