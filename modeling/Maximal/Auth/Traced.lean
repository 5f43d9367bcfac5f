import Maximal.Auth.Verdict
import Mathlib.Data.List.InsertIdx

/-!
# Runs with a history

The machine forgets which request a helper, a switch or a degrade goes back to. Here every suspended
function carries the last verdict that led to it, and every GitHub token that the registry has held
for an account is kept.

## Main definitions

- `Traced`, `tracedStep`
- `Grounded` — what the functions hold was read from the registry, and their verdicts are on it

## Main results

- `Grounded.step`
-/

namespace Maximal.Auth

variable {r r' : Runtime} {answer : Answer}

/-! ## The history -/

/-- The GitHub tokens that the registry holds, with their accounts. -/
def AccountRegistry.holdings (reg : AccountRegistry) : List (AccountKey × String) :=
  reg.accounts.filterMap fun e => e.2.token.map (e.1, ·)

theorem AccountRegistry.mem_holdings {reg : AccountRegistry} {key : AccountKey}
    {rec : StoredRecord} {token : String} (h : (key, rec) ∈ reg.accounts)
    (htoken : rec.token = some token) : (key, token) ∈ reg.holdings :=
  List.mem_filterMap.2 ⟨(key, rec), h, by rw [htoken]; rfl⟩

/-- Has the registry held this token for the account? -/
def isHeld (held : List (AccountKey × String)) (key : AccountKey) (token : String) : Bool :=
  (key, token) ∈ held

theorem isHeld_mono {held held' : List (AccountKey × String)} {key : AccountKey} {token : String}
    (h : isHeld held key token = true) (hheld : held ⊆ held') : isHeld held' key token = true :=
  decide_eq_true (hheld (of_decide_eq_true h))

structure TracedLabel extends Label where
  /-- The GitHub token of the account whose request the reported error answers. -/
  carried : Option String := none
  deriving DecidableEq, Repr

/-- A `CopilotAuthFatalError` is made of a response 401 or 403. -/
def Label.isGenuine (l : Label) : Bool :=
  match l.event with
  | .call (.markAuthDegraded error) => isAuthFatal error.status
  | _ => true

def Call.verdict (r : Runtime) (carried : Option String) : Call → Option Verdict
  | .setupCopilotToken _ => r.githubToken.bind takenVerdict
  | .markAuthDegraded _ => some (.rejected carried)
  | _ => none

structure Traced where
  runtime : Runtime
  /-- The suspended functions, with the verdict that led to each. -/
  tagged : List (Task × Option Verdict)
  /-- What the registry has held. -/
  held : List (AccountKey × String)
  deriving DecidableEq, Repr

namespace Traced

def start (r : Runtime) : Traced := ⟨r, r.tasks.map (·, none), r.registry.holdings⟩

/-- The functions of `r'`, tagged. One that is resumed passes its verdict on to what it starts. -/
def retag (l : TracedLabel) (t : Traced) (r' : Runtime) : List (Task × Option Verdict) :=
  match l.event with
  | .idle => t.tagged
  | .call c =>
    t.tagged ++
      (r'.tasks.drop t.runtime.tasks.length).map (·, c.verdict t.runtime l.carried)
  | .resume i answer =>
    match t.tagged[i]? with
    | none => t.tagged
    | some (task, tag) =>
      t.tagged.eraseIdx i ++
        (r'.tasks.drop (t.runtime.tasks.length - 1)).map
          (·, (task.verdict t.runtime answer).or tag)

end Traced

def tracedStep (l : TracedLabel) (t : Traced) : Option Traced :=
  if l.isGenuine then
    (step l.toLabel t.runtime).map fun r' => ⟨r', t.retag l r', t.held ++ r'.registry.holdings⟩
  else none

/-! ## Functions that go back to a verdict -/

section Backed

variable (held : List (AccountKey × String)) (tag : Option Verdict)

/-- The registry has held the record for the key; what has no token is inherited. -/
def IsRead (key : AccountKey) (rec : StoredRecord) : Prop :=
  match rec.token with
  | some token => (key, token) ∈ held
  | none => key ∈ inheritedNames

/-- The bearer of a switch is minted with the token of its account. -/
def SwitchPoint.Backed (rec : StoredRecord) : SwitchPoint → Prop
  | .minting (.minting sentWith) => sentWith = rec.token
  | .activating _ => tag = some (.minted rec.token)
  | _ => True

def ActivatePoint.Backed (key : AccountKey) : ActivatePoint → Prop
  | .reading => True
  | .preflight rec _ => IsRead held key rec
  | .switching rec switch => IsRead held key rec ∧ switch.Backed tag rec

def Candidates (cands : List Candidate) : Prop := ∀ cand ∈ cands, IsRead held cand.1 cand.2

/-- A preflight is sent with the token of its account. -/
def SweepPoint.Backed : SweepPoint → Prop
  | .reading => True
  | .preflight cand sentWith rest =>
    Candidates held (cand :: rest) ∧ ∀ token ∈ cand.2.token, sentWith = token
  | .flagging update _ rest =>
    (∃ key error, update = .markNeedsReauth key error) ∧ Candidates held rest
  | .switching cand switch rest => Candidates held (cand :: rest) ∧ switch.Backed tag cand.2

def DegradePoint.Backed : DegradePoint → Prop
  | .flagging update _ =>
    (∃ error, update = .markActiveNeedsReauth error) ∧ ∃ token, tag = some (.rejected token)
  | .sweeping sweep => sweep.Backed held tag

/-- A record that is made anew is not flagged. -/
def RearmPoint.Backed : RearmPoint → Prop
  | .persisting update _ => ∃ rec, update = .addAccount rec ∧ rec.needsReauth = false
  | _ => True

def PollerPoint.Backed : PollerPoint → Prop
  | .adding _ rec _ => rec.needsReauth = false
  | _ => True

/-- What the function holds was read from the registry, and its verdict is the one it goes back
to. -/
def Task.Backed : Task → Prop
  | .poller _ point => point.Backed
  | .clearActiveNeedsReauth _ => ∃ token, tag = some (.minted token)
  | .degrade _ _ point => point.Backed held tag
  | .activate key point => point.Backed held tag key
  | .rearm point => point.Backed
  | _ => True

end Backed

variable {held held' : List (AccountKey × String)} {tag v : Option Verdict}

/-- Why a function waits for a helper. -/
inductive Task.Helps (held : List (AccountKey × String)) (tag : Option Verdict) :
    Task → RegistryUpdate → Prop
  | signIn (task : Task) (rec : AccountRecord) : task.isSignIn = true → rec.needsReauth = false →
      Task.Helps held tag task (.addAccount rec)
  | renewal (rec : AccountRecord) (point : UpdatePoint) : rec.needsReauth = false →
      Task.Helps held tag (.rearm (.persisting (.addAccount rec) point)) (.addAccount rec)
  | signOut (task : Task) : Task.Helps held tag task .deactivateActive
  | degrade (id : ℕ) (error : CopilotAuthFatalError) (mark : AccountAuthError)
      (point : UpdatePoint) (token : Option String) : tag = some (.rejected token) →
      Task.Helps held tag (.degrade id error (.flagging (.markActiveNeedsReauth mark) point))
        (.markActiveNeedsReauth mark)
  | sweep (id : ℕ) (error : CopilotAuthFatalError) (key : AccountKey) (mark : AccountAuthError)
      (point : UpdatePoint) (rest : List Candidate) :
      Task.Helps held tag
        (.degrade id error (.sweeping (.flagging (.markNeedsReauth key mark) point rest)))
        (.markNeedsReauth key mark)
  | mint (point : UpdatePoint) (token : Option String) : tag = some (.minted token) →
      Task.Helps held tag (.clearActiveNeedsReauth point) .clearActiveNeedsReauth
  | switch (task : Task) (key : AccountKey) (token : String) : (key, token) ∈ held →
      tag = some (.minted (some token)) →
      Task.Helps held tag task (.activateAndClearNeedsReauth key)
  /-- A switch to what is no account. -/
  | inherited (task : Task) (key : AccountKey) : key ∈ inheritedNames →
      Task.Helps held tag task (.activateAndClearNeedsReauth key)

theorem SwitchPoint.Backed.helps {key : AccountKey} {rec : StoredRecord} {switch : SwitchPoint}
    {update : RegistryUpdate} {point : UpdatePoint} (h : switch.Backed tag rec)
    (hread : IsRead held key rec) (task : Task)
    (hupdate : switch.update? key = some (update, point)) : task.Helps held tag update := by
  cases switch with
  | activating =>
    cases hupdate
    unfold IsRead at hread
    split at hread
    · next token htoken =>
      refine .switch task key token hread ?_
      rw [← htoken]
      exact h
    · exact .inherited task key hread
  | minting | refreshing => cases hupdate

theorem SweepPoint.Backed.helps {sweep : SweepPoint} {update : RegistryUpdate}
    {point : UpdatePoint} (h : sweep.Backed held tag) (id : ℕ) (error : CopilotAuthFatalError)
    (hupdate : sweep.update? = some (update, point)) :
    (Task.degrade id error (.sweeping sweep)).Helps held tag update := by
  cases sweep with
  | flagging _ _ rest =>
    obtain ⟨⟨key, mark, rfl⟩, -⟩ := h
    cases hupdate
    exact .sweep id error key mark point rest
  | switching cand =>
    exact SwitchPoint.Backed.helps h.2 (h.1 cand List.mem_cons_self) _ hupdate
  | reading | preflight => cases hupdate

theorem Task.Backed.helps {task : Task} {update : RegistryUpdate} {point : UpdatePoint}
    (h : task.Backed held tag) (hupdate : task.update? = some (update, point)) :
    task.Helps held tag update := by
  cases task with
  | poller flow poller =>
    cases poller with
    | adding =>
      cases hupdate
      exact .signIn _ _ rfl h
    | polling | verifying | minting | caching => cases hupdate
  | signOut signOut =>
    cases signOut with
    | deactivating =>
      cases hupdate
      exact .signOut _
    | unlinking => cases hupdate
  | rearm rearm =>
    cases rearm with
    | persisting =>
      obtain ⟨rec, rfl, hhealthy⟩ := h
      cases hupdate
      exact .renewal rec point hhealthy
    | first | reading | renewing | second => cases hupdate
  | degrade id error degrade =>
    cases degrade with
    | flagging =>
      obtain ⟨⟨mark, rfl⟩, token, htag⟩ := h
      cases hupdate
      exact .degrade id error mark point token htag
    | sweeping => exact SweepPoint.Backed.helps h id error hupdate
  | activate key activate =>
    cases activate with
    | switching => exact SwitchPoint.Backed.helps h.2 h.1 _ hupdate
    | reading | preflight => cases hupdate
  | clearActiveNeedsReauth =>
    obtain ⟨token, htag⟩ := h
    cases hupdate
    exact .mint point token htag
  | startDeviceFlow | setupCopilotToken | refreshLoop | onlineRetry => cases hupdate

/-- An answer from the disk is no verdict. -/
theorem Task.verdict_of_read {task : Task} {update : RegistryUpdate} {reg next : AccountRegistry}
    (h : task.update? = some (update, .reading)) (hread : registryRead r answer = some reg)
    (happly : update.apply reg = some next) : task.verdict r answer = none := by
  have hswitch : ∀ {key : AccountKey} {switch : SwitchPoint},
      switch.update? key = some (update, .reading) → verdictOf switch.sent? answer = none := by
    intro key switch h
    cases switch with
    | activating => rfl
    | minting | refreshing => cases h
  have hsweep : ∀ {sweep : SweepPoint}, sweep.update? = some (update, .reading) →
      sweep.verdict answer = none := by
    intro sweep h
    cases sweep with
    | flagging => rfl
    | switching => exact hswitch h
    | reading | preflight => cases h
  cases task with
  | poller flow poller =>
    cases poller with
    | adding =>
      cases h
      rfl
    | polling | verifying | minting | caching => cases h
  | rearm rearm =>
    cases rearm with
    | persisting =>
      cases h
      -- The helper does not return: it writes.
      have hwrites : UpdatePoint.reading.returns update r answer = false := by
        cases answer <;> cases hread
        · exact (congrArg Option.isNone happly).trans rfl
        · exact (congrArg Option.isNone happly).trans rfl
      exact if_neg (Bool.eq_false_iff.1 hwrites)
    | first | reading | renewing | second => cases h
  | degrade id error degrade =>
    cases degrade with
    | flagging => rfl
    | sweeping => exact hsweep h
  | activate key activate =>
    cases activate with
    | switching => exact hswitch h
    | reading | preflight => cases h
  | signOut | clearActiveNeedsReauth => rfl
  | startDeviceFlow | setupCopilotToken | refreshLoop | onlineRetry => cases h

theorem Task.Fresh.backed {task : Task} (h : task.Fresh v) : task.Backed held (v.or tag) := by
  cases task with
  | clearActiveNeedsReauth point =>
    obtain ⟨-, token, rfl⟩ := h
    exact ⟨token, rfl⟩
  | degrade id error point =>
    obtain ⟨⟨error', rfl⟩, token, rfl⟩ := h
    exact ⟨⟨error', rfl⟩, token, rfl⟩
  | refreshLoop | onlineRetry => trivial
  | startDeviceFlow | poller | signOut | rearm | activate | setupCopilotToken => exact h.elim

theorem IsRead.mono {key : AccountKey} {rec : StoredRecord} (h : IsRead held key rec)
    (hheld : held ⊆ held') : IsRead held' key rec := by
  unfold IsRead at h ⊢
  split
  · next token htoken =>
    rw [htoken] at h
    exact hheld h
  · next hnone =>
    rw [hnone] at h
    exact h

theorem Candidates.mono {cands : List Candidate} (h : Candidates held cands)
    (hheld : held ⊆ held') : Candidates held' cands := fun cand hcand => (h cand hcand).mono hheld

/-- What stands in the registry has been read. -/
theorem IsRead.of_mem {reg : AccountRegistry} {key : AccountKey} {rec : StoredRecord}
    (h : (key, rec) ∈ reg.accounts) (hheld : reg.holdings ⊆ held) : IsRead held key rec := by
  unfold IsRead
  split
  · next token htoken => exact hheld (AccountRegistry.mem_holdings h htoken)
  · next hnone =>
    have hbare : rec.isBare = true := by
      rw [StoredRecord.token, Option.map_eq_none_iff] at hnone
      exact Option.isNone_iff_eq_none.2 hnone
    exact of_decide_eq_true ((reg.sorted _ h).symm.trans hbare)

theorem IsRead.of_find? {reg : AccountRegistry} {key : AccountKey} {rec : StoredRecord}
    (h : reg.find? key = some rec) (hheld : reg.holdings ⊆ held) : IsRead held key rec := by
  unfold AccountRegistry.find? at h
  rcases Option.or_eq_some_iff.1 h with hlookup | ⟨-, hinherited⟩
  · exact .of_mem (AccountRegistry.mem_of_lookup hlookup) hheld
  · split at hinherited <;> cases hinherited
    assumption

theorem Task.Backed.mono {task : Task} (h : task.Backed held tag) (hheld : held ⊆ held') :
    task.Backed held' tag := by
  cases task with
  | degrade id error point =>
    cases point with
    | flagging => exact h
    | sweeping sweep =>
      cases sweep with
      | reading => trivial
      | preflight => exact ⟨Candidates.mono h.1 hheld, h.2⟩
      | flagging => exact ⟨h.1, Candidates.mono h.2 hheld⟩
      | switching => exact ⟨Candidates.mono h.1 hheld, h.2⟩
  | activate key point =>
    cases point with
    | reading => trivial
    | preflight => exact IsRead.mono h hheld
    | switching => exact ⟨IsRead.mono h.1 hheld, h.2⟩
  | _ => exact h

theorem holdings_registryRead {reg : AccountRegistry} (h : registryRead r answer = some reg) :
    reg.holdings ⊆ r.registry.holdings := by
  cases answer <;> cases h
  · exact List.Subset.refl _
  · exact List.nil_subset _

theorem SwitchStart.next_backed {rec : StoredRecord} {switch : SwitchPoint}
    (h : SwitchStart r rec r' (.suspended switch)) :
    switch.Backed ((rec.token.bind takenVerdict).or tag) rec := by
  cases h with
  | sent mint hsetup =>
    cases hsetup
    rfl
  | taken hsetup =>
    obtain ⟨token, htoken, hgho, -⟩ := hsetup.taken_of_ok
    have hrec : rec.token = some token := htoken
    have hverdict : takenVerdict token = some (.minted (some token)) := if_pos hgho
    show (rec.token.bind takenVerdict).or tag = some (.minted rec.token)
    rw [hrec, Option.bind_some, hverdict]
    rfl

theorem SwitchStep.next_backed {key : AccountKey} {rec : StoredRecord} {point switch : SwitchPoint}
    (h : SwitchStep key rec r point answer r' (.suspended switch))
    (hpoint : point.Backed tag rec) :
    switch.Backed ((verdictOf point.sent? answer).or tag) rec := by
  generalize hout : Async.suspended switch = out at h
  cases h with
  | minting mint mint' _ _ hmint =>
    cases hout
    generalize hmint' : Async.suspended mint' = out at hmint
    cases hmint with
    | unreachable =>
      cases hmint'
      trivial
    | degraded _ _ _ _ _ hdegrade => cases hdegrade
    | minted | refused | failed | degradeOver | diagnosed => cases hmint'
  | minted _ _ _ hmint =>
    cases hout
    obtain ⟨sentWith, token, refreshIn, rfl, rfl, rfl⟩ := hmint.minted_of_ok
    obtain rfl : sentWith = rec.token := hpoint
    rfl
  | activating =>
    cases hout
    exact hpoint
  | activated =>
    cases hout
    trivial
  | rejected | unwritten | finished => cases hout

theorem ActivateStep.next_backed {key : AccountKey} {point next : ActivatePoint}
    (h : ActivateStep key r point answer r' (.suspended next)) (hpoint : point.Backed held tag key)
    (hheld : r.registry.holdings ⊆ held) :
    next.Backed held ((point.verdict answer).or tag) key := by
  generalize hout : Async.suspended next = out at h
  cases h with
  | found answer reg rec _ hread hfound =>
    cases hout
    refine IsRead.of_find? hfound ?_
    exact List.Subset.trans (holdings_registryRead hread) hheld
  | started _ _ _ _ hstart =>
    cases hout
    exact ⟨hpoint, hstart.next_backed⟩
  | switching _ _ _ _ _ hswitch =>
    cases hout
    exact ⟨hpoint.1, hswitch.next_backed hpoint.2⟩
  | refused | activated | failed => cases hout

theorem sweepCandidates_read {reg : AccountRegistry} (hheld : reg.holdings ⊆ held) :
    Candidates held (sweepCandidates reg) :=
  fun _ hcand => .of_mem (List.mem_of_mem_filter hcand) hheld

theorem flagBad_backed {cand : Candidate} {message : String} {rest : List Candidate}
    {next : SweepPoint} (hcands : Candidates held (cand :: rest))
    (h : Async.suspended next = (flagBad r cand message rest).2) : next.Backed held tag := by
  cases h
  exact ⟨⟨_, _, rfl⟩, fun other hother => hcands other (List.mem_cons_of_mem _ hother)⟩

theorem TryStep.next_backed {cands : List Candidate} {next : SweepPoint}
    (h : TryStep r cands r' (.suspended next)) (hcands : Candidates held cands) :
    next.Backed held tag := by
  generalize hout : Async.suspended next = out at h
  cases h with
  | exhausted => cases hout
  | sent cand sentWith rest htoken =>
    cases hout
    refine ⟨hcands, fun token hrec => ?_⟩
    rw [preflightToken, Option.mem_def.1 hrec] at htoken
    exact (Option.some.inj htoken).symm
  | unsent => exact flagBad_backed hcands hout

theorem SweepStep.next_backed {point next : SweepPoint}
    (h : SweepStep r point answer r' (.suspended next)) (hpoint : point.Backed held tag)
    (hheld : r.registry.holdings ⊆ held) : next.Backed held ((point.verdict answer).or tag) := by
  generalize hout : Async.suspended next = out at h
  cases h with
  | read answer cands _ _ hread htry =>
    obtain ⟨reg, hreg, rfl⟩ := Option.map_eq_some_iff.1 hread
    subst hout
    exact htry.next_backed (sweepCandidates_read (List.Subset.trans (holdings_registryRead hreg) hheld))
  | started _ _ _ _ _ hstart =>
    cases hout
    exact ⟨hpoint.1, hstart.next_backed⟩
  | refused => exact flagBad_backed hpoint.1 hout
  | flagging =>
    cases hout
    exact hpoint
  | flagged _ _ _ _ _ _ _ _ htry =>
    subst hout
    exact htry.next_backed hpoint.2
  | switching _ _ _ _ _ _ hswitch =>
    cases hout
    exact ⟨hpoint.1, hswitch.next_backed hpoint.2⟩
  | failed => exact flagBad_backed hpoint.1 hout
  | threw | recovered => cases hout

theorem DegradeResume.next_backed {error : CopilotAuthFatalError} {point next : DegradePoint}
    (h : DegradeResume error r point answer r' (.suspended next)) (hpoint : point.Backed held tag)
    (hheld : r.registry.holdings ⊆ held) : next.Backed held ((point.verdict answer).or tag) := by
  generalize hout : Async.suspended next = out at h
  cases h with
  | flagging =>
    cases hout
    exact hpoint
  | sweepStarted =>
    cases hout
    trivial
  | sweeping _ _ _ _ hsweep =>
    cases hout
    exact hsweep.next_backed hpoint hheld
  | flagged | recovered | exhausted => cases hout

theorem resumeRearm_backed {point next : RearmPoint}
    (h : resumeRearm r point answer = some (r', .suspended next)) (hpoint : point.Backed) :
    next.Backed := by
  generalize hout : Async.suspended next = out at h
  cases resumeRearm_step h with
  | renewed rec _ renewed =>
    cases hout
    cases h
    exact ⟨_, rfl, rfl⟩
  | persisting =>
    cases hout
    exact hpoint
  | first | firstRejected | read | persisted | second =>
    cases hout
    trivial
  | firstMinted | firstFailed | noRefreshToken | notRenewed | persistedTaken | secondMinted
  | secondFailed => cases hout

theorem PollerStep.next_backed {flow : ActiveFlow} {point next : PollerPoint}
    (h : PollerStep flow r point answer r' (.suspended next)) (hpoint : point.Backed) :
    next.Backed := by
  have hminted : ∀ {r₀ : Runtime} {user : GitHubUser} {rec : AccountRecord} {copilotMinted : Bool},
      pollerMinted r₀ flow user rec copilotMinted = (r', .suspended next) → next.Backed := by
    intro r₀ user rec copilotMinted hrun
    unfold pollerMinted at hrun
    split at hrun <;> cases hrun
    trivial
  generalize hout : Async.suspended next = out at h
  cases h with
  | approved | committed | minting =>
    cases hout
    trivial
  | verified =>
    cases hout
    rfl
  | adding =>
    cases hout
    exact hpoint
  | committedTaken _ _ _ _ _ _ _ _ _ _ hrun => exact hminted (hout ▸ hrun)
  | minted _ _ _ _ _ _ _ _ hrun => exact hminted (hout ▸ hrun)
  | retried _ _ _ _ _ _ _ _ _ _ _ hrun => exact hminted (hout ▸ hrun)
  | abandoned | pollFailed | unwanted | unverified | addFailed | rejected | finished => cases hout

/-! ## One step -/

/-- The function goes on, to its next suspension. -/
inductive Task.Continues (r : Runtime) (answer : Answer) : Task → Task → Prop
  | startDeviceFlow (resume : Option Identity) (flow : ActiveFlow) :
      Task.Continues r answer (.startDeviceFlow resume) (.poller flow .polling)
  | poller (flow : ActiveFlow) (point next : PollerPoint) (r' : Runtime) :
      resumePoller flow r point answer = some (r', .suspended next) →
      Task.Continues r answer (.poller flow point) (.poller flow next)
  | signOut (point next : SignOutPoint) :
      Task.Continues r answer (.signOut point) (.signOut next)
  | rearm (point next : RearmPoint) (r' : Runtime) :
      resumeRearm r point answer = some (r', .suspended next) →
      Task.Continues r answer (.rearm point) (.rearm next)
  | degrade (id : ℕ) (error : CopilotAuthFatalError) (point next : DegradePoint) (r' : Runtime) :
      resumeDegrade error r point answer = some (r', .suspended next) →
      Task.Continues r answer (.degrade id error point) (.degrade id error next)
  | activate (key : AccountKey) (point next : ActivatePoint) (r' : Runtime) :
      resumeActivate key r point answer = some (r', .suspended next) →
      Task.Continues r answer (.activate key point) (.activate key next)
  | setupCopilotToken (onAuthFatal : OnAuthFatal) (point next : MintPoint) :
      Task.Continues r answer (.setupCopilotToken onAuthFatal point)
        (.setupCopilotToken onAuthFatal next)
  | refreshLoop (controller : ℕ) (point next : RefreshPoint) :
      Task.Continues r answer (.refreshLoop controller point) (.refreshLoop controller next)
  | onlineRetry (controller : ℕ) (onOnline : Option (Option String)) (point next : RetryPoint) :
      Task.Continues r answer (.onlineRetry controller onOnline point)
        (.onlineRetry controller onOnline next)
  | clearActiveNeedsReauth (point next : UpdatePoint) :
      Task.Continues r answer (.clearActiveNeedsReauth point) (.clearActiveNeedsReauth next)

theorem Task.Continues.backed {task task' : Task} (h : task.Continues r answer task')
    (hbacked : task.Backed held tag) (hheld : r.registry.holdings ⊆ held) :
    task'.Backed held ((task.verdict r answer).or tag) := by
  cases h with
  | poller _ _ _ _ hpoller => exact (resumePoller_step hpoller).next_backed hbacked
  | rearm _ _ _ hrearm => exact resumeRearm_backed hrearm hbacked
  | degrade _ _ _ _ _ hdegrade => exact (resumeDegrade_step hdegrade).next_backed hbacked hheld
  | activate _ _ _ _ hactivate => exact (resumeActivate_step hactivate).next_backed hbacked hheld
  | clearActiveNeedsReauth => exact hbacked
  | startDeviceFlow | signOut | setupCopilotToken | refreshLoop | onlineRetry => trivial

/-- What an answer leaves suspended, and what it does to the registry. -/
theorem resumeTask_effect {task : Task} (h : resumeTask r task answer = some r') :
    ∃ new, r'.tasks = r.tasks ++ new ∧
      (∀ t ∈ new, t.Fresh (task.verdict r answer) ∨ task.Continues r answer t) ∧
      TaskEffect r task answer r' new := by
  have hfresh : ∀ t : Task, t.Fresh (task.verdict r answer) →
      t.Fresh (task.verdict r answer) ∨ task.Continues r answer t := fun _ ht => .inl ht
  cases task with
  | startDeviceFlow resume =>
    cases answer with
    | deviceCode code =>
      cases h
      refine ⟨[_], rfl, fun t hmem => ?_, .quiet rfl fun t hmem => ?_⟩
      · rw [List.mem_singleton.1 hmem]
        exact .inr (.startDeviceFlow _ _)
      · rw [List.mem_singleton.1 hmem]
        exact notWriting_none
    | failed =>
      cases h
      exact ⟨[], (List.append_nil _).symm, by simp, .quiet rfl (by simp)⟩
    | _ => cases h
  | poller flow point =>
    obtain ⟨⟨r₁, out⟩, hpoller, rfl⟩ := Option.map_eq_some_iff.1 h
    refine settle_effect PollerPoint.update? (resumePoller_step hpoller).effect (fun _ => rfl)
      (fun _ => rfl) hfresh ?_
    rintro next rfl
    exact .inr (.poller _ _ _ _ hpoller)
  | signOut point =>
    obtain ⟨⟨r₁, out⟩, hsignOut, rfl⟩ := Option.map_eq_some_iff.1 h
    exact settle_effect SignOutPoint.update? (resumeSignOut_step hsignOut).effect (fun _ => rfl)
      (fun _ => rfl) hfresh fun _ _ => .inr (.signOut _ _)
  | rearm point =>
    obtain ⟨⟨r₁, out⟩, hrearm, rfl⟩ := Option.map_eq_some_iff.1 h
    refine settle_effect RearmPoint.update? (resumeRearm_step hrearm).effect (fun _ => rfl)
      (fun _ => rfl) hfresh ?_
    rintro next rfl
    exact .inr (.rearm _ _ _ hrearm)
  | degrade id error point =>
    obtain ⟨⟨r₁, out⟩, hdegrade, rfl⟩ := Option.map_eq_some_iff.1 h
    refine settle_effect DegradePoint.update? (resumeDegrade_step hdegrade).effect (fun _ => rfl)
      (fun _ => rfl) hfresh ?_
    rintro next rfl
    exact .inr (.degrade _ _ _ _ _ hdegrade)
  | activate key point =>
    obtain ⟨⟨r₁, out⟩, hactivate, rfl⟩ := Option.map_eq_some_iff.1 h
    refine settle_effect (ActivatePoint.update? key) (resumeActivate_step hactivate).effect
      (fun _ => rfl) (fun _ => rfl) hfresh ?_
    rintro next rfl
    exact .inr (.activate _ _ _ _ hactivate)
  | setupCopilotToken onAuthFatal point =>
    obtain ⟨⟨r₁, out⟩, hmint, rfl⟩ := Option.map_eq_some_iff.1 h
    have hquiet := (resumeMint_step hmint).quiet
    refine settle_effect (fun _ => none) (.quiet hquiet ?_) (fun _ => rfl)
      (fun _ => rfl) hfresh fun _ _ => .inr (.setupCopilotToken _ _ _)
    cases out <;> exact notWriting_none
  | refreshLoop controller point =>
    obtain ⟨⟨r₁, out⟩, hrefresh, rfl⟩ := Option.map_eq_some_iff.1 h
    refine settle_effect (fun _ => none) (.quiet (resumeRefresh_quiet hrefresh) ?_)
      (fun _ => rfl) (fun _ => rfl) hfresh fun _ _ => .inr (.refreshLoop _ _ _)
    cases out <;> exact notWriting_none
  | onlineRetry controller onOnline point =>
    obtain ⟨⟨r₁, out⟩, hretry, rfl⟩ := Option.map_eq_some_iff.1 h
    refine settle_effect (fun _ => none) (.quiet (resumeRetry_step hretry).quiet ?_)
      (fun _ => rfl) (fun _ => rfl) hfresh fun _ _ => .inr (.onlineRetry _ _ _ _)
    cases out <;> exact notWriting_none
  | clearActiveNeedsReauth point =>
    obtain ⟨⟨r₁, out⟩, hupdate, rfl⟩ := Option.map_eq_some_iff.1 h
    have hstep := resumeUpdate_step hupdate
    refine settle_effect (fun p => some (.clearActiveNeedsReauth, p)) ?_ (fun _ => rfl)
      (fun _ => rfl) hfresh fun _ _ => .inr (.clearActiveNeedsReauth _ _)
    cases out with
    | suspended point' => exact hstep.effect
    | returned result => exact hstep.effect_returned

def Task.isSweeping : Task → Bool
  | .degrade _ _ (.sweeping _) => true
  | _ => false

/-- A function that has just been started. -/
structure Task.Opened (held : List (AccountKey × String)) (v : Option Verdict) (task : Task) :
    Prop where
  backed : task.Backed held v
  notWriting : NotWriting task.update?
  notSweeping : task.isSweeping = false

/-- What a request starts. -/
def Opens (held : List (AccountKey × String)) (v : Option Verdict) (r r' : Runtime) : Prop :=
  ∃ new, r'.tasks = r.tasks ++ new ∧ r'.registry = r.registry ∧ ∀ t ∈ new, t.Opened held v

theorem Task.Fresh.opened {task : Task} (h : task.Fresh v) : task.Opened held v := by
  refine ⟨?_, h.notWriting, ?_⟩
  · have hbacked : task.Backed held (v.or none) := h.backed
    rwa [Option.or_none] at hbacked
  · cases task with
    | degrade id error point =>
      obtain ⟨⟨mark, rfl⟩, -⟩ := h
      rfl
    | _ => rfl

theorem Quiet.opens (h : Quiet v r r') : Opens held v r r' := by
  obtain ⟨new, htasks, hnew⟩ := h.tasks
  exact ⟨new, htasks, h.registry, fun t hmem => (hnew t hmem).opened⟩

theorem opens_one (task : Task) (htasks : r'.tasks = r.tasks ++ [task])
    (hregistry : r'.registry = r.registry) (htask : task.Opened held v) : Opens held v r r' :=
  ⟨[task], htasks, hregistry, fun _ hmem => List.mem_singleton.1 hmem ▸ htask⟩

theorem SetupStep.opens {out : Async MintPoint (Except MintError Unit)} (h : SetupStep r r' out)
    (onAuthFatal : OnAuthFatal) :
    Opens held (r.githubToken.bind takenVerdict) r
      (settle (.setupCopilotToken onAuthFatal) (r', out)) := by
  have hquiet := h.quiet
  cases h with
  | taken => exact hquiet.opens
  | sent => exact opens_one (.setupCopilotToken _ (.minting _)) rfl rfl ⟨trivial, notWriting_none, rfl⟩

theorem call_opens (r : Runtime) (carried : Option String) (c : Call) :
    Opens held (c.verdict r carried) r (call r c) := by
  cases c with
  | startDeviceFlow =>
    show Opens held none r (startDeviceFlow r)
    unfold startDeviceFlow
    split
    · split
      · exact opens_one (.startDeviceFlow _) rfl rfl ⟨trivial, notWriting_none, rfl⟩
      · exact (Quiet.refl r).opens
    · exact opens_one (.startDeviceFlow _) rfl rfl ⟨trivial, notWriting_none, rfl⟩
  | cancelDeviceFlow =>
    show Opens held none r (cancelDeviceFlow r)
    unfold cancelDeviceFlow
    split
    · exact (Quiet.refl r).opens
    · exact Quiet.opens (.of_eq rfl rfl)
  | signOut =>
    refine opens_one (.signOut (.deactivating .reading)) rfl rfl ⟨trivial, ?_, rfl⟩
    intro update next hwriting
    cases hwriting
  | rearmCopilotAuth =>
    show Opens held none r (rearmCopilotAuth r)
    unfold rearmCopilotAuth
    split
    · exact (Quiet.refl r).opens
    · split
      · exact (Quiet.refl r).opens
      · split
        · exact (Quiet.refl r).opens
        · exact opens_one (.rearm (.first _)) rfl rfl ⟨trivial, notWriting_none, rfl⟩
  | markAuthDegraded error => exact ((markAuthDegraded_step r error).quiet ⟨carried, rfl⟩).opens
  | activateAccountLive key =>
    exact opens_one (.activate key .reading) rfl rfl ⟨trivial, notWriting_none, rfl⟩
  | setupCopilotToken onAuthFatal =>
    exact (setupCopilotToken_step rfl).opens onAuthFatal
  | scheduleCopilotOnlineRetry onOnline =>
    exact (scheduleCopilotOnlineRetry_step r onOnline).quiet.opens

/-! ## Every step -/

/-- The history changes nothing: a run with a history is a run of the machine. -/
theorem exec_tracedStep {labels : List TracedLabel} (h : ∀ l ∈ labels, l.isGenuine = true)
    (t : Traced) : (Runs.exec tracedStep labels t).map (·.runtime) =
      Runs.exec step (labels.map (·.toLabel)) t.runtime := by
  induction labels generalizing t with
  | nil => rfl
  | cons l labels ih =>
    have hgenuine : l.isGenuine = true := h l List.mem_cons_self
    rw [List.map_cons, Runs.exec, Runs.exec, tracedStep, if_pos hgenuine]
    cases Auth.step l.toLabel t.runtime with
    | none => rfl
    | some r' => exact ih (fun l hl => h l (List.mem_cons_of_mem _ hl)) _

theorem tracedStep_held {l : TracedLabel} {t t' : Traced} (h : tracedStep l t = some t') :
    t.held ⊆ t'.held := by
  unfold tracedStep at h
  split at h
  · obtain ⟨r', -, rfl⟩ := Option.map_eq_some_iff.1 h
    exact List.subset_append_left _ _
  · cases h

theorem tracedStep_runtime {l : TracedLabel} {t t' : Traced} (h : tracedStep l t = some t') :
    Auth.step l.toLabel t.runtime = some t'.runtime := by
  unfold tracedStep at h
  split at h
  · obtain ⟨r', hstep, rfl⟩ := Option.map_eq_some_iff.1 h
    exact hstep
  · cases h

/-- The history is that of the runtime. -/
structure Grounded (t : Traced) : Prop where
  tasks : t.tagged.map (·.1) = t.runtime.tasks
  registry : t.runtime.registry.holdings ⊆ t.held
  backed : ∀ e ∈ t.tagged, e.1.Backed t.held e.2

/-- What a step of the machine adds to the history. -/
inductive TracedStep (l : TracedLabel) (t t' : Traced) : Prop
  | waited : l.event = .idle → t'.runtime = t.runtime.atTime l.now → t'.tagged = t.tagged →
      TracedStep l t t'
  | called (c : Call) (new : List Task) : l.event = .call c →
      t'.runtime = call (t.runtime.atTime l.now) c →
      t'.tagged = t.tagged ++ new.map (·, c.verdict t.runtime l.carried) →
      t'.runtime.registry = t.runtime.registry →
      (∀ task ∈ new, NotWriting task.update? ∧ task.isSweeping = false) → TracedStep l t t'
  | resumed (i : ℕ) (answer : Answer) (task : Task) (tag : Option Verdict) (new : List Task) :
      l.event = .resume i answer → t.tagged[i]? = some (task, tag) →
      resumeTask ((t.runtime.atTime l.now).without i) task answer = some t'.runtime →
      t'.tagged = t.tagged.eraseIdx i ++
        new.map (·, (task.verdict t.runtime answer).or tag) →
      (∀ t₁ ∈ new, t₁.Fresh (task.verdict t.runtime answer) ∨
        task.Continues ((t.runtime.atTime l.now).without i) answer t₁) →
      TaskEffect t.runtime task answer t'.runtime new → TracedStep l t t'

theorem Task.verdict_without (r : Runtime) (now : ℤ) (i : ℕ) (task : Task) (answer : Answer) :
    task.verdict ((r.atTime now).without i) answer = task.verdict r answer := by
  cases task <;> rfl

theorem TaskEffect.of_without {now : ℤ} {i : ℕ} {task : Task} {new : List Task}
    (h : TaskEffect ((r.atTime now).without i) task answer r' new) :
    TaskEffect r task answer r' new := by
  cases h with
  | quiet hregistry hidle => exact .quiet hregistry hidle
  | read update reg next t hbefore hread happly hregistry hnew hafter hkind =>
    have hread : registryRead r answer = some reg := by
      cases answer <;> exact hread
    exact .read update reg next t hbefore hread happly hregistry hnew hafter hkind
  | written update next hbefore hanswer hregistry hidle =>
    exact .written update next hbefore hanswer hregistry hidle

/-- Is the function one of the two loops? They outlive what has started them. -/
def Task.isLoop : Task → Bool
  | .refreshLoop _ _ => true
  | .onlineRetry _ _ _ => true
  | _ => false

theorem Task.update?_of_isLoop {task : Task} (h : task.isLoop = true) : task.update? = none := by
  cases task with
  | refreshLoop | onlineRetry => rfl
  | _ => cases h

theorem Grounded.start {r : Runtime} (h : ∀ task ∈ r.tasks, task.isLoop = true) :
    Grounded (.start r) where
  tasks := by simp [Traced.start, Function.comp_def]
  registry := List.Subset.refl _
  backed e hmem := by
    obtain ⟨task, htask, rfl⟩ := List.mem_map.1 hmem
    have hloop := h task htask
    cases task with
    | refreshLoop | onlineRetry => trivial
    | _ => cases hloop

/-- A step keeps the history grounded. -/
theorem Grounded.step {l : TracedLabel} {t t' : Traced} (h : Grounded t)
    (hstep : tracedStep l t = some t') : Grounded t' ∧ TracedStep l t t' := by
  unfold tracedStep at hstep
  split at hstep
  swap
  · cases hstep
  obtain ⟨r', hrun, rfl⟩ := Option.map_eq_some_iff.1 hstep
  have hold : t.held ⊆ t.held ++ r'.registry.holdings := List.subset_append_left _ _
  have hregistry : r'.registry.holdings ⊆ t.held ++ r'.registry.holdings :=
    List.subset_append_right _ _
  unfold Auth.step at hrun
  split at hrun
  · next hevent =>
    cases hrun
    have htagged : t.retag l (t.runtime.atTime l.now) = t.tagged := by
      unfold Traced.retag
      rw [hevent]
    refine ⟨⟨?_, hregistry, ?_⟩, .waited hevent rfl htagged⟩
    · rw [htagged]
      exact h.tasks
    · rw [htagged]
      exact fun e hmem => (h.backed e hmem).mono hold
  · next c hevent =>
    cases hrun
    obtain ⟨new, htasks, hsame, hnew⟩ : Opens t.held _ _ _ :=
      call_opens (t.runtime.atTime l.now) l.carried c
    have htagged : t.retag l (call (t.runtime.atTime l.now) c) =
        t.tagged ++ new.map (·, c.verdict t.runtime l.carried) := by
      unfold Traced.retag
      rw [hevent]
      show _ ++ ((call (t.runtime.atTime l.now) c).tasks.drop t.runtime.tasks.length).map _ = _
      rw [htasks]
      exact congrArg (t.tagged ++ List.map _ ·) List.drop_left
    refine ⟨⟨?_, hregistry, ?_⟩,
      .called c new hevent rfl htagged hsame fun t hmem =>
        ⟨(hnew t hmem).notWriting, (hnew t hmem).notSweeping⟩⟩
    · rw [htagged, List.map_append, h.tasks, htasks]
      simp [Function.comp_def, Runtime.atTime]
    · rw [htagged]
      intro e hmem
      rcases List.mem_append.1 hmem with hbefore | hopened
      · exact (h.backed e hbefore).mono hold
      · obtain ⟨task, htask, rfl⟩ := List.mem_map.1 hopened
        exact (hnew task htask).backed.mono hold
  · next i answer hevent =>
    obtain ⟨task, htask, hresume⟩ := Option.bind_eq_some_iff.1 hrun
    obtain ⟨tag, hget⟩ : ∃ tag, t.tagged[i]? = some (task, tag) := by
      rw [← h.tasks, List.getElem?_map] at htask
      obtain ⟨⟨task', tag⟩, hget, rfl⟩ := Option.map_eq_some_iff.1 htask
      exact ⟨tag, hget⟩
    obtain ⟨new, htasks, hnew, heffect⟩ := resumeTask_effect hresume
    rw [Task.verdict_without] at hnew
    have hbacked : task.Backed t.held tag := h.backed _ (List.mem_of_getElem? hget)
    have hleft : ∀ t₁ ∈ new, t₁.Backed t.held ((task.verdict t.runtime answer).or tag) := by
      intro t₁ hmem
      rcases hnew t₁ hmem with hfresh | hcontinues
      · exact hfresh.backed
      · rw [← Task.verdict_without t.runtime l.now i]
        exact hcontinues.backed hbacked h.registry
    have hlength : (t.runtime.tasks.eraseIdx i).length = t.runtime.tasks.length - 1 :=
      List.length_eraseIdx_of_lt (List.getElem?_eq_some_iff.1 htask).1
    have htagged : t.retag l r' =
        t.tagged.eraseIdx i ++ new.map (·, (task.verdict t.runtime answer).or tag) := by
      unfold Traced.retag
      rw [hevent]
      show (match t.tagged[i]? with | none => _ | some (task, tag) => _) = _
      rw [hget]
      show _ ++ (r'.tasks.drop (t.runtime.tasks.length - 1)).map _ = _
      rw [htasks, ← hlength]
      exact congrArg (_ ++ List.map _ ·) List.drop_left
    refine ⟨⟨?_, hregistry, ?_⟩, .resumed i answer task tag new hevent hget hresume htagged hnew
      heffect.of_without⟩
    · rw [htagged, List.map_append, ← List.eraseIdx_map, h.tasks, htasks]
      simp [Function.comp_def, Runtime.atTime, Runtime.without]
    · rw [htagged]
      intro e hmem
      rcases List.mem_append.1 hmem with hbefore | hafter
      · exact (h.backed e (List.mem_of_mem_eraseIdx hbefore)).mono hold
      · obtain ⟨task', htask', rfl⟩ := List.mem_map.1 hafter
        exact (hleft task' htask').mono hold

end Maximal.Auth
