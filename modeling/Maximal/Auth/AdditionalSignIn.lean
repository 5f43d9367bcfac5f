import Maximal.Auth.FlowOutcome

/-!
# A sign-in over a session

A flow that is started over a session restores the identity of the session when it fails. By then
it may have overwritten the user name, the registry, the GitHub token and the bearer, in this order.
-/

namespace Maximal.Auth

variable {r r' : Runtime} {answer : Answer}

/-- A session: its identity, tokens and active account. -/
structure Session where
  identity : Identity
  githubToken : String
  bearer : Bearer
  key : AccountKey

/-- The tokens and the active account are those of the session. -/
structure Session.Keeps (s : Session) (r : Runtime) : Prop where
  githubToken : r.githubToken = some s.githubToken
  copilotToken : r.copilotToken = some s.bearer
  activeKey : r.registry.activeKey = some s.key

structure Session.Intact (s : Session) (r : Runtime) : Prop extends s.Keeps r where
  authState : r.authState = .signedIn s.identity
  userName : r.userName = s.identity.login

/-! ## The tasks of a flow -/

/-- Does the function belong to a flow? -/
def Task.isFlow : Task → Bool
  | .startDeviceFlow _ => true
  | .poller _ _ => true
  | .degrade _ _ _ => true
  | _ => false

def flowTasks (r : Runtime) : List Task := r.tasks.filter Task.isFlow

/-- A flow that is all there is leaves nothing. -/
theorem flowTasks_without {i : ℕ} {task : Task} (hflow : flowTasks r = [task])
    (htask : r.tasks[i]? = some task) : flowTasks (r.without i) = [] := by
  obtain ⟨hlt, hget⟩ := List.getElem?_eq_some_iff.1 htask
  have hisFlow : task.isFlow = true := by
    have hmem : task ∈ flowTasks r := hflow ▸ List.mem_cons_self
    exact (List.mem_filter.1 hmem).2
  have hsplit : r.tasks = r.tasks.take i ++ task :: r.tasks.drop (i + 1) := by
    rw [← hget, List.getElem_cons_drop, List.take_append_drop]
  have hlength : (flowTasks r).length = 1 := by rw [hflow, List.length_singleton]
  unfold flowTasks at hlength
  rw [hsplit, List.filter_append, List.filter_cons_of_pos hisFlow, List.length_append,
    List.length_cons] at hlength
  show (r.tasks.eraseIdx i).filter Task.isFlow = []
  rw [List.eraseIdx_eq_take_drop_succ, List.filter_append]
  refine List.append_eq_nil_iff.2 ⟨List.length_eq_zero_iff.1 ?_, List.length_eq_zero_iff.1 ?_⟩
  · omega
  · omega

/-- The task of a flow that is resumed is the one there is. -/
theorem eq_of_flowTasks {i : ℕ} {task other : Task} (hflow : flowTasks r = [task])
    (htask : r.tasks[i]? = some other) (hisFlow : other.isFlow = true) : other = task := by
  have hmem : other ∈ flowTasks r := List.mem_filter.2 ⟨List.mem_of_getElem? htask, hisFlow⟩
  rw [hflow] at hmem
  exact List.mem_singleton.1 hmem

theorem SetupStep.flowTasks {out : Async MintPoint (Except MintError Unit)}
    (h : SetupStep r r' out) : flowTasks r' = flowTasks r := by
  cases h <;> simp [Auth.flowTasks, Task.isFlow]

theorem bearerMinted_flowTasks (r : Runtime) (bearer : Bearer) (refreshIn : ℕ) :
    flowTasks (bearerMinted r bearer refreshIn) = flowTasks r := by
  simp [flowTasks, Task.isFlow]

theorem ScheduleStep.flowTasks {onOnline : Option (Option String)}
    (h : ScheduleStep r onOnline r') : flowTasks r' = flowTasks r := by
  cases h <;> simp [Auth.flowTasks, Task.isFlow]

theorem flowTasks_settle_poller {flow : ActiveFlow} {point : PollerPoint}
    (hflow : flowTasks r = []) :
    flowTasks (settle (R := Unit) (.poller flow) (r, .suspended point)) = [.poller flow point] := by
  unfold flowTasks at hflow ⊢
  simp [settle, Task.isFlow, hflow]

/-! ## How far a flow has come -/

/-- The names of the loops are not that of the flow. -/
structure Apart (r : Runtime) (flow : ActiveFlow) : Prop where
  next : flow.abort < r.next
  refresh : r.copilotRefreshLoopController ≠ some flow.abort
  retry : r.retryController ≠ some flow.abort

/-- The state holds the flow, or the flow was cancelled and the account is that of the session. -/
def Standing (s : Session) (r : Runtime) (flow : ActiveFlow) (user : GitHubUser) : Prop :=
  r.authState = .polling flow ∧ flow.abort ∉ r.aborted ∨
    r.authState = .signedIn s.identity ∧ flow.abort ∈ r.aborted ∧ s.identity.login = user.login

def PollerPoint.isUnidentified : PollerPoint → Bool
  | .polling => true
  | .verifying _ => true
  | _ => false

def MintPoint.isDegrading : MintPoint → Bool
  | .degrading _ _ => true
  | _ => false

/-- How far the flow that was started over the session has come. -/
inductive Phase (s : Session) (known : Option String → Prop) (r : Runtime) : Prop
  | asked : s.Intact r → (∀ controller ∈ r.aborted, controller < r.next) →
      (∀ controller ∈ r.copilotRefreshLoopController, controller < r.next) →
      (∀ controller ∈ r.retryController, controller < r.next) →
      flowTasks r = [.startDeviceFlow (some s.identity)] → Phase s known r
  | pending (flow : ActiveFlow) (point : PollerPoint) : point.isUnidentified = true →
      flow.resume = some s.identity → s.Keeps r → r.userName = s.identity.login →
      r.authState = .polling flow → flow.abort ∉ r.aborted → Apart r flow →
      flowTasks r = [.poller flow point] → Phase s known r
  | abandoned (flow : ActiveFlow) (point : PollerPoint) : point.isUnidentified = true →
      s.Intact r → flow.abort ∈ r.aborted → flowTasks r = [.poller flow point] → Phase s known r
  | adding (flow : ActiveFlow) (user : GitHubUser) (rec : AccountRecord) (point : UpdatePoint) :
      known user.login → flow.resume = some s.identity → s.Keeps r →
      r.userName = some user.login → Standing s r flow user → Apart r flow →
      flowTasks r = [.poller flow (.adding user rec point)] → Phase s known r
  | minting (flow : ActiveFlow) (user : GitHubUser) (rec : AccountRecord) (mint : MintPoint) :
      known user.login → flow.resume = some s.identity → Standing s r flow user → Apart r flow →
      mint.isDegrading = false → flowTasks r = [.poller flow (.minting user rec mint)] →
      Phase s known r
  | caching (flow : ActiveFlow) (user : GitHubUser) (rec : AccountRecord) (copilotMinted : Bool) :
      known user.login → flowTasks r = [.poller flow (.caching user rec copilotMinted)] →
      Phase s known r
  | kept : s.Intact r → flowTasks r = [] → Phase s known r
  | replaced (identity : Identity) : known identity.login → r.authState = .signedIn identity →
      flowTasks r = [] → Phase s known r

variable {s : Session} {known : Option String → Prop}

theorem Standing.of_eq {flow : ActiveFlow} {user : GitHubUser} (h : Standing s r flow user)
    (hstate : r'.authState = r.authState) (haborted : r.aborted ⊆ r'.aborted)
    (hnew : flow.abort ∈ r'.aborted → flow.abort ∈ r.aborted) : Standing s r' flow user := by
  unfold Standing
  rw [hstate]
  rcases h with ⟨hpolling, habort⟩ | ⟨hsignedIn, habort, hlogin⟩
  · exact .inl ⟨hpolling, fun hmem => habort (hnew hmem)⟩
  · exact .inr ⟨hsignedIn, haborted habort, hlogin⟩

/-- A loop is stopped that is not the flow. -/
theorem Standing.of_stopped {flow : ActiveFlow} {user : GitHubUser} {controller : Option ℕ}
    (h : Standing s r flow user) (hstate : r'.authState = r.authState)
    (haborted : r'.aborted = controller.toList ++ r.aborted) (hother : controller ≠ some flow.abort) :
    Standing s r' flow user := by
  refine h.of_eq hstate (haborted ▸ List.subset_append_right _ _) fun hmem => ?_
  rw [haborted] at hmem
  obtain hstopped | hold := List.mem_append.1 hmem
  · exact absurd (Option.mem_toList.1 hstopped) hother
  · exact hold

theorem Apart.of_eq {flow : ActiveFlow} (h : Apart r flow) (hnext : r'.next = r.next)
    (hrefresh : r'.copilotRefreshLoopController = r.copilotRefreshLoopController)
    (hretry : r'.retryController = r.retryController) : Apart r' flow :=
  ⟨hnext ▸ h.next, hrefresh ▸ h.refresh, hretry ▸ h.retry⟩

/-- Past the mint the flow goes on, unless it was cancelled. -/
theorem Phase.of_pollerMinted {flow : ActiveFlow} {user : GitHubUser} {rec : AccountRecord}
    {copilotMinted : Bool} {out : Async PollerPoint Unit} (hknown : known user.login)
    (hstanding : Standing s r flow user) (hflow : flowTasks r = [])
    (h : pollerMinted r flow user rec copilotMinted = (r', out)) :
    Phase s known (settle (.poller flow) (r', out)) := by
  unfold pollerMinted at h
  split at h <;> cases h
  · next habort =>
    rcases hstanding with ⟨-, hheld⟩ | ⟨hsignedIn, -, hlogin⟩
    · exact absurd habort hheld
    · exact .replaced s.identity (hlogin ▸ hknown) hsignedIn hflow
  · exact .caching flow user rec copilotMinted hknown (flowTasks_settle_poller hflow)

/-- A mint succeeds: the loop before is stopped. -/
theorem Standing.bearerMinted {flow : ActiveFlow} {user : GitHubUser}
    (h : Standing s r flow user) (hapart : Apart r flow) (bearer : Bearer) (refreshIn : ℕ) :
    Standing s (bearerMinted r bearer refreshIn) flow user :=
  h.of_stopped rfl rfl hapart.refresh

theorem Standing.bearerTaken {flow : ActiveFlow} {user : GitHubUser}
    (h : Standing s r flow user) (hapart : Apart r flow) (token : String) :
    Standing s (bearerTaken r token) flow user :=
  h.of_stopped rfl rfl hapart.refresh

theorem ScheduleStep.standing {flow : ActiveFlow} {user : GitHubUser}
    {onOnline : Option (Option String)} (h : ScheduleStep r onOnline r')
    (hstanding : Standing s r flow user) (hapart : Apart r flow) : Standing s r' flow user := by
  have hscheduled : Standing s (retryScheduled r) flow user :=
    hstanding.of_stopped rfl rfl hapart.retry
  cases h with
  | ended | waiting => exact hscheduled.of_eq rfl (List.Subset.refl _) id

/-! ## One step of the poller -/

theorem Session.Keeps.of_eq (h : s.Keeps r) (hgithub : r'.githubToken = r.githubToken)
    (hcopilot : r'.copilotToken = r.copilotToken) (hregistry : r'.registry = r.registry) :
    s.Keeps r' :=
  ⟨hgithub.trans h.githubToken, hcopilot.trans h.copilotToken, hregistry ▸ h.activeKey⟩

/-- A flow that fails before it has written anything. -/
theorem Phase.of_flowFailed {flow : ActiveFlow} (message : String)
    (hresume : flow.resume = some s.identity) (hkeeps : s.Keeps r)
    (hname : r.userName = s.identity.login) (habort : flow.abort ∉ r.aborted)
    (hflow : flowTasks r = []) : Phase s known (flowFailed r flow message) := by
  unfold flowFailed flowFailureState
  rw [if_neg habort, hresume]
  exact .kept ⟨hkeeps.of_eq rfl rfl rfl, rfl, hname⟩ hflow

theorem PollerStep.phase_pending {flow : ActiveFlow} {point : PollerPoint}
    {out : Async PollerPoint Unit} (h : PollerStep flow r point answer r' out)
    (hpoint : point.isUnidentified = true) (hresume : flow.resume = some s.identity)
    (hkeeps : s.Keeps r) (hname : r.userName = s.identity.login)
    (hstate : r.authState = .polling flow) (habort : flow.abort ∉ r.aborted)
    (hapart : Apart r flow) (hflow : flowTasks r = [])
    (hknown : ∀ user, answer = .user user → known user.login) :
    Phase s known (settle (.poller flow) (r', out)) := by
  cases h with
  | abandoned _ haborted => exact absurd haborted habort
  | approved tokens =>
    exact .pending flow (.verifying tokens) rfl hresume (hkeeps.of_eq rfl rfl rfl) hname hstate
      habort (hapart.of_eq rfl rfl rfl) (flowTasks_settle_poller hflow)
  | pollFailed message => exact .of_flowFailed message hresume hkeeps hname habort hflow
  | unwanted _ _ haborted => exact absurd haborted habort
  | verified tokens user =>
    have hflow : flowTasks (r.setUserName user.login) = [] := hflow
    exact .adding flow user _ .reading (hknown user rfl) hresume (hkeeps.of_eq rfl rfl rfl) rfl
      (.inl ⟨hstate, habort⟩) (hapart.of_eq rfl rfl rfl)
      (flowTasks_settle_poller hflow)
  | unverified _ _ message => exact .of_flowFailed message hresume hkeeps hname habort hflow
  | adding | addFailed | committed | committedTaken | minting | minted | rejected | retried
  | finished => cases hpoint

/-- An aborted poller only overwrites the name. -/
theorem PollerStep.phase_abandoned {flow : ActiveFlow} {point : PollerPoint}
    {out : Async PollerPoint Unit} (h : PollerStep flow r point answer r' out)
    (hpoint : point.isUnidentified = true) (hintact : s.Intact r) (habort : flow.abort ∈ r.aborted)
    (hflow : flowTasks r = [])
    (huser : ∀ tokens user, point = .verifying tokens → answer = .user user →
      user.login = s.identity.login) :
    Phase s known (settle (.poller flow) (r', out)) := by
  have hfailed : ∀ message, flowFailed r flow message = r := by
    intro message
    unfold flowFailed
    rw [if_pos habort]
  cases h with
  | abandoned => exact .kept hintact hflow
  | approved _ hheld => exact absurd habort hheld
  | pollFailed message =>
    rw [hfailed]
    exact .kept hintact hflow
  | unwanted tokens user =>
    have hlogin := huser tokens user rfl rfl
    refine .kept ⟨hintact.toKeeps.of_eq rfl rfl rfl, hintact.authState, ?_⟩ hflow
    rw [← hlogin]
    rfl
  | verified _ _ hheld => exact absurd habort hheld
  | unverified _ _ message =>
    rw [hfailed]
    exact .kept hintact hflow
  | adding | addFailed | committed | committedTaken | minting | minted | rejected | retried
  | finished => cases hpoint

theorem PollerStep.phase_adding {flow : ActiveFlow} {user : GitHubUser} {rec : AccountRecord}
    {point : UpdatePoint} {out : Async PollerPoint Unit}
    (h : PollerStep flow r (.adding user rec point) answer r' out) (hknown : known user.login)
    (hresume : flow.resume = some s.identity) (hkeeps : s.Keeps r)
    (hname : r.userName = some user.login) (hstanding : Standing s r flow user)
    (hapart : Apart r flow) (hflow : flowTasks r = [])
    (hwritten : ∀ next message, point = .writing next → answer = .failed message →
      flow.abort ∉ r.aborted → user.login = s.identity.login) :
    Phase s known (settle (.poller flow) (r', out)) := by
  cases h with
  | adding _ _ _ point' _ _ hupdate =>
    have hsame : r' = r := by
      cases hupdate
      rfl
    subst hsame
    exact .adding flow user rec point' hknown hresume (hkeeps.of_eq rfl rfl rfl) hname hstanding
      (hapart.of_eq rfl rfl rfl) (flowTasks_settle_poller hflow)
  | addFailed _ _ _ _ message _ hupdate =>
    cases hupdate with
    | failed next =>
      by_cases habort : flow.abort ∈ r.aborted
      · rcases hstanding with ⟨-, hheld⟩ | ⟨hsignedIn, -, hlogin⟩
        · exact absurd habort hheld
        · have hfailed : flowFailed r flow message = r := by
            unfold flowFailed
            rw [if_pos habort]
          rw [hfailed]
          exact .kept ⟨hkeeps, hsignedIn, hname.trans hlogin.symm⟩ hflow
      · have hlogin := hwritten next message rfl rfl habort
        exact .of_flowFailed message hresume hkeeps (hlogin ▸ hname) habort hflow
  | committed _ _ _ _ _ _ mint hupdate hsetup =>
    obtain ⟨next, rfl, rfl, rfl⟩ := hupdate.written_of_addAccount
    cases hsetup
    exact .minting flow user rec _ hknown hresume (hstanding.of_eq rfl (List.Subset.refl _) id)
      (hapart.of_eq rfl rfl rfl) rfl (flowTasks_settle_poller hflow)
  | committedTaken _ _ _ _ _ _ _ _ hupdate hsetup hminted =>
    obtain ⟨next, rfl, rfl, rfl⟩ := hupdate.written_of_addAccount
    obtain ⟨token, -, -, rfl⟩ := hsetup.taken_of_ok
    have hwritten : Standing s (({ r with registry := next } : Runtime).setGithubToken rec.token)
        flow user := hstanding.of_eq rfl (List.Subset.refl _) id
    have htaken := hwritten.bearerTaken (hapart.of_eq rfl rfl rfl) token
    refine .of_pollerMinted hknown htaken ?_ hminted
    exact hsetup.flowTasks.trans hflow

theorem PollerStep.phase_minting {flow : ActiveFlow} {user : GitHubUser} {rec : AccountRecord}
    {mint : MintPoint} {out : Async PollerPoint Unit}
    (h : PollerStep flow r (.minting user rec mint) answer r' out) (hknown : known user.login)
    (hresume : flow.resume = some s.identity) (hstanding : Standing s r flow user)
    (hapart : Apart r flow) (hmint : mint.isDegrading = false) (hflow : flowTasks r = [])
    (hfatal : ∀ sentWith status remediationUrl, mint = .minting sentWith →
      answer = .refused status remediationUrl → isAuthFatal status = false) :
    Phase s known (settle (.poller flow) (r', out)) := by
  cases h with
  | minting _ _ _ mint' _ _ hstep =>
    generalize hout : Async.suspended mint' = out at hstep
    cases hstep with
    | unreachable _ message =>
      cases hout
      exact .minting flow user rec _ hknown hresume (hstanding.of_eq rfl (List.Subset.refl _) id)
        (hapart.of_eq rfl rfl rfl) rfl (flowTasks_settle_poller hflow)
    | degraded sentWith status remediationUrl _ _ _ hstatus =>
      exact absurd (hstatus.symm.trans (hfatal sentWith status remediationUrl rfl rfl)) (by simp)
    | minted | refused | failed | degradeOver | diagnosed => cases hout
  | minted _ _ _ _ _ _ _ hstep hminted =>
    obtain ⟨sentWith, token, refreshIn, rfl, rfl, rfl⟩ := hstep.minted_of_ok
    refine .of_pollerMinted hknown (hstanding.bearerMinted hapart _ refreshIn) ?_ hminted
    exact (bearerMinted_flowTasks r _ refreshIn).trans hflow
  | rejected _ _ _ _ error _ hstep =>
    generalize hout : Async.returned (Except.error (MintError.authFatal error)) = out at hstep
    cases hstep with
    | degraded sentWith status remediationUrl _ _ _ hstatus =>
      exact absurd (hstatus.symm.trans (hfatal sentWith status remediationUrl rfl rfl)) (by simp)
    | refused _ _ _ hthrow => cases hthrow
    | degradeOver => cases hmint
    | minted | failed | unreachable | diagnosed => cases hout
  | retried _ _ _ _ message r₁ _ _ _ hstep hschedule hminted =>
    have hsame : r₁ = r := by
      generalize hout : Async.returned (Except.error (MintError.other message)) = out at hstep
      cases hstep with
      | failed | diagnosed => rfl
      | degraded _ _ _ _ degrade => cases degrade <;> cases hout
      | minted | refused | unreachable | degradeOver => cases hout
    subst hsame
    refine .of_pollerMinted hknown (hschedule.standing hstanding hapart) ?_ hminted
    exact hschedule.flowTasks.trans hflow

theorem PollerStep.phase_caching {flow : ActiveFlow} {user : GitHubUser} {rec : AccountRecord}
    {copilotMinted : Bool} {out : Async PollerPoint Unit}
    (h : PollerStep flow r (.caching user rec copilotMinted) answer r' out)
    (hknown : known user.login) (hflow : flowTasks r = []) :
    Phase s known (settle (.poller flow) (r', out)) := by
  cases h with
  | finished =>
    refine .replaced ⟨user.login, user.avatarUrl, some r.now⟩ hknown rfl ?_
    cases copilotMinted <;> exact hflow

/-! ## Every run -/

/-- The steps of the flow, its cancellation, and the passing of time. -/
def ofFlow (l : Label) (r : Runtime) : Bool :=
  match l.event with
  | .idle => true
  | .call .cancelDeviceFlow => true
  | .call _ => false
  | .resume i _ => (r.tasks[i]?).any Task.isFlow

/-- Does the step leave something of another account than this one with the session? -/
def costsSession (login : Option String) (l : Label) (r : Runtime) : Bool :=
  match l.event with
  | .idle => false
  | .call _ =>
    -- Cancelled, while the account is being written or its bearer minted.
    r.tasks.any fun
      | .poller _ (.adding user _ _) => user.login ≠ login
      | .poller _ (.minting user _ _) => user.login ≠ login
      | _ => false
  | .resume i answer =>
    match r.tasks[i]?, answer with
    | some (.poller flow (.verifying _)), .user user =>
      flow.abort ∈ r.aborted && user.login ≠ login
    | some (.poller flow (.adding user _ (.writing _))), .failed _ =>
      flow.abort ∉ r.aborted && user.login ≠ login
    | some (.poller _ (.minting _ _ (.minting _))), .refused status _ => isAuthFatal status
    | _, _ => false

/-- The logins that a lookup was answered with. -/
def namedIn (labels : List Label) (login : Option String) : Prop :=
  ∃ l ∈ labels, ∃ i user, l.event = .resume i (.user user) ∧ user.login = login

theorem Session.Intact.of_eq (h : s.Intact r) (hgithub : r'.githubToken = r.githubToken)
    (hcopilot : r'.copilotToken = r.copilotToken) (hregistry : r'.registry = r.registry)
    (hstate : r'.authState = r.authState) (hname : r'.userName = r.userName) : s.Intact r' :=
  ⟨h.toKeeps.of_eq hgithub hcopilot hregistry, hstate.trans h.authState, hname.trans h.userName⟩

theorem Phase.atTime (h : Phase s known r) (now : ℤ) : Phase s known (r.atTime now) := by
  cases h with
  | asked hintact haborted hrefresh hretry hflow =>
    exact .asked (hintact.of_eq rfl rfl rfl rfl rfl) haborted hrefresh hretry hflow
  | pending flow point hpoint hresume hkeeps hname hstate habort hapart hflow =>
    exact .pending flow point hpoint hresume (hkeeps.of_eq rfl rfl rfl) hname hstate habort
      (hapart.of_eq rfl rfl rfl) hflow
  | abandoned flow point hpoint hintact habort hflow =>
    exact .abandoned flow point hpoint (hintact.of_eq rfl rfl rfl rfl rfl) habort hflow
  | adding flow user rec point hknown hresume hkeeps hname hstanding hapart hflow =>
    exact .adding flow user rec point hknown hresume (hkeeps.of_eq rfl rfl rfl) hname
      (hstanding.of_eq rfl (List.Subset.refl _) id) (hapart.of_eq rfl rfl rfl) hflow
  | minting flow user rec mint hknown hresume hstanding hapart hmint hflow =>
    exact .minting flow user rec mint hknown hresume
      (hstanding.of_eq rfl (List.Subset.refl _) id) (hapart.of_eq rfl rfl rfl)
      hmint hflow
  | caching flow user rec copilotMinted hknown hflow =>
    exact .caching flow user rec copilotMinted hknown hflow
  | kept hintact hflow => exact .kept (hintact.of_eq rfl rfl rfl rfl rfl) hflow
  | replaced identity hknown hstate hflow => exact .replaced identity hknown hstate hflow

/-- A cancelled flow restores the session. -/
theorem Phase.cancel (h : Phase s known r)
    (hok : ∀ flow user rec, (∃ point, .poller flow (.adding user rec point) ∈ r.tasks) ∨
      (∃ mint, .poller flow (.minting user rec mint) ∈ r.tasks) →
      user.login = s.identity.login) :
    Phase s known (cancelDeviceFlow r) := by
  have hmem : ∀ {task : Task}, flowTasks r = [task] → task ∈ r.tasks := by
    intro task hflow
    have htask : task ∈ flowTasks r := hflow ▸ List.mem_cons_self
    exact List.mem_of_mem_filter htask
  have hnone : ∀ {identity : Identity}, r.authState = .signedIn identity →
      cancelDeviceFlow r = r := by
    intro identity hstate
    have hcurrent : r.currentFlow = none := by simp [Runtime.currentFlow, hstate]
    rw [cancelDeviceFlow, hcurrent]
  have hheld : ∀ {flow : ActiveFlow}, r.authState = .polling flow →
      flow.resume = some s.identity →
      cancelDeviceFlow r = (r.abort flow.abort).setAuthState (.signedIn s.identity) := by
    intro flow hstate hresume
    have hcurrent : r.currentFlow = some flow := by simp [Runtime.currentFlow, hstate]
    rw [cancelDeviceFlow, hcurrent]
    dsimp only
    rw [hresume]
  cases h with
  | asked hintact haborted hrefresh hretry hflow =>
    rw [hnone hintact.authState]
    exact .asked hintact haborted hrefresh hretry hflow
  | pending flow point hpoint hresume hkeeps hname hstate habort hapart hflow =>
    rw [hheld hstate hresume]
    exact .abandoned flow point hpoint ⟨hkeeps.of_eq rfl rfl rfl, rfl, hname⟩
      List.mem_cons_self hflow
  | abandoned flow point hpoint hintact habort hflow =>
    rw [hnone hintact.authState]
    exact .abandoned flow point hpoint hintact habort hflow
  | adding flow user rec point hknown hresume hkeeps hname hstanding hapart hflow =>
    have hlogin := hok flow user rec (.inl ⟨point, hmem hflow⟩)
    rcases hstanding with ⟨hstate, -⟩ | ⟨hstate, habort, hlogin⟩
    · rw [hheld hstate hresume]
      exact .adding flow user rec point hknown hresume (hkeeps.of_eq rfl rfl rfl) hname
        (.inr ⟨rfl, List.mem_cons_self, hlogin.symm⟩)
        (hapart.of_eq rfl rfl rfl) hflow
    · rw [hnone hstate]
      exact .adding flow user rec point hknown hresume hkeeps hname
        (.inr ⟨hstate, habort, hlogin⟩) hapart hflow
  | minting flow user rec mint hknown hresume hstanding hapart hmint hflow =>
    have hlogin := hok flow user rec (.inr ⟨mint, hmem hflow⟩)
    rcases hstanding with ⟨hstate, -⟩ | ⟨hstate, habort, hlogin⟩
    · rw [hheld hstate hresume]
      exact .minting flow user rec mint hknown hresume
        (.inr ⟨rfl, List.mem_cons_self, hlogin.symm⟩)
        (hapart.of_eq rfl rfl rfl) hmint hflow
    · rw [hnone hstate]
      exact .minting flow user rec mint hknown hresume (.inr ⟨hstate, habort, hlogin⟩) hapart
        hmint hflow
  | caching flow user rec copilotMinted hknown hflow =>
    refine .caching flow user rec copilotMinted hknown ?_
    unfold cancelDeviceFlow
    split <;> exact hflow
  | kept hintact hflow =>
    rw [hnone hintact.authState]
    exact .kept hintact hflow
  | replaced identity hknown hstate hflow =>
    rw [hnone hstate]
    exact .replaced identity hknown hstate hflow

/-- The code has arrived: the flow has a name of its own. -/
theorem Phase.installFlow (hintact : s.Intact r)
    (haborted : ∀ controller ∈ r.aborted, controller < r.next)
    (hrefresh : ∀ controller ∈ r.copilotRefreshLoopController, controller < r.next)
    (hretry : ∀ controller ∈ r.retryController, controller < r.next) (hflow : flowTasks r = [])
    (code : DeviceCodeResponse) :
    Phase s known (installFlow r (some s.identity) code) := by
  let flow : ActiveFlow := ⟨code, r.now + code.expiresIn * 1000, r.next, some s.identity⟩
  refine .pending flow .polling rfl rfl (hintact.toKeeps.of_eq rfl rfl rfl) hintact.userName rfl
    ?_ ⟨Nat.lt_succ_self _, ?_, ?_⟩ ?_
  · exact fun hmem => absurd (haborted r.next hmem) (lt_irrefl _)
  · exact fun heq => absurd (hrefresh r.next heq) (lt_irrefl _)
  · exact fun heq => absurd (hretry r.next heq) (lt_irrefl _)
  · unfold flowTasks at hflow ⊢
    simp [Auth.installFlow, Task.isFlow, hflow, flow]

theorem Phase.step {l : Label} (h : Phase s known r) (hscope : ofFlow l r = true)
    (hok : costsSession s.identity.login l r = false)
    (hknown : ∀ i user, l.event = .resume i (.user user) → known user.login)
    (hstep : step l r = some r') : Phase s known r' := by
  have hnow := h.atTime l.now
  cases step_step hstep with
  | idle => exact hnow
  | called c hevent =>
    cases c with
    | cancelDeviceFlow =>
      refine hnow.cancel ?_
      simp only [costsSession, hevent, List.any_eq_false] at hok
      rintro flow user rec (⟨point, hmem⟩ | ⟨mint, hmem⟩)
      · simpa using hok _ hmem
      · simpa using hok _ hmem
    | _ => simp [ofFlow, hevent] at hscope
  | resumed i answer task _ hevent htask hresume =>
    have hisFlow : task.isFlow = true := by simpa [ofFlow, hevent, htask] using hscope
    have hone : ∀ {other : Task}, flowTasks (r.atTime l.now) = [other] → task = other ∧
        flowTasks ((r.atTime l.now).without i) = [] := by
      intro other hflow
      obtain rfl := eq_of_flowTasks hflow htask hisFlow
      exact ⟨rfl, flowTasks_without hflow htask⟩
    have hnever : flowTasks (r.atTime l.now) ≠ [] := by
      have hmem : task ∈ flowTasks (r.atTime l.now) :=
        List.mem_filter.2 ⟨List.mem_of_getElem? htask, hisFlow⟩
      exact List.ne_nil_of_mem hmem
    cases hnow with
    | asked hintact haborted hrefresh hretry hflow =>
      obtain ⟨rfl, hflow⟩ := hone hflow
      have hintact : s.Intact ((r.atTime l.now).without i) := hintact.of_eq rfl rfl rfl rfl rfl
      cases hresume with
      | installed _ code => exact .installFlow hintact haborted hrefresh hretry hflow code
      | notInstalled => exact .kept hintact hflow
    | pending flow point hpoint hresume' hkeeps hname hstate habort hapart hflow =>
      obtain ⟨rfl, hflow⟩ := hone hflow
      cases hresume with
      | poller _ _ _ _ _ hpoller =>
        refine hpoller.phase_pending hpoint hresume' (hkeeps.of_eq rfl rfl rfl) hname hstate habort
          (hapart.of_eq rfl rfl rfl) hflow ?_
        rintro user rfl
        exact hknown i user hevent
    | abandoned flow point hpoint hintact habort hflow =>
      obtain ⟨rfl, hflow⟩ := hone hflow
      cases hresume with
      | poller _ _ _ _ _ hpoller =>
        refine hpoller.phase_abandoned hpoint (hintact.of_eq rfl rfl rfl rfl rfl) habort hflow ?_
        rintro tokens user rfl rfl
        have habort : flow.abort ∈ r.aborted := habort
        simpa [costsSession, hevent, htask, habort] using hok
    | adding flow user rec point hlogin hresume' hkeeps hname hstanding hapart hflow =>
      obtain ⟨rfl, hflow⟩ := hone hflow
      cases hresume with
      | poller _ _ _ _ _ hpoller =>
        refine hpoller.phase_adding hlogin hresume' (hkeeps.of_eq rfl rfl rfl) hname
          (hstanding.of_eq rfl (List.Subset.refl _) id)
          (hapart.of_eq rfl rfl rfl) hflow ?_
        rintro next message rfl rfl habort
        have habort : flow.abort ∉ r.aborted := habort
        simpa [costsSession, hevent, htask, habort] using hok
    | minting flow user rec mint hlogin hresume' hstanding hapart hmint hflow =>
      obtain ⟨rfl, hflow⟩ := hone hflow
      cases hresume with
      | poller _ _ _ _ _ hpoller =>
        refine hpoller.phase_minting hlogin hresume' (hstanding.of_eq rfl (List.Subset.refl _) id)
          (hapart.of_eq rfl rfl rfl) hmint hflow ?_
        rintro sentWith status remediationUrl rfl rfl
        simpa [costsSession, hevent, htask] using hok
    | caching flow user rec copilotMinted hlogin hflow =>
      obtain ⟨rfl, hflow⟩ := hone hflow
      cases hresume with
      | poller _ _ _ _ _ hpoller => exact hpoller.phase_caching hlogin hflow
    | kept _ hflow => exact absurd hflow hnever
    | replaced _ _ _ hflow => exact absurd hflow hnever

/-- Controllers are older than the next name. -/
structure NamesFresh (r : Runtime) : Prop where
  aborted : ∀ controller ∈ r.aborted, controller < r.next
  refresh : ∀ controller ∈ r.copilotRefreshLoopController, controller < r.next
  retry : ∀ controller ∈ r.retryController, controller < r.next

theorem Phase.start (hintact : s.Intact r) (hnames : NamesFresh r) (hflow : flowTasks r = []) :
    Phase s known (startDeviceFlow r) := by
  have hcurrent : r.currentFlow = none := by simp [Runtime.currentFlow, hintact.authState]
  have hresume : captureResumeTarget r none = some s.identity := by
    simp [captureResumeTarget, hintact.authState]
  unfold startDeviceFlow
  rw [hcurrent]
  dsimp only
  rw [hresume]
  refine .asked (hintact.of_eq rfl rfl rfl rfl rfl) hnames.aborted hnames.refresh hnames.retry ?_
  unfold flowTasks at hflow ⊢
  simp [Task.isFlow, hflow]

/-- A flow over a session ends with the account of a lookup that it made, or leaves the session as
it was, in every run of the flow and its cancellations in which no step leaves something of another
account with the session. -/
theorem additional_signIn {now : ℤ} {labels : List Label} {r₀ r : Runtime}
    (hsession : s.Intact r₀) (hnames : NamesFresh r₀) (hidle : flowTasks r₀ = [])
    (hscope : Runs.Meets step (fun l r => ofFlow l r = true) labels
      (startDeviceFlow (r₀.atTime now)))
    (hmeets : Runs.Meets step (fun l r => costsSession s.identity.login l r = false) labels
      (startDeviceFlow (r₀.atTime now)))
    (hrun : Runs.exec step labels (startDeviceFlow (r₀.atTime now)) = some r)
    (hended : flowTasks r = []) :
    (∃ identity sidecar, namedIn labels identity.login ∧
      getAuthStatus r = .authenticated identity r.accountType sidecar) ∨
    (∃ sidecar, getAuthStatus r = .authenticated s.identity r.accountType sidecar) ∧
      r.githubToken = some s.githubToken ∧ r.userName = s.identity.login ∧
      r.copilotToken = some s.bearer ∧ r.registry.activeKey = some s.key := by
  have hstart : Phase s (namedIn labels) (startDeviceFlow (r₀.atTime now)) :=
    .start (hsession.of_eq rfl rfl rfl rfl rfl) ⟨hnames.aborted, hnames.refresh, hnames.retry⟩ hidle
  have hnamed : ∀ l ∈ labels, ∀ i user, l.event = .resume i (.user user) →
      namedIn labels user.login := fun l hl i user hevent => ⟨l, hl, i, user, hevent, rfl⟩
  have hphase : Phase s (namedIn labels) r := by
    refine Runs.exec_invariant (I := Phase s (namedIn labels)) ?_
      ((hscope.and hmeets).and (Runs.meets_of_forall hnamed)) hstart hrun
    intro l r r' h hok hstep
    exact h.step hok.1.1 hok.1.2 hok.2 hstep
  have hsidecar : ∀ {identity : Identity}, r.authState = .signedIn identity →
      getAuthStatus r = .authenticated identity r.accountType
        ⟨r.lastUpstreamRejection, r.networkDiagnosis⟩ := by
    intro identity hstate
    rw [getAuthStatus, hstate]
  cases hphase with
  | kept hintact =>
    exact .inr ⟨⟨_, hsidecar hintact.authState⟩, hintact.githubToken, hintact.userName,
      hintact.copilotToken, hintact.activeKey⟩
  | replaced identity hknown hstate => exact .inl ⟨identity, _, hknown, hsidecar hstate⟩
  | asked _ _ _ _ hflow => exact absurd (hflow.symm.trans hended) (by simp)
  | pending _ _ _ _ _ _ _ _ _ hflow => exact absurd (hflow.symm.trans hended) (by simp)
  | abandoned _ _ _ _ _ hflow => exact absurd (hflow.symm.trans hended) (by simp)
  | adding _ _ _ _ _ _ _ _ _ _ hflow => exact absurd (hflow.symm.trans hended) (by simp)
  | minting _ _ _ _ _ _ _ _ _ hflow => exact absurd (hflow.symm.trans hended) (by simp)
  | caching _ _ _ _ _ hflow => exact absurd (hflow.symm.trans hended) (by simp)

/-- An account that is signed in, with its record in the registry. -/
def aliceSession : Session where
  identity := { login := "alice", connectedSinceMs := some 0 }
  githubToken := "ghu_alice"
  bearer := ⟨"tid=alice", some "ghu_alice"⟩
  key := "alice@github.com"

def registeredSession : Runtime :=
  { bootedSession "alice" "ghu_alice" "tid=alice" 1440000 with
    registry := addAndActivate emptyRegistry
      (makeAccountRecord "alice" "github.com" .deviceCode ⟨"ghu_alice", none, none, none⟩ 0) }

theorem registeredSession_intact : aliceSession.Intact registeredSession :=
  ⟨⟨rfl, rfl, by decide +kernel⟩, rfl, rfl⟩

theorem registeredSession_fresh : NamesFresh registeredSession := by
  constructor
  · simp [registeredSession, bootedSession]
  · simp [registeredSession, bootedSession]
  · simp [registeredSession, bootedSession]

/-- The lookup of the second account fails. -/
def unverified : List Label :=
  [⟨30000, .resume 1 (.deviceCode someCode)⟩,
    ⟨60000, .resume 1 (.tokens ⟨"ghu_bob", none, none, none⟩)⟩,
    ⟨60300, .resume 1 (.failed "Failed to get GitHub user")⟩]

theorem additional_signIn_unverified :
    ∃ r, Runs.exec step unverified (startDeviceFlow (registeredSession.atTime 29000)) = some r ∧
      ((∃ identity sidecar, namedIn unverified identity.login ∧
        getAuthStatus r = .authenticated identity r.accountType sidecar) ∨
      (∃ sidecar,
          getAuthStatus r = .authenticated aliceSession.identity r.accountType sidecar) ∧
        r.githubToken = some aliceSession.githubToken ∧
        r.userName = aliceSession.identity.login ∧
        r.copilotToken = some aliceSession.bearer ∧
        r.registry.activeKey = some aliceSession.key) := by
  refine ⟨_, rfl, ?_⟩
  exact additional_signIn registeredSession_intact registeredSession_fresh (by decide +kernel)
    (by decide +kernel) (by decide +kernel) rfl (by decide +kernel)

/-- A flow is cancelled while the lookup of its account is on the way. -/
theorem not_additional_signIn :
    ¬ ∀ (s : Session) (now : ℤ) (labels : List Label) (r₀ r : Runtime),
      s.Intact r₀ → NamesFresh r₀ → flowTasks r₀ = [] →
      Runs.Meets step (fun l r => ofFlow l r = true) labels (startDeviceFlow (r₀.atTime now)) →
      Runs.exec step labels (startDeviceFlow (r₀.atTime now)) = some r → flowTasks r = [] →
      (∃ identity sidecar, namedIn labels identity.login ∧
        getAuthStatus r = .authenticated identity r.accountType sidecar) ∨
      (∃ sidecar, getAuthStatus r = .authenticated s.identity r.accountType sidecar) ∧
        r.githubToken = some s.githubToken ∧ r.userName = s.identity.login ∧
        r.copilotToken = some s.bearer ∧ r.registry.activeKey = some s.key := by
  intro h
  have hend := h aliceSession 29000
    [⟨30000, .resume 1 (.deviceCode someCode)⟩,
      ⟨60000, .resume 1 (.tokens ⟨"ghu_bob", none, none, none⟩)⟩,
      ⟨60100, .call .cancelDeviceFlow⟩, ⟨60300, .resume 1 (.user ⟨"bob", none⟩)⟩]
    registeredSession _ registeredSession_intact registeredSession_fresh (by decide +kernel)
    (by decide +kernel) rfl (by decide +kernel)
  rcases hend with ⟨identity, sidecar, hnamed, hstatus⟩ | ⟨-, -, hname, -⟩
  · -- The status is that of the session, whose login no lookup has named.
    cases hstatus
    obtain ⟨l, hl, i, user, hevent, hlogin⟩ := hnamed
    simp only [List.mem_cons, List.not_mem_nil, or_false] at hl
    rcases hl with rfl | rfl | rfl | rfl <;> cases hevent
    exact absurd hlogin (by decide)
  · exact absurd hname (by decide +kernel)

end Maximal.Auth
