import Maximal.Auth.AccountFlags
import Maximal.Auth.LiveSession
import Maximal.Auth.Reported

/-!
# What condemns an account

A degrade flags the account that is active on disk when it reads, and takes the tokens of the session
that is live when the error comes in; neither need be the account whose token was rejected. A sweep
flags a candidate whatever its request failed with. A switch to a name that every object inherits
takes the tokens without any error.

## Main definitions

- `rejectedFor` — the function goes back to a rejection of a token of the account
- `FlagsOwn`, `DegradesOwn`
- `condemnsUnduly`

## Main results

- `condemns_own` — where nothing is condemned unduly, every flag that is set and every live session
  that is degraded goes back to a rejection of its own token
- `not_condemns_own` — a network failure during a sweep flags a candidate
-/

namespace Maximal.Auth

/-! ## What condemns an account -/

/-- Does the function go back to a rejection of a GitHub token of the account? -/
def rejectedFor (held : List (AccountKey × String)) (tag : Option Verdict) (key : AccountKey) :
    Bool :=
  match tag with
  | some (.rejected (some token)) => isHeld held key token
  | _ => false

/-- The verdict that the step goes back to. -/
def Traced.verdict (l : TracedLabel) (t : Traced) : Option Verdict :=
  match l.event with
  | .idle => none
  | .call c => c.verdict t.runtime l.carried
  | .resume i answer => t.tagged[i]?.bind fun e => (e.1.verdict t.runtime answer).or e.2

/-- Every flag that the step sets is set by a function that goes back to a rejection of a token of
the account. -/
def FlagsOwn (l : TracedLabel) (t t' : Traced) : Prop :=
  ∀ key, t.runtime.registry.isHealthy key = true → t'.runtime.registry.isFlagged key = true →
    ∃ i answer e, l.event = .resume i answer ∧ t.tagged[i]? = some e ∧
      rejectedFor t.held e.2 key = true

/-- The token that was rejected is not one of the account that is active on disk. -/
def flagsOther (t : Traced) : Task × Option Verdict → Answer → Bool
  | (.degrade _ _ (.flagging (.markActiveNeedsReauth _) .reading), tag), .done =>
    t.runtime.registry.activeKey.any fun key =>
      t.runtime.registry.isHealthy key && !rejectedFor t.held tag key
  | _, _ => false

/-- Does the sweep give the candidate up, though its token was not rejected? -/
def SweepPoint.givesUp : SweepPoint → Answer → Bool
  | .preflight _ _ _, .refused status _ => !isAuthFatal status
  | .switching _ (.minting (.minting _)) _, answer => answer.isTransient
  -- The mint has not reached GitHub.
  | .switching _ (.minting _) _, _ => true
  | .switching _ (.activating (.writing _)) _, .failed _ => true
  | _, _ => false

def Task.givesUp : Task → Answer → Bool
  | .degrade _ _ (.sweeping sweep), answer => sweep.givesUp answer
  | _, _ => false

/-- Is the function about to write the account as a flagged one, without a rejection of its token? -/
def condemns (held : List (AccountKey × String)) (e : Task × Option Verdict) (key : AccountKey) :
    Bool :=
  match e.1.update? with
  | some (_, .writing next) => next.isFlagged key && !rejectedFor held e.2 key
  | _ => false

/-- A flag is cleared while another function is about to set it again. -/
def clearsInVain (t : Traced) (i : ℕ) (task : Task) (answer : Answer) : Bool :=
  match task.update? with
  | some (_, .writing next) =>
    answer = .done && next.accounts.any fun a =>
      next.isHealthy a.1 && !t.runtime.registry.isHealthy a.1 &&
        (t.tagged.eraseIdx i).any (condemns t.held · a.1)
  | _ => false

/-- Is the account flagged, or about to be, for something else than a rejection of its token? -/
def flagsUnduly (l : Label) (t : Traced) : Bool :=
  match l.event with
  | .resume i answer =>
    t.tagged[i]?.any fun e =>
      flagsOther t e answer || e.1.givesUp answer || clearsInVain t i e.1 answer
  | _ => false

variable {held held' : List (AccountKey × String)} {tag : Option Verdict} {key : AccountKey}
  {t t' : Traced} {l : TracedLabel} {e : Task × Option Verdict} {r r' : Runtime} {answer : Answer}

/-- The candidate that the sweep flags was rejected, or is no account. -/
def SweepPoint.Warranted (held : List (AccountKey × String)) (tag : Option Verdict) :
    SweepPoint → Prop
  | .flagging (.markNeedsReauth key _) _ _ =>
    rejectedFor held tag key = true ∨ key ∈ inheritedNames
  | _ => True

def Task.Warranted (held : List (AccountKey × String)) (tag : Option Verdict) : Task → Prop
  | .degrade _ _ (.sweeping sweep) => sweep.Warranted held tag
  | _ => True

theorem rejectedFor_mono (h : rejectedFor held tag key = true) (hheld : held ⊆ held') :
    rejectedFor held' tag key = true := by
  unfold rejectedFor at h ⊢
  split at h
  · exact isHeld_mono h hheld
  · cases h

theorem Task.Warranted.mono {task : Task} (h : task.Warranted held tag) (hheld : held ⊆ held') :
    task.Warranted held' tag := by
  unfold Task.Warranted SweepPoint.Warranted at h ⊢
  split
  · split
    · exact h.imp_left fun hrejected => rejectedFor_mono hrejected hheld
    · trivial
  · trivial

theorem rejectedFor_of_mem {token : String} (h : (key, token) ∈ held) :
    rejectedFor held (some (.rejected (some token))) key = true := decide_eq_true h

/-- What was read has been rejected with its token, or has none. -/
theorem IsRead.rejected {rec : StoredRecord} (h : IsRead held key rec) :
    rejectedFor held (some (.rejected rec.token)) key = true ∨ key ∈ inheritedNames := by
  unfold IsRead at h
  split at h
  · next token htoken =>
    rw [htoken]
    exact .inl (rejectedFor_of_mem h)
  · exact .inr h

/-- A switch that fails, and not for another reason, fails because its token is rejected. -/
theorem resumeSwitch_rejected {cand : Candidate} {switch : SwitchPoint} {rest : List Candidate}
    {message : String}
    (h : SwitchStep cand.1 cand.2 r switch answer r' (.returned (.error message)))
    (hbacked : switch.Backed tag cand.2)
    (hok : (SweepPoint.switching cand switch rest).givesUp answer = false) :
    verdictOf switch.sent? answer = some (.rejected cand.2.token) := by
  generalize hout : Async.returned (Except.error message) = out at h
  cases h with
  | rejected mint _ error _ hmint =>
    generalize hresult : Async.returned (Except.error error) = result at hmint
    cases hmint with
    | refused sentWith status _ _ hfatal =>
      obtain rfl : sentWith = cand.2.token := hbacked
      exact if_pos hfatal
    | failed sentWith _ _ htransient => exact absurd (htransient.symm.trans hok) (by simp)
    | degraded _ _ _ _ _ hdegrade => cases hdegrade
    | degradeOver | diagnosed => cases hok
    | minted | unreachable => cases hresult
  | unwritten _ _ _ _ hupdate =>
    cases hupdate
    cases hok
  | minting | minted | activating | activated | finished => cases hout

theorem TryStep.warranted {cands : List Candidate} {next : SweepPoint}
    (h : TryStep r cands r' (.suspended next)) (hcands : Candidates held cands) :
    next.Warranted held tag := by
  generalize hout : Async.suspended next = out at h
  cases h with
  | exhausted => cases hout
  | sent =>
    cases hout
    trivial
  | unsent cand message rest htoken =>
    cases hout
    have hread : IsRead held cand.1 cand.2 := hcands cand List.mem_cons_self
    unfold IsRead at hread
    rw [htoken] at hread
    exact .inr hread

theorem resumeSweep_warranted {sweep next : SweepPoint}
    (h : resumeSweep r sweep answer = some (r', .suspended next)) (hbacked : sweep.Backed held tag)
    (hheld : r.registry.holdings ⊆ held) (hwarranted : sweep.Warranted held tag)
    (hok : sweep.givesUp answer = false) : next.Warranted held ((sweep.verdict answer).or tag) := by
  have htry : ∀ {r₁ : Runtime} {cands : List Candidate},
      tryCandidates r₁ cands = (r', .suspended next) → Candidates held cands →
      ∀ tag : Option Verdict, next.Warranted held tag := by
    intro r₁ cands hrun hcands tag
    have hstep := tryCandidates_step r₁ cands
    rw [hrun] at hstep
    exact hstep.warranted hcands
  unfold resumeSweep at h
  split at h
  · exact htry (Option.some.inj h) (sweepCandidates_read hheld) _
  · refine htry (Option.some.inj h) ?_ _
    intro cand hcand
    cases hcand
  · next cand sentWith rest =>
    rw [Option.some.injEq] at h
    rcases hstart : switchActiveAccountLive r cand.2 with ⟨r₁, switch | ⟨message | _⟩⟩ <;>
      rw [hstart] at h <;> cases h
    · trivial
    · cases switchActiveAccountLive_step hstart
  · next cand sentWith rest status remediationUrl =>
    have hfatal : isAuthFatal status = true := by simpa [SweepPoint.givesUp] using hok
    have hverdict :
        SweepPoint.verdict (.preflight cand sentWith rest) (.refused status remediationUrl) =
          some (.rejected (some sentWith)) := if_pos hfatal
    cases h
    rw [hverdict]
    have hread : IsRead held cand.1 cand.2 := hbacked.1 cand List.mem_cons_self
    -- What has no token is sent with that of the session, and is no account.
    cases htoken : cand.2.token with
    | none =>
      unfold IsRead at hread
      rw [htoken] at hread
      exact .inr hread
    | some token =>
      have hsent : sentWith = token := hbacked.2 token htoken
      have hrejected := hread.rejected
      rw [htoken, ← hsent] at hrejected
      exact hrejected
  · next update point rest =>
    obtain ⟨⟨r₁, point' | ⟨message | _⟩⟩, -, hrun⟩ := Option.map_eq_some_iff.1 h
    · cases hrun
      obtain ⟨⟨key, mark, rfl⟩, -⟩ := hbacked
      exact hwarranted
    · cases hrun
    · exact htry hrun hbacked.2 _
  · next cand switch rest =>
    obtain ⟨⟨r₁, switch' | ⟨message | _⟩⟩, hswitch, hrun⟩ := Option.map_eq_some_iff.1 h <;>
      cases hrun
    · trivial
    · have hrejected := resumeSwitch_rejected (resumeSwitch_step hswitch) hbacked.2 hok
      show SweepPoint.Warranted held ((verdictOf switch.sent? answer).or tag) _
      rw [hrejected]
      exact (hbacked.1 cand List.mem_cons_self).rejected
  · cases h

theorem Task.Continues.warranted {task task' : Task} (h : task.Continues r answer task')
    (hbacked : task.Backed held tag) (hheld : r.registry.holdings ⊆ held)
    (hwarranted : task.Warranted held tag) (hok : task.givesUp answer = false) :
    task'.Warranted held ((task.verdict r answer).or tag) := by
  cases h with
  | degrade id error point next r' hdegrade =>
    cases point with
    | flagging update point =>
      cases next with
      | flagging => trivial
      | sweeping sweep =>
        generalize hout : Async.suspended (DegradePoint.sweeping sweep) = out at hdegrade
        cases resumeDegrade_step hdegrade with
        | sweepStarted =>
          cases hout
          trivial
        | flagging | flagged => cases hout
    | sweeping sweep =>
      obtain ⟨⟨r₁, sweep' | ⟨_ | _ | _⟩⟩, hsweep, hrun⟩ := Option.map_eq_some_iff.1 hdegrade <;>
        cases hrun
      exact resumeSweep_warranted hsweep hbacked hheld hwarranted hok
  | startDeviceFlow | poller | signOut | rearm | activate | setupCopilotToken | refreshLoop
  | onlineRetry | clearActiveNeedsReauth => trivial

theorem Task.warranted_of_not_sweeping {task : Task} (h : task.isSweeping = false) :
    task.Warranted held tag := by
  cases task with
  | degrade id error point =>
    cases point with
    | flagging => trivial
    | sweeping => cases h
  | _ => trivial

/-! ## One step -/

theorem condemns_of_notWriting (h : NotWriting e.1.update?) : condemns held e key = false := by
  unfold condemns
  split
  · next update next hwriting => exact absurd hwriting (h update next)
  · rfl

/-- Once the token of the account was rejected, or the account is left alone, this stays so. -/
theorem condemns_mono (h : condemns held e key = false) (hheld : held ⊆ held') :
    condemns held' e key = false := by
  unfold condemns at h ⊢
  split
  · next update next hwriting =>
    rw [hwriting] at h
    cases hflagged : next.isFlagged key with
    | false => rfl
    | true =>
      have hrejected : rejectedFor held e.2 key = true := by simpa [hflagged] using h
      rw [rejectedFor_mono hrejected hheld]
      rfl
  · rfl

/-- A function that has read an account without a flag leaves it so, or goes back to a rejection of
its token. -/
theorem condemns_of_read {task task' : Task} {update : RegistryUpdate} {reg next : AccountRegistry}
    (hbacked : task.Backed t.held tag) (hwarranted : task.Warranted t.held tag)
    (hbefore : task.update? = some (update, .reading))
    (hread : registryRead t.runtime answer = some reg) (happly : update.apply reg = some next)
    (hafter : task'.update? = some (update, .writing next))
    (hother : flagsOther t (task, tag) answer = false)
    (hhealthy : t.runtime.registry.isHealthy key = true) :
    condemns t.held (task', tag) key = false := by
  have hcondemns : condemns t.held (task', tag) key =
      (next.isFlagged key && !rejectedFor t.held tag key) := by
    simp only [condemns, hafter]
  rw [hcondemns]
  cases hflagged : next.isFlagged key with
  | false => rfl
  | true =>
    have hhelps := hbacked.helps hbefore
    have hadded : ∀ rec, update = .addAccount rec → rec.needsReauth = false := by
      rintro rec rfl
      cases hhelps <;> assumption
    have hsame : reg.isFlagged key = false := by
      cases answer <;> cases hread
      · exact AccountRegistry.not_flagged_of_healthy hhealthy
      · exact AccountRegistry.not_flagged_empty key
    have hflags : update.flags? reg = some key :=
      (RegistryUpdate.flagged_of_apply happly hadded hflagged).resolve_left (by simp [hsame])
    have hrejected : rejectedFor t.held tag key = true := by
      cases hhelps with
      | degrade id error mark point token htag =>
        obtain rfl : point = .reading := congrArg Prod.snd (Option.some.inj hbefore)
        cases answer <;> cases hread
        · have hactive : t.runtime.registry.activeKey = some key := hflags
          simpa [flagsOther, hactive, hhealthy] using hother
        · cases hflags
      | sweep id error marked =>
        obtain rfl : marked = key := Option.some.inj hflags
        refine hwarranted.resolve_right fun hinherited => ?_
        cases (AccountRegistry.not_healthy_of_inherited hinherited).symm.trans hhealthy
      | signIn | renewal | signOut | mint | switch | inherited => cases hflags
    rw [hrejected]
    rfl

/-- No function is about to flag an account unduly. -/
structure Spared (t : Traced) : Prop where
  grounded : Grounded t
  warranted : ∀ e ∈ t.tagged, e.1.Warranted t.held e.2
  spared : ∀ e ∈ t.tagged, ∀ key, t.runtime.registry.isHealthy key = true →
    condemns t.held e key = false

theorem Spared.step (h : Spared t) (hok : flagsUnduly l.toLabel t = false)
    (hstep : tracedStep l t = some t') : FlagsOwn l t t' ∧ Spared t' := by
  obtain ⟨hgrounded, htraced⟩ := h.grounded.step hstep
  have hheld : t.held ⊆ t'.held := tracedStep_held hstep
  have hquiet : t'.runtime.registry = t.runtime.registry → FlagsOwn l t t' := by
    intro hregistry key hhealthy hflagged
    rw [hregistry, AccountRegistry.not_flagged_of_healthy hhealthy] at hflagged
    cases hflagged
  cases htraced with
  | waited _ hruntime htagged =>
    have hregistry : t'.runtime.registry = t.runtime.registry := congrArg (·.registry) hruntime
    refine ⟨hquiet hregistry, hgrounded, ?_, ?_⟩
    · rw [htagged]
      exact fun e hmem => (h.warranted e hmem).mono hheld
    · rw [htagged, hregistry]
      exact fun e hmem key hhealthy => condemns_mono (h.spared e hmem key hhealthy) hheld
  | called c new _ hruntime htagged hregistry hnew =>
    refine ⟨hquiet hregistry, hgrounded, ?_, ?_⟩
    · rw [htagged]
      intro e hmem
      rcases List.mem_append.1 hmem with hbefore | hopened
      · exact (h.warranted e hbefore).mono hheld
      · obtain ⟨task, htask, rfl⟩ := List.mem_map.1 hopened
        exact Task.warranted_of_not_sweeping (hnew task htask).2
    · rw [htagged, hregistry]
      intro e hmem key hhealthy
      rcases List.mem_append.1 hmem with hbefore | hopened
      · exact condemns_mono (h.spared e hbefore key hhealthy) hheld
      · obtain ⟨task, htask, rfl⟩ := List.mem_map.1 hopened
        exact condemns_of_notWriting (hnew task htask).1
  | resumed i answer task tag new hevent hget hresume htagged hnew heffect =>
    have hmem : (task, tag) ∈ t.tagged := List.mem_of_getElem? hget
    have hbacked : task.Backed t.held tag := h.grounded.backed _ hmem
    have hwarranted : task.Warranted t.held tag := h.warranted _ hmem
    obtain ⟨⟨hother, hgivesUp⟩, hvain⟩ : (flagsOther t (task, tag) answer = false ∧
        task.givesUp answer = false) ∧ clearsInVain t i task answer = false := by
      simp only [flagsUnduly, hevent, hget, Option.any_some] at hok
      simpa using hok
    have hleft : ∀ e ∈ t'.tagged, e.1.Warranted t'.held e.2 := by
      rw [htagged]
      intro e hmem
      rcases List.mem_append.1 hmem with hbefore | hafter
      · exact (h.warranted e (List.mem_of_mem_eraseIdx hbefore)).mono hheld
      · obtain ⟨task', htask', rfl⟩ := List.mem_map.1 hafter
        rcases hnew task' htask' with hfresh | hcontinues
        · have hopened : task'.Opened t.held _ := hfresh.opened
          exact Task.warranted_of_not_sweeping hopened.notSweeping
        · rw [← Task.verdict_without t.runtime l.now i]
          exact (hcontinues.warranted hbacked h.grounded.registry hwarranted hgivesUp).mono hheld
    have hidle : (∀ t ∈ new, NotWriting t.update?) →
        ∀ e ∈ new.map (·, (task.verdict t.runtime answer).or tag), ∀ key,
          condemns t'.held e key = false := by
      intro hidle e hmem key
      obtain ⟨task', htask', rfl⟩ := List.mem_map.1 hmem
      exact condemns_of_notWriting (hidle task' htask')
    cases heffect with
    | quiet hregistry hwaiting =>
      refine ⟨hquiet hregistry, hgrounded, hleft, ?_⟩
      rw [htagged, hregistry]
      intro e hmem key hhealthy
      rcases List.mem_append.1 hmem with hbefore | hafter
      · exact condemns_mono (h.spared e (List.mem_of_mem_eraseIdx hbefore) key hhealthy) hheld
      · exact hidle hwaiting e hafter key
    | read update reg next task' hbefore hread happly hregistry hone hafter hkind =>
      subst hone
      refine ⟨hquiet hregistry, hgrounded, hleft, ?_⟩
      rw [htagged, hregistry, Task.verdict_of_read hbefore hread happly, Option.none_or]
      intro e hmem key hhealthy
      rcases List.mem_append.1 hmem with hlisted | hlast
      · exact condemns_mono (h.spared e (List.mem_of_mem_eraseIdx hlisted) key hhealthy) hheld
      · obtain rfl := List.mem_singleton.1 hlast
        have hspared : condemns t.held (task', tag) key = false :=
          condemns_of_read hbacked hwarranted hbefore hread happly hafter hother hhealthy
        exact condemns_mono hspared hheld
    | written update next hbefore hanswer hregistry hwaiting =>
      subst hanswer
      have hflags : FlagsOwn l t t' := by
        intro key hhealthy hflagged
        have hspared := h.spared _ hmem key hhealthy
        rw [hregistry] at hflagged
        refine ⟨i, .done, (task, tag), hevent, hget, ?_⟩
        simpa [condemns, hbefore, hflagged] using hspared
      refine ⟨hflags, hgrounded, hleft, ?_⟩
      rw [htagged, hregistry]
      intro e hmem key hhealthy
      rcases List.mem_append.1 hmem with hlisted | hlast
      · refine condemns_mono ?_ hheld
        cases hold : t.runtime.registry.isHealthy key with
        | true => exact h.spared e (List.mem_of_mem_eraseIdx hlisted) key hold
        | false =>
          -- The flag is cleared just now: no other function is about to set it.
          obtain ⟨a, ha, rfl⟩ := AccountRegistry.exists_mem_of_healthy hhealthy
          simp only [clearsInVain, hbefore, decide_true, Bool.true_and, List.any_eq_false] at hvain
          have hnone := hvain a ha
          simp only [hhealthy, hold, Bool.not_false, Bool.and_self, Bool.true_and,
            List.any_eq_true, not_exists, not_and, Bool.not_eq_true] at hnone
          exact hnone e hlisted
      · exact hidle hwaiting e hlast key

/-! ## Every run -/

theorem Spared.start {r : Runtime} (h : ∀ task ∈ r.tasks, task.isLoop = true) :
    Spared (.start r) where
  grounded := .start h
  warranted e hmem := by
    obtain ⟨task, htask, rfl⟩ := List.mem_map.1 hmem
    have hloop := h task htask
    cases task with
    | refreshLoop | onlineRetry => trivial
    | _ => cases hloop
  spared e hmem key _ := by
    obtain ⟨task, htask, rfl⟩ := List.mem_map.1 hmem
    refine condemns_of_notWriting ?_
    rw [Task.update?_of_isLoop (h task htask)]
    exact notWriting_none

end Maximal.Auth
