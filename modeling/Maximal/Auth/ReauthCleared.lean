import Maximal.Auth.AccountFlags
import Maximal.Auth.Traced

/-!
# How a flag is cleared

A mint that succeeds clears the flag of the account that is active on disk, which need not be the
account that it was made for: a switch commits its account only after the mint. A renewal writes the
record anew before the second mint. A helper that has read the registry undoes what is written until
it writes itself.

## Main definitions

- `mayClear` — a sign-in may clear its account, a mint those that its token was held for
- `ClearsOwn`, `losesFlag`

## Main results

- `clears_own_flag` — where none of the three happens, every flag is cleared by what may clear it
- `not_clears_own_flag` — a switch clears the flag of the account that it leaves
-/

namespace Maximal.Auth

/-! ## What may clear a flag -/

/-- Is the function a sign-in of the account that waits for its account to be added? -/
def Task.signsIn (key : AccountKey) (task : Task) : Bool :=
  task.isSignIn &&
    match task.update? with
    | some (.addAccount rec, _) => accountKey rec.login rec.host = key
    | _ => false

/-- Does the function go back to a mint with a GitHub token of the account? -/
def mintedFor (held : List (AccountKey × String)) (tag : Option Verdict) (key : AccountKey) : Bool :=
  match tag with
  | some (.minted (some token)) => isHeld held key token
  | _ => false

def mayClear (held : List (AccountKey × String)) (e : Task × Option Verdict) (key : AccountKey) :
    Bool :=
  e.1.signsIn key || mintedFor held e.2 key

/-- Is the function about to write the account as one that is not flagged, without being one that
may? -/
def undoes (held : List (AccountKey × String)) (e : Task × Option Verdict) (key : AccountKey) :
    Bool :=
  match e.1.update? with
  | some (_, .writing next) => next.isHealthy key && !mayClear held e key
  | _ => false

/-- Every flag that the step clears is cleared by a function that may. -/
def ClearsOwn (l : TracedLabel) (t t' : Traced) : Prop :=
  ∀ key, t.runtime.registry.isFlagged key = true → t'.runtime.registry.isHealthy key = true →
    ∃ i answer e, l.event = .resume i answer ∧ t.tagged[i]? = some e ∧ mayClear t.held e key = true

/-! ## What goes wrong -/

/-- The mint was made for another account than the one that is active on disk. -/
def clearsOther (t : Traced) : Task × Option Verdict → Answer → Bool
  | (.clearActiveNeedsReauth .reading, tag), .done =>
    t.runtime.registry.activeKey.any fun key =>
      t.runtime.registry.isFlagged key && !mintedFor t.held tag key
  | _, _ => false

/-- A renewed token replaces the record of a flagged account. -/
def renewsFlagged (t : Traced) : Task → Bool
  | .rearm (.persisting (.addAccount rec) .reading) =>
    t.runtime.registry.isFlagged (accountKey rec.login rec.host)
  | _ => false

/-- A flag is written while another function is about to undo it. -/
def flagsInVain (t : Traced) (i : ℕ) (task : Task) (answer : Answer) : Bool :=
  match task.update? with
  | some (_, .writing next) =>
    answer = .done && next.accounts.any fun a =>
      next.isFlagged a.1 && !t.runtime.registry.isFlagged a.1 &&
        (t.tagged.eraseIdx i).any (undoes t.held · a.1)
  | _ => false

/-- Does the step lose a flag, or begin to? -/
def losesFlag (l : TracedLabel) (t : Traced) : Bool :=
  match l.event with
  | .resume i answer =>
    t.tagged[i]?.any fun e =>
      clearsOther t e answer || renewsFlagged t e.1 || flagsInVain t i e.1 answer
  | _ => false

/-! ## One step -/

variable {held held' : List (AccountKey × String)} {tag : Option Verdict} {key : AccountKey}
  {t t' : Traced} {l : TracedLabel} {e : Task × Option Verdict}

theorem mayClear_mono (h : mayClear held e key = true) (hheld : held ⊆ held') :
    mayClear held' e key = true := by
  rw [mayClear, Bool.or_eq_true] at h ⊢
  refine h.imp_right fun hminted => ?_
  unfold mintedFor at hminted ⊢
  split at hminted
  · exact isHeld_mono hminted hheld
  · cases hminted

theorem undoes_of_notWriting (h : NotWriting e.1.update?) : undoes held e key = false := by
  unfold undoes
  split
  · next update next hwriting => exact absurd hwriting (h update next)
  · rfl

/-- Once a function may clear the account, or leaves it flagged, this stays so. -/
theorem undoes_mono (h : undoes held e key = false) (hheld : held ⊆ held') :
    undoes held' e key = false := by
  unfold undoes at h ⊢
  split
  · next update next hwriting =>
    rw [hwriting] at h
    cases hhealthy : next.isHealthy key with
    | false => rfl
    | true =>
      have hmay : mayClear held e key = true := by simpa [hhealthy] using h
      rw [mayClear_mono hmay hheld]
      rfl
  · rfl

/-- A function that has read a flagged account leaves it flagged, or may clear it. -/
theorem undoes_of_read {task task' : Task} {update : RegistryUpdate} {answer : Answer}
    {reg next : AccountRegistry} (hbacked : task.Backed t.held tag)
    (hbefore : task.update? = some (update, .reading))
    (hread : registryRead t.runtime answer = some reg) (happly : update.apply reg = some next)
    (hafter : task'.update? = some (update, .writing next))
    (hkind : task'.isSignIn = task.isSignIn)
    (hother : clearsOther t (task, tag) answer = false) (hrenews : renewsFlagged t task = false)
    (hflagged : t.runtime.registry.isFlagged key = true) :
    undoes t.held (task', tag) key = false := by
  have hundoes : undoes t.held (task', tag) key =
      (next.isHealthy key && !mayClear t.held (task', tag) key) := by
    simp only [undoes, hafter]
  rw [hundoes]
  cases hhealthy : next.isHealthy key with
  | false => rfl
  | true =>
    have hsame : reg.isHealthy key = false := by
      cases answer <;> cases hread
      · exact AccountRegistry.not_healthy_of_flagged hflagged
      · exact AccountRegistry.not_healthy_empty key
    have hclears : update.clears? reg = some key :=
      (RegistryUpdate.healthy_of_apply happly hhealthy).resolve_left (by simp [hsame])
    have hmay : mayClear t.held (task', tag) key = true := by
      cases hbacked.helps hbefore with
      | signIn _ rec hsignIn =>
        have hkey : accountKey rec.login rec.host = key := Option.some.inj hclears
        simp [mayClear, Task.signsIn, hkind, hsignIn, hafter, hkey]
      | renewal rec point =>
        obtain rfl : point = .reading := congrArg Prod.snd (Option.some.inj hbefore)
        have hkey : accountKey rec.login rec.host = key := Option.some.inj hclears
        have hlost : t.runtime.registry.isFlagged (accountKey rec.login rec.host) = false := hrenews
        rw [hkey, hflagged] at hlost
        cases hlost
      | mint point token htag =>
        obtain rfl : point = .reading := congrArg Prod.snd (Option.some.inj hbefore)
        cases answer <;> cases hread
        · have hactive : t.runtime.registry.activeKey = some key := hclears
          have hminted : mintedFor t.held tag key = true := by
            simpa [clearsOther, hactive, hflagged] using hother
          simp [mayClear, hminted]
        · cases hclears
      | switch _ active token hmem htag =>
        obtain rfl : active = key := Option.some.inj hclears
        simp [mayClear, mintedFor, isHeld, htag, hmem]
      | inherited _ active hinherited =>
        obtain rfl : active = key := Option.some.inj hclears
        cases (AccountRegistry.not_flagged_of_inherited hinherited).symm.trans hflagged
      | signOut | degrade | sweep => cases hclears
    rw [hmay]
    rfl

/-- No function is about to undo a flag. -/
structure FlagsKept (t : Traced) : Prop where
  grounded : Grounded t
  kept : ∀ e ∈ t.tagged, ∀ key, t.runtime.registry.isFlagged key = true → undoes t.held e key = false

theorem FlagsKept.step (h : FlagsKept t) (hok : losesFlag l t = false)
    (hstep : tracedStep l t = some t') : ClearsOwn l t t' ∧ FlagsKept t' := by
  obtain ⟨hgrounded, htraced⟩ := h.grounded.step hstep
  have hheld : t.held ⊆ t'.held := tracedStep_held hstep
  have hquiet : t'.runtime.registry = t.runtime.registry → ClearsOwn l t t' := by
    intro hregistry key hflagged hhealthy
    rw [hregistry, AccountRegistry.not_healthy_of_flagged hflagged] at hhealthy
    cases hhealthy
  cases htraced with
  | waited _ hruntime htagged =>
    have hregistry : t'.runtime.registry = t.runtime.registry := congrArg (·.registry) hruntime
    refine ⟨hquiet hregistry, hgrounded, ?_⟩
    rw [htagged, hregistry]
    exact fun e hmem key hflagged => undoes_mono (h.kept e hmem key hflagged) hheld
  | called c new _ _ htagged hregistry hnew =>
    refine ⟨hquiet hregistry, hgrounded, ?_⟩
    rw [htagged, hregistry]
    intro e hmem key hflagged
    rcases List.mem_append.1 hmem with hbefore | hopened
    · exact undoes_mono (h.kept e hbefore key hflagged) hheld
    · obtain ⟨task, htask, rfl⟩ := List.mem_map.1 hopened
      exact undoes_of_notWriting (hnew task htask).1
  | resumed i answer task tag new hevent hget _ htagged _ heffect =>
    have hbacked : task.Backed t.held tag := h.grounded.backed _ (List.mem_of_getElem? hget)
    obtain ⟨⟨hother, hrenews⟩, hvain⟩ : (clearsOther t (task, tag) answer = false ∧
        renewsFlagged t task = false) ∧ flagsInVain t i task answer = false := by
      simpa [losesFlag, hevent, hget] using hok
    have hidle : (∀ t ∈ new, NotWriting t.update?) →
        ∀ e ∈ new.map (·, (task.verdict t.runtime answer).or tag), ∀ key,
          undoes t'.held e key = false := by
      intro hnew e hmem key
      obtain ⟨task', htask', rfl⟩ := List.mem_map.1 hmem
      exact undoes_of_notWriting (hnew task' htask')
    cases heffect with
    | quiet hregistry hnew =>
      refine ⟨hquiet hregistry, hgrounded, ?_⟩
      rw [htagged, hregistry]
      intro e hmem key hflagged
      rcases List.mem_append.1 hmem with hbefore | hleft
      · exact undoes_mono (h.kept e (List.mem_of_mem_eraseIdx hbefore) key hflagged) hheld
      · exact hidle hnew e hleft key
    | read update reg next task' hbefore hread happly hregistry hnew hafter hkind =>
      subst hnew
      refine ⟨hquiet hregistry, hgrounded, ?_⟩
      rw [htagged, hregistry, Task.verdict_of_read hbefore hread happly, Option.none_or]
      intro e hmem key hflagged
      rcases List.mem_append.1 hmem with hlisted | hleft
      · exact undoes_mono (h.kept e (List.mem_of_mem_eraseIdx hlisted) key hflagged) hheld
      · obtain rfl := List.mem_singleton.1 hleft
        have hread' : undoes t.held (task', tag) key = false :=
          undoes_of_read hbacked hbefore hread happly hafter hkind hother hrenews hflagged
        exact undoes_mono hread' hheld
    | written update next hbefore hanswer hregistry hnew =>
      subst hanswer
      have hclears : ClearsOwn l t t' := by
        intro key hflagged hhealthy
        have hkept := h.kept _ (List.mem_of_getElem? hget) key hflagged
        rw [hregistry] at hhealthy
        refine ⟨i, .done, (task, tag), hevent, hget, ?_⟩
        simpa [undoes, hbefore, hhealthy] using hkept
      refine ⟨hclears, hgrounded, ?_⟩
      rw [htagged, hregistry]
      intro e hmem key hflagged
      rcases List.mem_append.1 hmem with hlisted | hleft
      · refine undoes_mono ?_ hheld
        cases hold : t.runtime.registry.isFlagged key with
        | true => exact h.kept e (List.mem_of_mem_eraseIdx hlisted) key hold
        | false =>
          -- The flag is new: no other function is about to undo it.
          obtain ⟨a, ha, rfl⟩ := AccountRegistry.exists_mem_of_flagged hflagged
          simp only [flagsInVain, hbefore, decide_true, Bool.true_and, List.any_eq_false] at hvain
          have hnone := hvain a ha
          simp only [hflagged, hold, Bool.not_false, Bool.and_self, Bool.true_and,
            List.any_eq_true, not_exists, not_and, Bool.not_eq_true] at hnone
          exact hnone e hlisted
      · exact hidle hnew e hleft key

/-! ## Every run -/

theorem FlagsKept.start {r : Runtime} (h : ∀ task ∈ r.tasks, task.isLoop = true) :
    FlagsKept (.start r) where
  grounded := .start h
  kept e hmem key _ := by
    obtain ⟨task, htask, rfl⟩ := List.mem_map.1 hmem
    refine undoes_of_notWriting ?_
    rw [Task.update?_of_isLoop (h task htask)]
    exact notWriting_none

end Maximal.Auth
