import Maximal.Auth.SignOut

/-!
# A switch that fails

A live switch writes the token and the name of the account and stops the refresh loop before it
mints, and takes nothing of this back when the mint or the write of the registry fails.

## Main definitions

- `activationStep` — a call of `activateAccountLive`, on its own
- `Unchanged`, `spoils`

## Main results

- `failed_switch_iff` — a call that fails has changed nothing iff none of its steps spoiled it
- `not_failed_switch_unchanged` — the mint is refused
-/

namespace Maximal.Auth

variable {r r' s s' : Runtime} {key : AccountKey} {n : ℕ}

/-! ## The call -/

/-- What happens next: the call gets its answer, or the helper that a mint of the call left does. -/
inductive ActivationEvent where
  | own (answer : Answer)
  | helper (task : ℕ) (answer : Answer)
  deriving DecidableEq, Repr

structure ActivationLabel where
  now : ℤ
  event : ActivationEvent
  deriving DecidableEq, Repr

/-- Is this `clearActiveNeedsReauth`? -/
def Task.isHelper : Task → Bool
  | .clearActiveNeedsReauth _ => true
  | _ => false

/-- Where the call stands. -/
abbrev Activation := Runtime × Async ActivatePoint ActivateResult

/-- A step of the call. The first `n` functions were suspended before it, and wait. -/
def activationStep (key : AccountKey) (n : ℕ) (l : ActivationLabel) :
    Activation → Option Activation
  | (_, .returned _) => none
  | (r, .suspended point) =>
    match l.event with
    | .own answer => resumeActivate key (r.atTime l.now) point answer
    | .helper i answer =>
      if n ≤ i ∧ r.tasks[i]?.any Task.isHelper then
        (step ⟨l.now, .resume i answer⟩ r).map (·, .suspended point)
      else none

/-- What a failed switch should leave as it was. -/
structure Unchanged (r r' : Runtime) : Prop where
  githubToken : r'.githubToken = r.githubToken
  userName : r'.userName = r.userName
  /-- The string, whichever request has fetched it. -/
  copilotToken : r'.copilotToken.map (·.token) = r.copilotToken.map (·.token)
  /-- The loop that keeps the bearer fresh is the same, and goes on. -/
  refreshLoop : r'.copilotRefreshLoopController = r.copilotRefreshLoopController
  aborted : r'.aborted = r.aborted
  registry : r'.registry = r.registry

namespace Unchanged

@[refl] theorem refl (r : Runtime) : Unchanged r r := ⟨rfl, rfl, rfl, rfl, rfl, rfl⟩

@[symm] theorem symm (h : Unchanged r r') : Unchanged r' r :=
  ⟨h.githubToken.symm, h.userName.symm, h.copilotToken.symm, h.refreshLoop.symm, h.aborted.symm,
    h.registry.symm⟩

@[trans] theorem trans (h : Unchanged r s) (h' : Unchanged s s') : Unchanged r s' :=
  ⟨h'.githubToken.trans h.githubToken, h'.userName.trans h.userName,
    h'.copilotToken.trans h.copilotToken, h'.refreshLoop.trans h.refreshLoop,
    h'.aborted.trans h.aborted, h'.registry.trans h.registry⟩

/-- A step that changes nothing, and does not spoil it. -/
theorem iff_of_same {spoilt : Bool} (h : Unchanged s s') (hspoilt : spoilt = false) :
    Unchanged r s' ↔ Unchanged r s ∧ spoilt = false :=
  ⟨fun hr => ⟨hr.trans h.symm, hspoilt⟩, fun hr => hr.1.trans h⟩

end Unchanged

/-- Is a `gho_` token, which is set as the bearer at once, the bearer already? -/
def takesBearer (r : Runtime) (token : String) : Bool :=
  inferTokenType token ≠ .gho || r.copilotToken.map (·.token) = some token

/-- Is the account what the memory holds already, without a refresh loop to stop? A name that every
object inherits has neither a token nor a login. -/
def holdsAccount (r : Runtime) (rec : StoredRecord) : Bool :=
  r.githubToken = rec.token && r.userName = rec.login &&
    r.copilotRefreshLoopController = none && rec.token.all (takesBearer r)

def ActivatePoint.spoils (r : Runtime) : ActivatePoint → Answer → Bool
  | .preflight rec _, .done => !holdsAccount r rec
  | .switching _ (.minting mint), answer => mint.revives answer
  | _, _ => false

/-- Is this a helper that is writing? -/
def Task.isWriting : Task → Bool
  | .clearActiveNeedsReauth (.writing _) => true
  | _ => false

/-- Does the step overwrite what a failure should leave? -/
def spoils (l : ActivationLabel) : Activation → Bool
  | (_, .returned _) => false
  | (r, .suspended point) =>
    match l.event with
    | .own answer => point.spoils r answer
    | .helper i answer => answer = .done && r.tasks[i]?.any Task.isWriting

/-! ## Each step -/

/-- The helpers that the call left write what clears the active account. -/
def HelpersClear (r : Runtime) (n : ℕ) (s : Runtime) : Prop :=
  ∀ i, n ≤ i → ∀ next, s.tasks[i]? = some (.clearActiveNeedsReauth (.writing next)) →
    RegistryUpdate.clearActiveNeedsReauth.apply r.registry = some next

theorem helpersClear_append {own : List Task} (htasks : s.tasks = r.tasks ++ own)
    (hown : ∀ next, .clearActiveNeedsReauth (.writing next) ∉ own) :
    HelpersClear r r.tasks.length s := by
  intro i hi next hhelper
  rw [htasks, List.getElem?_append_right hi] at hhelper
  exact absurd (List.mem_of_getElem? hhelper) (hown next)

/-- How far the call has come. -/
inductive Underway (key : AccountKey) (r : Runtime) : Activation → Prop
  | asked (now : ℤ) (point : ActivatePoint) : (∀ rec switch, point ≠ .switching rec switch) →
      Underway key r (r.atTime now, .suspended point)
  | minting (now : ℤ) (rec : StoredRecord) (mint : MintPoint) :
      Underway key r ((switched r rec).atTime now, .suspended (.switching rec (.minting mint)))
  | activating (s : Runtime) (rec : StoredRecord) (point : UpdatePoint) :
      s.registry = r.registry ∨
        RegistryUpdate.clearActiveNeedsReauth.apply r.registry = some s.registry →
      HelpersClear r r.tasks.length s →
      Underway key r (s, .suspended (.switching rec (.activating point)))
  | failed (s : Runtime) (status : ℕ) (message : String) :
      Underway key r (s, .returned (.failed status message))

/-- The account is committed on disk: the call will not fail. -/
def committed : Activation → Bool
  | (_, .suspended (.switching _ .refreshing)) => true
  | (_, .returned .ok) => true
  | _ => false

theorem committed_step {l : ActivationLabel} {a a' : Activation} (ha : committed a = true)
    (hstep : activationStep key n l a = some a') : committed a' = true := by
  obtain ⟨s', out⟩ := a'
  obtain ⟨s, point | result⟩ := a
  · obtain ⟨rec, rfl⟩ : ∃ rec, point = .switching rec .refreshing := by
      cases point with
      | switching rec switch => cases switch <;> first | exact ⟨rec, rfl⟩ | cases ha
      | reading | preflight => cases ha
    unfold activationStep at hstep
    dsimp only at hstep
    split at hstep
    · next answer _ =>
      cases resumeActivate_step hstep with
      | refused _ _ _ _ hpoint => exact absurd rfl (hpoint _ _)
      | switching _ _ _ _ _ hswitch => cases hswitch
      | activated => rfl
      | failed _ _ _ _ _ hswitch => cases hswitch
    · split at hstep
      · obtain ⟨s₁, -, hout⟩ := Option.map_eq_some_iff.1 hstep
        cases hout
        rfl
      · cases hstep
  · cases hstep

/-- A mint that has not succeeded has changed nothing. -/
theorem MintStep.unchanged {mint : MintPoint} {answer : Answer}
    {out : Async MintPoint (Except MintError Unit)} (h : MintStep .throw r mint answer r' out)
    (hout : out ≠ .returned (.ok ())) : r' = r := by
  cases h with
  | minted => exact absurd rfl hout
  | degraded _ _ _ _ _ hdegrade => cases hdegrade
  | refused | failed | unreachable | degradeOver | diagnosed => rfl

/-- The memory is what it was iff it held the account. -/
theorem switched_unchanged_iff {rec : StoredRecord} {now : ℤ}
    (htoken : ∀ token, rec.token = some token → inferTokenType token ≠ .gho) :
    Unchanged r ((switched r rec).atTime now) ↔ holdsAccount r rec = true := by
  have hnone : r.copilotRefreshLoopController.toList ++ r.aborted = r.aborted ↔
      r.copilotRefreshLoopController = none := by
    cases r.copilotRefreshLoopController <;> simp
  have htakes : rec.token.all (takesBearer r) = true := by
    cases hrec : rec.token with
    | none => rfl
    | some token => simp [takesBearer, htoken token hrec]
  simp only [holdsAccount, Bool.and_eq_true, decide_eq_true_eq]
  constructor
  · intro h
    exact ⟨⟨⟨h.githubToken.symm, h.userName.symm⟩, h.refreshLoop.symm⟩, htakes⟩
  · rintro ⟨⟨⟨hgithub, hname⟩, hloop⟩, -⟩
    exact ⟨hgithub.symm, hname.symm, rfl, hloop.symm, hnone.2 hloop, rfl⟩

theorem bearerTaken_unchanged_iff {rec : StoredRecord} {now : ℤ} {token : String}
    (htoken : rec.token = some token) (hgho : inferTokenType token = .gho) :
    Unchanged r ((bearerTaken (switched r rec) token).atTime now) ↔
      holdsAccount r rec = true := by
  have hnone : r.copilotRefreshLoopController = none →
      r.copilotRefreshLoopController.toList ++ r.aborted = r.aborted := by
    intro hloop
    rw [hloop]
    rfl
  have htakes : rec.token.all (takesBearer r) =
      decide (r.copilotToken.map (·.token) = some token) := by
    simp [htoken, takesBearer, hgho]
  simp only [holdsAccount, htakes, Bool.and_eq_true, decide_eq_true_eq]
  constructor
  · intro h
    have hbearer : some token = r.copilotToken.map (·.token) := h.copilotToken
    exact ⟨⟨⟨h.githubToken.symm, h.userName.symm⟩, h.refreshLoop.symm⟩, hbearer.symm⟩
  · rintro ⟨⟨⟨hgithub, hname⟩, hloop⟩, hbearer⟩
    exact ⟨hgithub.symm, hname.symm, hbearer.symm, hloop.symm, hnone hloop, rfl⟩

/-- A mint succeeds only where it starts a loop. -/
theorem bearerMinted_not_unchanged {rec : StoredRecord} {now : ℤ} {bearer : Bearer}
    {refreshIn : ℕ} :
    ¬ Unchanged r (bearerMinted ((switched r rec).atTime now) bearer refreshIn) := by
  intro h
  have hloop : some r.next = r.copilotRefreshLoopController := h.refreshLoop
  have haborted : r.copilotRefreshLoopController.toList ++ r.aborted = r.aborted := h.aborted
  rw [← hloop] at haborted
  exact absurd (congrArg List.length haborted) (by simp)

/-- The call gets its answer. -/
theorem Underway.own {point : ActivatePoint} {answer : Answer} {now : ℤ}
    {out : Async ActivatePoint ActivateResult} (h : Underway key r (s, .suspended point))
    (hstep : resumeActivate key (s.atTime now) point answer = some (s', out))
    (hcommitted : committed (s', out) = false) :
    Underway key r (s', out) ∧ (Unchanged r s' ↔
      Unchanged r s ∧ spoils ⟨now, .own answer⟩ (s, .suspended point) = false) := by
  have hlater : ∀ (s : Runtime), Unchanged s (s.atTime now) := fun s =>
    ⟨rfl, rfl, rfl, rfl, rfl, rfl⟩
  cases h with
  | asked now₀ _ hpoint =>
    have hr : Unchanged r (r.atTime now₀) := ⟨rfl, rfl, rfl, rfl, rfl, rfl⟩
    have hread : ∀ reg : AccountRegistry, ∀ answer,
        resumeActivate.afterRead key ((r.atTime now₀).atTime now) reg = (s', out) →
        Underway key r (s', out) ∧ (Unchanged r s' ↔ Unchanged r (r.atTime now₀) ∧
          spoils ⟨now, .own answer⟩ (r.atTime now₀, .suspended .reading) = false) := by
      intro reg answer hafter
      unfold resumeActivate.afterRead at hafter
      split at hafter
      · cases hafter
        exact ⟨.failed _ _ _, (hlater _).iff_of_same rfl⟩
      · split at hafter <;> cases hafter
        · exact ⟨.asked now _ (by simp), (hlater _).iff_of_same rfl⟩
        · exact ⟨.failed _ _ _, (hlater _).iff_of_same rfl⟩
    unfold resumeActivate at hstep
    split at hstep
    · exact hread _ _ (Option.some.inj hstep)
    · exact hread _ _ (Option.some.inj hstep)
    · next rec sentWith =>
      rw [Option.some.injEq] at hstep
      have hiff : ∀ {s' : Runtime}, (Unchanged r s' ↔ holdsAccount r rec = true) →
          (Unchanged r s' ↔ Unchanged r (r.atTime now₀) ∧
            spoils ⟨now, .own .done⟩
              (r.atTime now₀, .suspended (.preflight rec sentWith)) = false) := by
        intro s' hholds
        show _ ↔ _ ∧ (!holdsAccount r rec) = false
        rw [hholds, Bool.not_eq_false', and_iff_right hr]
      rcases hstart : switchActiveAccountLive ((r.atTime now₀).atTime now) rec with
        ⟨r₁, switch | ⟨message | _⟩⟩ <;> rw [hstart] at hstep <;> cases hstep
      · cases switchActiveAccountLive_step hstart with
        | sent mint hsetup =>
          cases hsetup with
          | sent htoken =>
            exact ⟨.minting now rec _, hiff (switched_unchanged_iff htoken)⟩
        | taken hsetup =>
          obtain ⟨token, htoken, hgho, rfl⟩ := hsetup.taken_of_ok
          refine ⟨.activating _ rec _ (.inl rfl) ?_, hiff (bearerTaken_unchanged_iff htoken hgho)⟩
          exact helpersClear_append rfl (by simp)
      · cases switchActiveAccountLive_step hstart
      · cases switchActiveAccountLive_step hstart
    · cases hstep
      exact ⟨.failed _ _ _, (hlater _).iff_of_same rfl⟩
    · exact absurd rfl (hpoint _ _)
    · cases hstep
  | minting now₀ rec mint =>
    cases resumeActivate_step hstep with
    | refused _ _ _ _ hpoint => exact absurd rfl (hpoint _ _)
    | switching _ _ _ _ _ hswitch =>
      cases hswitch with
      | minting _ mint' _ _ hmint =>
        obtain rfl := hmint.unchanged (by simp)
        exact ⟨.minting now rec mint', (hlater _).iff_of_same (hmint.not_revives (by simp))⟩
      | minted _ _ _ hmint =>
        obtain ⟨sentWith, token, refreshIn, rfl, rfl, rfl⟩ := hmint.minted_of_ok
        refine ⟨.activating _ rec _ (.inl rfl) ?_, ?_⟩
        · exact helpersClear_append (List.append_assoc _ _ _) (by simp)
        · refine ⟨fun h => absurd h bearerMinted_not_unchanged, fun h => ?_⟩
          cases h.2
    | activated _ _ _ _ hswitch => cases hswitch
    | failed _ _ _ _ _ hswitch =>
      cases hswitch with
      | rejected _ _ error _ hmint =>
        obtain rfl := hmint.unchanged (by simp)
        exact ⟨.failed _ _ _, (hlater _).iff_of_same (hmint.not_revives (by simp))⟩
  | activating _ rec point hregistry hhelpers =>
    cases resumeActivate_step hstep with
    | refused _ _ _ _ hpoint => exact absurd rfl (hpoint _ _)
    | switching _ _ _ _ _ hswitch =>
      cases hswitch with
      | activating _ point' _ _ hupdate =>
        cases hupdate with
        | read => exact ⟨.activating _ rec _ hregistry hhelpers, (hlater _).iff_of_same rfl⟩
      | activated => cases hcommitted
    | activated => cases hcommitted
    | failed _ _ _ _ _ hswitch =>
      cases hswitch with
      | unwritten _ _ _ _ hupdate =>
        cases hupdate with
        | failed => exact ⟨.failed _ _ _, (hlater _).iff_of_same rfl⟩

theorem apply_clearActive_ne {reg next : AccountRegistry}
    (h : RegistryUpdate.clearActiveNeedsReauth.apply reg = some next) : next ≠ reg := by
  obtain ⟨active, -, hclear⟩ := Option.bind_eq_some_iff.1 h
  dsimp only at hclear
  split at hclear <;> cases hclear
  assumption

/-- What was cleared is not cleared again. -/
theorem apply_clearActive_idem {reg next : AccountRegistry}
    (h : RegistryUpdate.clearActiveNeedsReauth.apply reg = some next) :
    RegistryUpdate.clearActiveNeedsReauth.apply next = none := by
  obtain ⟨active, hactive, hclear⟩ := Option.bind_eq_some_iff.1 h
  dsimp only at hclear
  split at hclear <;> cases hclear
  have hactive : (clearNeedsReauth reg active).activeKey = some active :=
    (activeKey_clearNeedsReauth reg active).trans hactive
  simp [RegistryUpdate.apply, hactive, clearNeedsReauth_idem]

/-- The other helpers are where they were, or one place further to the front. -/
theorem HelpersClear.without (h : HelpersClear r n s) (i : ℕ) :
    HelpersClear r n (s.without i) := by
  intro j hj next hhelper
  rw [show (s.without i).tasks = s.tasks.eraseIdx i from rfl, List.getElem?_eraseIdx] at hhelper
  split at hhelper
  · exact h j hj next hhelper
  · exact h (j + 1) (by omega) next hhelper

theorem HelpersClear.spawn (h : HelpersClear r n s) {task : Task}
    (htask : ∀ next, task = .clearActiveNeedsReauth (.writing next) →
      RegistryUpdate.clearActiveNeedsReauth.apply r.registry = some next) :
    HelpersClear r n (s.spawn task) := by
  intro i hi next hhelper
  have hmem : s.tasks[i]? = some (.clearActiveNeedsReauth (.writing next)) ∨
      task = .clearActiveNeedsReauth (.writing next) := by
    rw [show (s.spawn task).tasks = s.tasks ++ [task] from rfl, List.getElem?_append] at hhelper
    split at hhelper
    · exact .inl hhelper
    · exact .inr (List.mem_singleton.1 (List.mem_of_getElem? hhelper)).symm
  rcases hmem with hold | hnew
  · exact h i hi next hold
  · exact htask next hnew

/-- The helper gets its answer. -/
theorem Underway.helper {point : ActivatePoint} {now : ℤ} {i : ℕ} {answer : Answer}
    (h : Underway key r (s, .suspended point)) (hi : r.tasks.length ≤ i)
    (hhelper : s.tasks[i]?.any Task.isHelper = true)
    (hstep : step ⟨now, .resume i answer⟩ s = some s') :
    Underway key r (s', .suspended point) ∧ (Unchanged r s' ↔
      Unchanged r s ∧ spoils ⟨now, .helper i answer⟩ (s, .suspended point) = false) := by
  have hidle : ∀ s : Runtime, s.tasks = r.tasks → s.tasks[i]?.any Task.isHelper = true → False := by
    intro s htasks hhelper
    rw [htasks, List.getElem?_eq_none hi] at hhelper
    cases hhelper
  cases h with
  | asked now₀ => exact absurd hhelper (hidle (r.atTime now₀) rfl)
  | minting now₀ rec => exact absurd hhelper (hidle ((switched r rec).atTime now₀) rfl)
  | activating _ rec update hregistry hhelpers =>
    obtain ⟨task, htask, hresume⟩ := Option.bind_eq_some_iff.1 hstep
    rw [htask] at hhelper
    obtain ⟨clear, rfl⟩ : ∃ clear, task = .clearActiveNeedsReauth clear := by
      cases task <;> first | exact ⟨_, rfl⟩ | cases hhelper
    have hwithout : HelpersClear r r.tasks.length ((s.atTime now).without i) :=
      HelpersClear.without (s := s.atTime now) hhelpers i
    have hspoils : spoils ⟨now, .helper i answer⟩
        (s, .suspended (.switching rec (.activating update))) =
          (decide (answer = .done) && (Task.clearActiveNeedsReauth clear).isWriting) := by
      show (_ && s.tasks[i]?.any Task.isWriting) = _
      rw [htask]
      rfl
    have hlater : ∀ task, Unchanged s (((s.atTime now).without i).spawn task) := fun task =>
      ⟨rfl, rfl, rfl, rfl, rfl, rfl⟩
    have hended : Unchanged s ((s.atTime now).without i) := ⟨rfl, rfl, rfl, rfl, rfl, rfl⟩
    rw [hspoils]
    obtain ⟨⟨s₁, out⟩, hupdate, rfl⟩ := Option.map_eq_some_iff.1 hresume
    cases resumeUpdate_step hupdate with
    | read _ reg next hread hnext =>
      refine ⟨.activating _ rec update hregistry (hwithout.spawn ?_),
        (hlater _).iff_of_same (Bool.and_false _)⟩
      rintro _ ⟨⟩
      cases answer <;> cases hread
      · rcases hregistry with hsame | hcleared
        · exact hsame ▸ hnext
        · -- The active account has been cleared already.
          exact absurd (hnext.symm.trans (apply_clearActive_idem hcleared)) (by simp)
      · cases hnext
    | idle => exact ⟨.activating _ rec update hregistry hwithout,
        hended.iff_of_same (Bool.and_false _)⟩
    | written next =>
      have hnext := hhelpers i hi next htask
      refine ⟨.activating _ rec update (.inr hnext) hwithout, fun h => ?_, fun h => ?_⟩
      · exact absurd h.registry (apply_clearActive_ne hnext)
      · cases h.2
    | failed => exact ⟨.activating _ rec update hregistry hwithout, hended.iff_of_same rfl⟩

theorem Underway.step {l : ActivationLabel} {a a' : Activation} (h : Underway key r a)
    (hstep : activationStep key r.tasks.length l a = some a') (hcommitted : committed a' = false) :
    Underway key r a' ∧ (Unchanged r a'.1 ↔ Unchanged r a.1 ∧ spoils l a = false) := by
  obtain ⟨s, point | result⟩ := a
  · obtain ⟨now, answer | ⟨i, answer⟩⟩ := l
    · exact h.own hstep hcommitted
    · unfold activationStep at hstep
      dsimp only at hstep
      split at hstep
      · next hhelper =>
        obtain ⟨s', hresume, rfl⟩ := Option.map_eq_some_iff.1 hstep
        exact h.helper hhelper.1 hhelper.2 hresume
      · cases hstep
  · cases hstep

/-! ## Every call -/

theorem Underway.run {labels : List ActivationLabel} {a : Activation} {status : ℕ}
    {message : String} (h : Underway key r a)
    (hrun : Runs.exec (activationStep key r.tasks.length) labels a =
      some (r', .returned (.failed status message))) :
    Unchanged r r' ↔ Unchanged r a.1 ∧
      Runs.Meets (activationStep key r.tasks.length) (fun l a => spoils l a = false) labels a := by
  induction labels generalizing a with
  | nil =>
    cases hrun
    exact (and_iff_left trivial).symm
  | cons l labels ih =>
    obtain ⟨a', hstep, hrun⟩ := Option.bind_eq_some_iff.1 hrun
    have hcommitted : committed a' = false := by
      cases hcommits : committed a' with
      | false => rfl
      | true =>
        have hend := Runs.exec_preserves (I := (committed · = true))
          (fun _ _ _ ha hstep => committed_step ha hstep) hcommits hrun
        cases hend
    obtain ⟨hunderway, hiff⟩ := h.step hstep hcommitted
    have hrest : (∀ a'' ∈ activationStep key r.tasks.length l a,
        Runs.Meets (activationStep key r.tasks.length) (fun l a => spoils l a = false) labels a'') ↔
          Runs.Meets (activationStep key r.tasks.length) (fun l a => spoils l a = false) labels a' := by
      rw [hstep]
      exact ⟨fun h => h a' rfl, fun h a'' ha => Option.some.inj ha ▸ h⟩
    rw [ih hunderway hrun, hiff, Runs.Meets, hrest, and_assoc]

/-- A call that reports a failure has left the tokens, the name, the refresh loop and the registry
as they were iff it took no step that spoils one of them. -/
theorem failed_switch_iff {labels : List ActivationLabel} {status : ℕ} {message : String}
    (hrun : Runs.exec (activationStep key r.tasks.length) labels (r, .suspended .reading) =
      some (r', .returned (.failed status message))) :
    Unchanged r r' ↔ Runs.Meets (activationStep key r.tasks.length)
      (fun l a => spoils l a = false) labels (r, .suspended .reading) := by
  have hasked : Underway key r (r, .suspended .reading) := .asked r.now .reading (by simp)
  rw [hasked.run hrun, and_iff_right (Unchanged.refl r)]

def bobRecord : AccountRecord :=
  makeAccountRecord "bob" "github.com" .deviceCode ⟨"ghu_bob", none, none, none⟩ 0

/-- Alice is signed in, and Bob's account is known. -/
def twoAccounts : Runtime :=
  { bootedSession "alice" "ghu_alice" "tid=alice" 1440000 with
    registry :=
      { activeKey := some "alice@github.com"
        accounts :=
          [("alice@github.com", .account
              (makeAccountRecord "alice" "github.com" .deviceCode ⟨"ghu_alice", none, none, none⟩ 0)),
            ("bob@github.com", .account bobRecord)] } }

/-- Bob has no access to Copilot. -/
def refusedPreflight : List ActivationLabel :=
  [⟨1000, .own .done⟩, ⟨1300, .own (.refused 403 none)⟩]

theorem failed_switch_iff_refusedPreflight :
    ∃ r', Runs.exec (activationStep "bob@github.com" twoAccounts.tasks.length) refusedPreflight
        (twoAccounts, .suspended .reading) =
          some (r', .returned (.failed 422 (preflightCopilotError 403 "bob"))) ∧
      Unchanged twoAccounts r' := by
  have hmeets : Runs.Meets (activationStep "bob@github.com" twoAccounts.tasks.length)
      (fun l a => spoils l a = false) refusedPreflight (twoAccounts, .suspended .reading) := by
    decide +kernel
  exact ⟨_, rfl, (failed_switch_iff rfl).2 hmeets⟩

/-- The preflight passes, but GitHub does not answer the mint. -/
theorem not_failed_switch_unchanged :
    ¬ ∀ (key : AccountKey) (labels : List ActivationLabel) (r r' : Runtime) (status : ℕ)
      (message : String),
      Runs.exec (activationStep key r.tasks.length) labels (r, .suspended .reading) =
        some (r', .returned (.failed status message)) → Unchanged r r' := by
  intro h
  have hend := h "bob@github.com"
    [⟨1000, .own .done⟩, ⟨1300, .own .done⟩, ⟨1600, .own (.refused 502 none)⟩]
    twoAccounts _ 422 "Failed to get Copilot token" rfl
  exact absurd hend.githubToken (by decide)

end Maximal.Auth
