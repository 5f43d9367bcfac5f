import Maximal.Apps.ClaudeCodeConfig
import Maximal.Lib.Runs

/-!
# Sessions and their marker

While a session serves, the settings of Claude Code name the proxy and a file marks the session as
running. Who exits takes both back, the settings first. Who is killed takes back nothing; the next
boot finds the marker and warns. Several processes may run at once, and each keeps the copy of the
configuration that it read first.

## Main definitions

- `Machine`, `Machine.step` — boots, exits and kills, with calls and edits of the user in between
- `Machine.Ordinary` — the steps that the marker covers
- `Settled` — the settings do not name the proxy as what was there before it

## Main results

- `Guarded.step` — every ordinary step keeps the marker beside settings that name the proxy
- `stranded_marked` — settings that still name the proxy when no session runs have the marker
- `marked_iff_killed` — whose marker it is that a boot finds
-/

namespace Maximal.Start

open Js Auth Apps

/-! ## The machine -/

inductive Phase where
  | down
  /-- Before `finalizeBoot`. -/
  | booting
  /-- In `finalizeBoot`, after `reconcileClaudeCodeOnBoot`. -/
  | routed
  /-- The session is marked and the handlers of `installShutdownHandlers` are there. -/
  | serving
  /-- `initiateShutdown` has reconciled and closes the listeners. -/
  | draining
  /-- It has removed the marker and is about to exit. -/
  | cleared
  deriving DecidableEq, Repr

structure Session where
  phase : Phase
  /-- `claudeCodeRoutingIntended()`, in the configuration that this process has cached. -/
  intended : Bool

/-- With the port policy `next` an instance boots beside others. -/
structure Machine where
  /-- By process. -/
  session : ℕ → Session
  settings : SettingsFile
  /-- The flag in the configuration file. -/
  stored : Bool
  /-- The file `session-running`. -/
  sentinel : Bool

/-- A flag says whether the file was written or removed; who fails leaves it and goes on. -/
inductive Label where
  | boot (i : ℕ)
  /-- An exit before the handlers are installed. -/
  | abort (i : ℕ)
  | reconcileOnBoot (i : ℕ) (binary : Binary) (applied : Bool)
  | markSessionRunning (i : ℕ) (written : Bool)
  | initiateShutdown (i : ℕ) (reverted : Bool)
  | clearSessionRunning (i : ℕ) (removed : Bool)
  /-- `process.exit`, or an error that nobody catches: the `exit` handler. -/
  | exit (i : ℕ) (reverted removed : Bool)
  | kill (i : ℕ)
  /-- By a session, or by a process of its own (`maximal app claude-code --enable`). -/
  | enable (caller : Option ℕ) (binary : Binary)
  | disable (caller : Option ℕ)
  /-- A session writes its configuration for another setting's sake. -/
  | writeConfig (i : ℕ)
  /-- The user, or another program, writes the settings. -/
  | edit (content : SettingsFile)

/-- The boot warns when it finds the marker of a session. -/
def staleSessionMarkerPresent (m : Machine) : Bool := m.sentinel

def reconcileClaudeCodeOnBoot (intended : Bool) (binary : Binary) (settings : SettingsFile) :
    SettingsFile :=
  if intended then (applyProxyBaseUrl binary settings).1 else settings

def reconcileClaudeCodeOnShutdown (intended : Bool) (settings : SettingsFile) : SettingsFile :=
  if intended then (revertProxyBaseUrl settings).1 else settings

namespace Machine

/-- The handlers of `installShutdownHandlers` are there. -/
def handled : Phase → Bool
  | .serving | .draining | .cleared => true
  | .down | .booting | .routed => false

def put (m : Machine) (i : ℕ) (s : Session) : Machine :=
  { m with session := Function.update m.session i s }

def move (m : Machine) (i : ℕ) (phase : Phase) : Machine := m.put i { m.session i with phase }

/-- The caller's own copy follows what it writes; others keep theirs. -/
def setClaudeCodeRoutingIntent (m : Machine) (caller : Option ℕ) (enabled : Bool) : Machine :=
  match caller with
  | some i => { m.put i { m.session i with intended := enabled } with stored := enabled }
  | none => { m with stored := enabled }

/-- Who enables or disables in a session runs. -/
def calls (m : Machine) (caller : Option ℕ) : Bool :=
  caller.all fun i => (m.session i).phase ≠ .down

/-- Both parts of the `exit` handler are tried. -/
def exitHandler (m : Machine) (i : ℕ) (reverted removed : Bool) : Machine :=
  { m.move i .down with
    settings :=
      if reverted then reconcileClaudeCodeOnShutdown (m.session i).intended m.settings
      else m.settings
    sentinel := m.sentinel && !removed }

def step : Label → Machine → Option Machine
  | .boot i, m =>
    if (m.session i).phase = .down then some (m.put i ⟨.booting, m.stored⟩) else none
  | .abort i, m => if (m.session i).phase = .booting then some (m.move i .down) else none
  | .reconcileOnBoot i binary applied, m =>
    if (m.session i).phase = .booting then
      some { m.move i .routed with
        settings :=
          if applied then reconcileClaudeCodeOnBoot (m.session i).intended binary m.settings
          else m.settings }
    else none
  | .markSessionRunning i written, m =>
    if (m.session i).phase = .routed then
      some { m.move i .serving with sentinel := m.sentinel || written }
    else none
  | .initiateShutdown i reverted, m =>
    -- a second call returns at once
    if (m.session i).phase = .serving then
      some { m.move i .draining with
        settings :=
          if reverted then reconcileClaudeCodeOnShutdown (m.session i).intended m.settings
          else m.settings }
    else none
  | .clearSessionRunning i removed, m =>
    if (m.session i).phase = .draining then
      some { m.move i .cleared with sentinel := m.sentinel && !removed }
    else none
  | .exit i reverted removed, m =>
    if handled (m.session i).phase then some (m.exitHandler i reverted removed) else none
  | .kill i, m => if (m.session i).phase = .down then none else some (m.move i .down)
  | .enable caller binary, m =>
    if m.calls caller then
      some { m.setClaudeCodeRoutingIntent caller true with
        settings := (applyProxyBaseUrl binary m.settings).1 }
    else none
  | .disable caller, m =>
    if m.calls caller then
      some { m.setClaudeCodeRoutingIntent caller false with
        settings := (revertProxyBaseUrl m.settings).1 }
    else none
  | .writeConfig i, m =>
    if (m.session i).phase = .down then none
    else some { m with stored := (m.session i).intended }
  | .edit content, m => some { m with settings := content }

end Machine

/-! ## Settings that can be taken back -/

/-- The settings name the proxy. -/
def namesProxy (file : SettingsFile) : Prop :=
  getBaseUrlOwnership (readClaudeCodeSettings file) = .ours

instance (file : SettingsFile) : Decidable (namesProxy file) :=
  inferInstanceAs (Decidable (_ = _))

/-- What was there before is kept beside the proxy's URL, and is not that URL. -/
def Settled (file : SettingsFile) : Prop :=
  (namesProxy file → (readClaudeCodeSettings file).get PRIOR_KEY ≠ none) ∧
    ∀ prior ∈ readPriorSnapshot (readClaudeCodeSettings file),
      prior.baseUrl ≠ .string PROXY_BASE_URL

theorem revertProxyBaseUrl_settled {file : SettingsFile} (h : Settled file) :
    Settled (revertProxyBaseUrl file).1 ∧ ¬ namesProxy (revertProxyBaseUrl file).1 := by
  by_cases hours : holdsOurs (readClaudeCodeSettings file)
  · have hread := readClaudeCodeSettings_revert hours
    have hnames : ¬ namesProxy (revertProxyBaseUrl file).1 := by
      rw [namesProxy, hread, getBaseUrlOwnership_eq_ours, readEnv_stripBaseUrl, get_strippedEnv,
        if_pos rfl, revertedBaseUrl]
      cases hprior : readPriorSnapshot (readClaudeCodeSettings file) with
      | some prior =>
        have hne := h.2 prior hprior
        dsimp only
        rw [restored]
        split
        · intro heq
          cases heq
        · exact fun heq => hne (Option.some.inj heq)
      | none =>
        dsimp only
        split
        · intro heq
          cases heq
        · next hforeign => exact mt (getBaseUrlOwnership_eq_ours _).2 hforeign
    refine ⟨⟨fun hn => absurd hn hnames, ?_⟩, hnames⟩
    rw [hread, readPriorSnapshot, get_stripBaseUrl_prior]
    intro prior hprior
    cases hprior
  · rw [revertProxyBaseUrl_of_not hours]
    exact ⟨h, fun hn => hours (.inl hn)⟩

theorem applyProxyBaseUrl_settled (binary : Binary) {file : SettingsFile} (h : Settled file) :
    Settled (applyProxyBaseUrl binary file).1 := by
  by_cases htakes : takesOver binary (readClaudeCodeSettings file)
  · rw [applyProxyBaseUrl_takesOver htakes]
    have hread : readClaudeCodeSettings (writeClaudeCodeSettings
        (mergeBaseUrl binary (readClaudeCodeSettings file))) =
          mergeBaseUrl binary (readClaudeCodeSettings file) := rfl
    rw [Settled, hread, get_mergeBaseUrl_prior]
    refine ⟨fun _ => nofun, fun prior hprior => ?_⟩
    rw [readPriorSnapshot, get_mergeBaseUrl_prior] at hprior
    cases hkept : (readClaudeCodeSettings file).get PRIOR_KEY with
    | some kept =>
      rw [hkept] at hprior
      refine h.2 prior ?_
      rw [readPriorSnapshot, hkept]
      exact hprior
    | none =>
      -- the first snapshot; the settings did not name the proxy
      have hnames : ¬ namesProxy file := fun hn => h.1 hn hkept
      rw [hkept] at hprior
      obtain rfl := Option.some.inj hprior
      rw [namesProxy, getBaseUrlOwnership_eq_ours] at hnames
      change ((readEnv (readClaudeCodeSettings file)).get BASE_URL_KEY).getD UNSET ≠ _
      cases hurl : (readEnv (readClaudeCodeSettings file)).get BASE_URL_KEY with
      | none =>
        rw [Option.getD_none, UNSET]
        decide
      | some url =>
        rw [hurl] at hnames
        exact fun heq => hnames (congrArg some heq)
  · rw [(applyProxyBaseUrl_skips htakes).1]
    exact h

/-! ## Ordinary steps -/

namespace Machine

/-- Serves, or drains and has not removed the marker. -/
def Covered (s : Session) : Prop := s.phase = .serving ∨ s.phase = .draining

/-- Every session that runs, but the caller, has the routing on in its own copy. -/
def Agreed (m : Machine) (caller : Option ℕ) : Prop :=
  ∀ j, (m.session j).phase ≠ .down → caller ≠ some j → (m.session j).intended = true

/-- No other session relies on the marker. -/
def Alone (m : Machine) (i : ℕ) : Prop := ∀ j, j ≠ i → ¬ Covered (m.session j)

/-- The marker covers a kill but in the moments in which the settings are ahead of it, what enables
the routing while a session serves, and one session at its end. The routing is taken up only where
no copy of the flag is behind. An edit keeps what was there before the proxy's URL, and does not
write this URL. -/
def Ordinary : Label → Machine → Prop
  | .reconcileOnBoot i _ _, m =>
    (m.session i).intended = true → m.stored = true ∧ m.Agreed none
  | .markSessionRunning _ written, _ => written = true
  | .clearSessionRunning i removed, m => removed = true → m.Alone i
  | .exit i reverted removed, m => reverted = true ∧ (removed = true → m.Alone i)
  | .kill i, m => (m.session i).phase ≠ .routed ∧ (m.session i).phase ≠ .cleared
  | .enable caller _, m => (∃ j, Covered (m.session j)) ∧ m.Agreed caller
  | .edit content, m => Settled content ∧ (namesProxy content → namesProxy m.settings)
  | _, _ => True

/-- The marker is missing only while a session is about to write it or to take the settings back. -/
structure Guarded (m : Machine) : Prop where
  settled : Settled m.settings
  intended : namesProxy m.settings → m.stored = true ∧ m.Agreed none
  marked : namesProxy m.settings →
    m.sentinel = true ∨ ∃ j, (m.session j).phase = .routed ∨ (m.session j).phase = .cleared
  sentinel : ∀ j, Covered (m.session j) → m.sentinel = true

variable {m m' : Machine} {i : ℕ}

theorem session_put (m : Machine) (i j : ℕ) (s : Session) :
    (m.put i s).session j = if j = i then s else m.session j :=
  Function.update_apply m.session i s j

theorem session_move_self (m : Machine) (i : ℕ) (phase : Phase) :
    (m.move i phase).session i = ⟨phase, (m.session i).intended⟩ := by
  rw [move, session_put, if_pos rfl]

theorem session_move_of_ne {j : ℕ} (hj : j ≠ i) (phase : Phase) :
    (m.move i phase).session j = m.session j := by
  rw [move, session_put, if_neg hj]

/-- A session that goes on, or ends, keeps its copy. -/
theorem Agreed.move (h : m.Agreed none) (hup : (m.session i).phase ≠ .down) (phase : Phase) :
    (m.move i phase).Agreed none := by
  intro j hj _
  by_cases hji : j = i
  · obtain rfl := hji
    rw [session_move_self]
    exact h j hup nofun
  · rw [session_move_of_ne hji] at hj ⊢
    exact h j hj nofun

theorem covered_move {j : ℕ} {phase : Phase} (h : Covered ((m.move i phase).session j))
    (hserving : phase ≠ .serving) (hdraining : phase ≠ .draining) :
    j ≠ i ∧ Covered (m.session j) := by
  by_cases hji : j = i
  · obtain rfl := hji
    rw [session_move_self] at h
    exact (h.elim hserving hdraining).elim
  · rw [session_move_of_ne hji] at h
    exact ⟨hji, h⟩

/-- Who is neither about to mark nor about to exit may go on. -/
theorem marked_move (hrouted : (m.session i).phase ≠ .routed)
    (hcleared : (m.session i).phase ≠ .cleared) (phase : Phase)
    (h : m.sentinel = true ∨
      ∃ j, (m.session j).phase = .routed ∨ (m.session j).phase = .cleared) :
    m.sentinel = true ∨ ∃ j, ((m.move i phase).session j).phase = .routed ∨
      ((m.move i phase).session j).phase = .cleared := by
  refine h.imp_right fun ⟨j, hj⟩ => ⟨j, ?_⟩
  have hji : j ≠ i := by
    rintro rfl
    exact hj.elim hrouted hcleared
  rw [session_move_of_ne hji]
  exact hj

theorem reconcileOnShutdown_settled (h : m.Guarded) (hup : (m.session i).phase ≠ .down) :
    Settled (reconcileClaudeCodeOnShutdown (m.session i).intended m.settings) ∧
      ¬ namesProxy (reconcileClaudeCodeOnShutdown (m.session i).intended m.settings) := by
  rw [reconcileClaudeCodeOnShutdown]
  split
  · exact revertProxyBaseUrl_settled h.settled
  · next hoff => exact ⟨h.settled, fun hnames => hoff ((h.intended hnames).2 i hup nofun)⟩

/-- Nothing happens but that a session goes on. -/
theorem Guarded.move (h : m.Guarded) (hup : (m.session i).phase ≠ .down)
    (hrouted : (m.session i).phase ≠ .routed) (hcleared : (m.session i).phase ≠ .cleared)
    {phase : Phase} (hphase : Covered ⟨phase, (m.session i).intended⟩ → m.sentinel = true) :
    (m.move i phase).Guarded := by
  refine ⟨h.settled, fun hnames => ?_, fun hnames => ?_, fun j hj => ?_⟩
  · exact (h.intended hnames).imp_right fun hagreed => hagreed.move hup phase
  · exact marked_move hrouted hcleared phase (h.marked hnames)
  · by_cases hcovers : Covered ⟨phase, (m.session i).intended⟩
    · exact hphase hcovers
    · refine h.sentinel j (covered_move hj ?_ ?_).2
      · exact fun hserving => hcovers (.inl hserving)
      · exact fun hdraining => hcovers (.inr hdraining)

theorem session_setIntent_phase (m : Machine) (caller : Option ℕ) (enabled : Bool) (j : ℕ) :
    ((m.setClaudeCodeRoutingIntent caller enabled).session j).phase = (m.session j).phase := by
  cases caller with
  | none => rfl
  | some i =>
    rw [setClaudeCodeRoutingIntent]
    dsimp only
    rw [session_put]
    split
    · next hj => rw [hj]
    · rfl

theorem setIntent_sentinel (m : Machine) (caller : Option ℕ) (enabled : Bool) :
    (m.setClaudeCodeRoutingIntent caller enabled).sentinel = m.sentinel := by
  cases caller <;> rfl

/-- Then nobody's copy is behind. -/
theorem Agreed.setIntent {caller : Option ℕ} (h : m.Agreed caller) :
    (m.setClaudeCodeRoutingIntent caller true).stored = true ∧
      (m.setClaudeCodeRoutingIntent caller true).Agreed none := by
  cases caller with
  | none => exact ⟨rfl, h⟩
  | some i =>
    refine ⟨rfl, fun j hj _ => ?_⟩
    rw [session_setIntent_phase] at hj
    rw [setClaudeCodeRoutingIntent]
    dsimp only
    rw [session_put]
    split
    · rfl
    · next hji => exact h j hj fun heq => hji (Option.some.inj heq).symm

/-- What names the proxy when nobody will take it back is marked. -/
theorem Guarded.step (h : m.Guarded) {label : Label} (hord : Ordinary label m)
    (hstep : step label m = some m') : m'.Guarded := by
  cases label with
  | boot i =>
    obtain ⟨hphase, heq⟩ := Option.ite_none_right_eq_some.1 hstep
    obtain rfl := Option.some.inj heq
    refine ⟨h.settled, fun hnames => ?_, fun hnames => ?_, fun j hj => ?_⟩
    · obtain ⟨hstored, hagreed⟩ := h.intended hnames
      refine ⟨hstored, fun j hj _ => ?_⟩
      rw [session_put] at hj ⊢
      split
      · exact hstored
      · next hji => exact hagreed j (by rwa [if_neg hji] at hj) nofun
    · refine (h.marked hnames).imp_right fun ⟨j, hj⟩ => ⟨j, ?_⟩
      have hji : j ≠ i := by
        rintro rfl
        rw [hphase] at hj
        exact hj.elim nofun nofun
      rw [session_put, if_neg hji]
      exact hj
    · rw [session_put] at hj
      split at hj
      · exact hj.elim nofun nofun
      · exact h.sentinel j hj
  | abort i =>
    obtain ⟨hphase, heq⟩ := Option.ite_none_right_eq_some.1 hstep
    obtain rfl := Option.some.inj heq
    refine h.move ?_ ?_ ?_ fun hcovers => hcovers.elim nofun nofun
    all_goals rw [hphase]; nofun
  | reconcileOnBoot i binary applied =>
    obtain ⟨hphase, heq⟩ := Option.ite_none_right_eq_some.1 hstep
    obtain rfl := Option.some.inj heq
    have hup : (m.session i).phase ≠ .down := by
      rw [hphase]
      nofun
    have hrouted : ∃ j, ((m.move i .routed).session j).phase = .routed ∨
        ((m.move i .routed).session j).phase = .cleared :=
      ⟨i, .inl (by rw [session_move_self])⟩
    have hcovered : ∀ j, Covered ((m.move i .routed).session j) → m.sentinel = true := fun j hj =>
      h.sentinel j (covered_move hj nofun nofun).2
    by_cases hon : applied = true ∧ (m.session i).intended = true
    · obtain ⟨rfl, hon⟩ := hon
      obtain ⟨hstored, hagreed⟩ := hord hon
      refine ⟨?_, fun _ => ⟨hstored, hagreed.move hup _⟩, fun _ => .inr hrouted, hcovered⟩
      dsimp only
      rw [reconcileClaudeCodeOnBoot, if_pos rfl, if_pos hon]
      exact applyProxyBaseUrl_settled binary h.settled
    · have hsame : (if applied then
          reconcileClaudeCodeOnBoot (m.session i).intended binary m.settings else m.settings) =
            m.settings := by
        rw [reconcileClaudeCodeOnBoot]
        split
        · next happlied => exact if_neg fun hcopy => hon ⟨happlied, hcopy⟩
        · rfl
      refine ⟨?_, fun hnames => ?_, fun _ => .inr hrouted, hcovered⟩
      · exact hsame.symm ▸ h.settled
      · exact (h.intended (hsame ▸ hnames)).imp_right fun hagreed => hagreed.move hup _
  | markSessionRunning i written =>
    obtain ⟨hphase, heq⟩ := Option.ite_none_right_eq_some.1 hstep
    obtain rfl := Option.some.inj heq
    have hup : (m.session i).phase ≠ .down := by
      rw [hphase]
      nofun
    have hmarked : (m.sentinel || written) = true := Bool.or_eq_true_iff.2 (.inr hord)
    refine ⟨h.settled, fun hnames => ?_, fun _ => .inl hmarked, fun _ _ => hmarked⟩
    exact (h.intended hnames).imp_right fun hagreed => hagreed.move hup _
  | initiateShutdown i reverted =>
    obtain ⟨hphase, heq⟩ := Option.ite_none_right_eq_some.1 hstep
    obtain rfl := Option.some.inj heq
    have hup : (m.session i).phase ≠ .down := by
      rw [hphase]
      nofun
    have hmoved : (m.move i .draining).Guarded := by
      refine h.move hup ?_ ?_ fun _ => h.sentinel i (.inl hphase)
      all_goals rw [hphase]; nofun
    cases reverted with
    | false => exact hmoved
    | true =>
      obtain ⟨hsettled, hnames⟩ := reconcileOnShutdown_settled h hup
      exact ⟨hsettled, fun hn => absurd hn hnames, fun hn => absurd hn hnames, hmoved.sentinel⟩
  | clearSessionRunning i removed =>
    obtain ⟨hphase, heq⟩ := Option.ite_none_right_eq_some.1 hstep
    obtain rfl := Option.some.inj heq
    have hup : (m.session i).phase ≠ .down := by
      rw [hphase]
      nofun
    refine ⟨h.settled, fun hnames => ?_, fun _ => .inr ⟨i, .inr ?_⟩,
      fun j (hj : Covered ((m.move i .cleared).session j)) => ?_⟩
    · exact (h.intended hnames).imp_right fun hagreed => hagreed.move hup _
    · exact congrArg Session.phase (session_move_self m i .cleared)
    · obtain ⟨hji, hcovered⟩ := covered_move hj nofun nofun
      cases removed with
      | false => exact Bool.and_eq_true_iff.2 ⟨h.sentinel j hcovered, rfl⟩
      | true => exact absurd hcovered (hord rfl j hji)
  | exit i reverted removed =>
    obtain ⟨hhandled, heq⟩ := Option.ite_none_right_eq_some.1 hstep
    obtain rfl := Option.some.inj heq
    have hup : (m.session i).phase ≠ .down := by
      intro hphase
      rw [hphase] at hhandled
      cases hhandled
    obtain ⟨rfl, halone⟩ := hord
    obtain ⟨hsettled, hnames⟩ := reconcileOnShutdown_settled h hup
    refine ⟨hsettled, fun hn => absurd hn hnames, fun hn => absurd hn hnames,
      fun j (hj : Covered ((m.move i .down).session j)) => ?_⟩
    obtain ⟨hji, hcovered⟩ := covered_move hj nofun nofun
    cases removed with
    | false => exact Bool.and_eq_true_iff.2 ⟨h.sentinel j hcovered, rfl⟩
    | true => exact absurd hcovered (halone rfl j hji)
  | kill i =>
    obtain ⟨hup, heq⟩ := Option.ite_none_left_eq_some.1 hstep
    obtain rfl := Option.some.inj heq
    exact h.move hup hord.1 hord.2 fun hcovers => hcovers.elim nofun nofun
  | enable caller binary =>
    obtain ⟨-, heq⟩ := Option.ite_none_right_eq_some.1 hstep
    obtain rfl := Option.some.inj heq
    obtain ⟨⟨j, hj⟩, hagreed⟩ := hord
    have hmarked : (m.setClaudeCodeRoutingIntent caller true).sentinel = true :=
      (setIntent_sentinel m caller true).trans (h.sentinel j hj)
    exact ⟨applyProxyBaseUrl_settled binary h.settled, fun _ => hagreed.setIntent,
      fun _ => .inl hmarked, fun _ _ => hmarked⟩
  | disable caller =>
    obtain ⟨-, heq⟩ := Option.ite_none_right_eq_some.1 hstep
    obtain rfl := Option.some.inj heq
    obtain ⟨hsettled, hnames⟩ := revertProxyBaseUrl_settled h.settled
    refine ⟨hsettled, fun hn => absurd hn hnames, fun hn => absurd hn hnames, fun j hj => ?_⟩
    rw [Covered, session_setIntent_phase] at hj
    exact (setIntent_sentinel m caller false).trans (h.sentinel j hj)
  | writeConfig i =>
    obtain ⟨hup, heq⟩ := Option.ite_none_left_eq_some.1 hstep
    obtain rfl := Option.some.inj heq
    refine ⟨h.settled, fun hnames => ?_, h.marked, h.sentinel⟩
    have hagreed := (h.intended hnames).2
    exact ⟨hagreed i hup nofun, hagreed⟩
  | edit content =>
    obtain rfl := Option.some.inj hstep
    obtain ⟨hsettled, hnames⟩ := hord
    exact ⟨hsettled, fun hn => h.intended (hnames hn), fun hn => h.marked (hnames hn), h.sentinel⟩

/-- No process runs. -/
def idle (settings : SettingsFile) (stored sentinel : Bool) : Machine :=
  ⟨fun _ => ⟨.down, stored⟩, settings, stored, sentinel⟩

end Machine

open Machine

/-- In any ordinary order of boots, exits, kills, calls and edits: settings that still name the
proxy when no session runs have the marker beside them, so the next boot warns. -/
theorem stranded_marked {labels : List Label} {start m : Machine}
    (hstart : ∀ i, (start.session i).phase = .down)
    (hsettled : Settled start.settings) (hforeign : ¬ namesProxy start.settings)
    (hord : Runs.Meets Machine.step Ordinary labels start)
    (hrun : Runs.exec Machine.step labels start = some m)
    (hdown : ∀ i, (m.session i).phase = .down) (hnames : namesProxy m.settings) :
    staleSessionMarkerPresent m = true := by
  have hguarded : start.Guarded := by
    refine ⟨hsettled, fun hn => absurd hn hforeign, fun hn => absurd hn hforeign, fun j hj => ?_⟩
    rw [Covered, hstart] at hj
    exact hj.elim nofun nofun
  have hmarked := (Runs.exec_invariant (fun _ _ _ h hord hstep => Guarded.step h hord hstep) hord
    hguarded hrun).marked hnames
  refine hmarked.resolve_right fun ⟨j, hj⟩ => ?_
  rw [hdown] at hj
  exact hj.elim nofun nofun

/-- A session that is killed while it serves, beside one that boots. -/
theorem stranded_marked_killed :
    ∃ m, Runs.exec Machine.step [.boot 0, .reconcileOnBoot 0 ⟨"/opt/maximal", none⟩ true,
        .markSessionRunning 0 true, .boot 1, .kill 0, .abort 1] (idle .absent true false) =
          some m ∧
      namesProxy m.settings ∧ staleSessionMarkerPresent m = true := by
  have hnames : namesProxy (applyProxyBaseUrl ⟨"/opt/maximal", none⟩ .absent).1 := by
    decide +kernel
  have hord : Runs.Meets Machine.step Ordinary [.boot 0,
      .reconcileOnBoot 0 ⟨"/opt/maximal", none⟩ true, .markSessionRunning 0 true, .boot 1, .kill 0,
      .abort 1] (idle .absent true false) := by
    refine ⟨trivial, ?_⟩
    rintro _ ⟨rfl⟩
    refine ⟨fun _ => ⟨rfl, fun j _ _ => ?_⟩, ?_⟩
    · rw [session_put]
      split <;> rfl
    rintro _ ⟨rfl⟩
    refine ⟨rfl, ?_⟩
    rintro _ ⟨rfl⟩
    refine ⟨trivial, ?_⟩
    rintro _ ⟨rfl⟩
    refine ⟨⟨nofun, nofun⟩, ?_⟩
    rintro _ ⟨rfl⟩
    exact ⟨trivial, fun _ _ => trivial⟩
  have hsettled : Settled .absent := by
    refine ⟨fun hn => absurd hn (by decide), fun prior hprior => ?_⟩
    have hnone : (none : Option PriorSnapshot) = some prior := hprior
    cases hnone
  refine ⟨_, rfl, hnames, ?_⟩
  refine stranded_marked (fun _ => rfl) hsettled (by decide) hord rfl (fun j => ?_) hnames
  -- the two processes, and all others
  rcases j with _ | _ | j <;> rfl

/-! ## What the marker says -/

def Label.marks : Label → Bool
  | .markSessionRunning _ written => written
  | _ => false

def Label.removes : Label → Bool
  | .clearSessionRunning _ removed | .exit _ _ removed => removed
  | _ => false

/-- The session ends, and leaves its marker if it had one. -/
def Label.EndsMarked (i : ℕ) (label : Label) : Prop :=
  label = .kill i ∨ ∃ reverted, label = .exit i reverted false

namespace Machine

variable {m m' : Machine} {label : Label} {labels : List Label}

theorem step_sentinel (hstep : step label m = some m') :
    m'.sentinel = (m.sentinel && !label.removes || label.marks) := by
  cases label with
  | boot | abort | reconcileOnBoot | initiateShutdown =>
    obtain ⟨-, heq⟩ := Option.ite_none_right_eq_some.1 hstep
    obtain rfl := Option.some.inj heq
    simp [Label.removes, Label.marks, put, move]
  | markSessionRunning | clearSessionRunning | exit =>
    obtain ⟨-, heq⟩ := Option.ite_none_right_eq_some.1 hstep
    obtain rfl := Option.some.inj heq
    simp [Label.removes, Label.marks, exitHandler]
  | kill | writeConfig =>
    obtain ⟨-, heq⟩ := Option.ite_none_left_eq_some.1 hstep
    obtain rfl := Option.some.inj heq
    simp [Label.removes, Label.marks, put, move]
  | enable | disable =>
    obtain ⟨-, heq⟩ := Option.ite_none_right_eq_some.1 hstep
    obtain rfl := Option.some.inj heq
    simp [Label.removes, Label.marks, setIntent_sentinel]
  | edit =>
    obtain rfl := Option.some.inj hstep
    simp [Label.removes, Label.marks]

/-- Nobody removes a marker that is there in the end since it was written. -/
theorem sentinel_exec (hrun : Runs.exec step labels m = some m') :
    m'.sentinel = true ↔ m.sentinel = true ∧ (∀ l ∈ labels, l.removes = false) ∨
      ∃ before i after, labels = before ++ .markSessionRunning i true :: after ∧
        ∀ l ∈ after, l.removes = false := by
  induction labels generalizing m with
  | nil =>
    obtain rfl := Option.some.inj hrun
    simp
  | cons label labels ih =>
    obtain ⟨t, ht, hexec⟩ := Option.bind_eq_some_iff.1 hrun
    have hmarks : label.marks = true ↔ ∃ i, label = .markSessionRunning i true := by
      cases label <;> simp [Label.marks]
    rw [ih hexec, step_sentinel ht, Bool.or_eq_true, Bool.and_eq_true, Bool.not_eq_true', hmarks]
    constructor
    · rintro (⟨⟨hm, hl⟩ | ⟨i, rfl⟩, hkeep⟩ | ⟨before, i, after, rfl, hkeep⟩)
      · exact .inl ⟨hm, List.forall_mem_cons.2 ⟨hl, hkeep⟩⟩
      · exact .inr ⟨[], i, labels, rfl, hkeep⟩
      · exact .inr ⟨label :: before, i, after, rfl, hkeep⟩
    · rintro (⟨hm, hkeep⟩ | ⟨before, i, after, heq, hkeep⟩)
      · obtain ⟨hl, hkeep⟩ := List.forall_mem_cons.1 hkeep
        exact .inl ⟨.inl ⟨hm, hl⟩, hkeep⟩
      · cases before with
        | nil =>
          obtain ⟨rfl, rfl⟩ := List.cons.inj heq
          exact .inl ⟨.inr ⟨i, rfl⟩, hkeep⟩
        | cons first before =>
          obtain ⟨rfl, rfl⟩ := List.cons.inj heq
          exact .inr ⟨before, i, after, rfl, hkeep⟩

/-- A step that ends a session that serves is an exit or a kill of it. -/
theorem handled_step {i : ℕ} (hup : handled (m.session i).phase = true)
    (hstep : step label m = some m') :
    handled (m'.session i).phase = true ∨ label = .kill i ∨
      ∃ reverted removed, label = .exit i reverted removed := by
  have hmove : ∀ (m : Machine) (j : ℕ) (phase : Phase), handled (m.session i).phase = true →
      (j = i → handled phase = true) → handled ((m.move j phase).session i).phase = true := by
    intro m j phase hup hphase
    by_cases hij : i = j
    · obtain rfl := hij
      rw [session_move_self]
      exact hphase rfl
    · rwa [session_move_of_ne hij]
  have hne : ∀ {j : ℕ} {phase : Phase}, (m.session j).phase = phase → handled phase = false →
      j ≠ i := by
    rintro j phase hphase hdown rfl
    rw [hphase, hdown] at hup
    cases hup
  cases label with
  | boot j =>
    obtain ⟨hphase, heq⟩ := Option.ite_none_right_eq_some.1 hstep
    obtain rfl := Option.some.inj heq
    rw [session_put, if_neg (hne hphase rfl).symm]
    exact .inl hup
  | abort j | reconcileOnBoot j =>
    obtain ⟨hphase, heq⟩ := Option.ite_none_right_eq_some.1 hstep
    obtain rfl := Option.some.inj heq
    exact .inl (hmove m j _ hup fun hji => absurd hji (hne hphase rfl))
  | markSessionRunning j | initiateShutdown j | clearSessionRunning j =>
    obtain ⟨-, heq⟩ := Option.ite_none_right_eq_some.1 hstep
    obtain rfl := Option.some.inj heq
    exact .inl (hmove m j _ hup fun _ => rfl)
  | exit j reverted removed =>
    obtain ⟨-, heq⟩ := Option.ite_none_right_eq_some.1 hstep
    obtain rfl := Option.some.inj heq
    by_cases hji : j = i
    · exact .inr (.inr ⟨reverted, removed, by rw [hji]⟩)
    · exact .inl (hmove m j _ hup fun heq => absurd heq hji)
  | kill j =>
    obtain ⟨-, heq⟩ := Option.ite_none_left_eq_some.1 hstep
    obtain rfl := Option.some.inj heq
    by_cases hji : j = i
    · exact .inr (.inl (by rw [hji]))
    · exact .inl (hmove m j _ hup fun heq => absurd heq hji)
  | enable caller | disable caller =>
    obtain ⟨-, heq⟩ := Option.ite_none_right_eq_some.1 hstep
    obtain rfl := Option.some.inj heq
    exact .inl ((congrArg handled (session_setIntent_phase m caller _ i)).trans hup)
  | writeConfig =>
    obtain ⟨-, heq⟩ := Option.ite_none_left_eq_some.1 hstep
    obtain rfl := Option.some.inj heq
    exact .inl hup
  | edit =>
    obtain rfl := Option.some.inj hstep
    exact .inl hup

/-- A session that serves goes on, or ends by an exit or a kill. -/
theorem endsMarked_of_not_handled {i : ℕ} (hup : handled (m.session i).phase = true)
    (hrun : Runs.exec step labels m = some m') (hkeep : ∀ l ∈ labels, l.removes = false) :
    handled (m'.session i).phase = true ∨ ∃ l ∈ labels, l.EndsMarked i := by
  induction labels generalizing m with
  | nil =>
    obtain rfl := Option.some.inj hrun
    exact .inl hup
  | cons label labels ih =>
    obtain ⟨t, ht, hexec⟩ := Option.bind_eq_some_iff.1 hrun
    obtain ⟨hl, hkeep⟩ := List.forall_mem_cons.1 hkeep
    rcases handled_step hup ht with hup' | rfl | ⟨reverted, removed, rfl⟩
    · refine (ih hup' hexec hkeep).imp_right fun ⟨l, hmem, hend⟩ => ?_
      exact ⟨l, List.mem_cons_of_mem _ hmem, hend⟩
    · exact .inr ⟨_, List.mem_cons_self, .inl rfl⟩
    · obtain rfl : removed = false := hl
      exact .inr ⟨_, List.mem_cons_self, .inr ⟨reverted, rfl⟩⟩

end Machine

/-- A boot finds the marker if and only if a session has written it and nobody has removed it
since; that session runs still, or it was killed, or the removal failed at its exit. -/
theorem marked_iff_killed {labels : List Label} {start m : Machine} (hstart : start.sentinel = false)
    (hrun : Runs.exec Machine.step labels start = some m) :
    staleSessionMarkerPresent m = true ↔
      ∃ before i after, labels = before ++ .markSessionRunning i true :: after ∧
        (∀ l ∈ after, l.removes = false) ∧
          (handled (m.session i).phase = true ∨ ∃ l ∈ after, l.EndsMarked i) := by
  rw [staleSessionMarkerPresent, sentinel_exec hrun, hstart]
  constructor
  · rintro (⟨hnone, -⟩ | ⟨before, i, after, rfl, hkeep⟩)
    · cases hnone
    · refine ⟨before, i, after, rfl, hkeep, ?_⟩
      rw [Runs.exec_append] at hrun
      obtain ⟨t, -, hafter⟩ := Option.bind_eq_some_iff.1 hrun
      obtain ⟨u, hmark, hafter⟩ := Option.bind_eq_some_iff.1 hafter
      obtain ⟨-, heq⟩ := Option.ite_none_right_eq_some.1 hmark
      obtain rfl := Option.some.inj heq
      refine endsMarked_of_not_handled ?_ hafter hkeep
      exact congrArg (fun s => handled s.phase) (session_move_self t i .serving)
  · rintro ⟨before, i, after, heq, hkeep, -⟩
    exact .inr ⟨before, i, after, heq, hkeep⟩

/-- A session that is killed while it drains. -/
theorem marked_iff_killed_draining :
    ∃ m, Runs.exec Machine.step ([.boot 0, .reconcileOnBoot 0 ⟨"/opt/maximal", none⟩ true,
        .markSessionRunning 0 true, .initiateShutdown 0 true, .kill 0] : List Label)
          (idle .absent false false) = some m ∧
      (staleSessionMarkerPresent m = true ↔
        ∃ before i after, ([.boot 0, .reconcileOnBoot 0 ⟨"/opt/maximal", none⟩ true,
          .markSessionRunning 0 true, .initiateShutdown 0 true, .kill 0] : List Label) =
            before ++ .markSessionRunning i true :: after ∧
          (∀ l ∈ after, l.removes = false) ∧
            (handled (m.session i).phase = true ∨ ∃ l ∈ after, l.EndsMarked i)) := by
  have hrun : Runs.exec Machine.step ([.boot 0, .reconcileOnBoot 0 ⟨"/opt/maximal", none⟩ true,
      .markSessionRunning 0 true, .initiateShutdown 0 true, .kill 0] : List Label)
        (idle .absent false false) = some _ := rfl
  exact ⟨_, hrun, marked_iff_killed rfl hrun⟩

end Maximal.Start
