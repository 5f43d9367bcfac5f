import Maximal.Lib.Runs
import Mathlib.Data.List.Induction
import Mathlib.Data.List.Nodup

/-!
# Clean-ups before the process ends

Handlers are registered while the process runs. The first signal, or an empty event loop, starts
them one after the other; a process that exits at once starts those that may still start.

## Main definitions

- `Cleanups.step` — registrations, signals, handlers that settle and the exit
- `Cleanups.Cut` — the process ended while the loop had handlers left

## Main results

- `Cleanups.Sound.step`, `Cleanups.follows_of_step`
- `cleanups_once`
-/

namespace Maximal.Platform

open Runs

variable {H : Type}

inductive CleanupPhase (H : Type) where
  | idle
  /-- A handler is awaited, these come after it. -/
  | awaiting (rest : List H)
  /-- A handler has failed, and the loop with it. -/
  | failed
  | done
  deriving DecidableEq

structure Cleanups (H : Type) where
  cleanupHandlers : List H
  phase : CleanupPhase H
  /-- The handlers that there were when the first one was started. -/
  snapshot : List H
  started : List H
  /-- The calls of `shutdownProcess` that wait. -/
  waiting : ℕ
  exited : Bool
  deriving DecidableEq

inductive CleanupEvent (H : Type) where
  | register (handler : H)
  | unregister (handler : H)
  | beforeExit
  /-- SIGINT or SIGTERM. -/
  | signal
  /-- The handler that is awaited settles. -/
  | settles (failed : Bool)
  /-- A call of `shutdownProcess` exits after the clean-ups. -/
  | leave
  /-- Whoever calls `process.exit`. -/
  | exit

namespace Cleanups

def start : Cleanups H := ⟨[], .idle, [], [], 0, false⟩

/-- The loop goes on to the next handler. -/
def advance (c : Cleanups H) : List H → Cleanups H
  | [] => { c with phase := .done }
  | handler :: rest => { c with phase := .awaiting rest, started := c.started ++ [handler] }

def registerProcessCleanup [DecidableEq H] (c : Cleanups H) (handler : H) : Cleanups H :=
  if handler ∈ c.cleanupHandlers then c
  else { c with cleanupHandlers := c.cleanupHandlers ++ [handler] }

def runProcessCleanups (c : Cleanups H) : Cleanups H :=
  match c.phase with
  | .idle => advance { c with snapshot := c.cleanupHandlers } c.cleanupHandlers
  | .awaiting _ | .failed | .done => c

/-- Failures are ignored, and nothing is awaited. -/
def runProcessCleanupsSync (c : Cleanups H) : Cleanups H :=
  match c.phase with
  | .idle =>
    { c with phase := .done, snapshot := c.cleanupHandlers, started := c.cleanupHandlers }
  | .awaiting _ | .failed | .done => c

def exit (c : Cleanups H) : Cleanups H := { c.runProcessCleanupsSync with exited := true }

def step [DecidableEq H] (e : CleanupEvent H) (c : Cleanups H) : Option (Cleanups H) :=
  if c.exited then none
  else
    match e, c.phase with
    | .register handler, _ => some (c.registerProcessCleanup handler)
    | .unregister handler, _ =>
      some { c with cleanupHandlers := c.cleanupHandlers.erase handler }
    | .beforeExit, _ => some c.runProcessCleanups
    | .signal, _ => some { c.runProcessCleanups with waiting := c.waiting + 1 }
    | .settles false, .awaiting rest => some (c.advance rest)
    | .settles true, .awaiting _ => some { c with phase := .failed }
    | .settles _, _ => none
    | .leave, .failed | .leave, .done => if c.waiting = 0 then none else some c.exit
    | .leave, _ => none
    | .exit, _ => some c.exit

/-- The process has ended before the loop was through, by a failure or by an exit. -/
def Cut (c : Cleanups H) : Prop := c.exited = true ∧ c.phase ≠ .done

/-! ## What is started -/

/-- What the loop has started and what is left. -/
def Split (c : Cleanups H) : Prop :=
  match c.phase with
  | .idle => c.started = [] ∧ c.exited = false
  | .awaiting rest => c.snapshot = c.started ++ rest
  | .failed => c.started <+: c.snapshot
  | .done => c.started = c.snapshot

structure Sound (c : Cleanups H) : Prop where
  handlers : c.cleanupHandlers.Nodup
  snapshot : c.snapshot.Nodup
  split : c.Split

namespace Sound

variable {c c' : Cleanups H}

theorem advance (hhandlers : c.cleanupHandlers.Nodup) (hsnapshot : c.snapshot.Nodup)
    {rest : List H} (hrest : c.snapshot = c.started ++ rest) : Sound (c.advance rest) := by
  refine ⟨?_, ?_, ?_⟩
  · cases rest <;> exact hhandlers
  · cases rest <;> exact hsnapshot
  · cases rest with
    | nil => exact (hrest.trans (List.append_nil _)).symm
    | cons handler rest =>
      show c.snapshot = c.started ++ [handler] ++ rest
      rw [hrest, List.append_assoc, List.singleton_append]

theorem runProcessCleanups (h : Sound c) : Sound c.runProcessCleanups := by
  have hsplit := h.split
  unfold Split at hsplit
  rw [Cleanups.runProcessCleanups]
  cases hphase : c.phase with
  | idle =>
    rw [hphase] at hsplit
    refine Sound.advance (c := { c with snapshot := c.cleanupHandlers }) h.handlers h.handlers ?_
    show c.cleanupHandlers = c.started ++ c.cleanupHandlers
    rw [hsplit.1, List.nil_append]
  | awaiting rest | failed | done => exact h

theorem runProcessCleanupsSync (h : Sound c) : Sound c.runProcessCleanupsSync := by
  rw [Cleanups.runProcessCleanupsSync]
  cases c.phase with
  | idle => exact ⟨h.handlers, h.handlers, rfl⟩
  | awaiting rest | failed | done => exact h

/-- After the loop has begun, the rest of the state says nothing about it. -/
theorem congr (h : Sound c) (hbegun : c.phase ≠ .idle) (hphase : c'.phase = c.phase)
    (hstarted : c'.started = c.started) (hsnapshot : c'.snapshot = c.snapshot)
    (hhandlers : c'.cleanupHandlers.Nodup) : Sound c' := by
  refine ⟨hhandlers, by rw [hsnapshot]; exact h.snapshot, ?_⟩
  have hsplit := h.split
  unfold Split at hsplit ⊢
  rw [hphase, hstarted, hsnapshot]
  cases hp : c.phase with
  | idle => exact absurd hp hbegun
  | awaiting rest | failed | done =>
    rw [hp] at hsplit
    exact hsplit

/-- Handlers come and go. -/
theorem handlersChange (h : Sound c) {handlers : List H} (hhandlers : handlers.Nodup) :
    Sound { c with cleanupHandlers := handlers } := ⟨hhandlers, h.snapshot, h.split⟩

end Sound

theorem phase_runProcessCleanupsSync (c : Cleanups H) : c.runProcessCleanupsSync.phase ≠ .idle := by
  rw [Cleanups.runProcessCleanupsSync]
  cases hphase : c.phase with
  | idle => exact nofun
  | awaiting rest | failed | done =>
    dsimp only
    rw [hphase]
    exact nofun

theorem phase_runProcessCleanups (c : Cleanups H) : c.runProcessCleanups.phase ≠ .idle := by
  rw [Cleanups.runProcessCleanups]
  cases hphase : c.phase with
  | idle => cases hhandlers : c.cleanupHandlers <;> exact nofun
  | awaiting rest | failed | done =>
    dsimp only
    rw [hphase]
    exact nofun

namespace Sound

variable {c c' : Cleanups H}

theorem exit (h : Sound c) : Sound c.exit :=
  h.runProcessCleanupsSync.congr (phase_runProcessCleanupsSync c) rfl rfl rfl
    h.runProcessCleanupsSync.handlers

theorem registerProcessCleanup [DecidableEq H] (h : Sound c) (handler : H) :
    Sound (c.registerProcessCleanup handler) := by
  rw [Cleanups.registerProcessCleanup]
  split
  · exact h
  · next hnew =>
    exact h.handlersChange (h.handlers.append (List.nodup_singleton _)
      (List.disjoint_singleton.2 hnew))

theorem step [DecidableEq H] {e : CleanupEvent H} (h : Sound c) (hstep : c.step e = some c') :
    Sound c' := by
  unfold Cleanups.step at hstep
  replace hstep := (Option.ite_none_left_eq_some.1 hstep).2
  split at hstep
  · next handler =>
    obtain rfl := Option.some.inj hstep
    exact h.registerProcessCleanup handler
  · obtain rfl := Option.some.inj hstep
    exact h.handlersChange (h.handlers.erase _)
  · obtain rfl := Option.some.inj hstep
    exact h.runProcessCleanups
  · obtain rfl := Option.some.inj hstep
    exact h.runProcessCleanups.congr (phase_runProcessCleanups c) rfl rfl rfl
      h.runProcessCleanups.handlers
  · next rest hphase =>
    obtain rfl := Option.some.inj hstep
    have hsplit := h.split
    unfold Split at hsplit
    rw [hphase] at hsplit
    exact Sound.advance h.handlers h.snapshot hsplit
  · next rest hphase =>
    obtain rfl := Option.some.inj hstep
    have hsplit := h.split
    unfold Split at hsplit
    rw [hphase] at hsplit
    exact ⟨h.handlers, h.snapshot, ⟨rest, hsplit.symm⟩⟩
  · cases hstep
  · obtain rfl := Option.some.inj (Option.ite_none_left_eq_some.1 hstep).2
    exact h.exit
  · obtain rfl := Option.some.inj (Option.ite_none_left_eq_some.1 hstep).2
    exact h.exit
  · cases hstep
  · obtain rfl := Option.some.inj hstep
    exact h.exit

theorem start : Sound (Cleanups.start : Cleanups H) :=
  ⟨List.nodup_nil, List.nodup_nil, rfl, rfl⟩

theorem of_exec [DecidableEq H] {events : List (CleanupEvent H)}
    (h : exec Cleanups.step events Cleanups.start = some c) : Sound c :=
  exec_preserves (fun _ _ _ hsound => hsound.step) start h

end Sound

theorem registerProcessCleanup_stays [DecidableEq H] (c : Cleanups H) (handler : H) :
    (c.registerProcessCleanup handler).phase = c.phase ∧
      (c.registerProcessCleanup handler).snapshot = c.snapshot ∧
      (c.registerProcessCleanup handler).started = c.started := by
  rw [registerProcessCleanup]
  split <;> exact ⟨rfl, rfl, rfl⟩

theorem mem_registerProcessCleanup [DecidableEq H] (c : Cleanups H) (handler : H) :
    handler ∈ (c.registerProcessCleanup handler).cleanupHandlers := by
  rw [registerProcessCleanup]
  split
  · assumption
  · exact List.mem_append_right _ (List.mem_singleton_self _)

/-- From one state to a later one, the loop goes on, or it begins with the handlers that there are,
or it has not begun. -/
def Follows (c c' : Cleanups H) : Prop :=
  (c.phase ≠ .idle ∧ c'.phase ≠ .idle ∧ c'.snapshot = c.snapshot ∧ c.started <+: c'.started) ∨
    (c.phase = .idle ∧ c'.phase ≠ .idle ∧ c'.snapshot = c.cleanupHandlers) ∨
    (c.phase = .idle ∧ c'.phase = .idle)

namespace Follows

variable {c c' : Cleanups H}

theorem of_eq (hphase : c'.phase = c.phase) (hsnapshot : c'.snapshot = c.snapshot)
    (hstarted : c'.started = c.started) : Follows c c' := by
  by_cases hidle : c.phase = .idle
  · exact .inr (.inr ⟨hidle, hphase.trans hidle⟩)
  · exact .inl ⟨hidle, by rw [hphase]; exact hidle, hsnapshot, hstarted ▸ List.prefix_rfl⟩

theorem runProcessCleanups (c : Cleanups H) : Follows c c.runProcessCleanups := by
  by_cases hidle : c.phase = .idle
  · refine .inr (.inl ⟨hidle, phase_runProcessCleanups c, ?_⟩)
    rw [Cleanups.runProcessCleanups, hidle]
    cases c.cleanupHandlers <;> rfl
  · have heq : c.runProcessCleanups = c := by
      rw [Cleanups.runProcessCleanups]
      cases hphase : c.phase with
      | idle => exact absurd hphase hidle
      | awaiting rest | failed | done => rfl
    rw [heq]
    exact of_eq rfl rfl rfl

theorem exit (c : Cleanups H) : Follows c c.exit := by
  by_cases hidle : c.phase = .idle
  · refine .inr (.inl ⟨hidle, phase_runProcessCleanupsSync c, ?_⟩)
    rw [Cleanups.exit, runProcessCleanupsSync, hidle]
  · have heq : c.runProcessCleanupsSync = c := by
      rw [runProcessCleanupsSync]
      cases hphase : c.phase with
      | idle => exact absurd hphase hidle
      | awaiting rest | failed | done => rfl
    rw [Cleanups.exit, heq]
    exact of_eq rfl rfl rfl

theorem advance (hbegun : c.phase ≠ .idle) (rest : List H) : Follows c (c.advance rest) := by
  cases rest with
  | nil => exact .inl ⟨hbegun, nofun, rfl, List.prefix_rfl⟩
  | cons handler rest => exact .inl ⟨hbegun, nofun, rfl, List.prefix_append _ _⟩

end Follows

theorem follows_of_step [DecidableEq H] {c c' : Cleanups H} {e : CleanupEvent H}
    (hstep : c.step e = some c') : Follows c c' := by
  unfold Cleanups.step at hstep
  replace hstep := (Option.ite_none_left_eq_some.1 hstep).2
  split at hstep
  · next handler =>
    obtain rfl := Option.some.inj hstep
    obtain ⟨hphase, hsnapshot, hstarted⟩ := registerProcessCleanup_stays c handler
    exact .of_eq hphase hsnapshot hstarted
  · obtain rfl := Option.some.inj hstep
    exact .of_eq rfl rfl rfl
  · obtain rfl := Option.some.inj hstep
    exact .runProcessCleanups c
  · obtain rfl := Option.some.inj hstep
    exact Follows.runProcessCleanups c
  · next rest hphase =>
    obtain rfl := Option.some.inj hstep
    exact .advance (by rw [hphase]; exact nofun) rest
  · next rest hphase =>
    obtain rfl := Option.some.inj hstep
    exact .inl ⟨by rw [hphase]; exact nofun, nofun, rfl, List.prefix_rfl⟩
  · cases hstep
  · obtain rfl := Option.some.inj (Option.ite_none_left_eq_some.1 hstep).2
    exact .exit c
  · obtain rfl := Option.some.inj (Option.ite_none_left_eq_some.1 hstep).2
    exact .exit c
  · cases hstep
  · obtain rfl := Option.some.inj hstep
    exact .exit c

theorem cleanupHandlers_runProcessCleanups (c : Cleanups H) :
    c.runProcessCleanups.cleanupHandlers = c.cleanupHandlers := by
  rw [runProcessCleanups]
  cases c.phase with
  | idle =>
    have hadvance : ∀ (c : Cleanups H) (rest : List H),
        (c.advance rest).cleanupHandlers = c.cleanupHandlers := by
      intro c rest
      cases rest <;> rfl
    exact hadvance _ _
  | awaiting rest | failed | done => rfl

theorem cleanupHandlers_exit (c : Cleanups H) : c.exit.cleanupHandlers = c.cleanupHandlers := by
  rw [exit, runProcessCleanupsSync]
  cases c.phase <;> rfl

/-- A handler stays until it is taken back. -/
theorem mem_cleanupHandlers_of_step [DecidableEq H] {c c' : Cleanups H} {e : CleanupEvent H}
    (hstep : c.step e = some c') {handler : H} (hmem : handler ∈ c.cleanupHandlers)
    (hkept : e ≠ .unregister handler) : handler ∈ c'.cleanupHandlers := by
  unfold Cleanups.step at hstep
  replace hstep := (Option.ite_none_left_eq_some.1 hstep).2
  split at hstep
  · obtain rfl := Option.some.inj hstep
    rw [registerProcessCleanup]
    split
    · exact hmem
    · exact List.mem_append_left _ hmem
  · next other =>
    obtain rfl := Option.some.inj hstep
    exact (List.mem_erase_of_ne fun heq => hkept (by rw [heq])).2 hmem
  · obtain rfl := Option.some.inj hstep
    rwa [cleanupHandlers_runProcessCleanups]
  · obtain rfl := Option.some.inj hstep
    exact (cleanupHandlers_runProcessCleanups c).symm ▸ hmem
  · next rest _ =>
    obtain rfl := Option.some.inj hstep
    cases rest <;> exact hmem
  · obtain rfl := Option.some.inj hstep
    exact hmem
  · cases hstep
  · obtain rfl := Option.some.inj (Option.ite_none_left_eq_some.1 hstep).2
    rwa [cleanupHandlers_exit]
  · obtain rfl := Option.some.inj (Option.ite_none_left_eq_some.1 hstep).2
    rwa [cleanupHandlers_exit]
  · cases hstep
  · obtain rfl := Option.some.inj hstep
    rwa [cleanupHandlers_exit]

/-- The handlers of the loop are those that were registered when it began. -/
theorem exists_begun [DecidableEq H] {events : List (CleanupEvent H)} {c : Cleanups H}
    (h : exec Cleanups.step events Cleanups.start = some c) (hbegun : c.phase ≠ .idle) :
    ∃ before b, before <+: events ∧ exec Cleanups.step before Cleanups.start = some b ∧
      b.phase = .idle ∧ c.snapshot = b.cleanupHandlers := by
  induction events using List.reverseRecOn generalizing c with
  | nil =>
    obtain rfl := Option.some.inj h
    exact absurd rfl hbegun
  | append_singleton events e ih =>
    rw [exec_append, Option.bind_eq_some_iff] at h
    obtain ⟨b, hb, he⟩ := h
    obtain ⟨c', hstep, hnil⟩ := Option.bind_eq_some_iff.1 he
    obtain rfl := Option.some.inj hnil
    obtain ⟨hb', -, hsnapshot, -⟩ | ⟨hidle, -, hsnapshot⟩ | ⟨-, hidle'⟩ := follows_of_step hstep
    · obtain ⟨before, b', hbefore, hexec, hidle, hhandlers⟩ := ih hb hb'
      exact ⟨before, b', hbefore.trans (List.prefix_append _ _), hexec, hidle,
        hsnapshot.trans hhandlers⟩
    · exact ⟨events, b, List.prefix_append _ _, hb, hidle, hsnapshot⟩
    · exact absurd hidle' hbegun

/-- No handler fails, and the process leaves by its own hand. -/
def Calm : CleanupEvent H → Prop
  | .settles true | .exit => False
  | _ => True

/-- Nothing cuts the clean-ups of a calm run. -/
structure Uncut (c : Cleanups H) : Prop where
  phase : c.phase ≠ .failed
  exited : c.exited = true → c.phase = .done

namespace Uncut

variable {c c' : Cleanups H}

theorem congr (h : Uncut c) (hphase : c'.phase = c.phase) (hexited : c'.exited = c.exited) :
    Uncut c' := by
  refine ⟨by rw [hphase]; exact h.phase, fun hexit => ?_⟩
  rw [hphase]
  exact h.exited (hexited.symm.trans hexit)

/-- While the process lives, only the failure of a handler cuts the clean-ups. -/
theorem of_alive (hphase : c.phase ≠ .failed) (halive : c.exited = false) : Uncut c :=
  ⟨hphase, fun hexited => by rw [halive] at hexited; cases hexited⟩

theorem advance (halive : c.exited = false) (rest : List H) : Uncut (c.advance rest) := by
  cases rest with
  | nil => exact of_alive nofun halive
  | cons handler rest => exact of_alive nofun halive

theorem runProcessCleanups (h : Uncut c) (halive : c.exited = false) :
    Uncut c.runProcessCleanups := by
  rw [Cleanups.runProcessCleanups]
  cases c.phase with
  | idle => exact advance (c := { c with snapshot := c.cleanupHandlers }) halive _
  | awaiting rest | failed | done => exact h

theorem step [DecidableEq H] {e : CleanupEvent H} (h : Uncut c) (hcalm : Calm e)
    (hstep : c.step e = some c') : Uncut c' := by
  unfold Cleanups.step at hstep
  have halive := Bool.eq_false_iff.2 (Option.ite_none_left_eq_some.1 hstep).1
  replace hstep := (Option.ite_none_left_eq_some.1 hstep).2
  split at hstep
  · obtain rfl := Option.some.inj hstep
    rw [registerProcessCleanup]
    split <;> exact h.congr rfl rfl
  · obtain rfl := Option.some.inj hstep
    exact h.congr rfl rfl
  · obtain rfl := Option.some.inj hstep
    exact h.runProcessCleanups halive
  · obtain rfl := Option.some.inj hstep
    exact (h.runProcessCleanups halive).congr rfl rfl
  · obtain rfl := Option.some.inj hstep
    exact advance halive _
  · exact hcalm.elim
  · cases hstep
  · next hphase => exact absurd hphase h.phase
  · next hphase =>
    obtain rfl := Option.some.inj (Option.ite_none_left_eq_some.1 hstep).2
    have hsync : c.runProcessCleanupsSync = c := by rw [runProcessCleanupsSync, hphase]
    rw [exit, hsync]
    exact ⟨h.phase, fun _ => hphase⟩
  · cases hstep
  · exact hcalm.elim

end Uncut

theorem Sound.started_eq {c : Cleanups H} (h : Sound c) (hphase : c.phase = .done) :
    c.started = c.snapshot := by
  have hsplit := h.split
  unfold Split at hsplit
  rwa [hphase] at hsplit

theorem Sound.started_prefix {c : Cleanups H} (h : Sound c) : c.started <+: c.snapshot := by
  have hsplit := h.split
  unfold Split at hsplit
  cases hphase : c.phase with
  | idle =>
    rw [hphase] at hsplit
    rw [hsplit.1]
    exact List.nil_prefix
  | awaiting rest =>
    rw [hphase] at hsplit
    rw [hsplit]
    exact List.prefix_append _ _
  | failed =>
    rw [hphase] at hsplit
    exact hsplit
  | done =>
    rw [hphase] at hsplit
    exact hsplit ▸ List.prefix_rfl

end Cleanups

/-- Clean-ups are started once each, in the order of their registration. Of those that were
registered when the first one was started, none is left out when the process ends, unless the
process was cut short; a run without failures that ends by a signal is not. -/
theorem cleanups_once [DecidableEq H] {events : List (CleanupEvent H)} {c : Cleanups H}
    (h : exec Cleanups.step events Cleanups.start = some c) :
    c.started.Nodup ∧
    (c.started = [] ∧ c.exited = false ∨ ∃ before b, before <+: events ∧
      exec Cleanups.step before Cleanups.start = some b ∧ b.started = [] ∧
      c.started <+: b.cleanupHandlers ∧
      (c.exited = true → ¬ c.Cut → c.started = b.cleanupHandlers)) ∧
    ((∀ e ∈ events, Cleanups.Calm e) → ¬ c.Cut) := by
  have hsound := Cleanups.Sound.of_exec h
  refine ⟨hsound.snapshot.sublist hsound.started_prefix.sublist, ?_, fun hcalm hcut => ?_⟩
  · by_cases hidle : c.phase = .idle
    · have hsplit := hsound.split
      unfold Cleanups.Split at hsplit
      rw [hidle] at hsplit
      exact .inl hsplit
    · obtain ⟨before, b, hbefore, hexec, hb, hsnapshot⟩ := Cleanups.exists_begun h hidle
      have hsplit := (Cleanups.Sound.of_exec hexec).split
      unfold Cleanups.Split at hsplit
      rw [hb] at hsplit
      refine .inr ⟨before, b, hbefore, hexec, hsplit.1, ?_, fun hexited hcut => ?_⟩
      · rw [← hsnapshot]
        exact hsound.started_prefix
      · have hdone : c.phase = .done := by
          by_contra hphase
          exact hcut ⟨hexited, hphase⟩
        rw [hsound.started_eq hdone, hsnapshot]
  · have hmeets : Meets Cleanups.step (fun e _ => Cleanups.Calm e) events Cleanups.start :=
      meets_of_forall hcalm
    have huncut : c.Uncut :=
      exec_invariant (fun _ _ _ hinv hok hstep => hinv.step hok hstep) hmeets
        (Cleanups.Uncut.of_alive nofun rfl) h
    exact hcut.2 (huncut.exited hcut.1)

/-- A signal, and two handlers that settle. -/
theorem cleanups_once_signal :
    ¬ (⟨[1, 2], .done, [1, 2], [1, 2], 1, true⟩ : Cleanups ℕ).Cut := by
  have hrun : exec Cleanups.step
      [.register 1, .register 2, .signal, .settles false, .settles false, .leave]
      Cleanups.start = some ⟨[1, 2], .done, [1, 2], [1, 2], 1, true⟩ := by
    decide +kernel
  exact (cleanups_once hrun).2.2 (by simp [Cleanups.Calm])

end Maximal.Platform
