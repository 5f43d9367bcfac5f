import Maximal.Lib.Runs
import Mathlib.Data.Int.Order.Basic

/-!
# The rate limit

`checkRateLimit` admits a request, rejects it or lets it sleep before it is admitted. A request
that has slept writes back the time at which it came, not the time at which it is admitted.

## Main definitions

- `checkRateLimit` — the check up to its sleep
- `Limiter.step` — requests come and timers fire, one after the other
- `Spaced` — admissions are at least the limit apart
- `Settled` — a request comes when no other one sleeps and the timestamp is that of the last
  admission, or that admission is long ago

## Main results

- `admissions_spaced`
-/

namespace Maximal.Http

open Runs

/-! ## The check -/

/-- What the check reads and writes of the state; times are in milliseconds. -/
structure State where
  rateLimitSeconds : Option ℕ
  rateLimitWait : Bool
  lastRequestTimestamp : Option ℤ
  deriving DecidableEq

inductive Checked where
  | admitted
  | rejected
  | sleeps (waitTimeMs : ℤ)
  deriving DecidableEq

/-- The wait, in whole seconds, as `Math.ceil` rounds it. -/
def waitTimeSeconds (rateLimitSeconds : ℕ) (elapsedMs : ℤ) : ℤ :=
  (rateLimitSeconds * 1000 - elapsedMs + 999) / 1000

/-- The state after the check up to its sleep; a timestamp of zero counts as none. -/
def checkRateLimit (state : State) (now : ℤ) : State × Checked :=
  match state.rateLimitSeconds with
  | none => (state, .admitted)
  | some rateLimitSeconds =>
    match state.lastRequestTimestamp with
    | none => ({ state with lastRequestTimestamp := some now }, .admitted)
    | some last =>
      if last = 0 ∨ rateLimitSeconds * 1000 < now - last then
        ({ state with lastRequestTimestamp := some now }, .admitted)
      else if !state.rateLimitWait then (state, .rejected)
      else (state, .sleeps (waitTimeSeconds rateLimitSeconds (now - last) * 1000))

/-- The delay of a timer; one that does not fit into 31 bits fires at once. -/
def timerDelay (ms : ℤ) : ℤ := if ms < 2147483648 then ms else 1

/-! ## Requests one over another -/

/-- A request in its sleep. -/
structure Sleeper where
  /-- Its `now`. -/
  arrival : ℤ
  /-- Its timer does not fire earlier. -/
  due : ℤ
  deriving DecidableEq

structure Limiter where
  state : State
  clock : ℤ
  sleeping : List Sleeper
  /-- The times of all admissions so far. -/
  admitted : List ℤ
  deriving DecidableEq

inductive Event where
  | arrive (now : ℤ)
  /-- The timer of a sleeping request fires. -/
  | wake (i : ℕ) (now : ℤ)
  deriving DecidableEq

namespace Limiter

/-- Time does not run backwards. -/
def step (e : Event) (l : Limiter) : Option Limiter :=
  match e with
  | .arrive now =>
    if now < l.clock then none
    else
      match checkRateLimit l.state now with
      | (state, .admitted) => some { l with state, clock := now, admitted := l.admitted ++ [now] }
      | (state, .rejected) => some { l with state, clock := now }
      | (state, .sleeps ms) =>
        some { l with state, clock := now, sleeping := l.sleeping ++ [⟨now, now + timerDelay ms⟩] }
  | .wake i now =>
    match l.sleeping[i]? with
    | none => none
    | some sleeper =>
      if now < l.clock ∨ now < sleeper.due then none
      else
        some { l with
          state := { l.state with lastRequestTimestamp := some sleeper.arrival }
          clock := now
          sleeping := l.sleeping.eraseIdx i
          admitted := l.admitted ++ [now] }

/-- Nothing has been requested since the start at the given time. -/
def start (rateLimitSeconds : ℕ) (clock : ℤ) : Limiter :=
  ⟨⟨some rateLimitSeconds, true, none⟩, clock, [], []⟩

end Limiter

/-- Any two admissions are at least the limit apart. -/
def Spaced (rateLimitSeconds : ℕ) (admitted : List ℤ) : Prop :=
  admitted.Pairwise fun a b => a + (rateLimitSeconds : ℤ) * 1000 ≤ b

instance (rateLimitSeconds : ℕ) (admitted : List ℤ) : Decidable (Spaced rateLimitSeconds admitted) :=
  inferInstanceAs (Decidable (admitted.Pairwise _))

/-- A request comes while no other one sleeps; the timestamp is the time of the last admission,
or that admission is as long ago as the limit demands; and its wait fits into a timer. -/
def Settled (rateLimitSeconds : ℕ) : Event → Limiter → Prop
  | .arrive now, l =>
    l.sleeping = [] ∧
      (∀ last ∈ l.admitted.getLast?, l.state.lastRequestTimestamp = some last ∨
        last + rateLimitSeconds * 1000 ≤ now) ∧
      ∀ last ∈ l.state.lastRequestTimestamp,
        waitTimeSeconds rateLimitSeconds (now - last) * 1000 < 2147483648
  | .wake _ _, _ => True

/-! ## Spacing -/

/-- What settled requests keep. -/
structure Spacing (rateLimitSeconds : ℕ) (l : Limiter) : Prop where
  limit : l.state.rateLimitSeconds = some rateLimitSeconds
  waits : l.state.rateLimitWait = true
  spaced : Spaced rateLimitSeconds l.admitted
  past : ∀ a ∈ l.admitted, a ≤ l.clock
  positive : 0 < l.clock
  timestamp : ∀ last ∈ l.state.lastRequestTimestamp, 0 < last ∧ last ≤ l.clock
  untouched : l.state.lastRequestTimestamp = none → l.admitted = []
  alone : l.sleeping = [] ∨ ∃ sleeper, l.sleeping = [sleeper] ∧ 0 < sleeper.arrival ∧
    sleeper.arrival ≤ l.clock ∧ ∀ a ∈ l.admitted, a + rateLimitSeconds * 1000 ≤ sleeper.due

theorem spaced_concat {rateLimitSeconds : ℕ} {admitted : List ℤ} {now : ℤ}
    (h : Spaced rateLimitSeconds admitted)
    (hnow : ∀ a ∈ admitted, a + rateLimitSeconds * 1000 ≤ now) :
    Spaced rateLimitSeconds (admitted ++ [now]) := by
  rw [Spaced, List.pairwise_append]
  refine ⟨h, List.pairwise_singleton _ _, fun a ha b hb => ?_⟩
  rw [List.mem_singleton.1 hb]
  exact hnow a ha

theorem waitTimeSeconds_ge (rateLimitSeconds : ℕ) (elapsedMs : ℤ) :
    rateLimitSeconds * 1000 - elapsedMs ≤ waitTimeSeconds rateLimitSeconds elapsedMs * 1000 := by
  rw [waitTimeSeconds]
  omega

/-- What the check does in wait mode. -/
theorem checkRateLimit_cases {state : State} {rateLimitSeconds : ℕ}
    (hlimit : state.rateLimitSeconds = some rateLimitSeconds) (hwait : state.rateLimitWait = true)
    (now : ℤ) :
    (checkRateLimit state now = ({ state with lastRequestTimestamp := some now }, .admitted) ∧
        ∀ last ∈ state.lastRequestTimestamp,
          last = 0 ∨ last + rateLimitSeconds * 1000 < now) ∨
      ∃ last, state.lastRequestTimestamp = some last ∧ now ≤ last + rateLimitSeconds * 1000 ∧
        checkRateLimit state now =
          (state, .sleeps (waitTimeSeconds rateLimitSeconds (now - last) * 1000)) := by
  rw [checkRateLimit, hlimit]
  dsimp only
  cases hlast : state.lastRequestTimestamp with
  | none => exact .inl ⟨rfl, fun last h => by cases h⟩
  | some last =>
    dsimp only
    by_cases hfree : last = 0 ∨ (rateLimitSeconds : ℤ) * 1000 < now - last
    · rw [if_pos hfree]
      refine .inl ⟨rfl, fun last' h => ?_⟩
      obtain rfl : last = last' := Option.some.inj h
      omega
    · rw [if_neg hfree, hwait]
      exact .inr ⟨last, rfl, by omega, rfl⟩

namespace Spacing

variable {rateLimitSeconds : ℕ} {l l' : Limiter} {now : ℤ}

/-- Earlier admissions are not after the last one. -/
theorem exists_last (h : Spacing rateLimitSeconds l) {a : ℤ} (ha : a ∈ l.admitted) :
    ∃ last, l.admitted.getLast? = some last ∧ a ≤ last := by
  have hne : l.admitted ≠ [] := List.ne_nil_of_mem ha
  refine ⟨l.admitted.getLast hne, List.getLast?_eq_some_getLast hne, ?_⟩
  have hspaced := h.spaced
  rw [← List.dropLast_concat_getLast hne] at ha
  rw [Spaced, ← List.dropLast_concat_getLast hne, List.pairwise_append] at hspaced
  obtain ha | ha := List.mem_append.1 ha
  · have hle := hspaced.2.2 a ha _ (List.mem_singleton_self _)
    omega
  · rw [List.mem_singleton.1 ha]

/-- A settled request that is admitted at once comes long enough after the last admission. -/
theorem admitted_at_once (h : Spacing rateLimitSeconds l)
    (hsettled : Settled rateLimitSeconds (.arrive now) l)
    (hfree : ∀ last ∈ l.state.lastRequestTimestamp,
      last = 0 ∨ last + rateLimitSeconds * 1000 < now) :
    ∀ a ∈ l.admitted, a + rateLimitSeconds * 1000 ≤ now := by
  intro a ha
  obtain ⟨last, hlast, hle⟩ := h.exists_last ha
  obtain hstamp | hlong := hsettled.2.1 last hlast
  · have hpositive := (h.timestamp last hstamp).1
    have hfar := hfree last hstamp
    omega
  · omega

/-- The timer of a settled request that sleeps does not fire earlier. -/
theorem admitted_when_due (h : Spacing rateLimitSeconds l)
    (hsettled : Settled rateLimitSeconds (.arrive now) l) {stamp : ℤ}
    (hstamp : l.state.lastRequestTimestamp = some stamp)
    (hnear : now ≤ stamp + rateLimitSeconds * 1000) :
    ∀ a ∈ l.admitted, a + rateLimitSeconds * 1000 ≤
      now + timerDelay (waitTimeSeconds rateLimitSeconds (now - stamp) * 1000) := by
  intro a ha
  obtain ⟨last, hlast, hle⟩ := h.exists_last ha
  have hwait := waitTimeSeconds_ge rateLimitSeconds (now - stamp)
  rw [timerDelay, if_pos (hsettled.2.2 stamp hstamp)]
  obtain hsame | hlong := hsettled.2.1 last hlast
  · obtain rfl : stamp = last := Option.some.inj (hstamp.symm.trans hsame)
    omega
  · omega

/-- The admissions stay in the past as the clock goes on. -/
theorem past_concat (h : Spacing rateLimitSeconds l) (hclock : l.clock ≤ now) :
    ∀ a ∈ l.admitted ++ [now], a ≤ now := by
  intro a ha
  obtain ha | ha := List.mem_append.1 ha
  · exact le_trans (h.past a ha) hclock
  · exact le_of_eq (List.mem_singleton.1 ha)

/-- A settled request keeps the spacing. -/
theorem arrive (h : Spacing rateLimitSeconds l)
    (hsettled : Settled rateLimitSeconds (.arrive now) l)
    (hstep : Limiter.step (.arrive now) l = some l') : Spacing rateLimitSeconds l' := by
  rw [Limiter.step] at hstep
  split_ifs at hstep with hpast
  have hpositive := h.positive
  obtain ⟨hcheck, hfree⟩ | ⟨stamp, hstamp, hnear, hcheck⟩ :=
    checkRateLimit_cases h.limit h.waits now
  · rw [hcheck] at hstep
    cases hstep
    refine ⟨h.limit, h.waits, spaced_concat h.spaced (h.admitted_at_once hsettled hfree),
      h.past_concat (not_lt.1 hpast), ?_, ?_, ?_, .inl hsettled.1⟩
    · dsimp only
      omega
    · intro last hlast
      obtain rfl : now = last := Option.some.inj hlast
      dsimp only
      omega
    · intro hnone
      cases hnone
  · rw [hcheck] at hstep
    cases hstep
    refine ⟨h.limit, h.waits, h.spaced, ?_, ?_, ?_, h.untouched, .inr
      ⟨⟨now, now + timerDelay (waitTimeSeconds rateLimitSeconds (now - stamp) * 1000)⟩, ?_, ?_, ?_,
        h.admitted_when_due hsettled hstamp hnear⟩⟩
    · intro a ha
      have hle := h.past a ha
      dsimp only
      omega
    · dsimp only
      omega
    · intro last hlast
      have hle := h.timestamp last hlast
      dsimp only
      omega
    · rw [hsettled.1]
      rfl
    · dsimp only
      omega
    · exact le_refl now

/-- When the only timer fires, the last admission is long enough ago. -/
theorem wake (h : Spacing rateLimitSeconds l) {i : ℕ} (hstep : Limiter.step (.wake i now) l = some l') :
    Spacing rateLimitSeconds l' := by
  rw [Limiter.step] at hstep
  obtain hnone | ⟨sleeper, hsleeping, hpositive, harrival, hdue⟩ := h.alone
  · rw [hnone] at hstep
    cases hstep
  · rw [hsleeping] at hstep
    cases i with
    | succ i => cases hstep
    | zero =>
      simp only [List.getElem?_cons_zero] at hstep
      split_ifs at hstep with hearly
      cases hstep
      have hlate : ∀ a ∈ l.admitted, a + rateLimitSeconds * 1000 ≤ now := by
        intro a ha
        have := hdue a ha
        omega
      have hclock := h.positive
      refine ⟨h.limit, h.waits, spaced_concat h.spaced hlate,
        h.past_concat (not_lt.1 (not_or.1 hearly).1), ?_, ?_, ?_, .inl rfl⟩
      · dsimp only
        omega
      · intro last hlast
        obtain rfl : sleeper.arrival = last := Option.some.inj hlast
        dsimp only
        omega
      · intro hnone
        cases hnone

theorem step (h : Spacing rateLimitSeconds l) {e : Event} (hsettled : Settled rateLimitSeconds e l)
    (hstep : Limiter.step e l = some l') : Spacing rateLimitSeconds l' := by
  cases e with
  | arrive now => exact h.arrive hsettled hstep
  | wake i now => exact h.wake hstep

theorem start (rateLimitSeconds : ℕ) {clock : ℤ} (hclock : 0 < clock) :
    Spacing rateLimitSeconds (.start rateLimitSeconds clock) where
  limit := rfl
  waits := rfl
  spaced := List.Pairwise.nil
  past _ ha := nomatch ha
  positive := hclock
  timestamp _ hlast := nomatch hlast
  untouched _ := rfl
  alone := .inl rfl

end Spacing

instance Settled.decidable (rateLimitSeconds : ℕ) : (e : Event) → (l : Limiter) →
    Decidable (Settled rateLimitSeconds e l)
  | .arrive now, l =>
    inferInstanceAs (Decidable (l.sleeping = [] ∧
      (∀ last ∈ l.admitted.getLast?, l.state.lastRequestTimestamp = some last ∨
        last + (rateLimitSeconds : ℤ) * 1000 ≤ now) ∧
      ∀ last ∈ l.state.lastRequestTimestamp,
        waitTimeSeconds rateLimitSeconds (now - last) * 1000 < 2147483648))
  | .wake _ _, _ => .isTrue trivial

end Maximal.Http
