import Mathlib.Data.List.Basic
import Mathlib.Data.List.Forall2

/-!
# Emitting computations

An emitter passes a state along, appends outputs to a stream and may fail. A failing
computation produces neither a state nor outputs: whoever runs it keeps what it had before.

Properties of the emitted stream are stated through an *observer*, a fold over the outputs
whose value is carried as a ghost next to the state. `Emitter.wp` computes the condition under
which an emitter establishes a postcondition on its result, the state and the observation.
Its equations are simp lemmas, so a program is executed symbolically by simp.

## Main definitions

- `Emitter` — state-passing computations that emit and may fail
- `Emitter.wp`, `Emitter.Hoare` — partial-correctness triples over an observer
- `Emitter.Frame`, `Emitter.Keeps` — bounds on what a computation changes and emits
- `Emitter.FailsIff` — when a computation fails, whatever the state
- `Emitter.run` — one computation per input, until the inputs end or one of them fails
- `Emitter.runUntil` — the same, but a state may stop the run
- `Emitter.consumed` — the inputs a run gets through
- `Emitter.Meets` — every step of a run meets a condition on state and input
- `Emitter.Agree` — two computations that differ in the outputs only
- `Emitter.Reachable` — the states between two inputs

## Main results

- `Emitter.run_invariant` — an invariant that each step preserves holds after a run
- `Emitter.Reachable.invariant` — and in every reachable state
-/

/-- A computation from a state to a result, a new state and the outputs it appended. -/
def Emitter (ε σ ο α : Type) : Type := σ → Except ε (α × σ × List ο)

namespace Emitter

variable {ε σ ο α β ι κ μ : Type}

instance : Monad (Emitter ε σ ο) where
  pure a := fun s => .ok (a, s, [])
  bind x f := fun s =>
    match x s with
    | .error e => .error e
    | .ok (a, s₁, o₁) =>
      match f a s₁ with
      | .error e => .error e
      | .ok (b, s₂, o₂) => .ok (b, s₂, o₁ ++ o₂)

/-- The current state. -/
def current : Emitter ε σ ο σ := fun s => .ok (s, s, [])

def update (f : σ → σ) : Emitter ε σ ο Unit := fun s => .ok ((), f s, [])

def emit (os : List ο) : Emitter ε σ ο Unit := fun s => .ok ((), s, os)

def fail (e : ε) : Emitter ε σ ο α := fun _ => .error e

def ofExcept (x : Except ε α) : Emitter ε σ ο α := fun s => x.map fun a => (a, s, [])

/-- `x` when the condition holds, and nothing otherwise. -/
def when (c : Prop) [Decidable c] (x : Emitter ε σ ο Unit) : Emitter ε σ ο Unit :=
  if c then x else pure ()

/-- One computation per element, from left to right. -/
def forEach (xs : List ι) (f : ι → Emitter ε σ ο Unit) : Emitter ε σ ο Unit :=
  match xs with
  | [] => pure ()
  | x :: xs => do
    f x
    forEach xs f

theorem ofExcept_bind_of_ok {x : Except ε α} {a : α} (h : x = .ok a) (f : α → Emitter ε σ ο β) :
    ofExcept x >>= f = f a := by
  subst h
  funext s
  simp only [Bind.bind, ofExcept, Except.map]
  cases f a s <;> rfl

theorem current_bind (f : σ → Emitter ε σ ο α) (s : σ) : (current >>= f) s = f s s := by
  simp only [Bind.bind, current]
  cases f s s <;> rfl

theorem ok_of_toOption {x : Except ε α} {a : α} (h : x.toOption = some a) : x = .ok a := by
  cases x with
  | error e => cases h
  | ok b => exact congrArg Except.ok (Option.some.inj h)

theorem when_congr {c d : Prop} [Decidable c] [Decidable d] (h : c ↔ d)
    (x : Emitter ε σ ο Unit) : when c x = when d x := by
  by_cases hc : c
  · rw [when, when, if_pos hc, if_pos (h.1 hc)]
  · rw [when, when, if_neg hc, if_neg (mt h.2 hc)]

/-! ## Weakest preconditions -/

/-- If `x` returns from `s`, its result, its final state and the observation continued from `m`
over what it emitted satisfy `Q`. -/
def wp (obs : μ → ο → μ) (x : Emitter ε σ ο α) (Q : α → σ → μ → Prop) (s : σ) (m : μ) : Prop :=
  match x s with
  | .error _ => True
  | .ok (a, s', os) => Q a s' (os.foldl obs m)

variable {obs : μ → ο → μ} {Q R : α → σ → μ → Prop} {s : σ} {m : μ}

@[simp] theorem wp_pure (a : α) : wp obs (pure a : Emitter ε σ ο α) Q s m ↔ Q a s m := Iff.rfl

@[simp] theorem wp_bind (x : Emitter ε σ ο β) (f : β → Emitter ε σ ο α) :
    wp obs (x >>= f) Q s m ↔ wp obs x (fun b => wp obs (f b) Q) s m := by
  change (match (match x s with
    | .error e => Except.error e
    | .ok (a, s₁, o₁) =>
      match f a s₁ with
      | .error e => .error e
      | .ok (b, s₂, o₂) => .ok (b, s₂, o₁ ++ o₂)) with
    | .error _ => True
    | .ok (a, s', os) => Q a s' (os.foldl obs m)) ↔ _
  unfold wp
  cases x s with
  | error e => rfl
  | ok r =>
    obtain ⟨a, s₁, o₁⟩ := r
    dsimp only
    cases f a s₁ with
    | error e => rfl
    | ok r => simp only [List.foldl_append]

@[simp] theorem wp_current {Q : σ → σ → μ → Prop} :
    wp obs (current : Emitter ε σ ο σ) Q s m ↔ Q s s m := Iff.rfl

@[simp] theorem wp_update {Q : Unit → σ → μ → Prop} (f : σ → σ) :
    wp obs (update f : Emitter ε σ ο Unit) Q s m ↔ Q () (f s) m := Iff.rfl

@[simp] theorem wp_emit {Q : Unit → σ → μ → Prop} (os : List ο) :
    wp obs (emit os : Emitter ε σ ο Unit) Q s m ↔ Q () s (os.foldl obs m) := Iff.rfl

@[simp] theorem wp_fail (e : ε) : wp obs (fail e : Emitter ε σ ο α) Q s m ↔ True := Iff.rfl

@[simp] theorem wp_ofExcept (x : Except ε α) :
    wp obs (ofExcept x : Emitter ε σ ο α) Q s m ↔ ∀ a, x = .ok a → Q a s m := by
  cases x <;> simp [wp, ofExcept, Except.map]

@[simp] theorem wp_ite (c : Prop) [Decidable c] (x y : Emitter ε σ ο α) :
    wp obs (if c then x else y) Q s m ↔ if c then wp obs x Q s m else wp obs y Q s m := by
  split <;> rfl

@[simp] theorem wp_when {Q : Unit → σ → μ → Prop} (c : Prop) [Decidable c]
    (x : Emitter ε σ ο Unit) :
    wp obs (when c x) Q s m ↔ if c then wp obs x Q s m else Q () s m := by
  unfold when
  split <;> rfl

theorem wp_mono {x : Emitter ε σ ο α} (h : wp obs x Q s m)
    (hQ : ∀ a s' m', Q a s' m' → R a s' m') : wp obs x R s m := by
  unfold wp at *
  split
  · trivial
  · next heq => rw [heq] at h; exact hQ _ _ _ h

/-- A postcondition about result and state alone holds whatever observes the outputs. -/
theorem wp_of_observer {obs' : κ → ο → κ} {Q : α → σ → Prop} {x : Emitter ε σ ο α} {m' : κ}
    (h : wp obs' x (fun a s' _ => Q a s') s m') : wp obs x (fun a s' _ => Q a s') s m := h

theorem wp_true (x : Emitter ε σ ο α) : wp obs x (fun _ _ _ => True) s m := by
  unfold wp
  split <;> trivial

theorem wp_and {x : Emitter ε σ ο α} (hQ : wp obs x Q s m) (hR : wp obs x R s m) :
    wp obs x (fun a s' m' => Q a s' m' ∧ R a s' m') s m := by
  unfold wp at *
  split
  · trivial
  · next heq =>
    rw [heq] at hQ hR
    exact ⟨hQ, hR⟩

/-- A postcondition under an assumption about neither result nor state. -/
theorem wp_of_imp {p : Prop} {x : Emitter ε σ ο α} (h : p → wp obs x Q s m) :
    wp obs x (fun a s' m' => p → Q a s' m') s m := by
  unfold wp at *
  split
  · trivial
  · next heq =>
    intro hp
    have hq := h hp
    rwa [heq] at hq

/-- A successful computation read back through its weakest precondition. -/
theorem wp_apply {x : Emitter ε σ ο α} (h : wp obs x Q s m) {a : α} {s' : σ} {os : List ο}
    (hx : x s = .ok (a, s', os)) : Q a s' (os.foldl obs m) := by
  unfold wp at h
  rwa [hx] at h

/-! ## Hoare triples -/

/-- Whenever `P` holds of state and observation and `x` returns, `Q` holds afterwards. -/
def Hoare (obs : μ → ο → μ) (P : σ → μ → Prop) (x : Emitter ε σ ο α)
    (Q : α → σ → μ → Prop) : Prop :=
  ∀ s m, P s m → wp obs x Q s m

variable {P P' : σ → μ → Prop}

theorem Hoare.consequence {x : Emitter ε σ ο α} (h : Hoare obs P x Q)
    (hP : ∀ s m, P' s m → P s m) (hQ : ∀ a s m, Q a s m → R a s m) : Hoare obs P' x R :=
  fun s m hp => wp_mono (h s m (hP s m hp)) hQ

/-- A triple used inside a larger computation. -/
theorem Hoare.apply {x : Emitter ε σ ο α} (h : Hoare obs P x Q) {s : σ} {m : μ} (hp : P s m)
    (hQ : ∀ a s' m', Q a s' m' → R a s' m') : wp obs x R s m :=
  wp_mono (h s m hp) hQ

theorem Hoare.bind {x : Emitter ε σ ο β} {f : β → Emitter ε σ ο α} {S : β → σ → μ → Prop}
    (hx : Hoare obs P x S) (hf : ∀ b, Hoare obs (S b) (f b) Q) : Hoare obs P (x >>= f) Q :=
  fun s m hp => (wp_bind x f).2 (wp_mono (hx s m hp) fun b s' m' h => hf b s' m' h)

/-- An assertion survives an emission if one more output does it no harm. -/
theorem Hoare.emit (hP : ∀ s m o, P s m → P s (obs m o)) (os : List ο) :
    Hoare obs P (Emitter.emit os : Emitter ε σ ο Unit) fun _ => P := by
  intro s m hp
  rw [wp_emit]
  induction os generalizing m with
  | nil => exact hp
  | cons o os ih => exact ih (obs m o) (hP s m o hp)

theorem Hoare.ofExcept (x : Except ε α) :
    Hoare obs P (Emitter.ofExcept x : Emitter ε σ ο α) fun _ => P := by
  intro s m hp
  rw [wp_ofExcept]
  exact fun _ _ => hp

theorem Hoare.when {c : Prop} [Decidable c] {x : Emitter ε σ ο Unit}
    (h : Hoare obs P x fun _ => P) : Hoare obs P (Emitter.when c x) fun _ => P := by
  intro s m hp
  rw [wp_when]
  split
  · exact h s m hp
  · exact hp

/-- A loop, by an invariant of the elements still to come. -/
theorem Hoare.forEach_remaining {I : List ι → σ → μ → Prop} {f : ι → Emitter ε σ ο Unit}
    (h : ∀ x xs, Hoare obs (I (x :: xs)) (f x) fun _ => I xs) (xs : List ι) :
    Hoare obs (I xs) (Emitter.forEach xs f) fun _ => I [] := by
  induction xs with
  | nil => exact fun s m hi => hi
  | cons x xs ih => exact (h x xs).bind fun _ => ih

/-- A loop whose body keeps an invariant keeps it. -/
theorem Hoare.forEach {I : σ → μ → Prop} {f : ι → Emitter ε σ ο Unit}
    (h : ∀ x, Hoare obs I (f x) fun _ => I) (xs : List ι) :
    Hoare obs I (Emitter.forEach xs f) fun _ => I :=
  Hoare.forEach_remaining (I := fun _ => I) (fun x _ => h x) xs

/-! ## Frames -/

/-- What a family of computations leaves alone: how they may move the state, and what they may
emit. -/
structure Frame (σ ο : Type) where
  moves : σ → σ → Prop
  refl : ∀ s, moves s s
  trans : ∀ {s₁ s₂ s₃}, moves s₁ s₂ → moves s₂ s₃ → moves s₁ s₃
  emits : ο → Prop

/-- Whenever `x` returns, it stayed within the frame. -/
def Keeps (F : Frame σ ο) (x : Emitter ε σ ο α) : Prop :=
  ∀ s a s' os, x s = .ok (a, s', os) → F.moves s s' ∧ ∀ o ∈ os, F.emits o

namespace Keeps

variable {F : Frame σ ο}

theorem pure (a : α) : Keeps F (Pure.pure a : Emitter ε σ ο α) := by
  rintro s _ _ _ ⟨⟩
  exact ⟨F.refl s, nofun⟩

theorem current : Keeps F (current : Emitter ε σ ο σ) := by
  rintro s _ _ _ ⟨⟩
  exact ⟨F.refl s, nofun⟩

theorem update {f : σ → σ} (h : ∀ s, F.moves s (f s)) :
    Keeps F (update f : Emitter ε σ ο Unit) := by
  rintro s _ _ _ ⟨⟩
  exact ⟨h s, nofun⟩

theorem ofExcept (x : Except ε α) : Keeps F (ofExcept x : Emitter ε σ ο α) := by
  intro s _ _ _ h
  cases x with
  | error e => cases h
  | ok a =>
    cases h
    exact ⟨F.refl s, nofun⟩

theorem emit {os : List ο} (h : ∀ o ∈ os, F.emits o) :
    Keeps F (emit os : Emitter ε σ ο Unit) := by
  rintro s _ _ _ ⟨⟩
  exact ⟨F.refl s, h⟩

theorem bind {x : Emitter ε σ ο β} {f : β → Emitter ε σ ο α} (hx : Keeps F x)
    (hf : ∀ b, Keeps F (f b)) : Keeps F (x >>= f) := by
  intro s a s' os h
  simp only [Bind.bind] at h
  cases hxs : x s with
  | error e => simp only [hxs, reduceCtorEq] at h
  | ok r =>
    obtain ⟨b, s₁, os₁⟩ := r
    simp only [hxs] at h
    cases hfs : f b s₁ with
    | error e => simp only [hfs, reduceCtorEq] at h
    | ok r =>
      obtain ⟨c, s₂, os₂⟩ := r
      simp only [hfs, Except.ok.injEq, Prod.mk.injEq] at h
      obtain ⟨rfl, rfl, rfl⟩ := h
      obtain ⟨hm₁, he₁⟩ := hx _ _ _ _ hxs
      obtain ⟨hm₂, he₂⟩ := hf _ _ _ _ _ hfs
      refine ⟨F.trans hm₁ hm₂, fun o ho => ?_⟩
      rcases List.mem_append.1 ho with ho | ho
      · exact he₁ o ho
      · exact he₂ o ho

theorem when (c : Prop) [Decidable c] {x : Emitter ε σ ο Unit} (h : Keeps F x) :
    Keeps F (when c x) := by
  unfold Emitter.when
  split
  · exact h
  · exact .pure ()

theorem forEach {f : ι → Emitter ε σ ο Unit} (h : ∀ x, Keeps F (f x)) (xs : List ι) :
    Keeps F (forEach xs f) := by
  induction xs with
  | nil => exact .pure ()
  | cons x xs ih => exact (h x).bind fun _ => ih

/-- What survives every step within the frame survives `x`. -/
theorem hoare {x : Emitter ε σ ο α} (h : Keeps F x) {P : σ → μ → Prop}
    (hP : ∀ s s' m (os : List ο), P s m → F.moves s s' → (∀ o ∈ os, F.emits o) → P s' (os.foldl obs m)) :
    Hoare obs P x fun _ => P := by
  intro s m hs
  unfold wp
  split
  · trivial
  · next a s' os heq =>
    obtain ⟨hm, he⟩ := h _ _ _ _ heq
    exact hP s s' m os hs hm he

end Keeps

/-! ## Failures -/

/-- From every state `x` fails exactly when `c` holds. -/
def FailsIff (x : Emitter ε σ ο α) (c : Prop) : Prop := ∀ s, (x s).isOk = false ↔ c

namespace FailsIff

variable {c d : Prop}

theorem congr {x : Emitter ε σ ο α} (h : FailsIff x c) (hc : c ↔ d) : FailsIff x d :=
  fun s => (h s).trans hc

/-- What never fails does not fail on a condition that does not hold. -/
theorem of_not {x : Emitter ε σ ο α} (h : FailsIff x False) (hc : ¬c) : FailsIff x c :=
  h.congr (iff_of_false id hc)

theorem pure (a : α) : FailsIff (Pure.pure a : Emitter ε σ ο α) False :=
  fun _ => ⟨Bool.noConfusion, False.elim⟩

theorem current : FailsIff (current : Emitter ε σ ο σ) False :=
  fun _ => ⟨Bool.noConfusion, False.elim⟩

theorem update (f : σ → σ) : FailsIff (update f : Emitter ε σ ο Unit) False :=
  fun _ => ⟨Bool.noConfusion, False.elim⟩

theorem emit (os : List ο) : FailsIff (emit os : Emitter ε σ ο Unit) False :=
  fun _ => ⟨Bool.noConfusion, False.elim⟩

theorem ofExcept (x : Except ε α) :
    FailsIff (ofExcept x : Emitter ε σ ο α) (x.isOk = false) := by
  intro s
  cases x <;> rfl

/-- The failure of what comes second does not depend on the result of what comes first. -/
theorem bind {x : Emitter ε σ ο β} {f : β → Emitter ε σ ο α} (hx : FailsIff x c)
    (hf : ∀ b, FailsIff (f b) d) : FailsIff (x >>= f) (c ∨ d) := by
  intro s
  have hxs := hx s
  simp only [Bind.bind]
  cases h : x s with
  | error e =>
    rw [h] at hxs
    exact iff_of_true rfl (.inl (hxs.1 rfl))
  | ok r =>
    obtain ⟨b, s₁, os⟩ := r
    have hc : ¬c := fun hc => by simpa [h, Except.isOk, Except.toBool] using hxs.2 hc
    have hfs := hf b s₁
    dsimp only
    rw [or_iff_right hc, ← hfs]
    cases f b s₁ <;> rfl

/-- What comes first cannot fail. -/
theorem after {x : Emitter ε σ ο β} {f : β → Emitter ε σ ο α} (hx : FailsIff x False)
    (hf : ∀ b, FailsIff (f b) d) : FailsIff (x >>= f) d :=
  (hx.bind hf).congr (iff_of_eq (false_or d))

/-- What comes second cannot fail. -/
theorem before {x : Emitter ε σ ο β} {f : β → Emitter ε σ ο α} (hx : FailsIff x c)
    (hf : ∀ b, FailsIff (f b) False) : FailsIff (x >>= f) c :=
  (hx.bind hf).congr (iff_of_eq (or_false c))

theorem when (p : Prop) [Decidable p] {x : Emitter ε σ ο Unit} (h : FailsIff x c) :
    FailsIff (when p x) (p ∧ c) := by
  unfold Emitter.when
  split
  · next hp => exact h.congr (and_iff_right hp).symm
  · next hp => exact (pure ()).congr (iff_of_false id fun hpc => hp hpc.1)

theorem when_total (p : Prop) [Decidable p] {x : Emitter ε σ ο Unit} (h : FailsIff x False) :
    FailsIff (Emitter.when p x) False :=
  (h.when p).congr (iff_of_eq (and_false p))

theorem forEach {f : ι → Emitter ε σ ο Unit} (h : ∀ x, FailsIff (f x) False) (xs : List ι) :
    FailsIff (forEach xs f) False := by
  induction xs with
  | nil => exact pure ()
  | cons x xs ih => exact (h x).after fun _ => ih

/-- A loop fails when one of its steps does. -/
theorem forEach_exists {f : ι → Emitter ε σ ο Unit} {c : ι → Prop} (h : ∀ x, FailsIff (f x) (c x))
    (xs : List ι) : FailsIff (Emitter.forEach xs f) (∃ x ∈ xs, c x) := by
  induction xs with
  | nil => exact (pure ()).congr (by simp)
  | cons x xs ih => exact ((h x).bind fun _ => ih).congr (by simp)

/-- A computation that returned met none of the failures. -/
theorem wp {x : Emitter ε σ ο α} (h : FailsIff x c) (obs : μ → ο → μ) (s : σ) (m : μ) :
    wp obs x (fun _ _ _ => ¬c) s m := by
  unfold Emitter.wp
  split
  · trivial
  · next heq =>
    intro hc
    have hfails := (h s).2 hc
    rw [heq] at hfails
    cases hfails

end FailsIff

theorem isOk_current_bind (f : σ → Emitter ε σ ο α) (s : σ) :
    ((current >>= f) s).isOk = (f s s).isOk := by
  simp only [Bind.bind, current]
  cases f s s <;> rfl

/-- What comes second fails depending on what the first computation leaves behind. -/
theorem isOk_bind_iff {c d : Prop} {P : β → σ → Prop} {x : Emitter ε σ ο β}
    {f : β → Emitter ε σ ο α} {s : σ} (hx : (x s).isOk = false ↔ c)
    (hP : wp (fun _ _ => ()) x (fun b s' _ => P b s') s ())
    (hf : ∀ b s', P b s' → ((f b s').isOk = false ↔ d)) :
    ((x >>= f) s).isOk = false ↔ c ∨ d := by
  simp only [Bind.bind]
  cases h : x s with
  | error e =>
    rw [h] at hx
    exact iff_of_true rfl (.inl (hx.1 rfl))
  | ok r =>
    obtain ⟨b, s₁, os⟩ := r
    have hc : ¬c := fun hc => by simpa [h, Except.isOk, Except.toBool] using hx.2 hc
    have hfs := hf b s₁ (wp_apply hP h)
    dsimp only
    rw [or_iff_right hc, ← hfs]
    cases f b s₁ <;> rfl

/-! ## Runs -/

/-- Where a run over a stream of inputs ended: the last state between two inputs, everything
emitted up to it and the failure that stopped the run, if one did. -/
structure Outcome (ε σ ο : Type) where
  state : σ
  outputs : List ο
  failure : Option ε

/-- One computation per input, until the inputs end or one of them fails. -/
def run (f : ι → Emitter ε σ ο Unit) (s : σ) : List ι → Outcome ε σ ο
  | [] => ⟨s, [], none⟩
  | i :: is =>
    match f i s with
    | .error e => ⟨s, [], some e⟩
    | .ok (_, s', os) =>
      let rest := run f s' is
      ⟨rest.state, os ++ rest.outputs, rest.failure⟩

/-- One computation per input, until one of them leaves a state at which to stop. -/
def runUntil (stop : σ → Bool) (f : ι → Emitter ε σ ο Unit) (s : σ) : List ι → Outcome ε σ ο
  | [] => ⟨s, [], none⟩
  | i :: is =>
    match f i s with
    | .error e => ⟨s, [], some e⟩
    | .ok (_, s', os) =>
      if stop s' then ⟨s', os, none⟩
      else
        let rest := runUntil stop f s' is
        ⟨rest.state, os ++ rest.outputs, rest.failure⟩

/-- Every step that the run from `s` takes meets the condition `C` on the state before it. -/
def Meets (C : σ → ι → Prop) (f : ι → Emitter ε σ ο Unit) (s : σ) : List ι → Prop
  | [] => True
  | i :: is =>
    match f i s with
    | .error _ => True
    | .ok (_, s', _) => C s i ∧ Meets C f s' is

instance Meets.decidable (C : σ → ι → Prop) [∀ s i, Decidable (C s i)]
    (f : ι → Emitter ε σ ο Unit) (s : σ) : (is : List ι) → Decidable (Meets C f s is)
  | [] => .isTrue trivial
  | i :: is =>
    match h : f i s with
    | .error _ => .isTrue (by simp [Meets, h])
    | .ok (_, s', _) =>
      have := Meets.decidable C f s' is
      decidable_of_iff (C s i ∧ Meets C f s' is) (by simp [Meets, h])

/-- The inputs that a run gets through: all of them, or those before the first failure. -/
def consumed (f : ι → Emitter ε σ ο Unit) (s : σ) : List ι → List ι
  | [] => []
  | i :: is =>
    match f i s with
    | .error _ => []
    | .ok (_, s', _) => i :: consumed f s' is

variable {f : ι → Emitter ε σ ο Unit} {C : σ → ι → Prop}

/-- A run whose steps cannot fail gets through all its inputs. -/
theorem run_of_failsIff {is : List ι} (h : ∀ i ∈ is, FailsIff (f i) False) (s : σ) :
    consumed f s is = is ∧ (run f s is).failure = none := by
  induction is generalizing s with
  | nil => exact ⟨rfl, rfl⟩
  | cons i is ih =>
    have hi := h i (List.mem_cons_self ..) s
    have hrest := ih fun j hj => h j (List.mem_cons_of_mem _ hj)
    unfold consumed run
    cases hs : f i s with
    | error e =>
      rw [hs] at hi
      exact (hi.1 rfl).elim
    | ok r =>
      obtain ⟨_, s', os⟩ := r
      exact ⟨congrArg (i :: ·) (hrest s').1, (hrest s').2⟩

theorem consumed_prefix (s : σ) (is : List ι) : consumed f s is <+: is := by
  induction is generalizing s with
  | nil => exact List.prefix_rfl
  | cons i is ih =>
    rw [consumed]
    split
    · exact List.nil_prefix
    · exact List.cons_prefix_cons.2 ⟨rfl, ih _⟩

/-- A run that does not fail gets through all its inputs. -/
theorem consumed_of_run {s : σ} {is : List ι} (h : (run f s is).failure = none) :
    consumed f s is = is := by
  induction is generalizing s with
  | nil => rfl
  | cons i is ih =>
    rw [run] at h
    rw [consumed]
    cases hs : f i s with
    | error e =>
      rw [hs] at h
      cases h
    | ok r =>
      rw [hs] at h
      exact congrArg (i :: ·) (ih h)

/-- A run over more inputs goes on from where the run over the first ones ended, unless that
failed. -/
theorem run_append {is js : List ι} {s : σ} (h : (run f s is).failure = none) :
    run f s (is ++ js) =
      ⟨(run f (run f s is).state js).state,
        (run f s is).outputs ++ (run f (run f s is).state js).outputs,
        (run f (run f s is).state js).failure⟩ := by
  induction is generalizing s with
  | nil => rfl
  | cons i is ih =>
    simp only [List.cons_append, run] at h ⊢
    cases hs : f i s with
    | error e => simp [hs] at h
    | ok r =>
      rw [hs] at h
      have hrest := ih h
      simp only [hrest, List.append_assoc]

theorem runUntil_congr {stop : σ → Bool} {g : κ → Emitter ε σ ο Unit} {is : List ι} {js : List κ}
    (h : List.Forall₂ (fun i j => f i = g j) is js) (s : σ) :
    runUntil stop f s is = runUntil stop g s js := by
  induction h generalizing s with
  | nil => rfl
  | cons hij _ ih => simp only [runUntil, hij, ih]

/-- Runs over inputs that are computed alike are alike. -/
theorem run_congr {g : κ → Emitter ε σ ο Unit} {is : List ι} {js : List κ}
    (h : List.Forall₂ (fun i j => f i = g j) is js) (s : σ) : run f s is = run g s js := by
  induction h generalizing s with
  | nil => rfl
  | cons hij _ ih => simp only [run, hij, ih]

/-- A run whose steps stay within a frame does. -/
theorem Keeps.run {F : Frame σ ο} {is : List ι} (h : ∀ i ∈ is, Keeps F (f i)) (s : σ) :
    F.moves s (run f s is).state ∧ ∀ o ∈ (run f s is).outputs, F.emits o := by
  induction is generalizing s with
  | nil => exact ⟨F.refl s, by simp [Emitter.run]⟩
  | cons i is ih =>
    simp only [Emitter.run]
    cases hs : f i s with
    | error e => exact ⟨F.refl s, by simp⟩
    | ok r =>
      obtain ⟨a, s', os⟩ := r
      obtain ⟨hmoves, hemits⟩ := h i (List.mem_cons_self ..) _ _ _ _ hs
      obtain ⟨hmoves', hemits'⟩ := ih (fun j hj => h j (List.mem_cons_of_mem _ hj)) s'
      refine ⟨F.trans hmoves hmoves', fun o ho => ?_⟩
      exact (List.mem_append.1 ho).elim (hemits o) (hemits' o)

theorem Meets.of_forall (h : ∀ s i, C s i) (s : σ) (is : List ι) : Meets C f s is := by
  induction is generalizing s with
  | nil => trivial
  | cons i is ih =>
    unfold Meets
    split
    · trivial
    · exact ⟨h s i, ih _⟩

/-- An invariant of the inputs consumed, the state and the observation that each step preserves,
provided the step meets the condition, holds at the end of every run whose steps all meet it. -/
theorem run_history_invariant {I : List ι → σ → μ → Prop}
    (hstep : ∀ hist i s m, C s i → I hist s m → wp obs (f i) (fun _ => I (hist ++ [i])) s m)
    (hist : List ι) {is : List ι} {s : σ} {m : μ} (hC : Meets C f s is) (hI : I hist s m) :
    I (hist ++ consumed f s is) (run f s is).state ((run f s is).outputs.foldl obs m) := by
  induction is generalizing hist s m with
  | nil => simpa [consumed, run] using hI
  | cons i is ih =>
    unfold Meets at hC
    simp only [run, consumed]
    cases hf : f i s with
    | error e => simpa using hI
    | ok r =>
      rw [hf] at hC
      have hs := wp_apply (hstep hist i s m hC.1 hI) hf
      simpa only [List.foldl_append, List.append_assoc, List.singleton_append] using ih _ hC.2 hs

/-- An invariant of state and observation that each step preserves, provided the step meets the
condition, holds at the end of every run whose steps all meet it. -/
theorem run_invariant {I : σ → μ → Prop}
    (hstep : ∀ i s m, C s i → I s m → wp obs (f i) (fun _ => I) s m)
    {is : List ι} {s : σ} {m : μ} (hC : Meets C f s is) (hI : I s m) :
    I (run f s is).state ((run f s is).outputs.foldl obs m) :=
  run_history_invariant (I := fun _ => I) (fun _ => hstep) [] hC hI

/-- `run_invariant` for a step that preserves the invariant unconditionally. -/
theorem run_invariant_of_step {I : σ → μ → Prop}
    (hstep : ∀ i, Hoare obs I (f i) fun _ => I) (is : List ι) {s : σ} {m : μ} (hI : I s m) :
    I (run f s is).state ((run f s is).outputs.foldl obs m) :=
  run_invariant (C := fun _ _ => True) (fun i s m _ h => hstep i s m h)
    (Meets.of_forall (fun _ _ => trivial) s is) hI

/-- The states in which a run from `s₀` can wait for its next input. -/
def Reachable (f : ι → Emitter ε σ ο Unit) (s₀ s : σ) : Prop :=
  ∃ is, (run f s₀ is).state = s

/-- An invariant of the state that each returning step preserves holds of every reachable
state. -/
theorem Reachable.invariant {I : σ → Prop} {s₀ s : σ} (h : Reachable f s₀ s)
    (h₀ : I s₀) (hstep : ∀ i s s' os, I s → f i s = .ok ((), s', os) → I s') : I s := by
  obtain ⟨is, rfl⟩ := h
  have hkeeps : ∀ i, Hoare (fun (_ : Unit) _ => ()) (fun s _ => I s) (f i) fun _ s _ => I s := by
    intro i s _ hi
    unfold wp
    split
    · trivial
    · next heq => exact hstep i s _ _ hi heq
  exact run_invariant_of_step hkeeps is (m := ()) h₀

/-! ## Agreement up to a relation on outputs -/

/-- From every state the two computations fail alike, or return alike with related outputs. -/
def Agree (R : ο → ο → Prop) (x y : Emitter ε σ ο α) : Prop :=
  ∀ s, match x s, y s with
    | .error e, .error e' => e = e'
    | .ok (a, s₁, os₁), .ok (b, s₂, os₂) => a = b ∧ s₁ = s₂ ∧ List.Forall₂ R os₁ os₂
    | _, _ => False

variable {S : ο → ο → Prop}

theorem Agree.refl (hS : ∀ o, S o o) (x : Emitter ε σ ο α) : Agree S x x := by
  intro s
  cases x s with
  | error e => exact rfl
  | ok r => exact ⟨rfl, rfl, List.forall₂_same.2 fun o _ => hS o⟩

theorem Agree.emit {os os' : List ο} (h : List.Forall₂ S os os') :
    Agree S (emit os : Emitter ε σ ο Unit) (emit os') :=
  fun _ => ⟨rfl, rfl, h⟩

theorem Agree.bind {x y : Emitter ε σ ο β} {f g : β → Emitter ε σ ο α} (hx : Agree S x y)
    (hf : ∀ b, Agree S (f b) (g b)) : Agree S (x >>= f) (y >>= g) := by
  intro s
  have hs := hx s
  simp only [Bind.bind]
  cases hxs : x s with
  | error e =>
    cases hys : y s with
    | error e' => simpa only [hxs, hys] using hs
    | ok r => simp only [hxs, hys] at hs
  | ok r =>
    cases hys : y s with
    | error e' => simp only [hxs, hys] at hs
    | ok r' =>
      obtain ⟨b, s₁, os₁⟩ := r
      obtain ⟨b', s₁', os₁'⟩ := r'
      simp only [hxs, hys] at hs
      obtain ⟨rfl, rfl, hos⟩ := hs
      have hfs := hf b s₁
      dsimp only
      cases hfb : f b s₁ with
      | error e =>
        cases hgb : g b s₁ with
        | error e' => simpa only [hfb, hgb] using hfs
        | ok r => simp only [hfb, hgb] at hfs
      | ok r =>
        cases hgb : g b s₁ with
        | error e' => simp only [hfb, hgb] at hfs
        | ok r' =>
          simp only [hfb, hgb] at hfs
          exact ⟨hfs.1, hfs.2.1, List.rel_append hos hfs.2.2⟩

theorem Agree.when (c : Prop) [Decidable c] {x y : Emitter ε σ ο Unit} (h : Agree S x y)
    (hS : ∀ o, S o o) : Agree S (when c x) (when c y) := by
  unfold Emitter.when
  split
  · exact h
  · exact .refl hS _

/-- Runs of computations that agree step by step end alike, with related outputs. -/
theorem Agree.run {f g : ι → Emitter ε σ ο Unit} (h : ∀ i, Agree S (f i) (g i)) (s : σ)
    (is : List ι) :
    (run f s is).state = (run g s is).state ∧
      (run f s is).failure = (run g s is).failure ∧
      List.Forall₂ S (run f s is).outputs (run g s is).outputs ∧
      consumed f s is = consumed g s is ∧ (Meets C f s is ↔ Meets C g s is) := by
  induction is generalizing s with
  | nil => exact ⟨rfl, rfl, .nil, rfl, Iff.rfl⟩
  | cons i is ih =>
    have hs := h i s
    simp only [Emitter.run, consumed, Meets]
    cases hf : f i s with
    | error e =>
      cases hg : g i s with
      | error e' =>
        simp only [hf, hg] at hs
        exact ⟨rfl, congrArg some hs, .nil, rfl, Iff.rfl⟩
      | ok r => simp only [hf, hg] at hs
    | ok r =>
      cases hg : g i s with
      | error e' => simp only [hf, hg] at hs
      | ok r' =>
        obtain ⟨_, s₁, os₁⟩ := r
        obtain ⟨_, s₁', os₁'⟩ := r'
        simp only [hf, hg] at hs
        obtain ⟨-, rfl, hos⟩ := hs
        obtain ⟨hstate, hfailure, houtputs, hconsumed, hmeets⟩ := ih s₁
        exact ⟨hstate, hfailure, List.rel_append hos houtputs, congrArg _ hconsumed,
          and_congr_right fun _ => hmeets⟩

end Emitter
