import Mathlib.Data.List.Basic
import Mathlib.Data.Option.Basic

/-!
# Runs of a machine

A machine reads labels. In a state it may refuse a label; a run is a list of labels that it reads
one after the other.

## Main definitions

- `Runs.exec` — the state after a list of labels
- `Runs.Meets` — in a run, every label meets a condition on the state it is read in
- `Runs.recorded` — the machine with a record of what it has read

## Main results

- `Runs.exec_invariant`, `Runs.exec_preserves` — what every step keeps, every run keeps
- `Runs.meets_append`, `Runs.Meets.and`, `Runs.Meets.of_invariant`, `Runs.meets_congr`
- `Runs.exists_recorded` — the record changes nothing
-/

namespace Runs

variable {σ ℓ : Type} (step : ℓ → σ → Option σ)

def exec : List ℓ → σ → Option σ
  | [], s => some s
  | l :: ls, s => (step l s).bind (exec ls)

def Meets (ok : ℓ → σ → Prop) : List ℓ → σ → Prop
  | [], _ => True
  | l :: ls, s => ok l s ∧ ∀ s' ∈ step l s, Meets ok ls s'

instance Meets.decidable (ok : ℓ → σ → Prop) [∀ l s, Decidable (ok l s)] :
    ∀ ls s, Decidable (Meets step ok ls s)
  | [], _ => .isTrue trivial
  | l :: ls, s =>
    match h : step l s with
    | none => decidable_of_iff (ok l s) (by simp [Meets, h])
    | some s' =>
      have := Meets.decidable ok ls s'
      decidable_of_iff (ok l s ∧ Meets step ok ls s') (by simp [Meets, h])

variable {step} {ok : ℓ → σ → Prop} {ls ms : List ℓ} {s s' : σ}

theorem exec_append : exec step (ls ++ ms) s = (exec step ls s).bind (exec step ms) := by
  induction ls generalizing s with
  | nil => rfl
  | cons l ls ih =>
    rw [List.cons_append, exec, exec, Option.bind_assoc]
    exact Option.bind_congr fun t _ => ih

/-- A condition on the labels alone. -/
theorem meets_of_forall {p : ℓ → Prop} (hp : ∀ l ∈ ls, p l) : Meets step (fun l _ => p l) ls s := by
  induction ls generalizing s with
  | nil => trivial
  | cons l ls ih =>
    exact ⟨hp l List.mem_cons_self, fun s' _ => ih fun l hl => hp l (List.mem_cons_of_mem _ hl)⟩

theorem Meets.and {ok' : ℓ → σ → Prop} (h : Meets step ok ls s) (h' : Meets step ok' ls s) :
    Meets step (fun l s => ok l s ∧ ok' l s) ls s := by
  induction ls generalizing s with
  | nil => trivial
  | cons l ls ih => exact ⟨⟨h.1, h'.1⟩, fun s' hs' => ih (h.2 s' hs') (h'.2 s' hs')⟩

/-- What a step keeps where it meets its condition, a run of such steps keeps. -/
theorem exec_invariant {I : σ → Prop}
    (hstep : ∀ l s s', I s → ok l s → step l s = some s' → I s')
    (hmeets : Meets step ok ls s) (hI : I s) (h : exec step ls s = some s') : I s' := by
  induction ls generalizing s with
  | nil => exact Option.some.inj h ▸ hI
  | cons l ls ih =>
    obtain ⟨t, ht, hexec⟩ := Option.bind_eq_some_iff.1 h
    exact ih (hmeets.2 t ht) (hstep l s t hI hmeets.1 ht) hexec

/-- What holds at each step from a state of the invariant holds at every step of the run. -/
theorem Meets.of_invariant {I : σ → Prop} {ok' : ℓ → σ → Prop}
    (hstep : ∀ l s, I s → ok l s → ok' l s ∧ ∀ s' ∈ step l s, I s')
    (hmeets : Meets step ok ls s) (hI : I s) : Meets step ok' ls s := by
  induction ls generalizing s with
  | nil => trivial
  | cons l ls ih =>
    obtain ⟨hok, hkept⟩ := hstep l s hI hmeets.1
    exact ⟨hok, fun s' hs' => ih (hmeets.2 s' hs') (hkept s' hs')⟩

/-- Two conditions that agree in the states of the invariant agree on the runs that it holds in. -/
theorem meets_congr {I : σ → Prop} {ok' side : ℓ → σ → Prop}
    (hiff : ∀ l s, I s → side l s → (ok l s ↔ ok' l s))
    (hstep : ∀ l s s', I s → side l s → ok' l s → step l s = some s' → I s')
    (hside : Meets step side ls s) (hI : I s) : Meets step ok ls s ↔ Meets step ok' ls s := by
  induction ls generalizing s with
  | nil => exact Iff.rfl
  | cons l ls ih =>
    rw [Meets, Meets, hiff l s hI hside.1]
    refine and_congr_right fun hok => forall₂_congr fun s' hs' => ?_
    exact ih (hside.2 s' hs') (hstep l s s' hI hside.1 hok hs')

/-- What every step keeps, every run keeps. -/
theorem exec_preserves {I : σ → Prop} (hstep : ∀ l s s', I s → step l s = some s' → I s')
    (hI : I s) (h : exec step ls s = some s') : I s' := by
  have hmeets : Meets step (fun _ _ => True) ls s :=
    meets_of_forall (p := fun _ => True) fun _ _ => trivial
  exact exec_invariant (fun l s s' hI _ => hstep l s s' hI) hmeets hI h

/-! ## Records -/

/-- The machine with a record: `next` enters what was read, in which state, and what came of it. -/
def recorded {γ : Type} (step : ℓ → σ → Option σ) (next : ℓ → σ → σ → γ → γ) (l : ℓ) (s : σ × γ) :
    Option (σ × γ) :=
  (step l s.1).map fun s' => (s', next l s.1 s' s.2)

variable {γ : Type} {next : ℓ → σ → σ → γ → γ} {record : γ}

/-- Every run of the machine can be recorded. -/
theorem exists_recorded (h : exec step ls s = some s') :
    ∃ record', exec (recorded step next) ls (s, record) = some (s', record') := by
  induction ls generalizing s record with
  | nil => exact ⟨record, congrArg (Option.map (·, record)) h⟩
  | cons l ls ih =>
    obtain ⟨t, ht, hexec⟩ := Option.bind_eq_some_iff.1 h
    obtain ⟨record', hrecord⟩ := @ih t (next l s t record) hexec
    refine ⟨record', ?_⟩
    rw [exec, recorded, ht]
    exact hrecord

/-- A condition that does not look at the record. -/
theorem Meets.recorded {ok : ℓ → σ → Prop} (h : Meets step ok ls s) :
    Meets (Runs.recorded step next) (fun l s => ok l s.1) ls (s, record) := by
  induction ls generalizing s record with
  | nil => trivial
  | cons l ls ih =>
    refine ⟨h.1, fun s' hs' => ?_⟩
    obtain ⟨t, ht, rfl⟩ := Option.map_eq_some_iff.1 hs'
    exact ih (h.2 t ht)

/-- What a recorded step keeps where it meets its condition, a recorded run keeps. -/
theorem recorded_invariant {I : σ → γ → Prop} {ok : ℓ → σ × γ → Prop}
    (hstep : ∀ l s s' record, I s record → ok l (s, record) → step l s = some s' →
      I s' (next l s s' record))
    (hmeets : Meets (recorded step next) ok ls (s, record)) (hI : I s record)
    (h : exec step ls s = some s') : ∃ record', I s' record' := by
  obtain ⟨record', hrecord⟩ :
      ∃ record', exec (recorded step next) ls (s, record) = some (s', record') := exists_recorded h
  refine ⟨record', ?_⟩
  refine exec_invariant (I := fun s => I s.1 s.2) ?_ hmeets hI hrecord
  rintro l s _ hI hok hnext
  obtain ⟨t, ht, rfl⟩ := Option.map_eq_some_iff.1 hnext
  exact hstep l s.1 t s.2 hI hok ht

end Runs
