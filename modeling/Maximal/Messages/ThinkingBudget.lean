import Mathlib.Order.Lattice
import Mathlib.Order.Defs.LinearOrder
import Mathlib.Algebra.Order.Ring.Int
import Mathlib.Data.Int.Cast.Basic

/-!
# The thinking budget of a translated request

The budget that a client asks for is cut down to what the model takes and then raised to its floor.
The numbers are those of any linear order; no law of the subtraction is used.

## Main definitions

- `resolveModelProfile` — the limits of a model, with their defaults
- `getThinkingBudget` — the budget, and the payload's `thinking` with the default written back
- `WithinLimits`

## Main results

- `getThinkingBudget_eq_some_iff`
- `getThinkingBudget_within_iff`
-/

namespace Maximal.Messages.Budget

/-! ## Profile -/

structure ModelLimits (α : Type) where
  max_output_tokens : Option α := none

structure ModelSupports (α : Type) where
  max_thinking_budget : Option α := none
  min_thinking_budget : Option α := none

structure ModelCapabilities (α : Type) where
  limits : Option (ModelLimits α) := none
  supports : Option (ModelSupports α) := none

structure Model (α : Type) where
  capabilities : Option (ModelCapabilities α) := none

/-- `payload.thinking` -/
structure Thinking (α : Type) where
  budget_tokens : Option α

structure ModelProfile (α : Type) where
  maxThinkingBudget : α
  minThinkingBudget : α
  maxOutputTokens : α

section

variable {α : Type} [LinearOrder α] [Zero α] [One α] [Sub α] [NatCast α]

/-- What is not there is no limit the model is known to allow: zero, and the floor of old. -/
def resolveModelProfile (model : Model α) : ModelProfile α :=
  let capabilities := model.capabilities.getD {}
  let limits := capabilities.limits.getD {}
  let supports := capabilities.supports.getD {}
  { maxThinkingBudget := supports.max_thinking_budget.getD 0
    minThinkingBudget := supports.min_thinking_budget.getD (1024 : ℕ)
    maxOutputTokens := limits.max_output_tokens.getD 0 }

/-- The budget that leaves a token for the answer. -/
def ModelProfile.cap (profile : ModelProfile α) : α :=
  min profile.maxThinkingBudget (profile.maxOutputTokens - 1)

/-! ## Budget -/

def getThinkingBudget (thinking : Option (Thinking α)) (model : Option (Model α)) :
    Option α × Option (Thinking α) :=
  match model, thinking with
  | some model, some thinking =>
    let profile := resolveModelProfile model
    let maxThinkingBudget := profile.cap
    let requested := thinking.budget_tokens.getD maxThinkingBudget
    -- `??=` writes the default back, also when no budget is returned
    let thinking := { thinking with budget_tokens := some requested }
    if 0 < maxThinkingBudget then
      let budgetTokens := min requested maxThinkingBudget
      (some (max budgetTokens profile.minThinkingBudget), some thinking)
    else (none, some thinking)
  | _, _ => (none, thinking)

/-- No more than the model takes, and no less than its floor if the model takes that much. -/
def WithinLimits (profile : ModelProfile α) (budget : α) : Prop :=
  budget ≤ profile.cap ∧
  (profile.minThinkingBudget ≤ profile.cap → profile.minThinkingBudget ≤ budget)

variable {thinking : Option (Thinking α)} {model : Option (Model α)}

theorem getThinkingBudget_eq_some_iff {budget : α} :
    (getThinkingBudget thinking model).1 = some budget ↔
      ∃ m t, model = some m ∧ thinking = some t ∧ 0 < (resolveModelProfile m).cap ∧
        budget = max
          (min (t.budget_tokens.getD (resolveModelProfile m).cap) (resolveModelProfile m).cap)
          (resolveModelProfile m).minThinkingBudget := by
  constructor
  · intro h
    cases model with
    | none => cases h
    | some m =>
      cases thinking with
      | none => cases h
      | some t =>
        rw [getThinkingBudget] at h
        dsimp only at h
        by_cases hcap : 0 < (resolveModelProfile m).cap
        · rw [if_pos hcap] at h
          exact ⟨m, t, rfl, rfl, hcap, (Option.some.inj h).symm⟩
        · rw [if_neg hcap] at h
          cases h
  · rintro ⟨m, t, rfl, rfl, hcap, rfl⟩
    rw [getThinkingBudget]
    dsimp only
    rw [if_pos hcap]

/-- The floor comes last: the budget is within the limits if and only if the floor is, wherever a
budget is returned. -/
theorem getThinkingBudget_within_iff :
    (∀ m budget, model = some m → (getThinkingBudget thinking model).1 = some budget →
      WithinLimits (resolveModelProfile m) budget) ↔
    ∀ m t, model = some m → thinking = some t → 0 < (resolveModelProfile m).cap →
      (resolveModelProfile m).minThinkingBudget ≤ (resolveModelProfile m).cap := by
  constructor
  · intro hwithin m t hm ht hcap
    have hsome := getThinkingBudget_eq_some_iff.2 ⟨m, t, hm, ht, hcap, rfl⟩
    exact (le_max_right _ _).trans (hwithin m _ hm hsome).1
  · intro hfloor m budget hm hsome
    obtain ⟨m', t, hm', ht, hcap, rfl⟩ := getThinkingBudget_eq_some_iff.1 hsome
    obtain rfl : m = m' := Option.some.inj (hm.symm.trans hm')
    exact ⟨max_le (min_le_right _ _) (hfloor m t hm ht hcap), fun _ => le_max_right _ _⟩

end

/-- A model that takes half of the floor of old. -/
def smallModel : Model ℤ where
  capabilities := some
    { limits := some { max_output_tokens := some 8000 }
      supports := some { max_thinking_budget := some 512 } }

theorem floor_above_cap :
    (resolveModelProfile smallModel).cap = 512 ∧
    (getThinkingBudget (some ⟨some 300⟩) (some smallModel)).1 = some 1024 ∧
    ¬WithinLimits (resolveModelProfile smallModel) 1024 := by
  have hcap : (resolveModelProfile smallModel).cap = 512 := by decide
  refine ⟨hcap, by decide, fun hwithin => ?_⟩
  rw [WithinLimits, hcap] at hwithin
  exact absurd hwithin.1 (by decide)

end Maximal.Messages.Budget
