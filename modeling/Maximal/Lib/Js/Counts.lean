import Maximal.Lib.Js.NumberText
import Maximal.Lib.Js.Value

/-!
# Counts

Values that are finite numbers, by the number they stand for.

## Main definitions

- `Js.IsCount`

## Main results

- `Js.isCount_plus`, `Js.isCount_sub_iff` — counts under `+` and `-`
-/

namespace Js

/-- The value is a finite number, of this value. -/
def IsCount (v : Val) (q : ℚ) : Prop :=
  ∃ m e, v = some (.number (.finite m e)) ∧ Number.value m e = q

theorem isCount_zero : IsCount (some (.number (.ofNat 0))) 0 :=
  ⟨0, 0, rfl, by rw [Number.value]; simp⟩

theorem isCount_ofNat (n : ℕ) : IsCount (some (.number (.ofNat n))) n :=
  ⟨n, 0, rfl, by rw [Number.value]; simp⟩

theorem IsCount.unique {v : Val} {p q : ℚ} (hp : IsCount v p) (hq : IsCount v q) : p = q := by
  obtain ⟨m, e, rfl, rfl⟩ := hp
  obtain ⟨n, f, heq, rfl⟩ := hq
  cases heq
  rfl

theorem IsCount.toNumber {v : Val} {q : ℚ} (h : IsCount v q) {x : Number}
    (hx : v.toNumber = .ok x) : IsCount (some (.number x)) q := by
  obtain ⟨m, e, rfl, rfl⟩ := h
  obtain rfl := Except.ok.inj hx
  exact ⟨m, e, rfl, rfl⟩

theorem isCount_plus {a b : Val} {p q : ℚ} (ha : IsCount a p) (hb : IsCount b q) :
    ∃ sum, Val.plus a b = .ok sum ∧ IsCount (some sum) (p + q) := by
  obtain ⟨m, e, rfl, rfl⟩ := ha
  obtain ⟨n, f, rfl, rfl⟩ := hb
  obtain ⟨k, g, hadd, hvalue⟩ := Number.add_finite m e n f
  exact ⟨.number (.finite k g), by rw [← hadd]; rfl, k, g, rfl, hvalue⟩

/-- A difference is a count exactly when its first operand is one. -/
theorem isCount_sub_iff {x c : Number} {p q : ℚ} (hc : IsCount (some (.number c)) p) :
    IsCount (some (.number (x.sub c))) q ↔ IsCount (some (.number x)) (q + p) := by
  obtain ⟨n, f, heq, rfl⟩ := hc
  cases heq
  cases x with
  | finite m e =>
    obtain ⟨k, g, hsub, hvalue⟩ := Number.sub_finite m e n f
    rw [hsub]
    constructor
    · rintro ⟨k', g', heq, rfl⟩
      cases heq
      exact ⟨m, e, rfl, by rw [hvalue, sub_add_cancel]⟩
    · rintro ⟨m', e', heq, hsum⟩
      cases heq
      exact ⟨k, g, rfl, by rw [hvalue, hsum, add_sub_cancel_right]⟩
  | _ =>
    constructor
    · rintro ⟨k, g, heq, -⟩
      cases heq
    · rintro ⟨k, g, heq, -⟩
      cases heq

end Js
