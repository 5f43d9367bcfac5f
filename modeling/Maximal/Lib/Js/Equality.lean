import Maximal.Lib.Js.Value

/-!
# Equality of values

Values that were read from texts are equal when they were written alike. A program that compares
two objects tells them apart by identity instead; the keys compared here are texts.
-/

namespace Js

namespace Json

mutual

def same : Json → Json → Bool
  | .null, .null => true
  | .bool a, .bool b => a == b
  | .number m, .number n => decide (m = n)
  | .string s, .string t => decide (s = t)
  | .array xs, .array ys => sameItems xs ys
  | .object fs, .object gs => sameFields fs gs
  | _, _ => false

def sameItems : List Json → List Json → Bool
  | [], [] => true
  | x :: xs, y :: ys => same x y && sameItems xs ys
  | _, _ => false

def sameFields : List (String × Json) → List (String × Json) → Bool
  | [], [] => true
  | (k, x) :: fs, (l, y) :: gs => decide (k = l) && (same x y && sameFields fs gs)
  | _, _ => false

end

mutual

theorem same_iff : ∀ a b : Json, same a b = true ↔ a = b
  | .array xs, b => by
    cases b with
    | array ys => rw [same, sameItems_iff xs ys, array.injEq]
    | _ => simp [same]
  | .object fs, b => by
    cases b with
    | object gs => rw [same, sameFields_iff fs gs, object.injEq]
    | _ => simp [same]
  | .null, b => by cases b <;> simp [same]
  | .bool _, b => by cases b <;> simp [same]
  | .number _, b => by cases b <;> simp [same]
  | .string _, b => by cases b <;> simp [same]

theorem sameItems_iff : ∀ xs ys : List Json, sameItems xs ys = true ↔ xs = ys
  | [], [] => by simp [sameItems]
  | [], _ :: _ => by simp [sameItems]
  | _ :: _, [] => by simp [sameItems]
  | x :: xs, y :: ys => by
    rw [sameItems, Bool.and_eq_true, same_iff x y, sameItems_iff xs ys, List.cons.injEq]

theorem sameFields_iff : ∀ fs gs : List (String × Json), sameFields fs gs = true ↔ fs = gs
  | [], [] => by simp [sameFields]
  | [], _ :: _ => by simp [sameFields]
  | _ :: _, [] => by simp [sameFields]
  | (k, x) :: fs, (l, y) :: gs => by
    rw [sameFields, Bool.and_eq_true, Bool.and_eq_true, decide_eq_true_iff, same_iff x y,
      sameFields_iff fs gs, List.cons.injEq, Prod.mk.injEq, and_assoc]

end

instance : DecidableEq Json := fun a b => decidable_of_iff (same a b = true) (same_iff a b)

end Json

end Js
