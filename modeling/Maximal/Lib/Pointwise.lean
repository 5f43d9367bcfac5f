import Mathlib.Data.List.Forall2

/-!
# Lists item by item

Two lists of one length whose items are related, as a program makes them that goes through a list.

## Main results

- `mapM_forall₂` — the list that a traversal returns
- `forall_iff_of_forall₂`, `map_eq_of_forall₂` — what is the same of related items
- `forall₂_comp` — one traversal after the other
-/

namespace List

variable {α β γ δ : Type}

theorem mapM_forall₂ {f : α → Option β} {xs : List α} {ys : List β} (h : xs.mapM f = some ys) :
    Forall₂ (fun x y => f x = some y) xs ys := by
  induction xs generalizing ys with
  | nil =>
    obtain rfl := Option.some.inj h
    exact .nil
  | cons x xs ih =>
    rw [mapM_cons] at h
    obtain ⟨y, hy, h⟩ := Option.bind_eq_some_iff.1 h
    obtain ⟨ys, hys, h⟩ := Option.bind_eq_some_iff.1 h
    obtain rfl := Option.some.inj h
    exact .cons hy (ih hys)

/-- What holds of the second list and what holds of the first. -/
theorem forall_iff_of_forall₂ {R : α → β → Prop} {p : α → Prop} {q : β → Prop} {xs : List α}
    {ys : List β} (h : Forall₂ R xs ys) (hR : ∀ x y, R x y → (q y ↔ p x)) :
    (∀ y ∈ ys, q y) ↔ ∀ x ∈ xs, p x := by
  induction h with
  | nil => exact iff_of_true (by simp) (by simp)
  | cons hxy _ ih => rw [forall_mem_cons, forall_mem_cons, hR _ _ hxy, ih]

theorem map_eq_of_forall₂ {R : α → β → Prop} {f : α → δ} {g : β → δ} {xs : List α} {ys : List β}
    (h : Forall₂ R xs ys) (hR : ∀ x y, R x y → g y = f x) : ys.map g = xs.map f := by
  induction h with
  | nil => rfl
  | cons hxy _ ih => rw [map_cons, map_cons, hR _ _ hxy, ih]

theorem forall₂_comp {R : α → β → Prop} {S : β → γ → Prop} {xs : List α} {ys : List β}
    {zs : List γ} (hxy : Forall₂ R xs ys) (hyz : Forall₂ S ys zs) :
    Forall₂ (fun x z => ∃ y, R x y ∧ S y z) xs zs := by
  induction hxy generalizing zs with
  | nil =>
    cases hyz
    exact .nil
  | cons hxy _ ih =>
    cases hyz with
    | cons hyz hrest => exact .cons ⟨_, hxy, hyz⟩ (ih hrest)

/-- The item at a position of the list that a traversal returns. -/
theorem getElem?_mapM {f : α → Option β} {xs : List α} {ys : List β} (h : xs.mapM f = some ys)
    (i : ℕ) : xs[i]?.map f = ys[i]?.map some := by
  induction xs generalizing ys i with
  | nil =>
    obtain rfl := Option.some.inj h
    rfl
  | cons x xs ih =>
    rw [mapM_cons] at h
    obtain ⟨y, hy, h⟩ := Option.bind_eq_some_iff.1 h
    obtain ⟨ys, hys, h⟩ := Option.bind_eq_some_iff.1 h
    obtain rfl := Option.some.inj h
    cases i with
    | zero => exact congrArg some hy
    | succ i => exact ih hys i

end List
