import Mathlib.Data.List.Induction
import Mathlib.Data.List.Nodup

/-!
# Turns

A list of names says who had each turn. Nobody is interrupted when all turns of a name come in
one row.

## Main definitions

- `Turns.firsts` — the names in the order of their first turns
- `Turns.Uninterrupted` — between two turns of a name there is none of another

## Main results

- `Turns.Uninterrupted.getLast?_firsts` — the name that came up last is the one of the last turn
- `Turns.Uninterrupted.getLast?_of_mem` — a known name has the next turn only after itself
-/

namespace Turns

variable {κ : Type}

def Uninterrupted (xs : List κ) : Prop :=
  ∀ p ∈ xs, ∀ q ∈ xs, [p, q, p].Sublist xs → q = p

instance [DecidableEq κ] (xs : List κ) : Decidable (Uninterrupted xs) :=
  inferInstanceAs (Decidable (∀ p ∈ xs, ∀ q ∈ xs, [p, q, p].Sublist xs → q = p))

variable {xs ys : List κ} {x : κ}

theorem Uninterrupted.of_append (h : Uninterrupted (xs ++ ys)) : Uninterrupted xs :=
  fun p hp q hq hsub => h p (List.mem_append_left _ hp) q (List.mem_append_left _ hq)
    (hsub.trans (List.sublist_append_left xs ys))

/-- A name that has had a turn and has the next one also had the last one. -/
theorem Uninterrupted.getLast?_of_mem (h : Uninterrupted (xs ++ [x])) (hx : x ∈ xs) :
    xs.getLast? = some x := by
  obtain ⟨rest, y, rfl⟩ := (List.eq_nil_or_concat xs).resolve_left (List.ne_nil_of_mem hx)
  rw [List.concat_eq_append] at h hx ⊢
  rw [List.getLast?_concat]
  rcases List.mem_append.1 hx with hrest | hlast
  · have hxy : [x, y].Sublist (rest ++ [y]) :=
      (List.singleton_sublist.2 hrest).append (List.Sublist.refl [y])
    have hsub : [x, y, x].Sublist (rest ++ [y] ++ [x]) := hxy.append (List.Sublist.refl [x])
    exact congrArg some (h x (by simp) y (by simp) hsub)
  · exact congrArg some (List.mem_singleton.1 hlast).symm

/-- A pair in a list with one element more. -/
theorem pair_sublist_concat {y z : κ} (h : [x, y].Sublist (xs ++ [z])) :
    [x, y].Sublist xs ∨ x ∈ xs ∧ y = z := by
  obtain ⟨before, after, heq, hbefore, hafter⟩ := List.sublist_append_iff.1 h
  rcases List.sublist_singleton.1 hafter with rfl | rfl
  · rw [List.append_nil] at heq
    exact .inl (heq ▸ hbefore)
  · have hsplit : [x] ++ [y] = before ++ [z] := heq
    obtain ⟨rfl, hy⟩ := List.append_inj' hsplit rfl
    exact .inr ⟨List.singleton_sublist.1 hbefore, (List.cons.inj hy).1⟩

theorem pair_sublist_append {y : κ} (h : [x, y].Sublist (xs ++ ys)) :
    [x, y].Sublist xs ∨ y ∈ ys := by
  induction ys using List.reverseRecOn with
  | nil =>
    rw [List.append_nil] at h
    exact .inl h
  | append_singleton ys z ih =>
    rw [← List.append_assoc] at h
    rcases pair_sublist_concat h with h | ⟨-, rfl⟩
    · exact (ih h).imp_right (List.mem_append_left _)
    · exact .inr (by simp)

variable [DecidableEq κ]

def firsts (xs : List κ) : List κ :=
  xs.foldl (fun seen x => if x ∈ seen then seen else seen ++ [x]) []

theorem firsts_concat (xs : List κ) (x : κ) :
    firsts (xs ++ [x]) = if x ∈ firsts xs then firsts xs else firsts xs ++ [x] := by
  rw [firsts, List.foldl_append]
  rfl

theorem mem_firsts : x ∈ firsts xs ↔ x ∈ xs := by
  induction xs using List.reverseRecOn with
  | nil => rfl
  | append_singleton xs y ih =>
    rw [firsts_concat]
    split
    · next hy =>
      have hor : x = y → x ∈ firsts xs := fun h => h ▸ hy
      simp only [List.mem_append, List.mem_singleton, ← ih]
      exact ⟨.inl, fun h => h.elim id hor⟩
    · simp [ih]

theorem nodup_firsts : (firsts xs).Nodup := by
  induction xs using List.reverseRecOn with
  | nil => exact List.nodup_nil
  | append_singleton xs y ih =>
    rw [firsts_concat]
    split
    · exact ih
    · next hy =>
      refine List.nodup_append.2 ⟨ih, List.nodup_singleton y, fun a ha b hb => ?_⟩
      rw [List.mem_singleton.1 hb]
      exact ne_of_mem_of_not_mem ha hy

theorem Uninterrupted.getLast?_firsts (h : Uninterrupted xs) :
    (firsts xs).getLast? = xs.getLast? := by
  induction xs using List.reverseRecOn with
  | nil => rfl
  | append_singleton xs x ih =>
    rw [firsts_concat, List.getLast?_concat]
    split
    · next hx =>
      rw [ih h.of_append]
      exact h.getLast?_of_mem (mem_firsts.1 hx)
    · exact List.getLast?_concat

end Turns
