import Mathlib.Data.List.Induction
import Mathlib.Data.List.Perm.Basic
import Mathlib.Data.List.Sort

/-!
# Distributing a list over keys

A list is distributed over keys when each of its elements ends up under exactly one key, as often
as it occurs. What one key holds can be put back in the order of the list when the list is
ordered.

## Main definitions

- `Distributes` — the lists under the keys are together the given list

## Main results

- `Distributes.add` — more elements for one key
- `filter_mem_take` — the first elements, by their keys
- `insertionSort_sublist` — sorted by position, a part of an ordered list is a sublist of it
-/

open scoped List

variable {κ α β : Type}

/-- The lists that `b` has under the keys are together `xs`. -/
def Distributes (keys : List κ) (b : κ → List α) (xs : List α) : Prop :=
  (keys.flatMap b).Perm xs

namespace Distributes

variable {keys : List κ} {b b' : κ → List α} {xs : List α}

theorem empty (keys : List κ) : Distributes keys (fun _ => ([] : List α)) [] := by
  rw [Distributes, List.flatMap_eq_nil_iff.2 fun _ _ => rfl]

/-- The order under one key does not matter. -/
theorem congr_perm (h : Distributes keys b xs) (hb : ∀ k ∈ keys, (b' k).Perm (b k)) :
    Distributes keys b' xs :=
  (List.Perm.flatMap_left keys hb).trans h

/-- The elements added to one key are added to the list. -/
theorem add {k : κ} {as : List α} (h : Distributes keys b xs) (hnodup : keys.Nodup)
    (hk : k ∈ keys) (hself : b' k = b k ++ as) (hother : ∀ j, j ≠ k → b' j = b j) :
    Distributes keys b' (xs ++ as) := by
  obtain ⟨front, back, rfl⟩ := List.append_of_mem hk
  have hmid : k ∉ front ∧ k ∉ back := by
    have hdisj := List.nodup_middle.1 hnodup
    rw [List.nodup_cons, List.mem_append, not_or] at hdisj
    exact hdisj.1
  have hfront : front.flatMap b' = front.flatMap b :=
    List.flatMap_congr fun j hj => hother j (ne_of_mem_of_not_mem hj hmid.1)
  have hback : back.flatMap b' = back.flatMap b :=
    List.flatMap_congr fun j hj => hother j (ne_of_mem_of_not_mem hj hmid.2)
  rw [Distributes, List.flatMap_append, List.flatMap_cons, hfront, hself, hback]
  rw [Distributes, List.flatMap_append, List.flatMap_cons] at h
  calc front.flatMap b ++ (b k ++ as ++ back.flatMap b)
      = front.flatMap b ++ b k ++ (as ++ back.flatMap b) := by simp only [List.append_assoc]
    _ ~ front.flatMap b ++ b k ++ (back.flatMap b ++ as) :=
        List.Perm.append_left _ List.perm_append_comm
    _ = front.flatMap b ++ (b k ++ back.flatMap b) ++ as := by simp only [List.append_assoc]
    _ ~ xs ++ as := h.append_right as

theorem perm {ys : List α} (h : Distributes keys b xs) (hperm : xs.Perm ys) :
    Distributes keys b ys :=
  List.Perm.trans h hperm

theorem map (h : Distributes keys b xs) (f : α → β) :
    Distributes keys (fun k => (b k).map f) (xs.map f) := by
  rw [Distributes, ← List.map_flatMap]
  exact List.Perm.map f h

/-- What one key holds is part of the list. -/
theorem subperm (h : Distributes keys b xs) {k : κ} (hk : k ∈ keys) : (b k).Subperm xs :=
  (List.sublist_flatten_of_mem (List.mem_map_of_mem hk)).subperm.trans (List.Perm.subperm h)

end Distributes

/-- The elements of a list, each under its position. -/
theorem distributes_getElem? (xs : List α) :
    Distributes (List.range xs.length) (fun i => xs[i]?.toList) xs := by
  induction xs using List.reverseRecOn with
  | nil => exact .empty _
  | append_singleton xs x ih =>
    have hfront : (List.range xs.length).flatMap (fun i => (xs ++ [x])[i]?.toList) =
        (List.range xs.length).flatMap fun i => xs[i]?.toList :=
      List.flatMap_congr fun i hi => by
        rw [List.getElem?_append_left (List.mem_range.1 hi)]
    rw [Distributes, List.length_append, List.length_singleton, List.range_succ,
      List.flatMap_append, hfront, List.flatMap_singleton, List.getElem?_concat_length]
    exact ih.append_right [x]

/-- A part of a list that is ordered by `key`, sorted by `key`, keeps the order of the list. -/
theorem insertionSort_sublist {key : α → ℕ} {xs ys : List α} (h : ys.Subperm xs)
    (hxs : xs.Pairwise (key · < key ·)) :
    (ys.insertionSort (key · ≤ key ·)).Sublist xs := by
  obtain ⟨zs, hperm, hsub⟩ := h
  have hzs : zs.Pairwise (key · < key ·) := hxs.sublist hsub
  have hinj : ∀ a ∈ zs, ∀ b ∈ zs, key a = key b → a = b := by
    have hnodup : (zs.map key).Nodup := List.pairwise_map.2 (hzs.imp fun hlt => hlt.ne)
    exact fun a ha b hb heq => List.inj_on_of_nodup_map hnodup ha hb heq
  have hsorted : (ys.insertionSort (key · ≤ key ·)).Pairwise (key · ≤ key ·) :=
    List.pairwise_insertionSort _ _
  have hsame : ys.insertionSort (key · ≤ key ·) ~ zs :=
    (List.perm_insertionSort _ ys).trans hperm.symm
  have heq := hsame.eq_of_pairwise
    (fun a b ha hb hab hba => hinj a (hsame.mem_iff.1 ha) b hb (Nat.le_antisymm hab hba))
    hsorted (hzs.imp fun hlt => hlt.le)
  rw [heq]
  exact hsub

/-- The first elements of a list are those whose key is one of theirs. -/
theorem filter_mem_take {key : α → ℕ} {xs : List α} (h : (xs.map key).Nodup) (k : ℕ) :
    xs.filter (fun a => key a ∈ (xs.take k).map key) = xs.take k := by
  have htake : (xs.take k).filter (fun a => key a ∈ (xs.take k).map key) = xs.take k :=
    List.filter_eq_self.2 fun a ha => decide_eq_true (List.mem_map_of_mem ha)
  have hdrop : (xs.drop k).filter (fun a => key a ∈ (xs.take k).map key) = [] := by
    rw [← List.take_append_drop k xs, List.map_append] at h
    exact List.filter_eq_nil_iff.2 fun a ha hmem => List.disjoint_of_nodup_append h
      (of_decide_eq_true hmem) (List.mem_map_of_mem ha)
  have happend := List.filter_append (p := fun a => key a ∈ (xs.take k).map key)
    (xs.take k) (xs.drop k)
  rwa [List.take_append_drop, htake, hdrop, List.append_nil] at happend
