import Maximal.Lib.Recency
import Maximal.RuntimeState.Cache

/-!
# What a cache remembers of its history

The history of a cache lists what was set and what was found by a read, the latest first. The
cache holds the keys touched last, as many as it has room for, each with its latest value.

## Main definitions

- `Cache.Recalls` — the entries of the cache, by its history

## Main results

- `Cache.Recalls.set`, `Cache.Recalls.setAll`, `Cache.Recalls.get_hit`, `Cache.Recalls.get_miss`
- `Cache.Recalls.get_eq_some_iff` — which reads find a value, and which
-/

namespace Maximal.RuntimeState

namespace Cache

open Js (OrderedMap)
open Recency (order since)

variable {K V : Type} [DecidableEq K]

structure Recalls (c : Cache K V) (log : List (K × V)) : Prop where
  keys : c.store.keys.reverse = (order log).take c.max
  values : ∀ k v, c.store.get k = some v → log.lookup k = some v

variable {c : Cache K V} {log : List (K × V)} {k : K} {v : V}

theorem new_recalls (name : String) (max : ℕ) : (new name max : Cache K V).Recalls [] where
  keys := List.take_nil.symm
  values _ _ h := by cases h

namespace Recalls

theorem mem_keys (h : c.Recalls log) : k ∈ c.store.keys ↔ k ∈ (order log).take c.max := by
  rw [← h.keys, List.mem_reverse]

theorem size_eq (h : c.Recalls log) : c.store.size = ((order log).take c.max).length := by
  rw [← h.keys, List.length_reverse, OrderedMap.keys, List.length_map, OrderedMap.size]

theorem get_eq_some_iff (h : c.Recalls log) :
    c.store.get k = some v ↔ log.lookup k = some v ∧ (since log k).card < c.max := by
  have hkeys : k ∈ c.store.keys ↔ (∃ w, log.lookup k = some w) ∧ (since log k).card < c.max := by
    rw [h.mem_keys, ← Recency.mem_order]
    exact ⟨fun hk => ⟨List.mem_of_mem_take hk,
      (Recency.mem_take_order (List.mem_of_mem_take hk)).1 hk⟩,
      fun hk => (Recency.mem_take_order hk.1).2 hk.2⟩
  have hget : ∀ w, c.store.get k = some w → k ∈ c.store.keys := fun w hw =>
    (OrderedMap.mem_keys _ _).2 ⟨w, (OrderedMap.get_eq_some_iff _ _ _).1 hw⟩
  constructor
  · intro hv
    exact ⟨h.values k v hv, (hkeys.1 (hget v hv)).2⟩
  · rintro ⟨hv, hlt⟩
    obtain ⟨w, hw⟩ := (OrderedMap.mem_keys _ _).1 (hkeys.2 ⟨⟨v, hv⟩, hlt⟩)
    rw [← OrderedMap.get_eq_some_iff] at hw
    obtain rfl := Option.some.inj ((h.values k w hw).symm.trans hv)
    exact hw

/-! ### Touches -/

/-- Any entries of which one is the latest touch, and the others were there. -/
theorem values_cons (h : c.Recalls log) {m : OrderedMap K V}
    (hm : ∀ k' v', m.get k' = some v' → k' = k ∧ v' = v ∨ k' ≠ k ∧ c.store.get k' = some v') :
    ∀ k' v', m.get k' = some v' → ((k, v) :: log).lookup k' = some v' := by
  intro k' v' hget
  rw [List.lookup_cons]
  obtain ⟨rfl, rfl⟩ | ⟨hne, hold⟩ := hm k' v' hget
  · rw [beq_self_eq_true]
  · rw [beq_false_of_ne hne]
    exact h.values k' v' hold

/-- A key that is there is deleted and set again. -/
theorem touch (h : c.Recalls log) (hk : k ∈ c.store.keys) (v : V) {hits : ℕ} :
    ({ c with store := (c.store.delete k).set k v, hits } : Cache K V).Recalls
      ((k, v) :: log) where
  keys := by
    rw [h.mem_keys] at hk
    rw [OrderedMap.keys_delete_set, List.reverse_append, List.reverse_singleton, ← List.filter_reverse, h.keys]
    exact (Recency.take_order_of_mem v hk).symm
  values := h.values_cons fun k' v' hget => by
    rw [OrderedMap.get_set] at hget
    split at hget
    · next heq => exact .inl ⟨heq, (Option.some.inj hget).symm⟩
    · next hne =>
      rw [OrderedMap.get_delete, if_neg hne] at hget
      exact .inr ⟨hne, hget⟩

theorem get_hit (h : c.Recalls log) (hv : c.store.get k = some v) :
    (c.get k).1 = some v ∧ (c.get k).2.Recalls ((k, v) :: log) := by
  have hk : k ∈ c.store.keys :=
    (OrderedMap.mem_keys _ _).2 ⟨v, (OrderedMap.get_eq_some_iff _ _ _).1 hv⟩
  rw [Cache.get, hv]
  exact ⟨rfl, h.touch hk v⟩

theorem get_miss (h : c.Recalls log) (hv : c.store.get k = none) :
    (c.get k).1 = none ∧ (c.get k).2.Recalls log := by
  rw [Cache.get, hv]
  exact ⟨rfl, h.keys, h.values⟩

theorem set_room (h : c.Recalls log) (hk : k ∉ c.store.keys) (hroom : c.store.size < c.max) :
    ({ c with store := c.store.set k v } : Cache K V).Recalls ((k, v) :: log) where
  keys := by
    rw [OrderedMap.keys, OrderedMap.entries_set_of_notMem _ _ _ hk, List.map_append,
      List.reverse_append]
    rw [h.size_eq] at hroom
    rw [h.mem_keys] at hk
    rw [Recency.take_order_of_room v hk hroom, ← h.keys]
    rfl
  values := h.values_cons fun k' v' hget => by
    rw [OrderedMap.get_set] at hget
    split at hget
    · next heq => exact .inl ⟨heq, (Option.some.inj hget).symm⟩
    · next hne => exact .inr ⟨hne, hget⟩

/-- The first entry makes room for a new one. -/
theorem set_full (h : c.Recalls log) (hmax : 1 ≤ c.max) (hk : k ∉ c.store.keys)
    (hfull : c.max ≤ c.store.size) :
    ({ c.evictFirst with store := c.evictFirst.store.set k v } : Cache K V).Recalls
      ((k, v) :: log) := by
  obtain ⟨e, es, hentries⟩ : ∃ e es, c.store.entries = e :: es := by
    refine List.exists_cons_of_ne_nil fun hnil => ?_
    rw [OrderedMap.size, hnil] at hfull
    exact absurd (hmax.trans hfull) (Nat.not_succ_le_zero 0)
  have hevict : c.evictFirst.store = c.store.delete e.1 := by
    rw [evictFirst, OrderedMap.firstKey, hentries]
    rfl
  have hkeys : c.store.keys = e.1 :: (c.store.delete e.1).keys := by
    rw [OrderedMap.keys, OrderedMap.keys, OrderedMap.entries_delete_firstKey _ e es hentries,
      hentries, List.map_cons]
  have hdelete : k ∉ (c.store.delete e.1).keys := fun hmem =>
    hk (OrderedMap.keys_delete_subset _ _ hmem)
  refine ⟨?_, h.values_cons fun k' v' hget => ?_⟩
  · have hsize := hfull
    rw [h.size_eq] at hsize
    have hmem := hk
    rw [h.mem_keys] at hmem
    have hset : ((c.store.delete e.1).set k v).keys = (c.store.delete e.1).keys ++ [k] := by
      rw [OrderedMap.keys, OrderedMap.entries_set_of_notMem _ _ _ hdelete, List.map_append]
      rfl
    rw [evictFirst_max, Recency.take_order_of_full v hmax hmem hsize, ← h.keys, hkeys,
      List.reverse_cons, List.dropLast_concat]
    dsimp only
    rw [hevict, hset, List.reverse_append, List.reverse_singleton, List.singleton_append]
  · dsimp only at hget
    rw [hevict, OrderedMap.get_set] at hget
    split at hget
    · next heq => exact .inl ⟨heq, (Option.some.inj hget).symm⟩
    · next hne =>
      rw [OrderedMap.get_delete] at hget
      split at hget
      · cases hget
      · exact .inr ⟨hne, hget⟩

theorem set (h : c.Recalls log) (hmax : 1 ≤ c.max) (k : K) (v : V) :
    (c.set k v).Recalls ((k, v) :: log) := by
  rw [Cache.set]
  by_cases hk : k ∈ c.store.keys
  · have hhas : c.store.has k = true := decide_eq_true hk
    rw [if_pos hhas]
    exact h.touch hk v
  · have hhas : ¬c.store.has k = true := fun htrue => hk (of_decide_eq_true htrue)
    rw [if_neg hhas]
    by_cases hfull : c.max ≤ c.store.size
    · rw [if_pos hfull]
      exact h.set_full hmax hk hfull
    · rw [if_neg hfull]
      exact h.set_room hk (Nat.lt_of_not_le hfull)

theorem setAll (h : c.Recalls log) (hmax : 1 ≤ c.max) (entries : List (K × V)) :
    (entries.foldl (fun c e => c.set e.1 e.2) c).Recalls (entries.reverse ++ log) ∧
      (entries.foldl (fun c e => c.set e.1 e.2) c).max = c.max := by
  induction entries generalizing c log with
  | nil => exact ⟨h, rfl⟩
  | cons e entries ih =>
    have hset : (c.set e.1 e.2).max = c.max := (c.step_name_max (.set e.1 e.2)).2
    obtain ⟨hrecalls, hmax'⟩ := ih (h.set hmax e.1 e.2) (hset.symm ▸ hmax)
    rw [List.foldl_cons, List.reverse_cons, List.append_assoc]
    exact ⟨hrecalls, hmax'.trans hset⟩

end Recalls

end Cache

end Maximal.RuntimeState
