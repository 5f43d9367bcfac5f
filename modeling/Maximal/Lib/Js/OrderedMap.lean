import Mathlib.Data.List.Basic
import Mathlib.Data.List.Nodup

/-!
# A `Map` in the order of its insertions

The entry inserted first stands first. Writing to a key that is present leaves the key where it
stands.

## Main definitions

- `Js.OrderedMap` — the entries, no two of one key
- `Js.OrderedMap.get`, `has`, `set`, `delete`, `filter`, `firstKey`, `size`

## Main results

- `Js.OrderedMap.entries_delete_set` — deleting a key and setting it again moves it to the end
- `Js.OrderedMap.entries_delete_firstKey` — deleting the first key leaves the others as they stand
-/

namespace Js

structure OrderedMap (κ ν : Type) where
  entries : List (κ × ν)
  nodup : (entries.map Prod.fst).Nodup

namespace OrderedMap

variable {κ ν : Type}

def empty : OrderedMap κ ν := ⟨[], List.nodup_nil⟩

def keys (m : OrderedMap κ ν) : List κ := m.entries.map Prod.fst

def size (m : OrderedMap κ ν) : ℕ := m.entries.length

/-- What `keys().next().value` yields. -/
def firstKey (m : OrderedMap κ ν) : Option κ := m.entries.head?.map Prod.fst

theorem mem_keys (m : OrderedMap κ ν) (k : κ) : k ∈ m.keys ↔ ∃ v, (k, v) ∈ m.entries := by
  rw [keys, List.mem_map]
  exact ⟨fun ⟨e, he, hk⟩ => ⟨e.2, hk ▸ he⟩, fun ⟨v, hv⟩ => ⟨(k, v), hv, rfl⟩⟩

theorem size_eq_zero_iff (m : OrderedMap κ ν) : m.size = 0 ↔ m.keys = [] := by
  rw [size, keys, List.length_eq_zero_iff, List.map_eq_nil_iff]

variable [DecidableEq κ]

def get (m : OrderedMap κ ν) (k : κ) : Option ν := m.entries.lookup k

def has (m : OrderedMap κ ν) (k : κ) : Bool := decide (k ∈ m.keys)

def delete (m : OrderedMap κ ν) (k : κ) : OrderedMap κ ν where
  entries := m.entries.filter fun e => e.1 ≠ k
  nodup := m.nodup.sublist ((List.filter_sublist).map Prod.fst)

/-- The entry of a key that is present is overwritten where it stands. -/
def overwrite (k : κ) (v : ν) (e : κ × ν) : κ × ν := if e.1 = k then (k, v) else e

theorem fst_overwrite (k : κ) (v : ν) (e : κ × ν) : (overwrite k v e).1 = e.1 := by
  rw [overwrite]
  split
  · next h => exact h.symm
  · rfl

def set (m : OrderedMap κ ν) (k : κ) (v : ν) : OrderedMap κ ν :=
  if h : k ∈ m.keys then
    ⟨m.entries.map (overwrite k v), by
      rw [List.map_map, show Prod.fst ∘ overwrite k v = Prod.fst from funext (fst_overwrite k v)]
      exact m.nodup⟩
  else
    ⟨m.entries ++ [(k, v)], by
      rw [List.map_append]
      exact m.nodup.append (List.nodup_singleton k) (List.disjoint_singleton.2 h)⟩

section

variable (m : OrderedMap κ ν) (k : κ) (v : ν)

theorem get_eq_some_iff : m.get k = some v ↔ (k, v) ∈ m.entries := by
  obtain ⟨entries, hnodup⟩ := m
  change entries.lookup k = some v ↔ (k, v) ∈ entries
  induction entries with
  | nil => simp
  | cons e es ih =>
    obtain ⟨k', v'⟩ := e
    rw [List.map_cons, List.nodup_cons] at hnodup
    rw [List.lookup_cons, List.mem_cons]
    by_cases hk : k = k'
    · subst hk
      rw [beq_self_eq_true]
      have hout : (k, v) ∉ es := fun h => hnodup.1 (List.mem_map.2 ⟨_, h, rfl⟩)
      simp only [Option.some.injEq, Prod.mk.injEq, true_and, hout, or_false]
      exact eq_comm
    · rw [beq_false_of_ne hk]
      have hne : (k, v) ≠ (k', v') := fun h => hk (congrArg Prod.fst h)
      simp only [hne, false_or]
      exact ih hnodup.2

theorem has_eq_isSome : m.has k = (m.get k).isSome := by
  rw [has, Bool.eq_iff_iff, decide_eq_true_iff, mem_keys, Option.isSome_iff_exists]
  exact exists_congr fun v => (get_eq_some_iff m k v).symm

theorem not_mem_keys_delete : k ∉ (m.delete k).keys := by
  rw [mem_keys]
  rintro ⟨v, hv⟩
  exact of_decide_eq_true (List.mem_filter.1 hv).2 rfl

theorem keys_delete_subset : (m.delete k).keys ⊆ m.keys :=
  List.map_subset _ List.filter_sublist.subset

theorem mem_keys_delete (k' : κ) : k' ∈ (m.delete k).keys ↔ k' ∈ m.keys ∧ k' ≠ k := by
  rw [mem_keys, mem_keys, ← exists_and_right]
  refine exists_congr fun v => ?_
  rw [delete, List.mem_filter, decide_eq_true_iff]

theorem mem_keys_set (k' : κ) : k' ∈ (m.set k v).keys ↔ k' ∈ m.keys ∨ k' = k := by
  rw [set]
  split
  · next hk =>
    have hkeys : (m.entries.map (overwrite k v)).map Prod.fst = m.keys := by
      rw [List.map_map]
      exact List.map_congr_left fun e _ => fst_overwrite k v e
    rw [keys, hkeys]
    exact ⟨.inl, fun h => h.elim id fun heq => heq ▸ hk⟩
  · rw [keys, List.map_append, List.mem_append]
    exact or_congr_right List.mem_singleton

theorem entries_set_of_notMem (h : k ∉ m.keys) : (m.set k v).entries = m.entries ++ [(k, v)] := by
  rw [set, dif_neg h]

theorem entries_delete_of_notMem (h : k ∉ m.keys) : (m.delete k).entries = m.entries := by
  rw [delete, List.filter_eq_self]
  intro e he
  refine decide_eq_true fun hk => h ?_
  exact (mem_keys m k).2 ⟨e.2, hk ▸ he⟩

theorem entries_delete_set :
    ((m.delete k).set k v).entries = (m.entries.filter fun e => e.1 ≠ k) ++ [(k, v)] :=
  entries_set_of_notMem _ k v (not_mem_keys_delete m k)

theorem keys_delete_set :
    ((m.delete k).set k v).keys = m.keys.filter (· ≠ k) ++ [k] := by
  rw [keys, entries_delete_set, List.map_append, keys, List.filter_map]
  rfl

theorem entries_delete_firstKey (e : κ × ν) (es : List (κ × ν)) (h : m.entries = e :: es) :
    (m.delete e.1).entries = es := by
  obtain ⟨entries, hnodup⟩ := m
  obtain rfl : entries = e :: es := h
  rw [List.map_cons, List.nodup_cons] at hnodup
  change (e :: es).filter (fun e' => e'.1 ≠ e.1) = es
  rw [List.filter_cons_of_neg (by simp), List.filter_eq_self]
  intro e' he'
  exact decide_eq_true fun hk => hnodup.1 (List.mem_map.2 ⟨e', he', hk⟩)

theorem mem_entries_set (e : κ × ν) :
    e ∈ (m.set k v).entries ↔ e = (k, v) ∨ e ∈ m.entries ∧ e.1 ≠ k := by
  rw [set]
  split
  · next hk =>
    rw [List.mem_map]
    constructor
    · rintro ⟨e', he', rfl⟩
      rw [overwrite]
      split
      · exact .inl rfl
      · next hne => exact .inr ⟨he', hne⟩
    · rintro (rfl | ⟨he, hne⟩)
      · obtain ⟨v', hv'⟩ := (mem_keys m k).1 hk
        exact ⟨(k, v'), hv', if_pos rfl⟩
      · exact ⟨e, he, if_neg hne⟩
  · next hk =>
    rw [List.mem_append, List.mem_singleton, or_comm]
    refine or_congr_right ⟨fun he => ⟨he, fun heq => hk ?_⟩, And.left⟩
    exact (mem_keys m k).2 ⟨e.2, heq ▸ he⟩

theorem get_set (k' : κ) : (m.set k v).get k' = if k' = k then some v else m.get k' := by
  refine Option.ext fun v' => ?_
  rw [get_eq_some_iff, mem_entries_set]
  split
  · next h =>
    rw [h, Option.some.injEq]
    exact ⟨fun hmem => hmem.elim (fun heq => (Prod.mk.inj heq).2.symm) fun hne => absurd rfl hne.2,
      fun heq => .inl (by rw [heq])⟩
  · next h =>
    rw [get_eq_some_iff, Prod.mk.injEq, and_iff_left h]
    exact or_iff_right fun heq => h heq.1

theorem get_delete (k' : κ) : (m.delete k).get k' = if k' = k then none else m.get k' := by
  refine Option.ext fun v' => ?_
  rw [get_eq_some_iff, delete, List.mem_filter, decide_eq_true_iff]
  split
  · next h => exact iff_of_false (fun hmem => hmem.2 h) nofun
  · next h => rw [get_eq_some_iff, and_iff_left h]

end

/-- The entries that are not deleted while the map is gone through. -/
def filter (m : OrderedMap κ ν) (p : κ × ν → Bool) : OrderedMap κ ν where
  entries := m.entries.filter p
  nodup := m.nodup.sublist (List.filter_sublist.map Prod.fst)

end OrderedMap

end Js
