import Mathlib.Data.Finset.Max
import Mathlib.Data.Finset.Card
import Mathlib.Data.Finset.Insert
import Mathlib.Data.List.Nodup
import Mathlib.Order.Basic
import Mathlib.Logic.Function.Basic

/-!
# Least recently used

A map that knows when each of its keys was touched last. A list of entries represents such a map
when it holds the same entries in the order of their last touches.

## Main definitions

- `Lru.Touched` — keys, their values and the times of their last touches
- `Lru.Touched.IsOldest`, `Lru.Touched.oldest` — the key touched least recently
- `Lru.Counted` — a map of bounded size with counters, and its `get`, `set` and `clear`
- `Lru.Represents` — a list in the order of the last touches

## Main results

- `Lru.Touched.oldest_eq_some_iff` — only one key is the oldest
- `Lru.Represents.put`, `Lru.Represents.oldest`, `Lru.Represents.tail`
-/

namespace Lru

variable {K V : Type}

/-- No two keys were touched at one time, and none is touched in the future. -/
structure Touched (K V : Type) where
  keys : Finset K
  value : K → Option V
  touched : K → ℕ
  now : ℕ
  mem_keys : ∀ k, k ∈ keys ↔ (value k).isSome
  touched_lt : ∀ k ∈ keys, touched k < now
  injOn : Set.InjOn touched keys

namespace Touched

def empty : Touched K V where
  keys := ∅
  value _ := none
  touched _ := 0
  now := 0
  mem_keys k := by simp
  touched_lt k hk := absurd hk (Finset.notMem_empty k)
  injOn k hk := absurd hk (Finset.notMem_empty k)

def IsOldest (m : Touched K V) (k : K) : Prop :=
  k ∈ m.keys ∧ ∀ k' ∈ m.keys, m.touched k ≤ m.touched k'

theorem exists_isOldest (m : Touched K V) (h : m.keys.Nonempty) : ∃ k, m.IsOldest k :=
  Finset.exists_min_image m.keys m.touched h

theorem IsOldest.unique {m : Touched K V} {k k' : K} (h : m.IsOldest k) (h' : m.IsOldest k') :
    k = k' :=
  m.injOn h.1 h'.1 (le_antisymm (h.2 k' h'.1) (h'.2 k h.1))

open Classical in
noncomputable def oldest (m : Touched K V) : Option K :=
  if h : m.keys.Nonempty then some (m.exists_isOldest h).choose else none

theorem oldest_eq_some_iff {m : Touched K V} {k : K} : m.oldest = some k ↔ m.IsOldest k := by
  rw [oldest]
  split
  · next h =>
    have holdest : m.IsOldest (m.exists_isOldest h).choose := (m.exists_isOldest h).choose_spec
    rw [Option.some.injEq]
    exact ⟨fun hk => hk ▸ holdest, fun hk => holdest.unique hk⟩
  · next h =>
    exact ⟨nofun, fun hk => absurd ⟨k, hk.1⟩ h⟩

variable [DecidableEq K]

/-- Writes a value and touches its key. -/
def put (m : Touched K V) (k : K) (v : V) : Touched K V where
  keys := insert k m.keys
  value := Function.update m.value k (some v)
  touched := Function.update m.touched k m.now
  now := m.now + 1
  mem_keys k' := by
    rw [Finset.mem_insert]
    by_cases h : k' = k
    · simp [h]
    · rw [Function.update_of_ne h, ← m.mem_keys]
      simp [h]
  touched_lt k' hk' := by
    by_cases h : k' = k
    · rw [h, Function.update_self]
      exact Nat.lt_succ_self _
    · rw [Function.update_of_ne h]
      exact Nat.lt_succ_of_lt (m.touched_lt k' (Finset.mem_of_mem_insert_of_ne hk' h))
  injOn k₁ h₁ k₂ h₂ heq := by
    have hlt : ∀ k' ∈ insert k m.keys, k' ≠ k → m.touched k' ≠ m.now := fun k' hk' hne =>
      (m.touched_lt k' (Finset.mem_of_mem_insert_of_ne hk' hne)).ne
    by_cases h₁k : k₁ = k
    · by_contra hne
      have h₂k : k₂ ≠ k := fun h₂k => hne (h₁k.trans h₂k.symm)
      rw [h₁k, Function.update_self, Function.update_of_ne h₂k] at heq
      exact hlt k₂ h₂ h₂k heq.symm
    · by_cases h₂k : k₂ = k
      · rw [h₂k, Function.update_self, Function.update_of_ne h₁k] at heq
        exact absurd heq (hlt k₁ h₁ h₁k)
      · rw [Function.update_of_ne h₁k, Function.update_of_ne h₂k] at heq
        exact m.injOn (Finset.mem_of_mem_insert_of_ne h₁ h₁k)
          (Finset.mem_of_mem_insert_of_ne h₂ h₂k) heq

def remove (m : Touched K V) (k : K) : Touched K V where
  keys := m.keys.erase k
  value := Function.update m.value k none
  touched := m.touched
  now := m.now
  mem_keys k' := by
    rw [Finset.mem_erase, m.mem_keys]
    by_cases h : k' = k
    · simp [h]
    · simp [h]
  touched_lt k' hk' := m.touched_lt k' (Finset.mem_of_mem_erase hk')
  injOn := m.injOn.mono fun _ hk' => Finset.mem_of_mem_erase hk'

end Touched

/-! ## A bounded map with counters -/

structure Counted (K V : Type) where
  map : Touched K V
  hits : ℕ
  misses : ℕ
  evictions : ℕ

namespace Counted

def empty : Counted K V := ⟨.empty, 0, 0, 0⟩

def size (c : Counted K V) : ℕ := c.map.keys.card

def has (c : Counted K V) (k : K) : Bool := (c.map.value k).isSome

/-- A forgotten key counts neither as a miss nor as an eviction. -/
def clear (c : Counted K V) : Counted K V := { c with map := .empty }

variable [DecidableEq K]

def get (c : Counted K V) (k : K) : Option V × Counted K V :=
  match c.map.value k with
  | none => (none, { c with misses := c.misses + 1 })
  | some v => (some v, { c with map := c.map.put k v, hits := c.hits + 1 })

/-- Makes room for a key that is not held, by the key touched least recently. -/
noncomputable def makeRoom (capacity : ℕ) (c : Counted K V) (k : K) : Counted K V :=
  if k ∈ c.map.keys ∨ c.size < capacity then c
  else
    match c.map.oldest with
    | none => c
    | some old => { c with map := c.map.remove old, evictions := c.evictions + 1 }

noncomputable def set (capacity : ℕ) (c : Counted K V) (k : K) (v : V) : Counted K V :=
  { makeRoom capacity c k with map := (makeRoom capacity c k).map.put k v }

section

variable {capacity : ℕ} {c : Counted K V} {k old : K}

theorem makeRoom_of_room (h : k ∈ c.map.keys ∨ c.size < capacity) : makeRoom capacity c k = c :=
  if_pos h

theorem makeRoom_of_full (hk : k ∉ c.map.keys) (hfull : capacity ≤ c.size)
    (hold : c.map.IsOldest old) :
    makeRoom capacity c k =
      { c with map := c.map.remove old, evictions := c.evictions + 1 } := by
  rw [makeRoom, if_neg (not_or.2 ⟨hk, hfull.not_gt⟩), Touched.oldest_eq_some_iff.2 hold]

theorem keys_set_of_room (h : k ∈ c.map.keys ∨ c.size < capacity) (v : V) :
    (c.set capacity k v).map.keys = insert k c.map.keys := by
  rw [set, makeRoom_of_room h]
  rfl

theorem keys_set_of_full (hk : k ∉ c.map.keys) (hfull : capacity ≤ c.size)
    (hold : c.map.IsOldest old) (v : V) :
    (c.set capacity k v).map.keys = insert k (c.map.keys.erase old) := by
  rw [set, makeRoom_of_full hk hfull hold]
  rfl

theorem size_get (c : Counted K V) (k : K) : (c.get k).2.size = c.size := by
  rw [get]
  cases hk : c.map.value k with
  | none => rfl
  | some v =>
    have hmem : k ∈ c.map.keys := (c.map.mem_keys k).2 (hk ▸ rfl)
    exact congrArg Finset.card (Finset.insert_eq_of_mem hmem)

/-- A map of positive capacity never outgrows it. -/
theorem size_set_le (hcapacity : 1 ≤ capacity) (h : c.size ≤ capacity) (k : K) (v : V) :
    (c.set capacity k v).size ≤ capacity := by
  change (c.set capacity k v).map.keys.card ≤ capacity
  by_cases hk : k ∈ c.map.keys
  · rw [keys_set_of_room (.inl hk), Finset.insert_eq_of_mem hk]
    exact h
  · by_cases hroom : c.size < capacity
    · rw [keys_set_of_room (.inr hroom), Finset.card_insert_of_notMem hk]
      exact hroom
    · have hfull : capacity ≤ c.size := not_lt.1 hroom
      have hpos : c.map.keys.Nonempty := Finset.card_pos.1 (hcapacity.trans hfull)
      obtain ⟨old, hold⟩ := c.map.exists_isOldest hpos
      have hnot : k ∉ c.map.keys.erase old := fun hmem => hk (Finset.mem_of_mem_erase hmem)
      rw [keys_set_of_full hk hfull hold, Finset.card_insert_of_notMem hnot,
        Finset.card_erase_of_mem hold.1]
      have hsize : c.map.keys.card ≤ capacity := h
      omega

end

end Counted

/-! ## Lists in the order of the last touches -/

structure Represents (l : List (K × V)) (m : Touched K V) : Prop where
  mem_iff : ∀ k v, (k, v) ∈ l ↔ m.value k = some v
  sorted : l.Pairwise fun e e' => m.touched e.1 < m.touched e'.1

namespace Represents

variable {l : List (K × V)} {m : Touched K V} {e : K × V}

theorem empty : Represents ([] : List (K × V)) Touched.empty where
  mem_iff _ _ := ⟨nofun, nofun⟩
  sorted := .nil

theorem mem_keys_iff (h : Represents l m) (k : K) : k ∈ m.keys ↔ k ∈ l.map Prod.fst := by
  rw [m.mem_keys, Option.isSome_iff_exists, List.mem_map]
  constructor
  · rintro ⟨v, hv⟩
    exact ⟨(k, v), (h.mem_iff k v).2 hv, rfl⟩
  · rintro ⟨e, he, rfl⟩
    exact ⟨e.2, (h.mem_iff e.1 e.2).1 he⟩

theorem nodup (h : Represents l m) : (l.map Prod.fst).Nodup :=
  List.pairwise_map.2 (h.sorted.imp fun hlt heq => hlt.ne (congrArg m.touched heq))

theorem length_eq [DecidableEq K] (h : Represents l m) : l.length = m.keys.card := by
  have hkeys : m.keys = (l.map Prod.fst).toFinset := by
    ext k
    rw [List.mem_toFinset, h.mem_keys_iff k]
  rw [hkeys, List.toFinset_card_of_nodup h.nodup, List.length_map]

theorem oldest (h : Represents (e :: l) m) : m.oldest = some e.1 := by
  refine Touched.oldest_eq_some_iff.2 ⟨?_, ?_⟩
  · exact (h.mem_keys_iff e.1).2 List.mem_cons_self
  · intro k hk
    obtain ⟨e', he', rfl⟩ := List.mem_map.1 ((h.mem_keys_iff k).1 hk)
    rcases List.mem_cons.1 he' with rfl | he'
    · exact le_rfl
    · exact ((List.pairwise_cons.1 h.sorted).1 e' he').le

variable [DecidableEq K]

theorem tail (h : Represents (e :: l) m) : Represents l (m.remove e.1) where
  mem_iff k v := by
    change (k, v) ∈ l ↔ Function.update m.value e.1 none k = some v
    by_cases hk : k = e.1
    · rw [hk, Function.update_self]
      refine ⟨fun hmem => absurd ?_ (List.nodup_cons.1 h.nodup).1, nofun⟩
      exact List.mem_map.2 ⟨(e.1, v), hmem, rfl⟩
    · rw [Function.update_of_ne hk, ← h.mem_iff k v, List.mem_cons]
      exact ⟨.inr, fun hmem => hmem.resolve_left fun heq => hk (congrArg Prod.fst heq)⟩
  sorted := (List.pairwise_cons.1 h.sorted).2

/-- A key that is put moves to the end, whether it was held or not. -/
theorem put (h : Represents l m) (k : K) (v : V) :
    Represents ((l.filter fun e => e.1 ≠ k) ++ [(k, v)]) (m.put k v) where
  mem_iff k' v' := by
    change _ ↔ Function.update m.value k (some v) k' = some v'
    rw [List.mem_append, List.mem_filter, List.mem_singleton, decide_eq_true_iff]
    by_cases hk : k' = k
    · subst hk
      rw [Function.update_self, Option.some.injEq, Prod.mk.injEq]
      simp [eq_comm]
    · rw [Function.update_of_ne hk, ← h.mem_iff k' v', Prod.mk.injEq]
      simp [hk]
  sorted := by
    refine List.pairwise_append.2 ⟨?_, List.pairwise_singleton _ _, ?_⟩
    · refine (h.sorted.filter _).imp_of_mem fun {e₁ e₂} h₁ h₂ hlt => ?_
      change Function.update m.touched k m.now e₁.1 < Function.update m.touched k m.now e₂.1
      rw [Function.update_of_ne (of_decide_eq_true (List.mem_filter.1 h₁).2),
        Function.update_of_ne (of_decide_eq_true (List.mem_filter.1 h₂).2)]
      exact hlt
    · intro e₁ h₁ e₂ h₂
      rw [List.mem_singleton.1 h₂]
      change Function.update m.touched k m.now e₁.1 < Function.update m.touched k m.now k
      rw [Function.update_self, Function.update_of_ne (of_decide_eq_true (List.mem_filter.1 h₁).2)]
      refine m.touched_lt e₁.1 ((h.mem_keys_iff e₁.1).2 ?_)
      exact List.mem_map.2 ⟨e₁, (List.mem_filter.1 h₁).1, rfl⟩

end Represents

end Lru
