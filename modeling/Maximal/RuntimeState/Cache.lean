import Maximal.Lib.Js.OrderedMap
import Maximal.Lib.Lru

/-!
# The in-process cache

`Cache` keeps its entries in a `Map` and reads recency off the order of insertion: a key that is
read or overwritten is deleted and inserted again, and the first key is the one to evict.

## Main definitions

- `Cache.get`, `Cache.set`, `Cache.has`, `Cache.clear`, `Cache.metrics`
- `Cache.run` — the answers to a sequence of operations, and the cache after it
- `Reference.run` — the same sequence on a map that knows when each key was touched last
- `Cache.Refines` — the entries stand in the order of the last touches, the counters agree

## Main results

- `Cache.step_refines` — one operation
- `cache_refines_lru`
-/

namespace Maximal.RuntimeState

open Js (OrderedMap)
open Lru (Counted Represents)

variable {K V : Type}

/-! ## The cache -/

structure LruCacheMetrics where
  name : String
  size : ℕ
  max : ℕ
  hits : ℕ
  misses : ℕ
  evictions : ℕ
  deriving DecidableEq

structure Cache (K V : Type) where
  name : String
  max : ℕ
  store : OrderedMap K V
  hits : ℕ
  misses : ℕ
  evictions : ℕ

namespace Cache

def new (name : String) (max : ℕ) : Cache K V := ⟨name, max, .empty, 0, 0, 0⟩

def size (c : Cache K V) : ℕ := c.store.size

def metrics (c : Cache K V) : LruCacheMetrics :=
  ⟨c.name, c.size, c.max, c.hits, c.misses, c.evictions⟩

def clear (c : Cache K V) : Cache K V := { c with store := .empty }

variable [DecidableEq K]

def has (c : Cache K V) (key : K) : Bool := c.store.has key

def get (c : Cache K V) (key : K) : Option V × Cache K V :=
  match c.store.get key with
  | none => (none, { c with misses := c.misses + 1 })
  | some value =>
    -- deleted and set again, it stands last
    (some value, { c with store := (c.store.delete key).set key value, hits := c.hits + 1 })

def evictFirst (c : Cache K V) : Cache K V :=
  match c.store.firstKey with
  | none => c
  | some firstKey =>
    { c with store := c.store.delete firstKey, evictions := c.evictions + 1 }

def set (c : Cache K V) (key : K) (value : V) : Cache K V :=
  if c.store.has key then { c with store := (c.store.delete key).set key value }
  else
    let room := if c.max ≤ c.store.size then c.evictFirst else c
    { room with store := room.store.set key value }

end Cache

/-! ## Sequences of operations -/

inductive Op (K V : Type) where
  | get (key : K)
  | set (key : K) (value : V)
  | has (key : K)
  | clear

inductive Answer (V : Type) where
  | value (value : Option V)
  | held (held : Bool)
  | done
  deriving DecidableEq

section

variable [DecidableEq K]

namespace Cache

def step (c : Cache K V) : Op K V → Answer V × Cache K V
  | .get key => (.value (c.get key).1, (c.get key).2)
  | .set key value => (.done, c.set key value)
  | .has key => (.held (c.has key), c)
  | .clear => (.done, c.clear)

def run (c : Cache K V) : List (Op K V) → List (Answer V) × Cache K V
  | [] => ([], c)
  | op :: ops => ((c.step op).1 :: ((c.step op).2.run ops).1, ((c.step op).2.run ops).2)

end Cache

/-- A least recently used map of bounded size that is asked the same. -/
noncomputable def Reference.step (capacity : ℕ) (r : Counted K V) : Op K V → Answer V × Counted K V
  | .get key => (.value (r.get key).1, (r.get key).2)
  | .set key value => (.done, r.set capacity key value)
  | .has key => (.held (r.has key), r)
  | .clear => (.done, r.clear)

noncomputable def Reference.run (capacity : ℕ) (r : Counted K V) :
    List (Op K V) → List (Answer V) × Counted K V
  | [] => ([], r)
  | op :: ops =>
    ((step capacity r op).1 :: (run capacity (step capacity r op).2 ops).1,
      (run capacity (step capacity r op).2 ops).2)

end

/-! ## The simulation -/

namespace Cache

/-- The entries stand in the order of their last touches, and the counters agree. -/
structure Refines (c : Cache K V) (r : Counted K V) : Prop where
  store : Represents c.store.entries r.map
  hits : c.hits = r.hits
  misses : c.misses = r.misses
  evictions : c.evictions = r.evictions

theorem new_refines (name : String) (max : ℕ) :
    (new name max : Cache K V).Refines .empty where
  store := .empty
  hits := rfl
  misses := rfl
  evictions := rfl

variable {c : Cache K V} {r : Counted K V}

namespace Refines

theorem size [DecidableEq K] (h : c.Refines r) : c.size = r.size := h.store.length_eq

theorem clear (h : c.Refines r) : c.clear.Refines r.clear where
  store := .empty
  hits := h.hits
  misses := h.misses
  evictions := h.evictions

variable [DecidableEq K]

theorem get_store (h : c.Refines r) (key : K) : c.store.get key = r.map.value key := by
  refine Option.ext fun v => ?_
  exact (c.store.get_eq_some_iff key v).trans (h.store.mem_iff key v)

theorem has (h : c.Refines r) (key : K) : c.has key = r.has key := by
  rw [Cache.has, Js.OrderedMap.has_eq_isSome, h.get_store key, Counted.has]

theorem mem_keys (h : c.Refines r) (key : K) : key ∈ r.map.keys ↔ c.store.has key = true := by
  rw [h.store.mem_keys_iff]
  exact (decide_eq_true_iff (p := key ∈ c.store.keys)).symm

/-- A key that is deleted and set again stands where a touch puts it. -/
theorem store_delete_set (h : c.Refines r) (key : K) (value : V) :
    Represents ((c.store.delete key).set key value).entries (r.map.put key value) := by
  rw [Js.OrderedMap.entries_delete_set]
  exact h.store.put key value

/-- A new key is set at the end as well. -/
theorem store_set (h : c.Refines r) {key : K} (hkey : key ∉ c.store.keys) (value : V) :
    Represents (c.store.set key value).entries (r.map.put key value) := by
  rw [Js.OrderedMap.entries_set_of_notMem _ _ _ hkey,
    ← Js.OrderedMap.entries_delete_of_notMem _ _ hkey]
  exact h.store.put key value

theorem get (h : c.Refines r) (key : K) :
    (c.get key).1 = (r.get key).1 ∧ (c.get key).2.Refines (r.get key).2 := by
  rw [Cache.get, Counted.get, h.get_store key]
  cases r.map.value key with
  | none => exact ⟨rfl, h.store, h.hits, congrArg (· + 1) h.misses, h.evictions⟩
  | some value =>
    exact ⟨rfl, h.store_delete_set key value, congrArg (· + 1) h.hits, h.misses, h.evictions⟩

/-- Making room brings no key in. -/
theorem notMem_keys_room {key : K} (hkey : c.store.has key = false) :
    key ∉ (if c.max ≤ c.store.size then c.evictFirst else c).store.keys := by
  have hnot : key ∉ c.store.keys := of_decide_eq_false hkey
  split
  · rw [Cache.evictFirst]
    split
    · exact hnot
    · exact fun hmem => hnot (OrderedMap.keys_delete_subset _ _ hmem)
  · exact hnot

/-- The first key is the one touched least recently. -/
theorem evictFirst (h : c.Refines r) {e : K × V} {es : List (K × V)}
    (hentries : c.store.entries = e :: es) :
    r.map.oldest = some e.1 ∧ c.evictFirst =
      { c with store := c.store.delete e.1, evictions := c.evictions + 1 } ∧
      c.evictFirst.Refines { r with map := r.map.remove e.1, evictions := r.evictions + 1 } := by
  have hstore : Represents (e :: es) r.map := hentries ▸ h.store
  have hevict : c.evictFirst =
      { c with store := c.store.delete e.1, evictions := c.evictions + 1 } := by
    rw [Cache.evictFirst, OrderedMap.firstKey, hentries]
    rfl
  refine ⟨hstore.oldest, hevict, ?_⟩
  rw [hevict]
  refine ⟨?_, h.hits, h.misses, congrArg (· + 1) h.evictions⟩
  rw [Js.OrderedMap.entries_delete_firstKey _ e es hentries]
  exact hstore.tail

/-- Room is made in both or in neither. -/
theorem makeRoom (h : c.Refines r) {key : K} (hkey : c.store.has key = false) :
    (if c.max ≤ c.store.size then c.evictFirst else c).Refines (r.makeRoom c.max key) := by
  have hnot : key ∉ r.map.keys := by
    rw [h.mem_keys, hkey]
    exact Bool.false_ne_true
  have hsize : c.store.size = r.size := h.size
  rw [Counted.makeRoom]
  by_cases hfull : c.max ≤ c.store.size
  · rw [if_pos hfull, if_neg (not_or.2 ⟨hnot, by omega⟩)]
    cases hentries : c.store.entries with
    | nil =>
      -- Only a cache of capacity zero is full when it is empty.
      have hfirst : c.evictFirst = c := by rw [Cache.evictFirst, OrderedMap.firstKey, hentries]; rfl
      have hnone : r.map.oldest = none := by
        refine Option.eq_none_iff_forall_not_mem.2 fun k hk => ?_
        have hmem := (h.store.mem_keys_iff k).1 (Lru.Touched.oldest_eq_some_iff.1 hk).1
        rw [hentries] at hmem
        exact List.not_mem_nil hmem
      rw [hfirst, hnone]
      exact h
    | cons e es =>
      obtain ⟨holdest, -, hrefines⟩ := h.evictFirst hentries
      rw [holdest]
      exact hrefines
  · rw [if_neg hfull, if_pos (.inr (by omega))]
    exact h

theorem set (h : c.Refines r) (key : K) (value : V) :
    (c.set key value).Refines (r.set c.max key value) := by
  rw [Cache.set, Counted.set]
  cases hkey : c.store.has key with
  | true =>
    -- a key that is there needs no room
    rw [if_pos rfl, Counted.makeRoom, if_pos (.inl ((h.mem_keys key).2 hkey))]
    exact ⟨h.store_delete_set key value, h.hits, h.misses, h.evictions⟩
  | false =>
    rw [if_neg Bool.false_ne_true]
    have hroom := h.makeRoom hkey
    exact ⟨hroom.store_set (notMem_keys_room hkey) value, hroom.hits, hroom.misses,
      hroom.evictions⟩

end Refines

variable [DecidableEq K]

theorem step_refines (h : c.Refines r) (op : Op K V) :
    (c.step op).1 = (Reference.step c.max r op).1 ∧
      (c.step op).2.Refines (Reference.step c.max r op).2 := by
  cases op with
  | get key =>
    obtain ⟨hanswer, hrefines⟩ := h.get key
    exact ⟨congrArg Answer.value hanswer, hrefines⟩
  | set key value => exact ⟨rfl, h.set key value⟩
  | has key => exact ⟨congrArg Answer.held (h.has key), h⟩
  | clear => exact ⟨rfl, h.clear⟩

/-! ### What no operation changes, and the bound on the size -/

theorem evictFirst_max (c : Cache K V) : c.evictFirst.max = c.max := by
  rw [evictFirst]
  split <;> rfl

theorem evictFirst_name (c : Cache K V) : c.evictFirst.name = c.name := by
  rw [evictFirst]
  split <;> rfl

theorem step_name_max (c : Cache K V) (op : Op K V) :
    (c.step op).2.name = c.name ∧ (c.step op).2.max = c.max := by
  cases op with
  | get key =>
    change (c.get key).2.name = c.name ∧ (c.get key).2.max = c.max
    rw [get]
    split <;> exact ⟨rfl, rfl⟩
  | set key value =>
    change (c.set key value).name = c.name ∧ (c.set key value).max = c.max
    rw [set]
    split
    · exact ⟨rfl, rfl⟩
    · dsimp only
      split
      · exact ⟨c.evictFirst_name, c.evictFirst_max⟩
      · exact ⟨rfl, rfl⟩
  | has key => exact ⟨rfl, rfl⟩
  | clear => exact ⟨rfl, rfl⟩

end Cache

namespace Reference

variable [DecidableEq K] {capacity : ℕ} {r : Counted K V}

theorem step_size_le (hcapacity : 1 ≤ capacity) (h : r.size ≤ capacity) (op : Op K V) :
    (step capacity r op).2.size ≤ capacity := by
  cases op with
  | get key => exact (Counted.size_get r key).trans_le h
  | set key value => exact Counted.size_set_le hcapacity h key value
  | has key => exact h
  | clear => exact Nat.zero_le capacity

theorem run_size_le (hcapacity : 1 ≤ capacity) (h : r.size ≤ capacity) (ops : List (Op K V)) :
    (run capacity r ops).2.size ≤ capacity := by
  induction ops generalizing r with
  | nil => exact h
  | cons op ops ih => exact ih (step_size_le hcapacity h op)

end Reference

namespace Cache

variable [DecidableEq K] {c : Cache K V} {r : Counted K V}

/-- What holds of one operation holds of a sequence. -/
theorem run_refines (h : c.Refines r) (ops : List (Op K V)) :
    (c.run ops).1 = (Reference.run c.max r ops).1 ∧
      (c.run ops).2.Refines (Reference.run c.max r ops).2 ∧
      (c.run ops).2.name = c.name ∧ (c.run ops).2.max = c.max := by
  induction ops generalizing c r with
  | nil => exact ⟨rfl, h, rfl, rfl⟩
  | cons op ops ih =>
    -- the capacity of the reference is that of the cache, which no operation changes
    obtain ⟨hanswer, hrefines⟩ := step_refines h op
    obtain ⟨hname, hmax⟩ := c.step_name_max op
    obtain ⟨hanswers, hrun, hrunName, hrunMax⟩ := ih hrefines
    rw [hmax] at hanswers hrun hrunMax
    exact ⟨congrArg₂ List.cons hanswer hanswers, hrun, hrunName.trans hname, hrunMax⟩

/-- A new key drives out the key touched least recently, and only from a full cache. -/
theorem Refines.has_set (h : c.Refines r) (hmax : 1 ≤ c.max) (key : K) (value : V) :
    (c.has key = true ∨ c.size < c.max →
      ∀ k, (c.set key value).has k = true ↔ k = key ∨ c.has k = true) ∧
    (c.has key = false → c.max ≤ c.size →
      ∃ old, r.map.IsOldest old ∧
        ∀ k, (c.set key value).has k = true ↔ k = key ∨ k ≠ old ∧ c.has k = true) := by
  have hset : ∀ k, k ∈ (r.set c.max key value).map.keys ↔ (c.set key value).has k = true :=
    fun k => (h.set key value).mem_keys k
  constructor
  · intro hroom k
    have hroom' : key ∈ r.map.keys ∨ r.size < c.max :=
      hroom.imp (h.mem_keys key).2 fun hlt => h.size ▸ hlt
    rw [← hset, Counted.keys_set_of_room hroom', Finset.mem_insert, h.mem_keys]
    exact Iff.rfl
  · intro hkey hfull
    have hnot : key ∉ r.map.keys := by
      rw [h.mem_keys]
      exact fun hhas => Bool.false_ne_true (hkey.symm.trans hhas)
    have hfull' : c.max ≤ r.size := h.size ▸ hfull
    obtain ⟨old, hold⟩ := r.map.exists_isOldest (Finset.card_pos.1 (hmax.trans hfull'))
    refine ⟨old, hold, fun k => ?_⟩
    rw [← hset, Counted.keys_set_of_full hnot hfull' hold, Finset.mem_insert, Finset.mem_erase,
      h.mem_keys]
    exact Iff.rfl

end Cache

/-- For every sequence of operations the cache answers as the least recently used map of its
capacity does, is never larger, shows the same counters, and the next key it drives out, if any,
is the one touched least recently. -/
theorem cache_refines_lru [DecidableEq K] (name : String) (max : ℕ) (hmax : 1 ≤ max)
    (ops : List (Op K V)) :
    let c := ((Cache.new name max).run ops).2
    let r := (Reference.run max .empty ops).2
    ((Cache.new name max).run ops).1 = (Reference.run max .empty ops).1 ∧
      c.metrics = ⟨name, r.size, max, r.hits, r.misses, r.evictions⟩ ∧ c.size ≤ max ∧
      (∀ key, c.store.get key = r.map.value key) ∧
      ∀ key value,
        (c.has key = true ∨ c.size < max →
          ∀ k, (c.set key value).has k = true ↔ k = key ∨ c.has k = true) ∧
        (c.has key = false → max ≤ c.size →
          ∃ old, r.map.IsOldest old ∧
            ∀ k, (c.set key value).has k = true ↔ k = key ∨ k ≠ old ∧ c.has k = true) := by
  obtain ⟨hanswers, hrefines, hname, hmax'⟩ := Cache.run_refines (Cache.new_refines name max) ops
  have hsize := hrefines.size
  have hbound : (Reference.run max .empty ops).2.size ≤ max :=
    Reference.run_size_le (r := .empty) hmax (Nat.zero_le max) ops
  refine ⟨hanswers, ?_, hsize.trans_le hbound, hrefines.get_store, fun key value => ?_⟩
  · rw [Cache.metrics, hname, hmax', hsize, hrefines.hits, hrefines.misses, hrefines.evictions]
    rfl
  · have hhas := hrefines.has_set (hmax'.symm ▸ hmax) key value
    rw [hmax'] at hhas
    exact hhas

/-- A read makes the second key the one to go. -/
theorem cache_refines_lru_reread :
    let ops : List (Op ℕ ℕ) := [.set 1 10, .set 2 20, .get 1, .set 3 30, .get 2, .has 1]
    (Reference.run 2 .empty ops).1 =
        [.done, .done, .value (some 10), .done, .value none, .held true] ∧
      (Reference.run 2 .empty ops).2.evictions = 1 := by
  have h := cache_refines_lru "prefetch" 2 (by decide)
    [.set 1 10, .set 2 20, .get 1, .set 3 30, .get 2, .has (1 : ℕ)]
  exact ⟨h.1.symm, (congrArg LruCacheMetrics.evictions h.2.1).symm⟩

end Maximal.RuntimeState
