import Mathlib.Data.List.Basic

/-!
# Maps of a JavaScript program

A `Map` whose order of iteration is not used: the entry set last stands first.

## Main definitions

- `Js.Entries.get`, `Js.Entries.set`, `Js.Entries.delete`

## Main results

- `Js.Entries.get_set_self`, `Js.Entries.get_set_of_ne`, `Js.Entries.get_delete_of_ne`
-/

namespace Js

abbrev Entries (κ ν : Type) := List (κ × ν)

namespace Entries

variable {κ ν : Type} [DecidableEq κ]

def get (m : Entries κ ν) (k : κ) : Option ν := m.lookup k

def delete (m : Entries κ ν) (k : κ) : Entries κ ν := m.filter fun e => e.1 ≠ k

def set (m : Entries κ ν) (k : κ) (v : ν) : Entries κ ν := (k, v) :: m.delete k

@[simp] theorem get_nil (k : κ) : get ([] : Entries κ ν) k = none := rfl

theorem get_cons (k k' : κ) (v : ν) (m : Entries κ ν) :
    get ((k, v) :: m) k' = if k' = k then some v else m.get k' := by
  rw [get, List.lookup_cons]
  by_cases h : k' = k
  · rw [if_pos h, beq_iff_eq.2 h]
  · rw [if_neg h, beq_false_of_ne h, get]

theorem get_eq_none {m : Entries κ ν} {k : κ} (h : k ∉ m.map Prod.fst) : m.get k = none := by
  rw [get, List.lookup_eq_none_iff]
  intro e he
  simpa using fun heq => h (List.mem_map.2 ⟨e, he, heq.symm⟩)

/-- A value for every key of a list. -/
theorem get_map (ks : List κ) (f : κ → ν) (k : κ) :
    get (ks.map fun l => (l, f l)) k = if k ∈ ks then some (f k) else none := by
  induction ks with
  | nil => rfl
  | cons l ks ih =>
    rw [List.map_cons, get_cons]
    by_cases hl : k = l
    · rw [if_pos hl, hl, if_pos List.mem_cons_self]
    · rw [if_neg hl, ih]
      by_cases hk : k ∈ ks
      · rw [if_pos hk, if_pos (List.mem_cons_of_mem _ hk)]
      · rw [if_neg hk, if_neg fun h => (List.mem_cons.1 h).elim hl hk]

theorem get_append (m m' : Entries κ ν) (k : κ) : get (m ++ m') k = (m.get k).or (m'.get k) :=
  List.lookup_append

theorem get_delete_of_ne (m : Entries κ ν) {k k' : κ} (h : k' ≠ k) :
    (m.delete k).get k' = m.get k' := by
  rw [delete]
  induction m with
  | nil => rfl
  | cons e es ih =>
    obtain ⟨l, v⟩ := e
    by_cases hl : l = k
    · rw [List.filter_cons_of_neg (by simpa using hl), ih, get_cons, if_neg (hl ▸ h)]
    · rw [List.filter_cons_of_pos (by simpa using hl), get_cons, get_cons, ih]

@[simp] theorem get_delete_self (m : Entries κ ν) (k : κ) : (m.delete k).get k = none := by
  refine get_eq_none fun hk => ?_
  obtain ⟨e, he, rfl⟩ := List.mem_map.1 hk
  exact of_decide_eq_true (List.mem_filter.1 he).2 rfl

theorem get_delete (m : Entries κ ν) (k k' : κ) :
    (m.delete k).get k' = if k' = k then none else m.get k' := by
  by_cases h : k' = k
  · rw [if_pos h, h, get_delete_self]
  · rw [if_neg h, get_delete_of_ne m h]

theorem eq_nil_iff {m : Entries κ ν} : m = [] ↔ ∀ k, m.get k = none := by
  constructor
  · rintro rfl k
    exact get_nil k
  · intro h
    cases m with
    | nil => rfl
    | cons e m =>
      have hget : get (e :: m) e.1 = some e.2 := by rw [get_cons, if_pos rfl]
      rw [h e.1] at hget
      cases hget

@[simp] theorem get_set_self (m : Entries κ ν) (k : κ) (v : ν) : (m.set k v).get k = some v :=
  List.lookup_cons_self

theorem get_set_of_ne (m : Entries κ ν) {k k' : κ} (v : ν) (h : k' ≠ k) :
    (m.set k v).get k' = m.get k' := by
  rw [set, get_cons, if_neg h]
  exact get_delete_of_ne m h

/-- A value set for every key of a list. -/
theorem get_foldl_set (ks : List κ) (f : κ → ν) (m : Entries κ ν) (k : κ) :
    get (ks.foldl (fun m l => m.set l (f l)) m) k = if k ∈ ks then some (f k) else m.get k := by
  induction ks generalizing m with
  | nil => rw [if_neg List.not_mem_nil, List.foldl_nil]
  | cons l ks ih =>
    rw [List.foldl_cons, ih]
    by_cases hk : k ∈ ks
    · rw [if_pos hk, if_pos (List.mem_cons_of_mem _ hk)]
    · rw [if_neg hk]
      by_cases hl : k = l
      · rw [hl, get_set_self, if_pos List.mem_cons_self]
      · rw [get_set_of_ne m _ hl, if_neg fun h => (List.mem_cons.1 h).elim hl hk]

theorem mem_set {m : Entries κ ν} {k : κ} {v : ν} {e : κ × ν} (h : e ∈ m.set k v) :
    e = (k, v) ∨ e ∈ m :=
  (List.mem_cons.1 h).imp id fun h => (List.mem_filter.1 h).1

end Entries

end Js
