import Mathlib.Data.List.Basic
import Mathlib.Data.List.Sort

/-!
# Pages

A list is sorted by a key and read in pages of one size.

## Main definitions

- `Pages.orderByDesc` — the greatest key first
- `Pages.slice` — at most `limit` elements after the first `offset`

## Main results

- `Pages.flatMap_slice` — the pages together are the list
- `Pages.pairwise_orderByDesc` — the order is strict where no two elements have one key
-/

namespace Pages

variable {α κ : Type}

/-! ## The order -/

def orderByDesc [LinearOrder κ] (key : α → κ) (xs : List α) : List α :=
  xs.insertionSort fun a b => key b ≤ key a

theorem perm_orderByDesc [LinearOrder κ] (key : α → κ) (xs : List α) :
    (orderByDesc key xs).Perm xs :=
  List.perm_insertionSort _ _

theorem pairwise_le_orderByDesc [LinearOrder κ] (key : α → κ) (xs : List α) :
    (orderByDesc key xs).Pairwise fun a b => key b ≤ key a := by
  have htotal : Std.Total fun a b : α => key b ≤ key a := ⟨fun a b => le_total _ _⟩
  have htrans : IsTrans α fun a b => key b ≤ key a := ⟨fun a b c hab hbc => hbc.trans hab⟩
  exact List.pairwise_insertionSort _ _

theorem pairwise_orderByDesc [LinearOrder κ] (key : α → κ) {xs : List α}
    (h : (xs.map key).Nodup) : (orderByDesc key xs).Pairwise fun a b => key b < key a := by
  have hle := pairwise_le_orderByDesc key xs
  have hne : (orderByDesc key xs).Pairwise fun a b => key a ≠ key b :=
    List.pairwise_map.1 (((perm_orderByDesc key xs).map key).nodup_iff.2 h)
  exact hle.imp₂ (fun a b hab hne => hab.lt_of_ne hne.symm) hne

/-! ## The pages -/

/-- `LIMIT limit OFFSET offset`. -/
def slice (limit offset : ℕ) (xs : List α) : List α := (xs.drop offset).take limit

theorem length_slice_of_le {limit offset : ℕ} {xs : List α} (h : offset + limit ≤ xs.length) :
    (slice limit offset xs).length = limit := by
  rw [slice, List.length_take, List.length_drop]
  omega

theorem flatMap_slice_eq_take (size n : ℕ) (xs : List α) :
    (List.range n).flatMap (fun k => slice size (k * size) xs) = xs.take (n * size) := by
  induction n with
  | zero => simp
  | succ n ih =>
    rw [List.range_succ, List.flatMap_append, ih, List.flatMap_singleton, Nat.succ_mul,
      List.take_add, slice]

/-- As many pages as cover the list are the list. -/
theorem flatMap_slice {size n : ℕ} {xs : List α} (h : xs.length ≤ n * size) :
    (List.range n).flatMap (fun k => slice size (k * size) xs) = xs := by
  rw [flatMap_slice_eq_take, List.take_of_length_le h]

end Pages
