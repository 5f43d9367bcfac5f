import Mathlib.Data.Finset.Card
import Mathlib.Data.Finset.Dedup
import Mathlib.Data.List.Nodup
import Mathlib.Data.List.TakeWhile

/-!
# The keys of a history, the one touched last first

A history lists what was touched, the latest first. Among its keys, one stands after exactly those
that were touched after it was touched last.

## Main definitions

- `Recency.order` — the keys, each where it was touched last
- `Recency.since` — the keys touched after the last touch of a key

## Main results

- `Recency.mem_take_order` — a key is among the latest `n` iff fewer than `n` others came after it
- `Recency.take_order_of_mem`, `Recency.take_order_of_room`, `Recency.take_order_of_full` — the
  latest `n` keys after one more touch
-/

namespace Recency

variable {K V : Type} [DecidableEq K]

def order : List (K × V) → List K
  | [] => []
  | e :: log => e.1 :: (order log).filter (· ≠ e.1)

def since (log : List (K × V)) (k : K) : Finset K :=
  ((log.takeWhile (·.1 ≠ k)).map Prod.fst).toFinset

variable {log : List (K × V)} {k : K} {n : ℕ}

theorem nodup_order (log : List (K × V)) : (order log).Nodup := by
  induction log with
  | nil => exact List.nodup_nil
  | cons e log ih =>
    rw [order, List.nodup_cons]
    exact ⟨fun h => of_decide_eq_true (List.mem_filter.1 h).2 rfl, ih.filter _⟩

theorem mem_order : k ∈ order log ↔ ∃ v, log.lookup k = some v := by
  induction log with
  | nil => simp [order]
  | cons e log ih =>
    obtain ⟨k', v'⟩ := e
    rw [order, List.mem_cons, List.mem_filter, decide_eq_true_iff, ih, List.lookup_cons]
    by_cases h : k = k'
    · rw [h, beq_self_eq_true]
      exact iff_of_true (.inl rfl) ⟨v', rfl⟩
    · rw [beq_false_of_ne h, or_iff_right h, and_iff_left h]

theorem mem_map_fst : k ∈ log.map Prod.fst ↔ ∃ v, log.lookup k = some v := by
  induction log with
  | nil => simp
  | cons e log ih =>
    obtain ⟨k', v'⟩ := e
    rw [List.map_cons, List.mem_cons, List.lookup_cons]
    by_cases h : k = k'
    · rw [h, beq_self_eq_true]
      exact iff_of_true (.inl rfl) ⟨v', rfl⟩
    · rw [beq_false_of_ne h, or_iff_right h, ih]

theorem card_since_lt (hk : k ∈ log.map Prod.fst) :
    (since log k).card < (log.map Prod.fst).toFinset.card := by
  have hsub : since log k ⊆ (log.map Prod.fst).toFinset := fun k' hk' =>
    List.mem_toFinset.2 (List.map_subset _ (List.takeWhile_sublist _).subset
      (List.mem_toFinset.1 hk'))
  refine Finset.card_lt_card ((Finset.ssubset_iff_of_subset hsub).2
    ⟨k, List.mem_toFinset.2 hk, fun hmem => ?_⟩)
  obtain ⟨e, he, rfl⟩ := List.mem_map.1 (List.mem_toFinset.1 hmem)
  have hne := List.mem_takeWhile_imp he
  exact of_decide_eq_true hne rfl

/-- What stands before a key in a list is not affected when others are dropped. -/
theorem takeWhile_filter {a : K} (h : a ≠ k) (l : List K) :
    (l.filter (· ≠ a)).takeWhile (· ≠ k) = (l.takeWhile (· ≠ k)).filter (· ≠ a) := by
  induction l with
  | nil => rfl
  | cons b l ih =>
    by_cases hbk : b = k
    · subst hbk
      simp [Ne.symm h]
    · by_cases hba : b = a
      · subst hba
        simpa [hbk] using ih
      · simpa [hbk, hba] using ih

theorem toFinset_takeWhile_order (log : List (K × V)) (k : K) :
    ((order log).takeWhile (· ≠ k)).toFinset = since log k := by
  induction log with
  | nil => rfl
  | cons e log ih =>
    rw [order, since]
    by_cases h : e.1 = k
    · simp [h]
    · rw [List.takeWhile_cons_of_pos (by simpa using h),
        List.takeWhile_cons_of_pos (by simpa using h), takeWhile_filter h, List.map_cons,
        List.toFinset_cons, List.toFinset_cons, List.toFinset_filter, ih, since]
      ext x
      simp only [Finset.mem_insert, Finset.mem_filter, decide_eq_true_eq]
      tauto

theorem length_takeWhile_order (log : List (K × V)) (k : K) :
    ((order log).takeWhile (· ≠ k)).length = (since log k).card := by
  rw [← toFinset_takeWhile_order, List.toFinset_card_of_nodup]
  exact (nodup_order log).sublist (List.takeWhile_sublist _)

/-- In a list without repetitions, an item is among the first `n` iff fewer than `n` are before. -/
theorem mem_take_iff {l : List K} (hk : k ∈ l) :
    k ∈ l.take n ↔ (l.takeWhile (· ≠ k)).length < n := by
  induction l generalizing n with
  | nil => exact absurd hk List.not_mem_nil
  | cons a l ih =>
    cases n with
    | zero => simp
    | succ n =>
      by_cases h : a = k
      · simp [h]
      · rw [List.take_succ_cons, List.mem_cons, or_iff_right (Ne.symm h),
          ih ((List.mem_cons.1 hk).resolve_left (Ne.symm h)),
          List.takeWhile_cons_of_pos (by simpa using h), List.length_cons,
          Nat.add_lt_add_iff_right]

theorem mem_take_order (hk : k ∈ order log) :
    k ∈ (order log).take n ↔ (since log k).card < n := by
  rw [mem_take_iff hk, length_takeWhile_order]

/-! ## One more touch -/

theorem take_filter_of_mem {l : List K} (hl : l.Nodup) (hk : k ∈ l.take (n + 1)) :
    (l.filter (· ≠ k)).take n = (l.take (n + 1)).filter (· ≠ k) := by
  induction l generalizing n with
  | nil => simp
  | cons a l ih =>
    rw [List.nodup_cons] at hl
    by_cases h : a = k
    · subst h
      have hne : ∀ b ∈ l, decide (b ≠ a) = true := fun b hb =>
        decide_eq_true fun hba => hl.1 (hba ▸ hb)
      rw [List.take_succ_cons, List.filter_cons_of_neg (by simp), List.filter_cons_of_neg (by simp),
        List.filter_eq_self.2 hne, List.filter_eq_self.2 fun b hb => hne b (List.mem_of_mem_take hb)]
    · rw [List.take_succ_cons, List.mem_cons, or_iff_right (Ne.symm h)] at hk
      cases n with
      | zero => simp at hk
      | succ n =>
        rw [List.filter_cons_of_pos (by simpa using h), List.take_succ_cons, List.take_succ_cons,
          List.filter_cons_of_pos (by simpa using h), ih hl.2 hk]

theorem take_filter_of_notMem {l : List K} (hk : k ∉ l.take n) :
    (l.filter (· ≠ k)).take n = l.take n := by
  induction l generalizing n with
  | nil => rfl
  | cons a l ih =>
    cases n with
    | zero => rfl
    | succ n =>
      rw [List.take_succ_cons, List.mem_cons, not_or] at hk
      rw [List.filter_cons_of_pos (by simpa using Ne.symm hk.1), List.take_succ_cons,
        List.take_succ_cons, ih hk.2]

variable (v : V)

theorem take_order_of_mem (hk : k ∈ (order log).take n) :
    (order ((k, v) :: log)).take n = k :: ((order log).take n).filter (· ≠ k) := by
  cases n with
  | zero => simp at hk
  | succ n => rw [order, List.take_succ_cons, take_filter_of_mem (nodup_order log) hk]

theorem take_order_of_room (hk : k ∉ (order log).take n) (hroom : ((order log).take n).length < n) :
    (order ((k, v) :: log)).take n = k :: (order log).take n := by
  have hall : (order log).take n = order log := by
    rw [List.length_take] at hroom
    exact List.take_of_length_le (by omega)
  rw [hall] at hk hroom ⊢
  obtain ⟨m, rfl⟩ := Nat.exists_eq_add_one.2 (Nat.zero_lt_of_lt hroom)
  have hne : (order log).filter (· ≠ k) = order log :=
    List.filter_eq_self.2 fun a ha => decide_eq_true fun hak => hk (hak ▸ ha)
  rw [order, List.take_succ_cons, hne, List.take_of_length_le (Nat.le_of_lt_succ hroom)]

theorem take_order_of_full (hn : 1 ≤ n) (hk : k ∉ (order log).take n)
    (hfull : n ≤ ((order log).take n).length) :
    (order ((k, v) :: log)).take n = k :: ((order log).take n).dropLast := by
  obtain ⟨m, rfl⟩ := Nat.exists_eq_add_one.2 hn
  have hlast : ((order log).take (m + 1)).dropLast = (order log).take m := by
    have hlength : ((order log).take (m + 1)).length = m + 1 :=
      le_antisymm (List.length_take_le _ _) hfull
    rw [List.dropLast_eq_take, hlength, List.take_take, Nat.add_sub_cancel,
      min_eq_left (Nat.le_succ m)]
  have hm : k ∉ (order log).take m := fun h =>
    hk ((List.take_prefix_take_left (Nat.le_succ m)).subset h)
  rw [hlast, order, List.take_succ_cons, take_filter_of_notMem hm]

end Recency
