import Mathlib.Algebra.BigOperators.Group.List.Basic
import Mathlib.Data.Int.Lemmas
import Mathlib.Data.List.Dedup
import Mathlib.Data.List.Sort
import Mathlib.Tactic.Ring

/-!
# Windows of equal width

The integers are cut at the multiples of a width. A loop in steps of the width visits the windows
of a range, and grouping a list by the window of a coordinate loses none of its elements.

## Main definitions

- `Windows.floor`, `Windows.Holds` — the window of a number
- `Windows.starts` — the loop over the windows from one of them up to a bound
- `Windows.groupBy` — the elements of a list under their keys, in the order of the keys

## Main results

- `Windows.countP_starts` — every number of the range lies in exactly one window of the loop
- `Windows.length_starts_le_iff` — how many windows the loop visits
- `Windows.sum_fibres` — the sums over the groups add up to the sum over the list
-/

namespace Windows

abbrev Width := {w : ℤ // 0 < w}

variable (w : Width)

/-- The start of the window of `x`. -/
def floor (x : ℤ) : ℤ := x / w.1 * w.1

/-- The window from `s` holds `x`. -/
def Holds (s x : ℤ) : Prop := s ≤ x ∧ x < s + w.1

instance (s x : ℤ) : Decidable (Holds w s x) := inferInstanceAs (Decidable (_ ∧ _))

/-- From `t` in steps of the width, up to `stop`. -/
def starts (t stop : ℤ) : List ℤ :=
  if t < stop then t :: starts (t + w.1) stop else []
termination_by (stop - t).toNat
decreasing_by have := w.2; omega

variable {w}

theorem holds_floor (x : ℤ) : Holds w (floor w x) x := by
  have hw := w.2
  have hdiv := Int.mul_ediv_add_emod x w.1
  have hnonneg := Int.emod_nonneg x hw.ne'
  have hlt := Int.emod_lt_of_pos x hw
  rw [mul_comm] at hdiv
  exact ⟨by rw [floor]; omega, by rw [floor]; omega⟩

theorem dvd_floor (x : ℤ) : w.1 ∣ floor w x := ⟨x / w.1, mul_comm _ _⟩

/-- Two windows that hold one number are the same. -/
theorem Holds.eq_floor {s x : ℤ} (h : Holds w s x) (hs : w.1 ∣ s) : s = floor w x := by
  obtain ⟨k, rfl⟩ := hs
  have hk : x / w.1 = k := by
    refine (Int.ediv_eq_iff_of_pos w.2).2 ⟨?_, ?_⟩
    · rw [mul_comm]
      exact h.1
    · rw [mul_comm k]
      exact h.2
  rw [floor, hk, mul_comm]

theorem holds_iff {s : ℤ} (hs : w.1 ∣ s) (x : ℤ) : Holds w s x ↔ floor w x = s := by
  constructor
  · exact fun h => (h.eq_floor hs).symm
  · rintro rfl
    exact holds_floor x

theorem floor_mono {x y : ℤ} (h : x ≤ y) : floor w x ≤ floor w y :=
  mul_le_mul_of_nonneg_right (Int.ediv_le_ediv w.2 h) w.2.le

/-! ## The loop -/

theorem starts_of_lt {t stop : ℤ} (h : t < stop) :
    starts w t stop = t :: starts w (t + w.1) stop := by
  rw [starts, if_pos h]

theorem starts_of_le {t stop : ℤ} (h : stop ≤ t) : starts w t stop = [] := by
  rw [starts, if_neg (not_lt.2 h)]

theorem le_of_mem_starts {t stop s : ℤ} (h : s ∈ starts w t stop) : t ≤ s ∧ s < stop := by
  fun_induction starts w t stop with
  | case1 t hlt ih =>
    obtain rfl | h := List.mem_cons.1 h
    · exact ⟨le_rfl, hlt⟩
    · have hw := w.2
      have := ih h
      omega
  | case2 t hlt => simp at h

theorem dvd_of_mem_starts {t stop s : ℤ} (ht : w.1 ∣ t) (h : s ∈ starts w t stop) : w.1 ∣ s := by
  fun_induction starts w t stop with
  | case1 t hlt ih =>
    obtain rfl | h := List.mem_cons.1 h
    · exact ht
    · exact ih (ht.add (dvd_refl _)) h
  | case2 t hlt => simp at h

theorem isChain_starts (t stop : ℤ) :
    (starts w t stop).IsChain fun s s' => s' = s + w.1 := by
  fun_induction starts w t stop with
  | case1 t hlt ih =>
    rcases lt_or_ge (t + w.1) stop with h | h
    · rw [starts_of_lt h] at ih ⊢
      exact List.isChain_cons_cons.2 ⟨rfl, ih⟩
    · rw [starts_of_le h]
      exact List.IsChain.singleton _
  | case2 t hlt => exact List.IsChain.nil

theorem pairwise_starts (t stop : ℤ) : (starts w t stop).Pairwise (· < ·) := by
  fun_induction starts w t stop with
  | case1 t hlt ih =>
    refine List.pairwise_cons.2 ⟨fun s hs => ?_, ih⟩
    have hw := w.2
    have := (le_of_mem_starts hs).1
    omega
  | case2 t hlt => exact List.Pairwise.nil

theorem nodup_starts (t stop : ℤ) : (starts w t stop).Nodup :=
  (pairwise_starts t stop).imp fun h => h.ne

/-- The loop reaches every window between its first and the bound. -/
theorem mem_starts {t stop s : ℤ} (ht : w.1 ∣ t) (hs : w.1 ∣ s) (hle : t ≤ s) (hlt : s < stop) :
    s ∈ starts w t stop := by
  fun_induction starts w t stop with
  | case1 t hstop ih =>
    obtain rfl | hne := hle.eq_or_lt
    · exact List.mem_cons_self
    · refine List.mem_cons_of_mem _ (ih (ht.add (dvd_refl _)) ?_)
      -- between two multiples of the width there is room for the width
      have := Int.le_of_dvd (by omega) (hs.sub ht)
      omega
  | case2 t hstop => omega

theorem floor_mem_starts {lo hi x : ℤ} (hlo : lo ≤ x) (hhi : x < hi) :
    floor w x ∈ starts w (floor w lo) hi :=
  mem_starts (dvd_floor lo) (dvd_floor x) (floor_mono hlo) ((holds_floor x).1.trans_lt hhi)

/-- Every number of the range lies in exactly one window of the loop. -/
theorem countP_starts {lo hi x : ℤ} (hlo : lo ≤ x) (hhi : x < hi) :
    (starts w (floor w lo) hi).countP (fun s => Holds w s x) = 1 := by
  have hcount : (starts w (floor w lo) hi).countP (fun s => Holds w s x) =
      (starts w (floor w lo) hi).count (floor w x) := by
    refine List.countP_congr fun s hs => ?_
    simp only [decide_eq_true_eq, beq_iff_eq]
    rw [holds_iff (dvd_of_mem_starts (dvd_floor lo) hs), eq_comm]
  rw [hcount]
  exact List.count_eq_one_of_mem (nodup_starts _ _) (floor_mem_starts hlo hhi)

theorem length_starts_le_iff (t stop : ℤ) (n : ℕ) :
    (starts w t stop).length ≤ n ↔ stop ≤ t + n * w.1 := by
  have hw := w.2
  induction n generalizing t with
  | zero =>
    rcases lt_or_ge t stop with h | h
    · rw [starts_of_lt h]
      simp [h]
    · rw [starts_of_le h]
      simpa using h
  | succ n ih =>
    rcases lt_or_ge t stop with h | h
    · rw [starts_of_lt h, List.length_cons, Nat.add_le_add_iff_right]
      have hstep : t + w.1 + n * w.1 = t + (n + 1 : ℕ) * w.1 := by
        push_cast
        ring
      rw [← hstep]
      exact ih (t + w.1)
    · rw [starts_of_le h]
      have : 0 ≤ ((n + 1 : ℕ) : ℤ) * w.1 := mul_nonneg (Int.natCast_nonneg _) hw.le
      simp only [List.length_nil, Nat.zero_le, true_iff]
      omega

/-! ## Grouping -/

section Fibres

variable {α κ M : Type}

def groupKeys [LinearOrder κ] (key : α → κ) (xs : List α) : List κ :=
  (xs.map key).dedup.insertionSort (· ≤ ·)

/-- Each key that occurs, with the elements that have it, in the order of the keys. -/
def groupBy [LinearOrder κ] (key : α → κ) (xs : List α) : List (κ × List α) :=
  (groupKeys key xs).map fun k => (k, xs.filter fun x => key x = k)

theorem mem_groupKeys [LinearOrder κ] {key : α → κ} {xs : List α} {k : κ} :
    k ∈ groupKeys key xs ↔ ∃ x ∈ xs, key x = k := by
  rw [groupKeys, List.mem_insertionSort, List.mem_dedup, List.mem_map]

theorem nodup_groupKeys [LinearOrder κ] (key : α → κ) (xs : List α) : (groupKeys key xs).Nodup :=
  (List.perm_insertionSort _ _).nodup_iff.2 (List.nodup_dedup _)

/-- The sums over the groups add up to the sum over the list. -/
theorem sum_fibres [DecidableEq κ] [AddCommMonoid M] (key : α → κ) (f : α → M) {ks : List κ}
    (hks : ks.Nodup) {xs : List α} (hxs : ∀ x ∈ xs, key x ∈ ks) :
    (ks.map fun k => ((xs.filter fun x => key x = k).map f).sum).sum = (xs.map f).sum := by
  induction xs with
  | nil => simp
  | cons x xs ih =>
    have hsplit : ∀ k, (((x :: xs).filter fun x => key x = k).map f).sum =
        (if key x = k then f x else 0) + ((xs.filter fun x => key x = k).map f).sum := by
      intro k
      by_cases hk : key x = k <;> simp [hk]
    -- the new element counts in the group of its key only
    have hx : (ks.map fun k => if key x = k then f x else 0).sum = f x := by
      rw [List.sum_map_eq_nsmul_single (key x) _ fun k hk _ => if_neg hk.symm, if_pos rfl,
        List.count_eq_one_of_mem hks (hxs x List.mem_cons_self), one_nsmul]
    simp only [hsplit]
    rw [List.sum_map_add, hx, ih fun y hy => hxs y (List.mem_cons_of_mem _ hy), List.map_cons,
      List.sum_cons]

end Fibres

end Windows
