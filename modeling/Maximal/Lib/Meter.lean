import Mathlib.Data.List.Basic
import Mathlib.Tactic.Common

/-!
# Meters that count successes

A meter lets a request through as long as fewer than `limit` have been recorded, and records a
request only when it succeeds. Failed requests are let through for free.

## Main results

- `Meter.passed_le_iff` — when at most `limit` requests are let through
-/

namespace Maximal.Lib

structure Meter where
  passed : ℕ
  recorded : ℕ
  deriving DecidableEq

namespace Meter

/-- One request, which succeeds or fails once it is let through. -/
def ask (limit : ℕ) (m : Meter) (succeeds : Bool) : Meter :=
  if m.recorded < limit then ⟨m.passed + 1, if succeeds then m.recorded + 1 else m.recorded⟩
  else m

def askAll (limit : ℕ) (m : Meter) (requests : List Bool) : Meter :=
  requests.foldl (ask limit) m

@[simp] theorem askAll_nil (limit : ℕ) (m : Meter) : askAll limit m [] = m := rfl

@[simp] theorem askAll_cons (limit : ℕ) (m : Meter) (succeeds : Bool) (requests : List Bool) :
    askAll limit m (succeeds :: requests) = askAll limit (ask limit m succeeds) requests := rfl

theorem passed_le_ask (limit : ℕ) (m : Meter) (succeeds : Bool) :
    m.passed ≤ (ask limit m succeeds).passed := by
  simp only [ask]
  split
  · exact Nat.le_succ _
  · exact Nat.le_refl _

theorem passed_le_askAll (limit : ℕ) (requests : List Bool) (m : Meter) :
    m.passed ≤ (askAll limit m requests).passed := by
  induction requests generalizing m with
  | nil => exact Nat.le_refl _
  | cons succeeds requests ih =>
    exact Nat.le_trans (passed_le_ask limit m succeeds) (ih _)

/-- After a failure every request is let through until the limit is exceeded. -/
theorem passed_le_iff_of_lt {limit : ℕ} (requests : List Bool) {m : Meter}
    (hlost : m.recorded < m.passed) (hle : m.passed ≤ limit) :
    (askAll limit m requests).passed ≤ limit ↔ m.passed + requests.length ≤ limit := by
  induction requests generalizing m with
  | nil => simp
  | cons succeeds requests ih =>
    have hask : ask limit m succeeds =
        ⟨m.passed + 1, if succeeds then m.recorded + 1 else m.recorded⟩ := by
      rw [ask, if_pos (by omega)]
    rw [askAll_cons, hask, List.length_cons]
    by_cases hlast : m.passed = limit
    · have hmono := passed_le_askAll limit requests
        ⟨m.passed + 1, if succeeds then m.recorded + 1 else m.recorded⟩
      simp only at hmono
      constructor
      · intro h
        omega
      · intro h
        omega
    · rw [ih (by dsimp only; split <;> omega) (by dsimp only; omega)]
      dsimp only
      omega

/-- As long as nothing has failed, the limit holds if it is not reached or if the requests up to
it succeed. -/
theorem passed_le_iff_of_eq {limit : ℕ} (requests : List Bool) {m : Meter}
    (hall : m.recorded = m.passed) (hle : m.passed ≤ limit) :
    (askAll limit m requests).passed ≤ limit ↔
      m.passed + requests.length ≤ limit ∨
        ∀ succeeds ∈ requests.take (limit - m.passed), succeeds = true := by
  induction requests generalizing m with
  | nil => simpa using hle
  | cons succeeds requests ih =>
    rw [askAll_cons, List.length_cons]
    by_cases hlast : m.passed = limit
    · -- the limit is reached with successes only: nothing more is let through
      have hask : ask limit m succeeds = m := by rw [ask, if_neg (by omega)]
      rw [hask, ih hall hle]
      simp [hlast]
    · have hroom : limit - m.passed = limit - (m.passed + 1) + 1 := by omega
      rw [hroom, List.take_succ_cons, List.forall_mem_cons]
      cases succeeds with
      | true =>
        have hask : ask limit m true = ⟨m.passed + 1, m.recorded + 1⟩ := by
          rw [ask, if_pos (by omega), if_pos rfl]
        rw [hask, ih (by dsimp only; omega) (by dsimp only; omega)]
        simp only [true_and]
        apply or_congr_left
        omega
      | false =>
        have hask : ask limit m false = ⟨m.passed + 1, m.recorded⟩ := by
          rw [ask, if_pos (by omega), if_neg Bool.false_ne_true]
        rw [hask, passed_le_iff_of_lt requests (by dsimp only; omega) (by dsimp only; omega)]
        simp only [Bool.false_eq_true, false_and, or_false]
        omega

theorem passed_le_iff (limit : ℕ) (requests : List Bool) :
    (askAll limit ⟨0, 0⟩ requests).passed ≤ limit ↔
      requests.length ≤ limit ∨ ∀ succeeds ∈ requests.take limit, succeeds = true := by
  rw [passed_le_iff_of_eq requests rfl (Nat.zero_le _)]
  simp

end Meter

end Maximal.Lib
