import Mathlib.Data.List.Basic

/-!
# Bounded queues

The queue of one subscriber of the live hub. Its one consumer waits for at most one `take`.

## Main definitions

- `BoundedQueue`, `BoundedQueue.push`, `pushFront`, `take`, `close`

## Main results

- `BoundedQueue.push_cases`, `pushFront_cases`, `take_cases`, `close_cases` — what a call does
-/

namespace Maximal.Live

/-- What a `take` resolves to. -/
inductive Taken (T : Type) where
  | item (item : T)
  | closed
  deriving DecidableEq, Repr

/-- What becomes of an item that is pushed: `push` returns `false` on `refused` only. -/
inductive Pushed where
  | refused
  | handed
  | queued
  deriving DecidableEq, Repr

structure BoundedQueue (T : Type) where
  capacity : ℕ
  items : List T := []
  /-- A `take` is pending. -/
  waiter : Bool := false
  closed : Bool := false
  deriving DecidableEq, Repr

namespace BoundedQueue

variable {T : Type}

/-- A consumer that waits is handed the item, whatever the capacity. -/
def push (q : BoundedQueue T) (item : T) : BoundedQueue T × Pushed :=
  if q.closed then (q, .refused)
  else if q.waiter then ({ q with waiter := false }, .handed)
  else if q.capacity ≤ q.items.length then (q, .refused)
  else ({ q with items := q.items ++ [item] }, .queued)

/-- The capacity is not checked. -/
def pushFront (q : BoundedQueue T) (item : T) : BoundedQueue T × Pushed :=
  if q.closed then (q, .refused)
  else if q.waiter then ({ q with waiter := false }, .handed)
  else ({ q with items := item :: q.items }, .queued)

/-- The promise of a `take` is pending where nothing is there to take. -/
def take (q : BoundedQueue T) : BoundedQueue T × Option (Taken T) :=
  match q.items with
  | item :: items => ({ q with items := items }, some (.item item))
  | [] => if q.closed then (q, some .closed) else ({ q with waiter := true }, none)

/-- Is a pending `take` resolved? -/
def close (q : BoundedQueue T) : BoundedQueue T × Bool :=
  if q.closed then (q, false) else ({ q with closed := true, waiter := false }, q.waiter)

/-! ## What a call does -/

theorem push_cases (q : BoundedQueue T) (item : T) :
    q.closed = true ∧ q.push item = (q, .refused) ∨
    q.closed = false ∧ q.waiter = true ∧ q.push item = ({ q with waiter := false }, .handed) ∨
    q.closed = false ∧ q.waiter = false ∧ q.capacity ≤ q.items.length ∧
      q.push item = (q, .refused) ∨
    q.closed = false ∧ q.waiter = false ∧ q.items.length < q.capacity ∧
      q.push item = ({ q with items := q.items ++ [item] }, .queued) := by
  rw [push]
  by_cases hclosed : q.closed = true
  · exact .inl ⟨hclosed, if_pos hclosed⟩
  rw [if_neg hclosed]
  have hopen := eq_false_of_ne_true hclosed
  by_cases hwaiter : q.waiter = true
  · exact .inr (.inl ⟨hopen, hwaiter, if_pos hwaiter⟩)
  rw [if_neg hwaiter]
  have hidle := eq_false_of_ne_true hwaiter
  by_cases hfull : q.capacity ≤ q.items.length
  · exact .inr (.inr (.inl ⟨hopen, hidle, hfull, if_pos hfull⟩))
  · exact .inr (.inr (.inr ⟨hopen, hidle, Nat.lt_of_not_le hfull, if_neg hfull⟩))

theorem pushFront_cases (q : BoundedQueue T) (item : T) :
    q.closed = true ∧ q.pushFront item = (q, .refused) ∨
    q.closed = false ∧ q.waiter = true ∧
      q.pushFront item = ({ q with waiter := false }, .handed) ∨
    q.closed = false ∧ q.waiter = false ∧
      q.pushFront item = ({ q with items := item :: q.items }, .queued) := by
  rw [pushFront]
  by_cases hclosed : q.closed = true
  · exact .inl ⟨hclosed, if_pos hclosed⟩
  rw [if_neg hclosed]
  have hopen := eq_false_of_ne_true hclosed
  by_cases hwaiter : q.waiter = true
  · exact .inr (.inl ⟨hopen, hwaiter, if_pos hwaiter⟩)
  · exact .inr (.inr ⟨hopen, eq_false_of_ne_true hwaiter, if_neg hwaiter⟩)

theorem take_cases (q : BoundedQueue T) :
    (∃ item items, q.items = item :: items ∧
      q.take = ({ q with items := items }, some (.item item))) ∨
    q.items = [] ∧ q.closed = true ∧ q.take = (q, some .closed) ∨
    q.items = [] ∧ q.closed = false ∧ q.take = ({ q with waiter := true }, none) := by
  cases hitems : q.items with
  | cons item items => exact .inl ⟨item, items, rfl, by rw [take, hitems]⟩
  | nil =>
    rw [take, hitems]
    by_cases hclosed : q.closed = true
    · exact .inr (.inl ⟨rfl, hclosed, if_pos hclosed⟩)
    · exact .inr (.inr ⟨rfl, eq_false_of_ne_true hclosed, if_neg hclosed⟩)

theorem close_cases (q : BoundedQueue T) :
    q.closed = true ∧ q.close = (q, false) ∨
    q.closed = false ∧ q.close = ({ q with closed := true, waiter := false }, q.waiter) := by
  rw [close]
  by_cases hclosed : q.closed = true
  · exact .inl ⟨hclosed, if_pos hclosed⟩
  · exact .inr ⟨eq_false_of_ne_true hclosed, if_neg hclosed⟩

end BoundedQueue

end Maximal.Live
