import Maximal.Lib.Runs
import Maximal.Live.Queue
import Mathlib.Data.List.Induction
import Mathlib.Data.List.Perm.Basic

/-!
# The order of a bounded queue

What goes into a queue comes out in the order in which it went in, but for what is put in front:
it is due before what is queued then.

## Main definitions

- `QueueHistory.after` — a queue with what went in and what came out, after one more call
- `played` — after a list of calls
- `QueueHistory.line` — what went in, in the order in which it is due to come out
- `OneTake`, `SnapshotFirst` — how the one consumer and the one producer of a snapshot call

## Main results

- `Ordered.after` — nothing that went in is lost, moved or doubled by a call
- `boundedQueue_orderly` — the same of every list of calls; before an overflow and a close nothing
  is refused, and a consumer does not wait while an item is queued
-/

namespace Maximal.Live

variable {T : Type}

inductive QueueOp (T : Type) where
  | push (item : T)
  | pushFront (item : T)
  | take
  | close
  deriving DecidableEq, Repr

namespace QueueOp

def pushed : QueueOp T → Option T
  | .push item => some item
  | _ => none

def fronted : QueueOp T → Option T
  | .pushFront item => some item
  | _ => none

end QueueOp

def Taken.value : Taken T → Option T
  | .item value => some value
  | .closed => none

namespace Pushed

/-- What a pending `take` resolves to. -/
def resolved : Pushed → T → List (Taken T)
  | .handed, item => [.item item]
  | _, _ => []

/-- What is queued or was handed on. -/
def entered : Pushed → T → List T
  | .refused, _ => []
  | _, item => [item]

end Pushed

/-- Is the consumer not waiting, and is there no room? -/
def BoundedQueue.full (q : BoundedQueue T) : Bool := !q.waiter && q.capacity ≤ q.items.length

/-- A queue with what its callers know of it. -/
structure QueueHistory (T : Type) where
  queue : BoundedQueue T
  /-- The calls of `take`. -/
  asked : ℕ := 0
  /-- What takes resolved to, in the order in which they did. -/
  settled : List (Taken T) := []
  /-- What was pushed and what was put in front and not refused. -/
  accepted : List T := []
  fronted : List T := []
  line : List T := []
  /-- Was an item pushed while the queue was full? -/
  overflowed : Bool := false
  deriving DecidableEq, Repr

namespace QueueHistory

def start (capacity : ℕ) : QueueHistory T := { queue := { capacity } }

/-- What came out. -/
def received (h : QueueHistory T) : List T := h.settled.filterMap Taken.value

def after (h : QueueHistory T) : QueueOp T → QueueHistory T
  | .push item =>
    let (queue, outcome) := h.queue.push item
    { h with
      queue
      settled := h.settled ++ outcome.resolved item
      accepted := h.accepted ++ outcome.entered item
      line := h.line ++ outcome.entered item
      overflowed := h.overflowed || h.queue.full }
  | .pushFront item =>
    let (queue, outcome) := h.queue.pushFront item
    { h with
      queue
      settled := h.settled ++ outcome.resolved item
      fronted := h.fronted ++ outcome.entered item
      -- before what did not come out yet
      line := h.line.take h.received.length ++ outcome.entered item ++
        h.line.drop h.received.length }
  | .take =>
    let (queue, taken) := h.queue.take
    { h with queue, asked := h.asked + 1, settled := h.settled ++ taken.toList }
  | .close =>
    let (queue, resolved) := h.queue.close
    { h with queue, settled := h.settled ++ if resolved then [.closed] else [] }

end QueueHistory

def played (capacity : ℕ) (ops : List (QueueOp T)) : QueueHistory T :=
  ops.foldl QueueHistory.after (.start capacity)

/-! ## The order -/

structure Ordered (capacity : ℕ) (h : QueueHistory T) : Prop where
  capacity_eq : h.queue.capacity = capacity
  order : h.received ++ h.queue.items = h.line
  perm : h.line.Perm (h.fronted ++ h.accepted)
  sublist : h.accepted.Sublist h.line
  bounded : h.queue.items.length ≤ capacity + h.fronted.length
  /-- A consumer that waits and an item that is queued are never there at once. -/
  exclusive : h.queue.waiter = true → h.queue.items = [] ∧ h.queue.closed = false
  asked : h.settled.length + h.queue.waiter.toNat ≤ h.asked
  /-- That the queue is closed is told after the last item. -/
  drained : ∃ n, h.settled = h.received.map .item ++ List.replicate n .closed ∧
    (n ≠ 0 → h.queue.closed = true ∧ h.queue.items = [])

theorem ordered_start (capacity : ℕ) : Ordered capacity (.start capacity : QueueHistory T) where
  capacity_eq := rfl
  order := rfl
  perm := .nil
  sublist := .slnil
  bounded := Nat.zero_le _
  exclusive := nofun
  asked := Nat.le_refl _
  drained := ⟨0, rfl, fun h => absurd rfl h⟩

namespace Ordered

variable {capacity : ℕ} {h : QueueHistory T}

/-! ### Consumers -/

/-- As long as there is something to come, nobody was told that the queue is closed. -/
theorem settled_eq (ho : Ordered capacity h)
    (hmore : ¬(h.queue.closed = true ∧ h.queue.items = [])) :
    h.settled = h.received.map .item := by
  obtain ⟨n, hsettled, hn⟩ := ho.drained
  by_cases hzero : n = 0
  · rwa [hzero, List.replicate_zero, List.append_nil] at hsettled
  · exact absurd (hn hzero) hmore

theorem settled_eq_of_open (ho : Ordered capacity h) (hopen : h.queue.closed = false) :
    h.settled = h.received.map .item :=
  ho.settled_eq fun hdone => nomatch hopen.symm.trans hdone.1

theorem idle_of_closed (ho : Ordered capacity h) (hclosed : h.queue.closed = true) :
    h.queue.waiter = false := by
  cases hwaiter : h.queue.waiter with
  | false => rfl
  | true => exact nomatch (ho.exclusive hwaiter).2.symm.trans hclosed

theorem drained_of_eq {settled : List (Taken T)} {received : List T} {P : Prop}
    (hsettled : settled = received.map .item) :
    ∃ n, settled = received.map .item ++ List.replicate n .closed ∧ (n ≠ 0 → P) := by
  refine ⟨0, ?_, fun hn => absurd rfl hn⟩
  rw [hsettled, List.replicate_zero, List.append_nil]

/-- Nothing is queued while a consumer waits: the item that it is handed is the next. -/
theorem hand (ho : Ordered capacity h) (hwaiter : h.queue.waiter = true) (item : T)
    {accepted fronted : List T} (hperm : (h.line ++ [item]).Perm (fronted ++ accepted))
    (hsublist : accepted.Sublist (h.line ++ [item])) (overflowed : Bool) :
    Ordered capacity { h with
      queue := { h.queue with waiter := false }
      settled := h.settled ++ [.item item]
      accepted
      fronted
      line := h.line ++ [item]
      overflowed } := by
  obtain ⟨hitems, hopen⟩ := ho.exclusive hwaiter
  have hreceived : (h.settled ++ [Taken.item item]).filterMap Taken.value = h.received ++ [item] :=
    List.filterMap_append
  have horder := ho.order
  rw [hitems, List.append_nil] at horder
  constructor
  case capacity_eq => exact ho.capacity_eq
  case order => rw [QueueHistory.received, hreceived, hitems, List.append_nil, horder]
  case perm => exact hperm
  case sublist => exact hsublist
  case bounded =>
    rw [hitems]
    exact Nat.zero_le _
  case exclusive => exact nofun
  case asked =>
    have hasked := ho.asked
    rw [hwaiter] at hasked
    rwa [List.length_append]
  case drained =>
    refine drained_of_eq ?_
    rw [QueueHistory.received, hreceived, List.map_append, ho.settled_eq_of_open hopen,
      List.map_singleton]

/-- Nothing is queued when a consumer is told that the queue is closed. -/
theorem tell_closed (ho : Ordered capacity h) {queue : BoundedQueue T} {asked : ℕ}
    (hcapacity : queue.capacity = capacity) (hold : h.queue.items = []) (hitems : queue.items = [])
    (hclosed : queue.closed = true) (hidle : queue.waiter = false)
    (hasked : h.settled.length + 1 ≤ asked) :
    Ordered capacity { h with queue, asked, settled := h.settled ++ [.closed] } := by
  have hreceived : (h.settled ++ [Taken.closed]).filterMap Taken.value = h.received :=
    List.filterMap_append.trans (List.append_nil _)
  constructor
  case capacity_eq => exact hcapacity
  case order =>
    rw [QueueHistory.received, hreceived, hitems, ← hold]
    exact ho.order
  case perm => exact ho.perm
  case sublist => exact ho.sublist
  case bounded =>
    rw [hitems]
    exact Nat.zero_le _
  case exclusive => exact fun hwaiter => nomatch hidle.symm.trans hwaiter
  case asked =>
    show (h.settled ++ [Taken.closed]).length + queue.waiter.toNat ≤ asked
    rw [hidle, List.length_append, List.length_singleton]
    exact hasked
  case drained =>
    obtain ⟨n, hsettled, -⟩ := ho.drained
    refine ⟨n + 1, ?_, fun _ => ⟨hclosed, hitems⟩⟩
    rw [QueueHistory.received, hreceived, List.replicate_succ', ← List.append_assoc, ← hsettled]

/-! ### One call -/

theorem push (ho : Ordered capacity h) (item : T) :
    Ordered capacity (h.after (.push item)) := by
  have hperm : (h.line ++ [item]).Perm (h.fronted ++ (h.accepted ++ [item])) := by
    rw [← List.append_assoc]
    exact ho.perm.append_right [item]
  have hsublist := ho.sublist.append (List.Sublist.refl [item])
  obtain ⟨-, hpush⟩ | ⟨-, hwaiter, hpush⟩ | ⟨-, -, -, hpush⟩ | ⟨hopen, hidle, hroom, hpush⟩ :=
    h.queue.push_cases item
  all_goals
    rw [QueueHistory.after, hpush]
    dsimp only [Pushed.resolved, Pushed.entered]
  · rw [List.append_nil, List.append_nil, List.append_nil]
    exact { ho with }
  · exact ho.hand hwaiter item hperm hsublist _
  · rw [List.append_nil, List.append_nil, List.append_nil]
    exact { ho with }
  · rw [List.append_nil]
    have horder : h.received ++ (h.queue.items ++ [item]) = h.line ++ [item] := by
      rw [← List.append_assoc, ho.order]
    have hbounded : (h.queue.items ++ [item]).length ≤ capacity + h.fronted.length := by
      rw [List.length_append, List.length_singleton, ← ho.capacity_eq]
      exact Nat.le_add_right_of_le hroom
    exact { ho with
      order := horder
      perm := hperm
      sublist := hsublist
      bounded := hbounded
      exclusive := fun hwaiter => nomatch hidle.symm.trans hwaiter
      drained := drained_of_eq (ho.settled_eq_of_open hopen) }

theorem pushFront (ho : Ordered capacity h) (item : T) :
    Ordered capacity (h.after (.pushFront item)) := by
  have hout : h.line.take h.received.length = h.received := by
    rw [← ho.order, List.take_left']
    rfl
  have hdue : h.line.drop h.received.length = h.queue.items := by
    rw [← ho.order, List.drop_left']
    rfl
  have hmiddle : ∀ xs ys : List T, (xs ++ [item] ++ ys).Perm (item :: (xs ++ ys)) := by
    intro xs ys
    rw [List.append_assoc]
    exact List.perm_middle
  have hperm : (h.received ++ [item] ++ h.queue.items).Perm
      (h.fronted ++ [item] ++ h.accepted) := by
    refine (hmiddle _ _).trans (List.Perm.trans ?_ (hmiddle _ _).symm)
    rw [ho.order]
    exact ho.perm.cons item
  have hsublist : h.accepted.Sublist (h.received ++ [item] ++ h.queue.items) := by
    refine ho.sublist.trans ?_
    rw [← ho.order]
    exact (List.sublist_append_left _ _).append_right _
  obtain ⟨-, hpush⟩ | ⟨-, hwaiter, hpush⟩ | ⟨hopen, hidle, hpush⟩ :=
    h.queue.pushFront_cases item
  all_goals
    rw [QueueHistory.after, hpush]
    dsimp only [Pushed.resolved, Pushed.entered]
    rw [hout, hdue]
  · rw [List.append_nil, List.append_nil, List.append_nil, ho.order]
    exact { ho with }
  · obtain ⟨hitems, -⟩ := ho.exclusive hwaiter
    have hline : h.received ++ [item] ++ h.queue.items = h.line ++ [item] := by
      rw [← ho.order, hitems, List.append_nil, List.append_nil]
    rw [hline] at hperm hsublist ⊢
    exact ho.hand hwaiter item hperm hsublist _
  · rw [List.append_nil]
    have hbounded : (item :: h.queue.items).length ≤ capacity + (h.fronted ++ [item]).length := by
      rw [List.length_cons, List.length_append, List.length_singleton]
      exact Nat.succ_le_succ ho.bounded
    exact { ho with
      order := List.append_cons _ _ _
      perm := hperm
      sublist := hsublist
      bounded := hbounded
      exclusive := fun hwaiter => nomatch hidle.symm.trans hwaiter
      drained := drained_of_eq (ho.settled_eq_of_open hopen) }

theorem take (ho : Ordered capacity h) : Ordered capacity (h.after .take) := by
  have hasked : h.settled.length + 1 ≤ h.asked + 1 := by
    have hasked := ho.asked
    omega
  obtain ⟨item, items, hitems, htake⟩ | ⟨hitems, hclosed, htake⟩ | ⟨hitems, hopen, htake⟩ :=
    h.queue.take_cases
  all_goals
    rw [QueueHistory.after, htake]
    dsimp only [Option.toList]
  · have hreceived : (h.settled ++ [Taken.item item]).filterMap Taken.value =
        h.received ++ [item] := List.filterMap_append
    have hbusy : ∀ p : Prop, h.queue.items = [] → p := fun p hnil => nomatch hitems.symm.trans hnil
    have hsettled := ho.settled_eq fun hdone => hbusy _ hdone.2
    constructor
    case capacity_eq => exact ho.capacity_eq
    case order =>
      rw [QueueHistory.received, hreceived, ← List.append_cons, ← hitems]
      exact ho.order
    case perm => exact ho.perm
    case sublist => exact ho.sublist
    case bounded =>
      have hbounded := ho.bounded
      rw [hitems] at hbounded
      exact Nat.le_of_succ_le hbounded
    case exclusive => exact fun hwaiter => hbusy _ (ho.exclusive hwaiter).1
    case asked =>
      have hasked := ho.asked
      show (h.settled ++ [Taken.item item]).length + h.queue.waiter.toNat ≤ h.asked + 1
      rw [List.length_append, List.length_singleton]
      omega
    case drained =>
      refine drained_of_eq ?_
      rw [QueueHistory.received, hreceived, List.map_append, hsettled, List.map_singleton]
  · exact ho.tell_closed ho.capacity_eq hitems hitems hclosed (ho.idle_of_closed hclosed) hasked
  · rw [List.append_nil]
    exact { ho with
      exclusive := fun _ => ⟨hitems, hopen⟩
      asked := hasked
      drained := drained_of_eq (ho.settled_eq_of_open hopen) }

theorem close (ho : Ordered capacity h) : Ordered capacity (h.after .close) := by
  obtain ⟨hclosed, hclose⟩ | ⟨hopen, hclose⟩ := h.queue.close_cases
  · rw [QueueHistory.after, hclose]
    dsimp only
    rw [if_neg Bool.false_ne_true, List.append_nil]
    exact { ho with }
  · rw [QueueHistory.after, hclose]
    dsimp only
    cases hwaiter : h.queue.waiter with
    | true =>
      obtain ⟨hitems, -⟩ := ho.exclusive hwaiter
      have hasked := ho.asked
      rw [hwaiter] at hasked
      rw [if_pos rfl]
      exact ho.tell_closed ho.capacity_eq hitems hitems rfl rfl hasked
    | false =>
      rw [if_neg Bool.false_ne_true, List.append_nil]
      exact { ho with
        exclusive := nofun
        asked := Nat.le_trans (Nat.le_add_right _ _) ho.asked
        drained := drained_of_eq (ho.settled_eq_of_open hopen) }

theorem after (ho : Ordered capacity h) (op : QueueOp T) : Ordered capacity (h.after op) := by
  cases op with
  | push item => exact ho.push item
  | pushFront item => exact ho.pushFront item
  | take => exact ho.take
  | close => exact ho.close

end Ordered

/-! ## Lists of calls -/

def QueueHistory.step (op : QueueOp T) (h : QueueHistory T) : Option (QueueHistory T) :=
  some (h.after op)

/-- The one consumer takes when no `take` of its own is pending. -/
def OneTake : QueueOp T → QueueHistory T → Prop
  | .take, h => h.settled.length = h.asked
  | _, _ => True

/-- The one item that is put in front is put there before the first `take`. -/
def SnapshotFirst : QueueOp T → QueueHistory T → Prop
  | .pushFront _, h => h.asked = 0 ∧ h.fronted = []
  | _, _ => True

variable {capacity : ℕ} {h : QueueHistory T}

theorem exec_played (capacity : ℕ) (ops : List (QueueOp T)) :
    Runs.exec QueueHistory.step ops (.start capacity) = some (played capacity ops) := by
  rw [played]
  generalize QueueHistory.start capacity = h
  induction ops generalizing h with
  | nil => rfl
  | cons op ops ih => exact ih (h.after op)

theorem ordered_played (capacity : ℕ) (ops : List (QueueOp T)) :
    Ordered capacity (played capacity ops) := by
  refine Runs.exec_preserves ?_ (ordered_start capacity) (exec_played capacity ops)
  intro op h h' ho hstep
  exact Option.some.inj hstep ▸ ho.after op

/-! ### One consumer -/

/-- Every `take` but one that waits was resolved. -/
theorem pending_after (hpending : h.settled.length + h.queue.waiter.toNat = h.asked)
    {op : QueueOp T} (hone : OneTake op h) :
    (h.after op).settled.length + (h.after op).queue.waiter.toNat = (h.after op).asked := by
  cases op with
  | push item =>
    obtain ⟨-, hpush⟩ | ⟨-, hwaiter, hpush⟩ | ⟨-, -, -, hpush⟩ | ⟨-, -, -, hpush⟩ :=
      h.queue.push_cases item
    all_goals
      rw [QueueHistory.after, hpush]
      dsimp only [Pushed.resolved]
      rw [List.length_append]
    · exact hpending
    · rwa [hwaiter] at hpending
    · exact hpending
    · exact hpending
  | pushFront item =>
    obtain ⟨-, hpush⟩ | ⟨-, hwaiter, hpush⟩ | ⟨-, -, hpush⟩ := h.queue.pushFront_cases item
    all_goals
      rw [QueueHistory.after, hpush]
      dsimp only [Pushed.resolved]
      rw [List.length_append]
    · exact hpending
    · rwa [hwaiter] at hpending
    · exact hpending
  | take =>
    have hone : h.settled.length = h.asked := hone
    have hidle : h.queue.waiter.toNat = 0 := by omega
    obtain ⟨item, items, -, htake⟩ | ⟨-, -, htake⟩ | ⟨-, -, htake⟩ := h.queue.take_cases
    all_goals
      rw [QueueHistory.after, htake]
      dsimp only [Option.toList]
      rw [List.length_append, hone]
    · exact congrArg (h.asked + 1 + ·) hidle
    · exact congrArg (h.asked + 1 + ·) hidle
    · rfl
  | close =>
    obtain ⟨-, hclose⟩ | ⟨-, hclose⟩ := h.queue.close_cases
    · rw [QueueHistory.after, hclose]
      dsimp only
      rw [if_neg Bool.false_ne_true, List.append_nil]
      exact hpending
    · rw [QueueHistory.after, hclose]
      dsimp only
      rw [List.length_append]
      cases hwaiter : h.queue.waiter with
      | true => rwa [hwaiter] at hpending
      | false => rwa [hwaiter] at hpending

theorem pending_played {ops : List (QueueOp T)}
    (hone : Runs.Meets QueueHistory.step OneTake ops (.start capacity)) :
    (played capacity ops).settled.length + (played capacity ops).queue.waiter.toNat =
      (played capacity ops).asked := by
  refine Runs.exec_invariant (I := fun h => h.settled.length + h.queue.waiter.toNat = h.asked)
    ?_ hone rfl (exec_played capacity ops)
  intro op h h' hpending hone hstep
  exact Option.some.inj hstep ▸ pending_after hpending hone

/-! ### One snapshot -/

theorem Ordered.first_after (ho : Ordered capacity h) (hline : h.line = h.fronted ++ h.accepted)
    (hfronted : h.fronted.length ≤ 1) {op : QueueOp T} (hfirst : SnapshotFirst op h) :
    (h.after op).line = (h.after op).fronted ++ (h.after op).accepted ∧
      (h.after op).fronted.length ≤ 1 := by
  cases op with
  | push item =>
    refine ⟨?_, hfronted⟩
    rw [QueueHistory.after]
    dsimp only
    rw [hline, List.append_assoc]
  | pushFront item =>
    obtain ⟨hasked, hnil⟩ : h.asked = 0 ∧ h.fronted = [] := hfirst
    have hreceived : h.received = [] := by
      have hlength := ho.asked
      have hsettled : h.settled = [] := List.eq_nil_of_length_eq_zero (by omega)
      rw [QueueHistory.received, hsettled, List.filterMap_nil]
    rw [hnil, List.nil_append] at hline
    rw [QueueHistory.after]
    dsimp only
    rw [hreceived, hnil, hline, List.nil_append]
    refine ⟨rfl, ?_⟩
    cases (h.queue.pushFront item).2 with
    | refused => exact Nat.zero_le _
    | handed => exact Nat.le_refl _
    | queued => exact Nat.le_refl _
  | take => exact ⟨hline, hfronted⟩
  | close => exact ⟨hline, hfronted⟩

theorem first_played {ops : List (QueueOp T)}
    (hfirst : Runs.Meets QueueHistory.step SnapshotFirst ops (.start capacity)) :
    (played capacity ops).line = (played capacity ops).fronted ++ (played capacity ops).accepted ∧
      (played capacity ops).fronted.length ≤ 1 := by
  refine (Runs.exec_invariant (I := fun h => Ordered capacity h ∧
    h.line = h.fronted ++ h.accepted ∧ h.fronted.length ≤ 1) ?_ hfirst
      ⟨ordered_start capacity, rfl, Nat.zero_le _⟩ (exec_played capacity ops)).2
  rintro op h h' ⟨ho, hline, hfronted⟩ hfirst hstep
  obtain rfl := Option.some.inj hstep
  exact ⟨ho.after op, ho.first_after hline hfronted hfirst⟩

/-! ### Nothing is refused -/

/-- No call opens a queue again or undoes an overflow. -/
theorem kept_after {op : QueueOp T} (hroom : (h.after op).overflowed = false)
    (hopen : (h.after op).queue.closed = false) :
    h.overflowed = false ∧ h.queue.closed = false ∧
      (h.after op).accepted = h.accepted ++ op.pushed.toList ∧
      (h.after op).fronted = h.fronted ++ op.fronted.toList := by
  cases op with
  | push item =>
    obtain ⟨hclosed, hpush⟩ | ⟨hold, hwaiter, hpush⟩ | ⟨hold, hidle, hfull, hpush⟩ |
      ⟨hold, hidle, hspace, hpush⟩ := h.queue.push_cases item
    all_goals
      rw [QueueHistory.after, hpush] at hroom hopen ⊢
      dsimp only [Pushed.entered] at hroom hopen ⊢
      obtain ⟨hroom, hfull'⟩ := Bool.or_eq_false_iff.1 hroom
    · exact nomatch hopen.symm.trans hclosed
    · exact ⟨hroom, hold, rfl, (List.append_nil _).symm⟩
    · rw [BoundedQueue.full, hidle, decide_eq_true hfull] at hfull'
      exact nomatch hfull'
    · exact ⟨hroom, hold, rfl, (List.append_nil _).symm⟩
  | pushFront item =>
    obtain ⟨hclosed, hpush⟩ | ⟨hold, hwaiter, hpush⟩ | ⟨hold, hidle, hpush⟩ :=
      h.queue.pushFront_cases item
    all_goals
      rw [QueueHistory.after, hpush] at hroom hopen ⊢
      dsimp only [Pushed.entered] at hroom hopen ⊢
    · exact nomatch hopen.symm.trans hclosed
    · exact ⟨hroom, hold, (List.append_nil _).symm, rfl⟩
    · exact ⟨hroom, hold, (List.append_nil _).symm, rfl⟩
  | take =>
    have hold : h.queue.closed = false := by
      obtain ⟨item, items, -, htake⟩ | ⟨-, -, htake⟩ | ⟨-, -, htake⟩ := h.queue.take_cases
      all_goals
        rw [QueueHistory.after, htake] at hopen
        exact hopen
    exact ⟨hroom, hold, (List.append_nil _).symm, (List.append_nil _).symm⟩
  | close =>
    obtain ⟨hclosed, hclose⟩ | ⟨hold, hclose⟩ := h.queue.close_cases
    · rw [QueueHistory.after, hclose] at hopen
      exact nomatch hopen.symm.trans hclosed
    · rw [QueueHistory.after, hclose] at hopen
      exact nomatch hopen

theorem kept_played (ops : List (QueueOp T)) (hroom : (played capacity ops).overflowed = false)
    (hopen : (played capacity ops).queue.closed = false) :
    (played capacity ops).accepted = ops.filterMap QueueOp.pushed ∧
      (played capacity ops).fronted = ops.filterMap QueueOp.fronted := by
  induction ops using List.reverseRecOn with
  | nil => exact ⟨rfl, rfl⟩
  | append_singleton ops op ih =>
    have hsnoc : played capacity (ops ++ [op]) = (played capacity ops).after op := by
      rw [played, List.foldl_append]
      rfl
    have hlast : ∀ f : QueueOp T → Option T, [op].filterMap f = (f op).toList := by
      intro f
      rw [List.filterMap_eq_flatMap_toList, List.flatMap_singleton]
    rw [hsnoc] at hroom hopen ⊢
    obtain ⟨hroom', hopen', haccepted, hfronted⟩ := kept_after hroom hopen
    obtain ⟨hpushed, hput⟩ := ih hroom' hopen'
    rw [List.filterMap_append, List.filterMap_append, hlast, hlast, haccepted, hfronted, hpushed,
      hput]
    exact ⟨rfl, rfl⟩

/-! ## The queue -/

/-- What holds of a queue after a list of calls, whichever they are. -/
structure Orderly (capacity : ℕ) (ops : List (QueueOp T)) (h : QueueHistory T) : Prop
    extends Ordered capacity h where
  /-- Before an overflow and a close, what went in is what was pushed and put in front. -/
  kept : h.overflowed = false → h.queue.closed = false →
    h.accepted = ops.filterMap QueueOp.pushed ∧ h.fronted = ops.filterMap QueueOp.fronted
  /-- One snapshot is the first to come out; the others come out as they were pushed. -/
  first : Runs.Meets QueueHistory.step SnapshotFirst ops (.start capacity) →
    h.received ++ h.queue.items = h.fronted ++ h.accepted ∧ h.queue.items.length ≤ capacity + 1
  /-- A `take` is pending exactly if the queue has a waiter, which is to say never while an item is
  queued or after a close. -/
  pending : Runs.Meets QueueHistory.step OneTake ops (.start capacity) →
    (h.settled.length < h.asked ↔ h.queue.waiter = true)

theorem boundedQueue_orderly (capacity : ℕ) (ops : List (QueueOp T)) :
    Orderly capacity ops (played capacity ops) where
  toOrdered := ordered_played capacity ops
  kept := kept_played ops
  first hfirst := by
    have ho := ordered_played capacity ops
    obtain ⟨hline, hfronted⟩ := first_played hfirst
    exact ⟨ho.order.trans hline, Nat.le_trans ho.bounded (Nat.add_le_add_left hfronted _)⟩
  pending hone := by
    have hpending := pending_played hone
    cases hwaiter : (played capacity ops).queue.waiter with
    | true =>
      rw [hwaiter, Bool.toNat_true] at hpending
      exact iff_of_true (by omega) rfl
    | false =>
      rw [hwaiter, Bool.toNat_false] at hpending
      exact iff_of_false (by omega) Bool.false_ne_true

/-- The snapshot comes first; one item is handed on, one is queued and one is too many. -/
example :
    let h : QueueHistory ℕ := played 1
      [.push 1, .pushFront 0, .take, .take, .take, .push 2, .push 3, .push 4, .close]
    h.received = [0, 1, 2] ∧ h.queue.items = [3] ∧ h.overflowed = true := by
  decide

end Maximal.Live
