import Mathlib.Data.List.Basic
import Mathlib.Data.Nat.Init

/-!
# Chains of jobs

A tail is replaced by a promise that is chained to it, so that each job starts when the one before
it has settled. The tail may also be replaced by a promise that is settled: what was chained before
goes on, and nothing waits for it any more.

## Main definitions

- `Chain.Heap` — the promises in the order in which they were made, and the tail
- `Chain.Heap.push`, `reset`, `begin`, `settle`
- `Chain.Stretch` — between two promises the tail was not replaced by a settled one
- `Chain.Heap.Ordered` — each job is chained to the promise before it, and waits for it

## Main results

- `Chain.Heap.Ordered.push` and its siblings — every operation keeps the order
- `Chain.Heap.Ordered.settled_of_stretch` — what is settled has only settled jobs before it
- `Chain.Heap.Ordered.lt_of_running` — the job that runs comes after all that are settled
-/

namespace Chain

variable {α β : Type}

inductive Progress (β : Type) where
  | waiting
  | running
  | settled (result : β)
  deriving DecidableEq, Repr

inductive Link (α β : Type) where
  /-- A promise that was settled from the start. -/
  | resolved
  | job (after : ℕ) (task : α) (progress : Progress β)
  deriving DecidableEq, Repr

def Link.isSettled : Link α β → Bool
  | .resolved | .job _ _ (.settled _) => true
  | .job _ _ .waiting | .job _ _ .running => false

def Link.isJob : Link α β → Bool
  | .resolved => false
  | .job .. => true

def Link.task? : Link α β → Option α
  | .resolved => none
  | .job _ task _ => some task

structure Heap (α β : Type) where
  links : List (Link α β)
  tail : ℕ
  deriving DecidableEq, Repr

/-- After `i` up to `j`, every promise is a job. -/
def Stretch (links : List (Link α β)) (i j : ℕ) : Prop :=
  ∀ k, i < k → k ≤ j → links[k]?.any Link.isJob

namespace Heap

def init : Heap α β := ⟨[.resolved], 0⟩

def IsSettled (h : Heap α β) (k : ℕ) : Prop := h.links[k]?.any Link.isSettled

instance (h : Heap α β) (k : ℕ) : Decidable (h.IsSettled k) :=
  inferInstanceAs (Decidable (_ = true))

def push (h : Heap α β) (task : α) : Heap α β :=
  ⟨h.links ++ [.job h.tail task .waiting], h.links.length⟩

def reset (h : Heap α β) : Heap α β := ⟨h.links ++ [.resolved], h.links.length⟩

/-- A job starts when the promise it is chained to is settled. -/
def begin (h : Heap α β) (k : ℕ) : Option (Heap α β) :=
  match h.links[k]? with
  | some (.job after task .waiting) =>
    if h.IsSettled after then some { h with links := h.links.set k (.job after task .running) }
    else none
  | _ => none

def settle (h : Heap α β) (k : ℕ) (result : β) : Option (Heap α β) :=
  match h.links[k]? with
  | some (.job after task .running) =>
    some { h with links := h.links.set k (.job after task (.settled result)) }
  | _ => none

/-- The jobs in the order in which they were pushed. -/
def tasks (h : Heap α β) : List α := h.links.filterMap Link.task?

/-- The job `k` was `task`, and it came to `result`. -/
def Done (h : Heap α β) (k : ℕ) (task : α) (result : β) : Prop :=
  ∃ after, h.links[k]? = some (.job after task (.settled result))

/-- More promises may have been made, and jobs may have gone on. -/
structure Grows (h h' : Heap α β) : Prop where
  length : h.links.length ≤ h'.links.length
  settled : ∀ k, h.IsSettled k → h'.links[k]? = h.links[k]?
  kept : ∀ (k : ℕ) (link : Link α β), h.links[k]? = some link →
    h'.links[k]?.any Link.isJob = link.isJob

structure Ordered (h : Heap α β) : Prop where
  tail : h.tail + 1 = h.links.length
  after : ∀ k after task progress, h.links[k]? = some (.job after task progress) →
    after + 1 = k ∧ (progress ≠ .waiting → h.IsSettled after)

variable {h h' : Heap α β}

theorem begin_cases {k : ℕ} (hbegin : h.begin k = some h') : ∃ after task,
    h.links[k]? = some (.job after task .waiting) ∧ h.IsSettled after ∧
      h' = { h with links := h.links.set k (.job after task .running) } := by
  rw [begin] at hbegin
  split at hbegin
  · next after task hk =>
    split at hbegin
    · next hsettled => exact ⟨after, task, hk, hsettled, (Option.some.inj hbegin).symm⟩
    · cases hbegin
  · cases hbegin

theorem settle_cases {k : ℕ} {result : β} (hsettle : h.settle k result = some h') :
    ∃ after task, h.links[k]? = some (.job after task .running) ∧
      h' = { h with links := h.links.set k (.job after task (.settled result)) } := by
  rw [settle] at hsettle
  split at hsettle
  · next after task hk => exact ⟨after, task, hk, (Option.some.inj hsettle).symm⟩
  · cases hsettle

theorem isSettled_iff {k : ℕ} :
    h.IsSettled k ↔ ∃ link, h.links[k]? = some link ∧ link.isSettled = true :=
  Option.any_eq_true _ _

/-! ## What lasts -/

theorem IsSettled.lt_length {k : ℕ} (hk : h.IsSettled k) : k < h.links.length := by
  obtain ⟨found, hfound, _⟩ := isSettled_iff.1 hk
  exact (List.getElem?_eq_some_iff.1 hfound).1

theorem Done.isSettled {k : ℕ} {task : α} {result : β} (hdone : h.Done k task result) :
    h.IsSettled k := by
  obtain ⟨after, hk⟩ := hdone
  exact isSettled_iff.2 ⟨_, hk, rfl⟩

theorem grows_append (link : Link α β) (tail : ℕ) : h.Grows ⟨h.links ++ [link], tail⟩ where
  length := by simp
  settled k hk := by
    obtain ⟨found, hfound, _⟩ := isSettled_iff.1 hk
    exact List.getElem?_append_left (List.getElem?_eq_some_iff.1 hfound).1
  kept k found hfound := by
    rw [List.getElem?_append_left (List.getElem?_eq_some_iff.1 hfound).1, hfound, Option.any_some]

theorem grows_set {k after : ℕ} {task : α} {progress progress' : Progress β}
    (hk : h.links[k]? = some (.job after task progress)) (hprogress : ∀ b, progress ≠ .settled b) :
    h.Grows { h with links := h.links.set k (.job after task progress') } where
  length := by simp
  settled i hi := by
    refine List.getElem?_set_ne ?_
    rintro rfl
    obtain ⟨found, hfound, hsettled⟩ := isSettled_iff.1 hi
    obtain rfl := Option.some.inj (hk.symm.trans hfound)
    cases progress with
    | settled b => exact hprogress b rfl
    | waiting | running => cases hsettled
  kept i found hfound := by
    rw [List.getElem?_set]
    split
    · next heq =>
      subst heq
      obtain rfl := Option.some.inj (hk.symm.trans hfound)
      rw [if_pos (List.getElem?_eq_some_iff.1 hk).1]
      rfl
    · rw [hfound, Option.any_some]

theorem grows_begin {k : ℕ} (hbegin : h.begin k = some h') : h.Grows h' := by
  obtain ⟨after, task, hk, _, rfl⟩ := begin_cases hbegin
  exact grows_set hk nofun

theorem grows_settle {k : ℕ} {result : β} (hsettle : h.settle k result = some h') :
    h.Grows h' := by
  obtain ⟨after, task, hk, rfl⟩ := settle_cases hsettle
  exact grows_set hk nofun

namespace Grows

theorem refl (h : Heap α β) : h.Grows h where
  length := Nat.le_refl _
  settled _ _ := rfl
  kept k link hk := by rw [hk, Option.any_some]

theorem isSettled (hgrows : h.Grows h') {k : ℕ} (hk : h.IsSettled k) : h'.IsSettled k := by
  rw [IsSettled, hgrows.settled k hk]
  exact hk

theorem done_iff (hgrows : h.Grows h') {k : ℕ} (hk : h.IsSettled k) {task : α} {result : β} :
    h'.Done k task result ↔ h.Done k task result := by
  rw [Done, Done, hgrows.settled k hk]

/-- A stretch of promises that had been made. -/
theorem stretch_iff (hgrows : h.Grows h') {i j : ℕ} (hj : j < h.links.length) :
    Stretch h'.links i j ↔ Stretch h.links i j := by
  refine forall_congr' fun k => forall_congr' fun _ => forall_congr' fun hkj => ?_
  have hk : h.links[k]? = some h.links[k] := List.getElem?_eq_getElem (Nat.lt_of_le_of_lt hkj hj)
  rw [hgrows.kept k _ hk, hk, Option.any_some]

end Grows

/-- Nothing is done when promises are made. -/
theorem done_append {link : Link α β} (hlink : ∀ after task result,
    link ≠ .job after task (.settled result)) (tail : ℕ) {k : ℕ} {task : α} {result : β} :
    Heap.Done ⟨h.links ++ [link], tail⟩ k task result ↔ h.Done k task result := by
  constructor
  · rintro ⟨after, hk⟩
    rw [List.getElem?_append] at hk
    split at hk
    · exact ⟨after, hk⟩
    · obtain ⟨hlt, heq⟩ := List.getElem?_eq_some_iff.1 hk
      exact absurd (by simpa using heq) (hlink after task result)
  · exact fun hdone => ((grows_append link tail).done_iff hdone.isSettled).2 hdone

theorem grows_push (task : α) : h.Grows (h.push task) := grows_append _ _

theorem grows_reset : h.Grows h.reset := grows_append _ _

theorem done_push {task : α} {k : ℕ} {task' : α} {result : β} :
    (h.push task).Done k task' result ↔ h.Done k task' result :=
  done_append (by rintro _ _ _ ⟨⟩) _

theorem done_reset {k : ℕ} {task : α} {result : β} :
    h.reset.Done k task result ↔ h.Done k task result :=
  done_append (by rintro _ _ _ ⟨⟩) _

theorem done_begin {k i : ℕ} {task : α} {result : β} (hbegin : h.begin k = some h') :
    h'.Done i task result ↔ h.Done i task result := by
  refine ⟨fun ⟨after, hi⟩ => ?_, fun h => ((grows_begin hbegin).done_iff h.isSettled).2 h⟩
  obtain ⟨_, _, _, _, rfl⟩ := begin_cases hbegin
  rw [List.getElem?_set] at hi
  split at hi
  · split at hi <;> cases hi
  · exact ⟨after, hi⟩

/-- The job that settles was not settled, and is what is new. -/
theorem done_settle {k : ℕ} {result : β} (hsettle : h.settle k result = some h') :
    ∃ task, ¬ h.IsSettled k ∧ h'.Done k task result ∧ ∀ i task' result',
      h'.Done i task' result' ↔
        h.Done i task' result' ∨ i = k ∧ task' = task ∧ result' = result := by
  have hgrows := grows_settle hsettle
  obtain ⟨after, task, hk, rfl⟩ := settle_cases hsettle
  have hnew : (h.links.set k (.job after task (.settled result)))[k]? =
      some (.job after task (.settled result)) :=
    List.getElem?_set_self (List.getElem?_eq_some_iff.1 hk).1
  refine ⟨task, by rw [IsSettled, hk]; exact nofun, ⟨after, hnew⟩, fun i task' result' => ?_⟩
  constructor
  · rintro ⟨after', hi⟩
    by_cases heq : i = k
    · subst heq
      cases hi.symm.trans hnew
      exact .inr ⟨rfl, rfl, rfl⟩
    · rw [List.getElem?_set_ne (Ne.symm heq)] at hi
      exact .inl ⟨after', hi⟩
  · rintro (hdone | ⟨rfl, rfl, rfl⟩)
    · exact (hgrows.done_iff hdone.isSettled).2 hdone
    · exact ⟨after, hnew⟩

/-! ## The order -/

theorem ordered_init : (init : Heap α β).Ordered where
  tail := rfl
  after k after task progress hk := by
    cases k with
    | zero => cases hk
    | succ k => cases hk

namespace Ordered

/-- A promise that is made is chained to the one that was made last, if it is chained to any. -/
theorem append (hord : h.Ordered) {link : Link α β}
    (hlink : ∀ after task progress, link = .job after task progress →
      after = h.tail ∧ progress = .waiting) :
    Ordered ⟨h.links ++ [link], h.links.length⟩ where
  tail := by simp
  after k after task progress hk := by
    rw [List.getElem?_append] at hk
    split at hk
    · obtain ⟨hafter, hsettled⟩ := hord.after k after task progress hk
      exact ⟨hafter, fun hne => (grows_append _ _).isSettled (hsettled hne)⟩
    · next hge =>
      obtain ⟨hlt, heq⟩ := List.getElem?_eq_some_iff.1 hk
      rw [List.length_singleton] at hlt
      obtain ⟨rfl, rfl⟩ := hlink after task progress (by simpa using heq)
      have htail := hord.tail
      exact ⟨by omega, fun hne => absurd rfl hne⟩

theorem push (hord : h.Ordered) (task : α) : (h.push task).Ordered :=
  hord.append fun after task' progress heq => by
    cases heq
    exact ⟨rfl, rfl⟩

theorem reset (hord : h.Ordered) : h.reset.Ordered := hord.append nofun

theorem set (hord : h.Ordered) {k after : ℕ} {task : α} {progress progress' : Progress β}
    (hk : h.links[k]? = some (.job after task progress)) (hprogress : ∀ b, progress ≠ .settled b)
    (hafter : h.IsSettled after) :
    Ordered { h with links := h.links.set k (.job after task progress') } where
  tail := by rw [List.length_set, hord.tail]
  after i after' task' progress'' hi := by
    have hgrows : h.Grows { h with links := h.links.set k (.job after task progress') } :=
      grows_set hk hprogress
    rw [List.getElem?_set] at hi
    split at hi
    · next heq =>
      subst heq
      split at hi
      · cases hi
        exact ⟨(hord.after k after task progress hk).1, fun _ => hgrows.isSettled hafter⟩
      · cases hi
    · obtain ⟨hsucc, hsettled⟩ := hord.after i after' task' progress'' hi
      exact ⟨hsucc, fun hne => hgrows.isSettled (hsettled hne)⟩

theorem begin (hord : h.Ordered) {k : ℕ} (hbegin : h.begin k = some h') : h'.Ordered := by
  obtain ⟨after, task, hk, hafter, rfl⟩ := begin_cases hbegin
  exact hord.set hk nofun hafter

theorem settle (hord : h.Ordered) {k : ℕ} {result : β} (hsettle : h.settle k result = some h') :
    h'.Ordered := by
  obtain ⟨after, task, hk, rfl⟩ := settle_cases hsettle
  exact hord.set hk nofun ((hord.after k after task .running hk).2 nofun)

/-- Before a promise that is settled, everything in its stretch is. -/
theorem settled_of_stretch (hord : h.Ordered) {i j : ℕ} (hij : i ≤ j)
    (hstretch : Stretch h.links i j) (hj : h.IsSettled j) : h.IsSettled i := by
  induction j, hij using Nat.le_induction with
  | base => exact hj
  | succ j hij ih =>
    refine ih (fun k hik hkj => hstretch k hik (Nat.le_succ_of_le hkj)) ?_
    obtain ⟨link, hlink, hsettled⟩ := isSettled_iff.1 hj
    have hjob := hstretch (j + 1) (Nat.lt_succ_of_le hij) (Nat.le_refl _)
    rw [hlink] at hjob
    cases link with
    | resolved => cases hjob
    | job after task progress =>
      obtain ⟨hafter, hbefore⟩ := hord.after (j + 1) after task progress hlink
      obtain rfl := Nat.succ.inj hafter
      refine hbefore ?_
      rintro rfl
      cases hsettled

/-- A job that is not settled comes after all of its stretch that are. -/
theorem lt_of_running (hord : h.Ordered) {i j : ℕ} (hi : h.IsSettled i) (hj : ¬ h.IsSettled j)
    (hstretch : Stretch h.links j i) : i < j := by
  by_contra hji
  exact hj (hord.settled_of_stretch (Nat.le_of_not_lt hji) hstretch hi)

end Ordered

/-! ## The jobs -/

theorem tasks_push (task : α) : (h.push task).tasks = h.tasks ++ [task] := by
  rw [tasks, push, List.filterMap_append]
  rfl

theorem tasks_reset : h.reset.tasks = h.tasks := by
  rw [tasks, reset, List.filterMap_append]
  exact List.append_nil _

theorem tasks_set {k after : ℕ} {task : α} {progress progress' : Progress β}
    (hk : h.links[k]? = some (.job after task progress)) :
    Heap.tasks { h with links := h.links.set k (.job after task progress') } = h.tasks := by
  have hmap : (h.links.set k (.job after task progress')).map Link.task? =
      h.links.map Link.task? := by
    rw [List.map_set]
    refine List.ext_getElem? fun i => ?_
    rw [List.getElem?_set]
    split
    · next heq =>
      subst heq
      rw [List.getElem?_map, hk, List.length_map, if_pos (List.getElem?_eq_some_iff.1 hk).1]
      rfl
    · rfl
  have hfilter : ∀ links : List (Link α β),
      links.filterMap Link.task? = (links.map Link.task?).filterMap id := by
    intro links
    rw [List.filterMap_map]
    rfl
  rw [tasks, tasks, hfilter, hfilter, hmap]

theorem tasks_begin {k : ℕ} (hbegin : h.begin k = some h') : h'.tasks = h.tasks := by
  obtain ⟨after, task, hk, _, rfl⟩ := begin_cases hbegin
  exact tasks_set hk

theorem tasks_settle {k : ℕ} {result : β} (hsettle : h.settle k result = some h') :
    h'.tasks = h.tasks := by
  obtain ⟨after, task, hk, rfl⟩ := settle_cases hsettle
  exact tasks_set hk

end Heap

end Chain
