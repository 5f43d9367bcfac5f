import Maximal.Lib.Chain
import Maximal.Lib.Runs
import Maximal.Usage.Store
import Mathlib.Data.List.Nodup
import Mathlib.Order.Lattice

/-!
# The queue of usage events

An event is recorded by a job that is chained to the last one; what reads or prunes the table first
waits until the queue stands still. `closeUsageStore` starts a new queue, which does not wait for
what was recorded while the database was being closed.

## Main definitions

- `UsageDb` — the table of usage events with its `AUTOINCREMENT`
- `UsageStore.step` — recording, the jobs of the queue, and what waits for them
- `UsageStore.Taken` — a prune that came after the row has taken it
- `UsageStore.Consistent` — the table holds what was written, and each wait has seen its queue

## Main results

- `Consistent.step` — every step keeps it
- `usageEvents_in_order` — a row for each event that was written, in the order of the recordings
- `usageStore_flushed` — what was recorded before a read or a prune is settled when it gets there
-/

namespace Maximal.Usage

open Chain

/-! ## The database -/

structure PersistedTokenUsageEvent where
  cache_creation_input_tokens : ℤ
  cache_read_input_tokens : ℤ
  created_at_ms : ℤ
  created_at_utc : String
  endpoint : String
  input_tokens : ℤ
  model : String
  output_tokens : ℤ
  provider_name : Option String
  session_id : String
  source : String
  total_tokens : ℤ
  total_nano_aiu : ℤ
  is_premium : Option ℤ
  trace_id : String
  user_id : String
  deriving DecidableEq, Inhabited, Repr

def PersistedTokenUsageEvent.row (event : PersistedTokenUsageEvent) (id : ℤ) : StoredEvent where
  id
  created_at_ms := event.created_at_ms
  created_at_utc := event.created_at_utc
  trace_id := event.trace_id
  session_id := event.session_id
  user_id := event.user_id
  source := event.source
  endpoint := event.endpoint
  provider_name := event.provider_name
  model := event.model
  input_tokens := event.input_tokens
  output_tokens := event.output_tokens
  cache_read_input_tokens := event.cache_read_input_tokens
  cache_creation_input_tokens := event.cache_creation_input_tokens
  total_tokens := event.total_tokens
  total_nano_aiu := event.total_nano_aiu
  is_premium := event.is_premium

structure UsageDb extends Table where
  /-- `id INTEGER PRIMARY KEY AUTOINCREMENT`: the largest that was ever given. -/
  lastId : ℤ
  le_lastId : ∀ row ∈ rows, row.id ≤ lastId

namespace UsageDb

def empty : UsageDb := ⟨⟨[], .nil⟩, 0, nofun⟩

/-- The `INSERT` of `writeTokenUsageEvent`. -/
def insert (db : UsageDb) (event : PersistedTokenUsageEvent) : UsageDb where
  rows := db.rows ++ [event.row (db.lastId + 1)]
  nodup_ids := by
    rw [List.map_append, List.nodup_append]
    refine ⟨db.nodup_ids, List.nodup_singleton _, fun id hid id' hid' => ?_⟩
    obtain ⟨row, hrow, rfl⟩ := List.mem_map.1 hid
    obtain rfl := List.mem_singleton.1 hid'
    exact (Int.lt_add_one_of_le (db.le_lastId row hrow)).ne
  lastId := db.lastId + 1
  le_lastId row hrow := by
    rcases List.mem_append.1 hrow with hrow | hrow
    · exact (db.le_lastId row hrow).trans (Int.le_add_one le_rfl)
    · obtain rfl := List.mem_singleton.1 hrow
      exact le_rfl

/-- `DELETE FROM token_usage_events WHERE created_at_ms < ?`. -/
def deleteBefore (db : UsageDb) (beforeMs : ℤ) : UsageDb where
  rows := db.rows.filter fun row => beforeMs ≤ row.created_at_ms
  nodup_ids := (List.filter_sublist.map _).nodup db.nodup_ids
  lastId := db.lastId
  le_lastId row hrow := db.le_lastId row (List.mem_of_mem_filter hrow)

end UsageDb

/-! ## The store -/

/-- What waits for the queue; a read is any of the queries. -/
inductive Task where
  | read
  | prune (beforeMs : ℤ)
  | close
  deriving DecidableEq, Repr

/-- A prune, and the largest id that had been given when it ran. -/
structure Prune where
  beforeMs : ℤ
  lastId : ℤ
  deriving DecidableEq, Repr

inductive Stage where
  /-- In the loop of `flushTokenUsageEvents`. -/
  | flushing (currentQueue : ℕ)
  /-- The loop returned; the database is awaited. -/
  | flushed (currentQueue : ℕ)
  /-- The rows of the query, and the prunes before it. -/
  | answered (currentQueue : ℕ) (rows : List StoredEvent) (prunes : List Prune)
  | pruned (currentQueue : ℕ) (beforeMs : ℤ) (changes : ℕ)
  | closed
  | rejected
  deriving DecidableEq, Repr

structure Operation where
  task : Task
  /-- How many promises had been made when it was called. -/
  calledAt : ℕ
  stage : Stage
  deriving DecidableEq, Repr

structure UsageStore where
  /-- A job settles with the id of its row, or with none if the write failed. -/
  writeQueue : Heap PersistedTokenUsageEvent (Option ℤ)
  db : UsageDb
  operations : List Operation
  /-- The prunes of this process, in their order. -/
  prunes : List Prune

namespace UsageStore

/-- A process that finds these rows in the database file. -/
def init (base : UsageDb) : UsageStore := ⟨.init, base, [], []⟩

inductive Label where
  /-- `enqueueTokenUsageWrite`. -/
  | record (event : PersistedTokenUsageEvent)
  /-- A job calls `writeTokenUsageEvent`. -/
  | begin (k : ℕ)
  | written (k : ℕ)
  | failed (k : ℕ)
  | call (task : Task)
  /-- The promise that an operation awaits has settled. -/
  | wake (n : ℕ)
  /-- The database is there; or it is closed, for one who closes. -/
  | perform (n : ℕ)
  | reject (n : ℕ)
  deriving DecidableEq, Repr

def setStage (s : UsageStore) (n : ℕ) (stage : Stage) : UsageStore :=
  { s with operations := s.operations.modify n fun op => { op with stage } }

/-- The start of `flushTokenUsageEvents`. -/
def flush (s : UsageStore) (task : Task) : UsageStore :=
  { s with operations := s.operations ++
      [⟨task, s.writeQueue.links.length, .flushing s.writeQueue.tail⟩] }

/-- One turn of the loop of `flushTokenUsageEvents`. -/
def wakeOf (s : UsageStore) (n : ℕ) : Stage → Option UsageStore
  | .flushing currentQueue =>
    if s.writeQueue.IsSettled currentQueue then
      if currentQueue = s.writeQueue.tail then some (s.setStage n (.flushed currentQueue))
      else some (s.setStage n (.flushing s.writeQueue.tail))
    else none
  | _ => none

def deleteBefore (s : UsageStore) (beforeMs : ℤ) : UsageStore :=
  { s with
    db := s.db.deleteBefore beforeMs
    prunes := s.prunes ++ [⟨beforeMs, s.db.lastId⟩] }

def performOf (s : UsageStore) (n : ℕ) : Task → Stage → Option UsageStore
  | .read, .flushed currentQueue => some (s.setStage n (.answered currentQueue s.db.rows s.prunes))
  | .prune beforeMs, .flushed currentQueue =>
    some ((s.deleteBefore beforeMs).setStage n (.pruned currentQueue beforeMs
      (s.db.rows.length - (s.db.deleteBefore beforeMs).rows.length)))
  | .close, .flushed _ => some { s.setStage n .closed with writeQueue := s.writeQueue.reset }
  | _, _ => none

def step : Label → UsageStore → Option UsageStore
  | .record event, s => some { s with writeQueue := s.writeQueue.push event }
  | .begin k, s => (s.writeQueue.begin k).map fun queue => { s with writeQueue := queue }
  | .failed k, s => (s.writeQueue.settle k none).map fun queue => { s with writeQueue := queue }
  | .written k, s =>
    match s.writeQueue.links[k]? with
    | some (.job _ event .running) =>
      (s.writeQueue.settle k (some (s.db.lastId + 1))).map fun queue =>
        { s with writeQueue := queue, db := s.db.insert event }
    | _ => none
  | .call task, s => some (s.flush task)
  | .wake n, s => s.operations[n]?.bind fun op => s.wakeOf n op.stage
  | .perform n, s => s.operations[n]?.bind fun op => s.performOf n op.task op.stage
  | .reject n, s =>
    match s.operations[n]? with
    | some ⟨_, _, .flushed _⟩ => some (s.setStage n .rejected)
    | _ => none

/-! ## What the table holds -/

/-- A prune with a later cutoff ran when the row was there. -/
def Taken (prunes : List Prune) (row : StoredEvent) : Prop :=
  ∃ prune ∈ prunes, row.created_at_ms < prune.beforeMs ∧ row.id ≤ prune.lastId

/-- The row is of an event that was written. -/
def IsOf (queue : Heap PersistedTokenUsageEvent (Option ℤ)) (row : StoredEvent) : Prop :=
  ∃ k event, queue.Done k event (some row.id) ∧ row = event.row row.id

/-- The row was in the file already, or it is of an event that was written. -/
def Stored (base : UsageDb) (queue : Heap PersistedTokenUsageEvent (Option ℤ))
    (row : StoredEvent) : Prop :=
  row ∈ base.rows ∨ IsOf queue row

/-- What an operation has seen of the queue: when the loop has returned, all that was chained to the
tail of that time is settled. A read that followed has the rows of it; a prune that followed has
taken the old ones, and they do not come back. -/
def Saw (base : UsageDb) (s : UsageStore) (op : Operation) : Prop :=
  match op.stage with
  | .flushing currentQueue =>
    op.calledAt ≤ currentQueue + 1 ∧ currentQueue < s.writeQueue.links.length
  | .flushed currentQueue =>
    op.calledAt ≤ currentQueue + 1 ∧ currentQueue < s.writeQueue.links.length ∧
      ∀ i ≤ currentQueue, Stretch s.writeQueue.links i currentQueue → s.writeQueue.IsSettled i
  | .answered currentQueue rows prunes =>
    op.calledAt ≤ currentQueue + 1 ∧ currentQueue < s.writeQueue.links.length ∧
      (prunes <+: s.prunes ∧ (∀ row ∈ rows, Stored base s.writeQueue row) ∧
        ∀ row ∈ base.rows, row ∈ rows ↔ ¬Taken prunes row) ∧
      ∀ i ≤ currentQueue, Stretch s.writeQueue.links i currentQueue →
        s.writeQueue.IsSettled i ∧ ∀ event id, s.writeQueue.Done i event (some id) →
          (event.row id ∈ rows ↔ ¬Taken prunes (event.row id))
  | .pruned currentQueue beforeMs _ =>
    op.calledAt ≤ currentQueue + 1 ∧ currentQueue < s.writeQueue.links.length ∧
      ∀ i ≤ currentQueue, Stretch s.writeQueue.links i currentQueue →
        s.writeQueue.IsSettled i ∧ ∀ event id, s.writeQueue.Done i event (some id) →
          event.created_at_ms < beforeMs → event.row id ∉ s.db.rows
  | .closed | .rejected => True

structure Consistent (base : UsageDb) (s : UsageStore) : Prop where
  ordered : s.writeQueue.Ordered
  stored : ∀ row ∈ s.db.rows, Stored base s.writeQueue row
  kept : ∀ row, Stored base s.writeQueue row → (row ∈ s.db.rows ↔ ¬Taken s.prunes row)
  given : ∀ row, Stored base s.writeQueue row → row.id ≤ s.db.lastId
  pruned : ∀ prune ∈ s.prunes, prune.lastId ≤ s.db.lastId
  later : ∀ k event id, s.writeQueue.Done k event (some id) → base.lastId < id
  base_le : base.lastId ≤ s.db.lastId
  increasing : ∀ i j event event' id id', s.writeQueue.Done i event (some id) →
    s.writeQueue.Done j event' (some id') → i < j → Stretch s.writeQueue.links i j → id < id'
  distinct : ∀ i j event event' id, s.writeQueue.Done i event (some id) →
    s.writeQueue.Done j event' (some id) → i = j
  saw : ∀ op ∈ s.operations, s.Saw base op

variable {base : UsageDb} {s s' : UsageStore}

theorem stored_of_done {queue : Heap PersistedTokenUsageEvent (Option ℤ)} {k : ℕ}
    {event : PersistedTokenUsageEvent} {id : ℤ} (h : queue.Done k event (some id)) :
    Stored base queue (event.row id) :=
  .inr ⟨k, event, h, rfl⟩

theorem IsOf.mono {queue queue' : Heap PersistedTokenUsageEvent (Option ℤ)} {row : StoredEvent}
    (h : IsOf queue row) (hgrows : queue.Grows queue') : IsOf queue' row := by
  obtain ⟨k, event, hk, heq⟩ := h
  exact ⟨k, event, (hgrows.done_iff hk.isSettled).2 hk, heq⟩

/-- A later state: the queue has grown, and the rows that are new have new ids. -/
structure Later (s s' : UsageStore) : Prop where
  grows : s.writeQueue.Grows s'.writeQueue
  prunes : s.prunes <+: s'.prunes
  rows : ∀ row ∈ s'.db.rows, row ∈ s.db.rows ∨ s.db.lastId < row.id

/-- What was seen stands. -/
theorem Saw.mono {op : Operation} (h : s.Saw base op) (hlater : Later s s')
    (hgiven : ∀ row, Stored base s.writeQueue row → row.id ≤ s.db.lastId) : s'.Saw base op := by
  have hgrows := hlater.grows
  rw [Saw] at h ⊢
  cases hstage : op.stage with
  | flushing currentQueue =>
    rw [hstage] at h
    exact ⟨h.1, h.2.trans_le hgrows.length⟩
  | flushed currentQueue =>
    rw [hstage] at h
    refine ⟨h.1, h.2.1.trans_le hgrows.length, fun i hi hstretch => ?_⟩
    exact hgrows.isSettled (h.2.2 i hi ((hgrows.stretch_iff h.2.1).1 hstretch))
  | answered currentQueue rows prunes =>
    rw [hstage] at h
    obtain ⟨hcalled, hlt, ⟨hprunes, hstored, hbase⟩, hsaw⟩ := h
    refine ⟨hcalled, hlt.trans_le hgrows.length, ⟨hprunes.trans hlater.prunes, ?_, hbase⟩,
      fun i hi hstretch => ?_⟩
    · exact fun row hrow => (hstored row hrow).imp_right fun hof => hof.mono hgrows
    · obtain ⟨hsettled, hrows⟩ := hsaw i hi ((hgrows.stretch_iff hlt).1 hstretch)
      refine ⟨hgrows.isSettled hsettled, fun event id hdone => ?_⟩
      exact hrows event id ((hgrows.done_iff hsettled).1 hdone)
  | pruned currentQueue beforeMs changes =>
    rw [hstage] at h
    obtain ⟨hcalled, hlt, hsaw⟩ := h
    refine ⟨hcalled, hlt.trans_le hgrows.length, fun i hi hstretch => ?_⟩
    obtain ⟨hsettled, hgone⟩ := hsaw i hi ((hgrows.stretch_iff hlt).1 hstretch)
    refine ⟨hgrows.isSettled hsettled, fun event id hdone hold hrow => ?_⟩
    have hdone := (hgrows.done_iff hsettled).1 hdone
    rcases hlater.rows _ hrow with hrow | hnew
    · exact hgone event id hdone hold hrow
    · exact absurd (hgiven _ (stored_of_done hdone)) (not_le.2 hnew)
  | closed | rejected => trivial

theorem wakeOf_cases {n : ℕ} {stage : Stage} (h : s.wakeOf n stage = some s') :
    ∃ currentQueue, stage = .flushing currentQueue ∧ s.writeQueue.IsSettled currentQueue ∧
      (currentQueue = s.writeQueue.tail ∧ s' = s.setStage n (.flushed currentQueue) ∨
        s' = s.setStage n (.flushing s.writeQueue.tail)) := by
  unfold wakeOf at h
  split at h
  · next currentQueue =>
    split at h
    · next hsettled =>
      split at h
      · next htail => exact ⟨_, rfl, hsettled, .inl ⟨htail, (Option.some.inj h).symm⟩⟩
      · exact ⟨_, rfl, hsettled, .inr (Option.some.inj h).symm⟩
    · cases h
  · cases h

namespace Consistent

theorem init (base : UsageDb) : (UsageStore.init base).Consistent base := by
  have hdone : ∀ k event result, ¬(UsageStore.init base).writeQueue.Done k event result := by
    rintro k event result ⟨after, hk⟩
    cases k with
    | zero => cases hk
    | succ k => cases hk
  have hstored : ∀ row, Stored base (UsageStore.init base).writeQueue row → row ∈ base.rows := by
    rintro row (hrow | ⟨k, event, hk, -⟩)
    · exact hrow
    · exact absurd hk (hdone k event _)
  exact {
    ordered := Heap.ordered_init
    stored := fun row hrow => .inl hrow
    kept := fun row hrow => iff_of_true (hstored row hrow) (by rintro ⟨_, hmem, -⟩; cases hmem)
    given := fun row hrow => base.le_lastId row (hstored row hrow)
    pruned := nofun
    later := fun k event id h => absurd h (hdone k event (some id))
    base_le := le_rfl
    increasing := fun i _ event _ id _ h => absurd h (hdone i event (some id))
    distinct := fun i _ event _ id h => absurd h (hdone i event (some id))
    saw := nofun }

/-- The queue moves and no row is written. -/
theorem moved (h : s.Consistent base) {queue : Heap PersistedTokenUsageEvent (Option ℤ)}
    (hord : queue.Ordered) (hgrows : s.writeQueue.Grows queue)
    (hdone : ∀ k event id, queue.Done k event (some id) ↔ s.writeQueue.Done k event (some id)) :
    { s with writeQueue := queue }.Consistent base := by
  have hstored : ∀ row, Stored base queue row ↔ Stored base s.writeQueue row := fun row =>
    or_congr_right (exists₂_congr fun k event => and_congr_left fun _ => hdone k event row.id)
  exact {
    ordered := hord
    stored := fun row hrow => (hstored row).2 (h.stored row hrow)
    kept := fun row hrow => h.kept row ((hstored row).1 hrow)
    given := fun row hrow => h.given row ((hstored row).1 hrow)
    pruned := h.pruned
    later := fun k event id hk => h.later k event id ((hdone k event id).1 hk)
    base_le := h.base_le
    increasing := fun i j event event' id id' hi hj hij hstretch => by
      rw [hdone] at hi hj
      exact h.increasing i j event event' id id' hi hj hij
        ((hgrows.stretch_iff hj.isSettled.lt_length).1 hstretch)
    distinct := fun i j event event' id hi hj =>
      h.distinct i j event event' id ((hdone i event id).1 hi) ((hdone j event' id).1 hj)
    saw := fun op hop =>
      (h.saw op hop).mono ⟨hgrows, List.prefix_rfl, fun _ => .inl⟩ h.given }

theorem record (h : s.Consistent base) (event : PersistedTokenUsageEvent) :
    { s with writeQueue := s.writeQueue.push event }.Consistent base :=
  h.moved (h.ordered.push event) (Heap.grows_push event) fun _ _ _ => Heap.done_push

theorem reset (h : s.Consistent base) : { s with writeQueue := s.writeQueue.reset }.Consistent base :=
  h.moved h.ordered.reset Heap.grows_reset fun _ _ _ => Heap.done_reset

theorem begin (h : s.Consistent base) {k : ℕ} {queue : Heap PersistedTokenUsageEvent (Option ℤ)}
    (hbegin : s.writeQueue.begin k = some queue) : { s with writeQueue := queue }.Consistent base :=
  h.moved (h.ordered.begin hbegin) (Heap.grows_begin hbegin) fun _ _ _ => Heap.done_begin hbegin

theorem failed (h : s.Consistent base) {k : ℕ} {queue : Heap PersistedTokenUsageEvent (Option ℤ)}
    (hsettle : s.writeQueue.settle k none = some queue) :
    { s with writeQueue := queue }.Consistent base := by
  obtain ⟨task, _, _, hdone⟩ := Heap.done_settle hsettle
  refine h.moved (h.ordered.settle hsettle) (Heap.grows_settle hsettle) fun i event id => ?_
  rw [hdone]
  exact or_iff_left fun hnew => nomatch hnew.2.2

/-- The job that settles writes the next row. -/
theorem written (h : s.Consistent base) {k after : ℕ} {event : PersistedTokenUsageEvent}
    {queue : Heap PersistedTokenUsageEvent (Option ℤ)}
    (hk : s.writeQueue.links[k]? = some (.job after event .running))
    (hsettle : s.writeQueue.settle k (some (s.db.lastId + 1)) = some queue) :
    { s with writeQueue := queue, db := s.db.insert event }.Consistent base := by
  have hgrows := Heap.grows_settle hsettle
  have hord := h.ordered.settle hsettle
  obtain ⟨task, hrunning, hnew, hdone⟩ := Heap.done_settle hsettle
  obtain rfl : task = event := by
    obtain ⟨_, _, hk', rfl⟩ := Heap.settle_cases hsettle
    obtain ⟨_, hset⟩ := hnew
    rw [List.getElem?_set_self (List.getElem?_eq_some_iff.1 hk).1] at hset
    rw [hk] at hk'
    cases hk'
    cases hset
    rfl
  have hnext : ∀ i task' id, s.writeQueue.Done i task' (some id) → id < s.db.lastId + 1 :=
    fun i task' id hi => Int.lt_add_one_of_le (h.given _ (stored_of_done hi))
  have hrows : ∀ row, Stored base queue row →
      Stored base s.writeQueue row ∨ row = task.row (s.db.lastId + 1) := by
    rintro row (hrow | ⟨i, task', hi, hrow⟩)
    · exact .inl (.inl hrow)
    · rcases (hdone ..).1 hi with hi | ⟨-, rfl, heq⟩
      · exact .inl (.inr ⟨i, task', hi, hrow⟩)
      · rw [Option.some.inj heq] at hrow
        exact .inr hrow
  exact {
    ordered := hord
    stored := fun row hrow => by
      rcases List.mem_append.1 hrow with hrow | hrow
      · exact (h.stored row hrow).imp_right fun hof => hof.mono hgrows
      · obtain rfl := List.mem_singleton.1 hrow
        exact stored_of_done hnew
    kept := fun row hrow => by
      rcases hrows row hrow with hold | rfl
      · -- its id is not the new one
        have hne : row ≠ task.row (s.db.lastId + 1) := by
          rintro rfl
          exact absurd (h.given _ hold) (not_le.2 (Int.lt_add_one_of_le le_rfl))
        refine Iff.trans ?_ (h.kept row hold)
        rw [UsageDb.insert, List.mem_append, List.mem_singleton]
        exact or_iff_left hne
      · refine iff_of_true (List.mem_append_right _ (List.mem_singleton_self _)) ?_
        rintro ⟨prune, hmem, -, hle⟩
        exact absurd (hle.trans (h.pruned prune hmem)) (not_le.2 (Int.lt_add_one_of_le le_rfl))
    given := fun row hrow => by
      rcases hrows row hrow with hold | rfl
      · exact (h.given row hold).trans (Int.le_add_one le_rfl)
      · exact le_rfl
    pruned := fun prune hmem => (h.pruned prune hmem).trans (Int.le_add_one le_rfl)
    later := fun i task' id hi => by
      rcases (hdone ..).1 hi with hi | ⟨-, rfl, heq⟩
      · exact h.later i task' id hi
      · obtain rfl := Option.some.inj heq
        exact Int.lt_add_one_of_le h.base_le
    base_le := h.base_le.trans (Int.le_add_one le_rfl)
    increasing := fun i j task' task'' id id' hi hj hij hstretch => by
      have hstretch' := (hgrows.stretch_iff (i := i) (j := j) (by
        have hlt := hj.isSettled.lt_length
        have hlength : queue.links.length = s.writeQueue.links.length := by
          obtain ⟨_, _, _, rfl⟩ := Heap.settle_cases hsettle
          exact List.length_set
        rwa [hlength] at hlt)).1 hstretch
      rcases (hdone ..).1 hi with hi' | ⟨rfl, rfl, heq⟩ <;>
        rcases (hdone ..).1 hj with hj' | ⟨rfl, rfl, heq'⟩
      · exact h.increasing i j task' task'' id id' hi' hj' hij hstretch'
      · obtain rfl := Option.some.inj heq'
        exact hnext i task' id hi'
      · -- nothing after the job that runs has settled
        have hlt := h.ordered.lt_of_running hj'.isSettled hrunning hstretch'
        exact absurd hij (Nat.lt_asymm hlt)
      · exact absurd hij (Nat.lt_irrefl _)
    distinct := fun i j task' task'' id hi hj => by
      rcases (hdone ..).1 hi with hi' | ⟨rfl, rfl, heq⟩ <;>
        rcases (hdone ..).1 hj with hj' | ⟨rfl, rfl, heq'⟩
      · exact h.distinct i j task' task'' id hi' hj'
      · obtain rfl := Option.some.inj heq'
        exact absurd (hnext i task' _ hi') (lt_irrefl _)
      · obtain rfl := Option.some.inj heq
        exact absurd (hnext j task'' _ hj') (lt_irrefl _)
      · rfl
    saw := fun op hop => by
      refine (h.saw op hop).mono ⟨hgrows, List.prefix_rfl, fun row hrow => ?_⟩ h.given
      refine (List.mem_append.1 hrow).imp_right fun hrow => ?_
      rw [List.mem_singleton.1 hrow]
      exact Int.lt_add_one_of_le le_rfl }

theorem setStage (h : s.Consistent base) {n : ℕ} {stage : Stage}
    (hstage : ∀ op, s.operations[n]? = some op → s.Saw base { op with stage }) :
    (s.setStage n stage).Consistent base where
  __ := h
  saw op hop := by
    obtain ⟨i, hi⟩ := List.mem_iff_getElem?.1 hop
    rw [UsageStore.setStage, List.getElem?_modify] at hi
    obtain ⟨before, hbefore, rfl⟩ := Option.map_eq_some_iff.1 hi
    split
    · next heq =>
      subst heq
      exact hstage before hbefore
    · exact h.saw before (List.mem_of_getElem? hbefore)

theorem prune (h : s.Consistent base) (beforeMs : ℤ) : (s.deleteBefore beforeMs).Consistent base where
  ordered := h.ordered
  stored row hrow := h.stored row (List.mem_of_mem_filter hrow)
  kept row hrow := by
    have htaken : Taken (s.deleteBefore beforeMs).prunes row ↔
        Taken s.prunes row ∨ row.created_at_ms < beforeMs := by
      constructor
      · rintro ⟨prune, hmem, hlt, hle⟩
        rcases List.mem_append.1 hmem with hmem | hmem
        · exact .inl ⟨prune, hmem, hlt, hle⟩
        · obtain rfl := List.mem_singleton.1 hmem
          exact .inr hlt
      · rintro (⟨prune, hmem, hlt, hle⟩ | hlt)
        · exact ⟨prune, List.mem_append_left _ hmem, hlt, hle⟩
        · exact ⟨⟨beforeMs, s.db.lastId⟩, List.mem_append_right _ (List.mem_singleton_self _), hlt,
            h.given row hrow⟩
    rw [htaken, not_or, not_lt, ← h.kept row hrow]
    exact List.mem_filter.trans (and_congr_right fun _ => decide_eq_true_iff)
  given := h.given
  pruned prune hmem := by
    rcases List.mem_append.1 hmem with hmem | hmem
    · exact h.pruned prune hmem
    · obtain rfl := List.mem_singleton.1 hmem
      exact le_rfl
  later := h.later
  base_le := h.base_le
  increasing := h.increasing
  distinct := h.distinct
  saw op hop := (h.saw op hop).mono
    ⟨.refl _, List.prefix_append _ _, fun _ hrow => .inl (List.mem_of_mem_filter hrow)⟩ h.given

theorem call (h : s.Consistent base) (task : Task) : (s.flush task).Consistent base where
  __ := h
  saw op hop := by
    rcases List.mem_append.1 hop with hop | hop
    · exact h.saw op hop
    · obtain rfl := List.mem_singleton.1 hop
      have htail := h.ordered.tail
      exact ⟨htail.ge, htail ▸ Nat.lt_succ_self _⟩

/-- Where the loop returns, everything that is chained to the tail has settled. -/
theorem wake (h : s.Consistent base) {n : ℕ} {op : Operation} (hop : s.operations[n]? = some op)
    (hstep : s.wakeOf n op.stage = some s') : s'.Consistent base := by
  obtain ⟨currentQueue, hstage, hsettled, hs'⟩ := wakeOf_cases hstep
  have hsaw := h.saw op (List.mem_of_getElem? hop)
  rw [Saw, hstage] at hsaw
  obtain ⟨hcalled, hlt⟩ := hsaw
  rcases hs' with ⟨-, rfl⟩ | rfl
  · refine h.setStage fun op' hop' => ?_
    obtain rfl := Option.some.inj (hop.symm.trans hop')
    exact ⟨hcalled, hlt, fun i hi hstretch => h.ordered.settled_of_stretch hi hstretch hsettled⟩
  · refine h.setStage fun op' hop' => ?_
    obtain rfl := Option.some.inj (hop.symm.trans hop')
    have htail := h.ordered.tail
    have hcalled' : op.calledAt ≤ s.writeQueue.tail + 1 := by omega
    exact ⟨hcalled', htail ▸ Nat.lt_succ_self _⟩

theorem perform (h : s.Consistent base) {n : ℕ} {op : Operation} (hop : s.operations[n]? = some op)
    (hstep : s.performOf n op.task op.stage = some s') : s'.Consistent base := by
  have hsaw := h.saw op (List.mem_of_getElem? hop)
  rw [Saw] at hsaw
  unfold performOf at hstep
  split at hstep
  · next currentQueue _ hstage =>
    rw [hstage] at hsaw
    obtain rfl := Option.some.inj hstep
    refine h.setStage fun op' hop' => ?_
    obtain rfl := Option.some.inj (hop.symm.trans hop')
    refine ⟨hsaw.1, hsaw.2.1, ⟨List.prefix_rfl, h.stored, fun row hrow => h.kept row (.inl hrow)⟩,
      fun i hi hstretch => ⟨hsaw.2.2 i hi hstretch, fun event id hdone => ?_⟩⟩
    exact h.kept _ (stored_of_done hdone)
  · next beforeMs currentQueue _ hstage =>
    rw [hstage] at hsaw
    obtain rfl := Option.some.inj hstep
    refine (h.prune beforeMs).setStage fun op' hop' => ?_
    obtain rfl := Option.some.inj (hop.symm.trans hop')
    refine ⟨hsaw.1, hsaw.2.1, fun i hi hstretch => ⟨hsaw.2.2 i hi hstretch, ?_⟩⟩
    intro event id _ hold hrow
    have hyoung : beforeMs ≤ event.created_at_ms := of_decide_eq_true (List.mem_filter.1 hrow).2
    exact absurd hold (not_lt.2 hyoung)
  · obtain rfl := Option.some.inj hstep
    have hstage : (s.setStage n .closed).Consistent base := h.setStage fun _ _ => trivial
    exact hstage.reset
  · cases hstep

theorem step (h : s.Consistent base) (label : Label) (hstep : step label s = some s') :
    s'.Consistent base := by
  rw [UsageStore.step.eq_def] at hstep
  split at hstep
  · obtain rfl := Option.some.inj hstep
    exact h.record _
  · obtain ⟨queue, hbegin, rfl⟩ := Option.map_eq_some_iff.1 hstep
    exact h.begin hbegin
  · obtain ⟨queue, hsettle, rfl⟩ := Option.map_eq_some_iff.1 hstep
    exact h.failed hsettle
  · split at hstep
    · next hk =>
      obtain ⟨queue, hsettle, rfl⟩ := Option.map_eq_some_iff.1 hstep
      exact h.written hk hsettle
    · cases hstep
  · obtain rfl := Option.some.inj hstep
    exact h.call _
  · obtain ⟨op, hop, hwake⟩ := Option.bind_eq_some_iff.1 hstep
    exact h.wake hop hwake
  · obtain ⟨op, hop, hperform⟩ := Option.bind_eq_some_iff.1 hstep
    exact h.perform hop hperform
  · split at hstep
    · obtain rfl := Option.some.inj hstep
      exact h.setStage fun _ _ => trivial
    · cases hstep

end Consistent

theorem consistent_exec {labels : List Label} (h : Runs.exec step labels (init base) = some s) :
    s.Consistent base :=
  Runs.exec_preserves (fun label _ _ hs hstep => hs.step label hstep) (.init base) h

/-! ## The recordings -/

def Label.recorded : Label → Option PersistedTokenUsageEvent
  | .record event => some event
  | _ => none

/-- The jobs are the recorded events; no other step makes or changes one. -/
theorem tasks_step {label : Label} (hstep : step label s = some s') :
    s'.writeQueue.tasks = s.writeQueue.tasks ++ label.recorded.toList := by
  rw [UsageStore.step.eq_def] at hstep
  split at hstep
  · obtain rfl := Option.some.inj hstep
    exact Heap.tasks_push _
  · obtain ⟨queue, hbegin, rfl⟩ := Option.map_eq_some_iff.1 hstep
    simpa [Label.recorded] using Heap.tasks_begin hbegin
  · obtain ⟨queue, hsettle, rfl⟩ := Option.map_eq_some_iff.1 hstep
    simpa [Label.recorded] using Heap.tasks_settle hsettle
  · split at hstep
    · obtain ⟨queue, hsettle, rfl⟩ := Option.map_eq_some_iff.1 hstep
      simpa [Label.recorded] using Heap.tasks_settle hsettle
    · cases hstep
  · obtain rfl := Option.some.inj hstep
    simp [Label.recorded, flush]
  · obtain ⟨op, _, hwake⟩ := Option.bind_eq_some_iff.1 hstep
    obtain ⟨_, _, _, ⟨_, rfl⟩ | rfl⟩ := wakeOf_cases hwake <;> simp [Label.recorded, setStage]
  · obtain ⟨op, _, hperform⟩ := Option.bind_eq_some_iff.1 hstep
    unfold performOf at hperform
    split at hperform
    · obtain rfl := Option.some.inj hperform
      simp [Label.recorded, setStage]
    · obtain rfl := Option.some.inj hperform
      simp [Label.recorded, setStage, deleteBefore]
    · obtain rfl := Option.some.inj hperform
      simp [Label.recorded, Heap.tasks_reset]
    · cases hperform
  · split at hstep
    · obtain rfl := Option.some.inj hstep
      simp [Label.recorded, setStage]
    · cases hstep

theorem tasks_exec {labels : List Label} (h : Runs.exec step labels s = some s') :
    s'.writeQueue.tasks = s.writeQueue.tasks ++ labels.filterMap Label.recorded := by
  induction labels generalizing s with
  | nil =>
    obtain rfl := Option.some.inj h
    simp
  | cons label labels ih =>
    obtain ⟨t, ht, hexec⟩ := Option.bind_eq_some_iff.1 h
    rw [ih hexec, tasks_step ht, List.append_assoc]
    congr 1
    cases hlabel : label.recorded <;> simp [hlabel]

end UsageStore

open UsageStore

/-- Whatever is in the database file, and in any order of recordings, writes, reads, prunes and
closes: the jobs are the recorded events; the table holds the rows of the file and one of its own
for each event that was written, but for those that a later prune has taken, and no others; and on
one queue the rows come in the order of the recordings. -/
theorem usageEvents_in_order {base : UsageDb} {labels : List Label} {s : UsageStore}
    (hrun : Runs.exec step labels (init base) = some s) :
    s.writeQueue.tasks = labels.filterMap Label.recorded ∧
      (∀ row, row ∈ s.db.rows ↔ Stored base s.writeQueue row ∧ ¬Taken s.prunes row) ∧
      (∀ k event id, s.writeQueue.Done k event (some id) →
        Stored base s.writeQueue (event.row id) ∧ ∀ row ∈ base.rows, row.id < id) ∧
      ∀ i j event event' id id', s.writeQueue.Done i event (some id) →
        s.writeQueue.Done j event' (some id') →
          (id = id' → i = j) ∧ (i < j → Stretch s.writeQueue.links i j → id < id') := by
  have hconsistent := consistent_exec hrun
  refine ⟨tasks_exec hrun, fun row => ⟨fun hrow => ?_, fun hrow => ?_⟩, fun k event id hk => ?_, ?_⟩
  · have hstored := hconsistent.stored row hrow
    exact ⟨hstored, (hconsistent.kept row hstored).1 hrow⟩
  · exact (hconsistent.kept row hrow.1).2 hrow.2
  · refine ⟨stored_of_done hk, fun row hrow => ?_⟩
    exact (base.le_lastId row hrow).trans_lt (hconsistent.later k event id hk)
  · intro i j event event' id id' hi hj
    refine ⟨?_, hconsistent.increasing i j event event' id id' hi hj⟩
    rintro rfl
    exact hconsistent.distinct i j event event' id hi hj

/-- The second of three writes fails. -/
theorem usageEvents_in_order_failed : ∃ s : UsageStore,
    s.db.rows.map (fun row => (row.id, row.created_at_ms)) = [(1, 7), (2, 9)] ∧
      s.writeQueue.tasks.map (·.created_at_ms) = [7, 8, 9] ∧
      ∀ row ∈ s.db.rows, Stored .empty s.writeQueue row := by
  have hrun : (Runs.exec step
      [.record { (default : PersistedTokenUsageEvent) with created_at_ms := 7 },
        .record { (default : PersistedTokenUsageEvent) with created_at_ms := 8 }, .begin 1,
        .record { (default : PersistedTokenUsageEvent) with created_at_ms := 9 }, .written 1,
        .begin 2, .failed 2, .begin 3, .written 3] (init .empty)).map
      (fun s => s.db.rows.map fun row => (row.id, row.created_at_ms)) =
        some [(1, 7), (2, 9)] := by decide +kernel
  obtain ⟨s, hs, hrows⟩ := Option.map_eq_some_iff.1 hrun
  obtain ⟨htasks, hof, _⟩ := usageEvents_in_order hs
  refine ⟨s, hrows, ?_, fun row hrow => ((hof row).1 hrow).1⟩
  rw [htasks]
  rfl

/-- What was recorded before a read or a prune was called, with no close in between, is settled when
it gets to the table: the read has its row, unless the write failed or a prune before the read took
it, and the prune takes its row for good if it is old. A read has no rows but those of the file and
of events that were written. -/
theorem usageStore_flushed {base : UsageDb} {labels : List Label} {s : UsageStore} {op : Operation}
    {k : ℕ} (hrun : Runs.exec step labels (init base) = some s) (hop : op ∈ s.operations)
    (hk : k < op.calledAt) :
    (∀ currentQueue rows prunes, op.stage = .answered currentQueue rows prunes →
      (prunes <+: s.prunes ∧ (∀ row ∈ rows, Stored base s.writeQueue row) ∧
        ∀ row ∈ base.rows, row ∈ rows ↔ ¬Taken prunes row) ∧
      (Stretch s.writeQueue.links k currentQueue → s.writeQueue.IsSettled k ∧
        ∀ event id, s.writeQueue.Done k event (some id) →
          (event.row id ∈ rows ↔ ¬Taken prunes (event.row id)))) ∧
    ∀ currentQueue beforeMs changes, op.stage = .pruned currentQueue beforeMs changes →
      Stretch s.writeQueue.links k currentQueue → s.writeQueue.IsSettled k ∧
        ∀ event id, s.writeQueue.Done k event (some id) → event.created_at_ms < beforeMs →
          event.row id ∉ s.db.rows := by
  have hsaw := (consistent_exec hrun).saw op hop
  rw [Saw] at hsaw
  constructor
  · intro currentQueue rows prunes hstage
    rw [hstage] at hsaw
    obtain ⟨hcalled, _, hrows, hsaw⟩ := hsaw
    exact ⟨hrows, hsaw k (Nat.le_of_lt_succ (hk.trans_le hcalled))⟩
  · intro currentQueue beforeMs changes hstage
    rw [hstage] at hsaw
    obtain ⟨hcalled, _, hsaw⟩ := hsaw
    exact hsaw k (Nat.le_of_lt_succ (hk.trans_le hcalled))

/-- The prune is called before the write has begun. -/
theorem usageStore_flushed_pending : ∃ s : UsageStore,
    s.db.rows = [] ∧ s.writeQueue.IsSettled 1 ∧
      ∀ event id, s.writeQueue.Done 1 event (some id) → event.created_at_ms < 9 →
        event.row id ∉ s.db.rows := by
  have hrun : (Runs.exec step
      [.record { (default : PersistedTokenUsageEvent) with created_at_ms := 7 },
        .call (.prune 9), .begin 1, .written 1, .wake 0, .perform 0] (init .empty)).map
      (fun s => (s.db.rows, s.operations)) =
        some ([], [⟨.prune 9, 2, .pruned 1 9 1⟩]) := by decide +kernel
  obtain ⟨s, hs, hstate⟩ := Option.map_eq_some_iff.1 hrun
  obtain ⟨hrows, hops⟩ := Prod.mk.inj hstate
  have hop : ⟨.prune 9, 2, .pruned 1 9 1⟩ ∈ s.operations := by rw [hops]; exact List.mem_cons_self
  have hflushed := usageStore_flushed hs hop (show 1 < 2 by decide)
  have hstretch : Stretch s.writeQueue.links 1 1 := fun i hlt hle => absurd hlt (Nat.not_lt.2 hle)
  obtain ⟨hsettled, hgone⟩ := hflushed.2 1 9 1 rfl hstretch
  exact ⟨s, hrows, hsettled, hgone⟩

end Maximal.Usage
