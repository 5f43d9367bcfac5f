import Mathlib.Algebra.BigOperators.Group.List.Basic
import Mathlib.Algebra.Ring.Int.Defs

/-!
# The token usage store

Rows of the table of usage events, the periods they are asked for, and the counters that the
queries add up.

## Main definitions

- `StoredEvent`, `Table` — the rows, with their primary key
- `getPeriodRange` — the range of time of a period
- `TokenUsageTotals`, `selectTotals` — the counters, and their sums in SQL

## Main results

- `selectTotals_eq_sum` — the select list is the sum over the rows
-/

namespace Maximal.Usage

inductive TokenUsagePeriod where
  | day | week | month | all
  deriving DecidableEq, Repr

/-- A row of `token_usage_events`. -/
structure StoredEvent where
  id : ℤ
  created_at_ms : ℤ
  created_at_utc : String
  trace_id : String
  session_id : String
  user_id : String
  source : String
  endpoint : String
  provider_name : Option String
  model : String
  input_tokens : ℤ
  output_tokens : ℤ
  cache_read_input_tokens : ℤ
  cache_creation_input_tokens : ℤ
  total_tokens : ℤ
  total_nano_aiu : ℤ
  is_premium : Option ℤ
  deriving DecidableEq, Repr

structure Table where
  rows : List StoredEvent
  /-- `id INTEGER PRIMARY KEY`. -/
  nodup_ids : (rows.map (·.id)).Nodup

/-! ## Periods -/

/-- What a `Date` does with an instant in the local time zone. -/
structure LocalTime where
  /-- `setHours(0, 0, 0, 0)`. -/
  startOfDay : ℤ → ℤ
  /-- `setDate(1)`. -/
  firstOfMonth : ℤ → ℤ
  /-- `setDate(getDate() + 1)`. -/
  nextDay : ℤ → ℤ
  /-- `setMonth(getMonth() + 1)`. -/
  nextMonth : ℤ → ℤ
  toISOString : ℤ → String

/-- Half open: an event at `endMs` is not in the range. -/
structure PeriodRange where
  endMs : ℤ
  startMs : ℤ
  deriving DecidableEq, Repr

def getPeriodRange (time : LocalTime) (period : TokenUsagePeriod) (now : ℤ) : PeriodRange :=
  match period with
  | .all => { endMs := now + 1, startMs := 0 }
  | .week => { endMs := now + 1, startMs := now - 7 * 86400000 }
  | .day =>
    let start := time.startOfDay now
    { endMs := time.nextDay start, startMs := start }
  | .month =>
    let start := time.startOfDay (time.firstOfMonth now)
    { endMs := time.nextMonth start, startMs := start }

/-- `created_at_ms >= ? AND created_at_ms < ?`. -/
def PeriodRange.Contains (range : PeriodRange) (event : StoredEvent) : Prop :=
  range.startMs ≤ event.created_at_ms ∧ event.created_at_ms < range.endMs

instance (range : PeriodRange) (event : StoredEvent) : Decidable (range.Contains event) :=
  inferInstanceAs (Decidable (_ ∧ _))

def Table.select (table : Table) (range : PeriodRange) : List StoredEvent :=
  table.rows.filter fun event => range.Contains event

/-- The field `range` of an answer. -/
structure UsageRange where
  end_ms : ℤ
  end_utc : String
  start_ms : ℤ
  start_utc : String
  deriving DecidableEq, Repr

def PeriodRange.toUsageRange (time : LocalTime) (range : PeriodRange) : UsageRange where
  end_ms := range.endMs
  end_utc := time.toISOString range.endMs
  start_ms := range.startMs
  start_utc := time.toISOString range.startMs

/-- A value of a row: a missing one, or `NULL`, is zero. -/
def numberFromRow (value : Option ℤ) : ℤ := value.getD 0

/-! ## Totals -/

@[ext]
structure TokenUsageTotals where
  cache_creation_input_tokens : ℤ
  cache_read_input_tokens : ℤ
  input_tokens : ℤ
  output_tokens : ℤ
  request_count : ℤ
  total_tokens : ℤ
  total_nano_aiu : ℤ
  deriving DecidableEq, Repr

def createEmptyTotals : TokenUsageTotals where
  cache_creation_input_tokens := 0
  cache_read_input_tokens := 0
  input_tokens := 0
  output_tokens := 0
  request_count := 0
  total_tokens := 0
  total_nano_aiu := 0

/-- `COUNT(*)`, and `COALESCE(SUM(column), 0)` for each counter. -/
def selectTotals (rows : List StoredEvent) : TokenUsageTotals where
  cache_creation_input_tokens := (rows.map (·.cache_creation_input_tokens)).sum
  cache_read_input_tokens := (rows.map (·.cache_read_input_tokens)).sum
  input_tokens := (rows.map (·.input_tokens)).sum
  output_tokens := (rows.map (·.output_tokens)).sum
  request_count := rows.length
  total_tokens := (rows.map (·.total_tokens)).sum
  total_nano_aiu := (rows.map (·.total_nano_aiu)).sum

namespace TokenUsageTotals

/-- Counter by counter. -/
def add (a b : TokenUsageTotals) : TokenUsageTotals where
  cache_creation_input_tokens := a.cache_creation_input_tokens + b.cache_creation_input_tokens
  cache_read_input_tokens := a.cache_read_input_tokens + b.cache_read_input_tokens
  input_tokens := a.input_tokens + b.input_tokens
  output_tokens := a.output_tokens + b.output_tokens
  request_count := a.request_count + b.request_count
  total_tokens := a.total_tokens + b.total_tokens
  total_nano_aiu := a.total_nano_aiu + b.total_nano_aiu

instance : Add TokenUsageTotals := ⟨add⟩

instance : Zero TokenUsageTotals := ⟨createEmptyTotals⟩

instance : AddCommMonoid TokenUsageTotals where
  add_assoc a b c := TokenUsageTotals.ext (add_assoc ..) (add_assoc ..) (add_assoc ..)
    (add_assoc ..) (add_assoc ..) (add_assoc ..) (add_assoc ..)
  zero_add a := TokenUsageTotals.ext (zero_add _) (zero_add _) (zero_add _) (zero_add _)
    (zero_add _) (zero_add _) (zero_add _)
  add_zero a := TokenUsageTotals.ext (add_zero _) (add_zero _) (add_zero _) (add_zero _)
    (add_zero _) (add_zero _) (add_zero _)
  add_comm a b := TokenUsageTotals.ext (add_comm ..) (add_comm ..) (add_comm ..)
    (add_comm ..) (add_comm ..) (add_comm ..) (add_comm ..)
  nsmul := nsmulRec

end TokenUsageTotals

@[simp] theorem selectTotals_nil : selectTotals [] = createEmptyTotals := rfl

theorem selectTotals_cons (event : StoredEvent) (rows : List StoredEvent) :
    selectTotals (event :: rows) = selectTotals [event] + selectTotals rows := by
  change _ = TokenUsageTotals.add _ _
  ext <;> simp [selectTotals, TokenUsageTotals.add, add_comm]

/-- The select list is the sum over the rows. -/
theorem selectTotals_eq_sum (rows : List StoredEvent) :
    selectTotals rows = (rows.map fun event => selectTotals [event]).sum := by
  induction rows with
  | nil => rfl
  | cons event rows ih => rw [selectTotals_cons, ih, List.map_cons, List.sum_cons]

end Maximal.Usage
