import Maximal.Lib.Js.Map
import Maximal.Lib.Js.NumberText
import Maximal.Lib.Windows
import Maximal.Usage.Store
import Mathlib.Data.List.Chain
import Mathlib.Data.Rat.Floor

/-!
# The series of token usage

The events of a period are added up in buckets of equal width. The query groups them by a
division in SQL; the code then walks over the range and looks up what the query has found.

## Main definitions

- `resolveBucketMs`, `getTokenUsageSeries`
- `Conserves` — a series that neither loses nor repeats an event
- `HasRoom` — when a range fits into the largest number of buckets

## Main results

- `getTokenUsageSeries_conserves` — every event is counted once
- `length_buckets_le_iff` — when the series keeps to the largest number of buckets
-/

namespace Maximal.Usage

open Js Windows

def SERIES_TARGET_BUCKETS : ℕ := 60

def SERIES_MAX_BUCKETS : ℕ := 500

def MINUTE_MS : ℤ := 60000

def HOUR_MS : ℤ := 3600000

def DAY_MS : ℤ := 86400000

structure TokenUsageSeriesBucket extends TokenUsageTotals where
  bucket_start_ms : ℤ
  deriving DecidableEq, Repr

structure TokenUsageSeries where
  buckets : List TokenUsageSeriesBucket
  bucket_ms : ℤ
  period : TokenUsagePeriod
  range : UsageRange
  deriving DecidableEq, Repr

/-! ## The width -/

def defaultBucketMs (period : TokenUsagePeriod) (span : ℤ) : ℤ :=
  match period with
  | .day => HOUR_MS
  | .week | .month => DAY_MS
  | .all => max DAY_MS ⌈(span : ℚ) / SERIES_TARGET_BUCKETS⌉

/-- The local `base` of `resolveBucketMs`. -/
def baseBucketMs (period : TokenUsagePeriod) (span : ℤ) (requestedMs : Option Number) : ℤ :=
  match requestedMs with
  | some (.finite m e) =>
    if 0 < m then ⌊Number.value m e⌋ else defaultBucketMs period span
  | _ => defaultBucketMs period span

def PeriodRange.span (range : PeriodRange) : ℤ := max 1 (range.endMs - range.startMs)

def resolveBucketMs (period : TokenUsagePeriod) (range : PeriodRange)
    (requestedMs : Option Number) : Width :=
  let base := baseBucketMs period range.span requestedMs
  let floor := ⌈(range.span : ℚ) / SERIES_MAX_BUCKETS⌉
  ⟨max base (max floor MINUTE_MS), lt_max_of_lt_right (lt_max_of_lt_right (by decide))⟩

/-! ## The query -/

/-- The range of the series: for all time, from the first event to the last. -/
def seriesRange (time : LocalTime) (now : ℤ) (table : Table) (period : TokenUsagePeriod) :
    PeriodRange :=
  let range := getPeriodRange time period now
  if period = .all then
    let times := table.rows.map (·.created_at_ms)
    let maxMs := numberFromRow times.max?
    if 0 < maxMs then { endMs := maxMs + 1, startMs := numberFromRow times.min? }
    else { endMs := range.endMs, startMs := range.endMs - DAY_MS }
  else range

/-- `(CAST(created_at_ms / ? AS INTEGER)) * ?`. The division truncates. -/
def bucketStart (width : Width) (event : StoredEvent) : ℤ :=
  event.created_at_ms.tdiv width.1 * width.1

/-- The rows of the query, `GROUP BY bucket_start_ms ORDER BY bucket_start_ms ASC`. -/
def selectBuckets (table : Table) (range : PeriodRange) (width : Width) :
    List TokenUsageSeriesBucket :=
  (groupBy (bucketStart width) (table.select range)).map fun (start, group) =>
    { selectTotals group with bucket_start_ms := start }

def byBucket (rows : List TokenUsageSeriesBucket) : Entries ℤ TokenUsageTotals :=
  rows.foldl (fun m row => m.set row.bucket_start_ms row.toTokenUsageTotals) []

def createEmptySeries (time : LocalTime) (now : ℤ) (period : TokenUsagePeriod) :
    TokenUsageSeries :=
  let range := getPeriodRange time period now
  { buckets := []
    bucket_ms := (resolveBucketMs period range none).1
    period
    range := range.toUsageRange time }

/-- The storage is `none` where `isTokenUsageStorageEnabled` is false. Pending writes have been
flushed, so the table is the one that the queries see. -/
def getTokenUsageSeries (time : LocalTime) (now : ℤ) (storage : Option Table)
    (period : TokenUsagePeriod) (bucketMs : Option Number) : TokenUsageSeries :=
  match storage with
  | none => createEmptySeries time now period
  | some table =>
    let range := seriesRange time now table period
    let width := resolveBucketMs period range bucketMs
    let found := byBucket (selectBuckets table range width)
    { buckets := (starts width (floor width range.startMs) range.endMs).map fun t =>
        { (found.get t).getD createEmptyTotals with bucket_start_ms := t }
      bucket_ms := width.1
      period
      range := range.toUsageRange time }

/-! ## The buckets -/

variable {time : LocalTime} {now : ℤ} {table : Table} {period : TokenUsagePeriod}
  {bucketMs : Option Number}

/-- On positive times the division of SQL is the one of the loop. -/
theorem bucketStart_eq_floor (width : Width) {event : StoredEvent}
    (h : 0 < event.created_at_ms) : bucketStart width event = floor width event.created_at_ms := by
  rw [bucketStart, floor, Int.tdiv_eq_ediv_of_nonneg h.le]

/-- What the loop finds under a start is the totals of the group, also where there is none. -/
theorem get_byBucket (range : PeriodRange) (width : Width) (t : ℤ) :
    ((byBucket (selectBuckets table range width)).get t).getD createEmptyTotals =
      selectTotals ((table.select range).filter fun event => bucketStart width event = t) := by
  have hget : (byBucket (selectBuckets table range width)).get t =
      if t ∈ groupKeys (bucketStart width) (table.select range) then
        some (selectTotals ((table.select range).filter fun event => bucketStart width event = t))
      else none := by
    rw [byBucket, selectBuckets, groupBy, List.map_map, List.foldl_map]
    exact Entries.get_foldl_set _ (fun k => selectTotals
      ((table.select range).filter fun event => bucketStart width event = k)) [] t
  rw [hget]
  by_cases h : t ∈ groupKeys (bucketStart width) (table.select range)
  · rw [if_pos h, Option.getD_some]
  · have hnone : (table.select range).filter (fun event => bucketStart width event = t) = [] := by
      refine List.filter_eq_nil_iff.2 fun event hevent heq => h ?_
      exact mem_groupKeys.2 ⟨event, hevent, of_decide_eq_true heq⟩
    rw [if_neg h, Option.getD_none, hnone, selectTotals_nil]

/-! ## Every event is counted once -/

def TokenUsageSeriesBucket.Holds (bucket : TokenUsageSeriesBucket) (width t : ℤ) : Prop :=
  bucket.bucket_start_ms ≤ t ∧ t < bucket.bucket_start_ms + width

instance (bucket : TokenUsageSeriesBucket) (width t : ℤ) : Decidable (bucket.Holds width t) :=
  inferInstanceAs (Decidable (_ ∧ _))

/-- The series shows these events, each of them once. -/
structure Conserves (events : List StoredEvent) (series : TokenUsageSeries) : Prop where
  width_pos : 0 < series.bucket_ms
  /-- Contiguous, ascending and equally spaced. -/
  spaced : series.buckets.IsChain fun b c =>
    c.bucket_start_ms = b.bucket_start_ms + series.bucket_ms
  /-- From the first to the last window of the range, with no gap and nothing beyond. -/
  covers : ∀ t, series.range.start_ms ≤ t → t < series.range.end_ms →
    ∃ bucket ∈ series.buckets, bucket.Holds series.bucket_ms t
  within : ∀ bucket ∈ series.buckets, bucket.bucket_start_ms < series.range.end_ms ∧
    series.range.start_ms < bucket.bucket_start_ms + series.bucket_ms
  once : ∀ event ∈ events,
    series.buckets.countP (fun bucket => bucket.Holds series.bucket_ms event.created_at_ms) = 1
  /-- A bucket without events is filled with zeros. -/
  filled : ∀ bucket ∈ series.buckets, bucket.toTokenUsageTotals = selectTotals
    (events.filter fun event => bucket.Holds series.bucket_ms event.created_at_ms)
  sums : (series.buckets.map (·.toTokenUsageTotals)).sum = selectTotals events

/-- The events of a period: for all time, every event. -/
def eventsOf (time : LocalTime) (now : ℤ) (table : Table) (period : TokenUsagePeriod) :
    List StoredEvent :=
  if period = .all then table.rows else table.select (getPeriodRange time period now)

/-- The range of the series for all time leaves no event out. -/
theorem select_seriesRange (h : ∀ event ∈ table.rows, 0 < event.created_at_ms) :
    table.select (seriesRange time now table period) = eventsOf time now table period := by
  by_cases hall : period = .all
  · rw [seriesRange, if_pos hall, eventsOf, if_pos hall, Table.select, List.filter_eq_self]
    intro event hevent
    have hmem : event.created_at_ms ∈ table.rows.map (·.created_at_ms) :=
      List.mem_map_of_mem hevent
    obtain ⟨hi, hmax⟩ := Option.ne_none_iff_exists'.1 (mt List.max?_eq_none_iff.1
      (List.ne_nil_of_mem hmem))
    obtain ⟨lo, hmin⟩ := Option.ne_none_iff_exists'.1 (mt List.min?_eq_none_iff.1
      (List.ne_nil_of_mem hmem))
    -- the event lies between the first and the last
    have hle := (List.max?_eq_some_iff.1 hmax).2 _ hmem
    have hge := (List.min?_eq_some_iff.1 hmin).2 _ hmem
    have hpos := h event hevent
    simp only [hmax, hmin, numberFromRow, Option.getD_some]
    rw [if_pos (by omega)]
    exact decide_eq_true ⟨hge, by change _ < hi + 1; omega⟩
  · rw [seriesRange, if_neg hall, eventsOf, if_neg hall]

theorem pos_of_mem_eventsOf (h : ∀ event ∈ table.rows, 0 < event.created_at_ms)
    {event : StoredEvent} (hevent : event ∈ eventsOf time now table period) :
    0 < event.created_at_ms := by
  rw [eventsOf] at hevent
  split at hevent
  · exact h event hevent
  · exact h event (List.mem_filter.1 hevent).1

/-- The bucket of the window from `t`. -/
def bucketAt (width : Width) (events : List StoredEvent) (t : ℤ) : TokenUsageSeriesBucket :=
  { selectTotals (events.filter fun event => floor width event.created_at_ms = t) with
    bucket_start_ms := t }

theorem buckets_eq (h : ∀ event ∈ table.rows, 0 < event.created_at_ms) :
    (getTokenUsageSeries time now (some table) period bucketMs).buckets =
      let range := seriesRange time now table period
      let width := resolveBucketMs period range bucketMs
      (starts width (floor width range.startMs) range.endMs).map
        (bucketAt width (eventsOf time now table period)) := by
  refine List.map_congr_left fun t _ => ?_
  have hfilter : ∀ width : Width,
      (eventsOf time now table period).filter (fun event => bucketStart width event = t) =
        (eventsOf time now table period).filter
          (fun event => floor width event.created_at_ms = t) :=
    fun width => List.filter_congr fun event hevent => by
      rw [bucketStart_eq_floor _ (pos_of_mem_eventsOf h hevent)]
  rw [get_byBucket, select_seriesRange h, hfilter]
  rfl

theorem holds_bucketAt {width : Width} {events : List StoredEvent} {lo hi t : ℤ}
    (ht : t ∈ starts width (floor width lo) hi) (x : ℤ) :
    (bucketAt width events t).Holds width.1 x ↔ floor width x = t :=
  holds_iff (dvd_of_mem_starts (dvd_floor lo) ht) x

/-- The windows of a range that holds the events, as buckets. -/
theorem conserves_of_buckets {width : Width} {range : PeriodRange} {events : List StoredEvent}
    {series : TokenUsageSeries} (hin : ∀ event ∈ events, range.Contains event)
    (hbuckets : series.buckets = (starts width (floor width range.startMs) range.endMs).map
      (bucketAt width events))
    (hwidth : series.bucket_ms = width.1) (hstart : series.range.start_ms = range.startMs)
    (hend : series.range.end_ms = range.endMs) : Conserves events series where
  width_pos := by
    rw [hwidth]
    exact width.2
  spaced := by
    rw [hbuckets, hwidth, List.isChain_map]
    exact isChain_starts _ _
  covers t hlo hhi := by
    rw [hstart] at hlo
    rw [hend] at hhi
    have hmem := floor_mem_starts (w := width) hlo hhi
    rw [hbuckets, hwidth]
    exact ⟨_, List.mem_map_of_mem hmem, (holds_bucketAt hmem t).2 rfl⟩
  within bucket hbucket := by
    rw [hbuckets] at hbucket
    obtain ⟨t, ht, rfl⟩ := List.mem_map.1 hbucket
    rw [hwidth, hstart, hend]
    obtain ⟨hge, hlt⟩ := le_of_mem_starts ht
    exact ⟨hlt, (holds_floor range.startMs).2.trans_le (Int.add_le_add_right hge _)⟩
  once event hevent := by
    rw [hbuckets, hwidth, List.countP_map]
    exact countP_starts (hin event hevent).1 (hin event hevent).2
  filled bucket hbucket := by
    rw [hbuckets] at hbucket
    obtain ⟨t, ht, rfl⟩ := List.mem_map.1 hbucket
    have hfilter : events.filter (fun event =>
        (bucketAt width events t).Holds width.1 event.created_at_ms) =
          events.filter (fun event => floor width event.created_at_ms = t) :=
      List.filter_congr fun event _ => decide_eq_decide.2 (holds_bucketAt ht _)
    rw [hwidth, hfilter]
    rfl
  sums := by
    have hkeys : ∀ event ∈ events, floor width event.created_at_ms ∈
        starts width (floor width range.startMs) range.endMs :=
      fun event hevent => floor_mem_starts (hin event hevent).1 (hin event hevent).2
    rw [hbuckets, List.map_map, selectTotals_eq_sum events,
      ← sum_fibres (fun event : StoredEvent => floor width event.created_at_ms)
        (fun event => selectTotals [event]) (nodup_starts _ _) hkeys]
    exact congrArg List.sum (List.map_congr_left fun t _ => selectTotals_eq_sum _)

/-- Every event of the period falls into one bucket, no counter loses or gains, and the buckets
follow each other without a gap. -/
theorem getTokenUsageSeries_conserves (time : LocalTime) (now : ℤ) (table : Table)
    (period : TokenUsagePeriod) (bucketMs : Option Number)
    (h : ∀ event ∈ table.rows, 0 < event.created_at_ms) :
    Conserves (eventsOf time now table period)
      (getTokenUsageSeries time now (some table) period bucketMs) := by
  refine conserves_of_buckets (fun event hevent => ?_) (buckets_eq h) rfl rfl rfl
  rw [← select_seriesRange h] at hevent
  exact of_decide_eq_true (List.mem_filter.1 hevent).2

/-- An event of a hundred tokens. -/
def recorded (id created_at_ms : ℤ) (created_at_utc : String) : StoredEvent where
  id
  created_at_ms
  created_at_utc
  trace_id := "trace"
  session_id := ""
  user_id := ""
  source := "copilot"
  endpoint := "messages"
  provider_name := none
  model := "claude-sonnet-4.5"
  input_tokens := 60
  output_tokens := 40
  cache_read_input_tokens := 0
  cache_creation_input_tokens := 0
  total_tokens := 100
  total_nano_aiu := 0
  is_premium := some 1

/-- The clock at Greenwich, with the texts of these instants. -/
def greenwich (texts : List (ℤ × String)) : LocalTime where
  startOfDay t := t / DAY_MS * DAY_MS
  firstOfMonth t := t
  nextDay t := t + DAY_MS
  nextMonth t := t + 31 * DAY_MS
  toISOString t := (texts.lookup t).getD ""

theorem getTokenUsageSeries_conserves_twoEvents :
    let table : Table :=
      ⟨[recorded 1 1700000000000 "2023-11-14T22:13:20.000Z",
        recorded 2 1700000090000 "2023-11-14T22:14:50.000Z"], by decide⟩
    let time := greenwich [(1700000000000, "2023-11-14T22:13:20.000Z"),
      (1700000090001, "2023-11-14T22:14:50.001Z")]
    Conserves (eventsOf time 1700000100000 table .all)
      (getTokenUsageSeries time 1700000100000 (some table) .all (some (.ofNat 60000))) :=
  getTokenUsageSeries_conserves _ _ _ _ _ (by decide)

/-! ## The number of buckets -/

/-- The range fits into the largest number of windows of the width, counted from the window that
it begins in. -/
def PeriodRange.FitsAt (range : PeriodRange) (width : ℤ) : Prop :=
  range.startMs % width + range.span ≤ SERIES_MAX_BUCKETS * width

/-- The width that is asked for: the request or the default, and no less than a minute. -/
def askedMs (period : TokenUsagePeriod) (range : PeriodRange) (requestedMs : Option Number) : ℤ :=
  max (baseBucketMs period range.span requestedMs) MINUTE_MS

/-- The range fits at the width that is asked for. Where that is too small whatever the range
begins with, it fits at the least width that the span alone fits into. -/
def HasRoom (period : TokenUsagePeriod) (range : PeriodRange) (requestedMs : Option Number) :
    Prop :=
  let least := ⌈(range.span : ℚ) / SERIES_MAX_BUCKETS⌉
  range.FitsAt (askedMs period range requestedMs) ∨
    askedMs period range requestedMs < least ∧ range.FitsAt least

theorem le_floor_add_iff_fitsAt (range : PeriodRange) (width : Width) :
    range.endMs ≤ floor width range.startMs + SERIES_MAX_BUCKETS * width.1 ↔
      range.FitsAt width.1 := by
  have hw := width.2
  have hdiv := Int.mul_ediv_add_emod range.startMs width.1
  have hlt := Int.emod_lt_of_pos range.startMs hw
  rw [mul_comm] at hdiv
  -- an empty range has a span of one, and fits like it
  rw [PeriodRange.FitsAt, PeriodRange.span, floor, SERIES_MAX_BUCKETS]
  omega

/-- The loop ends within `n` buckets when `n` windows reach the end of the range. -/
theorem length_buckets_le_iff_endMs_le (n : ℕ) :
    (getTokenUsageSeries time now (some table) period bucketMs).buckets.length ≤ n ↔
      let range := seriesRange time now table period
      let width := resolveBucketMs period range bucketMs
      range.endMs ≤ floor width range.startMs + n * width.1 := by
  rw [getTokenUsageSeries]
  simp only [List.length_map]
  rw [length_starts_le_iff]

/-- No series is longer than the largest number of buckets by more than one. -/
theorem length_buckets_le (time : LocalTime) (now : ℤ) (table : Table)
    (period : TokenUsagePeriod) (bucketMs : Option Number) :
    (getTokenUsageSeries time now (some table) period bucketMs).buckets.length ≤
      SERIES_MAX_BUCKETS + 1 := by
  let range := seriesRange time now table period
  let width := resolveBucketMs period range bucketMs
  have hspan : (range.span : ℚ) ≤ width.1 * SERIES_MAX_BUCKETS := by
    rw [← div_le_iff₀ (by norm_num [SERIES_MAX_BUCKETS])]
    exact Int.ceil_le.1 ((le_max_left _ _).trans (le_max_right _ _))
  have hspan : range.span ≤ width.1 * SERIES_MAX_BUCKETS := by exact_mod_cast hspan
  have hend : range.endMs - range.startMs ≤ range.span := le_max_right _ _
  -- the first window begins before the range, but by less than its width
  have hfloor := (holds_floor (w := width) range.startMs).2
  rw [length_buckets_le_iff_endMs_le]
  push_cast
  rw [add_mul, one_mul, mul_comm]
  change range.endMs ≤ floor width range.startMs + (width.1 * SERIES_MAX_BUCKETS + width.1)
  omega

/-- A range that fits leaves the width at what is asked for. -/
theorem least_le_of_fitsAt {range : PeriodRange} {width : ℤ} (hw : 0 < width)
    (h : range.FitsAt width) : ⌈(range.span : ℚ) / SERIES_MAX_BUCKETS⌉ ≤ width := by
  have hnonneg := Int.emod_nonneg range.startMs hw.ne'
  have hspan : range.span ≤ width * SERIES_MAX_BUCKETS := by
    rw [PeriodRange.FitsAt] at h
    rw [mul_comm]
    omega
  rw [Int.ceil_le, div_le_iff₀ (by norm_num [SERIES_MAX_BUCKETS])]
  exact_mod_cast hspan

theorem fitsAt_resolveBucketMs_iff (period : TokenUsagePeriod) (range : PeriodRange)
    (requestedMs : Option Number) :
    range.FitsAt (resolveBucketMs period range requestedMs).1 ↔
      HasRoom period range requestedMs := by
  have hmax : (resolveBucketMs period range requestedMs).1 =
      max (askedMs period range requestedMs) ⌈(range.span : ℚ) / SERIES_MAX_BUCKETS⌉ := by
    rw [askedMs, max_assoc, max_comm MINUTE_MS]
    rfl
  have hasked : 0 < askedMs period range requestedMs := lt_max_of_lt_right (by decide)
  rw [hmax, HasRoom]
  rcases lt_or_ge (askedMs period range requestedMs) ⌈(range.span : ℚ) / SERIES_MAX_BUCKETS⌉
    with h | h
  · have hnot : ¬range.FitsAt (askedMs period range requestedMs) :=
      fun hfits => h.not_ge (least_le_of_fitsAt hasked hfits)
    rw [max_eq_right h.le]
    exact ⟨fun hfits => .inr ⟨h, hfits⟩, fun hroom => (hroom.resolve_left hnot).2⟩
  · rw [max_eq_left h]
    exact ⟨.inl, fun hroom => hroom.resolve_right fun hright => hright.1.not_ge h⟩

/-- The series keeps to the largest number of buckets exactly when its range has room. -/
theorem length_buckets_le_iff (time : LocalTime) (now : ℤ) (storage : Option Table)
    (period : TokenUsagePeriod) (bucketMs : Option Number) :
    (getTokenUsageSeries time now storage period bucketMs).buckets.length ≤ SERIES_MAX_BUCKETS ↔
      ∀ table, storage = some table →
        HasRoom period (seriesRange time now table period) bucketMs := by
  cases storage with
  | none =>
    refine iff_of_true (Nat.zero_le _) fun table heq => ?_
    cases heq
  | some table =>
    have hlength : (getTokenUsageSeries time now (some table) period bucketMs).buckets.length ≤
        SERIES_MAX_BUCKETS ↔ HasRoom period (seriesRange time now table period) bucketMs := by
      rw [length_buckets_le_iff_endMs_le, le_floor_add_iff_fitsAt, fitsAt_resolveBucketMs_iff]
    rw [hlength]
    exact ⟨fun h _ heq => Option.some.inj heq ▸ h, fun h => h table rfl⟩

/-- A span of five hundred minutes that does not begin with a minute. -/
theorem length_buckets_not_le :
    ¬ (getTokenUsageSeries (greenwich [(1700000040001, "2023-11-14T22:14:00.001Z"),
          (1700030040001, "2023-11-15T06:34:00.001Z")]) 1700030100000
        (some ⟨[recorded 1 1700000040001 "2023-11-14T22:14:00.001Z",
          recorded 2 1700030040000 "2023-11-15T06:34:00.000Z"], by decide⟩)
        .all (some (.ofNat 60000))).buckets.length ≤ SERIES_MAX_BUCKETS := by
  rw [length_buckets_le_iff_endMs_le]
  decide +kernel

end Maximal.Usage
