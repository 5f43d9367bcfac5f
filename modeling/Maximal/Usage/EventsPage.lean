import Maximal.Lib.Pages
import Maximal.Usage.Store
import Mathlib.Data.Prod.Lex
import Mathlib.Data.Rat.Floor

/-!
# Pages of usage events

The events of a period are listed in pages, the newest first.

## Main definitions

- `usageEventFromRow`, `getTokenUsageEventsPage`
- `itemsOfPages` — what all pages list

## Main results

- `itemsOfPages_partition` — the pages list every event of the period once, in order
-/

namespace Maximal.Usage

open Pages

structure TokenUsageEventRecord where
  cache_creation_input_tokens : ℤ
  cache_read_input_tokens : ℤ
  created_at_ms : ℤ
  created_at_utc : String
  endpoint : String
  id : ℤ
  input_tokens : ℤ
  model : String
  output_tokens : ℤ
  provider_name : Option String
  session_id : String
  source : String
  total_tokens : ℤ
  total_nano_aiu : ℤ
  is_premium : Option Bool
  trace_id : String
  user_id : String
  deriving DecidableEq, Repr

/-- `0` or `1` of a row as a truth value; `NULL` is unknown. -/
def premiumFromRow (value : Option ℤ) : Option Bool := value.map fun n => n = 1

def usageEventFromRow (row : StoredEvent) : TokenUsageEventRecord where
  cache_creation_input_tokens := row.cache_creation_input_tokens
  cache_read_input_tokens := row.cache_read_input_tokens
  created_at_ms := row.created_at_ms
  created_at_utc := row.created_at_utc
  endpoint := row.endpoint
  id := row.id
  input_tokens := row.input_tokens
  model := if row.model = "" then "unknown" else row.model
  output_tokens := row.output_tokens
  provider_name := row.provider_name
  session_id := row.session_id
  source := row.source
  total_tokens := row.total_tokens
  total_nano_aiu := row.total_nano_aiu
  is_premium := premiumFromRow row.is_premium
  trace_id := row.trace_id
  user_id := row.user_id

/-- The numbers are finite: `parsePositiveInt` of the route passes no others. -/
structure EventsPageInput where
  page : ℚ
  pageSize : ℚ
  period : TokenUsagePeriod

structure TokenUsageEventsPage where
  items : List TokenUsageEventRecord
  page : ℤ
  page_size : ℤ
  period : TokenUsagePeriod
  range : UsageRange
  total : ℤ
  total_pages : ℤ
  deriving DecidableEq, Repr

/-- `Math.max(1, Math.floor(input.page))`. -/
def clampPage (page : ℚ) : ℤ := max 1 ⌊page⌋

/-- `Math.min(100, Math.max(1, Math.floor(input.pageSize)))`. -/
def clampPageSize (pageSize : ℚ) : ℤ := min 100 (max 1 ⌊pageSize⌋)

def createEmptyEventsPage (time : LocalTime) (now : ℤ) (input : EventsPageInput) :
    TokenUsageEventsPage where
  items := []
  page := clampPage input.page
  page_size := clampPageSize input.pageSize
  period := input.period
  range := (getPeriodRange time input.period now).toUsageRange time
  total := 0
  total_pages := 1

/-- `ORDER BY created_at_ms DESC, id DESC`. -/
def orderKey (event : StoredEvent) : ℤ ×ₗ ℤ := toLex (event.created_at_ms, event.id)

def getTokenUsageEventsPage (time : LocalTime) (now : ℤ) (storage : Option Table)
    (input : EventsPageInput) : TokenUsageEventsPage :=
  match storage with
  | none => createEmptyEventsPage time now input
  | some table =>
    let range := getPeriodRange time input.period now
    let page := clampPage input.page
    let pageSize := clampPageSize input.pageSize
    let offset := (page - 1) * pageSize
    let selected := table.select range
    let rows := slice pageSize.toNat offset.toNat (orderByDesc orderKey selected)
    let total := selected.length
    { items := rows.map usageEventFromRow
      page
      page_size := pageSize
      period := input.period
      range := range.toUsageRange time
      total
      total_pages := max 1 ⌈(total : ℚ) / pageSize⌉ }

/-! ## All pages -/

variable (time : LocalTime) (now : ℤ) (table : Table) (period : TokenUsagePeriod) (pageSize : ℚ)

/-- The page with the number `k`. -/
def pageAt (k : ℕ) : TokenUsageEventsPage :=
  getTokenUsageEventsPage time now (some table) { page := k, pageSize, period }

/-- What the pages from the first to the last list, one after the other. -/
def itemsOfPages : List TokenUsageEventRecord :=
  let pages := (pageAt time now table period pageSize 1).total_pages.toNat
  (List.range' 1 pages).flatMap fun k => (pageAt time now table period pageSize k).items

/-- The documented order: the newest first, and of two of one time the later id. -/
def NewerThan (a b : TokenUsageEventRecord) : Prop :=
  b.created_at_ms < a.created_at_ms ∨ b.created_at_ms = a.created_at_ms ∧ b.id < a.id

theorem clampPageSize_pos (pageSize : ℚ) : 0 < clampPageSize pageSize :=
  lt_min (by decide) (lt_max_of_lt_left (by decide))

variable {time now table period pageSize}

/-- The page after `k` others is the slice of the sorted events after theirs. -/
theorem items_pageAt_succ (k : ℕ) :
    (pageAt time now table period pageSize (k + 1)).items =
      (slice (clampPageSize pageSize).toNat (k * (clampPageSize pageSize).toNat)
        (orderByDesc orderKey (table.select (getPeriodRange time period now)))).map
          usageEventFromRow := by
  have hpos := clampPageSize_pos pageSize
  have hpage : clampPage ((k + 1 : ℕ) : ℚ) = k + 1 := by
    rw [clampPage, Int.floor_natCast]
    omega
  have hoffset : ((clampPage ((k + 1 : ℕ) : ℚ) - 1) * clampPageSize pageSize).toNat =
      k * (clampPageSize pageSize).toNat := by
    rw [hpage, add_sub_cancel_right, Int.toNat_mul (Int.natCast_nonneg k) hpos.le,
      Int.toNat_natCast]
  rw [← hoffset]
  rfl

theorem total_pages_pageAt (k : ℕ) :
    (pageAt time now table period pageSize k).total_pages =
      max 1 ⌈((table.select (getPeriodRange time period now)).length : ℚ) /
        clampPageSize pageSize⌉ := by
  simp only [pageAt, getTokenUsageEventsPage]

/-- A page comes before the last when it and those before it do not hold all events. -/
theorem lt_total_pages_iff {k : ℕ} (hk : 1 ≤ k) :
    k < (pageAt time now table period pageSize 1).total_pages ↔
      k * (clampPageSize pageSize).toNat <
        (table.select (getPeriodRange time period now)).length := by
  have hpos := clampPageSize_pos pageSize
  have hsize : (((clampPageSize pageSize).toNat : ℤ) : ℚ) = clampPageSize pageSize := by
    rw [Int.toNat_of_nonneg hpos.le]
  rw [total_pages_pageAt, lt_max_iff, Int.lt_ceil, lt_div_iff₀ (by exact_mod_cast hpos), ← hsize,
    or_iff_right (by omega)]
  norm_cast

/-- All pages together are the sorted events. -/
theorem itemsOfPages_eq : itemsOfPages time now table period pageSize =
    (orderByDesc orderKey (table.select (getPeriodRange time period now))).map
      usageEventFromRow := by
  have hone : 1 ≤ (pageAt time now table period pageSize 1).total_pages := by
    rw [total_pages_pageAt]
    exact le_max_left _ _
  have hlast : ¬((pageAt time now table period pageSize 1).total_pages.toNat : ℤ) <
      (pageAt time now table period pageSize 1).total_pages := by omega
  have hcover : (orderByDesc orderKey (table.select (getPeriodRange time period now))).length ≤
      (pageAt time now table period pageSize 1).total_pages.toNat *
        (clampPageSize pageSize).toNat := by
    rw [(perm_orderByDesc _ _).length_eq]
    exact not_lt.1 ((lt_total_pages_iff (by omega)).not.1 hlast)
  rw [itemsOfPages, List.range'_eq_map_range, List.flatMap_map]
  simp only [add_comm 1, items_pageAt_succ]
  rw [← List.map_flatMap, flatMap_slice hcover]

/-- The pages list every event of the period once, the newest first, and all pages but the last
are full. -/
theorem itemsOfPages_partition (time : LocalTime) (now : ℤ) (table : Table)
    (period : TokenUsagePeriod) (pageSize : ℚ) :
    let events := table.select (getPeriodRange time period now)
    let page := pageAt time now table period pageSize
    let items := itemsOfPages time now table period pageSize
    items.Perm (events.map usageEventFromRow) ∧ items.Pairwise NewerThan ∧
      (∀ k, (page k).total_pages = (page 1).total_pages) ∧
      ∀ k : ℕ, 1 ≤ k → k < (page 1).total_pages →
        (page k).items.length = (page k).page_size := by
  intro events page items
  have hitems : items = (orderByDesc orderKey events).map usageEventFromRow := itemsOfPages_eq
  refine ⟨?_, ?_, fun k => ?_, fun k hk hlt => ?_⟩
  · rw [hitems]
    exact (perm_orderByDesc _ _).map _
  · -- no two events have one id, so no two tie
    have hkeys : (events.map orderKey).Nodup := by
      have hids : (events.map (·.id)).Nodup := table.nodup_ids.sublist (List.filter_sublist.map _)
      refine List.Nodup.of_map (fun key => (ofLex key).2) ?_
      rwa [List.map_map]
    rw [hitems, List.pairwise_map]
    refine (pairwise_orderByDesc orderKey hkeys).imp fun h => ?_
    exact Prod.Lex.toLex_lt_toLex.1 h
  · rw [total_pages_pageAt, total_pages_pageAt]
  · have hpos := clampPageSize_pos pageSize
    obtain ⟨n, rfl⟩ := Nat.exists_eq_add_of_le' hk
    -- the events reach beyond the end of this page
    have hfull := (lt_total_pages_iff hk).1 hlt
    have hlength : (page (n + 1)).items.length = (clampPageSize pageSize).toNat := by
      rw [items_pageAt_succ, List.length_map, length_slice_of_le]
      rw [(perm_orderByDesc _ _).length_eq]
      rw [Nat.succ_mul] at hfull
      exact hfull.le
    rw [hlength]
    exact Int.toNat_of_nonneg hpos.le

end Maximal.Usage
