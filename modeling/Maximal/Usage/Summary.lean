import Maximal.Lib.Js.Text
import Maximal.Lib.Pages
import Maximal.Usage.EventsPage
import Maximal.Usage.Series
import Mathlib.Data.String.Basic
import Mathlib.Order.WithBot

/-!
# The summary of token usage

The totals of a period, and the same totals by model and by provider. `NULL` is a provider name of
its own in `GROUP BY`, and comes before all others.

## Main definitions

- `getTokenUsageSummary`
- `Partitions` — what a summary says about the events of its period

## Main results

- `getTokenUsageSummary_partitions` — each event counts under one model and one provider
- `usageViews_agree` — the summary, the series and the pages of a period count the same events
-/

namespace Maximal.Usage

open Js Pages Windows

structure TokenUsageModelSummary extends TokenUsageTotals where
  model : String
  is_premium : Option Bool
  deriving DecidableEq, Repr

structure TokenUsageProviderSummary extends TokenUsageTotals where
  source : String
  provider_name : Option String
  provider : String
  deriving DecidableEq, Repr

structure TokenUsageSummary where
  byModel : List TokenUsageModelSummary
  byProvider : List TokenUsageProviderSummary
  period : TokenUsagePeriod
  range : UsageRange
  totals : TokenUsageTotals
  deriving DecidableEq, Repr

def providerKey (source : String) (providerName : Option String) : String :=
  if source = "copilot" then "copilot"
  else
    match providerName with
    | some name => if trim name = "" then "provider" else name
    | none => "provider"

def createEmptySummary (time : LocalTime) (now : ℤ) (period : TokenUsagePeriod) :
    TokenUsageSummary where
  byModel := []
  byProvider := []
  period
  range := (getPeriodRange time period now).toUsageRange time
  totals := createEmptyTotals

/-- The query by model: `GROUP BY model`, with `MAX(is_premium)`. -/
def selectModels (events : List StoredEvent) : List TokenUsageModelSummary :=
  (groupBy (·.model) events).map fun (model, group) =>
    { selectTotals group with
      model
      is_premium := premiumFromRow (group.filterMap (·.is_premium)).max? }

/-- `source, provider_name`. -/
def providerGroup (event : StoredEvent) : String ×ₗ WithBot String :=
  toLex (event.source, event.provider_name)

/-- The query by provider: `GROUP BY source, provider_name`. -/
def selectProviders (events : List StoredEvent) : List TokenUsageProviderSummary :=
  (groupBy providerGroup events).map fun (key, group) =>
    { selectTotals group with
      source := (ofLex key).1
      provider_name := (ofLex key).2
      provider := providerKey (ofLex key).1 (ofLex key).2 }

/-- `ORDER BY total_tokens DESC, name ASC`. -/
def trafficKey (total_tokens : ℤ) (name : String) : ℤ ×ₗ Stringᵒᵈ :=
  toLex (total_tokens, OrderDual.toDual name)

def getTokenUsageSummary (time : LocalTime) (now : ℤ) (storage : Option Table)
    (period : TokenUsagePeriod) : TokenUsageSummary :=
  match storage with
  | none => createEmptySummary time now period
  | some table =>
    let range := getPeriodRange time period now
    let events := table.select range
    { byModel := orderByDesc (fun row => trafficKey row.total_tokens row.model)
        (selectModels events)
      byProvider := orderByDesc (fun row => trafficKey row.total_tokens row.source)
        (selectProviders events)
      period
      range := range.toUsageRange time
      totals := selectTotals events }

/-! ## Each event once -/

/-- The rows of one query add up to the totals and have a key each, the keys of the events. -/
structure Rollup {κ ρ : Type} [DecidableEq κ] (events : List StoredEvent) (keyOf : StoredEvent → κ)
    (rows : List ρ) (key : ρ → κ) (totals : ρ → TokenUsageTotals) : Prop where
  sums : (rows.map totals).sum = selectTotals events
  distinct : (rows.map key).Nodup
  mem_iff : ∀ k, k ∈ rows.map key ↔ ∃ event ∈ events, keyOf event = k
  group : ∀ row ∈ rows, totals row = selectTotals (events.filter fun event => keyOf event = key row)

structure Partitions (events : List StoredEvent) (summary : TokenUsageSummary) : Prop where
  totals : summary.totals = selectTotals events
  byModel : Rollup events (·.model) summary.byModel (·.model) (·.toTokenUsageTotals)
  byProvider : Rollup events (fun event => (event.source, event.provider_name)) summary.byProvider
    (fun row => (row.source, row.provider_name)) (·.toTokenUsageTotals)
  modelOrder : summary.byModel.Pairwise fun a b =>
    b.total_tokens < a.total_tokens ∨ b.total_tokens = a.total_tokens ∧ a.model < b.model
  providerOrder : summary.byProvider.Pairwise fun a b =>
    b.total_tokens < a.total_tokens ∨ b.total_tokens = a.total_tokens ∧ a.source ≤ b.source
  /-- Known from one event on, and premium if one event was. -/
  premium : (∀ event ∈ events, ∀ flag ∈ event.is_premium, flag = 0 ∨ flag = 1) →
    ∀ row ∈ summary.byModel,
      (row.is_premium = none ↔ ∀ event ∈ events, event.model = row.model → event.is_premium = none) ∧
      (row.is_premium = some true ↔
        ∃ event ∈ events, event.model = row.model ∧ event.is_premium = some 1)

namespace Rollup

variable {κ ρ ι : Type} [DecidableEq κ] [LinearOrder ι] {events : List StoredEvent}
  {keyOf : StoredEvent → κ} {rows rows' : List ρ} {key : ρ → κ} {totals : ρ → TokenUsageTotals}

/-- The rows of `GROUP BY`. -/
theorem of_groupBy {group : StoredEvent → ι} {name : ι → κ} (hname : Function.Injective name)
    {row : ι × List StoredEvent → ρ} (htotals : ∀ k events, totals (row (k, events)) =
      selectTotals events) (hkey : ∀ k events, key (row (k, events)) = name k) :
    Rollup events (fun event => name (group event)) ((groupBy group events).map row) key
      totals := by
  have hkeys : ((groupBy group events).map row).map key = (groupKeys group events).map name := by
    rw [groupBy, List.map_map, List.map_map]
    exact List.map_congr_left fun k _ => hkey k _
  have hgroup : ∀ k, events.filter (fun event => name (group event) = name k) =
      events.filter fun event => group event = k :=
    fun k => List.filter_congr fun event _ => decide_eq_decide.2 hname.eq_iff
  constructor
  · rw [groupBy, List.map_map, List.map_map, selectTotals_eq_sum events,
      ← sum_fibres group (fun event => selectTotals [event]) (nodup_groupKeys group events)
        fun event hevent => mem_groupKeys.2 ⟨event, hevent, rfl⟩]
    exact congrArg List.sum (List.map_congr_left fun k _ =>
      (htotals k _).trans (selectTotals_eq_sum _))
  · rw [hkeys]
    exact (nodup_groupKeys group events).map hname
  · intro k
    rw [hkeys, List.mem_map]
    constructor
    · rintro ⟨k', hk', rfl⟩
      obtain ⟨event, hevent, rfl⟩ := mem_groupKeys.1 hk'
      exact ⟨event, hevent, rfl⟩
    · rintro ⟨event, hevent, rfl⟩
      exact ⟨group event, mem_groupKeys.2 ⟨event, hevent, rfl⟩, rfl⟩
  · intro r hr
    obtain ⟨⟨k, grouped⟩, hmem, rfl⟩ := List.mem_map.1 hr
    obtain ⟨k', -, heq⟩ := List.mem_map.1 hmem
    obtain ⟨rfl, rfl⟩ := Prod.mk.inj heq
    rw [htotals, hkey, hgroup]

/-- The order of the rows does not matter. -/
theorem perm (h : Rollup events keyOf rows key totals) (hperm : rows'.Perm rows) :
    Rollup events keyOf rows' key totals where
  sums := (hperm.map totals).sum_eq.trans h.sums
  distinct := (hperm.map key).nodup_iff.2 h.distinct
  mem_iff k := (hperm.map key).mem_iff.trans (h.mem_iff k)
  group row hrow := h.group row (hperm.mem_iff.1 hrow)

end Rollup

theorem rollup_selectModels (events : List StoredEvent) :
    Rollup events (·.model) (selectModels events) (·.model) (·.toTokenUsageTotals) :=
  .of_groupBy (Function.injective_id : Function.Injective (id : String → String)) (fun _ _ => rfl)
    fun _ _ => rfl

theorem rollup_selectProviders (events : List StoredEvent) :
    Rollup events (fun event => (event.source, event.provider_name)) (selectProviders events)
      (fun row => (row.source, row.provider_name)) (·.toTokenUsageTotals) := by
  have hname : Function.Injective fun key : String ×ₗ WithBot String => ofLex key := ofLex.injective
  change Rollup events (fun event => ofLex (providerGroup event)) _ _ _
  exact .of_groupBy hname (fun _ _ => rfl) fun _ _ => rfl

/-- The greatest flag of a group whose flags are zero or one. -/
theorem premiumFromRow_max {flags : List ℤ} (h : ∀ flag ∈ flags, flag = 0 ∨ flag = 1) :
    (premiumFromRow flags.max? = none ↔ flags = []) ∧
      (premiumFromRow flags.max? = some true ↔ 1 ∈ flags) := by
  rw [premiumFromRow, Option.map_eq_none_iff, List.max?_eq_none_iff]
  refine ⟨Iff.rfl, ?_⟩
  constructor
  · intro hmax
    obtain ⟨flag, hflag, hone⟩ := Option.map_eq_some_iff.1 hmax
    obtain rfl : flag = 1 := of_decide_eq_true hone
    exact (List.max?_eq_some_iff.1 hflag).1
  · intro hmem
    obtain ⟨flag, hflag⟩ := Option.ne_none_iff_exists'.1
      (mt List.max?_eq_none_iff.1 (List.ne_nil_of_mem hmem))
    obtain ⟨hin, hle⟩ := List.max?_eq_some_iff.1 hflag
    have hone := hle 1 hmem
    rcases h flag hin with rfl | rfl
    · omega
    · rw [hflag]
      rfl

theorem premium_selectModels {events : List StoredEvent}
    (h : ∀ event ∈ events, ∀ flag ∈ event.is_premium, flag = 0 ∨ flag = 1)
    {row : TokenUsageModelSummary} (hrow : row ∈ selectModels events) :
    (row.is_premium = none ↔ ∀ event ∈ events, event.model = row.model → event.is_premium = none) ∧
      (row.is_premium = some true ↔
        ∃ event ∈ events, event.model = row.model ∧ event.is_premium = some 1) := by
  obtain ⟨⟨model, group⟩, hmem, rfl⟩ := List.mem_map.1 hrow
  obtain ⟨model', -, heq⟩ := List.mem_map.1 hmem
  obtain ⟨rfl, rfl⟩ := Prod.mk.inj heq
  have hmemFlags : ∀ flag, flag ∈ (events.filter fun event => event.model = model').filterMap
      (·.is_premium) ↔ ∃ event ∈ events, event.model = model' ∧ event.is_premium = some flag := by
    intro flag
    simp only [List.mem_filterMap, List.mem_filter, decide_eq_true_eq, and_assoc]
  have hflags : ∀ flag ∈ (events.filter fun event => event.model = model').filterMap
      (·.is_premium), flag = 0 ∨ flag = 1 := by
    intro flag hflag
    obtain ⟨event, hevent, -, hsome⟩ := (hmemFlags flag).1 hflag
    exact h event hevent flag hsome
  obtain ⟨hnone, htrue⟩ := premiumFromRow_max hflags
  refine ⟨?_, htrue.trans (hmemFlags 1)⟩
  rw [hnone, List.filterMap_eq_nil_iff]
  simp only [List.mem_filter, decide_eq_true_eq, and_imp]

/-- The counters of a period, counted once by model and once by provider, the most traffic first. -/
theorem getTokenUsageSummary_partitions (time : LocalTime) (now : ℤ) (table : Table)
    (period : TokenUsagePeriod) :
    Partitions (table.select (getPeriodRange time period now))
      (getTokenUsageSummary time now (some table) period) where
  totals := rfl
  byModel := (rollup_selectModels _).perm (perm_orderByDesc _ _)
  byProvider := (rollup_selectProviders _).perm (perm_orderByDesc _ _)
  modelOrder := by
    -- no two rows have one model, so no two tie
    have hkeys : ((selectModels (table.select (getPeriodRange time period now))).map fun row =>
        trafficKey row.total_tokens row.model).Nodup := by
      refine List.Nodup.of_map (fun key => OrderDual.ofDual (ofLex key).2) ?_
      rw [List.map_map]
      exact (rollup_selectModels _).distinct
    exact (pairwise_orderByDesc _ hkeys).imp fun h => Prod.Lex.toLex_lt_toLex.1 h
  providerOrder := by
    have hle := pairwise_le_orderByDesc (fun row => trafficKey row.total_tokens row.source)
      (selectProviders (table.select (getPeriodRange time period now)))
    exact hle.imp fun h => Prod.Lex.toLex_le_toLex.1 h
  premium h row hrow :=
    premium_selectModels h ((perm_orderByDesc _ _).mem_iff.1 hrow)

/-! ## The views agree -/

/-- What one event counts. -/
def TokenUsageEventRecord.totals (item : TokenUsageEventRecord) : TokenUsageTotals where
  cache_creation_input_tokens := item.cache_creation_input_tokens
  cache_read_input_tokens := item.cache_read_input_tokens
  input_tokens := item.input_tokens
  output_tokens := item.output_tokens
  request_count := 1
  total_tokens := item.total_tokens
  total_nano_aiu := item.total_nano_aiu

theorem totals_usageEventFromRow (event : StoredEvent) :
    (usageEventFromRow event).totals = selectTotals [event] := by
  ext <;> simp [TokenUsageEventRecord.totals, usageEventFromRow, selectTotals]

/-- The series for all time shows the events that the summary counts, if none is of the future. -/
theorem eventsOf_eq_select {time : LocalTime} {now : ℤ} {table : Table} {period : TokenUsagePeriod}
    (hpos : ∀ event ∈ table.rows, 0 < event.created_at_ms)
    (hpast : period = .all → ∀ event ∈ table.rows, event.created_at_ms ≤ now) :
    eventsOf time now table period = table.select (getPeriodRange time period now) := by
  rw [eventsOf]
  split
  · next hall =>
    subst hall
    rw [Table.select, eq_comm, List.filter_eq_self]
    intro event hevent
    exact decide_eq_true ⟨(hpos event hevent).le, Int.lt_add_one_of_le (hpast rfl event hevent)⟩
  · rfl

/-- At one moment the three views of a period count the same events: the buckets of the series, of
any width, and the items on the pages, of any size, add up to the totals of the summary. -/
theorem usageViews_agree (time : LocalTime) (now : ℤ) (table : Table) (period : TokenUsagePeriod)
    (bucketMs : Option Number) (pageSize : ℚ)
    (hpos : ∀ event ∈ table.rows, 0 < event.created_at_ms)
    (hpast : period = .all → ∀ event ∈ table.rows, event.created_at_ms ≤ now) :
    ((getTokenUsageSeries time now (some table) period bucketMs).buckets.map
        (·.toTokenUsageTotals)).sum = (getTokenUsageSummary time now (some table) period).totals ∧
      ((itemsOfPages time now table period pageSize).map (·.totals)).sum =
        (getTokenUsageSummary time now (some table) period).totals ∧
      ∀ page : ℚ, (getTokenUsageEventsPage time now (some table) { page, pageSize, period }).total =
        (getTokenUsageSummary time now (some table) period).totals.request_count := by
  refine ⟨?_, ?_, fun page => rfl⟩
  · have hconserves : Conserves (eventsOf time now table period)
        (getTokenUsageSeries time now (some table) period bucketMs) := by
      refine conserves_of_buckets (fun event hevent => ?_) (buckets_eq hpos) rfl rfl rfl
      rw [← select_seriesRange hpos] at hevent
      exact of_decide_eq_true (List.mem_filter.1 hevent).2
    rw [hconserves.sums, eventsOf_eq_select hpos hpast]
    rfl
  · rw [itemsOfPages_eq, List.map_map]
    have hitem : (TokenUsageEventRecord.totals ∘ usageEventFromRow) =
        fun event => selectTotals [event] := funext totals_usageEventFromRow
    rw [hitem, ((perm_orderByDesc orderKey _).map _).sum_eq, ← selectTotals_eq_sum]
    rfl

theorem usageViews_agree_twoEvents :
    (getTokenUsageSummary (greenwich []) 1700000100000
        (some ⟨[recorded 1 1700000000000 "", recorded 2 1700000090000 ""], by decide⟩)
        .all).totals.request_count = 2 ∧
      ((itemsOfPages (greenwich []) 1700000100000
        ⟨[recorded 1 1700000000000 "", recorded 2 1700000090000 ""], by decide⟩ .all 1).map
          TokenUsageEventRecord.totals).sum.total_tokens = 200 := by
  have hviews := usageViews_agree (greenwich []) 1700000100000
    ⟨[recorded 1 1700000000000 "", recorded 2 1700000090000 ""], by decide⟩ .all none 1
    (by decide) (fun _ => by decide)
  refine ⟨by decide +kernel, ?_⟩
  rw [hviews.2.1]
  decide +kernel

end Maximal.Usage
