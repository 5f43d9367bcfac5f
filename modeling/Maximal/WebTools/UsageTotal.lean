import Maximal.Lib.Js.Counts
import Maximal.WebTools.StreamTurns

/-!
# Web tools: the usage of all turns

Every turn is a call that the upstream bills by itself. What the client is told at the end is the
sum over the turns.

## Main definitions

- `Report` — what one turn reports
- `Totals` — a total counts every report of a list once

## Main results

- `agentLoop_billed`, `streamLoop_billed` — the turns from any state on
- `usage_billed` — whole runs
-/

namespace Maximal.WebTools

open Js

/-! ## Sums -/

/-- The total is the sum of what has been reported, where that is counts. -/
def IsSum (reported : List Val) (total : Json) : Prop :=
  ∀ value : Val → ℚ, (∀ v ∈ reported, IsCount v (value v)) →
    IsCount (some total) (reported.map value).sum

/-- The same for a count that not every turn reports. -/
structure IsOptionalSum (reported : List Val) (total : Val) : Prop where
  present : total.isSome ↔ ∃ v ∈ reported, v.isSome
  sum : ∀ sum, total = some sum → IsSum (reported.filter Option.isSome) sum

theorem isSum_nil : IsSum [] (.number (.ofNat 0)) :=
  fun _ _ => isCount_zero

/-- One more value is added. -/
theorem IsSum.plus {reported : List Val} {total sum : Json} {v : Val} (h : IsSum reported total)
    (hplus : Val.plus total v = .ok sum) : IsSum (reported ++ [v]) sum := by
  intro value hcounts
  have htotal := h value fun w hw => hcounts w (List.mem_append_left _ hw)
  have hv := hcounts v (List.mem_append_right _ List.mem_cons_self)
  obtain ⟨sum', hsum', hcount⟩ := isCount_plus htotal hv
  obtain rfl : sum' = sum := by
    rw [hplus] at hsum'
    exact (Except.ok.inj hsum').symm
  rwa [List.map_append, List.sum_append, List.map_singleton, List.sum_singleton]

theorem isOptionalSum_nil : IsOptionalSum [] none :=
  ⟨by simp, fun _ h => nomatch h⟩

/-- A total that is not there yet counts as zero. -/
theorem IsOptionalSum.base {reported : List Val} {total : Val} (h : IsOptionalSum reported total) :
    IsSum (reported.filter Option.isSome) (total.orElse (.number (.ofNat 0))) := by
  intro value hcounts
  cases total with
  | none =>
    have hnone : reported.filter Option.isSome = [] :=
      List.filter_eq_nil_iff.2 fun w hw hsome => Bool.false_ne_true (h.present.2 ⟨w, hw, hsome⟩)
    rw [hnone]
    exact isSum_nil value (by simp)
  | some j =>
    obtain ⟨m, e, hj, hvalue⟩ := h.sum j rfl value hcounts
    obtain rfl := Option.some.inj hj
    exact ⟨m, e, rfl, hvalue⟩

/-- One more turn has reported the count, or has not. -/
theorem IsOptionalSum.add {reported : List Val} {total sum v : Val}
    (h : IsOptionalSum reported total) (hadd : addIfReported total v = .ok sum) :
    IsOptionalSum (reported ++ [v]) sum := by
  cases v with
  | none =>
    obtain rfl := Except.ok.inj hadd
    refine ⟨?_, ?_⟩
    · rw [h.present]
      simp
    · intro j hj
      rw [List.filter_append, List.filter_singleton, Option.isSome_none, cond_false,
        List.append_nil]
      exact h.sum j hj
  | some n =>
    rw [addIfReported] at hadd
    obtain ⟨j, hplus, rfl⟩ := exists_of_map_eq_ok hadd
    refine ⟨by simp, fun j' hj' => ?_⟩
    obtain rfl := Option.some.inj hj'
    rw [List.filter_append]
    exact h.base.plus hplus

/-! ## Reports -/

/-- What one turn reports. -/
structure Report where
  usage : TurnUsage
  totalNanoAiu : Val := none

def AnthropicResponse.report (resp : AnthropicResponse) : Report :=
  ⟨resp.usage, resp.totalNanoAiu⟩

/-- A stream reports its usage with the end of the message. -/
def report? : AnthropicStreamEventData → Option Report
  | .messageDelta _ u => some
    { usage :=
        { inputTokens := some (.number u.inputTokens)
          outputTokens := some u.outputTokens
          cacheReadInputTokens := u.cacheReadInputTokens } }
  | _ => none

def StreamTurn.reports (t : StreamTurn) : List Report := t.events.filterMap report?

/-- Every component is the sum over the reports; those a turn may leave out are there once a turn
has reported them. -/
structure Totals (reports : List Report) (total : UsageTotal) : Prop where
  inputTokens : IsSum (reports.map (·.usage.inputTokens)) total.inputTokens
  outputTokens : IsSum (reports.map (·.usage.outputTokens)) total.outputTokens
  cacheRead : IsOptionalSum (reports.map (·.usage.cacheReadInputTokens))
    total.cacheReadInputTokens
  cacheCreation : IsOptionalSum (reports.map (·.usage.cacheCreationInputTokens))
    total.cacheCreationInputTokens
  nano : IsOptionalSum (reports.map (·.totalNanoAiu)) total.copilotTotalNanoAiu

theorem totals_newUsageTotal : Totals [] newUsageTotal :=
  ⟨isSum_nil, isSum_nil, isOptionalSum_nil, isOptionalSum_nil, isOptionalSum_nil⟩

theorem Totals.add {reports : List Report} {total total' : UsageTotal} (h : Totals reports total)
    (r : Report)
    (hinput : Val.plus total.inputTokens r.usage.inputTokens = .ok total'.inputTokens)
    (houtput : Val.plus total.outputTokens r.usage.outputTokens = .ok total'.outputTokens)
    (hread : addIfReported total.cacheReadInputTokens r.usage.cacheReadInputTokens =
      .ok total'.cacheReadInputTokens)
    (hcreation : addIfReported total.cacheCreationInputTokens r.usage.cacheCreationInputTokens =
      .ok total'.cacheCreationInputTokens)
    (hnano : addIfReported total.copilotTotalNanoAiu r.totalNanoAiu =
      .ok total'.copilotTotalNanoAiu) : Totals (reports ++ [r]) total' := by
  constructor <;> rw [List.map_append]
  · exact h.inputTokens.plus hinput
  · exact h.outputTokens.plus houtput
  · exact h.cacheRead.add hread
  · exact h.cacheCreation.add hcreation
  · exact h.nano.add hnano

theorem Totals.turn {reports : List Report} {total total' : UsageTotal} (h : Totals reports total)
    {resp : AnthropicResponse} (hturn : accumulateTurnUsage total resp = .ok total') :
    Totals (reports ++ [resp.report]) total' := by
  rw [accumulateTurnUsage] at hturn
  obtain ⟨input, hinput, hturn⟩ := exists_of_bind_eq_ok hturn
  obtain ⟨output, houtput, hturn⟩ := exists_of_bind_eq_ok hturn
  obtain ⟨creation, hcreation, hturn⟩ := exists_of_bind_eq_ok hturn
  obtain ⟨read, hread, hturn⟩ := exists_of_bind_eq_ok hturn
  obtain ⟨nano, hnano, hturn⟩ := exists_of_bind_eq_ok hturn
  obtain rfl := Except.ok.inj hturn
  exact h.add resp.report hinput houtput hread hcreation hnano

/-- The events of a turn are added in their order. -/
theorem Totals.events {reports : List Report} {total total' : UsageTotal}
    {events : List AnthropicStreamEventData} (h : Totals reports total)
    (hevents : accumulateUsage total events = .ok total') :
    Totals (reports ++ events.filterMap report?) total' := by
  induction events generalizing reports total with
  | nil =>
    obtain rfl := Except.ok.inj hevents
    rwa [List.filterMap_nil, List.append_nil]
  | cons event events ih =>
    cases event with
    | messageDelta stopReason u =>
      rw [accumulateUsage] at hevents
      obtain ⟨input, hinput, hevents⟩ := exists_of_bind_eq_ok hevents
      obtain ⟨output, houtput, hevents⟩ := exists_of_bind_eq_ok hevents
      obtain ⟨read, hread, hevents⟩ := exists_of_bind_eq_ok hevents
      rw [List.filterMap_cons_some (f := report?) rfl, List.append_cons]
      refine ih ?_ hevents
      exact h.add _ hinput houtput hread rfl rfl
    | _ =>
      rw [List.filterMap_cons_none rfl]
      exact ih h hevents

/-- The turn reports counts, where it reports something at all. -/
structure Report.Counted (r : Report) : Prop where
  inputTokens : ∃ q, IsCount r.usage.inputTokens q
  outputTokens : ∃ q, IsCount r.usage.outputTokens q
  cacheRead : ∀ n, r.usage.cacheReadInputTokens = some n → ∃ q, IsCount (some n) q
  cacheCreation : ∀ n, r.usage.cacheCreationInputTokens = some n → ∃ q, IsCount (some n) q
  nano : ∀ n, r.totalNanoAiu = some n → ∃ q, IsCount (some n) q

theorem IsSum.isCount {reported : List Val} {total : Json} (h : IsSum reported total)
    (hreported : ∀ v ∈ reported, ∃ q, IsCount v q) : ∃ q, IsCount (some total) q := by
  choose! value hvalue using hreported
  exact ⟨_, h value hvalue⟩

theorem IsSum.exists_plus {reported : List Val} {total : Json} {v : Val} (h : IsSum reported total)
    (hreported : ∀ v ∈ reported, ∃ q, IsCount v q) (hv : ∃ q, IsCount v q) :
    ∃ sum, Val.plus total v = .ok sum := by
  obtain ⟨p, hp⟩ := h.isCount hreported
  obtain ⟨q, hq⟩ := hv
  obtain ⟨sum, hsum, -⟩ := isCount_plus hp hq
  exact ⟨sum, hsum⟩

theorem IsOptionalSum.exists_add {reported : List Val} {total v : Val}
    (h : IsOptionalSum reported total)
    (hreported : ∀ n, some n ∈ reported → ∃ q, IsCount (some n) q)
    (hv : ∀ n, v = some n → ∃ q, IsCount (some n) q) :
    ∃ sum, addIfReported total v = .ok sum := by
  cases v with
  | none => exact ⟨total, rfl⟩
  | some n =>
    have hsome : ∀ w ∈ reported.filter Option.isSome, ∃ q, IsCount w q := by
      intro w hw
      obtain ⟨hw, hisSome⟩ := List.mem_filter.1 hw
      obtain ⟨m, rfl⟩ := Option.isSome_iff_exists.1 hisSome
      exact hreported m hw
    obtain ⟨sum, hsum⟩ := h.base.exists_plus hsome (hv n rfl)
    exact ⟨some sum, by rw [addIfReported, hsum]; rfl⟩

/-- Counts can be added to a total of counts. -/
theorem Totals.exists_turn {reports : List Report} {total : UsageTotal} (h : Totals reports total)
    (hreports : ∀ r ∈ reports, r.Counted) {resp : AnthropicResponse} (hresp : resp.report.Counted) :
    ∃ total', accumulateTurnUsage total resp = .ok total' := by
  have hreported {f : Report → Val}
      (hf : ∀ r ∈ reports, ∀ n, f r = some n → ∃ q, IsCount (some n) q) (n : Json)
      (hn : some n ∈ reports.map f) : ∃ q, IsCount (some n) q := by
    obtain ⟨r, hr, hfr⟩ := List.mem_map.1 hn
    exact hf r hr n hfr
  obtain ⟨input, hinput⟩ : ∃ sum, Val.plus total.inputTokens resp.usage.inputTokens = .ok sum :=
    h.inputTokens.exists_plus (List.forall_mem_map.2 fun r hr => (hreports r hr).inputTokens)
      hresp.inputTokens
  obtain ⟨output, houtput⟩ : ∃ sum, Val.plus total.outputTokens resp.usage.outputTokens = .ok sum :=
    h.outputTokens.exists_plus (List.forall_mem_map.2 fun r hr => (hreports r hr).outputTokens)
      hresp.outputTokens
  obtain ⟨creation, hcreation⟩ : ∃ sum, addIfReported total.cacheCreationInputTokens
      resp.usage.cacheCreationInputTokens = .ok sum :=
    h.cacheCreation.exists_add (hreported fun r hr => (hreports r hr).cacheCreation)
      hresp.cacheCreation
  obtain ⟨read, hread⟩ : ∃ sum, addIfReported total.cacheReadInputTokens
      resp.usage.cacheReadInputTokens = .ok sum :=
    h.cacheRead.exists_add (hreported fun r hr => (hreports r hr).cacheRead) hresp.cacheRead
  obtain ⟨nano, hnano⟩ : ∃ sum, addIfReported total.copilotTotalNanoAiu resp.totalNanoAiu =
      .ok sum :=
    h.nano.exists_add (hreported fun r hr => (hreports r hr).nano) hresp.nano
  rw [accumulateTurnUsage]
  simp only [hinput, houtput, hcreation, hread, hnano]
  exact ⟨_, rfl⟩

/-! ## The agent loop -/

section

variable {platform : Platform} {executor : Executor}

theorem agentLoop_sent_length (callOnce : ℕ → Except Failure AnthropicResponse) (left : ℕ)
    (s : AgentState) :
    (agentLoop platform executor callOnce left s).sent.length ≤ left + 1 := by
  induction left generalizing s with
  | zero =>
    rw [agentLoop.eq_def]
    split
    · exact le_rfl
    · split
      · exact le_rfl
      · split <;> exact le_rfl
  | succ left ih =>
    rw [agentLoop.eq_def]
    split
    · exact Nat.le_add_left 1 _
    · split
      · exact Nat.le_add_left 1 _
      · split
        · exact Nat.succ_le_succ (ih _)
        · exact Nat.le_add_left 1 _

/-- The answers to the calls that a run makes, from the call with this number on. -/
theorem map_range_succ {α : Type} (f : ℕ → α) (n : ℕ) :
    (List.range (n + 1)).map f = f 0 :: (List.range n).map fun i => f (i + 1) := by
  rw [List.range_succ_eq_map, List.map_cons, List.map_map]
  rfl

/-- The total that a response reports has counted every turn before it and every turn since. -/
theorem agentLoop_billed {callOnce : ℕ → Except Failure AnthropicResponse} {left : ℕ}
    {s : AgentState} {response : FinalResponse} {reports : List Report}
    (h : Totals reports s.usageTotal)
    (hresult : (agentLoop platform executor callOnce left s).result = .ok response) :
    ∃ resps : List AnthropicResponse,
      (List.range (agentLoop platform executor callOnce left s).sent.length).map
          (fun i => callOnce (s.turns.length + i)) = resps.map .ok ∧
        Totals (reports ++ resps.map (·.report)) response.usage := by
  induction left generalizing s reports with
  | zero =>
    obtain ⟨resp, usageTotal, hresp, husage, hlast | hlast | ⟨-, left', hleft, -⟩⟩ :=
      agentLoop_cases platform executor hresult
    · obtain ⟨-, hrun⟩ := hlast
      rw [hrun] at hresult ⊢
      obtain rfl := Except.ok.inj hresult
      exact ⟨[resp], congrArg (fun a => [a]) hresp, h.turn husage⟩
    · obtain ⟨-, -, hrun⟩ := hlast
      rw [hrun] at hresult ⊢
      obtain rfl := Except.ok.inj hresult
      exact ⟨[resp], congrArg (fun a => [a]) hresp, h.turn husage⟩
    · cases hleft
  | succ left ih =>
    obtain ⟨resp, usageTotal, hresp, husage, hlast | ⟨-, hleft, -⟩ | ⟨-, left', hleft, hrun⟩⟩ :=
      agentLoop_cases platform executor hresult
    · obtain ⟨-, hrun⟩ := hlast
      rw [hrun] at hresult ⊢
      obtain rfl := Except.ok.inj hresult
      exact ⟨[resp], congrArg (fun a => [a]) hresp, h.turn husage⟩
    · cases hleft
    · obtain rfl := Nat.succ.inj hleft
      rw [hrun] at hresult ⊢
      obtain ⟨resps, hresps, htotals⟩ := ih (h.turn husage) hresult
      refine ⟨resp :: resps, ?_, ?_⟩
      · rw [List.length_cons, map_range_succ, Nat.add_zero, hresp, List.map_cons, ← hresps]
        have hnumber (i : ℕ) :
            (s.followUp platform executor resp.content usageTotal).turns.length + i =
              s.turns.length + (i + 1) := by
          rw [AgentState.followUp, List.length_append, List.length_singleton]
          omega
        simp only [hnumber]
      · rwa [List.map_cons, List.append_cons]

/-- A run whose turns are all answered with counts ends with a response. -/
theorem agentLoop_delivers {callOnce : ℕ → Except Failure AnthropicResponse}
    (hanswers : ∀ i, ∃ resp, callOnce i = .ok resp ∧ resp.report.Counted) {left : ℕ}
    {s : AgentState} {reports : List Report} (h : Totals reports s.usageTotal)
    (hreports : ∀ r ∈ reports, r.Counted) :
    ∃ response, (agentLoop platform executor callOnce left s).result = .ok response := by
  induction left generalizing s reports with
  | zero =>
    obtain ⟨resp, hresp, hcounted⟩ := hanswers s.turns.length
    obtain ⟨total, htotal⟩ := h.exists_turn hreports hcounted
    rw [agentLoop.eq_def, hresp]
    simp only [htotal]
    split <;> exact ⟨_, rfl⟩
  | succ left ih =>
    obtain ⟨resp, hresp, hcounted⟩ := hanswers s.turns.length
    obtain ⟨total, htotal⟩ := h.exists_turn hreports hcounted
    rw [agentLoop.eq_def, hresp]
    simp only [htotal]
    split
    · refine ih (h.turn htotal) fun r hr => ?_
      obtain hr | hr := List.mem_append.1 hr
      · exact hreports r hr
      · obtain rfl := List.mem_singleton.1 hr
        exact hcounted
    · exact ⟨_, rfl⟩

/-! ## The streaming loop -/

theorem streamLoop_sent_length (upstreamCall : ℕ → UpstreamAnswer) (turn left : ℕ)
    (s : StreamState) :
    (streamLoop platform executor upstreamCall turn left s).sent.length ≤ left + 1 := by
  induction left generalizing turn s with
  | zero =>
    rw [streamLoop.eq_def]
    split
    · exact le_rfl
    · exact le_rfl
    · split
      · exact le_rfl
      · split
        · exact le_rfl
        · split <;> exact le_rfl
  | succ left ih =>
    rw [streamLoop.eq_def]
    split
    · exact Nat.le_add_left 1 _
    · exact Nat.le_add_left 1 _
    · split
      · exact Nat.le_add_left 1 _
      · split
        · exact Nat.le_add_left 1 _
        · split
          · exact Nat.succ_le_succ (ih _ _)
          · exact Nat.le_add_left 1 _

def ClientEvent.usage? : ClientEvent → Option UsageTotal
  | .messageDelta _ usage => some usage
  | _ => none

/-- Every usage that the client is told. -/
def deliveredUsages (written : List ClientEvent) : List UsageTotal :=
  written.filterMap (·.usage?)

theorem deliveredUsages_append (written written' : List ClientEvent) :
    deliveredUsages (written ++ written') = deliveredUsages written ++ deliveredUsages written' :=
  List.filterMap_append

theorem deliveredUsages_quiet {written : List ClientEvent}
    (h : ∀ event ∈ written, event.isMessageDelta = false) : deliveredUsages written = [] := by
  refine List.filterMap_eq_nil_iff.2 fun event hevent => ?_
  have hquiet := h event hevent
  cases event with
  | messageDelta => cases hquiet
  | _ => rfl

/-- The total goes out with every end of a message that the last turn has reported. -/
theorem deliveredUsages_finalEvents (usageTotal : UsageTotal)
    (events : List AnthropicStreamEventData) :
    deliveredUsages (finalEvents usageTotal events) =
      (events.filterMap report?).map fun _ => usageTotal := by
  induction events with
  | nil => rfl
  | cons event events ih =>
    cases event with
    | messageDelta stopReason u => exact congrArg (usageTotal :: ·) ih
    | _ => exact ih

theorem reports_filter (events : List AnthropicStreamEventData) :
    (events.filter (·.endsMessage)).filterMap report? = events.filterMap report? := by
  rw [List.filterMap_filter]
  congr 1
  funext event
  cases event <;> rfl

/-- Every total that the client is told has counted every turn before it and every turn since,
and a run that does not break off tells it as often as its last turn ends the message. -/
theorem streamLoop_billed {upstreamCall : ℕ → UpstreamAnswer} {turn left : ℕ} {s : StreamState}
    {reports : List Report} (h : Totals reports s.usageTotal)
    (hquiet : deliveredUsages s.written = []) :
    let run := streamLoop platform executor upstreamCall turn left s
    let turns := streamTurns platform executor upstreamCall turn left s
    (∀ usage ∈ deliveredUsages run.written,
        Totals (reports ++ turns.flatMap (·.reports)) usage) ∧
      (run.failure = none → turns.length = run.sent.length ∧
        ∃ before last, turns = before ++ [last] ∧
          (deliveredUsages run.written).length = last.reports.length) := by
  induction left using Nat.strongRecOn generalizing turn s reports with
  | ind left ih =>
    intro run turns
    -- no usage is told while the events of a turn go out
    have hturn (frames : List (Option String)) (failure : Option Failure) :
        deliveredUsages (streamTurn platform executor frames failure s).ends.written = [] ∧
          (streamTurn platform executor frames failure s).ends.bufferedFinal.filterMap report? =
            (streamTurn platform executor frames failure s).reports := by
      obtain ⟨added, hadded⟩ := streamTurn_written platform executor frames failure s
      constructor
      · rw [hadded.written, deliveredUsages_append, hquiet, deliveredUsages_quiet hadded.quiet]
        rfl
      · rw [hadded.buffered, reports_filter]
        rfl
    obtain ⟨hwritten, hnone, hfailure⟩ | ⟨frames, failure, -, ⟨hwritten, hone, hfailure⟩ |
        ⟨-, hone, hfailure, usageTotal, husage, hsent, hwritten⟩ |
        ⟨-, left', usageTotal, rfl, husage, hmore, hfailure, hsent, hwritten⟩⟩ :=
      streamLoop_turns platform executor upstreamCall turn left s
    · refine ⟨fun usage hmem => ?_, fun hdone => ?_⟩
      · rw [hwritten, hquiet] at hmem
        cases hmem
      · rw [hdone] at hfailure
        obtain hfailure | hfailure := hfailure <;> cases hfailure
    · refine ⟨fun usage hmem => ?_, fun hdone => ?_⟩
      · rw [hwritten, (hturn frames failure).1] at hmem
        cases hmem
      · obtain ⟨hbroken, hfailure⟩ | ⟨e, hfailure⟩ := hfailure
        · exact absurd (hfailure.symm.trans hdone) hbroken
        · rw [hdone] at hfailure
          cases hfailure
    · obtain ⟨hnothing, hreports⟩ := hturn frames failure
      have hdelivered : deliveredUsages run.written =
          (streamTurn platform executor frames failure s).reports.map fun _ => usageTotal := by
        rw [hwritten, deliveredUsages_append, hnothing, List.nil_append,
          deliveredUsages_finalEvents, hreports]
      refine ⟨fun usage hmem => ?_, fun _ => ?_⟩
      · rw [hdelivered] at hmem
        obtain ⟨_, -, rfl⟩ := List.mem_map.1 hmem
        rw [show turns = _ from hone, List.flatMap_singleton, ← hreports]
        exact h.events husage
      · rw [show turns = _ from hone, hsent, hdelivered, List.length_map]
        exact ⟨rfl, [], _, rfl, rfl⟩
    · obtain ⟨hnothing, hreports⟩ := hturn frames failure
      have hcounted := h.events husage
      rw [hreports] at hcounted
      obtain ⟨htotals, hdone⟩ := @ih left' (Nat.lt_succ_self left') (turn + 1)
        ((streamTurn platform executor frames failure s).ends.followUp platform s.messages
          usageTotal) _ hcounted hnothing
      refine ⟨fun usage hmem => ?_, fun hnofailure => ?_⟩
      · rw [show turns = _ from hmore, List.flatMap_cons, ← List.append_assoc]
        exact htotals usage (hwritten ▸ hmem)
      · obtain ⟨hlength, before, last, hlast, hcount⟩ := hdone (hfailure ▸ hnofailure)
        rw [show turns = _ from hmore, hsent, hwritten, List.length_cons, List.length_cons]
        exact ⟨congrArg (· + 1) hlength, _ :: before, last, by rw [hlast]; rfl, hcount⟩

/-! ## Whole runs -/

/-- Both agents make at most `MAX_AGENT_TURNS` calls, and every usage they deliver is the sum over
the turns they have made. -/
theorem usage_billed (platform : Platform) (executor : Executor)
    (callOnce : ℕ → Except Failure AnthropicResponse) (upstreamCall : ℕ → UpstreamAnswer)
    (messages : List AnthropicMessage) (declared : List WebToolDecl) :
    (let run := runAgentLoop platform executor callOnce messages declared;
      run.sent.length ≤ MAX_AGENT_TURNS ∧
        ((∀ i, ∃ resp, callOnce i = .ok resp ∧ resp.report.Counted) →
          ∃ response, run.result = .ok response) ∧
        ∀ response, run.result = .ok response → ∃ resps : List AnthropicResponse,
          (List.range run.sent.length).map callOnce = resps.map .ok ∧
            Totals (resps.map (·.report)) response.usage) ∧
      let run := runStreamingAgent platform executor upstreamCall messages declared
      let turns := streamTurns platform executor upstreamCall 0 (MAX_AGENT_TURNS - 1)
        (initialStream messages declared)
      run.sent.length ≤ MAX_AGENT_TURNS ∧
        (∀ usage ∈ deliveredUsages run.written, Totals (turns.flatMap (·.reports)) usage) ∧
        (run.failure = none → turns.length = run.sent.length ∧
          ∃ before last, turns = before ++ [last] ∧
            (deliveredUsages run.written).length = last.reports.length) := by
  refine ⟨⟨agentLoop_sent_length _ _ _, fun hanswers => ?_, fun response hresult => ?_⟩,
    streamLoop_sent_length _ _ _ _, ?_⟩
  · exact agentLoop_delivers hanswers totals_newUsageTotal (by simp)
  · obtain ⟨resps, hresps, htotals⟩ := agentLoop_billed totals_newUsageTotal hresult
    refine ⟨resps, ?_, htotals⟩
    rw [← hresps]
    congr 1
    funext i
    rw [initialState, List.length_nil, Nat.zero_add]
  · have hstart : deliveredUsages (initialStream messages declared).written = [] := rfl
    exact streamLoop_billed totals_newUsageTotal hstart

end

end Maximal.WebTools
