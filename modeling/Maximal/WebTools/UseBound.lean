import Maximal.Lib.Meter
import Maximal.WebTools.Execution

/-!
# Web tools: the bound on uses

A use is recorded when the executor has answered with a result. An error is not recorded, so that
`max_uses` does not bound the calls of the executor by itself.

## Main results

- `meter_runCalls` — a run is a meter for each tool
- `invocations_le_maxUses_iff` — when `max_uses` bounds the calls
-/

namespace Maximal.WebTools

open Js Lib

namespace RequestState

/-- `state.active[name]`. -/
def active (state : RequestState) : ToolName → Option DomainPolicy
  | .webSearch => state.search
  | .webFetch => state.fetch

/-- `state.uses[name]`. -/
def uses (state : RequestState) : ToolName → ℕ
  | .webSearch => state.searchUses
  | .webFetch => state.fetchUses

/-- The effective `max_uses`. -/
def maxUses (state : RequestState) (name : ToolName) : ℕ :=
  ((state.active name).bind (·.maxUses)).getD name.defaultMaxUses

@[simp] theorem active_recordUse (state : RequestState) (used name : ToolName) :
    (recordUse state used).active name = state.active name := by
  cases used <;> cases name <;> rfl

theorem uses_recordUse (state : RequestState) (used name : ToolName) :
    (recordUse state used).uses name =
      if used = name then state.uses name + 1 else state.uses name := by
  cases used <;> cases name <;> rfl

end RequestState

def ExecutorCall.tool : ExecutorCall → ToolName
  | .fetch _ => .webFetch
  | .search _ _ => .webSearch

/-- How often the executor has been called for a tool. -/
def Execution.invocations (x : Execution) (name : ToolName) : ℕ :=
  (x.calls.filter (·.tool = name)).length

/-- A call of a web tool, and what the executor answers if it is asked. -/
structure ToolCall where
  name : ToolName
  input : Json
  fetchAnswer : FetchResult
  searchAnswer : SearchResult

namespace ToolCall

def executor (c : ToolCall) : Executor :=
  ⟨fun _ _ => c.fetchAnswer, fun _ _ _ => c.searchAnswer⟩

/-- The executor answers with a result, not with an error. -/
def succeeds (c : ToolCall) : Bool :=
  match c.name with
  | .webFetch => match c.fetchAnswer with | .ok _ _ => true | .failed _ => false
  | .webSearch => match c.searchAnswer with | .ok _ => true | .failed _ => false

end ToolCall

section

variable (platform : Platform)

/-- The calls one after the other, with one state. -/
def runCalls (x : Execution) (calls : List ToolCall) : Execution :=
  calls.foldl (fun x c => (executeToolUse platform c.executor c.name c.input x).2) x

/-- The policy of the request allows the call, whatever has been used. -/
def admits (state : RequestState) (name : ToolName) (input : Json) : Bool :=
  match name, state.active name with
  | _, none => false
  | .webSearch, some _ =>
    match inputText input "query" with
    | none => false
    | some query => query ≠ "" ∧ Json.utf16Length query ≤ 2000
  | .webFetch, some decl =>
    match parseFetchUrl platform input with
    | .error _ => false
    | .ok (_, parsed) => isHostAllowed parsed.hostname decl

/-- The calls of a tool that the policy allows, whatever has been used. -/
def admitted (state : RequestState) (calls : List ToolCall) (name : ToolName) : List ToolCall :=
  calls.filter fun c => c.name = name ∧ admits platform state c.name c.input

variable {platform}

/-! ## One call -/

theorem checkSearchPolicy_ok_iff (platform : Platform) (state : RequestState) (input : Json) :
    (∃ query, checkSearchPolicy state input = .ok query) ↔
      admits platform state .webSearch input ∧ state.uses .webSearch < state.maxUses .webSearch := by
  simp only [checkSearchPolicy, admits, RequestState.active, RequestState.uses,
    RequestState.maxUses]
  cases state.search with
  | none => simp
  | some decl =>
    cases inputText input "query" with
    | none => simp
    | some query =>
      simp only [Option.bind_some]
      split_ifs with huses hlength
      · simp [huses]
      · simp only [exists_false, false_iff, decide_eq_true_eq, not_and]
        rintro ⟨hquery, hshort⟩
        exact absurd hlength (not_or.mpr ⟨hquery, by omega⟩)
      · simp only [Except.ok.injEq, exists_eq', true_iff, decide_eq_true_eq]
        rw [not_or] at hlength
        exact ⟨⟨hlength.1, by omega⟩, by omega⟩

theorem checkFetchPolicy_ok_iff (platform : Platform) (state : RequestState) (input : Json) :
    (∃ url, checkFetchPolicy platform state input = .ok url) ↔
      admits platform state .webFetch input ∧ state.uses .webFetch < state.maxUses .webFetch := by
  simp only [checkFetchPolicy, admits, RequestState.active, RequestState.uses,
    RequestState.maxUses]
  cases state.fetch with
  | none => simp
  | some decl =>
    cases parseFetchUrl platform input with
    | error code => simp [bind, Except.bind]
    | ok found =>
      simp only [bind, Except.bind, Option.bind_some]
      split_ifs with huses hhost
      · simp [huses]
      · simp only [Bool.not_eq_true'] at hhost
        simp [hhost]
      · simp only [Bool.not_eq_true', Bool.not_eq_false] at hhost
        simp only [Except.ok.injEq, exists_eq', true_iff]
        exact ⟨hhost, by omega⟩

/-- A call that the executor is asked for is counted, and recorded if it succeeds; any other call
changes nothing. -/
theorem executeToolUse_cases (platform : Platform) (c : ToolCall) (x : Execution) :
    (admits platform x.state c.name c.input ∧ x.state.uses c.name < x.state.maxUses c.name ∧
        ∃ call : ExecutorCall, call.tool = c.name ∧
          (executeToolUse platform c.executor c.name c.input x).2 =
            ⟨if c.succeeds then recordUse x.state c.name else x.state, x.calls ++ [call]⟩) ∨
      ¬ (admits platform x.state c.name c.input ∧ x.state.uses c.name < x.state.maxUses c.name) ∧
        (executeToolUse platform c.executor c.name c.input x).2 = x := by
  obtain ⟨name, input, fetchAnswer, searchAnswer⟩ := c
  cases name with
  | webFetch =>
    have hiff := checkFetchPolicy_ok_iff platform x.state input
    simp only [executeToolUse, ToolCall.executor, ToolCall.succeeds]
    cases hcheck : checkFetchPolicy platform x.state input with
    | error code =>
      rw [hcheck] at hiff
      exact .inr ⟨fun h => by simpa using hiff.mpr h, rfl⟩
    | ok url =>
      obtain ⟨hadmits, huses⟩ := hiff.mp ⟨url, hcheck⟩
      refine .inl ⟨hadmits, huses, .fetch url, rfl, ?_⟩
      cases fetchAnswer <;> rfl
  | webSearch =>
    have hiff := checkSearchPolicy_ok_iff platform x.state input
    simp only [executeToolUse, ToolCall.executor, ToolCall.succeeds]
    cases hcheck : checkSearchPolicy x.state input with
    | error code =>
      rw [hcheck] at hiff
      exact .inr ⟨fun h => by simpa using hiff.mpr h, rfl⟩
    | ok query =>
      obtain ⟨hadmits, huses⟩ := hiff.mp ⟨query, hcheck⟩
      let opts : SearchOpts :=
        ⟨x.state.search.bind (·.allowedDomains), x.state.search.bind (·.blockedDomains)⟩
      refine .inl ⟨hadmits, huses, .search query opts, rfl, ?_⟩
      cases searchAnswer <;> rfl

/-! ## Runs -/

/-- What a run has to do with a tool: the calls of the executor, and the uses recorded. -/
def Execution.meter (x : Execution) (name : ToolName) : Meter :=
  ⟨x.invocations name, x.state.uses name⟩

theorem invocations_append (state state' : RequestState) (calls : List ExecutorCall)
    (call : ExecutorCall) (name : ToolName) :
    (⟨state, calls ++ [call]⟩ : Execution).invocations name =
      (⟨state', calls⟩ : Execution).invocations name + if call.tool = name then 1 else 0 := by
  simp only [Execution.invocations, List.filter_append, List.length_append, List.filter_singleton]
  split_ifs <;> simp_all

theorem admits_congr {state state' : RequestState}
    (h : ∀ name, state'.active name = state.active name) (name : ToolName) (input : Json) :
    admits platform state' name input = admits platform state name input := by
  simp only [admits, h]

theorem active_executeToolUse (platform : Platform) (c : ToolCall) (x : Execution) (name : ToolName) :
    (executeToolUse platform c.executor c.name c.input x).2.state.active name =
      x.state.active name := by
  obtain ⟨-, -, call, -, hcall⟩ | ⟨-, hskip⟩ := executeToolUse_cases platform c x
  · rw [hcall]
    cases c.succeeds
    · rfl
    · exact RequestState.active_recordUse _ _ _
  · rw [hskip]

/-- One call asks the meter of its own tool, if the policy admits it, and no other. -/
theorem meter_executeToolUse (c : ToolCall) (x : Execution) (name : ToolName) :
    (executeToolUse platform c.executor c.name c.input x).2.meter name =
      if c.name = name ∧ admits platform x.state c.name c.input then
        (x.meter name).ask (x.state.maxUses name) c.succeeds
      else x.meter name := by
  obtain ⟨hadmits, huses, call, htool, hcall⟩ | ⟨hnot, hskip⟩ :=
    executeToolUse_cases platform c x
  · rw [hcall]
    simp only [Execution.meter]
    rw [invocations_append _ x.state, htool]
    by_cases hname : c.name = name
    · have hasks : c.name = name ∧ admits platform x.state c.name c.input := ⟨hname, hadmits⟩
      rw [hname] at huses
      rw [if_pos hname, if_pos hasks, Meter.ask, if_pos huses]
      cases c.succeeds
      · rfl
      · simp [RequestState.uses_recordUse, hname]
    · have hother : ¬ (c.name = name ∧ admits platform x.state c.name c.input) :=
        fun h => hname h.1
      rw [if_neg hname, if_neg hother]
      cases c.succeeds
      · rfl
      · simp [RequestState.uses_recordUse, hname]
  · rw [hskip]
    split_ifs with hasks
    · -- the tool has no use left
      obtain ⟨rfl, hadmits⟩ := hasks
      have hspent : ¬ (x.meter c.name).recorded < x.state.maxUses c.name :=
        fun huses => hnot ⟨hadmits, huses⟩
      rw [Meter.ask, if_neg hspent]
    · rfl

/-- A run is a meter for each tool, asked by the calls of the tool that the policy admits. -/
theorem meter_runCalls (platform : Platform) (calls : List ToolCall) (x : Execution) (name : ToolName) :
    (runCalls platform x calls).meter name =
      Meter.askAll (x.state.maxUses name) (x.meter name)
        ((admitted platform x.state calls name).map ToolCall.succeeds) := by
  induction calls generalizing x with
  | nil => rfl
  | cons c calls ih =>
    have hactive := active_executeToolUse platform c x
    have hmax : (executeToolUse platform c.executor c.name c.input x).2.state.maxUses name =
        x.state.maxUses name := by
      simp only [RequestState.maxUses, hactive]
    have hadmitted : admitted platform
        (executeToolUse platform c.executor c.name c.input x).2.state calls name =
          admitted platform x.state calls name := by
      simp only [admitted, admits_congr hactive]
    rw [runCalls, List.foldl_cons, ← runCalls, ih, hmax, hadmitted, meter_executeToolUse]
    by_cases hasks : c.name = name ∧ admits platform x.state c.name c.input
    · have hcons : admitted platform x.state (c :: calls) name =
          c :: admitted platform x.state calls name :=
        List.filter_cons_of_pos (decide_eq_true hasks)
      rw [if_pos hasks, hcons]
      rfl
    · have hcons : admitted platform x.state (c :: calls) name =
          admitted platform x.state calls name :=
        List.filter_cons_of_neg (by simpa only [decide_eq_true_eq] using hasks)
      rw [if_neg hasks, hcons]

variable (platform)

def startExecution (declared : List WebToolDecl) : Execution := ⟨newRequestState declared, []⟩

theorem uses_newRequestState (declared : List WebToolDecl) (name : ToolName) :
    (newRequestState declared).uses name = 0 := by
  suffices h : ∀ state : RequestState, state.uses name = 0 →
      (declared.foldl (fun state decl =>
        match decl.name with
        | .webSearch => { state with search := some decl.policy }
        | .webFetch => { state with fetch := some decl.policy }) state).uses name = 0 from
    h _ (by cases name <;> rfl)
  induction declared with
  | nil => exact fun state h => h
  | cons decl declared ih =>
    intro state h
    apply ih
    obtain ⟨declName, policy⟩ := decl
    cases declName <;> cases name <;> exact h

theorem meter_startExecution (declared : List WebToolDecl) (name : ToolName) :
    (startExecution declared).meter name = ⟨0, 0⟩ := by
  show Meter.mk 0 ((newRequestState declared).uses name) = ⟨0, 0⟩
  rw [uses_newRequestState]

/-- The uses of a tool are bounded exactly when the policy admits no more calls than the bound, or
the executor answers the calls up to the bound with results. -/
theorem invocations_le_maxUses_iff (declared : List WebToolDecl) (calls : List ToolCall) :
    (∀ name, (runCalls platform (startExecution declared) calls).invocations name ≤
        (newRequestState declared).maxUses name) ↔
      ∀ name,
        (admitted platform (newRequestState declared) calls name).length ≤
            (newRequestState declared).maxUses name ∨
          ∀ c ∈ (admitted platform (newRequestState declared) calls name).take
            ((newRequestState declared).maxUses name), c.succeeds := by
  apply forall_congr'
  intro name
  have hmeter := meter_runCalls platform calls (startExecution declared) name
  rw [meter_startExecution] at hmeter
  have hpassed := congrArg Meter.passed hmeter
  simp only [Execution.meter, startExecution] at hpassed
  rw [startExecution, hpassed, Meter.passed_le_iff, List.length_map, ← List.map_take,
    List.forall_mem_map]

/-- A platform on which nothing parses. -/
def blankPlatform : Platform := ⟨fun _ => none, fun _ => none, fun _ => "", fun _ => "", ""⟩

/-- A search that the backend cannot answer. -/
def failingSearch : ToolCall :=
  ⟨.webSearch, .object [("query", .string "weather")], .failed .unavailable, .failed .unavailable⟩

/-- With `max_uses: 1`, a search that fails is followed by a second one. -/
theorem invocations_exceed_maxUses :
    ¬ ∀ (platform : Platform) (declared : List WebToolDecl) (calls : List ToolCall)
        (name : ToolName),
      (runCalls platform (startExecution declared) calls).invocations name ≤
        (newRequestState declared).maxUses name := by
  intro h
  have htwice := h blankPlatform [⟨.webSearch, { maxUses := some 1 }⟩]
    [failingSearch, failingSearch] .webSearch
  exact absurd htwice (by decide)

end

end Maximal.WebTools
