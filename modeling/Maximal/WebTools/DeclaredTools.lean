import Maximal.WebTools.StopReason
import Maximal.WebTools.StreamTurns

/-!
# Web tools: declared tools

A request may declare any of the web tools, and may have a tool of its own under the name of one
that it does not declare. Both loops tell web tools by their names only.

## Main definitions

- `isUndeclared` — the name of a web tool that the request does not declare
- `agentAnswers`, `executed` — the answers that the agent loop takes up, the calls it executes
- `AgentPasses`, `StreamPasses` — undeclared calls reach the client and are not executed

## Main results

- `agentLoop_calls` — the executor is asked by what is executed
- `undeclared_pass_iff` — when undeclared calls are left alone
-/

namespace Maximal.WebTools

open Js

/-- The name of a web tool that is not declared as one. -/
def isUndeclared (declared : List WebToolDecl) (name : Val) : Bool :=
  match toolName? name with
  | some tool => !declared.any (·.name = tool)
  | none => false

theorem isWebToolName_of_isUndeclared {declared : List WebToolDecl} {name : Val}
    (h : isUndeclared declared name) : isWebToolName name := by
  rw [isUndeclared] at h
  rw [isWebToolName]
  cases htool : toolName? name with
  | none => simp [htool] at h
  | some tool => rfl

section

variable (platform : Platform) (executor : Executor)

/-! ## The agent loop -/

/-- The answers that the loop takes up from here on. -/
def agentAnswers (callOnce : ℕ → Except Failure AnthropicResponse) (left : ℕ) (s : AgentState) :
    List AnthropicResponse :=
  match callOnce s.turns.length with
  | .error _ => []
  | .ok resp =>
    match accumulateTurnUsage s.usageTotal resp with
    | .error _ => []
    | .ok usageTotal =>
      if continues resp then
        match left with
        | 0 => [resp]
        | left + 1 =>
          resp :: agentAnswers callOnce left (s.followUp platform executor resp.content usageTotal)
      else [resp]

/-- The calls that are executed: all calls of web tools of the answers that are followed up. -/
def executed (answers : List AnthropicResponse) : List (AnthropicToolUseBlock × ToolName) :=
  answers.flatMap fun resp => if continues resp then ours resp.content else []

/-- The calls of undeclared web tools in a content. -/
def undeclaredCalls (declared : List WebToolDecl) (calls : List AnthropicToolUseBlock) :
    List AnthropicToolUseBlock :=
  calls.filter fun tu => isUndeclared declared tu.name

/-- Undeclared calls of the answers are calls of the response, and none is executed. -/
def AgentPasses (declared : List WebToolDecl) (run : AgentRun) (answers : List AnthropicResponse) :
    Prop :=
  (∀ response, run.result = .ok response →
    undeclaredCalls declared response.clientCalls =
      undeclaredCalls declared (answers.flatMap fun resp => toolUses resp.content)) ∧
    ∀ call ∈ executed answers, isUndeclared declared call.1.name = false

variable {platform executor}

theorem executed_cons (resp : AnthropicResponse) (answers : List AnthropicResponse) :
    executed (resp :: answers) =
      (if continues resp then ours resp.content else []) ++ executed answers :=
  List.flatMap_cons

/-- The executor has been asked for what is executed, and for nothing else. -/
theorem agentLoop_calls (callOnce : ℕ → Except Failure AnthropicResponse) (left : ℕ)
    (s : AgentState) :
    (agentLoop platform executor callOnce left s).calls =
      (executeAll platform executor (executed (agentAnswers platform executor callOnce left s))
        s.execution).2.calls := by
  induction left generalizing s with
  | zero =>
    rw [agentLoop.eq_def, agentAnswers.eq_def]
    cases callOnce s.turns.length with
    | error e => rfl
    | ok resp =>
      dsimp only
      cases accumulateTurnUsage s.usageTotal resp with
      | error e => rfl
      | ok usageTotal =>
        dsimp only
        cases hcontinues : continues resp with
        | false => simp [executed, hcontinues, executeAll]
        | true => simp [executed, hcontinues, AgentState.followUp]
  | succ left ih =>
    rw [agentLoop.eq_def, agentAnswers.eq_def]
    cases callOnce s.turns.length with
    | error e => rfl
    | ok resp =>
      dsimp only
      cases accumulateTurnUsage s.usageTotal resp with
      | error e => rfl
      | ok usageTotal =>
        dsimp only
        cases hcontinues : continues resp with
        | false => simp [executed, hcontinues, executeAll]
        | true =>
          rw [if_pos rfl, if_pos rfl]
          dsimp only
          rw [ih, executed_cons, hcontinues, if_pos rfl, executeAll_append]
          rfl

/-- A call that is left to the client is one of the turn. -/
theorem callsIn_weaveTurn_sublist (platform : Platform) (turn : Turn) :
    (callsIn (weaveTurn platform turn)).Sublist (toolUses turn.assistant) := by
  rw [weaveTurn]
  split
  · rw [callsIn, List.filterMap_map]
    exact List.Sublist.refl _
  · induction turn.assistant with
    | nil => exact List.Sublist.refl _
    | cons block blocks ih =>
      have hhead : (callsIn (weaveBlock platform turn.trips block)).Sublist block.toolUse?.toList := by
        rw [weaveBlock]
        cases hcall : block.toolUse? with
        | none => simp [callsIn, SynthesizedBlock.clientCall?, hcall]
        | some tu =>
          cases htrip : tripById turn.trips tu.id with
          | none => simp [callsIn, SynthesizedBlock.clientCall?, hcall, htrip]
          | some trip => simp [callsIn, SynthesizedBlock.clientCall?, htrip]
      have htail : toolUses (block :: blocks) = block.toolUse?.toList ++ toolUses blocks := by
        rw [toolUses, List.filterMap_cons]
        cases block.toolUse? <;> rfl
      rw [List.flatMap_cons, callsIn, List.filterMap_append, htail]
      exact hhead.append ih

theorem undeclaredCalls_append (declared : List WebToolDecl) (calls calls' : List AnthropicToolUseBlock) :
    undeclaredCalls declared (calls ++ calls') =
      undeclaredCalls declared calls ++ undeclaredCalls declared calls' :=
  List.filter_append ..

/-- The web tools that an answer calls are declared. -/
def CallsDeclared (declared : List WebToolDecl) (resp : AnthropicResponse) : Prop :=
  ∀ call ∈ ours resp.content, isUndeclared declared call.1.name = false

theorem undeclaredCalls_of_callsDeclared {declared : List WebToolDecl} {resp : AnthropicResponse}
    (h : CallsDeclared declared resp) : undeclaredCalls declared (toolUses resp.content) = [] := by
  rw [undeclaredCalls, List.filter_eq_nil_iff]
  intro tu htu hundeclared
  obtain ⟨block, hblock, hcall⟩ := List.mem_filterMap.1 htu
  obtain ⟨tool, htool⟩ := Option.isSome_iff_exists.1 (isWebToolName_of_isUndeclared hundeclared)
  have hours : (tu, tool) ∈ ours resp.content :=
    List.mem_filterMap.2 ⟨block, hblock, by simp [ourToolUse?, hcall, htool]⟩
  rw [h _ hours] at hundeclared
  cases hundeclared

/-- Nothing undeclared has been left to the client so far, since nothing undeclared was called. -/
def AgentState.LeavesNoUndeclared (platform : Platform) (declared : List WebToolDecl)
    (s : AgentState) : Prop :=
  undeclaredCalls declared (callsIn (s.turns.flatMap (weaveTurn platform))) = []

theorem AgentState.followUp_leavesNoUndeclared {declared : List WebToolDecl} {s : AgentState}
    (h : s.LeavesNoUndeclared platform declared) {resp : AnthropicResponse}
    (hresp : CallsDeclared declared resp) (usageTotal : UsageTotal) :
    (s.followUp platform executor resp.content usageTotal).LeavesNoUndeclared platform declared := by
  have hturn := callsIn_flatMap_append platform s.turns ⟨resp.content,
    (executeAll platform executor (ours resp.content) s.execution).1.map fun o => ⟨o.1.id, o.2⟩⟩
  refine (congrArg (undeclaredCalls declared) hturn).trans ?_
  rw [undeclaredCalls_append, show undeclaredCalls declared _ = [] from h, List.nil_append]
  have hsublist := (callsIn_weaveTurn_sublist platform ⟨resp.content,
    (executeAll platform executor (ours resp.content) s.execution).1.map
      fun o => ⟨o.1.id, o.2⟩⟩).filter fun tu => isUndeclared declared tu.name
  exact List.sublist_nil.1 (undeclaredCalls_of_callsDeclared hresp ▸ hsublist)

/-- If the answers that are followed up call declared web tools only, then undeclared calls reach
the client. -/
theorem agentLoop_passes {declared : List WebToolDecl}
    {callOnce : ℕ → Except Failure AnthropicResponse} {left : ℕ} {s : AgentState}
    (hdeclared : ∀ resp ∈ agentAnswers platform executor callOnce left s,
      continues resp → CallsDeclared declared resp)
    (h : s.LeavesNoUndeclared platform declared) {response : FinalResponse}
    (hresult : (agentLoop platform executor callOnce left s).result = .ok response) :
    undeclaredCalls declared response.clientCalls = undeclaredCalls declared
      ((agentAnswers platform executor callOnce left s).flatMap fun resp =>
        toolUses resp.content) := by
  induction left generalizing s with
  | zero =>
    obtain ⟨resp, usageTotal, hresp, husage, hcases⟩ := agentLoop_cases _ _ hresult
    have hanswers : agentAnswers platform executor callOnce 0 s = [resp] := by
      rw [agentAnswers.eq_def, hresp]
      simp [husage]
    rw [hanswers] at hdeclared ⊢
    rw [List.flatMap_singleton]
    obtain ⟨hstop, heq⟩ | ⟨hcontinues, -, heq⟩ | ⟨-, left', hleft, -⟩ := hcases
    · rw [heq] at hresult
      cases hresult
      show undeclaredCalls declared (callsIn ((s.turns ++ [(⟨resp.content, []⟩ : Turn)]).flatMap
        (weaveTurn platform))) = _
      rw [callsIn_flatMap_append, callsIn_last, undeclaredCalls_append,
        show undeclaredCalls declared (callsIn _) = [] from h, List.nil_append]
    · rw [heq] at hresult
      cases hresult
      have hcalls := hdeclared resp List.mem_cons_self hcontinues
      rw [undeclaredCalls_of_callsDeclared hcalls]
      exact s.followUp_leavesNoUndeclared h hcalls usageTotal
    · omega
  | succ left ih =>
    obtain ⟨resp, usageTotal, hresp, husage, hcases⟩ := agentLoop_cases _ _ hresult
    obtain ⟨hstop, heq⟩ | ⟨-, hleft, -⟩ | ⟨hcontinues, left', hleft, heq⟩ := hcases
    · have hanswers : agentAnswers platform executor callOnce (left + 1) s = [resp] := by
        rw [agentAnswers.eq_def, hresp]
        simp [husage, hstop]
      rw [hanswers, List.flatMap_singleton]
      rw [heq] at hresult
      cases hresult
      show undeclaredCalls declared (callsIn ((s.turns ++ [(⟨resp.content, []⟩ : Turn)]).flatMap
        (weaveTurn platform))) = _
      rw [callsIn_flatMap_append, callsIn_last, undeclaredCalls_append,
        show undeclaredCalls declared (callsIn _) = [] from h, List.nil_append]
    · omega
    · obtain rfl : left' = left := by omega
      have hanswers : agentAnswers platform executor callOnce (left' + 1) s =
          resp :: agentAnswers platform executor callOnce left'
            (s.followUp platform executor resp.content usageTotal) := by
        rw [agentAnswers.eq_def, hresp]
        simp [husage, hcontinues]
      rw [hanswers] at hdeclared ⊢
      rw [heq] at hresult
      have hcalls := hdeclared resp List.mem_cons_self hcontinues
      rw [List.flatMap_cons, undeclaredCalls_append, undeclaredCalls_of_callsDeclared hcalls,
        List.nil_append]
      exact ih (fun resp' hmem => hdeclared resp' (List.mem_cons_of_mem _ hmem))
        (s.followUp_leavesNoUndeclared h hcalls usageTotal) hresult

/-- The agent loop leaves undeclared calls alone exactly when the answers that it follows up call
declared web tools only. -/
theorem agentPasses_iff {declared : List WebToolDecl}
    {callOnce : ℕ → Except Failure AnthropicResponse} {left : ℕ} {s : AgentState}
    (h : s.LeavesNoUndeclared platform declared) :
    AgentPasses declared (agentLoop platform executor callOnce left s)
        (agentAnswers platform executor callOnce left s) ↔
      ∀ resp ∈ agentAnswers platform executor callOnce left s,
        continues resp → CallsDeclared declared resp := by
  constructor
  · rintro ⟨-, hexecuted⟩ resp hresp hcontinues call hcall
    exact hexecuted call (List.mem_flatMap.2 ⟨resp, hresp, by rwa [if_pos hcontinues]⟩)
  · intro hdeclared
    refine ⟨fun response => agentLoop_passes hdeclared h, fun call hcall => ?_⟩
    obtain ⟨resp, hresp, hcall⟩ := List.mem_flatMap.1 hcall
    split at hcall
    · next hcontinues => exact hdeclared resp hresp hcontinues call hcall
    · cases hcall

/-! ## The streaming agent -/

/-- The calls whose blocks are started, by id and name. -/
def startedCalls (events : List AnthropicStreamEventData) : List (Val × Val) :=
  events.filterMap fun
    | .contentBlockStart _ (.toolUse id name) => some (id, name)
    | _ => none

/-- The calls of undeclared web tools, by id and name. -/
def undeclaredStarts (declared : List WebToolDecl) (calls : List (Val × Val)) : List (Val × Val) :=
  calls.filter fun call => isUndeclared declared call.2

/-- Undeclared calls of the turns are calls that the client reads, and none is executed. -/
def StreamPasses (declared : List WebToolDecl) (run : StreamRun) (turns : List StreamTurn) : Prop :=
  undeclaredStarts declared (clientCalls run.written) =
      undeclaredStarts declared (turns.flatMap fun turn => startedCalls turn.events) ∧
    ∀ turn ∈ turns, ∀ o ∈ turn.ends.outcomes, isUndeclared declared o.1.name = false

/-- What a turn has opened and executed after some of its events is among what they start. -/
structure OpenedFrom (events : List AnthropicStreamEventData) (d : Dispatch) : Prop where
  opened : ∀ i b id name, d.upstreamToClient.get i = some b → b.toolUse = some (id, name) →
    ∃ call ∈ startedCalls events, toolName? call.2 = some name
  outcomes : ∀ o ∈ d.outcomes, ∃ call ∈ startedCalls events, toolName? o.1.name = toolName? call.2

theorem mem_startedCalls_append {events : List AnthropicStreamEventData} {call : Val × Val}
    (h : call ∈ startedCalls events) (e : AnthropicStreamEventData) :
    call ∈ startedCalls (events ++ [e]) := by
  rw [startedCalls, List.filterMap_append]
  exact List.mem_append_left _ h

theorem toolName?_text (tool : ToolName) : toolName? (some (.string tool.text)) = some tool := by
  cases tool <;> decide

namespace OpenedFrom

variable {events : List AnthropicStreamEventData} {d d' : Dispatch}

theorem mono (h : OpenedFrom events d) (e : AnthropicStreamEventData)
    (hopen : d'.upstreamToClient = d.upstreamToClient) (houtcomes : d'.outcomes = d.outcomes) :
    OpenedFrom (events ++ [e]) d' := by
  refine ⟨fun i b id name hget htool => ?_, fun o ho => ?_⟩
  · rw [hopen] at hget
    obtain ⟨call, hcall, hname⟩ := h.opened i b id name hget htool
    exact ⟨call, mem_startedCalls_append hcall e, hname⟩
  · rw [houtcomes] at ho
    obtain ⟨call, hcall, hname⟩ := h.outcomes o ho
    exact ⟨call, mem_startedCalls_append hcall e, hname⟩

theorem start (h : OpenedFrom events d) (index : ℕ) (block : ContentBlock) :
    OpenedFrom (events ++ [.contentBlockStart index block]) (handleBlockStart index block d) := by
  refine ⟨fun i b id name hget htool => ?_, (h.mono _ rfl rfl : OpenedFrom _ d).outcomes⟩
  simp only [handleBlockStart] at hget
  by_cases hi : i = index
  · subst hi
    rw [Entries.get_set_self] at hget
    cases hget
    cases block with
    | toolUse id' called =>
      obtain ⟨tool, hname, heq⟩ := Option.map_eq_some_iff.1 htool
      cases heq
      refine ⟨(id, called), ?_, hname⟩
      rw [startedCalls, List.filterMap_append]
      exact List.mem_append_right _ List.mem_cons_self
    | text => cases htool
    | thinking => cases htool
  · rw [Entries.get_set_of_ne _ _ hi] at hget
    exact (h.mono _ rfl rfl : OpenedFrom _ d).opened i b id name hget htool

theorem delta (h : OpenedFrom events d) {index : BlockIndex} {delta : BlockDelta}
    (hd : handleBlockDelta index delta d = .ok d') :
    OpenedFrom (events ++ [.contentBlockDelta index delta]) d' := by
  rw [handleBlockDelta] at hd
  split at hd
  · cases hd
    exact h.mono _ rfl rfl
  · next key b hopen =>
    have hget := Dispatch.get_of_openAt hopen
    cases hadd : b.add delta with
    | error e =>
      rw [hadd] at hd
      cases hd
    | ok b' =>
      rw [hadd] at hd
      cases hd
      obtain ⟨htool, -⟩ := OpenBlock.add_fields hadd
      refine ⟨fun i b₁ id name hb₁ htool₁ => ?_, (h.mono _ rfl rfl : OpenedFrom _ d).outcomes⟩
      by_cases hi : i = key
      · subst hi
        rw [Entries.get_set_self] at hb₁
        cases hb₁
        rw [htool] at htool₁
        exact (h.mono _ rfl rfl : OpenedFrom _ d).opened i b id name hget htool₁
      · rw [Entries.get_set_of_ne _ _ hi] at hb₁
        exact (h.mono _ rfl rfl : OpenedFrom _ d).opened i b₁ id name hb₁ htool₁

theorem stop (h : OpenedFrom events d) (index : ℕ) :
    OpenedFrom (events ++ [.contentBlockStop index])
      (handleBlockStop platform executor index d) := by
  have hsame := (h.mono (.contentBlockStop index) rfl rfl : OpenedFrom _ d)
  have hopened : ∀ i b id name, (d.upstreamToClient.delete index).get i = some b →
      b.toolUse = some (id, name) →
      ∃ call ∈ startedCalls (events ++ [.contentBlockStop index]), toolName? call.2 = some name := by
    intro i b id name hb
    by_cases hi : i = index
    · subst hi
      rw [Entries.get_delete_self] at hb
      cases hb
    · rw [Entries.get_delete_of_ne _ hi] at hb
      exact hsame.opened i b id name hb
  rw [handleBlockStop]
  cases hget : d.upstreamToClient.get index with
  | none => exact hsame
  | some b =>
    dsimp only
    split
    · exact ⟨hopened, hsame.outcomes⟩
    · exact ⟨hopened, hsame.outcomes⟩
    · next id name _ htool =>
      refine ⟨hopened, fun o ho => ?_⟩
      obtain ho | ho := List.mem_append.1 ho
      · exact hsame.outcomes o ho
      · -- the call that has just been executed was open
        obtain rfl := List.mem_singleton.1 ho
        obtain ⟨call, hcall, hname⟩ := hsame.opened index b id name hget htool
        exact ⟨call, hcall, (toolName?_text name).trans hname.symm⟩
    · exact ⟨hopened, hsame.outcomes⟩

theorem event (h : OpenedFrom events d) {e : AnthropicStreamEventData}
    (hd : dispatchEvent platform executor e d = .ok d') : OpenedFrom (events ++ [e]) d' := by
  cases e with
  | contentBlockStart index block =>
    cases hd
    exact h.start index block
  | contentBlockDelta index delta => exact h.delta hd
  | contentBlockStop index =>
    cases hd
    exact h.stop index
  | messageStart =>
    cases hd
    show OpenedFrom _ (if d.messageStartEmitted then d else _)
    split
    · exact h.mono _ rfl rfl
    · exact h.mono _ rfl rfl
  | _ =>
    cases hd
    exact h.mono _ rfl rfl

end OpenedFrom

theorem startTurn_openedFrom (s : StreamState) : OpenedFrom [] (startTurn s) where
  opened i b id name hget := by cases hget
  outcomes o ho := by cases ho

theorem streamTurn_openedFrom (frames : List (Option String)) (failure : Option Failure)
    (s : StreamState) :
    OpenedFrom (streamTurn platform executor frames failure s).events
      (streamTurn platform executor frames failure s).ends := by
  have hall := dispatchAll_invariant (fun done e => done ++ [e]) OpenedFrom
    (fun _ _ _ _ h hd => h.event hd) (startTurn_openedFrom s)
    (dispatchAll_turn platform executor failure frames .fresh
      (startTurn s))
  rwa [foldl_concat, List.nil_append] at hall

/-- No call of a web tool is left to the client. -/
def LeavesNoWebTool (written : List ClientEvent) : Prop :=
  ∀ call ∈ clientCalls written, isWebToolName call.2 = false

theorem isWebToolName_of_mem_otherCalls {events : List AnthropicStreamEventData} {call : Val × Val}
    (h : call ∈ otherCalls events) : isWebToolName call.2 = false := by
  obtain ⟨e, -, he⟩ := List.mem_filterMap.1 h
  split at he
  · split at he
    · cases he
    · next hname =>
      cases he
      simpa using hname
  · cases he

theorem streamTurn_leavesNoWebTool {s : StreamState} (h : LeavesNoWebTool s.written)
    (frames : List (Option String)) (failure : Option Failure) :
    LeavesNoWebTool (streamTurn platform executor frames failure s).ends.written := by
  obtain ⟨added, hadded⟩ :=
    streamTurn_written platform executor frames failure s
  intro call hcall
  rw [hadded.written, clientCalls_append, hadded.calls] at hcall
  obtain hcall | hcall := List.mem_append.1 hcall
  · exact h call hcall
  · exact isWebToolName_of_mem_otherCalls hcall

theorem finalEvents_leavesNoWebTool {s : StreamState} (h : LeavesNoWebTool s.written)
    (frames : List (Option String)) (failure : Option Failure) (usageTotal : UsageTotal) :
    LeavesNoWebTool ((streamTurn platform executor frames failure s).ends.written ++
      finalEvents usageTotal (streamTurn platform executor frames failure s).ends.bufferedFinal) := by
  obtain ⟨added, hadded⟩ :=
    streamTurn_written platform executor frames failure s
  have hbuffered : ∀ e ∈ (streamTurn platform executor frames failure s).ends.bufferedFinal,
      e.endsMessage := by
    rw [hadded.buffered]
    exact fun e he => (List.mem_filter.1 he).2
  intro call hcall
  rw [clientCalls_append, clientCalls_finalEvents usageTotal hbuffered, List.append_nil] at hcall
  exact streamTurn_leavesNoWebTool h frames failure call hcall

theorem streamLoop_leavesNoWebTool {upstreamCall : ℕ → UpstreamAnswer} {left turn : ℕ}
    {s : StreamState} (h : LeavesNoWebTool s.written) :
    LeavesNoWebTool (streamLoop platform executor upstreamCall turn left s).written := by
  induction left using Nat.strongRecOn generalizing turn s with
  | ind left ih =>
    obtain ⟨hwritten, -⟩ | ⟨frames, failure, -, ⟨hwritten, -⟩ | ⟨-, -, -, usageTotal, -, -, hwritten⟩ |
        ⟨-, left', usageTotal, rfl, -, -, -, -, hwritten⟩⟩ :=
      streamLoop_turns platform executor upstreamCall turn left s
    · rwa [hwritten]
    · rw [hwritten]
      exact streamTurn_leavesNoWebTool h frames failure
    · rw [hwritten]
      exact finalEvents_leavesNoWebTool h frames failure usageTotal
    · rw [hwritten]
      exact ih left' (Nat.lt_succ_self left') (streamTurn_leavesNoWebTool h frames failure)

/-- The streaming agent leaves undeclared calls alone exactly when its turns start calls of
declared web tools only. -/
theorem streamPasses_iff {declared : List WebToolDecl} {upstreamCall : ℕ → UpstreamAnswer}
    {turn left : ℕ} {s : StreamState} (h : LeavesNoWebTool s.written) :
    StreamPasses declared (streamLoop platform executor upstreamCall turn left s)
        (streamTurns platform executor upstreamCall turn left s) ↔
      ∀ t ∈ streamTurns platform executor upstreamCall turn left s,
        ∀ call ∈ startedCalls t.events, isUndeclared declared call.2 = false := by
  have hnone : undeclaredStarts declared
      (clientCalls (streamLoop platform executor upstreamCall turn left s).written) = [] := by
    rw [undeclaredStarts, List.filter_eq_nil_iff]
    intro call hcall hundeclared
    have hweb := isWebToolName_of_isUndeclared hundeclared
    rw [streamLoop_leavesNoWebTool h call hcall] at hweb
    cases hweb
  rw [StreamPasses, hnone, eq_comm, undeclaredStarts, List.filter_eq_nil_iff]
  constructor
  · rintro ⟨hstarts, -⟩ t ht call hcall
    simpa using hstarts call (List.mem_flatMap.2 ⟨t, ht, hcall⟩)
  · intro hdeclared
    refine ⟨fun call hcall => ?_, fun t ht o ho => ?_⟩
    · obtain ⟨t, ht, hcall⟩ := List.mem_flatMap.1 hcall
      simpa using hdeclared t ht call hcall
    · obtain ⟨frames, failure, s', rfl⟩ := exists_of_mem_streamTurns ht
      obtain ⟨call, hcall, hname⟩ := (streamTurn_openedFrom frames failure s').outcomes o ho
      have hcalled := hdeclared _ ht call hcall
      rwa [isUndeclared, hname, ← isUndeclared]

/-! ## Both agents -/


variable (platform executor)

/-- Undeclared calls are left alone by a run of the agent loop exactly when the answers that it
follows up call declared web tools only, and by a run of the streaming agent exactly when its turns
start calls of declared web tools only. The executor is asked for what `executed` says. -/
theorem undeclared_pass_iff (messages : List AnthropicMessage) (declared : List WebToolDecl) :
    (∀ callOnce,
      (runAgentLoop platform executor callOnce messages declared).calls =
          (executeAll platform executor (executed (agentAnswers platform executor callOnce
            (MAX_AGENT_TURNS - 1) (initialState messages declared)))
            (initialState messages declared).execution).2.calls ∧
      (AgentPasses declared (runAgentLoop platform executor callOnce messages declared)
          (agentAnswers platform executor callOnce (MAX_AGENT_TURNS - 1)
            (initialState messages declared)) ↔
        ∀ resp ∈ agentAnswers platform executor callOnce (MAX_AGENT_TURNS - 1)
            (initialState messages declared),
          continues resp → CallsDeclared declared resp)) ∧
      ∀ upstreamCall,
        StreamPasses declared (runStreamingAgent platform executor upstreamCall messages declared)
            (streamTurns platform executor upstreamCall 0 (MAX_AGENT_TURNS - 1)
              (initialStream messages declared)) ↔
          ∀ t ∈ streamTurns platform executor upstreamCall 0 (MAX_AGENT_TURNS - 1)
              (initialStream messages declared),
            ∀ call ∈ startedCalls t.events, isUndeclared declared call.2 = false :=
  ⟨fun callOnce => ⟨agentLoop_calls callOnce _ _, agentPasses_iff rfl⟩,
    fun _ => streamPasses_iff fun _ hcall => nomatch hcall⟩

end

/-- A chunk that calls `web_fetch` and one that finishes the turn. -/
def fetchChunks : List Json :=
  [chunkOf [("tool_calls", .array [toolCall 0 [("name", .string "web_fetch"),
      ("arguments", .string "")] [("id", .string "call_1")]])] .null,
    chunkOf [] (.string "tool_calls")]

/-- A request that declares `web_search` and has a tool of its own under the name `web_fetch`. -/
theorem not_undeclared_pass :
    ¬ AgentPasses [searchDecl]
        (runAgentLoop (tablePlatform []) idleExecutor
          (answerFirst [callOf "call_1" "web_fetch"]) [] [searchDecl])
        (agentAnswers (tablePlatform []) idleExecutor
          (answerFirst [callOf "call_1" "web_fetch"]) (MAX_AGENT_TURNS - 1)
          (initialState [] [searchDecl])) ∧
      ¬ StreamPasses [searchDecl]
        (runStreamingAgent (tablePlatform fetchChunks) idleExecutor
          (fun i => if i = 0 then .stream [some "a", some "ab"] none else .rejected) [] [searchDecl])
        (streamTurns (tablePlatform fetchChunks) idleExecutor
          (fun i => if i = 0 then .stream [some "a", some "ab"] none else .rejected) 0 (MAX_AGENT_TURNS - 1)
          (initialStream [] [searchDecl])) := by
  constructor
  · rintro ⟨-, hexecuted⟩
    revert hexecuted
    decide
  · rintro ⟨hread, -⟩
    revert hread
    decide +kernel

end Maximal.WebTools
