import Mathlib.Data.List.Nodup
import Maximal.WebTools.Pairing

/-!
# Web tools: the stop reason

A client runs its tools when a response stops with `tool_use`.

## Main definitions

- `StopsTruthfully` — the stop reason fits the calls that the client has to answer
- `FinalResponse.clientCalls`, `clientCalls` — these calls, in a response and in a stream
- `FitsResponse`, `FitsStream` — the turns after which the stop reason can fit
- `EndsInTime`, `StreamEndsInTime` — the loop ends before it has used up its turns

## Main results

- `runs_stopTruthfully`
-/

namespace Maximal.WebTools

open Js

/-- The stop reason is `tool_use` exactly when there are calls for the client. -/
def StopsTruthfully {α : Type} (stopReason : StopReasonValue) (calls : List α) : Prop :=
  stopReason = .reason .toolUse ↔ calls ≠ []

instance {α : Type} (stopReason : StopReasonValue) (calls : List α) :
    Decidable (StopsTruthfully stopReason calls) :=
  match calls with
  | [] => decidable_of_iff (stopReason ≠ .reason .toolUse) (by simp [StopsTruthfully])
  | _ :: _ => decidable_of_iff (stopReason = .reason .toolUse) (by simp [StopsTruthfully])

instance Except.decidableForallOk {ε α : Type} (x : Except ε α) (P : α → Prop) [DecidablePred P] :
    Decidable (∀ a, x = .ok a → P a) :=
  match x with
  | .error _ => .isTrue (by simp)
  | .ok a => decidable_of_iff (P a) (by simp)

/-! ## The agent loop -/

/-- A call that was not turned into a `server_tool_use`. -/
def SynthesizedBlock.clientCall? : SynthesizedBlock → Option AnthropicToolUseBlock
  | .assistant block => block.toolUse?
  | _ => none

def callsIn (content : List SynthesizedBlock) : List AnthropicToolUseBlock :=
  content.filterMap (·.clientCall?)

def FinalResponse.clientCalls (response : FinalResponse) : List AnthropicToolUseBlock :=
  callsIn response.content

/-- A turn that is followed up has no call but those of web tools; another one stops with
`tool_use` exactly when it has calls. -/
def FitsResponse (resp : AnthropicResponse) : Prop :=
  if continues resp then ∀ tu ∈ toolUses resp.content, tu.id ∈ (ours resp.content).map (·.1.id)
  else StopsTruthfully resp.stopReason (toolUses resp.content)

instance (resp : AnthropicResponse) : Decidable (FitsResponse resp) := by
  unfold FitsResponse
  infer_instance

/-- One of the turns that the loop may take is not followed up. -/
def EndsInTime (callOnce : ℕ → Except Failure AnthropicResponse) : Prop :=
  ∃ i < MAX_AGENT_TURNS, ∀ resp, callOnce i = .ok resp → continues resp = false

section

variable {platform : Platform} {executor : Executor}

theorem tripById_isSome {trips : List RoundTrip} {id : Val} (h : id ∈ trips.map (·.toolUseId)) :
    (tripById trips id).isSome := by
  obtain ⟨trip, htrip, rfl⟩ := List.mem_map.1 h
  rw [tripById, List.find?_isSome]
  exact ⟨trip, List.mem_reverse.2 htrip, decide_eq_true rfl⟩

/-- Every call of the turn has a round trip, so none is left to the client. -/
theorem callsIn_weaveTurn_nil {turn : Turn}
    (h : ∀ tu ∈ toolUses turn.assistant, tu.id ∈ turn.trips.map (·.toolUseId)) :
    callsIn (weaveTurn platform turn) = [] := by
  refine List.filterMap_eq_nil_iff.2 fun b hb => ?_
  rw [weaveTurn] at hb
  split at hb
  · next hempty =>
    obtain ⟨block, hblock, rfl⟩ := List.mem_map.1 hb
    rw [List.isEmpty_iff.1 hempty] at h
    show block.toolUse? = none
    cases hcall : block.toolUse? with
    | none => rfl
    | some tu => exact absurd (h tu (List.mem_filterMap.2 ⟨block, hblock, hcall⟩)) (by simp)
  · obtain ⟨block, hblock, hb⟩ := List.mem_flatMap.1 hb
    rw [weaveBlock] at hb
    cases hcall : block.toolUse? with
    | none =>
      rw [hcall] at hb
      obtain rfl := List.mem_singleton.1 hb
      exact hcall
    | some tu =>
      have htrip := tripById_isSome (h tu (List.mem_filterMap.2 ⟨block, hblock, hcall⟩))
      obtain ⟨trip, htrip⟩ := Option.isSome_iff_exists.1 htrip
      simp only [hcall, htrip, List.mem_cons, List.not_mem_nil, or_false] at hb
      rcases hb with rfl | rfl <;> rfl

theorem callsIn_last (content : List AnthropicAssistantContentBlock) :
    callsIn (weaveTurn platform ⟨content, []⟩) = toolUses content := by
  show callsIn (content.map .assistant) = toolUses content
  rw [callsIn, List.filterMap_map]
  rfl

theorem callsIn_flatMap_append (platform : Platform) (turns : List Turn) (turn : Turn) :
    callsIn ((turns ++ [turn]).flatMap (weaveTurn platform)) =
      callsIn (turns.flatMap (weaveTurn platform)) ++ callsIn (weaveTurn platform turn) := by
  rw [List.flatMap_append, List.flatMap_singleton, callsIn, List.filterMap_append]
  rfl

/-- No turn so far leaves a call to the client. -/
def AgentState.LeavesNoCall (platform : Platform) (s : AgentState) : Prop :=
  callsIn (s.turns.flatMap (weaveTurn platform)) = []

theorem AgentState.followUp_leavesNoCall {s : AgentState} (h : s.LeavesNoCall platform)
    {resp : AnthropicResponse} (hcontinues : continues resp) (hfits : FitsResponse resp)
    (usageTotal : UsageTotal) :
    (s.followUp platform executor resp.content usageTotal).LeavesNoCall platform := by
  have hturn := callsIn_flatMap_append platform s.turns ⟨resp.content,
    (executeAll platform executor (ours resp.content) s.execution).1.map fun o => ⟨o.1.id, o.2⟩⟩
  refine hturn.trans ?_
  rw [show callsIn (s.turns.flatMap (weaveTurn platform)) = [] from h, List.nil_append]
  refine callsIn_weaveTurn_nil fun tu htu => ?_
  rw [FitsResponse, if_pos hcontinues] at hfits
  have hid := hfits tu htu
  have hids : (executeAll platform executor (ours resp.content) s.execution).1.map (·.1.id) =
      (ours resp.content).map (·.1.id) := by
    have hfst := congrArg (List.map (·.id))
      (map_fst_executeAll platform executor (ours resp.content) s.execution)
    rwa [List.map_map, List.map_map] at hfst
  rw [← hids] at hid
  rwa [List.map_map]

theorem lastTurn_stopsTruthfully {s : AgentState} (h : s.LeavesNoCall platform)
    {resp : AnthropicResponse} (hfits : FitsResponse resp) (hstop : continues resp = false) :
    StopsTruthfully resp.stopReason
      (callsIn ((s.turns ++ [(⟨resp.content, []⟩ : Turn)]).flatMap (weaveTurn platform))) := by
  rw [FitsResponse, hstop, if_neg Bool.false_ne_true] at hfits
  rw [callsIn_flatMap_append, callsIn_last, show callsIn _ = [] from h, List.nil_append]
  exact hfits

@[simp] theorem AgentState.length_followUp (s : AgentState)
    (content : List AnthropicAssistantContentBlock) (usageTotal : UsageTotal) :
    (s.followUp platform executor content usageTotal).turns.length = s.turns.length + 1 := by
  rw [AgentState.followUp, List.length_append, List.length_singleton]

theorem agentLoop_stopsTruthfully {callOnce : ℕ → Except Failure AnthropicResponse}
    (hturns : ∀ i resp, callOnce i = .ok resp → FitsResponse resp) {left : ℕ} {s : AgentState}
    (hends : ∃ i, s.turns.length ≤ i ∧ i ≤ s.turns.length + left ∧
      ∀ resp, callOnce i = .ok resp → continues resp = false)
    (h : s.LeavesNoCall platform) {response : FinalResponse}
    (hresult : (agentLoop platform executor callOnce left s).result = .ok response) :
    StopsTruthfully response.stopReason response.clientCalls := by
  obtain ⟨i, hle, hge, hstops⟩ := hends
  induction left generalizing s with
  | zero =>
    obtain ⟨resp, usageTotal, hresp, -, hcases⟩ := agentLoop_cases _ _ hresult
    obtain rfl : i = s.turns.length := by omega
    rcases hcases with ⟨hstop, heq⟩ | ⟨hcontinues, -, -⟩ | ⟨-, left', hleft, -⟩
    · rw [heq] at hresult
      cases hresult
      exact lastTurn_stopsTruthfully h (hturns _ _ hresp) hstop
    · rw [hstops resp hresp] at hcontinues
      cases hcontinues
    · omega
  | succ left ih =>
    obtain ⟨resp, usageTotal, hresp, -, hcases⟩ := agentLoop_cases _ _ hresult
    rcases hcases with ⟨hstop, heq⟩ | ⟨-, hleft, -⟩ | ⟨hcontinues, left', hleft, heq⟩
    · rw [heq] at hresult
      cases hresult
      exact lastTurn_stopsTruthfully h (hturns _ _ hresp) hstop
    · omega
    · obtain rfl : left' = left := by omega
      rw [heq] at hresult
      have hne : i ≠ s.turns.length := by
        rintro rfl
        rw [hstops resp hresp] at hcontinues
        cases hcontinues
      refine ih (s.followUp_leavesNoCall h hcontinues (hturns _ _ hresp) usageTotal) hresult ?_ ?_
      · rw [AgentState.length_followUp]
        omega
      · rw [AgentState.length_followUp]
        omega

/-! ## The streaming agent -/

/-- The stop reason that the client reads. -/
def deliveredStopReason (written : List ClientEvent) : StopReasonValue :=
  written.foldl (fun reason event =>
    match event with
    | .messageDelta stopReason _ => stopReason
    | _ => reason) .null

/-- A turn that is followed up has no call but those of web tools; another one stops with
`tool_use` exactly when it has calls of other tools. -/
def FitsStream (platform : Platform) : UpstreamAnswer → Prop
  | .stream frames failure =>
    let turn := upstreamTurn platform failure frames .fresh
    turn.2 = none →
      if lastStopReason turn.1 = .reason .toolUse ∧ calledWebTools turn.1 ≠ [] then
        otherCalls turn.1 = []
      else StopsTruthfully (lastStopReason turn.1) (otherCalls turn.1)
  | _ => True

/-- One of the turns that the loop may take is not followed up. -/
def StreamEndsInTime (platform : Platform) (upstreamCall : ℕ → UpstreamAnswer) : Prop :=
  ∃ i < MAX_AGENT_TURNS, ∀ frames failure, upstreamCall i = .stream frames failure →
    ¬(lastStopReason (upstreamTurn platform failure frames .fresh).1 = .reason .toolUse ∧
      calledWebTools (upstreamTurn platform failure frames .fresh).1 ≠ [])

theorem deliveredStopReason_append {written quiet : List ClientEvent}
    (h : ∀ event ∈ quiet, event.isMessageDelta = false) :
    deliveredStopReason (written ++ quiet) = deliveredStopReason written := by
  rw [deliveredStopReason, List.foldl_append]
  induction quiet using List.reverseRecOn with
  | nil => rfl
  | append_singleton quiet event ih =>
    rw [List.foldl_append, List.foldl_cons, List.foldl_nil,
      ih fun event' hmem => h event' (List.mem_append_left _ hmem)]
    have hquiet := h event (List.mem_append_right _ List.mem_cons_self)
    cases event with
    | messageDelta => cases hquiet
    | _ => rfl

/-- The client reads the stop reason of the events that the last turn kept for the end. -/
theorem deliveredStopReason_finalEvents {written : List ClientEvent}
    (h : ∀ event ∈ written, event.isMessageDelta = false) (usageTotal : UsageTotal)
    (bufferedFinal : List AnthropicStreamEventData) :
    deliveredStopReason (written ++ finalEvents usageTotal bufferedFinal) = .reason .toolUse ↔
      lastStopReason bufferedFinal = .reason .toolUse := by
  have hwritten : deliveredStopReason ([] ++ written) = .null := deliveredStopReason_append h
  rw [List.nil_append] at hwritten
  induction bufferedFinal using List.reverseRecOn with
  | nil =>
    rw [finalEvents, List.map_nil, List.append_nil, hwritten]
    rfl
  | append_singleton events e ih =>
    rw [finalEvents, List.map_append, ← List.append_assoc, lastStopReason, List.foldl_append]
    cases e with
    | messageDelta stopReason usage =>
      rw [deliveredStopReason, List.foldl_append]
      show stopReason = _ ↔ (if stopReason = .undefined then StopReasonValue.null else stopReason) = _
      split
      · next hundefined =>
        rw [hundefined]
        exact iff_of_false StopReasonValue.noConfusion StopReasonValue.noConfusion
      · rfl
    | _ =>
      rw [deliveredStopReason_append (by simp [ClientEvent.isMessageDelta])]
      exact ih

/-- Nothing written so far is a call for the client or ends the message. -/
def StreamState.LeavesNoCall (s : StreamState) : Prop :=
  clientCalls s.written = [] ∧ ∀ event ∈ s.written, event.isMessageDelta = false

theorem clientCalls_finalEvents (usageTotal : UsageTotal)
    {bufferedFinal : List AnthropicStreamEventData} (h : ∀ e ∈ bufferedFinal, e.endsMessage) :
    clientCalls (finalEvents usageTotal bufferedFinal) = [] := by
  refine List.filterMap_eq_nil_iff.2 fun event hevent => ?_
  obtain ⟨e, he, rfl⟩ := List.mem_map.1 hevent
  have hend := h e he
  cases e <;> first | rfl | cases hend

/-- A turn is followed up for the events it has. -/
theorem continues_iff {s : StreamState} {frames : List (Option String)}
    {failure : Option Failure} {d : Dispatch}
    (hread : readFrames platform executor failure frames .fresh (startTurn s) = (d, none)) :
    d.continues = true ↔
      lastStopReason (upstreamTurn platform failure frames .fresh).1 = .reason .toolUse ∧
        calledWebTools (upstreamTurn platform failure frames .fresh).1 ≠ [] := by
  obtain ⟨hcalled, -, hreason⟩ := collected_of_readFrames hread
  rw [Dispatch.continues, Bool.and_eq_true, decide_eq_true_iff, hreason, ← hcalled, ne_eq,
    List.map_eq_nil_iff, Bool.not_eq_true', List.isEmpty_eq_false_iff]

/-- The calls of a turn are added to those that the client reads. -/
theorem StreamState.followUp_leavesNoCall {s : StreamState} (h : s.LeavesNoCall)
    {frames : List (Option String)} {failure : Option Failure} {d : Dispatch}
    (hread : readFrames platform executor failure frames .fresh (startTurn s) = (d, none))
    (hfits : FitsStream platform (.stream frames failure)) (hcontinues : d.continues = true)
    (usageTotal : UsageTotal) : (d.followUp platform s.messages usageTotal).LeavesNoCall := by
  obtain ⟨added, hadded⟩ := written_of_readFrames hread
  have hfits := hfits (dispatchAll_of_readFrames hread).2
  rw [if_pos ((continues_iff hread).1 hcontinues)] at hfits
  constructor
  · show clientCalls d.written = []
    rw [hadded.written, clientCalls_append, h.1, hadded.calls, hfits]
    rfl
  · show ∀ event ∈ d.written, _
    rw [hadded.written]
    intro event hevent
    exact (List.mem_append.1 hevent).elim (h.2 event) (hadded.quiet event)

/-- A turn that ends the loop decides about the stop reason that is delivered. -/
theorem lastStream_stopsTruthfully {s : StreamState} (h : s.LeavesNoCall)
    {frames : List (Option String)} {failure : Option Failure} {d : Dispatch}
    (hread : readFrames platform executor failure frames .fresh (startTurn s) = (d, none))
    (hfits : FitsStream platform (.stream frames failure)) (hends : d.continues = false)
    (usageTotal : UsageTotal) :
    StopsTruthfully (deliveredStopReason (d.written ++ finalEvents usageTotal d.bufferedFinal))
      (clientCalls (d.written ++ finalEvents usageTotal d.bufferedFinal)) := by
  obtain ⟨added, hadded⟩ := written_of_readFrames hread
  have hfits := hfits (dispatchAll_of_readFrames hread).2
  rw [if_neg (fun hc => by simp [(continues_iff hread).2 hc] at hends)] at hfits
  have hquiet : ∀ event ∈ d.written, event.isMessageDelta = false := by
    rw [hadded.written]
    intro event hevent
    exact (List.mem_append.1 hevent).elim (h.2 event) (hadded.quiet event)
  have hbuffered : ∀ e ∈ d.bufferedFinal, e.endsMessage := by
    rw [hadded.buffered]
    exact fun e he => (List.mem_filter.1 he).2
  rw [StopsTruthfully, deliveredStopReason_finalEvents hquiet, hadded.buffered,
    lastStopReason_filter, clientCalls_append, ← hadded.buffered,
    clientCalls_finalEvents usageTotal hbuffered, List.append_nil, hadded.written,
    clientCalls_append, h.1, List.nil_append, hadded.calls]
  exact hfits

theorem streamLoop_stopsTruthfully {upstreamCall : ℕ → UpstreamAnswer}
    (hturns : ∀ i, FitsStream platform (upstreamCall i)) {left turn : ℕ} {s : StreamState}
    (hends : ∃ i, turn ≤ i ∧ i ≤ turn + left ∧
      ∀ frames failure, upstreamCall i = .stream frames failure →
        ¬(lastStopReason (upstreamTurn platform failure frames .fresh).1 = .reason .toolUse ∧
          calledWebTools (upstreamTurn platform failure frames .fresh).1 ≠ []))
    (h : s.LeavesNoCall)
    (hdone : (streamLoop platform executor upstreamCall turn left s).failure = none) :
    StopsTruthfully
      (deliveredStopReason (streamLoop platform executor upstreamCall turn left s).written)
      (clientCalls (streamLoop platform executor upstreamCall turn left s).written) := by
  obtain ⟨i, hle, hge, hstops⟩ := hends
  induction left generalizing turn s with
  | zero =>
    obtain ⟨frames, failure, d, usageTotal, hanswer, hread, -, hcases⟩ := streamLoop_cases _ _ hdone
    have hfits := hturns turn
    rw [hanswer] at hfits
    obtain rfl : i = turn := by omega
    rcases hcases with ⟨-, heq⟩ | ⟨-, left', hleft, -⟩
    · have hends : d.continues = false := by
        rw [Bool.eq_false_iff]
        exact fun hc => hstops _ _ hanswer ((continues_iff hread).1 hc)
      rw [heq]
      exact lastStream_stopsTruthfully h hread hfits hends usageTotal
    · omega
  | succ left ih =>
    obtain ⟨frames, failure, d, usageTotal, hanswer, hread, -, hcases⟩ := streamLoop_cases _ _ hdone
    have hfits := hturns turn
    rw [hanswer] at hfits
    rcases hcases with ⟨hlast, heq⟩ | ⟨hcontinues, left', hleft, heq⟩
    · rw [heq]
      have hends : d.continues = false := hlast.resolve_right (by omega)
      exact lastStream_stopsTruthfully h hread hfits hends usageTotal
    · obtain rfl : left' = left := by omega
      rw [heq] at hdone ⊢
      have hne : i ≠ turn := by
        rintro rfl
        exact hstops _ _ hanswer ((continues_iff hread).1 hcontinues)
      exact ih (StreamState.followUp_leavesNoCall h hread hfits hcontinues usageTotal) hdone
        (by omega) (by omega)

end

/-- The stop reason fits in every run that ends in time and whose turns all fit. -/
theorem runs_stopTruthfully (platform : Platform) (executor : Executor)
    (messages : List AnthropicMessage) (declarations : List WebToolDecl) :
    (∀ callOnce, (∀ i resp, callOnce i = .ok resp → FitsResponse resp) → EndsInTime callOnce →
      ∀ response, (runAgentLoop platform executor callOnce messages declarations).result =
          .ok response →
        StopsTruthfully response.stopReason response.clientCalls) ∧
    ∀ upstreamCall, (∀ i, FitsStream platform (upstreamCall i)) →
      StreamEndsInTime platform upstreamCall →
      (runStreamingAgent platform executor upstreamCall messages declarations).failure = none →
        StopsTruthfully
          (deliveredStopReason
            (runStreamingAgent platform executor upstreamCall messages declarations).written)
          (clientCalls
            (runStreamingAgent platform executor upstreamCall messages declarations).written) := by
  constructor
  · rintro callOnce hturns ⟨i, hi, hstops⟩ response hresult
    refine agentLoop_stopsTruthfully (s := initialState messages declarations) hturns
      ⟨i, Nat.zero_le i, ?_, hstops⟩ rfl hresult
    show i ≤ 0 + (MAX_AGENT_TURNS - 1)
    omega
  · rintro upstreamCall hturns ⟨i, hi, hstops⟩ hdone
    refine streamLoop_stopsTruthfully hturns ⟨i, Nat.zero_le i, ?_, hstops⟩ ⟨rfl, ?_⟩ hdone
    · omega
    · exact fun _ hevent => absurd hevent List.not_mem_nil

/-- A chunk that calls a tool of the client and one that finishes the turn. -/
def readChunks : List Json :=
  [chunkOf [("tool_calls", .array [toolCall 0 [("name", .string "Read"),
      ("arguments", .string "{}")] [("id", .string "call_2")]])] .null,
    chunkOf [] (.string "tool_calls")]

/-- A search, and then the end of the message; a call of a tool of the client. -/
theorem runs_stopTruthfully_search :
    (∀ response, (runAgentLoop (tablePlatform []) idleExecutor
        (answerFirst [callOf "call_1" "web_search"]) [] [searchDecl]).result = .ok response →
      StopsTruthfully response.stopReason response.clientCalls) ∧
    ((runStreamingAgent (tablePlatform readChunks) idleExecutor
        (fun _ => .stream [some "a", some "ab"] none) [] [searchDecl]).failure = none →
      StopsTruthfully
        (deliveredStopReason (runStreamingAgent (tablePlatform readChunks) idleExecutor
          (fun _ => .stream [some "a", some "ab"] none) [] [searchDecl]).written)
        (clientCalls (runStreamingAgent (tablePlatform readChunks) idleExecutor
          (fun _ => .stream [some "a", some "ab"] none) [] [searchDecl]).written)) := by
  refine ⟨(runs_stopTruthfully _ _ _ _).1 _ (fun i resp h => ?_) ⟨1, by decide, ?_⟩,
    (runs_stopTruthfully _ _ _ _).2 _ (fun i _ => by decide) ⟨0, by decide, ?_⟩⟩
  · cases h
    by_cases hi : i = 0
    · rw [if_pos hi]
      decide
    · rw [if_neg hi]
      decide
  · rintro resp ⟨⟩
    decide
  · rintro frames failure ⟨⟩
    decide

/-- A call of a tool of the client next to a search is still there when the message has ended;
ten turns of searches stop with `tool_use` and no call for the client. -/
theorem not_all_runs_stopTruthfully :
    ¬(∀ (platform : Platform) (executor : Executor) (messages : List AnthropicMessage)
      (declarations : List WebToolDecl) (callOnce : ℕ → Except Failure AnthropicResponse)
      (response : FinalResponse),
      (runAgentLoop platform executor callOnce messages declarations).result = .ok response →
        StopsTruthfully response.stopReason response.clientCalls) ∧
    ¬∀ response, (runAgentLoop (tablePlatform []) idleExecutor
        (fun _ => .ok (respond [callOf "call_1" "web_search"] .toolUse)) [] [searchDecl]).result =
          .ok response →
        StopsTruthfully response.stopReason response.clientCalls := by
  constructor
  · intro h
    have hmixed := h (tablePlatform []) idleExecutor [] [searchDecl]
      (answerFirst [callOf "call_1" "web_search", callOf "call_2" "Read"])
    revert hmixed
    decide
  · decide +kernel

end Maximal.WebTools
