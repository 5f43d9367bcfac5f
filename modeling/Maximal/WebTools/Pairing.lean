import Mathlib.Data.List.Nodup
import Maximal.Messages.ChunkGrammar
import Maximal.WebTools.TurnEvents

/-!
# Web tools: calls and results

A follow-up request repeats what the assistant said and answers its calls. The upstream rejects a
history in which a call has no result.

## Main definitions

- `ToolPaired`, `AllPaired` — every call has one result, in two messages and in a history
- `AnswersItsCalls` — the contents whose calls the agent loop all answers
- `DistinctCalls` — the streams whose calls of web tools have different ids

## Main results

- `sent_allPaired` — the histories both loops send
-/

namespace Maximal.WebTools

open Js

/-- Every call has exactly one result with its id, and every result answers a call. -/
structure ToolPaired (content : List AnthropicAssistantContentBlock) (results : List ToolResult) :
    Prop where
  once : ∀ tu ∈ toolUses content, (results.map (·.toolUseId)).count tu.id = 1
  answers : ∀ r ∈ results, ∃ tu ∈ toolUses content, r.toolUseId = tu.id

instance (content : List AnthropicAssistantContentBlock) (results : List ToolResult) :
    Decidable (ToolPaired content results) :=
  decidable_of_iff
    ((∀ tu ∈ toolUses content, (results.map (·.toolUseId)).count tu.id = 1) ∧
      ∀ r ∈ results, ∃ tu ∈ toolUses content, r.toolUseId = tu.id)
    ⟨fun h => ⟨h.1, h.2⟩, fun h => ⟨h.once, h.answers⟩⟩

/-- Every appended assistant message is followed by the results of its calls. -/
def AllPaired : List TurnMessage → Prop
  | [] => True
  | .given _ :: messages => AllPaired messages
  | .assistant content :: .toolResults results :: messages =>
    ToolPaired content results ∧ AllPaired messages
  | .assistant _ :: _ => False
  | .toolResults _ :: _ => False

instance AllPaired.decidable : (messages : List TurnMessage) → Decidable (AllPaired messages)
  | [] => .isTrue trivial
  | .given _ :: messages => AllPaired.decidable messages
  | .assistant content :: .toolResults results :: messages =>
    have := AllPaired.decidable messages
    inferInstanceAs (Decidable (ToolPaired content results ∧ AllPaired messages))
  | [.assistant _] => .isFalse id
  | .assistant _ :: .given _ :: _ => .isFalse id
  | .assistant _ :: .assistant _ :: _ => .isFalse id
  | .toolResults _ :: _ => .isFalse id

theorem allPaired_given (messages : List AnthropicMessage) : AllPaired (messages.map .given) := by
  induction messages with
  | nil => trivial
  | cons message messages ih => exact ih

theorem AllPaired.append {content : List AnthropicAssistantContentBlock}
    {results : List ToolResult} (hpair : ToolPaired content results) :
    ∀ messages : List TurnMessage, AllPaired messages →
      AllPaired (messages ++ [.assistant content, .toolResults results])
  | [], _ => ⟨hpair, trivial⟩
  | .given _ :: messages, h => AllPaired.append hpair messages h
  | .assistant _ :: .toolResults _ :: messages, h => ⟨h.1, AllPaired.append hpair messages h.2⟩
  | [.assistant _], h => h.elim
  | .assistant _ :: .given _ :: _, h => h.elim
  | .assistant _ :: .assistant _ :: _, h => h.elim
  | .toolResults _ :: _, h => h.elim

/-- Results with the ids of all calls pair with them when the ids are different. -/
theorem toolPaired_of_nodup {content : List AnthropicAssistantContentBlock}
    {results : List ToolResult} (calls : List AnthropicToolUseBlock)
    (hids : results.map (·.toolUseId) = calls.map (·.id)) (hnodup : (calls.map (·.id)).Nodup)
    (hcalls : ∀ tu ∈ calls, tu ∈ toolUses content)
    (hall : ∀ tu ∈ toolUses content, tu.id ∈ calls.map (·.id)) : ToolPaired content results where
  once tu htu := by
    rw [hids]
    exact List.count_eq_one_of_mem hnodup (hall tu htu)
  answers r hr := by
    have hmem : r.toolUseId ∈ calls.map (·.id) := hids ▸ List.mem_map_of_mem hr
    obtain ⟨tu, htu, heq⟩ := List.mem_map.1 hmem
    exact ⟨tu, hcalls tu htu, heq.symm⟩

section

variable {platform : Platform} {executor : Executor}

/-! ## The agent loop -/

theorem map_fst_executeAll (platform : Platform) (executor : Executor)
    (calls : List (AnthropicToolUseBlock × ToolName)) (x : Execution) :
    (executeAll platform executor calls x).1.map (·.1) = calls.map (·.1) := by
  induction calls generalizing x with
  | nil => rfl
  | cons call calls ih =>
    obtain ⟨tu, name⟩ := call
    simp only [executeAll, List.map_cons, ih]

theorem mem_toolUses_of_ours {content : List AnthropicAssistantContentBlock}
    {call : AnthropicToolUseBlock × ToolName} (h : call ∈ ours content) :
    call.1 ∈ toolUses content := by
  obtain ⟨block, hblock, hcall⟩ := List.mem_filterMap.1 h
  obtain ⟨tu, htu, hname⟩ := Option.bind_eq_some_iff.1 hcall
  obtain ⟨name, -, rfl⟩ := Option.map_eq_some_iff.1 hname
  exact List.mem_filterMap.2 ⟨block, hblock, htu⟩

/-- The calls of web tools have different ids, and any other call has the id of one of them. -/
def AnswersItsCalls (content : List AnthropicAssistantContentBlock) : Prop :=
  ((ours content).map (·.1.id)).Nodup ∧
    ∀ tu ∈ toolUses content, tu.id ∈ (ours content).map (·.1.id)

instance (content : List AnthropicAssistantContentBlock) : Decidable (AnswersItsCalls content) :=
  inferInstanceAs (Decidable (_ ∧ _))

theorem AgentState.followUp_allPaired {s : AgentState} (h : AllPaired s.messages)
    {content : List AnthropicAssistantContentBlock} (hcontent : AnswersItsCalls content)
    (usageTotal : UsageTotal) :
    AllPaired (s.followUp platform executor content usageTotal).messages := by
  refine AllPaired.append (toolPaired_of_nodup ((ours content).map (·.1)) ?_ ?_ ?_ ?_) _ h
  · rw [← map_fst_executeAll platform executor (ours content) s.execution, List.map_map,
      List.map_map]
    exact List.map_congr_left fun o _ => buildToolResultMessage_toolUseId ..
  · rw [List.map_map]
    exact hcontent.1
  · intro tu htu
    obtain ⟨call, hcall, rfl⟩ := List.mem_map.1 htu
    exact mem_toolUses_of_ours hcall
  · intro tu htu
    rw [List.map_map]
    exact hcontent.2 tu htu

theorem agentLoop_sent {callOnce : ℕ → Except Failure AnthropicResponse}
    (hturns : ∀ i resp, callOnce i = .ok resp → continues resp → AnswersItsCalls resp.content)
    (left : ℕ) {s : AgentState} (h : AllPaired s.messages) :
    ∀ messages ∈ (agentLoop platform executor callOnce left s).sent, AllPaired messages := by
  have hfirst : ∀ messages ∈ [s.messages], AllPaired messages := by simpa using h
  induction left generalizing s with
  | zero =>
    rw [agentLoop]
    split
    · exact hfirst
    · split
      · exact hfirst
      · split <;> exact hfirst
  | succ left ih =>
    rw [agentLoop]
    split
    · exact hfirst
    · next resp hresp =>
      split
      · exact hfirst
      · next usageTotal _ =>
        split
        · next hcontinues =>
          have hnext : AllPaired (s.followUp platform executor resp.content usageTotal).messages :=
            s.followUp_allPaired h (hturns _ _ hresp hcontinues) usageTotal
          intro messages hmem
          rcases List.mem_cons.1 hmem with rfl | hmem
          · exact h
          · exact ih hnext (by simpa using hnext) messages hmem
        · exact hfirst

/-! ## The streaming agent -/

/-- A turn whose results are sent back executes calls with different ids. -/
def DistinctCalls (platform : Platform) : UpstreamAnswer → Prop
  | .stream frames failure =>
    let turn := upstreamTurn platform failure frames .fresh
    turn.2 = none → lastStopReason turn.1 = .reason .toolUse → (calledWebTools turn.1).Nodup
  | _ => True

theorem Dispatch.followUp_allPaired {d : Dispatch} {messages : List TurnMessage}
    (h : AllPaired messages) (hcontent : toolUses d.assistantContent = d.outcomes.map (·.1))
    (hnodup : (d.outcomes.map (·.1.id)).Nodup) (usageTotal : UsageTotal) :
    AllPaired (d.followUp platform messages usageTotal).messages := by
  refine AllPaired.append (toolPaired_of_nodup (d.outcomes.map (·.1)) ?_ ?_ ?_ ?_) _ h
  · rw [List.map_map, List.map_map]
    exact List.map_congr_left fun o _ => buildToolResultMessage_toolUseId ..
  · rw [List.map_map]
    exact hnodup
  · rw [hcontent]
    exact fun _ => id
  · rw [hcontent]
    exact fun _ => List.mem_map_of_mem

theorem streamLoop_sent {upstreamCall : ℕ → UpstreamAnswer}
    (hturns : ∀ i, DistinctCalls platform (upstreamCall i)) (left : ℕ) {turn : ℕ}
    {s : StreamState} (h : AllPaired s.messages) :
    ∀ messages ∈ (streamLoop platform executor upstreamCall turn left s).sent,
      AllPaired messages := by
  have hfirst : ∀ messages ∈ [s.messages], AllPaired messages := by simpa using h
  induction left generalizing turn s with
  | zero =>
    rw [streamLoop]
    split
    · exact hfirst
    · exact hfirst
    · split
      · exact hfirst
      · split
        · exact hfirst
        · split <;> exact hfirst
  | succ left ih =>
    rw [streamLoop]
    split
    · exact hfirst
    · exact hfirst
    · next frames failure hanswer =>
      split
      · exact hfirst
      · next d hread =>
        split
        · exact hfirst
        · next usageTotal _ =>
          split
          · next hcontinues =>
            obtain ⟨hcalled, hcontent, hreason⟩ := collected_of_readFrames hread
            have hdistinct := hturns turn
            rw [hanswer] at hdistinct
            have hnodup := hdistinct (dispatchAll_of_readFrames hread).2
              (hreason ▸ of_decide_eq_true (Bool.and_eq_true _ _ ▸ hcontinues).1)
            have hnext : AllPaired (d.followUp platform s.messages usageTotal).messages :=
              d.followUp_allPaired h hcontent (hcalled ▸ hnodup) usageTotal
            intro messages hmem
            rcases List.mem_cons.1 hmem with rfl | hmem
            · exact h
            · exact ih hnext (by simpa using hnext) messages hmem
          · exact hfirst

end

/-- What the loops send is paired, if every turn that they answer has calls they answer. -/
theorem sent_allPaired (platform : Platform) (executor : Executor)
    (messages : List AnthropicMessage) (declarations : List WebToolDecl) :
    (∀ callOnce, (∀ i resp, callOnce i = .ok resp → continues resp → AnswersItsCalls resp.content) →
      ∀ sent ∈ (runAgentLoop platform executor callOnce messages declarations).sent,
        AllPaired sent) ∧
    ∀ upstreamCall, (∀ i, DistinctCalls platform (upstreamCall i)) →
      ∀ sent ∈ (runStreamingAgent platform executor upstreamCall messages declarations).sent,
        AllPaired sent :=
  ⟨fun _ h => agentLoop_sent h _ (allPaired_given messages),
    fun _ h => streamLoop_sent h _ (allPaired_given messages)⟩

/-! ## Runs -/

/-- A platform on which no address is valid and the text of a chunk is its number. -/
def tablePlatform (chunks : List Json) : Platform where
  parseUrl _ := none
  parse s := chunks[s.length - 1]?
  stringifyItems _ := "[]"
  encryptedContent _ := ""
  now := "2026-01-01T00:00:00.000Z"

def idleExecutor : Executor where
  fetch _ _ := .failed .unavailable
  search _ _ _ := .ok []

def callOf (id name : String) : AnthropicAssistantContentBlock :=
  .toolUse ⟨some (.string id), some (.string name), .object [("query", .string "lean")]⟩

def respond (content : List AnthropicAssistantContentBlock) (stopReason : StopReason) :
    AnthropicResponse :=
  ⟨none, none, content, .reason stopReason,
    { inputTokens := some (.number (.ofNat 1)), outputTokens := some (.number (.ofNat 1)) }, none⟩

/-- The first turn has the given content and calls tools, the second one ends the message. -/
def answerFirst (content : List AnthropicAssistantContentBlock) (i : ℕ) :
    Except Failure AnthropicResponse :=
  .ok (if i = 0 then respond content .toolUse else respond [.text (.string "done")] .endTurn)

def searchDecl : WebToolDecl := ⟨.webSearch, {}⟩

/-- A chunk that calls `web_search` and one that finishes the turn. -/
def searchChunks : List Json :=
  [chunkOf [("tool_calls", .array [toolCall 0 [("name", .string "web_search"),
      ("arguments", .string "")] [("id", .string "call_1")]])] .null,
    chunkOf [] (.string "tool_calls")]

theorem sent_allPaired_search :
    (∀ sent ∈ (runAgentLoop (tablePlatform []) idleExecutor
        (answerFirst [callOf "call_1" "web_search"]) [] [searchDecl]).sent, AllPaired sent) ∧
      ∀ sent ∈ (runStreamingAgent (tablePlatform searchChunks) idleExecutor
        (fun _ => .stream [some "a", some "ab"] none) [] [searchDecl]).sent, AllPaired sent := by
  refine ⟨(sent_allPaired _ _ _ _).1 _ fun i resp h hcontinues => ?_,
    (sent_allPaired _ _ _ _).2 _ fun i _ _ => by decide⟩
  cases h
  by_cases hi : i = 0
  · rw [if_pos hi]
    decide
  · rw [if_neg hi] at hcontinues
    exact absurd hcontinues (by decide)

/-- A turn that calls a tool of the client next to a web tool. -/
theorem not_all_sent_paired :
    ¬∀ (platform : Platform) (executor : Executor) (messages : List AnthropicMessage)
      (declarations : List WebToolDecl),
      (∀ callOnce, ∀ sent ∈ (runAgentLoop platform executor callOnce messages declarations).sent,
        AllPaired sent) ∧
      ∀ upstreamCall, ∀ sent ∈
        (runStreamingAgent platform executor upstreamCall messages declarations).sent,
        AllPaired sent := by
  intro h
  have hsent := (h (tablePlatform []) idleExecutor [] [searchDecl]).1
    (answerFirst [callOf "call_1" "web_search", callOf "call_2" "Read"])
  revert hsent
  decide

end Maximal.WebTools
