import Maximal.Lib.Js.JsonText
import Maximal.Messages.NonStreamTranslation

/-!
# The history in a request to the chat completions endpoint

Every call of a tool is answered right after the message that makes it, when the history answers it
in the next message; and the texts and images of a message stay in their order.

## Main definitions

- `AnswersCalls` — the history answers the calls of each message in the next one, and nowhere else
- `KeepsToolProtocol` — the chat messages answer them right after the message that makes them
- `Carries` — the parts of a message are in the chat messages it becomes

## Main results

- `handleMessage_carries`
- `translateToOpenAI_history`
-/

namespace Maximal

open Js ChatCompletions

/-! ## The tool protocol -/

/-- Exactly one answer for each id. -/
def Answers (called : List Val) (answered : List String) : Prop :=
  answered.Nodup ∧ ∀ id, id ∈ called ↔ ∃ s ∈ answered, id = some (.string s)

def AnthropicMessage.toolUseIds : AnthropicMessage → List Val
  | .assistant (.blocks bs) => (bs.filterMap (·.toolUse?)).map (·.id)
  | _ => []

def AnthropicMessage.toolResultIds : AnthropicMessage → List String
  | .user (.blocks bs) => (bs.filterMap (·.toolResult?)).map (·.toolUseId)
  | _ => []

/-- The history after a message that made the calls `called`. -/
def AnswersCallsAfter : List Val → List AnthropicMessage → Prop
  | called, [] => called = []
  | called, message :: messages =>
    Answers called message.toolResultIds ∧ AnswersCallsAfter message.toolUseIds messages

def AnswersCalls (messages : List AnthropicMessage) : Prop := AnswersCallsAfter [] messages

/-- A message with calls is followed by one tool message for each of them, and no other message is a
tool message. -/
inductive KeepsToolProtocol : List Message → Prop where
  | nil : KeepsToolProtocol []
  | other {message : Message} {messages : List Message} (hrole : message.role ≠ .tool)
      (hcalls : message.toolCalls = none) (h : KeepsToolProtocol messages) :
      KeepsToolProtocol (message :: messages)
  | calls {message : Message} {calls : List ToolCall} {tools messages : List Message}
      {ids : List String} (hrole : message.role = .assistant)
      (hcalls : message.toolCalls = some calls) (htools : ∀ tool ∈ tools, tool.role = .tool)
      (hids : tools.map (·.toolCallId) = ids.map some) (hanswers : Answers (calls.map (·.id)) ids)
      (h : KeepsToolProtocol messages) : KeepsToolProtocol (message :: (tools ++ messages))

theorem KeepsToolProtocol.user {message : Message} {messages : List Message}
    (hrole : message.role = .user) (hcalls : message.toolCalls = none)
    (h : KeepsToolProtocol messages) : KeepsToolProtocol (message :: messages) :=
  .other (by rw [hrole]; decide) hcalls h

theorem KeepsToolProtocol.assistant {message : Message} {messages : List Message}
    (hrole : message.role = .assistant) (hcalls : message.toolCalls = none)
    (h : KeepsToolProtocol messages) : KeepsToolProtocol (message :: messages) :=
  .other (by rw [hrole]; decide) hcalls h

theorem Answers.eq_nil {ids : List String} (h : Answers [] ids) : ids = [] := by
  refine List.eq_nil_iff_forall_not_mem.2 fun s hs => ?_
  have hmem := (h.2 (some (.string s))).2 ⟨s, hs, rfl⟩
  exact absurd hmem List.not_mem_nil

/-- The tool messages at the front answer the calls that were made before. -/
def Continues (called : List Val) (messages : List Message) : Prop :=
  ∃ tools rest ids, messages = tools ++ rest ∧ (∀ tool ∈ tools, tool.role = .tool) ∧
    tools.map (·.toolCallId) = ids.map some ∧ Answers called ids ∧ KeepsToolProtocol rest

theorem Continues.keeps {messages : List Message} (h : Continues [] messages) :
    KeepsToolProtocol messages := by
  obtain ⟨tools, rest, ids, rfl, -, hids, hanswers, hrest⟩ := h
  rw [hanswers.eq_nil, List.map_nil, List.map_eq_nil_iff] at hids
  rw [hids]
  exact hrest

section Messages

variable {called : List Val} {messages : List Message}

theorem continues_cons {message : Message} (hanswers : Answers called [])
    (h : KeepsToolProtocol (message :: messages)) : Continues called (message :: messages) :=
  ⟨[], _, [], rfl, fun _ htool => absurd htool List.not_mem_nil, rfl, hanswers, h⟩

theorem continues_user {bs : List AnthropicUserContentBlock}
    (hanswers : Answers called (AnthropicMessage.user (.blocks bs)).toolResultIds)
    (h : KeepsToolProtocol messages) :
    Continues called (handleUserMessage (.blocks bs) ++ messages) := by
  refine ⟨(bs.filterMap (·.toolResult?)).map toolMessage, _, _, List.append_assoc _ _ _,
    fun tool htool => ?_, ?_, hanswers, ?_⟩
  · obtain ⟨block, -, rfl⟩ := List.mem_map.1 htool
    rfl
  · rw [AnthropicMessage.toolResultIds, List.map_map, List.map_map]
    rfl
  · split
    · exact h
    · exact .user rfl rfl h

/-- A message without calls goes before whatever keeps the protocol; the calls of one with calls are
answered by what follows. -/
theorem keeps_assistant (stringify : Json → String) (modelId : String)
    {bs : List AnthropicAssistantContentBlock}
    (h : Continues (AnthropicMessage.assistant (.blocks bs)).toolUseIds messages) :
    KeepsToolProtocol (handleAssistantMessage stringify modelId (.blocks bs) ++ messages) := by
  rw [AnthropicMessage.toolUseIds] at h
  rw [handleAssistantMessage, List.singleton_append]
  generalize bs.filterMap (·.toolUse?) = toolUseBlocks at h ⊢
  cases toolUseBlocks with
  | nil => exact .assistant rfl rfl h.keeps
  | cons toolUse toolUseBlocks =>
    obtain ⟨tools, rest, ids, rfl, htools, hids, hanswers, hrest⟩ := h
    refine .calls rfl rfl htools hids ?_ hrest
    rw [List.map_map]
    exact hanswers

/-- What one message of the history adds in front. -/
theorem continues_message (stringify : Json → String) (modelId : String)
    {message : AnthropicMessage} (hanswers : Answers called message.toolResultIds)
    (h : Continues message.toolUseIds messages) :
    Continues called (handleMessage stringify modelId message ++ messages) := by
  obtain (s | bs) | (s | bs) := message
  · exact continues_cons hanswers (.user rfl rfl h.keeps)
  · exact continues_user hanswers h.keeps
  · exact continues_cons hanswers (.assistant rfl rfl h.keeps)
  · exact continues_cons hanswers (keeps_assistant stringify modelId h)

theorem continues_history (stringify : Json → String) (modelId : String)
    {history : List AnthropicMessage} (h : AnswersCallsAfter called history) :
    Continues called (history.flatMap (handleMessage stringify modelId)) := by
  induction history generalizing called with
  | nil =>
    obtain rfl : called = [] := h
    refine ⟨[], [], [], rfl, fun _ htool => absurd htool List.not_mem_nil, rfl, ?_, .nil⟩
    exact ⟨List.nodup_nil, fun id => by simp⟩
  | cons message history ih =>
    rw [List.flatMap_cons]
    exact continues_message stringify modelId h.1 (ih h.2)

end Messages

/-! ## Texts and images -/

/-- The parts of a content; a text is one part. -/
def contentParts : Content ContentPart → List ContentPart
  | .text s => [.text (.string s)]
  | .blocks parts => parts

def AnthropicMessage.role : AnthropicMessage → Role
  | .user _ => .user
  | .assistant _ => .assistant

/-- The texts, images and documents of a message in their order, as parts. -/
def AnthropicMessage.parts : AnthropicMessage → List ContentPart
  | .user (.text s) => [.text (.string s)]
  | .user (.blocks bs) => bs.filterMap userPart
  | .assistant (.text s) => [.text (.string s)]
  | .assistant (.blocks bs) => bs.filterMap assistantPart

/-- The parts of the tool results of a message in their order, with the id of each result. -/
def AnthropicMessage.resultParts : AnthropicMessage → List (String × List ContentPart)
  | .user (.blocks bs) =>
    (bs.filterMap (·.toolResult?)).map fun block =>
      (block.toolUseId, contentParts (mapContent toolResultPart block.content))
  | _ => []

/-- The chat messages in the role of the message hold its parts, and the tool messages among them
those of its tool results. -/
def Carries (message : AnthropicMessage) (messages : List Message) : Prop :=
  (messages.filter (·.role = message.role)).flatMap (contentParts ·.content) = message.parts ∧
    (messages.filter (·.role = .tool)).map (fun m => (m.toolCallId, contentParts m.content)) =
      message.resultParts.map fun (id, parts) => (some id, parts)

theorem carries_user (bs : List AnthropicUserContentBlock) :
    Carries (.user (.blocks bs)) (handleUserMessage (.blocks bs)) := by
  have htool : ∀ blocks : List AnthropicToolResultBlock,
      (blocks.map toolMessage).filter (·.role = .user) = [] ∧
        (blocks.map toolMessage).filter (·.role = .tool) = blocks.map toolMessage := by
    intro blocks
    rw [List.filter_eq_nil_iff, List.filter_eq_self]
    constructor
    all_goals
      intro m hm
      obtain ⟨block, -, rfl⟩ := List.mem_map.1 hm
      simp [toolMessage]
  have hparts : (bs.filter (!·.isToolResult)).filterMap userPart = bs.filterMap userPart := by
    rw [List.filterMap_filter]
    refine List.filterMap_congr fun b _ => ?_
    cases b <;> rfl
  generalize hothers : bs.filter (!·.isToolResult) = others at hparts
  rw [Carries, AnthropicMessage.role, AnthropicMessage.parts, AnthropicMessage.resultParts,
    handleUserMessage]
  simp only [hothers, List.filter_append, (htool _).1, (htool _).2, List.nil_append, List.map_append,
    List.map_map, ← hparts]
  cases others with
  | nil => exact ⟨rfl, List.append_nil _⟩
  | cons b others => exact ⟨List.append_nil _, List.append_nil _⟩

theorem handleMessage_carries (stringify : Json → String) (modelId : String)
    (message : AnthropicMessage) : Carries message (handleMessage stringify modelId message) := by
  obtain (s | bs) | (s | bs) := message
  · exact ⟨rfl, rfl⟩
  · exact carries_user bs
  · exact ⟨rfl, rfl⟩
  · exact ⟨List.append_nil _, rfl⟩

/-! ## Requests -/

theorem keeps_handleSystemPrompt (system : Option (Content AnthropicTextBlock))
    {messages : List Message} (h : KeepsToolProtocol messages) :
    KeepsToolProtocol (handleSystemPrompt system ++ messages) := by
  have hsystem : ∀ s, KeepsToolProtocol ({ role := .system, content := .text s } :: messages) :=
    fun s => .other (fun hrole => Role.noConfusion hrole) rfl h
  match system with
  | none => exact h
  | some (.text s) =>
    rw [handleSystemPrompt]
    split
    · exact h
    · exact hsystem s
  | some (.blocks bs) => exact hsystem _

/-- The chat messages keep the protocol when the history does, and after the system prompt they are
those of one message of the history after the other, each with what it holds. -/
theorem translateToOpenAI_history (stringify : Json → String) (payload : AnthropicMessagesPayload)
    (h : AnswersCalls payload.messages) :
    KeepsToolProtocol (translateToOpenAI stringify payload).messages ∧
      ∃ segments, (translateToOpenAI stringify payload).messages =
          handleSystemPrompt payload.system ++ segments.flatten ∧
        List.Forall₂ Carries payload.messages segments := by
  refine ⟨?_, payload.messages.map (handleMessage stringify payload.model), ?_, ?_⟩
  · exact keeps_handleSystemPrompt _ (continues_history stringify payload.model h).keeps
  · rw [← List.flatMap_def]
    rfl
  · rw [List.forall₂_map_right_iff, List.forall₂_same]
    exact fun message _ => handleMessage_carries stringify payload.model message

/-- The result stands among the other blocks of its message. -/
theorem translateToOpenAI_history_call :
    KeepsToolProtocol (translateToOpenAI Json.stringify
      ⟨"gpt-4o",
        [.user (.text "What is in it?"),
          .assistant (.blocks [.text (.string "Let me see."),
            .toolUse ⟨some (.string "t1"), some (.string "read"), .object []⟩]),
          .user (.blocks [.text ⟨"Here:"⟩, .toolResult ⟨"t1", .text "a list", false⟩,
            .image ⟨"image/png", "iVBO"⟩])], none⟩).messages := by
  refine (translateToOpenAI_history Json.stringify _ ?_).1
  refine ⟨⟨List.nodup_nil, ?_⟩, ⟨List.nodup_nil, ?_⟩, ⟨List.pairwise_singleton _ "t1", ?_⟩, rfl⟩
  all_goals
    intro id
    simp [AnthropicMessage.toolUseIds, AnthropicMessage.toolResultIds,
      AnthropicAssistantContentBlock.toolUse?, AnthropicUserContentBlock.toolResult?]

end Maximal
