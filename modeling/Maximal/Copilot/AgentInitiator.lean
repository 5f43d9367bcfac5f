import Maximal.Messages.ResponsesRequest

/-!
# Who initiated a request

A request is billed as the user's or as the agent's. Each upstream endpoint has its own rule,
which reads the end of its own kind of request.

## Main definitions

- `messagesInitiator`, `chatCompletionsInitiator`, `responsesInitiator`
- `InitiatorsAgree` — all three rules give a conversation the same initiator
- `endsAlike` — a condition on the conversation

## Main results

- `chatCompletionsInitiator_translateToOpenAI` — the chat rule always gives the initiator of the
  Anthropic rule
- `initiatorsAgree_iff` — the Responses rule does exactly when the conversation ends alike
-/

namespace Maximal

open Js ChatCompletions Responses

inductive Initiator where
  | agent
  | user
  deriving DecidableEq

/-- The rule for `/v1/messages`. -/
def messagesInitiator (payload : AnthropicMessagesPayload) : Initiator :=
  let isInitiateRequest :=
    match payload.messages.getLast? with
    | some (.user (.text _)) => true
    | some (.user (.blocks bs)) => bs.any (!·.isToolResult)
    | _ => false
  if isInitiateRequest then .user else .agent

/-- The rule for `/chat/completions`. -/
def chatCompletionsInitiator (payload : ChatCompletionsPayload) : Initiator :=
  match payload.messages.getLast? with
  | none => .user
  | some lastMessage =>
    if lastMessage.role = .assistant ∨ lastMessage.role = .tool then .agent else .user

/-- The role of an item, if it has one. -/
def itemRole : ResponseInputItem → Option Responses.Role
  | .message message => some message.role
  | _ => none

def itemInitiator (lastItem : ResponseInputItem) : Initiator :=
  match itemRole lastItem with
  | none => .agent
  | some role => if role = .assistant then .agent else .user

/-- The rule for `/responses`. -/
def responsesInitiator (payload : ResponsesPayload) : Initiator :=
  match payload.input.getLast? with
  | none => .user
  | some lastItem => itemInitiator lastItem

/-- Whichever endpoint serves the conversation, its initiator is the same. -/
def InitiatorsAgree (stringify : Json → String) (getExtraPromptForModel : String → String)
    (payload : AnthropicMessagesPayload) : Prop :=
  messagesInitiator payload = chatCompletionsInitiator (translateToOpenAI stringify payload) ∧
    messagesInitiator payload = responsesInitiator
      (translateAnthropicMessagesToResponsesPayload stringify getExtraPromptForModel payload)

/-! ## The end of a conversation -/

/-- The message is the agent's, or ends with the output of a tool. -/
def endsWithAgent : AnthropicMessage → Bool
  | .user (.text _) => false
  | .user (.blocks bs) => bs.getLast?.any (·.isToolResult)
  | .assistant _ => true

/-- A user message at the end holds tool results only, or does not end with one. Before an
assistant message at the end that comes to nothing, the last message that comes to something is
the agent's, or ends with the output of a tool. -/
def endsAlike (messages : List AnthropicMessage) : Bool :=
  match messages.getLast? with
  | none => true
  | some (.user (.text _)) => true
  | some (.user (.blocks bs)) => bs.all (·.isToolResult) || !bs.getLast?.any (·.isToolResult)
  | some (.assistant _) => (messages.filter (!vanishes ·)).getLast?.any endsWithAgent

/-! ## Chat completions -/

theorem isSome_toolResult? (b : AnthropicUserContentBlock) :
    b.toolResult?.isSome = b.isToolResult := by
  cases b <;> rfl

/-- The last of the messages that a user message becomes. -/
theorem getLast?_handleUserMessage {bs : List AnthropicUserContentBlock} (h : bs ≠ []) :
    (handleUserMessage (.blocks bs)).getLast?.map Message.role =
      some (if bs.all (·.isToolResult) then .tool else .user) := by
  rw [handleUserMessage, List.getLast?_append]
  by_cases hall : bs.all (·.isToolResult)
  · have hother : bs.filter (!·.isToolResult) = [] := by
      simpa [List.filter_eq_nil_iff] using hall
    have hresults : bs.filterMap (·.toolResult?) ≠ [] := by
      obtain ⟨b, hb⟩ := List.exists_mem_of_ne_nil bs h
      intro hnil
      have hsome : b.toolResult?.isSome := by
        rw [isSome_toolResult?]
        exact List.all_eq_true.1 hall b hb
      rw [List.filterMap_eq_nil_iff.1 hnil b hb] at hsome
      exact absurd hsome (by simp)
    obtain ⟨rest, r, hr⟩ := (List.eq_nil_or_concat _).resolve_left hresults
    simp [hother, hr, hall, toolMessage]
  · have hother : (bs.filter (!·.isToolResult)).isEmpty = false := by
      simpa [List.filter_eq_nil_iff] using hall
    simp [hother, hall]

/-- The chat rule gives the initiator of the Anthropic rule: tool results come first among the
messages that a user message becomes, and an assistant message always becomes one. -/
theorem chatCompletionsInitiator_translateToOpenAI (stringify : Json → String)
    {payload : AnthropicMessagesPayload} (hne : payload.messages ≠ [])
    (hcontent : ∀ m ∈ payload.messages, m.HasContent) :
    chatCompletionsInitiator (translateToOpenAI stringify payload) =
      messagesInitiator payload := by
  obtain ⟨rest, last, hmessages⟩ := (List.eq_nil_or_concat payload.messages).resolve_left hne
  have hlast : last.HasContent := hcontent last (by simp [hmessages])
  have htail : (translateToOpenAI stringify payload).messages.getLast? =
      (handleMessage stringify payload.model last).getLast?.or
        (handleSystemPrompt payload.system ++
          rest.flatMap (handleMessage stringify payload.model)).getLast? := by
    rw [← List.getLast?_append]
    simp [translateToOpenAI, translateAnthropicMessagesToOpenAI, hmessages]
  rw [chatCompletionsInitiator, messagesInitiator, htail, hmessages, List.concat_eq_append,
    List.getLast?_concat]
  rcases last with (s | bs) | (s | bs)
  · rfl
  · have hrole := getLast?_handleUserMessage hlast
    obtain ⟨m, hm, hrole⟩ := Option.map_eq_some_iff.1 hrole
    simp only [handleMessage, hm, Option.some_or, hrole]
    by_cases hall : bs.all (·.isToolResult)
    · have hany : bs.any (!·.isToolResult) = false := by simpa using hall
      simp [hall, hany]
    · have hany : bs.any (!·.isToolResult) = true := by simpa using hall
      simp [hall, hany]
  · rfl
  · rfl

/-! ## Responses -/

theorem isSome_userItem (b : AnthropicUserContentBlock) : (userItem b).isSome = b.isToolResult := by
  cases b <;> rfl

theorem itemInitiator_userItem {b : AnthropicUserContentBlock} {i : ResponseInputItem}
    (h : userItem b = some i) : itemInitiator i = .agent := by
  cases b with
  | toolResult block =>
    obtain rfl := Option.some.inj h
    rfl
  | _ => simp [userItem] at h

/-- The last item that a user message becomes. -/
theorem getLast?_translateUserMessage {bs : List AnthropicUserContentBlock} (h : bs ≠ []) :
    (translateUserMessage (.blocks bs)).getLast?.map itemInitiator =
      some (if endsWithAgent (.user (.blocks bs)) then .agent else .user) := by
  obtain ⟨rest, b, rfl⟩ := (List.eq_nil_or_concat bs).resolve_left h
  rw [translateUserMessage, endsWithAgent, List.concat_eq_append, List.getLast?_concat,
    Option.any_some, ← isSome_userItem]
  cases hitem : userItem b with
  | some i =>
    rw [Batch.items_append_own hitem, List.getLast?_concat]
    exact congrArg some (itemInitiator_userItem hitem)
  | none =>
    have hcontents := translateUserContentBlock_ne_nil hitem
    obtain ⟨is, batch, heq⟩ := Batch.items_append_contents hitem hcontents [] rest
    rw [heq, List.getLast?_concat]
    rfl

theorem itemInitiator_assistantItem {stringify : Json → String}
    {b : AnthropicAssistantContentBlock} {i : ResponseInputItem}
    (h : assistantItem stringify b = some i) : itemInitiator i = .agent := by
  obtain ⟨block, rfl⟩ | ⟨item, rfl⟩ | ⟨item, rfl⟩ := assistantItem_cases h
  · rfl
  · rfl
  · rfl

/-- Every item of an assistant message stands for the agent. -/
theorem itemInitiator_translateAssistantMessage (stringify : Json → String) (applyPhase : Bool)
    (content : Content AnthropicAssistantContentBlock) :
    ∀ i ∈ translateAssistantMessage stringify applyPhase content, itemInitiator i = .agent := by
  rcases content with s | bs
  · intro i hi
    rw [List.mem_singleton.1 hi]
    rfl
  · exact Batch.forall_items (P := (itemInitiator · = .agent))
      (fun _ _ _ hi => itemInitiator_assistantItem hi) (fun _ _ => rfl) []

/-- The last item that a message becomes, if it comes to anything. -/
theorem getLast?_translateMessage (stringify : Json → String) (applyPhase : Bool)
    {message : AnthropicMessage} (h : ¬vanishes message) :
    (translateMessage stringify applyPhase message).getLast?.map itemInitiator =
      some (if endsWithAgent message then .agent else .user) := by
  have hne : translateMessage stringify applyPhase message ≠ [] := by
    rwa [Ne, translateMessage_eq_nil]
  rcases message with (s | bs) | content
  · rfl
  · refine getLast?_translateUserMessage ?_
    rintro rfl
    exact h rfl
  · obtain ⟨rest, i, heq⟩ := (List.eq_nil_or_concat _).resolve_left hne
    have hi : itemInitiator i = .agent :=
      itemInitiator_translateAssistantMessage stringify applyPhase content i
        (by rw [translateMessage] at heq; simp [heq])
    rw [heq, List.concat_eq_append, List.getLast?_concat]
    exact congrArg some hi

/-- The last item of a conversation is that of the last message that comes to anything. -/
theorem getLast?_input (stringify : Json → String) (applyPhase : Bool)
    (messages : List AnthropicMessage) :
    (messages.flatMap (translateMessage stringify applyPhase)).getLast?.map itemInitiator =
      (messages.filter (!vanishes ·)).getLast?.map fun m =>
        if endsWithAgent m then .agent else .user := by
  induction messages using List.reverseRecOn with
  | nil => rfl
  | append_singleton messages m ih =>
    rw [List.flatMap_append, List.filter_append, List.flatMap_singleton, List.getLast?_append,
      List.getLast?_append]
    by_cases hv : vanishes m
    · have hnil := (translateMessage_eq_nil stringify applyPhase m).2 hv
      simpa [hnil, hv] using ih
    · obtain ⟨i, hi, heq⟩ := Option.map_eq_some_iff.1
        (getLast?_translateMessage stringify applyPhase hv)
      simp [hi, hv, heq]

/-- The initiator of a Responses request, by the last message that comes to anything. -/
theorem responsesInitiator_translate (stringify : Json → String)
    (getExtraPromptForModel : String → String) (payload : AnthropicMessagesPayload) :
    responsesInitiator
        (translateAnthropicMessagesToResponsesPayload stringify getExtraPromptForModel payload) =
      if (payload.messages.filter (!vanishes ·)).getLast?.any endsWithAgent then .agent
      else .user := by
  have hinput := getLast?_input stringify
    (shouldApplyPhase getExtraPromptForModel payload.model) payload.messages
  rw [responsesInitiator, translateAnthropicMessagesToResponsesPayload]
  cases hlast : (payload.messages.filter (!vanishes ·)).getLast? with
  | none =>
    rw [hlast, Option.map_none, Option.map_eq_none_iff] at hinput
    rw [hinput]
    rfl
  | some m =>
    rw [hlast] at hinput
    obtain ⟨i, hi, heq⟩ := Option.map_eq_some_iff.1 hinput
    rw [hi]
    exact heq

/-- All endpoints give a conversation the same initiator exactly when it ends alike. -/
theorem initiatorsAgree_iff (stringify : Json → String) (getExtraPromptForModel : String → String)
    (payload : AnthropicMessagesPayload) (hne : payload.messages ≠ [])
    (hcontent : ∀ m ∈ payload.messages, m.HasContent) :
    InitiatorsAgree stringify getExtraPromptForModel payload ↔ endsAlike payload.messages := by
  rw [InitiatorsAgree, chatCompletionsInitiator_translateToOpenAI stringify hne hcontent, eq_self,
    true_and, responsesInitiator_translate, messagesInitiator, endsAlike]
  obtain ⟨rest, last, hmessages⟩ := (List.eq_nil_or_concat payload.messages).resolve_left hne
  have hlast : last.HasContent := hcontent last (by simp [hmessages])
  rw [hmessages, List.concat_eq_append, List.getLast?_concat]
  rcases last with (s | bs) | content
  · simp [vanishes, endsWithAgent]
  · have hv : vanishes (.user (.blocks bs)) = false := by
      cases bs with
      | nil => exact absurd rfl hlast
      | cons b bs => rfl
    have hend : endsWithAgent (.user (.blocks bs)) = bs.getLast?.any (·.isToolResult) := rfl
    have hany : bs.any (!·.isToolResult) = !bs.all (·.isToolResult) :=
      List.not_all_eq_any_not.symm
    rw [List.filter_append, List.filter_singleton, hv, Bool.not_false, cond_true,
      List.getLast?_concat, Option.any_some, hend]
    show (if bs.any (!·.isToolResult) then _ else _) = _ ↔
      (bs.all (·.isToolResult) || !bs.getLast?.any (·.isToolResult)) = true
    rw [hany]
    have hlast : bs.all (·.isToolResult) → bs.getLast?.any (·.isToolResult) := by
      intro hall
      rw [List.getLast?_eq_some_getLast hlast]
      exact List.all_eq_true.1 hall _ (List.getLast_mem hlast)
    revert hlast
    cases bs.all (·.isToolResult) <;> cases bs.getLast?.any (·.isToolResult) <;> simp
  · simp

/-- A tool's output with words of the user before it. -/
theorem initiatorsAgree_iff_toolOutput :
    let messages := [AnthropicMessage.user (.blocks [.text ⟨"look"⟩,
      .toolResult ⟨"call_1", .text "done", false⟩])]
    InitiatorsAgree (fun _ => "") (fun _ => "") ⟨"gpt", messages, none⟩ ↔ endsAlike messages :=
  initiatorsAgree_iff _ _ ⟨"gpt", _, none⟩ (by decide) (by decide)

/-- The words come first for the chat rule, the tool's output comes last for the Responses rule. -/
theorem not_all_initiatorsAgree :
    ¬ ∀ (stringify : Json → String) (getExtraPromptForModel : String → String)
      (payload : AnthropicMessagesPayload), payload.messages ≠ [] →
      (∀ m ∈ payload.messages, m.HasContent) →
      InitiatorsAgree stringify getExtraPromptForModel payload := by
  intro h
  have hagree := h (fun _ => "") (fun _ => "") ⟨"gpt", [.user (.blocks [.text ⟨"look"⟩,
    .toolResult ⟨"call_1", .text "done", false⟩])], none⟩ (by decide) (by decide)
  exact absurd hagree.2 (by decide)

end Maximal
