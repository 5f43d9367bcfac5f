import Maximal.Messages.ResponsesRequest

/-!
# Requests with images

A request is sent as a vision request when it holds an image. Each upstream endpoint has its own
detector, which looks into its own kind of request.

## Main definitions

- `messagesVision`, `chatCompletionsVision`, `hasVisionInput`
- `VisionFlagsAgree` — all three detectors give a conversation the same flag
- `showsImages` — a condition on the conversation

## Main results

- `chatCompletionsVision_translateToOpenAI` — the chat detector finds what the Anthropic one finds
- `hasVisionInput_translate` — the Responses detector does not look into tool results
- `visionFlagsAgree_iff` — the Responses detector does exactly when an image is shown outside of
  tool results, or there is none
-/

namespace Maximal

open Js ChatCompletions Responses

/-! ## Anthropic messages and chat completions -/

def AnthropicToolResultContentBlock.isImage : AnthropicToolResultContentBlock → Bool
  | .image _ => true
  | _ => false

def AnthropicUserContentBlock.isImage : AnthropicUserContentBlock → Bool
  | .image _ => true
  | _ => false

/-- A tool result with an image among the blocks of its content. -/
def AnthropicUserContentBlock.holdsImage : AnthropicUserContentBlock → Bool
  | .toolResult ⟨_, .blocks inner, _⟩ => inner.any (·.isImage)
  | _ => false

/-- An image is among the blocks of the message itself. -/
def AnthropicMessage.showsImage : AnthropicMessage → Bool
  | .user (.blocks bs) => bs.any (·.isImage)
  | _ => false

/-- An image is inside one of the tool results of the message. -/
def AnthropicMessage.holdsImage : AnthropicMessage → Bool
  | .user (.blocks bs) => bs.any (·.holdsImage)
  | _ => false

/-- An image is among the blocks of the message, or inside one of its tool results. -/
def AnthropicMessage.hasImage : AnthropicMessage → Bool
  | .user (.blocks bs) => bs.any fun block => block.isImage || block.holdsImage
  | _ => false

/-- `enableVision` for `/v1/messages`. -/
def messagesVision (payload : AnthropicMessagesPayload) : Bool :=
  payload.messages.any (·.hasImage)

def ChatCompletions.ContentPart.isImageUrl : ContentPart → Bool
  | .imageUrl _ => true
  | _ => false

def partsVision : Content ContentPart → Bool
  | .text _ => false
  | .blocks parts => parts.any (·.isImageUrl)

/-- `enableVision` for `/chat/completions`. -/
def chatCompletionsVision (payload : ChatCompletionsPayload) : Bool :=
  payload.messages.any fun message => partsVision message.content

/-! ## Responses -/

namespace Responses

/-- A field that is left out when there is no value. -/
def optionalField (k : String) : Val → List (String × Json)
  | none => []
  | some v => [(k, v)]

def ResponseInputContent.toJson : ResponseInputContent → Json
  | .inputText text => .object [("type", .string "input_text"), ("text", text)]
  | .outputText text => .object [("type", .string "output_text"), ("text", text)]
  | .inputImage imageUrl =>
    .object [("type", .string "input_image"), ("image_url", .string imageUrl),
      ("detail", .string "auto")]
  | .inputFile fileData filename =>
    .object [("type", .string "input_file"), ("file_data", .string fileData),
      ("filename", .string filename)]

def contentToJson : Content ResponseInputContent → Json
  | .text s => .string s
  | .blocks bs => .array (bs.map (·.toJson))

def Role.text : Role → String
  | .user => "user"
  | .assistant => "assistant"
  | .system => "system"
  | .developer => "developer"

def Phase.text : Phase → String
  | .commentary => "commentary"
  | .finalAnswer => "final_answer"

def ItemStatus.text : ItemStatus → String
  | .inProgress => "in_progress"
  | .completed => "completed"
  | .incomplete => "incomplete"

/-- An input item as the request carries it. -/
def ResponseInputItem.toJson : ResponseInputItem → Json
  | .message ⟨role, content, phase⟩ =>
    .object ([("type", .string "message"), ("role", .string role.text),
      ("content", contentToJson content)] ++
        optionalField "phase" (phase.map fun p => .string p.text))
  | .functionCall callId name arguments status =>
    .object ([("type", .string "function_call")] ++ optionalField "call_id" callId ++
      optionalField "name" name ++
        [("arguments", .string arguments), ("status", .string status.text)])
  | .functionCallOutput callId output status =>
    .object [("type", .string "function_call_output"), ("call_id", .string callId),
      ("output", contentToJson output), ("status", .string status.text)]
  | .reasoning ⟨id, summary, encryptedContent⟩ =>
    .object [("id", .string id), ("type", .string "reasoning"),
      ("summary", .array (summary.map fun text =>
        .object [("type", .string "summary_text"), ("text", .string text)])),
      ("encrypted_content", .string encryptedContent)]
  | .compaction ⟨id, encryptedContent⟩ =>
    .object [("id", .string id), ("type", .string "compaction"),
      ("encrypted_content", .string encryptedContent)]

mutual

/-- Only the field `content` of an object is looked into. -/
def containsVisionContent : Json → Bool
  | .array items => someContainVision items
  | .object fields =>
    (Val.asString (fields.lookup "type")).map toLowerCase = some "input_image" ||
      contentContainsVision fields
  | _ => false

def someContainVision : List Json → Bool
  | [] => false
  | item :: items => containsVisionContent item || someContainVision items

/-- The first field `content`, when it is an array. -/
def contentContainsVision : List (String × Json) → Bool
  | [] => false
  | (k, v) :: fields =>
    if k = "content" then
      match v with
      | .array items => someContainVision items
      | _ => false
    else contentContainsVision fields

end

def hasVisionInput (payload : ResponsesPayload) : Bool :=
  payload.input.any fun item => containsVisionContent item.toJson

end Responses

/-- Whichever endpoint serves the conversation, it is a vision request or it is not. -/
def VisionFlagsAgree (stringify : Json → String) (getExtraPromptForModel : String → String)
    (payload : AnthropicMessagesPayload) : Prop :=
  (hasVisionInput (translateAnthropicMessagesToResponsesPayload stringify getExtraPromptForModel
    payload) = true ↔ messagesVision payload = true) ∧
  (chatCompletionsVision (translateToOpenAI stringify payload) = true ↔
    messagesVision payload = true)

/-- If a tool result holds an image, an image is also among the blocks of some message itself. -/
def showsImages (messages : List AnthropicMessage) : Bool :=
  !messages.any (·.holdsImage) || messages.any (·.showsImage)

/-! ## What the detectors find -/

theorem any_or {α : Type} (p q : α → Bool) (xs : List α) :
    xs.any (fun x => p x || q x) = (xs.any p || xs.any q) := by
  induction xs with
  | nil => rfl
  | cons x xs ih =>
    simp only [List.any_cons, ih, Bool.or_assoc, Bool.or_left_comm]

theorem messagesVision_eq (payload : AnthropicMessagesPayload) :
    messagesVision payload =
      (payload.messages.any (·.showsImage) || payload.messages.any (·.holdsImage)) := by
  have hmessage : ∀ message : AnthropicMessage,
      message.hasImage = (message.showsImage || message.holdsImage) := by
    rintro ((s | bs) | content)
    · rfl
    · exact any_or _ _ bs
    · rfl
  rw [messagesVision, ← any_or]
  exact congrArg payload.messages.any (funext hmessage)

namespace Responses

def ResponseInputContent.isImage : ResponseInputContent → Bool
  | .inputImage _ => true
  | _ => false

theorem containsVisionContent_content (content : ResponseInputContent) :
    containsVisionContent content.toJson = content.isImage := by
  cases content <;> rfl

theorem someContainVision_contents (contents : List ResponseInputContent) :
    someContainVision (contents.map (·.toJson)) = contents.any (·.isImage) := by
  induction contents with
  | nil => rfl
  | cons c cs ih =>
    rw [List.map_cons, someContainVision, containsVisionContent_content, ih, List.any_cons]

/-- The detector looks into messages, and into nothing else. -/
def ResponseInputItem.showsImage : ResponseInputItem → Bool
  | .message ⟨_, .blocks contents, _⟩ => contents.any (·.isImage)
  | _ => false

theorem containsVisionContent_item (item : ResponseInputItem) :
    containsVisionContent item.toJson = item.showsImage := by
  cases item with
  | message message =>
    obtain ⟨role, content, phase⟩ := message
    cases content with
    | text s => cases phase <;> rfl
    | blocks contents =>
      have hcontents := someContainVision_contents contents
      cases phase <;>
        simpa [ResponseInputItem.toJson, containsVisionContent, contentContainsVision,
          contentToJson, ResponseInputItem.showsImage, optionalField, Val.asString]
  | functionCall callId name arguments status =>
    cases callId <;> cases name <;> rfl
  | functionCallOutput callId output status => rfl
  | reasoning item => rfl
  | compaction item => rfl

theorem translateMessage_showsImage (stringify : Json → String) (applyPhase : Bool)
    (message : AnthropicMessage) :
    (translateMessage stringify applyPhase message).any (·.showsImage) = message.showsImage := by
  rcases message with (s | bs) | (s | bs)
  · rfl
  · rw [translateMessage, translateUserMessage, Batch.any_items (q := (·.isImage)) ?_ fun _ => rfl,
      List.any_nil, Bool.false_or]
    · refine congrArg bs.any (funext fun b => ?_)
      cases b <;> rfl
    · intro b i hitem
      cases b with
      | toolResult block =>
        obtain rfl := Option.some.inj hitem
        rfl
      | _ => simp [userItem] at hitem
  · rfl
  · rw [translateMessage, translateAssistantMessage, assistantItems,
      Batch.any_items (q := (·.isImage)) ?_ fun _ => rfl, List.any_nil, Bool.false_or]
    · refine List.any_eq_false.2 fun b _ => ?_
      cases b <;> simp [translateAssistantContentBlock, ResponseInputContent.isImage]
    · intro b i hitem
      obtain ⟨block, rfl⟩ | ⟨item, rfl⟩ | ⟨item, rfl⟩ := assistantItem_cases hitem
      · rfl
      · rfl
      · rfl

/-- The detector finds an image exactly when some message shows one itself. -/
theorem hasVisionInput_translate (stringify : Json → String)
    (getExtraPromptForModel : String → String) (payload : AnthropicMessagesPayload) :
    hasVisionInput
        (translateAnthropicMessagesToResponsesPayload stringify getExtraPromptForModel payload) =
      payload.messages.any (·.showsImage) := by
  simp only [hasVisionInput, containsVisionContent_item,
    translateAnthropicMessagesToResponsesPayload, List.any_flatMap, translateMessage_showsImage]

end Responses

/-! ## Chat completions -/

theorem partsVision_mapContent {β : Type} (part : β → Option ContentPart) (bs : List β) :
    partsVision (mapContent part (.blocks bs)) =
      bs.any fun b => (part b).any (·.isImageUrl) := by
  rw [mapContent, partsVision, List.any_filterMap]
  refine congrArg bs.any (funext fun b => ?_)
  cases part b <;> rfl

/-- The tool message of a result has an image when the result does. -/
theorem toolMessage_vision (block : AnthropicToolResultBlock) :
    partsVision (toolMessage block).content =
      (AnthropicUserContentBlock.toolResult block).holdsImage := by
  obtain ⟨toolUseId, content, isError⟩ := block
  cases content with
  | text s => rfl
  | blocks inner =>
    refine (partsVision_mapContent toolResultPart inner).trans ?_
    refine congrArg inner.any (funext fun b => ?_)
    cases b <;> rfl

theorem handleUserMessage_vision (bs : List AnthropicUserContentBlock) :
    (handleUserMessage (.blocks bs)).any (fun m => partsVision m.content) =
      (bs.any (·.isImage) || bs.any (·.holdsImage)) := by
  have hresults : ((bs.filterMap (·.toolResult?)).map toolMessage).any
      (fun m => partsVision m.content) = bs.any (·.holdsImage) := by
    rw [List.any_map, List.any_filterMap]
    refine congrArg bs.any (funext fun b => ?_)
    cases b with
    | toolResult block => exact toolMessage_vision block
    | _ => rfl
  have hother : partsVision (mapContent userPart (.blocks (bs.filter (!·.isToolResult)))) =
      bs.any (·.isImage) := by
    rw [partsVision_mapContent, List.any_filter]
    refine congrArg bs.any (funext fun b => ?_)
    cases b <;> rfl
  rw [handleUserMessage, List.any_append, hresults, Bool.or_comm, ← hother]
  split
  · next hnone => rw [List.isEmpty_iff.1 hnone]; rfl
  · rw [List.any_cons, List.any_nil, Bool.or_false]

theorem handleMessage_vision (stringify : Json → String) (modelId : String)
    (message : AnthropicMessage) :
    (handleMessage stringify modelId message).any (fun m => partsVision m.content) =
      message.hasImage := by
  rcases message with (s | bs) | (s | bs)
  · rfl
  · rw [handleMessage, handleUserMessage_vision, ← any_or]
    rfl
  · rfl
  · have hparts : partsVision (mapContent assistantPart (.blocks bs)) = false := by
      rw [partsVision_mapContent, List.any_eq_false]
      intro b _
      cases b <;> simp [assistantPart, ContentPart.isImageUrl]
    rw [handleMessage, handleAssistantMessage, List.any_cons, List.any_nil, Bool.or_false, hparts]
    rfl

/-- The chat detector finds what the Anthropic one finds. -/
theorem chatCompletionsVision_translateToOpenAI (stringify : Json → String)
    (payload : AnthropicMessagesPayload) :
    chatCompletionsVision (translateToOpenAI stringify payload) = messagesVision payload := by
  have hsystem : (handleSystemPrompt payload.system).any
      (fun m => partsVision m.content) = false := by
    rcases payload.system with _ | (s | bs)
    · rfl
    · rw [handleSystemPrompt]
      split <;> rfl
    · rfl
  rw [chatCompletionsVision, translateToOpenAI, translateAnthropicMessagesToOpenAI,
    List.any_append, hsystem, Bool.false_or, List.any_flatMap, messagesVision]
  exact congrArg payload.messages.any (funext (handleMessage_vision stringify payload.model))

/-- The flags agree exactly when an image is shown outside of tool results, or there is none. -/
theorem visionFlagsAgree_iff (stringify : Json → String)
    (getExtraPromptForModel : String → String) (payload : AnthropicMessagesPayload) :
    VisionFlagsAgree stringify getExtraPromptForModel payload ↔ showsImages payload.messages := by
  rw [VisionFlagsAgree, chatCompletionsVision_translateToOpenAI, hasVisionInput_translate,
    messagesVision_eq, showsImages]
  cases payload.messages.any (·.showsImage) <;> cases payload.messages.any (·.holdsImage) <;> simp

/-- An image inside a tool result. -/
theorem not_all_visionFlagsAgree :
    ¬ ∀ (stringify : Json → String) (getExtraPromptForModel : String → String)
      (payload : AnthropicMessagesPayload),
      VisionFlagsAgree stringify getExtraPromptForModel payload := by
  intro h
  have hagree := h (fun _ => "") (fun _ => "") ⟨"gpt", [.user (.blocks [
    .toolResult ⟨"call_1", .blocks [.image ⟨"image/png", "iVBORw0KGgo="⟩], false⟩])], none⟩
  exact absurd (hagree.1.2 (by decide)) (by decide)

end Maximal
