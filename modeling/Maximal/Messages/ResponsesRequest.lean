import Maximal.Lib.Batch
import Maximal.Messages.NonStreamTranslation
import Maximal.Messages.ResponsesResult

/-!
# Requests to the Responses endpoint

`translateAnthropicMessagesToResponsesPayload` turns an Anthropic conversation into input items.
`stringify` stands for `JSON.stringify`, and `getExtraPromptForModel` for the configuration.

## Main definitions

- `ResponseInputItem`, `ResponsesPayload`
- `decodeCompactionCarrierSignature`, `parseReasoningSignature` — what a signature carries
- `translateMessage` — the items of one message
- `translateAnthropicMessagesToResponsesPayload`

## Main results

- `translateMessage_eq_nil` — which messages come to nothing
-/

namespace Maximal.Responses

open Js

inductive ResponseInputContent where
  | inputText (text : Json)
  | outputText (text : Json)
  | inputImage (imageUrl : String)
  | inputFile (fileData filename : String)

inductive Role where
  | user
  | assistant
  | system
  | developer
  deriving DecidableEq

inductive Phase where
  | commentary
  | finalAnswer

inductive ItemStatus where
  | inProgress
  | completed
  | incomplete

structure ResponseInputMessage where
  role : Role
  content : Content ResponseInputContent
  phase : Option Phase

structure ResponseInputReasoning where
  id : String
  /-- The texts of the summary. -/
  summary : List String
  encryptedContent : String
  deriving DecidableEq

structure ResponseInputCompaction where
  id : String
  encryptedContent : String
  deriving DecidableEq

inductive ResponseInputItem where
  | message (message : ResponseInputMessage)
  | functionCall (callId name : Val) (arguments : String) (status : ItemStatus)
  | functionCallOutput (callId : String) (output : Content ResponseInputContent)
      (status : ItemStatus)
  | reasoning (item : ResponseInputReasoning)
  | compaction (item : ResponseInputCompaction)

/-- The part of a request that makes up the conversation. -/
structure ResponsesPayload where
  model : String
  input : List ResponseInputItem

/-! ## Signatures -/

def decodeCompactionCarrierSignature (signature : String) : Option ResponseInputCompaction :=
  if startsWith signature COMPACTION_SIGNATURE_PREFIX then
    let raw := slice signature COMPACTION_SIGNATURE_PREFIX.length
    match indexOf raw '@' with
    | none => none
    | some separatorIndex =>
      if separatorIndex = 0 ∨ separatorIndex = raw.toList.length - 1 then none
      else some ⟨slice raw (separatorIndex + 1), slice raw 0 separatorIndex⟩
  else none

/-- The encrypted content and the id in the signature of a reasoning block. -/
def parseReasoningSignature (signature : String) : String × String :=
  match lastIndexOf signature '@' with
  | none => (signature, "")
  | some splitIndex =>
    if splitIndex = 0 ∨ splitIndex = signature.toList.length - 1 then (signature, "")
    else (slice signature 0 splitIndex, slice signature (splitIndex + 1))

/-! ## Items and contents -/

def createReasoningContent (block : AnthropicThinkingBlock) : ResponseInputReasoning :=
  let (encryptedContent, id) := parseReasoningSignature block.signature
  let thinking := if block.thinking = THINKING_TEXT then "" else block.thinking
  { id, summary := if thinking = "" then [] else [thinking], encryptedContent }

def createCompactionContent (block : AnthropicThinkingBlock) : Option ResponseInputCompaction :=
  decodeCompactionCarrierSignature block.signature

def createMessage (role : Role) (content : Content ResponseInputContent) (phase : Option Phase) :
    ResponseInputItem :=
  .message ⟨role, content, if role = .assistant then phase else none⟩

def createTextContent (block : AnthropicTextBlock) : ResponseInputContent :=
  .inputText (.string block.text)

def createImageContent (block : AnthropicImageBlock) : ResponseInputContent :=
  .inputImage (dataUrl block.mediaType block.data)

def createFileContent (block : AnthropicDocumentBlock) : ResponseInputContent :=
  .inputFile (dataUrl block.mediaType block.data) (block.title.getD "document.pdf")

def convertToolResultBlock : AnthropicToolResultContentBlock → ResponseInputContent
  | .text block => createTextContent block
  | .image block => createImageContent block
  | .document block => createFileContent block
  | .toolReference toolName => createTextContent ⟨toolLoadedText toolName⟩

def convertToolResultContent :
    Content AnthropicToolResultContentBlock → Content ResponseInputContent
  | .text s => .text s
  | .blocks bs => .blocks (bs.map convertToolResultBlock)

def createFunctionToolCall (stringify : Json → String) (block : AnthropicToolUseBlock) :
    ResponseInputItem :=
  .functionCall block.id block.name (stringify block.input) .completed

def createFunctionCallOutput (block : AnthropicToolResultBlock) : ResponseInputItem :=
  .functionCallOutput block.toolUseId (convertToolResultContent block.content)
    (if block.isError then .incomplete else .completed)

/-! ## Messages -/

/-- The item a user block becomes on its own. -/
def userItem : AnthropicUserContentBlock → Option ResponseInputItem
  | .toolResult block => some (createFunctionCallOutput block)
  | _ => none

def translateUserContentBlock : AnthropicUserContentBlock → List ResponseInputContent
  | .text block => [createTextContent block]
  | .image block => [createImageContent block]
  | .document block => [createFileContent block]
  | .toolResult _ => []

def translateUserMessage : Content AnthropicUserContentBlock → List ResponseInputItem
  | .text s => [createMessage .user (.text s) none]
  | .blocks bs =>
    Batch.items userItem translateUserContentBlock
      (fun pending => createMessage .user (.blocks pending) none) [] bs

def resolveAssistantPhase (content : Content AnthropicAssistantContentBlock) (applyPhase : Bool) :
    Option Phase :=
  if !applyPhase then none
  else
    match content with
    | .text _ => some .finalAnswer
    | .blocks bs =>
      if !bs.any (·.isText) then none
      else if bs.any (·.toolUse?.isSome) then some .commentary
      else some .finalAnswer

/-- The item an assistant block becomes on its own. -/
def assistantItem (stringify : Json → String) :
    AnthropicAssistantContentBlock → Option ResponseInputItem
  | .text _ => none
  | .toolUse block => some (createFunctionToolCall stringify block)
  | .thinking block =>
    if block.signature = "" then none
    else
      match createCompactionContent block with
      | some item => some (.compaction item)
      | none =>
        if includes block.signature "@" then some (.reasoning (createReasoningContent block))
        else none

def translateAssistantContentBlock :
    AnthropicAssistantContentBlock → List ResponseInputContent
  | .text text => [.outputText text]
  | _ => []

/-- The items of assistant blocks whose messages are of the given phase. -/
def assistantItems (stringify : Json → String) (assistantPhase : Option Phase)
    (bs : List AnthropicAssistantContentBlock) : List ResponseInputItem :=
  Batch.items (assistantItem stringify) translateAssistantContentBlock
    (fun pending => createMessage .assistant (.blocks pending) assistantPhase) [] bs

def translateAssistantMessage (stringify : Json → String) (applyPhase : Bool)
    (content : Content AnthropicAssistantContentBlock) : List ResponseInputItem :=
  let assistantPhase := resolveAssistantPhase content applyPhase
  match content with
  | .text s => [createMessage .assistant (.text s) assistantPhase]
  | .blocks bs => assistantItems stringify assistantPhase bs

def translateMessage (stringify : Json → String) (applyPhase : Bool) :
    AnthropicMessage → List ResponseInputItem
  | .user content => translateUserMessage content
  | .assistant content => translateAssistantMessage stringify applyPhase content

def shouldApplyPhase (getExtraPromptForModel : String → String) (model : String) : Bool :=
  includes (getExtraPromptForModel model) "## Intermediary updates"

def translateAnthropicMessagesToResponsesPayload (stringify : Json → String)
    (getExtraPromptForModel : String → String) (payload : AnthropicMessagesPayload) :
    ResponsesPayload where
  model := payload.model
  input := payload.messages.flatMap
    (translateMessage stringify (shouldApplyPhase getExtraPromptForModel payload.model))

/-- An assistant block on its own is a call, a compaction or a reasoning item. -/
theorem assistantItem_cases {stringify : Json → String} {b : AnthropicAssistantContentBlock}
    {i : ResponseInputItem} (h : assistantItem stringify b = some i) :
    (∃ block, i = createFunctionToolCall stringify block) ∨ (∃ item, i = .compaction item) ∨
      ∃ item, i = .reasoning item := by
  cases b with
  | text text => cases h
  | toolUse block => exact .inl ⟨block, (Option.some.inj h).symm⟩
  | thinking block =>
    rw [assistantItem] at h
    split at h
    · cases h
    · split at h
      · exact .inr (.inl ⟨_, (Option.some.inj h).symm⟩)
      · split at h
        · exact .inr (.inr ⟨_, (Option.some.inj h).symm⟩)
        · cases h

/-! ## Messages that come to nothing -/

/-- A thinking block whose signature carries neither a compaction nor a reasoning item. -/
def isDropped : AnthropicAssistantContentBlock → Bool
  | .thinking block =>
    block.signature = "" ||
      (decodeCompactionCarrierSignature block.signature).isNone && !includes block.signature "@"
  | _ => false

/-- Nothing of the message reaches the model. -/
def vanishes : AnthropicMessage → Bool
  | .user (.blocks []) => true
  | .assistant (.blocks bs) => bs.all isDropped
  | _ => false

theorem isDropped_iff (stringify : Json → String) (block : AnthropicAssistantContentBlock) :
    isDropped block ↔
      assistantItem stringify block = none ∧ translateAssistantContentBlock block = [] := by
  cases block with
  | text text => simp [isDropped, translateAssistantContentBlock]
  | toolUse block => simp [isDropped, assistantItem]
  | thinking block =>
    simp only [isDropped, assistantItem, translateAssistantContentBlock, createCompactionContent,
      and_true]
    by_cases hsig : block.signature = ""
    · simp [hsig]
    · cases decodeCompactionCarrierSignature block.signature <;>
        cases includes block.signature "@" <;> simp [hsig]

theorem translateUserContentBlock_ne_nil {block : AnthropicUserContentBlock}
    (h : userItem block = none) : translateUserContentBlock block ≠ [] := by
  cases block with
  | toolResult block => simp [userItem] at h
  | _ => exact List.cons_ne_nil _ _

theorem translateMessage_eq_nil (stringify : Json → String) (applyPhase : Bool)
    (message : AnthropicMessage) :
    translateMessage stringify applyPhase message = [] ↔ vanishes message := by
  rcases message with (s | bs) | (s | bs)
  · simp [translateMessage, translateUserMessage, vanishes]
  · rw [translateMessage, translateUserMessage, Batch.items_eq_nil]
    cases bs with
    | nil => simp [vanishes]
    | cons b bs =>
      refine iff_of_false ?_ (by simp [vanishes])
      rintro ⟨-, h⟩
      obtain ⟨hitem, hcontents⟩ := h b (List.mem_cons_self ..)
      exact translateUserContentBlock_ne_nil hitem hcontents
  · simp [translateMessage, translateAssistantMessage, vanishes]
  · rw [translateMessage, translateAssistantMessage, assistantItems, Batch.items_eq_nil, vanishes,
      List.all_eq_true]
    simp only [isDropped_iff stringify, true_and]

end Maximal.Responses
