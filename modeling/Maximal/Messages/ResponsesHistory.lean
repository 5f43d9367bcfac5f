import Maximal.Messages.ResponsesRequest

/-!
# The history in a request to the Responses endpoint

The input items of a request hold the conversation: every block that the endpoint can take, in its
place, and nothing else.

## Main definitions

- `ResponseInputItem.pieces` — the parts of the content of a message, or an item that is no message
- `messageImage` — what the blocks of a message come to, block by block
- `groupedItems` — one message for each run of blocks that become no item of their own

## Main results

- `translateMessage_pieces`, `translateMessage_grouped`
- `history_faithful`
-/

namespace Maximal.Responses

open Js

inductive Piece where
  /-- The content of a message that is a text. -/
  | text (role : Role) (phase : Option Phase) (s : String)
  | part (role : Role) (phase : Option Phase) (content : ResponseInputContent)
  | item (item : ResponseInputItem)

def ResponseInputItem.pieces : ResponseInputItem → List Piece
  | .message ⟨role, .text s, phase⟩ => [.text role phase s]
  | .message ⟨role, .blocks contents, phase⟩ => contents.map (.part role phase)
  | item => [.item item]

/-! ## Block by block -/

def userImage : AnthropicUserContentBlock → Piece
  | .text block => .part .user none (createTextContent block)
  | .image block => .part .user none (createImageContent block)
  | .document block => .part .user none (createFileContent block)
  | .toolResult block => .item (createFunctionCallOutput block)

/-- The item of a thinking block with an `@` in its signature. -/
def signedItem (block : AnthropicThinkingBlock) : ResponseInputItem :=
  match createCompactionContent block with
  | some item => .compaction item
  | none => .reasoning (createReasoningContent block)

def assistantImage (stringify : Json → String) (phase : Option Phase) :
    AnthropicAssistantContentBlock → Option Piece
  | .text text => some (.part .assistant phase (.outputText text))
  | .toolUse block => some (.item (createFunctionToolCall stringify block))
  | .thinking block =>
    if includes block.signature "@" then some (.item (signedItem block)) else none

def messageImage (stringify : Json → String) (applyPhase : Bool) : AnthropicMessage → List Piece
  | .user (.text s) => [.text .user none s]
  | .user (.blocks bs) => bs.map userImage
  | .assistant (.text s) => [.text .assistant (resolveAssistantPhase (.text s) applyPhase) s]
  | .assistant (.blocks bs) =>
    bs.filterMap (assistantImage stringify (resolveAssistantPhase (.blocks bs) applyPhase))

/-- A signature that carries a compaction has an `@`. -/
theorem includes_of_decode {signature : String} {item : ResponseInputCompaction}
    (h : decodeCompactionCarrierSignature signature = some item) : includes signature "@" := by
  rw [decodeCompactionCarrierSignature] at h
  split_ifs at h with hstarts
  dsimp only at h
  cases hindex : indexOf (slice signature COMPACTION_SIGNATURE_PREFIX.length) '@' with
  | none =>
    rw [hindex] at h
    cases h
  | some separatorIndex => exact includes_of_mem rfl (mem_of_mem_slice (mem_of_indexOf hindex))

theorem assistantItem_thinking (stringify : Json → String) (block : AnthropicThinkingBlock) :
    assistantItem stringify (.thinking block) =
      if includes block.signature "@" then some (signedItem block) else none := by
  rw [assistantItem, signedItem]
  by_cases hsig : block.signature = ""
  · rw [if_pos hsig, hsig]
    rfl
  rw [if_neg hsig]
  cases hcompaction : createCompactionContent block with
  | none => rfl
  | some item =>
    have hincludes : includes block.signature "@" := includes_of_decode hcompaction
    dsimp only
    rw [if_pos hincludes]

/-! ## Messages -/

section Message

variable (stringify : Json → String) (applyPhase : Bool)

/-- The parts of a message's items are the images of its blocks. -/
theorem translateMessage_pieces (message : AnthropicMessage) :
    (translateMessage stringify applyPhase message).flatMap ResponseInputItem.pieces =
      messageImage stringify applyPhase message := by
  obtain (s | bs) | (s | bs) := message
  · rfl
  · rw [translateMessage, translateUserMessage, messageImage,
      Batch.items_flatMap ResponseInputItem.pieces (.part .user none) fun _ => rfl, List.map_nil,
      List.nil_append, ← List.flatMap_pure_eq_map]
    refine List.flatMap_congr fun b _ => ?_
    cases b <;> rfl
  · rfl
  · rw [translateMessage, translateAssistantMessage, assistantItems, messageImage]
    generalize resolveAssistantPhase (.blocks bs) applyPhase = phase
    rw [Batch.items_flatMap ResponseInputItem.pieces (.part .assistant phase) fun _ => rfl,
      List.map_nil, List.nil_append, List.filterMap_eq_flatMap_toList]
    refine List.flatMap_congr fun b _ => ?_
    cases b with
    | text text => rfl
    | toolUse block => rfl
    | thinking block =>
      rw [assistantItem_thinking, assistantImage]
      by_cases hincludes : includes block.signature "@"
      · rw [if_pos hincludes, if_pos hincludes]
        dsimp only
        rw [signedItem]
        cases createCompactionContent block <;> rfl
      · rw [if_neg hincludes, if_neg hincludes]
        rfl

/-- The message is given a text or a part. -/
def IsGivenMessage : ResponseInputItem → Prop
  | .message m => m.content ≠ .blocks []
  | _ => True

theorem isGivenMessage_createMessage (role : Role) (phase : Option Phase)
    {contents : List ResponseInputContent} (h : contents ≠ []) :
    IsGivenMessage (createMessage role (.blocks contents) phase) :=
  fun hempty => h (Content.blocks.inj hempty)

theorem isGivenMessage_text (role : Role) (phase : Option Phase) (s : String) :
    IsGivenMessage (createMessage role (.text s) phase) := by
  intro hempty
  cases hempty

theorem translateMessage_given (message : AnthropicMessage) :
    ∀ item ∈ translateMessage stringify applyPhase message, IsGivenMessage item := by
  obtain (s | bs) | (s | bs) := message
  · intro item hitem
    rw [List.mem_singleton.1 hitem]
    exact isGivenMessage_text _ _ s
  · refine Batch.forall_items (fun b _ item hitem => ?_)
      (fun _ h => isGivenMessage_createMessage .user none h) []
    cases b <;> cases hitem
    trivial
  · intro item hitem
    rw [List.mem_singleton.1 hitem]
    exact isGivenMessage_text _ _ s
  · refine Batch.forall_items (fun b _ item hitem => ?_)
      (fun _ h => isGivenMessage_createMessage .assistant _ h) []
    obtain ⟨block, rfl⟩ | ⟨carried, rfl⟩ | ⟨carried, rfl⟩ := assistantItem_cases hitem <;> trivial

/-- The blocks of a run, none of which becomes an item of its own, make one message. -/
def groupedItems : AnthropicMessage → List ResponseInputItem
  | .user (.text s) => [createMessage .user (.text s) none]
  | .user (.blocks bs) =>
    (bs.splitBy (Batch.joins userItem)).flatMap
      (Batch.runItems userItem translateUserContentBlock
        fun contents => createMessage .user (.blocks contents) none)
  | .assistant (.text s) =>
    [createMessage .assistant (.text s) (resolveAssistantPhase (.text s) applyPhase)]
  | .assistant (.blocks bs) =>
    (bs.splitBy (Batch.joins (assistantItem stringify))).flatMap
      (Batch.runItems (assistantItem stringify) translateAssistantContentBlock
        fun contents => createMessage .assistant (.blocks contents)
          (resolveAssistantPhase (.blocks bs) applyPhase))

theorem translateMessage_grouped (message : AnthropicMessage) :
    translateMessage stringify applyPhase message = groupedItems stringify applyPhase message := by
  obtain (s | bs) | (s | bs) := message
  · rfl
  · exact Batch.items_eq_splitBy bs
  · rfl
  · exact Batch.items_eq_splitBy bs

end Message

/-! ## Requests -/

/-- Flattened, the input is the image of the history, block by block; no message is empty; and in
each message of the history the runs of blocks between items are grouped. -/
theorem history_faithful (stringify : Json → String) (getExtraPromptForModel : String → String)
    (payload : AnthropicMessagesPayload) :
    let applyPhase := shouldApplyPhase getExtraPromptForModel payload.model
    let input :=
      (translateAnthropicMessagesToResponsesPayload stringify getExtraPromptForModel payload).input
    input.flatMap ResponseInputItem.pieces =
        payload.messages.flatMap (messageImage stringify applyPhase) ∧
      (∀ message, .message message ∈ input → message.content ≠ .blocks []) ∧
      input = payload.messages.flatMap (groupedItems stringify applyPhase) := by
  intro applyPhase input
  have hinput : input = payload.messages.flatMap (translateMessage stringify applyPhase) := rfl
  refine ⟨?_, fun message hmessage => ?_, ?_⟩
  · rw [hinput, List.flatMap_assoc]
    exact List.flatMap_congr fun message _ =>
      translateMessage_pieces stringify applyPhase message
  · rw [hinput] at hmessage
    obtain ⟨source, -, hitem⟩ := List.mem_flatMap.1 hmessage
    exact translateMessage_given stringify applyPhase source _ hitem
  · rw [hinput]
    exact List.flatMap_congr fun message _ =>
      translateMessage_grouped stringify applyPhase message

end Maximal.Responses
