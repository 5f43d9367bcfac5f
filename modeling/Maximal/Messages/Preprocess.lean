import Mathlib.Data.List.Sort
import Maximal.Lib.Js.Map
import Maximal.Lib.Js.Text
import Maximal.Messages.AnthropicPayload

/-!
# Merging user messages into tool results

Before a request is sent, the texts, images and documents that stand next to tool results in a
user message are moved into the tool results.

## Main definitions

- `UserContentBlock`, `ToolResultBlock` — blocks as clients send them
- `mergeUserMessageContent` — the tool results that a content is merged into
- `mergeToolResultForClaude` — the messages of a request after merging
-/

namespace Maximal.Preprocess

open Js

/-- A tool result as clients send it: the content may be missing. -/
structure ToolResultBlock where
  toolUseId : String
  content : Option (Content AnthropicToolResultContentBlock)
  isError : Option Bool

inductive AttachmentBlock where
  | image (block : AnthropicImageBlock)
  | document (block : AnthropicDocumentBlock)

inductive UserContentBlock where
  | toolResult (block : ToolResultBlock)
  | text (block : AnthropicTextBlock)
  | attachment (block : AttachmentBlock)
  | other (block : Json)

inductive Message where
  | user (content : Content UserContentBlock)
  | assistant (content : Content AnthropicAssistantContentBlock)

structure IndexedAttachment where
  attachment : AttachmentBlock
  order : ℕ

def AttachmentBlock.isDocument : AttachmentBlock → Bool
  | .image _ => false
  | .document _ => true

/-- The attachment as a block inside a tool result. -/
def AttachmentBlock.inner : AttachmentBlock → AnthropicToolResultContentBlock
  | .image block => .image block
  | .document block => .document block

def isToolReference : AnthropicToolResultContentBlock → Bool
  | .toolReference _ => true
  | _ => false

def isDocument : AnthropicToolResultContentBlock → Bool
  | .document _ => true
  | _ => false

def hasToolRef (block : ToolResultBlock) : Bool :=
  match block.content with
  | some (.blocks bs) => bs.any isToolReference
  | _ => false

/-- The content as blocks; a content that is missing has none. -/
def resultBlocks (tr : ToolResultBlock) : List AnthropicToolResultContentBlock :=
  match tr.content with
  | some (.blocks bs) => bs
  | _ => []

/-! ## Texts -/

def mergeContentWithText (tr : ToolResultBlock) (textBlock : AnthropicTextBlock) :
    ToolResultBlock :=
  match tr.content with
  | some (.text s) => { tr with content := some (.text (s ++ "\n\n" ++ textBlock.text)) }
  | _ =>
    -- unable to merge, the text waits for the next round
    if hasToolRef tr then tr
    else { tr with content := some (.blocks (resultBlocks tr ++ [.text textBlock])) }

def mergeContentWithTexts (tr : ToolResultBlock) (textBlocks : List AnthropicTextBlock) :
    ToolResultBlock :=
  match tr.content with
  | some (.text s) =>
    { tr with
      content := some (.text (s ++ "\n\n" ++ String.intercalate "\n\n" (textBlocks.map (·.text)))) }
  | _ =>
    if hasToolRef tr then tr
    else { tr with content := some (.blocks (resultBlocks tr ++ textBlocks.map .text)) }

/-- One text for each tool result, or all texts for the last one. -/
def mergeToolResult (toolResults : List ToolResultBlock) (textBlocks : List AnthropicTextBlock) :
    List ToolResultBlock :=
  if toolResults.length = textBlocks.length then
    List.zipWith mergeContentWithText toolResults textBlocks
  else
    toolResults.mapIdx fun i tr =>
      if i = toolResults.length - 1 then mergeContentWithTexts tr textBlocks else tr

/-! ## Attachments -/

def mergeContentWithAttachments (tr : ToolResultBlock) (attachments : List AttachmentBlock) :
    ToolResultBlock :=
  match tr.content with
  | some (.text s) =>
    { tr with content := some (.blocks (.text ⟨s⟩ :: attachments.map (·.inner))) }
  | _ => { tr with content := some (.blocks (resultBlocks tr ++ attachments.map (·.inner))) }

def isMergeable (block : ToolResultBlock) : Bool := !(block.isError = some true || hasToolRef block)

def getMergeableToolResultIndices (toolResults : List ToolResultBlock) : List ℕ :=
  (toolResults.zipIdx.filter fun e => isMergeable e.1).map (·.2)

/-- Attachments by the index of the tool result they go to. -/
abbrev Assignment := Entries ℕ (List IndexedAttachment)

def push (target : Assignment) (index : ℕ) (attachments : List IndexedAttachment) : Assignment :=
  target.set index ((target.get index).getD [] ++ attachments)

/-- One attachment for each of the tool results, or all for the last one to fall back to. -/
def assignAttachmentsToToolResults (target : Assignment) (attachments : List IndexedAttachment)
    (toolResultIndices fallbackToolResultIndices : List ℕ) : Assignment :=
  if attachments.length = 0 then target
  else if 0 < toolResultIndices.length ∧ toolResultIndices.length = attachments.length then
    (toolResultIndices.zip attachments).foldl (fun target e => push target e.1 [e.2]) target
  else
    match fallbackToolResultIndices.getLast? with
    | none => target
    | some lastToolResultIndex => push target lastToolResultIndex attachments

def orderedAttachments (matchedAttachments : List IndexedAttachment) : List AttachmentBlock :=
  (matchedAttachments.insertionSort fun left right => left.order ≤ right.order).map (·.attachment)

def mergeAttachmentsIntoToolResults (toolResults : List ToolResultBlock)
    (attachmentsByToolResultIndex : Assignment) : List ToolResultBlock :=
  if attachmentsByToolResultIndex.length = 0 then toolResults
  else
    toolResults.mapIdx fun index block =>
      match attachmentsByToolResultIndex.get index with
      | none => block
      | some matchedAttachments =>
        mergeContentWithAttachments block (orderedAttachments matchedAttachments)

def PDF_FILE_READ_PREFIX : String := "PDF file read:"

def startsWithPdfFileRead (toolResult : ToolResultBlock) : Bool :=
  match toolResult.content with
  | some (.text s) => startsWith s PDF_FILE_READ_PREFIX
  | _ =>
    if (resultBlocks toolResult).any isDocument then false
    else
      match resultBlocks toolResult with
      | .text firstBlock :: _ => startsWith firstBlock.text PDF_FILE_READ_PREFIX
      | _ => false

/-- The tool results that read a PDF, among those at the given indices. -/
def pdfReadToolResultIndices (toolResults : List ToolResultBlock) (indices : List ℕ) : List ℕ :=
  indices.filter fun index => toolResults[index]?.any startsWithPdfFileRead

def assignAttachments (toolResults : List ToolResultBlock)
    (attachments : List IndexedAttachment) : Assignment :=
  let documentBlocks := attachments.filter (·.attachment.isDocument)
  let mergeable := getMergeableToolResultIndices toolResults
  let pdfRead := pdfReadToolResultIndices toolResults mergeable
  -- PDF reads and documents are matched in order first
  if 0 < documentBlocks.length ∧ 0 < pdfRead.length then
    let matchedDocumentCount := min pdfRead.length documentBlocks.length
    let matchedDocuments := documentBlocks.take matchedDocumentCount
    let matchedDocumentOrders := matchedDocuments.map (·.order)
    let matchedPdfToolResultIndices := pdfRead.take matchedDocumentCount
    let target := assignAttachmentsToToolResults [] matchedDocuments matchedPdfToolResultIndices
      matchedPdfToolResultIndices
    let remainingAttachments := attachments.filter fun a =>
      !a.attachment.isDocument || a.order ∉ matchedDocumentOrders
    assignAttachmentsToToolResults target remainingAttachments
      (mergeable.filter (· ∉ matchedPdfToolResultIndices)) mergeable
  else assignAttachmentsToToolResults [] attachments mergeable mergeable

def mergeAttachmentsForToolResults (toolResults : List ToolResultBlock)
    (attachments : List IndexedAttachment) : List ToolResultBlock :=
  if attachments.length = 0 then toolResults
  else mergeAttachmentsIntoToolResults toolResults (assignAttachments toolResults attachments)

/-! ## Messages -/

structure MergeableUserContent where
  toolResults : List ToolResultBlock
  textBlocks : List AnthropicTextBlock
  attachments : List IndexedAttachment

/-- The blocks by their kind, from position `order` on; nothing if one is of another kind. -/
def collectFrom (order : ℕ) : List UserContentBlock → Option MergeableUserContent
  | [] => some ⟨[], [], []⟩
  | block :: content => do
    let rest ← collectFrom (order + 1) content
    match block with
    | .toolResult tr => some { rest with toolResults := tr :: rest.toolResults }
    | .text text => some { rest with textBlocks := text :: rest.textBlocks }
    | .attachment attachment =>
      some { rest with attachments := ⟨attachment, order⟩ :: rest.attachments }
    | .other _ => none

def collectMergeableUserContent (content : List UserContentBlock) : Option MergeableUserContent :=
  collectFrom 0 content

/-- The tool results that the content is merged into, if there is anything to merge. -/
def mergeUserMessageContent (content : List UserContentBlock) : Option (List ToolResultBlock) := do
  let ⟨toolResults, textBlocks, attachments⟩ ← collectMergeableUserContent content
  if toolResults.length = 0 ∨ (textBlocks.length = 0 ∧ attachments.length = 0) then none
  else
    let mergedToolResults :=
      if textBlocks.length = 0 then toolResults else mergeToolResult toolResults textBlocks
    some (mergeAttachmentsForToolResults mergedToolResults attachments)

def mergeMessage : Message → Message
  | .user (.blocks content) =>
    match mergeUserMessageContent content with
    | some mergedContent => .user (.blocks (mergedContent.map .toolResult))
    | none => .user (.blocks content)
  | message => message

def mergeToolResultForClaude (skipLastMessage : Bool) (messages : List Message) : List Message :=
  messages.mapIdx fun index message =>
    if skipLastMessage ∧ index = messages.length - 1 then message else mergeMessage message

end Maximal.Preprocess
