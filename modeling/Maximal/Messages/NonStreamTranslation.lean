import Maximal.Lib.Js.Text
import Maximal.Messages.AnthropicPayload
import Maximal.Messages.StreamTranslation

/-!
# Requests to the chat completions endpoint

`translateToOpenAI` turns an Anthropic conversation into chat messages. `stringify` stands for
`JSON.stringify`.
-/

namespace Maximal

open Js

namespace ChatCompletions

inductive ContentPart where
  | text (text : Json)
  | imageUrl (url : String)

inductive Role where
  | user
  | assistant
  | system
  | tool
  | developer
  deriving DecidableEq

structure ToolCall where
  id : Val
  name : Val
  arguments : String

structure Message where
  role : Role
  content : Content ContentPart
  toolCalls : Option (List ToolCall) := none
  toolCallId : Option String := none
  reasoningText : Option String := none
  reasoningOpaque : Option String := none

/-- The part of a request that makes up the conversation. -/
structure ChatCompletionsPayload where
  model : String
  messages : List Message

end ChatCompletions

open ChatCompletions

def dataUrl (mediaType data : String) : String := "data:" ++ mediaType ++ ";base64," ++ data

def toolLoadedText (toolName : String) : String := "Tool " ++ toolName ++ " loaded"

def createDocumentTextPart : ContentPart :=
  .text (.string ("A PDF document was attached, but this api cannot send PDF inputs directly. " ++
    "Analyze using other tools."))

/-- `mapContent`, for the kind of blocks whose parts `part` gives; other blocks have none. -/
def mapContent {β : Type} (part : β → Option ContentPart) : Content β → Content ContentPart
  | .text s => .text s
  | .blocks bs => .blocks (bs.filterMap part)

def userPart : AnthropicUserContentBlock → Option ContentPart
  | .text block => some (.text (.string block.text))
  | .image block => some (.imageUrl (dataUrl block.mediaType block.data))
  | .document _ => some createDocumentTextPart
  | .toolResult _ => none

def toolResultPart : AnthropicToolResultContentBlock → Option ContentPart
  | .text block => some (.text (.string block.text))
  | .image block => some (.imageUrl (dataUrl block.mediaType block.data))
  | .document _ => some createDocumentTextPart
  | .toolReference toolName => some (.text (.string (toolLoadedText toolName)))

def assistantPart : AnthropicAssistantContentBlock → Option ContentPart
  | .text text => some (.text text)
  | _ => none

def handleSystemPrompt : Option (Content AnthropicTextBlock) → List Message
  | none => []
  | some (.text s) => if s = "" then [] else [{ role := .system, content := .text s }]
  | some (.blocks bs) =>
    [{ role := .system, content := .text (String.intercalate "\n\n" (bs.map (·.text))) }]

def toolMessage (block : AnthropicToolResultBlock) : Message :=
  { role := .tool, toolCallId := some block.toolUseId
    content := mapContent toolResultPart block.content }

def handleUserMessage : Content AnthropicUserContentBlock → List Message
  | .text s => [{ role := .user, content := .text s }]
  | .blocks bs =>
    let otherBlocks := bs.filter (!·.isToolResult)
    -- tool results must come first to maintain protocol: tool_use -> tool_result -> user
    (bs.filterMap (·.toolResult?)).map toolMessage ++
      if otherBlocks.isEmpty then []
      else [{ role := .user, content := mapContent userPart (.blocks otherBlocks) }]

/-- The thinking blocks that go to the model: for claude models only those that it signed. -/
def sentThinkingBlocks (modelId : String) (blocks : List AnthropicThinkingBlock) :
    List AnthropicThinkingBlock :=
  if startsWith modelId "claude" then
    blocks.filter fun b =>
      b.thinking ≠ "" && b.thinking ≠ THINKING_TEXT && b.signature ≠ "" &&
        -- a signature of the Responses endpoint has @ in it
        !includes b.signature "@"
  else blocks

def handleAssistantMessage (stringify : Json → String) (modelId : String) :
    Content AnthropicAssistantContentBlock → List Message
  | .text s => [{ role := .assistant, content := .text s }]
  | .blocks bs =>
    let toolUseBlocks := bs.filterMap (·.toolUse?)
    let thinkingBlocks := sentThinkingBlocks modelId (bs.filterMap (·.thinking?))
    let thinkingContents :=
      (thinkingBlocks.filter fun b => b.thinking ≠ "" && b.thinking ≠ THINKING_TEXT).map
        (·.thinking)
    let toolCalls := toolUseBlocks.map fun toolUse =>
      { id := toolUse.id, name := toolUse.name, arguments := stringify toolUse.input }
    [{
      role := .assistant
      content := mapContent assistantPart (.blocks bs)
      reasoningText :=
        if thinkingContents.isEmpty then none else some (String.intercalate "\n\n" thinkingContents)
      reasoningOpaque := (thinkingBlocks.find? (·.signature ≠ "")).map (·.signature)
      toolCalls := if toolUseBlocks.isEmpty then none else some toolCalls }]

def handleMessage (stringify : Json → String) (modelId : String) :
    AnthropicMessage → List Message
  | .user content => handleUserMessage content
  | .assistant content => handleAssistantMessage stringify modelId content

def translateAnthropicMessagesToOpenAI (stringify : Json → String)
    (payload : AnthropicMessagesPayload) (modelId : String) : List Message :=
  handleSystemPrompt payload.system ++
    payload.messages.flatMap (handleMessage stringify modelId)

def translateToOpenAI (stringify : Json → String) (payload : AnthropicMessagesPayload) :
    ChatCompletionsPayload where
  model := payload.model
  messages := translateAnthropicMessagesToOpenAI stringify payload payload.model

end Maximal
