import Maximal.Lib.Js.Value

/-!
# Anthropic messages

The messages of a request to `/v1/messages`, and the blocks their contents are made of. Assistant
blocks come from responses that nothing has checked, so their fields can be any value.
-/

namespace Maximal

open Js

/-- `string | Array<block>`. -/
inductive Content (β : Type) where
  | text (s : String)
  | blocks (bs : List β)

namespace Content

variable {β : Type}

/-- A text, or at least one block. -/
def IsGiven : Content β → Prop
  | .text _ => True
  | .blocks bs => bs ≠ []

instance (content : Content β) : Decidable content.IsGiven :=
  match content with
  | .text _ => .isTrue trivial
  | .blocks [] => .isFalse fun h => h rfl
  | .blocks (_ :: _) => .isTrue (List.cons_ne_nil _ _)

end Content

structure AnthropicTextBlock where
  text : String

/-- An image in base 64. -/
structure AnthropicImageBlock where
  mediaType : String
  data : String

/-- A document in base 64. -/
structure AnthropicDocumentBlock where
  mediaType : String
  data : String
  title : Option String

inductive AnthropicToolResultContentBlock where
  | text (block : AnthropicTextBlock)
  | image (block : AnthropicImageBlock)
  | document (block : AnthropicDocumentBlock)
  | toolReference (toolName : String)

structure AnthropicToolResultBlock where
  toolUseId : String
  content : Content AnthropicToolResultContentBlock
  isError : Bool

inductive AnthropicUserContentBlock where
  | text (block : AnthropicTextBlock)
  | image (block : AnthropicImageBlock)
  | document (block : AnthropicDocumentBlock)
  | toolResult (block : AnthropicToolResultBlock)

structure AnthropicToolUseBlock where
  id : Val
  name : Val
  input : Json

structure AnthropicThinkingBlock where
  thinking : String
  signature : String
  deriving DecidableEq

inductive AnthropicAssistantContentBlock where
  | text (text : Json)
  | toolUse (block : AnthropicToolUseBlock)
  | thinking (block : AnthropicThinkingBlock)

inductive AnthropicMessage where
  | user (content : Content AnthropicUserContentBlock)
  | assistant (content : Content AnthropicAssistantContentBlock)

/-- The part of a request that makes up the conversation. -/
structure AnthropicMessagesPayload where
  model : String
  messages : List AnthropicMessage
  system : Option (Content AnthropicTextBlock)

namespace AnthropicUserContentBlock

def isToolResult : AnthropicUserContentBlock → Bool
  | .toolResult _ => true
  | _ => false

def toolResult? : AnthropicUserContentBlock → Option AnthropicToolResultBlock
  | .toolResult block => some block
  | _ => none

end AnthropicUserContentBlock

namespace AnthropicAssistantContentBlock

def isText : AnthropicAssistantContentBlock → Bool
  | .text _ => true
  | _ => false

def toolUse? : AnthropicAssistantContentBlock → Option AnthropicToolUseBlock
  | .toolUse block => some block
  | _ => none

def thinking? : AnthropicAssistantContentBlock → Option AnthropicThinkingBlock
  | .thinking block => some block
  | _ => none

end AnthropicAssistantContentBlock

namespace AnthropicMessage

/-- The content of the message is a text or has at least one block. -/
def HasContent : AnthropicMessage → Prop
  | .user content => content.IsGiven
  | .assistant content => content.IsGiven

instance (message : AnthropicMessage) : Decidable message.HasContent :=
  match message with
  | .user content => inferInstanceAs (Decidable content.IsGiven)
  | .assistant content => inferInstanceAs (Decidable content.IsGiven)

end AnthropicMessage

end Maximal
