import Maximal.Lib.Blocks
import Maximal.Lib.Js.Value

/-!
# Anthropic stream events

The events the translators write to a client. A field copied from an upstream frame keeps
whatever value the frame had there, so it is a `Js.Val`.

## Main definitions

- `AnthropicStreamEventData` — the events
- `AnthropicStreamEventData.block` — an event as an event of a stream of content blocks
- `AnthropicStreamEventData.bounded` — the same, with the ends of messages as boundaries
- `AnthropicStreamEventData.closing` — only starts, stops and ends of messages
- `BlockKind.Fits` — which deltas belong into which block
-/

namespace Maximal

open Js

inductive StopReason where
  | endTurn | maxTokens | stopSequence | toolUse | pauseTurn | refusal
  deriving DecidableEq, Repr

/-- The value of a `stop_reason` field. A table lookup by an upstream text can miss, or meet a
member that every object inherits. -/
inductive StopReasonValue where
  | reason (r : StopReason)
  | null
  | undefined
  | inherited (member : String)
  deriving DecidableEq, Repr

structure Usage where
  inputTokens : Number
  outputTokens : Json
  /-- Left out of the event when `none`. -/
  cacheReadInputTokens : Val

/-- The payload of `content_block_start`; a `tool_use` block starts with the input `{}`. -/
inductive ContentBlock where
  | text (text : String)
  | toolUse (id name : Val)
  | thinking (thinking : String)

inductive BlockDelta where
  | textDelta (text : Val)
  | inputJsonDelta (partialJson : Val)
  | thinkingDelta (thinking : Val)
  | signatureDelta (signature : Val)

/-- The index of a delta: that of a block, or the value an unrelated object had under the name
of the index field. -/
inductive BlockIndex where
  | at (n : ℕ)
  | other (v : Val)

inductive AnthropicStreamEventData where
  | messageStart (id model : Val) (usage : Usage)
  | contentBlockStart (index : ℕ) (contentBlock : ContentBlock)
  | contentBlockDelta (index : BlockIndex) (delta : BlockDelta)
  | contentBlockStop (index : ℕ)
  | messageDelta (stopReason : StopReasonValue) (usage : Usage)
  | messageStop
  | ping
  | error (message : String)

inductive BlockKind where
  | text | toolUse | thinking
  deriving DecidableEq, Repr

inductive DeltaKind where
  | text | inputJson | thinking | signature
  deriving DecidableEq, Repr

def ContentBlock.kind : ContentBlock → BlockKind
  | .text _ => .text
  | .toolUse _ _ => .toolUse
  | .thinking _ => .thinking

def BlockDelta.kind : BlockDelta → DeltaKind
  | .textDelta _ => .text
  | .inputJsonDelta _ => .inputJson
  | .thinkingDelta _ => .thinking
  | .signatureDelta _ => .signature

/-- The deltas a block of each kind may receive. -/
def BlockKind.Fits : BlockKind → DeltaKind → Prop
  | .text, d => d = .text
  | .toolUse, d => d = .inputJson
  | .thinking, d => d = .thinking ∨ d = .signature

instance (k : BlockKind) (d : DeltaKind) : Decidable (k.Fits d) := by
  cases k <;> unfold BlockKind.Fits <;> infer_instance

namespace AnthropicStreamEventData

/-- The part of an event that concerns content blocks; a delta may address no block at all. -/
def block : AnthropicStreamEventData → BlockEvent (Option ℕ) BlockKind DeltaKind
  | .contentBlockStart i b => .start (some i) b.kind
  | .contentBlockDelta (.at i) d => .delta (some i) d.kind
  | .contentBlockDelta (.other _) d => .delta none d.kind
  | .contentBlockStop i => .stop (some i)
  | _ => .other

def endsMessage : AnthropicStreamEventData → Bool
  | .messageDelta _ _ => true
  | .messageStop => true
  | _ => false

/-- The content blocks between the ends of messages. -/
def bounded (e : AnthropicStreamEventData) : BlockEvent (Option ℕ) BlockKind DeltaKind :=
  if e.endsMessage then .boundary else e.block

/-- Starts and stops of content blocks, whatever they contain, between the ends of messages. -/
def closing : AnthropicStreamEventData → BlockEvent (Option ℕ) Unit DeltaKind
  | .contentBlockStart i _ => .start (some i) ()
  | .contentBlockStop i => .stop (some i)
  | .messageDelta _ _ => .boundary
  | .messageStop => .boundary
  | _ => .other

/-- The indices of the content blocks started, in order. -/
def started (events : List AnthropicStreamEventData) : List ℕ :=
  events.filterMap fun
    | .contentBlockStart i _ => some i
    | _ => none

/-- The indices of the content blocks stopped, in order. -/
def stopped (events : List AnthropicStreamEventData) : List ℕ :=
  events.filterMap fun
    | .contentBlockStop i => some i
    | _ => none

/-- A view that shows the starts shows their indices. -/
theorem opens_view {κ δ : Type} (view : AnthropicStreamEventData → BlockEvent (Option ℕ) κ δ)
    (h : ∀ e, Blocks.opens [view e] = (started [e]).map some)
    (events : List AnthropicStreamEventData) :
    Blocks.opens (events.map view) = (started events).map some := by
  induction events with
  | nil => rfl
  | cons e es ih =>
    have hcons : started (e :: es) = started [e] ++ started es :=
      List.filterMap_append (l := [e])
    rw [List.map_cons, hcons, List.map_append, ← h, ← ih]
    exact List.filterMap_append (l := [view e])

theorem closes_view {κ δ : Type} (view : AnthropicStreamEventData → BlockEvent (Option ℕ) κ δ)
    (h : ∀ e, Blocks.closes [view e] = (stopped [e]).map some)
    (events : List AnthropicStreamEventData) :
    Blocks.closes (events.map view) = (stopped events).map some := by
  induction events with
  | nil => rfl
  | cons e es ih =>
    have hcons : stopped (e :: es) = stopped [e] ++ stopped es :=
      List.filterMap_append (l := [e])
    rw [List.map_cons, hcons, List.map_append, ← h, ← ih]
    exact List.filterMap_append (l := [view e])

theorem opens_closing (events : List AnthropicStreamEventData) :
    Blocks.opens (events.map closing) = (started events).map some :=
  opens_view closing (fun e => by cases e <;> rfl) events

theorem closes_closing (events : List AnthropicStreamEventData) :
    Blocks.closes (events.map closing) = (stopped events).map some :=
  closes_view closing (fun e => by cases e <;> rfl) events

theorem opens_block (events : List AnthropicStreamEventData) :
    Blocks.opens (events.map block) = (started events).map some := by
  refine opens_view block (fun e => ?_) events
  cases e with
  | contentBlockDelta index => cases index <;> rfl
  | _ => rfl

theorem opens_bounded (events : List AnthropicStreamEventData) :
    Blocks.opens (events.map bounded) = (started events).map some := by
  refine opens_view bounded (fun e => ?_) events
  cases e with
  | contentBlockDelta index => cases index <;> rfl
  | _ => rfl

end AnthropicStreamEventData

end Maximal
