import Maximal.Messages.ChunkBlocks
import Mathlib.Data.List.Perm.Basic

namespace Maximal

open Js Emitter Blocks AnthropicStreamEventData

/-- At every end of a message the content blocks started before it have been stopped, one stop
for each start. -/
def ClosedAtMessageEnd (events : List AnthropicStreamEventData) : Prop :=
  ∀ pre e post, events = pre ++ e :: post → e.endsMessage → (started pre).Perm (stopped pre)

namespace AnthropicStreamState

/-- The block the state takes to be open. -/
def openKind (state : AnthropicStreamState) : Option BlockKind :=
  if state.thinkingBlockOpen then some .thinking
  else if state.isToolBlockOpen then some .toolUse
  else if state.contentBlockOpen then some .text
  else none

/-- A signature arrives next to tool calls while the tool call of an earlier chunk is open. -/
def opaqueMeetsOpenTool (state : AnthropicStreamState) (delta : Delta) : Bool :=
  state.openKind = some .toolUse && !delta.hasText && delta.hasToolCalls
    && nonEmpty delta.reasoningOpaque

/-- The chunk neither sends a signature into an open tool call nor finishes the message while a
thinking block is open. -/
def closesBlocks (state : AnthropicStreamState) (chunk : Json) : Bool :=
  match readTranslatableChoice chunk with
  | none => true
  | some (choice, delta) =>
    !state.opaqueMeetsOpenTool delta
      && !(choice.finish.isSome && delta.leavesThinkingOpen state.openKind)

end AnthropicStreamState

theorem ChunkBlocks.At.openKind {κ : Type} {V : BlockView κ} {kind : Option BlockKind}
    {tools : ToolCalls} {s : AnthropicStreamState} {c : Scan (Option ℕ) κ}
    (h : At V kind tools s c) : s.openKind = kind := by
  rw [AnthropicStreamState.openKind, h.thinking, h.isToolBlockOpen, h.content]
  rcases kind with _ | (_ | _ | _) <;> rfl

namespace ChunkClosure

open ChunkBlocks

/-- Starts and stops only, with the ends of messages as boundaries. -/
def closingView : BlockView Unit where
  label _ := ()
  fits _ _ := True
  view := closing
  start _ _ := rfl
  stop _ := rfl
  delta _ _ _ _ := trivial
  track_delta _ _ _ := rfl
  opens_delta _ _ := rfl
  messageStart _ _ _ := rfl
  ends := true
  messageDelta _ _ := rfl
  messageStop := rfl

/-- Some open block, or none, on which the state and the emitted stream agree. -/
def Inv (s : AnthropicStreamState) (c : Scan (Option ℕ) Unit) : Prop :=
  ∃ kind tools, At closingView kind tools s c

/-- No entry of `tool_calls` opens a thinking block. -/
def InCalls (s : AnthropicStreamState) (c : Scan (Option ℕ) Unit) : Prop :=
  ∃ kind tools, kind ≠ some .thinking ∧ At closingView kind tools s c

theorem continueToolCall_hoare (call : Json) :
    Hoare (observe closingView) InCalls (continueToolCall call) fun _ => InCalls := by
  rintro s c ⟨kind, tools, hk, h⟩
  simp only [continueToolCall, wp_when, wp_bind, wp_ofExcept, wp_current]
  split
  · intro key _
    split
    · exact ⟨kind, tools, hk, h⟩
    · exact ⟨kind, tools, hk, h.other rfl⟩
  · exact ⟨kind, tools, hk, h⟩

theorem handleToolCall_hoare (call : Json) :
    Hoare (observe closingView) InCalls (handleToolCall call) fun _ => InCalls := by
  rintro s c ⟨kind, tools, hk, h⟩
  rw [handleToolCall, wp_when]
  split
  · rw [wp_bind]
    refine (startToolCall_hoare call hk fun _ _ _ => .inl rfl).apply h fun _ s c hs => ?_
    apply continueToolCall_hoare
    split at hs
    · obtain ⟨key, info, -, hs⟩ := hs
      exact ⟨_, _, by split <;> simp, hs⟩
    · exact ⟨kind, tools, hk, hs⟩
  · exact ⟨kind, tools, hk, h⟩

theorem translateChunk_hoare (chunk : Json) (s : AnthropicStreamState)
    (c : Scan (Option ℕ) Unit) (hc : s.closesBlocks chunk) (h : Inv s c) :
    wp (observe closingView) (translateChunkToAnthropicEvents chunk) (fun _ => Inv) s c := by
  obtain ⟨kind, tools, h⟩ := h
  rw [AnthropicStreamState.closesBlocks] at hc
  cases hread : readTranslatableChoice chunk with
  | none =>
    rw [translateChunkToAnthropicEvents, translateChunkWith, hread]
    exact ⟨kind, tools, h⟩
  | some r =>
    obtain ⟨choice, delta⟩ := r
    rw [hread] at hc
    simp only [AnthropicStreamState.opaqueMeetsOpenTool, h.openKind, Bool.and_eq_true,
      Bool.not_eq_true'] at hc
    obtain ⟨hsignature, hfinish⟩ := hc
    refine ChunkBlocks.translateChunk_hoare hread ?_ ?_ ?_ s c h
    · intro hk htext hcalls
      simpa [hk, htext, hcalls] using hsignature
    · intro calls _ s c hcalls
      exact Hoare.forEach handleToolCall_hoare calls s c
        ⟨_, _, Delta.beforeToolCalls_ne_thinking _ _, hcalls⟩
    · intro _ hfin
      simpa [hfin] using hfinish

end ChunkClosure

/-- A run whose chunks all close what they have to close has every block closed at every end of a
message. -/
theorem chunk_run_closedAtMessageEnd (chunks : List Json)
    (h : Meets (fun s chunk => s.closesBlocks chunk) translateChunkToAnthropicEvents .fresh
      chunks) :
    ClosedAtMessageEnd (run translateChunkToAnthropicEvents .fresh chunks).outputs := by
  obtain ⟨kind, tools, hat⟩ := run_invariant
    (fun chunk s c hc hi => ChunkClosure.translateChunk_hoare chunk s c hc hi) h
    ⟨none, .empty, ChunkBlocks.At.init ChunkClosure.closingView⟩
  have hdis := hat.disciplined
  rw [ChunkBlocks.foldl_observe] at hdis
  intro pre e post heq hend
  rw [heq, List.map_append, List.map_cons] at hdis
  have hview : ChunkClosure.closingView.view e = .boundary := by
    cases e <;> first | rfl | cases hend
  rw [hview] at hdis
  have hperm := hdis.2.opens_perm_closes
  rw [show ChunkClosure.closingView.view = closing from rfl, opens_closing, closes_closing] at hperm
  exact (List.map_perm_map_iff (Option.some_injective ℕ)).1 hperm

theorem chunk_run_closedAtMessageEnd_text :
    ClosedAtMessageEnd (run translateChunkToAnthropicEvents .fresh
      [chunkOf [("content", .string "hi")] .null, chunkOf [] (.string "stop")]).outputs :=
  chunk_run_closedAtMessageEnd _ (by decide)

/-- A thinking text, then a chunk that finishes the message. -/
def thinkingThenFinish : List Json :=
  [chunkOf [("reasoning_text", .string "hm")] .null, chunkOf [] (.string "stop")]

theorem not_all_chunk_runs_closedAtMessageEnd :
    ¬ ∀ chunks, ClosedAtMessageEnd (run translateChunkToAnthropicEvents .fresh chunks).outputs := by
  intro h
  have hperm := h thinkingThenFinish [_, _, _] (.messageDelta _ _) [.messageStop] rfl rfl
  exact absurd hperm (by decide)

end Maximal
