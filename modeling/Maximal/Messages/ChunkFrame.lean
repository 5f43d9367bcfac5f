import Maximal.Messages.ChunkBlocks

namespace Maximal

open Js Emitter

namespace AnthropicStreamState

/-- No block started so far has this index or a larger one. -/
def nextIndex (state : AnthropicStreamState) : ℕ :=
  state.contentBlockIndex + state.contentBlockOpen.toNat

end AnthropicStreamState

/-- A frame that allows everything but texts of the upstream and tool calls: handlers that only
open, close and sign blocks keep it. -/
structure ChunkFrame (p : String) (F : Frame AnthropicStreamState AnthropicStreamEventData) :
    Prop where
  moves : ∀ s s', s'.toolCalls = s.toolCalls → s.nextIndex ≤ s'.nextIndex → F.moves s s'
  stop : ∀ i, F.emits (.contentBlockStop i)
  start : ∀ i b, b.kind ≠ .toolUse → F.emits (.contentBlockStart i b)
  signature : ∀ i v, F.emits (.contentBlockDelta (.at i) (.signatureDelta v))
  placeholder : ∀ i, F.emits (.contentBlockDelta (.at i) (.thinkingDelta (some (.string p))))
  messageStart : ∀ id model usage, F.emits (.messageStart id model usage)

section

variable {p : String} {F : Frame AnthropicStreamState AnthropicStreamEventData}

theorem handleMessageStart_keeps (hF : ChunkFrame p F) (chunk : Json) :
    Keeps F (handleMessageStart chunk) := by
  refine .bind .current fun s => .when _ <| .bind (.ofExcept _) fun _ => .bind (.emit ?_) fun _ =>
    .update fun s => hF.moves _ _ rfl le_rfl
  simp [hF.messageStart]

theorem stopContentBlock_keeps (hF : ChunkFrame p F) : Keeps F stopContentBlock := by
  refine .bind .current fun s => .bind (.emit (by simp [hF.stop])) fun _ =>
    .update fun s => hF.moves _ _ rfl ?_
  have := Bool.toNat_le s.contentBlockOpen
  simp only [AnthropicStreamState.nextIndex, Bool.toNat_false]
  omega

theorem closeThinkingBlockIfOpen_keeps (hF : ChunkFrame p F) :
    Keeps F closeThinkingBlockIfOpen := by
  refine .bind .current fun s => .when _ <| .bind (.emit ?_) fun _ =>
    .update fun s => hF.moves _ _ rfl ?_
  · simp [hF.stop, hF.signature]
  · simp only [AnthropicStreamState.nextIndex]
    omega

theorem closeToolBlockIfOpen_keeps (hF : ChunkFrame p F) : Keeps F closeToolBlockIfOpen :=
  .bind .current fun _ => .when _ (stopContentBlock_keeps hF)

theorem closeContentBlockIfOpen_keeps (hF : ChunkFrame p F) : Keeps F closeContentBlockIfOpen :=
  .bind .current fun _ => .when _ (stopContentBlock_keeps hF)

theorem openTextBlockIfNeeded_keeps (hF : ChunkFrame p F) : Keeps F openTextBlockIfNeeded := by
  refine .bind .current fun _ => .when _ <| .bind (.emit ?_) fun _ =>
    .update fun s => hF.moves _ _ rfl ?_
  · simpa using hF.start _ (.text "") (by rintro ⟨⟩)
  · have := Bool.toNat_le s.contentBlockOpen
    simp only [AnthropicStreamState.nextIndex, Bool.toNat_true]
    omega

theorem signThinkingBlock_keeps (hF : ChunkFrame p F) (delta : Delta) :
    Keeps F (signThinkingBlock delta) := by
  refine .when _ <| .bind (.ofExcept _) fun _ => .bind .current fun s => .when _ <|
    .bind (.emit ?_) fun _ => .update fun s => hF.moves _ _ rfl ?_
  · simp [hF.stop, hF.signature]
  · simp only [AnthropicStreamState.nextIndex]
    omega

theorem handleReasoningOpaque_keeps (hF : ChunkFrame p F) (delta : Delta) :
    Keeps F (handleReasoningOpaque p delta) := by
  refine .bind (.ofExcept _) fun _ => .when _ <| .bind .current fun s => .bind (.emit ?_) fun _ =>
    .update fun s => hF.moves _ _ rfl ?_
  · simp only [List.mem_cons, List.not_mem_nil, or_false, forall_eq_or_imp, forall_eq]
    exact ⟨hF.start _ (.thinking "") (by rintro ⟨⟩), hF.placeholder _, hF.signature _ _, hF.stop _⟩
  · simp only [AnthropicStreamState.nextIndex]
    omega

theorem handleThinkingText_keeps (hF : ChunkFrame p F)
    (ht : ∀ i v, F.emits (.contentBlockDelta (.at i) (.thinkingDelta v))) (delta : Delta) :
    Keeps F (handleThinkingText delta) := by
  refine .bind (.ofExcept _) fun _ => .bind .current fun s => ?_
  split
  · exact .pure _
  · refine .bind (.when _ <| .bind (.when _ <| .bind (.emit ?_) fun _ => .update fun s =>
      hF.moves _ _ rfl le_rfl) fun _ => .emit ?_) fun _ => .pure _
    · simpa using hF.start _ (.thinking "") (by rintro ⟨⟩)
    · simp [ht]

theorem handleContent_keeps (hF : ChunkFrame p F)
    (ht : ∀ i v, F.emits (.contentBlockDelta (.at i) (.textDelta v))) (delta : Delta) :
    Keeps F (handleContent delta) := by
  refine .bind (.bind (.ofExcept _) fun _ => .when _ <|
    (closeThinkingBlockIfOpen_keeps hF).bind fun _ => (closeToolBlockIfOpen_keeps hF).bind fun _ =>
    (openTextBlockIfNeeded_keeps hF).bind fun _ => .bind .current fun s => .emit ?_) fun _ =>
    signThinkingBlock_keeps hF delta
  simp [ht]

/-- The entries of `tool_calls` are what a frame has to allow on its own. -/
theorem handleToolCalls_keeps (hF : ChunkFrame p F) (delta : Delta)
    (hcall : ∀ call, Keeps F (handleToolCall call)) : Keeps F (handleToolCalls p delta) := by
  rw [handleToolCalls]
  split
  · exact .pure ()
  · next calls _ =>
    refine .when _ <| (closeThinkingBlockIfOpen_keeps hF).bind fun _ => .bind ?_ fun _ =>
      .forEach hcall calls
    exact .bind .current fun _ => .bind (.when _ (stopContentBlock_keeps hF)) fun _ =>
      handleReasoningOpaque_keeps hF delta

theorem closeLastBlock_keeps (hF : ChunkFrame p F) (delta : Delta) :
    Keeps F (closeLastBlock p delta) :=
  .bind .current fun _ => .when _ <| (stopContentBlock_keeps hF).bind fun _ =>
    .when _ (handleReasoningOpaque_keeps hF delta)

/-- The end of a message is what a frame has to allow on its own. -/
theorem handleFinish_keeps (hF : ChunkFrame p F) (hdelta : ∀ r u, F.emits (.messageDelta r u))
    (hstop : F.emits .messageStop) (choice : Choice) (chunk : Json) (delta : Delta) :
    Keeps F (handleFinish p choice chunk delta) := by
  rw [handleFinish]
  split
  · exact .pure ()
  · refine (closeLastBlock_keeps hF delta).bind fun _ => .bind (.ofExcept _) fun _ => .emit ?_
    simp [hdelta, hstop]

end

end Maximal
