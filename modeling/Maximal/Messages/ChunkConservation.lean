import Maximal.Messages.ChunkArguments

namespace Maximal

open Js Emitter

/-- The texts sent are the texts of the chunks, with the placeholder of a signature left out; and
the arguments of each tool call whose first fragment announces it arrive in its blocks. -/
def ConservesContent (chunks : List Json) : Prop :=
  let translated := consumed translateChunkToAnthropicEvents .fresh chunks
  let calls := translated.flatMap toolFragments
  let events := (run translateChunkToAnthropicEvents .fresh chunks).outputs
  gather sentText (run (translateChunkWith "") .fresh chunks).outputs =
      gather chunkText translated ∧
    ∀ key, announcedFirst calls key →
      gather (inputJson (toolBlocks calls events key)) events = toolArguments calls key

namespace ChunkConservation

/-- The same event, or the thinking texts `p` and `q` in one place. -/
def SamePlace (p q : String) (e e' : AnthropicStreamEventData) : Prop :=
  e = e' ∨ ∃ i, e = .contentBlockDelta i (.thinkingDelta (some (.string p))) ∧
    e' = .contentBlockDelta i (.thinkingDelta (some (.string q)))

variable {p q : String}

theorem SamePlace.refl (e : AnthropicStreamEventData) : SamePlace p q e e := .inl rfl

theorem handleReasoningOpaque_agree (delta : Delta) :
    Agree (SamePlace p q) (handleReasoningOpaque p delta) (handleReasoningOpaque q delta) := by
  refine .bind (.refl SamePlace.refl _) fun _ => .when _ (.bind (.refl SamePlace.refl _) fun s =>
    .bind (.emit ?_) fun _ => .refl SamePlace.refl _) SamePlace.refl
  exact .cons (.refl _) <| .cons (.inr ⟨_, rfl, rfl⟩) <| .cons (.refl _) <| .cons (.refl _) .nil

/-- Only the placeholder text depends on the placeholder. -/
theorem translateChunkWith_agree (chunk : Json) :
    Agree (SamePlace p q) (translateChunkWith p chunk) (translateChunkWith q chunk) := by
  have same {α : Type} (x : ChunkTranslator α) : Agree (SamePlace p q) x x := .refl SamePlace.refl x
  have hsignature := handleReasoningOpaque_agree (p := p) (q := q)
  rw [translateChunkWith, translateChunkWith]
  cases readTranslatableChoice chunk with
  | none => exact same _
  | some r =>
    obtain ⟨choice, delta⟩ := r
    refine (same _).bind fun _ => (same _).bind fun delta' => (same _).bind fun _ =>
      .bind ?_ fun _ => ?_
    · rw [handleToolCalls, handleToolCalls]
      cases delta'.toolCalls.asArray with
      | none => exact same _
      | some calls =>
        exact .when _ ((same _).bind fun _ => .bind ((same _).bind fun _ => (same _).bind fun _ =>
          hsignature delta') fun _ => same _) SamePlace.refl
    · rw [handleFinish, handleFinish]
      cases choice.finish with
      | none => exact same _
      | some finishReason =>
        exact .bind ((same _).bind fun _ => .when _ ((same _).bind fun _ =>
          .when _ (hsignature delta') SamePlace.refl) SamePlace.refl) fun _ => same _

end ChunkConservation

/-- A run conserves its content iff none of its chunks overwrites a content by a reasoning
text. -/
theorem chunk_run_conservesContent_iff (chunks : List Json) :
    ConservesContent chunks ↔
      Meets (fun s chunk => s.overwritesContent chunk = false) translateChunkToAnthropicEvents
        .fresh chunks := by
  obtain ⟨-, -, -, hconsumed, hmeets⟩ := Agree.run
    (C := fun s chunk => s.overwritesContent chunk = false)
    (ChunkConservation.translateChunkWith_agree (p := "") (q := THINKING_TEXT)) .fresh chunks
  have htext := ChunkText.run_iff .fresh chunks
  rw [hconsumed, hmeets] at htext
  have hcalls := (ChunkArguments.run_routed THINKING_TEXT chunks).conserved
  exact ⟨fun h => htext.1 h.1, fun h => ⟨htext.2 h, hcalls⟩⟩

/-- A content, then a chunk with a reasoning text and a content. -/
def reasoningNextToContent : List Json :=
  [chunkOf [("content", .string "a")] .null,
    chunkOf [("reasoning_text", .string "b"), ("content", .string "c")] .null]

theorem not_all_chunk_runs_conserveContent : ¬ ∀ chunks, ConservesContent chunks :=
  fun h => absurd (h reasoningNextToContent).1 (by decide)

end Maximal
