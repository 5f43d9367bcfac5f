import Maximal.Messages.ChunkTolerance
import Maximal.Messages.ResponsesFailures
import Maximal.Messages.ResponsesSilence
import Maximal.Responses.StreamIdSync

/-!
# Tolerance of malformed frames

Three readers take frames that nobody has checked: the two stream translators and the passthrough.

## Main definitions

- `TakenBy` — a reader returns on a frame, and changes no block unless it emits something

## Main results

- `frames_taken_iff` — the frames that each reader takes, in every reachable state
-/

namespace Maximal

open Js Emitter

/-- The reader returns; if nothing is emitted, the blocks are the same as before. -/
def TakenBy {ε σ ο β : Type} (reader : Emitter ε σ ο Unit) (blocks : σ → β) (s : σ) : Prop :=
  ∃ s' os, reader s = .ok ((), s', os) ∧ (os = [] → blocks s' = blocks s)

theorem takenBy_iff {ε σ ο β : Type} {reader : Emitter ε σ ο Unit} {blocks : σ → β} {s : σ}
    (h : ∀ s', reader s = .ok ((), s', []) → blocks s' = blocks s) :
    TakenBy reader blocks s ↔ (reader s).isOk = true := by
  unfold TakenBy
  constructor
  · rintro ⟨s', os, hok, -⟩
    rw [hok]
    rfl
  · intro hok
    cases hreader : reader s with
    | error e =>
      rw [hreader] at hok
      cases hok
    | ok r =>
      obtain ⟨_, s', os⟩ := r
      refine ⟨s', os, rfl, fun hnone => h s' ?_⟩
      rw [hreader, hnone]

/-- The block-index counter and the open blocks of the chat translator. -/
def AnthropicStreamState.blocks (s : AnthropicStreamState) : ℕ × Bool × Bool :=
  (s.contentBlockIndex, s.contentBlockOpen, s.thinkingBlockOpen)

/-- The block-index counter and the open blocks of the Responses translator. -/
def Responses.ResponsesStreamState.blocks (s : Responses.ResponsesStreamState) : ℕ × List ℕ :=
  (s.nextContentBlockIndex, s.openBlocks)

theorem chunk_takenBy_iff {s : AnthropicStreamState}
    (h : Reachable translateChunkToAnthropicEvents .fresh s) (chunk : Json) :
    TakenBy (translateChunkToAnthropicEvents chunk) AnthropicStreamState.blocks s ↔
      s.tolerates chunk = true := by
  have hsound := sound_of_reachable h
  rw [← isOk_translateChunkToAnthropicEvents hsound]
  refine takenBy_iff fun s' hsilent => ?_
  obtain ⟨hindex, hopen, hthinking⟩ := sameBlocks_of_silent hsound hsilent
  simp only [AnthropicStreamState.blocks, hindex, hopen, hthinking]

theorem responses_takenBy_iff {parse : String → Option Json} {estimatedInputTokens : Option Number}
    {s : Responses.ResponsesStreamState}
    (h : Reachable (Responses.translateResponsesStreamEvent parse)
      (Responses.createResponsesStreamState estimatedInputTokens) s) (frame : Responses.RawEvent) :
    TakenBy (Responses.translateResponsesStreamEvent parse frame)
        Responses.ResponsesStreamState.blocks s ↔
      Responses.isTolerated frame.value = true := by
  have hfails := Responses.translateResponsesStreamEvent_failsIff parse frame s
  refine (takenBy_iff fun s' hsilent => ?_).trans ?_
  · obtain ⟨hnext, hopen⟩ :=
      Responses.unchanged_of_silent (Responses.bounded_of_reachable h) hsilent
    simp only [Responses.ResponsesStreamState.blocks, hnext, hopen]
  · rw [← not_iff_not, Bool.not_eq_true, Bool.not_eq_true, hfails]

/-- In every reachable state each reader takes exactly the frames it tolerates. -/
theorem frames_taken_iff (parse : String → Option Json) (stringify : Json → String)
    (randomSuffix : String) :
    (∀ s, Reachable translateChunkToAnthropicEvents .fresh s → ∀ chunk,
      (TakenBy (translateChunkToAnthropicEvents chunk) AnthropicStreamState.blocks s ↔
        s.tolerates chunk = true)) ∧
    (∀ estimatedInputTokens s, Reachable (Responses.translateResponsesStreamEvent parse)
      (Responses.createResponsesStreamState estimatedInputTokens) s → ∀ frame : Responses.RawEvent,
      (TakenBy (Responses.translateResponsesStreamEvent parse frame)
          Responses.ResponsesStreamState.blocks s ↔
        Responses.isTolerated frame.value = true)) ∧
    ∀ tracker event data frame, data ≠ "" → parse data = some frame →
      ((Responses.fixStreamIds parse stringify randomSuffix data event tracker).isOk = true ↔
        Responses.idTolerated event frame = true) := by
  refine ⟨fun s h => chunk_takenBy_iff h, fun _ s h => responses_takenBy_iff h,
    fun tracker event data frame hdata hparse => ?_⟩
  have hfails := Responses.fixStreamIds_failsIff parse stringify randomSuffix data event tracker
  rw [hparse, Option.all_some, and_iff_right hdata] at hfails
  rw [← not_iff_not, Bool.not_eq_true, Bool.not_eq_true, hfails]

/-- On fresh states a terminal frame without output is not taken, and an empty chunk is. -/
theorem frames_taken_fresh :
    TakenBy (translateChunkToAnthropicEvents (.object [])) AnthropicStreamState.blocks .fresh ∧
      ¬TakenBy (Responses.translateResponsesStreamEvent (fun _ => none) ⟨0, .object
          [("type", .string "response.completed"), ("response", .object [])]⟩)
        Responses.ResponsesStreamState.blocks (Responses.createResponsesStreamState none) ∧
      (Responses.fixStreamIds (fun _ => some (.object [])) (fun _ => "") "" "{}" none
        Responses.createStreamIdTracker).isOk = true := by
  obtain ⟨hchunk, hresponses, -⟩ := frames_taken_iff (fun _ => none) (fun _ => "") ""
  obtain ⟨-, -, hids⟩ := frames_taken_iff (fun _ => some (.object [])) (fun _ => "") ""
  refine ⟨(hchunk .fresh ⟨[], rfl⟩ _).2 (by decide), fun h => ?_,
    (hids _ none "{}" (.object []) (by decide) rfl).2 (by decide)⟩
  have htolerated := (hresponses none _ ⟨[], rfl⟩ _).1 h
  revert htolerated
  decide

/-- A count that no number can be made of. -/
def unprintable : Json := .object [("toString", .null)]

/-- Each of the readers throws on some frame. -/
theorem not_all_frames_taken :
    ¬TakenBy (translateChunkToAnthropicEvents (.object
        [("choices", .array [.object []]),
          ("usage", .object [("prompt_tokens", unprintable)])]))
        AnthropicStreamState.blocks .fresh ∧
      ¬TakenBy (Responses.translateResponsesStreamEvent (fun _ => none) ⟨0, .object
          [("type", .string "response.completed"), ("response", .object [])]⟩)
        Responses.ResponsesStreamState.blocks (Responses.createResponsesStreamState none) ∧
      (Responses.fixStreamIds
        (fun _ => some (.object [("output_index", unprintable), ("item", .object [])]))
        (fun _ => "") "" "{}" (some "response.output_item.added")
        Responses.createStreamIdTracker).isOk = false := by
  refine ⟨fun h => ?_, fun h => ?_, by decide⟩
  · obtain ⟨s', os, hok, -⟩ := h
    cases hok
  · obtain ⟨s', os, hok, -⟩ := h
    cases hok

end Maximal
