import Maximal.Messages.ResponsesStreamTranslation

/-!
# Frames from which nothing is emitted

A frame that emits nothing neither takes a block index nor opens or closes a block. This needs that
the indices in use lie below the next one: then a new index is never taken for an open one.

## Main definitions

- `Bounded` — every block index the state knows was given out
- `Calm` — bounded, and unchanged unless something was emitted

## Main results

- `translateResponsesStreamEvent_calm` — every frame leaves the state calm
- `bounded_of_reachable` — every reachable state is bounded
-/

namespace Maximal.Responses

open Js Emitter

structure Bounded (s : ResponsesStreamState) : Prop where
  opens : ∀ i ∈ s.openBlocks, i < s.nextContentBlockIndex
  keys : ∀ k i, s.blockIndexByKey.get k = some i → i < s.nextContentBlockIndex
  calls : ∀ k call, s.functionCallStateByOutputIndex.get k = some call →
    call.blockIndex < s.nextContentBlockIndex

theorem bounded_init (estimatedInputTokens : Option Number) :
    Bounded (createResponsesStreamState estimatedInputTokens) where
  opens := by simp [createResponsesStreamState]
  keys := by simp [createResponsesStreamState]
  calls := by simp [createResponsesStreamState]

namespace ResponsesSilence

/-- An observer that notices whether anything was emitted. -/
def observe (_ : Bool) (_ : AnthropicStreamEventData) : Bool := true

/-- Unless something was emitted, next index and open blocks are the given ones. -/
def Calm (next : ℕ) (opens : List ℕ) (s : ResponsesStreamState) (spoke : Bool) : Prop :=
  Bounded s ∧ (spoke = false → s.nextContentBlockIndex = next ∧ s.openBlocks = opens)

/-- An index was chosen for a block. If this block is open the index is not a new one. -/
def Opening (next : ℕ) (opens : List ℕ) (i : ℕ) (s : ResponsesStreamState) (spoke : Bool) : Prop :=
  Bounded s ∧ i < s.nextContentBlockIndex ∧
    (spoke = false → i ∈ s.openBlocks →
      s.nextContentBlockIndex = next ∧ s.openBlocks = opens)

variable {next : ℕ} {opens : List ℕ} {s s' : ResponsesStreamState} {spoke : Bool}

/-- Fields that play no role may change. -/
theorem Calm.congr (h : Calm next opens s spoke)
    (hnext : s'.nextContentBlockIndex = s.nextContentBlockIndex)
    (hopens : s'.openBlocks = s.openBlocks) (hkeys : s'.blockIndexByKey = s.blockIndexByKey)
    (hcalls : ∀ k call, s'.functionCallStateByOutputIndex.get k = some call →
      ∃ call', s.functionCallStateByOutputIndex.get k = some call' ∧
        call'.blockIndex = call.blockIndex) : Calm next opens s' spoke := by
  obtain ⟨hbounded, hcalm⟩ := h
  refine ⟨⟨?_, ?_, fun k call hcall => ?_⟩, fun hspoke => ?_⟩
  · rw [hopens, hnext]
    exact hbounded.opens
  · rw [hkeys, hnext]
    exact hbounded.keys
  · obtain ⟨call', hcall', heq⟩ := hcalls k call hcall
    rw [hnext, ← heq]
    exact hbounded.calls k call' hcall'
  · rw [hnext, hopens]
    exact hcalm hspoke

theorem emit_calm (events : List AnthropicStreamEventData) :
    Hoare observe (Calm next opens) (emit events : ResponsesTranslator Unit)
      fun _ => Calm next opens :=
  .emit (fun _ _ _ h => ⟨h.1, nofun⟩) events

theorem closeBlockIfOpen_calm (blockIndex : ℕ) :
    Hoare observe (Calm next opens) (closeBlockIfOpen blockIndex) fun _ => Calm next opens := by
  rintro s spoke ⟨hbounded, hcalm⟩
  rw [closeBlockIfOpen, wp_bind, wp_current, wp_when]
  split
  · rw [wp_bind, wp_emit, wp_update]
    refine ⟨{ hbounded with opens := fun i hi => ?_ }, fun hspoke => by cases hspoke⟩
    exact hbounded.opens i (List.mem_filter.1 hi).1
  · exact ⟨hbounded, hcalm⟩

theorem closeOpenBlocks_calm :
    Hoare observe (Calm next opens) closeOpenBlocks fun _ => Calm next opens := by
  intro s spoke h
  rw [closeOpenBlocks, wp_bind, wp_current]
  exact Hoare.forEach closeBlockIfOpen_calm s.openBlocks s spoke h

theorem closeAllOpenBlocks_calm :
    Hoare observe (Calm next opens) closeAllOpenBlocks fun _ => Calm next opens :=
  closeOpenBlocks_calm.bind fun _ _ _ h => h.congr rfl rfl rfl (by simp)

theorem blockIndexFor_calm (key : String) :
    Hoare observe (Calm next opens) (blockIndexFor key) (Opening next opens) := by
  rintro s spoke ⟨hbounded, hcalm⟩
  rw [blockIndexFor, wp_bind, wp_current]
  cases hget : s.blockIndexByKey.get key with
  | some i => exact ⟨hbounded, hbounded.keys key i hget, fun hspoke _ => hcalm hspoke⟩
  | none =>
    simp only [wp_bind, wp_update, wp_pure]
    refine ⟨⟨fun i hi => ?_, fun k i hi => ?_, fun k call hcall => ?_⟩, Nat.lt_succ_self _,
      fun _ hopen => ?_⟩
    · exact Nat.lt_succ_of_lt (hbounded.opens i hi)
    · by_cases hk : k = key
      · subst hk
        rw [Entries.get_set_self] at hi
        exact Option.some.inj hi ▸ Nat.lt_succ_self _
      · rw [Entries.get_set_of_ne _ _ hk] at hi
        exact Nat.lt_succ_of_lt (hbounded.keys k i hi)
    · exact Nat.lt_succ_of_lt (hbounded.calls k call hcall)
    · exact absurd (hbounded.opens _ hopen) (lt_irrefl _)

theorem functionCallFor_calm (outputIndex : MapKey) (toolCallId name : Val) :
    Hoare observe (Calm next opens) (functionCallFor outputIndex toolCallId name)
      fun call => Opening next opens call.blockIndex := by
  rintro s spoke ⟨hbounded, hcalm⟩
  rw [functionCallFor, wp_bind, wp_current]
  cases hget : s.functionCallStateByOutputIndex.get outputIndex with
  | some call => exact ⟨hbounded, hbounded.calls _ call hget, fun hspoke _ => hcalm hspoke⟩
  | none =>
    simp only [wp_bind, wp_update, wp_pure]
    refine ⟨⟨fun i hi => ?_, fun k i hi => ?_, fun k call hcall => ?_⟩, Nat.lt_succ_self _,
      fun _ hopen => ?_⟩
    · exact Nat.lt_succ_of_lt (hbounded.opens i hi)
    · exact Nat.lt_succ_of_lt (hbounded.keys k i hi)
    · by_cases hk : k = outputIndex
      · subst hk
        rw [Entries.get_set_self] at hcall
        exact Option.some.inj hcall ▸ Nat.lt_succ_self _
      · rw [Entries.get_set_of_ne _ _ hk] at hcall
        exact Nat.lt_succ_of_lt (hbounded.calls k call hcall)
    · exact absurd (hbounded.opens _ hopen) (lt_irrefl _)

/-- Closing blocks keeps everything but the open blocks, which become fewer. -/
def closing : Frame ResponsesStreamState AnthropicStreamEventData where
  moves s s' := s'.nextContentBlockIndex = s.nextContentBlockIndex ∧ (Bounded s → Bounded s')
  refl _ := ⟨rfl, id⟩
  trans h h' := ⟨h'.1.trans h.1, h'.2 ∘ h.2⟩
  emits _ := True

theorem closeOpenBlocks_closing : Keeps closing closeOpenBlocks := by
  refine .bind .current fun _ => .forEach (fun i => ?_) _
  refine .bind .current fun _ => .when _ <| .bind (.emit fun _ _ => trivial) fun _ => .update ?_
  exact fun s => ⟨rfl, fun h => { h with
    opens := fun j hj => h.opens j (List.mem_filter.1 hj).1 }⟩

theorem openBlockIfNeeded_calm (i : ℕ) (block : ContentBlock) :
    Hoare observe (Opening next opens i) (openBlockIfNeeded i block) fun _ => Calm next opens := by
  rintro s spoke ⟨hbounded, hlt, hcalm⟩
  rw [openBlockIfNeeded, wp_bind, wp_current, wp_when]
  split
  · rw [wp_bind]
    have hclose : Hoare observe (fun s _ => Bounded s ∧ i < s.nextContentBlockIndex)
        closeOpenBlocks fun _ s _ => Bounded s ∧ i < s.nextContentBlockIndex := by
      refine closeOpenBlocks_closing.hoare fun s s' _ _ h hmoves _ => ?_
      exact ⟨hmoves.2 h.1, hmoves.1 ▸ h.2⟩
    refine hclose.apply ⟨hbounded, hlt⟩ fun _ s spoke h => ?_
    -- the start of the block is emitted
    rw [wp_bind, wp_emit, wp_update]
    refine ⟨{ h.1 with opens := fun j hj => ?_ }, fun hspoke => by cases hspoke⟩
    rcases List.mem_append.1 hj with hj | hj
    · exact h.1.opens j hj
    · exact List.mem_singleton.1 hj ▸ h.2
  · next hopen => exact ⟨hbounded, fun hspoke => hcalm hspoke (not_not.1 hopen)⟩

theorem openTextBlockIfNeeded_calm (outputIndex contentIndex : Val) :
    Hoare observe (Calm next opens) (openTextBlockIfNeeded outputIndex contentIndex)
      fun _ => Calm next opens :=
  (Hoare.ofExcept _).bind fun key => (blockIndexFor_calm key).bind fun i =>
    (openBlockIfNeeded_calm i _).bind fun _ _ _ h => h

theorem openThinkingBlockIfNeeded_calm (outputIndex : Val) :
    Hoare observe (Calm next opens) (openThinkingBlockIfNeeded outputIndex)
      fun _ => Calm next opens :=
  (Hoare.ofExcept _).bind fun key => (blockIndexFor_calm key).bind fun i =>
    (openBlockIfNeeded_calm i _).bind fun _ _ _ h => h

theorem openFunctionCallBlock_calm (outputIndex : MapKey) (toolCallId name : Val) :
    Hoare observe (Calm next opens) (openFunctionCallBlock outputIndex toolCallId name)
      fun _ => Calm next opens :=
  (functionCallFor_calm outputIndex toolCallId name).bind fun call =>
    (openBlockIfNeeded_calm call.blockIndex _).bind fun _ _ _ h => h

theorem markDelta_calm (i : ℕ) :
    Hoare observe (Calm next opens) (markDelta i) fun _ => Calm next opens :=
  fun _ _ h => h.congr rfl rfl rfl fun _ call hcall => ⟨call, hcall, rfl⟩

theorem sendDelta_markDelta_calm (i : ℕ) (delta : BlockDelta) :
    Hoare observe (Calm next opens) (do sendDelta i delta; markDelta i) fun _ =>
      Calm next opens :=
  (emit_calm _).bind fun _ => markDelta_calm i

theorem current_calm :
    Hoare observe (Calm next opens) (current : ResponsesTranslator ResponsesStreamState)
      fun _ => Calm next opens :=
  fun _ _ h => h

theorem completed_calm :
    Hoare observe (Calm next opens)
      (update fun s => { s with messageCompleted := true } : ResponsesTranslator Unit)
      fun _ => Calm next opens :=
  fun _ _ h => h.congr rfl rfl rfl fun _ call hcall => ⟨call, hcall, rfl⟩

theorem handleFunctionCallArgumentsValidationError_calm (reason : String) :
    Hoare observe (Calm next opens) (handleFunctionCallArgumentsValidationError reason)
      fun _ => Calm next opens :=
  closeAllOpenBlocks_calm.bind fun _ => completed_calm.bind fun _ => emit_calm _

theorem sendArguments_calm (outputIndex : MapKey) (i : ℕ) (delta : Val) :
    Hoare observe (Calm next opens) (sendArguments outputIndex i delta) fun _ =>
      Calm next opens := by
  intro s spoke h
  rw [sendArguments, wp_bind, wp_current]
  cases hget : s.functionCallStateByOutputIndex.get outputIndex with
  | none => exact handleFunctionCallArgumentsValidationError_calm _ s spoke h
  | some call =>
    dsimp only
    rw [wp_bind, wp_ofExcept]
    intro chars _
    split
    · exact handleFunctionCallArgumentsValidationError_calm _ s spoke h
    · rw [wp_bind, wp_update]
      -- the call keeps its block
      refine sendDelta_markDelta_calm i _ _ spoke (h.congr rfl rfl rfl fun k call' hcall => ?_)
      by_cases hk : k = outputIndex
      · subst hk
        rw [Entries.get_set_self] at hcall
        obtain rfl := Option.some.inj hcall
        exact ⟨call, hget, rfl⟩
      · rw [Entries.get_set_of_ne _ _ hk] at hcall
        exact ⟨call', hcall, rfl⟩

/-! ## The handlers -/

theorem handleResponseCreated_calm (rawEvent : Json) :
    Hoare observe (Calm next opens) (handleResponseCreated rawEvent) fun _ =>
      Calm next opens := by
  unfold handleResponseCreated
  split
  · exact fun _ _ h => h
  · refine Hoare.bind (S := fun _ => Calm next opens) ?_ fun _ => current_calm.bind fun s =>
      (Hoare.ofExcept _).bind fun usage => emit_calm _
    exact fun _ _ h => h.congr rfl rfl rfl fun _ call hcall => ⟨call, hcall, rfl⟩

theorem handleOutputItemAdded_calm (frame : ℕ) (rawEvent : Json) :
    Hoare observe (Calm next opens) (handleOutputItemAdded frame rawEvent) fun _ =>
      Calm next opens := by
  unfold handleOutputItemAdded
  split
  · exact fun _ _ h => h
  · exact (openFunctionCallBlock_calm _ _ _).bind fun i => (Hoare.ofExcept _).bind fun _ =>
      .when (sendDelta_markDelta_calm i _)

theorem handleOutputItemDone_calm (rawEvent : Json) :
    Hoare observe (Calm next opens) (handleOutputItemDone rawEvent) fun _ =>
      Calm next opens := by
  unfold handleOutputItemDone
  split
  · exact fun _ _ h => h
  · dsimp only
    split
    · exact .when <| (openThinkingBlockIfNeeded_calm _).bind fun i => current_calm.bind fun s =>
        (Hoare.when (emit_calm _)).bind fun _ => (Hoare.ofExcept _).bind fun _ =>
          sendDelta_markDelta_calm i _
    · exact (openThinkingBlockIfNeeded_calm _).bind fun i => (Hoare.ofExcept _).bind fun _ =>
        (Hoare.when (emit_calm _)).bind fun _ => sendDelta_markDelta_calm i _
    · exact fun _ _ h => h

theorem handleFunctionCallArgumentsDelta_calm (frame : ℕ) (rawEvent : Json) :
    Hoare observe (Calm next opens) (handleFunctionCallArgumentsDelta frame rawEvent) fun _ =>
      Calm next opens :=
  .when <| (openFunctionCallBlock_calm _ _ _).bind fun i => sendArguments_calm _ i _

theorem handleFunctionCallArgumentsDone_calm (frame : ℕ) (rawEvent : Json) :
    Hoare observe (Calm next opens) (handleFunctionCallArgumentsDone frame rawEvent) fun _ =>
      Calm next opens := by
  refine (openFunctionCallBlock_calm _ _ _).bind fun i => current_calm.bind fun s =>
    (Hoare.when (sendDelta_markDelta_calm i _)).bind fun _ s spoke h => ?_
  rw [wp_update]
  refine h.congr rfl rfl rfl fun k call hcall => ?_
  by_cases hk : k = mapKey frame (rawEvent.get "output_index")
  · rw [hk, Entries.get_delete_self] at hcall
    cases hcall
  · rw [Entries.get_delete_of_ne _ hk] at hcall
    exact ⟨call, hcall, rfl⟩

theorem handleOutputTextDelta_calm (rawEvent : Json) :
    Hoare observe (Calm next opens) (handleOutputTextDelta rawEvent) fun _ => Calm next opens :=
  .when <| (openTextBlockIfNeeded_calm _ _).bind fun i => sendDelta_markDelta_calm i _

theorem handleReasoningSummaryTextDelta_calm (rawEvent : Json) :
    Hoare observe (Calm next opens) (handleReasoningSummaryTextDelta rawEvent) fun _ =>
      Calm next opens :=
  (openThinkingBlockIfNeeded_calm _).bind fun i => sendDelta_markDelta_calm i _

theorem handleReasoningSummaryTextDone_calm (rawEvent : Json) :
    Hoare observe (Calm next opens) (handleReasoningSummaryTextDone rawEvent) fun _ =>
      Calm next opens :=
  (openThinkingBlockIfNeeded_calm _).bind fun _ => current_calm.bind fun _ =>
    .when (emit_calm _)

theorem handleOutputTextDone_calm (rawEvent : Json) :
    Hoare observe (Calm next opens) (handleOutputTextDone rawEvent) fun _ => Calm next opens :=
  (openTextBlockIfNeeded_calm _ _).bind fun _ => current_calm.bind fun _ =>
    .when (emit_calm _)

theorem handleResponseCompleted_calm (parse : String → Option Json) (type : String)
    (rawEvent : Json) :
    Hoare observe (Calm next opens) (handleResponseCompleted parse type rawEvent) fun _ =>
      Calm next opens := by
  refine closeAllOpenBlocks_calm.bind fun _ => ?_
  dsimp only
  split
  · exact (emit_calm _).bind fun _ => completed_calm
  · exact (Hoare.ofExcept _).bind fun _ => (emit_calm _).bind fun _ => completed_calm

theorem dispatch_calm (parse : String → Option Json) (frame : ℕ) (rawEvent : Json) :
    Hoare observe (Calm next opens) (dispatchResponsesStreamEvent parse frame rawEvent) fun _ =>
      Calm next opens := by
  unfold dispatchResponsesStreamEvent
  split
  · exact handleResponseCreated_calm _
  · exact handleOutputItemAdded_calm _ _
  · exact handleReasoningSummaryTextDelta_calm _
  · exact handleOutputTextDelta_calm _
  · exact handleReasoningSummaryTextDone_calm _
  · exact handleOutputTextDone_calm _
  · exact handleOutputItemDone_calm _
  · exact handleFunctionCallArgumentsDelta_calm _ _
  · exact handleFunctionCallArgumentsDone_calm _ _
  · exact handleResponseCompleted_calm _ _ _
  · exact handleResponseCompleted_calm _ _ _
  · exact closeAllOpenBlocks_calm.bind fun _ => (emit_calm _).bind fun _ => completed_calm
  · exact completed_calm.bind fun _ => emit_calm _
  · exact fun _ _ h => h

end ResponsesSilence

open ResponsesSilence

theorem translateResponsesStreamEvent_calm (parse : String → Option Json) (rawEvent : RawEvent)
    (next : ℕ) (opens : List ℕ) :
    Hoare observe (Calm next opens) (translateResponsesStreamEvent parse rawEvent) fun _ =>
      Calm next opens :=
  .when (dispatch_calm parse rawEvent.identity rawEvent.value)

variable {parse : String → Option Json} {s s' : ResponsesStreamState}

theorem bounded_of_reachable {estimatedInputTokens : Option Number}
    (h : Reachable (translateResponsesStreamEvent parse)
      (createResponsesStreamState estimatedInputTokens) s) : Bounded s := by
  refine h.invariant (bounded_init _) fun rawEvent s s' os hs hstep => ?_
  have hcalm : Calm s.nextContentBlockIndex s.openBlocks s false := ⟨hs, fun _ => ⟨rfl, rfl⟩⟩
  exact (wp_apply (translateResponsesStreamEvent_calm parse rawEvent _ _ s false hcalm) hstep).1

/-- A frame from which nothing is emitted takes no index and leaves the open blocks alone. -/
theorem unchanged_of_silent (h : Bounded s) {rawEvent : RawEvent}
    (hstep : translateResponsesStreamEvent parse rawEvent s = .ok ((), s', [])) :
    s'.nextContentBlockIndex = s.nextContentBlockIndex ∧ s'.openBlocks = s.openBlocks := by
  have hcalm : Calm s.nextContentBlockIndex s.openBlocks s false := ⟨h, fun _ => ⟨rfl, rfl⟩⟩
  exact (wp_apply (translateResponsesStreamEvent_calm parse rawEvent _ _ s false hcalm) hstep).2 rfl

end Maximal.Responses
