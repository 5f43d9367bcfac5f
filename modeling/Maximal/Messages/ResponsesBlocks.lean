import Maximal.Messages.ResponsesStreamTranslation

namespace Maximal.Responses

open Js Emitter Blocks AnthropicStreamEventData

namespace ResponsesBlocks

def observe (c : Scan (Option ℕ) BlockKind) (e : AnthropicStreamEventData) :
    Scan (Option ℕ) BlockKind :=
  Scan.step (fun _ _ => True) c e.bounded

theorem foldl_observe (c : Scan (Option ℕ) BlockKind) (events : List AnthropicStreamEventData) :
    events.foldl observe c =
      ⟨openAfter c.blocks (events.map bounded), c.opened ++ opens (events.map bounded),
        c.disciplined ∧ Disciplined (fun _ _ => True) c.blocks (events.map bounded)⟩ := by
  rw [← foldl_scan, List.foldl_map]
  rfl

/-- State and observed stream agree on the open block. -/
structure At (o : Option ℕ) (s : ResponsesStreamState) (c : Scan (Option ℕ) BlockKind) :
    Prop where
  disciplined : c.disciplined
  openBlocks : s.openBlocks = o.toList
  blocks : c.blocks.map Prod.fst = o.toList.map some

variable {o : Option ℕ} {i : ℕ} {s s' : ResponsesStreamState} {c : Scan (Option ℕ) BlockKind}

theorem At.exists_kind (h : At (some i) s c) : ∃ k, c.blocks = [(some i, k)] := by
  have hb := h.blocks
  simp only [Option.toList_some, List.map_cons, List.map_nil] at hb
  obtain ⟨⟨j, k⟩, rest, hc, rfl, hrest⟩ := List.map_eq_cons_iff.1 hb
  rw [List.map_eq_nil_iff.1 hrest] at hc
  exact ⟨k, hc⟩

theorem At.blocks_nil (h : At none s c) : c.blocks = [] := List.map_eq_nil_iff.1 h.blocks

theorem At.start (h : At none s c) (b : ContentBlock) (hs : s'.openBlocks = [i]) :
    At (some i) s' (observe c (.contentBlockStart i b)) where
  disciplined := ⟨h.disciplined, h.blocks_nil⟩
  openBlocks := hs
  blocks := by simp [observe, Scan.step, bounded, endsMessage, block, track, h.blocks_nil]

theorem At.stop (h : At (some i) s c) (hs : s'.openBlocks = []) :
    At none s' (observe c (.contentBlockStop i)) where
  disciplined := ⟨h.disciplined, h.exists_kind⟩
  openBlocks := hs
  blocks := by
    obtain ⟨k, hk⟩ := h.exists_kind
    simp [observe, Scan.step, bounded, endsMessage, block, track, hk]

theorem At.delta (h : At (some i) s c) (d : BlockDelta) :
    At (some i) s (observe c (.contentBlockDelta (.at i) d)) where
  disciplined := by
    obtain ⟨k, hk⟩ := h.exists_kind
    exact ⟨h.disciplined, k, hk, trivial⟩
  openBlocks := h.openBlocks
  blocks := h.blocks

theorem At.messageEnd (h : At none s c) {e : AnthropicStreamEventData} (he : e.endsMessage) :
    At none s (observe c e) where
  disciplined := by
    refine ⟨h.disciplined, ?_⟩
    rw [bounded, if_pos he]
    exact h.blocks_nil
  openBlocks := h.openBlocks
  blocks := by
    rw [observe, Scan.step, bounded, if_pos he]
    exact h.blocks

theorem At.other (h : At o s c) {e : AnthropicStreamEventData} (he : e.bounded = .other) :
    At o s (observe c e) where
  disciplined := by
    refine ⟨h.disciplined, ?_⟩
    rw [he]
    trivial
  openBlocks := h.openBlocks
  blocks := by
    rw [observe, Scan.step, he]
    exact h.blocks

theorem At.error (h : At o s c) (message : String) : At o s (observe c (.error message)) :=
  h.other rfl

theorem At.messageStart (h : At o s c) (id model : Val) (usage : Usage) :
    At o s (observe c (.messageStart id model usage)) :=
  h.other rfl

theorem At.congr (h : At o s c) (hs : s'.openBlocks = s.openBlocks) : At o s' c :=
  ⟨h.disciplined, hs.trans h.openBlocks, h.blocks⟩

/-! ## The helpers -/

theorem closeBlockIfOpen_hoare :
    Hoare observe (At (some i)) (closeBlockIfOpen i) fun _ => At none := by
  intro s c h
  simp only [closeBlockIfOpen, wp_bind, wp_current, wp_when, wp_emit, wp_update]
  rw [if_pos (by simp [h.openBlocks])]
  exact h.stop (by simp [h.openBlocks])

theorem closeOpenBlocks_hoare : Hoare observe (At o) closeOpenBlocks fun _ => At none := by
  intro s c h
  rw [closeOpenBlocks, wp_bind, wp_current, h.openBlocks]
  cases o with
  | none => exact h
  | some i =>
    refine closeBlockIfOpen_hoare.bind (fun _ => ?_) s c h
    exact fun _ _ h => h

theorem closeAllOpenBlocks_hoare : Hoare observe (At o) closeAllOpenBlocks fun _ => At none :=
  closeOpenBlocks_hoare.bind fun _ _ _ h => h.congr rfl

theorem blockIndexFor_hoare (key : String) :
    Hoare observe (At o) (blockIndexFor key) fun _ => At o := by
  intro s c h
  rw [blockIndexFor, wp_bind, wp_current]
  cases s.blockIndexByKey.get key with
  | some i => exact h
  | none => exact h.congr rfl

theorem openBlockIfNeeded_hoare (b : ContentBlock) :
    Hoare observe (At o) (openBlockIfNeeded i b) fun _ => At (some i) := by
  intro s c h
  rw [openBlockIfNeeded, wp_bind, wp_current, wp_when]
  by_cases hi : o = some i
  · rw [if_neg (by simp [h.openBlocks, hi])]
    exact hi ▸ h
  · have hi' : i ∉ s.openBlocks := by
      rw [h.openBlocks, Option.mem_toList]
      exact hi
    rw [if_pos hi']
    refine closeOpenBlocks_hoare.bind (fun _ => ?_) s c h
    intro s c h
    exact h.start b (by simp [h.openBlocks])

theorem openTextBlockIfNeeded_hoare (outputIndex contentIndex : Val) :
    Hoare observe (At o) (openTextBlockIfNeeded outputIndex contentIndex) fun i => At (some i) := by
  intro s c h
  rw [openTextBlockIfNeeded, wp_bind, wp_ofExcept]
  intro key _
  refine (blockIndexFor_hoare key).bind (fun i => ?_) s c h
  exact (openBlockIfNeeded_hoare _).bind fun _ _ _ h => h

theorem openThinkingBlockIfNeeded_hoare (outputIndex : Val) :
    Hoare observe (At o) (openThinkingBlockIfNeeded outputIndex) fun i => At (some i) := by
  intro s c h
  rw [openThinkingBlockIfNeeded, wp_bind, wp_ofExcept]
  intro key _
  refine (blockIndexFor_hoare key).bind (fun i => ?_) s c h
  exact (openBlockIfNeeded_hoare _).bind fun _ _ _ h => h

theorem functionCallFor_hoare (outputIndex : MapKey) (toolCallId name : Val) :
    Hoare observe (At o) (functionCallFor outputIndex toolCallId name) fun _ => At o := by
  intro s c h
  rw [functionCallFor, wp_bind, wp_current]
  cases s.functionCallStateByOutputIndex.get outputIndex with
  | some call => exact h
  | none => exact h.congr rfl

theorem openFunctionCallBlock_hoare (outputIndex : MapKey) (toolCallId name : Val) :
    Hoare observe (At o) (openFunctionCallBlock outputIndex toolCallId name)
      fun i => At (some i) :=
  (functionCallFor_hoare outputIndex toolCallId name).bind fun _ =>
    (openBlockIfNeeded_hoare _).bind fun _ _ _ h => h

theorem sendDelta_hoare (d : BlockDelta) :
    Hoare observe (At (some i)) (sendDelta i d) fun _ => At (some i) :=
  fun _ _ h => h.delta d

theorem markDelta_hoare : Hoare observe (At o) (markDelta i) fun _ => At o :=
  fun _ _ h => h.congr rfl

/-- A delta into the open block, noted as sent. -/
theorem sendDelta_markDelta_hoare (d : BlockDelta) :
    Hoare observe (At (some i)) (do sendDelta i d; markDelta i) fun _ => At (some i) :=
  (sendDelta_hoare d).bind fun _ => markDelta_hoare

theorem handleFunctionCallArgumentsValidationError_hoare (reason : String) :
    Hoare observe (At o) (handleFunctionCallArgumentsValidationError reason)
      fun _ => At none := by
  refine closeAllOpenBlocks_hoare.bind fun _ s c h => ?_
  exact (h.error reason).congr rfl

/-! ## The handlers -/

/-- Some block is open, or none, on which the state and the emitted stream agree. -/
def Inv (s : ResponsesStreamState) (c : Scan (Option ℕ) BlockKind) : Prop := ∃ o, At o s c

theorem handleResponseCreated_hoare (rawEvent : Json) :
    Hoare observe (At o) (handleResponseCreated rawEvent) fun _ => At o := by
  intro s c h
  rw [handleResponseCreated]
  split
  · exact h
  · simp only [messageStart, wp_bind, wp_update, wp_current, wp_ofExcept, wp_emit]
    intro usage _
    exact (h.messageStart _ _ usage).congr rfl

theorem handleOutputItemAdded_hoare (frame : ℕ) (rawEvent : Json) :
    Hoare observe (At o) (handleOutputItemAdded frame rawEvent) fun _ => Inv := by
  intro s c h
  rw [handleOutputItemAdded]
  split
  · exact ⟨o, h⟩
  · refine (openFunctionCallBlock_hoare _ _ _).bind (fun i s c h => ?_) s c h
    rw [wp_bind, wp_ofExcept]
    intro _ _
    exact (Hoare.when (sendDelta_markDelta_hoare _)).apply h fun _ _ _ h => ⟨_, h⟩

theorem handleOutputItemDone_hoare (rawEvent : Json) :
    Hoare observe (At o) (handleOutputItemDone rawEvent) fun _ => Inv := by
  intro s c h
  rw [handleOutputItemDone]
  split
  · exact ⟨o, h⟩
  · split
    · rw [handleCompactionDone, wp_when]
      split
      · refine (openThinkingBlockIfNeeded_hoare _).bind (fun i s c h => ?_) s c h
        rw [wp_bind, wp_current, wp_bind]
        refine (Hoare.when (sendDelta_hoare _)).apply h fun _ s c h => ?_
        rw [wp_bind, wp_ofExcept]
        intro _ _
        exact (sendDelta_markDelta_hoare _).apply h fun _ _ _ h => ⟨_, h⟩
      · exact ⟨o, h⟩
    · refine (openThinkingBlockIfNeeded_hoare _).bind (fun i s c h => ?_) s c h
      rw [wp_bind, wp_ofExcept]
      intro _ _
      rw [wp_bind]
      refine (Hoare.when (sendDelta_hoare _)).apply h fun _ s c h => ?_
      exact (sendDelta_markDelta_hoare _).apply h fun _ _ _ h => ⟨_, h⟩
    · exact ⟨o, h⟩

theorem handleFunctionCallArgumentsDelta_hoare (frame : ℕ) (rawEvent : Json) :
    Hoare observe (At o) (handleFunctionCallArgumentsDelta frame rawEvent) fun _ => Inv := by
  intro s c h
  rw [handleFunctionCallArgumentsDelta, wp_when]
  split
  · refine (openFunctionCallBlock_hoare _ _ _).bind (fun i s c h => ?_) s c h
    rw [sendArguments, wp_bind, wp_current]
    split
    · exact (handleFunctionCallArgumentsValidationError_hoare _).apply h fun _ _ _ h => ⟨_, h⟩
    · rw [wp_bind, wp_ofExcept]
      intro chars _
      split
      · exact (handleFunctionCallArgumentsValidationError_hoare _).apply h fun _ _ _ h => ⟨_, h⟩
      · rw [wp_bind, wp_update]
        exact (sendDelta_markDelta_hoare _).apply (h.congr rfl) fun _ _ _ h => ⟨_, h⟩
  · exact ⟨o, h⟩

theorem handleFunctionCallArgumentsDone_hoare (frame : ℕ) (rawEvent : Json) :
    Hoare observe (At o) (handleFunctionCallArgumentsDone frame rawEvent) fun _ => Inv := by
  refine (openFunctionCallBlock_hoare _ _ _).bind fun i s c h => ?_
  rw [wp_bind, wp_current, wp_bind]
  exact (Hoare.when (sendDelta_markDelta_hoare _)).apply h fun _ _ _ h => ⟨_, h.congr rfl⟩

theorem handleOutputTextDelta_hoare (rawEvent : Json) :
    Hoare observe (At o) (handleOutputTextDelta rawEvent) fun _ => Inv := by
  intro s c h
  rw [handleOutputTextDelta, wp_when]
  split
  · refine (openTextBlockIfNeeded_hoare _ _).bind (fun i s c h => ?_) s c h
    exact (sendDelta_markDelta_hoare _).apply h fun _ _ _ h => ⟨_, h⟩
  · exact ⟨o, h⟩

theorem handleReasoningSummaryTextDelta_hoare (rawEvent : Json) :
    Hoare observe (At o) (handleReasoningSummaryTextDelta rawEvent) fun _ => Inv := by
  refine (openThinkingBlockIfNeeded_hoare _).bind fun i s c h => ?_
  exact (sendDelta_markDelta_hoare _).apply h fun _ _ _ h => ⟨_, h⟩

theorem handleReasoningSummaryTextDone_hoare (rawEvent : Json) :
    Hoare observe (At o) (handleReasoningSummaryTextDone rawEvent) fun _ => Inv := by
  refine (openThinkingBlockIfNeeded_hoare _).bind fun i s c h => ?_
  rw [wp_bind, wp_current]
  exact (Hoare.when (sendDelta_hoare _)).apply h fun _ _ _ h => ⟨_, h⟩

theorem handleOutputTextDone_hoare (rawEvent : Json) :
    Hoare observe (At o) (handleOutputTextDone rawEvent) fun _ => Inv := by
  refine (openTextBlockIfNeeded_hoare _ _).bind fun i s c h => ?_
  rw [wp_bind, wp_current]
  exact (Hoare.when (sendDelta_hoare _)).apply h fun _ _ _ h => ⟨_, h⟩

theorem handleResponseCompleted_hoare (parse : String → Option Json) (type : String)
    (rawEvent : Json) :
    Hoare observe (At o) (handleResponseCompleted parse type rawEvent) fun _ => Inv := by
  refine closeAllOpenBlocks_hoare.bind fun _ s c h => ?_
  cases Val.asRecord (rawEvent.get "response") with
  | none => exact ⟨none, (h.other rfl).congr rfl⟩
  | some response =>
    simp only [wp_bind, wp_ofExcept, wp_emit, wp_update]
    intro anthropic _
    exact ⟨none, ((h.messageEnd rfl).messageEnd rfl).congr rfl⟩

theorem handleResponseFailed_hoare (rawEvent : Json) :
    Hoare observe (At o) (handleResponseFailed rawEvent) fun _ => Inv := by
  refine closeAllOpenBlocks_hoare.bind fun _ s c h => ?_
  exact ⟨none, (h.other rfl).congr rfl⟩

theorem handleErrorEvent_hoare (rawEvent : Json) :
    Hoare observe (At o) (handleErrorEvent rawEvent) fun _ => Inv :=
  fun _ _ h => ⟨o, (h.error _).congr rfl⟩

theorem translateResponsesStreamEvent_hoare (parse : String → Option Json) (rawEvent : RawEvent) :
    Hoare observe Inv (translateResponsesStreamEvent parse rawEvent) fun _ => Inv := by
  rintro s c ⟨o, h⟩
  rw [translateResponsesStreamEvent, wp_when]
  split
  · unfold dispatchResponsesStreamEvent
    split
    · exact (handleResponseCreated_hoare _).apply h fun _ _ _ h => ⟨_, h⟩
    · exact handleOutputItemAdded_hoare _ _ s c h
    · exact handleReasoningSummaryTextDelta_hoare _ s c h
    · exact handleOutputTextDelta_hoare _ s c h
    · exact handleReasoningSummaryTextDone_hoare _ s c h
    · exact handleOutputTextDone_hoare _ s c h
    · exact handleOutputItemDone_hoare _ s c h
    · exact handleFunctionCallArgumentsDelta_hoare _ _ s c h
    · exact handleFunctionCallArgumentsDone_hoare _ _ s c h
    · exact handleResponseCompleted_hoare _ _ _ s c h
    · exact handleResponseCompleted_hoare _ _ _ s c h
    · exact handleResponseFailed_hoare _ s c h
    · exact handleErrorEvent_hoare _ s c h
    · exact ⟨o, h⟩
  · exact ⟨o, h⟩

end ResponsesBlocks

/-- However a run of frames ends, the emitted stream has one block open at a time, addresses no
other, ends messages with no block open, and its open blocks are those of the state. -/
theorem responses_run_blockDiscipline (parse : String → Option Json)
    (estimatedInputTokens : Option Number) (rawEvents : List RawEvent) :
    let out := run (translateResponsesStreamEvent parse)
      (createResponsesStreamState estimatedInputTokens) rawEvents
    Disciplined (fun _ _ => True) [] (out.outputs.map bounded) ∧
      out.state.openBlocks.map some =
        (openAfter [] (out.outputs.map bounded)).map Prod.fst := by
  obtain ⟨o, h⟩ := run_invariant_of_step
    (ResponsesBlocks.translateResponsesStreamEvent_hoare parse) rawEvents
    (s := createResponsesStreamState estimatedInputTokens) (m := Scan.init)
    ⟨none, trivial, rfl, rfl⟩
  have hdis := h.disciplined
  have hblocks := h.blocks
  rw [ResponsesBlocks.foldl_observe] at hdis hblocks
  exact ⟨hdis.2, by rw [h.openBlocks]; exact hblocks.symm⟩

end Maximal.Responses
