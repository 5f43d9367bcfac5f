import Maximal.Messages.ChunkBlocks

/-!
# Chunks that the translator tolerates

A chunk is any JSON value. The translator throws when a length or a count it reads is not
printable, or the index of a tool call is not; which of them it reads depends on the blocks that
are open.

## Main definitions

- `AnthropicStreamState.Sound` — what holds of the open blocks in every reachable state
- `AnthropicStreamState.tolerates` — the chunks on which the translator returns
- `ChunkTolerance.Calm` — sound, and no block touched unless something was emitted

## Main results

- `isOk_translateChunkToAnthropicEvents` — the translator returns exactly on those chunks
- `translateChunkToAnthropicEvents_calm` — every chunk leaves the state calm
-/

namespace Maximal

open Js Emitter

/-! ## What is tolerated -/

/-- `v.length` converts to a number, if it is read at all. -/
def lengthTolerated (v : Val) : Bool := !v.truthy || (v.optProp "length").printable

def chunkUsageTolerated (chunk : Json) : Bool :=
  let usage := chunk.get "usage"
  let cached := (usage.optProp "prompt_tokens_details").optProp "cached_tokens"
  let zero := Json.number (.ofNat 0)
  ((usage.optProp "prompt_tokens").orElse zero).printable && (cached.orElse zero).printable

/-- The index of an entry is read when it announces a call or brings arguments. -/
def callTolerated (call : Json) : Bool :=
  !(call.isRecord && (startsToolCall call || continuesToolCall call)) ||
    (call.get "index").printable

namespace AnthropicStreamState

/-- What later handlers see of a delta. -/
def sentDelta (state : AnthropicStreamState) (delta : Delta) : Delta :=
  if nonEmpty delta.reasoningText && state.contentBlockOpen then
    { delta with content := delta.reasoningText, reasoningText := none }
  else delta

/-- A block that is no tool call is open once the content is handled. -/
def leavesTextOpen (state : AnthropicStreamState) (delta : Delta) : Bool :=
  nonEmpty (state.sentDelta delta).content || state.contentBlockOpen && !state.isToolBlockOpen

def tolerates (state : AnthropicStreamState) (chunk : Json) : Bool :=
  match readTranslatableChoice chunk with
  | none => true
  | some (choice, delta) =>
    let content := (state.sentDelta delta).content
    (state.messageStartSent || chunkUsageTolerated chunk) &&
    (lengthTolerated delta.reasoningText &&
    ((lengthTolerated content &&
      (content.asString ≠ some "" || lengthTolerated delta.reasoningOpaque)) &&
    ((!delta.hasToolCalls || lengthTolerated delta.reasoningOpaque &&
      (delta.toolCalls.asArray.getD []).all callTolerated) &&
    (choice.finish.isNone || chunkUsageTolerated chunk &&
      (delta.hasToolCalls || !state.leavesTextOpen delta ||
        lengthTolerated delta.reasoningOpaque)))))

/-- Thinking and content are not open together, and tool calls have indices already used. -/
structure Sound (state : AnthropicStreamState) : Prop where
  exclusive : state.thinkingBlockOpen = true → state.contentBlockOpen = false
  below : ∀ e ∈ state.toolCalls.entries, e.2.anthropicBlockIndex ≤ state.contentBlockIndex
  used : state.contentBlockOpen = false → ∀ e ∈ state.toolCalls.entries,
    e.2.anthropicBlockIndex < state.contentBlockIndex

/-- All known indices are below the one after the current block. -/
theorem Sound.below_succ {state : AnthropicStreamState} (h : Sound state) :
    ∀ e ∈ state.toolCalls.entries, e.2.anthropicBlockIndex < state.contentBlockIndex + 1 :=
  fun e he => Nat.lt_succ_of_le (h.below e he)

theorem sound_fresh : Sound fresh where
  exclusive := by simp [fresh]
  below := by simp [fresh, ToolCalls.empty]
  used := by simp [fresh, ToolCalls.empty]

end AnthropicStreamState

open AnthropicStreamState

namespace ChunkTolerance

/-- An observer that notices whether anything was emitted. -/
def observe (_ : Bool) (_ : AnthropicStreamEventData) : Bool := true

/-- The parts of the state that know about blocks. -/
def SameBlocks (s₀ s : AnthropicStreamState) : Prop :=
  s.contentBlockIndex = s₀.contentBlockIndex ∧ s.contentBlockOpen = s₀.contentBlockOpen ∧
    s.thinkingBlockOpen = s₀.thinkingBlockOpen

/-- Unless something was emitted, no block was touched. -/
def Calm (s₀ s : AnthropicStreamState) (spoke : Bool) : Prop :=
  Sound s ∧ (spoke = false → SameBlocks s₀ s)

/-- The same, after the thinking block was closed. -/
def Quiet (s₀ s : AnthropicStreamState) (spoke : Bool) : Prop :=
  Calm s₀ s spoke ∧ s.thinkingBlockOpen = false

variable {s₀ s s' : AnthropicStreamState} {spoke : Bool}

theorem emit_calm (events : List AnthropicStreamEventData) :
    Hoare observe (Calm s₀) (emit events : ChunkTranslator Unit) fun _ => Calm s₀ :=
  .emit (fun _ _ _ h => ⟨h.1, nofun⟩) events

/-- After an emission only soundness matters. -/
theorem calm_of_sound (h : Sound s) : Calm s₀ s true := ⟨h, fun hspoke => by cases hspoke⟩

theorem handleMessageStart_calm (chunk : Json) :
    Hoare observe (Calm s₀) (handleMessageStart chunk) fun _ => Calm s₀ := by
  intro s spoke h
  simp only [handleMessageStart, wp_bind, wp_current, wp_when, wp_ofExcept, wp_emit, wp_update]
  split
  · exact fun usage _ => calm_of_sound { h.1 with }
  · exact h

/-- Closing the content block leaves all known indices below the next one. -/
theorem stopContentBlock_calm :
    Hoare observe (fun s _ => Sound s ∧ s.thinkingBlockOpen = false) stopContentBlock
      fun _ s spoke => Quiet s₀ s spoke ∧ s.contentBlockOpen = false := by
  rintro s spoke ⟨h, hthinking⟩
  rw [stopContentBlock, wp_bind, wp_current, wp_bind, wp_emit, wp_update]
  have hbelow := h.below_succ
  exact ⟨⟨calm_of_sound ⟨fun _ => rfl, fun e he => (hbelow e he).le, fun _ => hbelow⟩,
    hthinking⟩, rfl⟩

theorem closeThinkingBlockIfOpen_calm :
    Hoare observe (Calm s₀) closeThinkingBlockIfOpen fun _ => Quiet s₀ := by
  intro s spoke h
  simp only [closeThinkingBlockIfOpen, wp_bind, wp_current, wp_when, wp_emit, wp_update]
  split
  · have hbelow := h.1.below_succ
    exact ⟨calm_of_sound ⟨by simp, fun e he => (hbelow e he).le, fun _ => hbelow⟩, rfl⟩
  · next hthinking => exact ⟨h, by simpa using hthinking⟩

theorem handleThinkingText_calm (delta : Delta) :
    Hoare observe (Calm s₀) (handleThinkingText delta) fun _ => Calm s₀ := by
  intro s spoke h
  simp only [handleThinkingText, wp_bind, wp_ofExcept, wp_current, wp_ite, wp_pure, wp_when,
    wp_emit, wp_update]
  intro hasThinking _
  split
  · exact h
  · next hclosed =>
    split
    · next hthinking =>
      have hopen : s.contentBlockOpen = false := by simpa [hthinking] using hclosed
      split
      · exact calm_of_sound { h.1 with exclusive := fun _ => hopen }
      · exact calm_of_sound h.1
    · exact h

theorem closeToolBlockIfOpen_calm :
    Hoare observe (Quiet s₀) closeToolBlockIfOpen fun _ => Quiet s₀ := by
  intro s spoke h
  rw [closeToolBlockIfOpen, wp_bind, wp_current, wp_when]
  split
  · exact stopContentBlock_calm.apply ⟨h.1.1, h.2⟩ fun _ _ _ h => h.1
  · exact h

theorem sendContent_calm (delta : Delta) :
    Hoare observe (Calm s₀) (sendContent delta) fun _ => Calm s₀ := by
  intro s spoke h
  rw [sendContent, wp_bind, wp_ofExcept]
  intro hasContent _
  rw [wp_when]
  split
  · refine (closeThinkingBlockIfOpen_calm.bind fun _ => closeToolBlockIfOpen_calm.bind fun _ => ?_)
      s spoke h
    intro s spoke h
    simp only [openTextBlockIfNeeded, wp_bind, wp_current, wp_when, wp_emit, wp_update]
    have hsound := h.1.1
    split
    · have hthinking : s.thinkingBlockOpen = false := h.2
      exact calm_of_sound ⟨fun ht => (Bool.eq_false_iff.1 hthinking ht).elim, hsound.below, by simp⟩
    · exact calm_of_sound hsound
  · exact h

theorem signThinkingBlock_calm (delta : Delta) :
    Hoare observe (Calm s₀) (signThinkingBlock delta) fun _ => Calm s₀ := by
  intro s spoke h
  simp only [signThinkingBlock, wp_bind, wp_ofExcept, wp_when, wp_current, wp_emit, wp_update]
  split
  · intro hasOpaque _
    split
    · have hbelow := h.1.below_succ
      exact calm_of_sound ⟨by simp, fun e he => (hbelow e he).le, fun _ => hbelow⟩
    · exact h
  · exact h

theorem handleReasoningOpaque_calm (p : String) (delta : Delta) :
    Hoare observe (Quiet s₀) (handleReasoningOpaque p delta) fun _ => Quiet s₀ := by
  intro s spoke h
  simp only [handleReasoningOpaque, wp_bind, wp_ofExcept, wp_current, wp_when, wp_emit, wp_update]
  intro hasOpaque _
  split
  · have hbelow := h.1.1.below_succ
    exact ⟨calm_of_sound ⟨h.1.1.exclusive, fun e he => (hbelow e he).le, fun _ => hbelow⟩, h.2⟩
  · exact h

theorem startToolCall_calm (call : Json) :
    Hoare observe (Quiet s₀) (startToolCall call) fun _ => Quiet s₀ := by
  intro s spoke h
  rw [startToolCall, wp_when]
  split
  · have hclose : Hoare observe (Quiet s₀) closeContentBlockIfOpen fun _ s spoke =>
        Quiet s₀ s spoke ∧ s.contentBlockOpen = false := by
      intro s spoke h
      rw [closeContentBlockIfOpen, wp_bind, wp_current, wp_when]
      split
      · exact stopContentBlock_calm s spoke ⟨h.1.1, h.2⟩
      · next hopen => exact ⟨h, by simpa using hopen⟩
    rw [wp_bind]
    refine hclose.apply h fun _ s spoke hs => ?_
    obtain ⟨⟨⟨hsound, -⟩, hthinking⟩, hopen⟩ := hs
    simp only [wp_bind, wp_current, wp_ofExcept, wp_update, wp_emit]
    intro key _
    refine ⟨calm_of_sound ⟨fun ht => (Bool.eq_false_iff.1 hthinking ht).elim, fun e he => ?_,
      by simp⟩, hthinking⟩
    have hentry : e ∈ s.toolCalls.entries ∨ e.2.anthropicBlockIndex = s.contentBlockIndex := by
      by_cases hp : key = "__proto__"
      · subst hp
        exact .inl he
      · rw [ToolCalls.set_of_ne _ _ hp] at he
        rcases Entries.mem_set he with rfl | he
        · exact .inr rfl
        · exact .inl he
    exact hentry.elim (fun he => (hsound.used hopen e he).le) (fun he => he.le)
  · exact h

theorem quiet_of_emit {events : List AnthropicStreamEventData} (h : Quiet s₀ s spoke) :
    wp observe (emit events : ChunkTranslator Unit) (fun _ => Quiet s₀) s spoke :=
  ⟨emit_calm events s spoke h.1, h.2⟩

theorem handleToolCall_calm (call : Json) :
    Hoare observe (Quiet s₀) (handleToolCall call) fun _ => Quiet s₀ := by
  intro s spoke h
  rw [handleToolCall, wp_when]
  split
  · refine ((startToolCall_calm call).bind fun _ => ?_) s spoke h
    intro s spoke h
    rw [continueToolCall, wp_when]
    split
    · simp only [wp_bind, wp_ofExcept, wp_current]
      intro key _
      split
      · exact h
      · exact quiet_of_emit h
    · exact h
  · exact h

theorem handleToolCalls_calm (p : String) (delta : Delta) :
    Hoare observe (Calm s₀) (handleToolCalls p delta) fun _ => Calm s₀ := by
  intro s spoke h
  unfold handleToolCalls
  split
  · exact h
  · rw [wp_when]
    split
    · have hsignature : Hoare observe (Quiet s₀) (handleReasoningOpaqueInToolCalls p delta)
          fun _ => Quiet s₀ := by
        intro s spoke h
        rw [handleReasoningOpaqueInToolCalls, wp_bind, wp_current, wp_bind, wp_when]
        split
        · exact stopContentBlock_calm.apply ⟨h.1.1, h.2⟩ fun _ s spoke h =>
            handleReasoningOpaque_calm p delta s spoke h.1
        · exact handleReasoningOpaque_calm p delta s spoke h
      refine (closeThinkingBlockIfOpen_calm.bind fun _ => hsignature.bind fun _ => ?_) s spoke h
      exact (Hoare.forEach handleToolCall_calm _).consequence (fun _ _ h => h) fun _ _ _ h => h.1
    · exact h

theorem handleFinish_calm (p : String) (choice : Choice) (chunk : Json) (delta : Delta) :
    Hoare observe (Calm s₀) (handleFinish p choice chunk delta) fun _ => Calm s₀ := by
  intro s spoke h
  unfold handleFinish
  split
  · exact h
  · have hclose : Hoare observe (Calm s₀) (closeLastBlock p delta) fun _ => Calm s₀ := by
      intro s spoke h
      rw [closeLastBlock, wp_bind, wp_current, wp_when]
      split
      · next hopen =>
        have hthinking : s.thinkingBlockOpen = false := by
          by_contra ht
          rw [h.1.exclusive (by simpa using ht)] at hopen
          cases hopen
        rw [wp_bind]
        have hstop := @stopContentBlock_calm s₀
        refine hstop.apply ⟨h.1, hthinking⟩ fun _ s spoke h => ?_
        rw [wp_when]
        split
        · exact (handleReasoningOpaque_calm p delta).apply h.1 fun _ _ _ h => h.1
        · exact h.1.1
      · exact h
    rw [wp_bind]
    refine hclose.apply h fun _ s spoke h => ?_
    simp only [wp_bind, wp_ofExcept, wp_emit]
    exact fun usage _ => calm_of_sound h.1

end ChunkTolerance

open ChunkTolerance

theorem translateChunkToAnthropicEvents_calm (chunk : Json) (s₀ : AnthropicStreamState) :
    Hoare observe (Calm s₀) (translateChunkToAnthropicEvents chunk) fun _ => Calm s₀ := by
  unfold translateChunkToAnthropicEvents translateChunkWith
  split
  · exact fun _ _ h => h
  · exact (handleMessageStart_calm chunk).bind fun _ => (handleThinkingText_calm _).bind fun _ =>
      (sendContent_calm _).bind (fun _ => signThinkingBlock_calm _) |>.bind fun _ =>
        (handleToolCalls_calm _ _).bind fun _ => handleFinish_calm _ _ _ _

variable {s s' : AnthropicStreamState}

theorem sound_of_reachable (h : Reachable translateChunkToAnthropicEvents .fresh s) : Sound s := by
  refine h.invariant sound_fresh fun chunk s s' os hs hstep => ?_
  have hcalm : Calm s s false := ⟨hs, fun _ => ⟨rfl, rfl, rfl⟩⟩
  exact (wp_apply (translateChunkToAnthropicEvents_calm chunk s s false hcalm) hstep).1

/-- A chunk from which nothing is emitted touches no block. -/
theorem sameBlocks_of_silent (h : Sound s) {chunk : Json}
    (hstep : translateChunkToAnthropicEvents chunk s = .ok ((), s', [])) : SameBlocks s s' := by
  have hcalm : Calm s s false := ⟨h, fun _ => ⟨rfl, rfl, rfl⟩⟩
  exact (wp_apply (translateChunkToAnthropicEvents_calm chunk s s false hcalm) hstep).2 rfl

/-! ## When a chunk throws -/

namespace ChunkTolerance

variable {s : AnthropicStreamState}

theorem hasLength_failsIff (v : Val) :
    FailsIff (ofExcept v.hasLength : ChunkTranslator Bool) (lengthTolerated v = false) :=
  (FailsIff.ofExcept _).congr (by rw [Val.isOk_hasLength, lengthTolerated])

theorem chunkUsage_failsIff (chunk outputTokens : Json) :
    FailsIff (ofExcept (chunkUsage chunk outputTokens) : ChunkTranslator Usage)
      (chunkUsageTolerated chunk = false) := by
  refine (FailsIff.ofExcept _).congr ?_
  have husage : (chunkUsage chunk outputTokens).isOk = chunkUsageTolerated chunk := by
    refine Eq.trans ?_ (Val.isOk_minus (some _) (some _))
    rw [chunkUsage]
    cases Val.minus _ _ <;> rfl
  rw [husage]

theorem stopContentBlock_failsIff : FailsIff stopContentBlock False :=
  .after .current fun _ => .after (.emit _) fun _ => .update _

theorem closeThinkingBlockIfOpen_failsIff : FailsIff closeThinkingBlockIfOpen False :=
  .after .current fun _ => .when_total _ <| .after (.emit _) fun _ => .update _

theorem handleMessageStart_isOk (chunk : Json) :
    (handleMessageStart chunk s).isOk = false ↔
      (s.messageStartSent || chunkUsageTolerated chunk) = false := by
  have hstart : FailsIff (when (!s.messageStartSent) do
      let usage ← ofExcept (chunkUsage chunk (.number (.ofNat 0)))
      emit [.messageStart (chunk.get "id") (chunk.get "model") usage]
      update fun s => { s with messageStartSent := true } : ChunkTranslator Unit)
      ((!s.messageStartSent) = true ∧ chunkUsageTolerated chunk = false) :=
    .when _ <| .before (chunkUsage_failsIff _ _) fun _ => .after (.emit _) fun _ => .update _
  rw [handleMessageStart, isOk_current_bind, hstart s, Bool.or_eq_false_iff, Bool.not_eq_true']

theorem handleThinkingText_failsIff (delta : Delta) :
    FailsIff (handleThinkingText delta) (lengthTolerated delta.reasoningText = false) := by
  refine .before (hasLength_failsIff _) fun hasThinking => .after .current fun s => ?_
  split
  · exact .pure _
  · exact .after (.when_total _ <| .after (.when_total _ <| .after (.emit _) fun _ => .update _)
      fun _ => .emit _) fun _ => .pure _

theorem sendContent_failsIff (delta : Delta) :
    FailsIff (sendContent delta) (lengthTolerated delta.content = false) := by
  refine .before (hasLength_failsIff _) fun _ => .when_total _ ?_
  refine .after closeThinkingBlockIfOpen_failsIff fun _ => .after ?_ fun _ => .after ?_ fun _ =>
    .after .current fun _ => .emit _
  · exact .after .current fun _ => .when_total _ stopContentBlock_failsIff
  · exact .after .current fun _ => .when_total _ <| .after (.emit _) fun _ => .update _

theorem signThinkingBlock_failsIff (delta : Delta) :
    FailsIff (signThinkingBlock delta)
      (delta.content.asString = some "" ∧ lengthTolerated delta.reasoningOpaque = false) := by
  refine (FailsIff.when _ (.before (hasLength_failsIff _) fun _ => ?_))
  exact .after .current fun _ => .when_total _ <| .after (.emit _) fun _ => .update _

theorem handleContent_failsIff (delta : Delta) :
    FailsIff (handleContent delta) ((lengthTolerated delta.content &&
      (delta.content.asString ≠ some "" || lengthTolerated delta.reasoningOpaque)) = false) := by
  refine ((sendContent_failsIff delta).bind fun _ => signThinkingBlock_failsIff delta).congr ?_
  simp only [Bool.and_eq_false_iff, Bool.or_eq_false_iff, decide_eq_false_iff_not, not_not]

theorem handleReasoningOpaque_failsIff (p : String) (delta : Delta) :
    FailsIff (handleReasoningOpaque p delta) (lengthTolerated delta.reasoningOpaque = false) :=
  .before (hasLength_failsIff _) fun _ => .when_total _ <| .after .current fun _ =>
    .after (.emit _) fun _ => .update _

theorem index_failsIff (call : Json) :
    FailsIff (ofExcept (call.get "index").text : ChunkTranslator String)
      ((call.get "index").printable = false) :=
  (FailsIff.ofExcept _).congr (by rw [Val.isOk_text])

theorem startToolCall_failsIff (call : Json) :
    FailsIff (startToolCall call)
      (startsToolCall call = true ∧ (call.get "index").printable = false) := by
  refine FailsIff.when _ (.after ?_ fun _ => .after .current fun _ =>
    .before (index_failsIff call) fun _ => .after (.update _) fun _ => .emit _)
  exact .after .current fun _ => .when_total _ stopContentBlock_failsIff

theorem continueToolCall_failsIff (call : Json) :
    FailsIff (continueToolCall call)
      (continuesToolCall call = true ∧ (call.get "index").printable = false) := by
  refine FailsIff.when _ (.before (index_failsIff call) fun _ => .after .current fun _ => ?_)
  split
  · exact .pure _
  · exact .emit _

theorem handleToolCall_failsIff (call : Json) :
    FailsIff (handleToolCall call) (callTolerated call = false) := by
  refine (FailsIff.when _ ((startToolCall_failsIff call).bind fun _ =>
    continueToolCall_failsIff call)).congr ?_
  simp only [callTolerated, Bool.or_eq_false_iff, Bool.not_eq_false', Bool.and_eq_true,
    Bool.or_eq_true]
  tauto

theorem handleToolCalls_failsIff (p : String) (delta : Delta) :
    FailsIff (handleToolCalls p delta)
      ((!delta.hasToolCalls || lengthTolerated delta.reasoningOpaque &&
        (delta.toolCalls.asArray.getD []).all callTolerated) = false) := by
  unfold handleToolCalls
  cases hcalls : delta.toolCalls.asArray with
  | none => exact (FailsIff.pure ()).congr (by simp [Delta.hasToolCalls, hcalls])
  | some calls =>
    have hsignature : FailsIff (handleReasoningOpaqueInToolCalls p delta)
        (lengthTolerated delta.reasoningOpaque = false) :=
      .after .current fun _ => .after (.when_total _ stopContentBlock_failsIff) fun _ =>
        handleReasoningOpaque_failsIff p delta
    refine (FailsIff.when _ (.after closeThinkingBlockIfOpen_failsIff fun _ =>
      hsignature.bind fun _ => .forEach_exists handleToolCall_failsIff calls)).congr ?_
    simp only [Delta.hasToolCalls, hcalls, Option.any_some, Option.getD_some, Bool.or_eq_false_iff,
      Bool.and_eq_false_iff, Bool.not_eq_false', decide_eq_true_eq, List.all_eq_false,
      Bool.not_eq_true]

theorem handleFinish_isOk (p : String) (choice : Choice) (chunk : Json) (delta : Delta) :
    (handleFinish p choice chunk delta s).isOk = false ↔
      (choice.finish.isNone || chunkUsageTolerated chunk &&
        (!(s.contentBlockOpen && !s.isToolBlockOpen) ||
          lengthTolerated delta.reasoningOpaque)) = false := by
  unfold handleFinish
  cases choice.finish with
  | none => exact (FailsIff.pure ()).congr (by simp) s
  | some finishReason =>
    have hclose : (closeLastBlock p delta s).isOk = false ↔
        (s.contentBlockOpen && !s.isToolBlockOpen) = true ∧
          lengthTolerated delta.reasoningOpaque = false := by
      have hlast : FailsIff (when s.contentBlockOpen do
          stopContentBlock
          when (!s.isToolBlockOpen) (handleReasoningOpaque p delta))
          (s.contentBlockOpen = true ∧ (!s.isToolBlockOpen) = true ∧
            lengthTolerated delta.reasoningOpaque = false) :=
        .when _ <| .after stopContentBlock_failsIff fun _ =>
          (handleReasoningOpaque_failsIff p delta).when _
      rw [closeLastBlock, isOk_current_bind, hlast s, Bool.and_eq_true, Bool.not_eq_true', and_assoc]
    have htotal : FailsIff (do
        let usage ← ofExcept (chunkUsage chunk
          (((chunk.get "usage").optProp "completion_tokens").orElse (.number (.ofNat 0))))
        emit [.messageDelta (mapOpenAIStopReasonToAnthropic finishReason) usage, .messageStop] :
        ChunkTranslator Unit) (chunkUsageTolerated chunk = false) :=
      .before (chunkUsage_failsIff _ _) fun _ => .emit _
    refine (isOk_bind_iff (P := fun _ _ => True) hclose (wp_true _) fun _ s' _ =>
      htotal s').trans ?_
    simp only [Option.isNone_some, Bool.false_or, Bool.and_eq_false_iff, Bool.or_eq_false_iff,
      Bool.not_eq_false']
    exact or_comm

/-- The text of a block goes on, or the open block is no tool call. -/
def textOpen (s : AnthropicStreamState) : Bool := s.contentBlockOpen && !s.isToolBlockOpen

/-- What message start and thinking leave alone. -/
def KeepsContent (s₀ s : AnthropicStreamState) : Prop :=
  s.contentBlockIndex = s₀.contentBlockIndex ∧ s.contentBlockOpen = s₀.contentBlockOpen ∧
    s.toolCalls = s₀.toolCalls

theorem KeepsContent.textOpen {s₀ s : AnthropicStreamState} (h : KeepsContent s₀ s) :
    textOpen s = textOpen s₀ := by
  obtain ⟨hindex, hopen, hcalls⟩ := h
  simp only [ChunkTolerance.textOpen, isToolBlockOpen, hindex, hopen, hcalls]

theorem handleMessageStart_keepsContent (chunk : Json) (s : AnthropicStreamState) :
    wp (fun _ _ => ()) (handleMessageStart chunk) (fun _ s' _ => KeepsContent s s') s () := by
  simp only [handleMessageStart, wp_bind, wp_current, wp_when, wp_ofExcept, wp_emit, wp_update]
  split
  · exact fun _ _ => ⟨rfl, rfl, rfl⟩
  · exact ⟨rfl, rfl, rfl⟩

theorem handleThinkingText_keepsContent (delta : Delta) (s₀ s : AnthropicStreamState)
    (h : KeepsContent s₀ s) :
    wp (fun _ _ => ()) (handleThinkingText delta)
      (fun delta' s' _ => delta' = s₀.sentDelta delta ∧ KeepsContent s₀ s') s () := by
  simp only [handleThinkingText, wp_bind, wp_ofExcept, wp_current, wp_ite, wp_pure, wp_when,
    wp_emit, wp_update]
  intro hasThinking hlen
  have hsent : (nonEmpty delta.reasoningText && s₀.contentBlockOpen) =
      (hasThinking && s.contentBlockOpen) := by
    rw [nonEmpty_of_hasLength hlen, h.2.1]
  split
  · next hrerouted => exact ⟨by rw [sentDelta, hsent, if_pos hrerouted], h⟩
  · next hsame =>
    have hdelta : delta = s₀.sentDelta delta := by rw [sentDelta, hsent, if_neg hsame]
    split
    · split
      · exact ⟨hdelta, h⟩
      · exact ⟨hdelta, h⟩
    · exact ⟨hdelta, h⟩

/-- No block is a tool call before one is opened at the next index. -/
theorem isToolBlockOpen_of_unused {s : AnthropicStreamState}
    (h : ∀ e ∈ s.toolCalls.entries, e.2.anthropicBlockIndex < s.contentBlockIndex) :
    s.isToolBlockOpen = false := by
  rw [isToolBlockOpen, Bool.and_eq_false_iff]
  refine .inr (List.any_eq_false.2 fun e he => ?_)
  simpa using (h e he).ne

theorem textOpen_of_closed {s : AnthropicStreamState} (h : s.contentBlockOpen = false) :
    textOpen s = false := by
  rw [textOpen, h, Bool.false_and]

theorem sound_of_calm {α : Type} {x : ChunkTranslator α} {s : AnthropicStreamState} (h : Sound s)
    (hx : ∀ s₀, Hoare observe (Calm s₀) x fun _ => Calm s₀) :
    wp (fun _ _ => ()) x (fun _ s' _ => Sound s') s () :=
  wp_of_observer (Q := fun _ s' => Sound s') <|
    wp_mono (hx s s true (calm_of_sound h)) fun _ _ _ h => h.1

/-- Closing the thinking block of a sound state leaves the open text alone. -/
theorem closeThinkingBlockIfOpen_textOpen (s : AnthropicStreamState) (h : Sound s) :
    wp (fun _ _ => ()) closeThinkingBlockIfOpen
      (fun _ s' _ => Sound s' ∧ textOpen s' = textOpen s) s () := by
  refine wp_and (sound_of_calm h fun s₀ =>
    closeThinkingBlockIfOpen_calm.consequence (fun _ _ h => h) fun _ _ _ h => h.1) ?_
  simp only [closeThinkingBlockIfOpen, wp_bind, wp_current, wp_when, wp_emit, wp_update]
  split
  · next hthinking =>
    have hclosed := h.exclusive hthinking
    rw [textOpen_of_closed hclosed]
    exact textOpen_of_closed hclosed
  · trivial

/-- Once non-empty content is sent, a text block is open. -/
theorem sendContent_textOpen (delta : Delta) (s : AnthropicStreamState) (h : Sound s) :
    wp (fun _ _ => ()) (sendContent delta)
      (fun _ s' _ => textOpen s' = (nonEmpty delta.content || textOpen s)) s () := by
  have hclose : Hoare (fun (_ : Unit) _ => ()) (fun s _ => Sound s) closeToolBlockIfOpen
      fun _ s _ => s.isToolBlockOpen = false ∧ (s.contentBlockOpen = false →
        ∀ e ∈ s.toolCalls.entries, e.2.anthropicBlockIndex < s.contentBlockIndex) := by
    intro s _ h
    simp only [closeToolBlockIfOpen, stopContentBlock, wp_bind, wp_current, wp_when, wp_emit,
      wp_update]
    split
    · have hbelow := h.below_succ
      exact ⟨isToolBlockOpen_of_unused hbelow, fun _ => hbelow⟩
    · next htool => exact ⟨by simpa using htool, h.used⟩
  have hopen : Hoare (fun (_ : Unit) _ => ()) (fun s _ => s.isToolBlockOpen = false ∧
      (s.contentBlockOpen = false →
        ∀ e ∈ s.toolCalls.entries, e.2.anthropicBlockIndex < s.contentBlockIndex))
      openTextBlockIfNeeded fun _ s _ => textOpen s = true := by
    rintro s _ ⟨htool, hused⟩
    simp only [openTextBlockIfNeeded, wp_bind, wp_current, wp_when, wp_emit, wp_update]
    split
    · next hclosed =>
      have hunused := isToolBlockOpen_of_unused (s := { s with contentBlockOpen := true })
        (hused (by simpa using hclosed))
      rw [textOpen, hunused]
      rfl
    · next hcontent =>
      rw [textOpen, htool]
      simpa using hcontent
  rw [sendContent, wp_bind, wp_ofExcept]
  intro hasContent hlen
  rw [nonEmpty_of_hasLength hlen, wp_when]
  split
  · next hcontent =>
    rw [hcontent, Bool.true_or, wp_bind]
    refine wp_mono (closeThinkingBlockIfOpen_textOpen s h) fun _ s' _ hs => ?_
    refine (hclose.bind fun _ => hopen.bind fun _ => ?_) s' () hs.1
    exact fun s _ h => h
  · next hcontent => rw [Bool.eq_false_iff.2 hcontent, Bool.false_or]

theorem handleContent_textOpen (delta : Delta) (s : AnthropicStreamState) (h : Sound s) :
    wp (fun _ _ => ()) (handleContent delta)
      (fun _ s' _ => textOpen s' = (nonEmpty delta.content || textOpen s)) s () := by
  rw [handleContent, wp_bind]
  refine wp_mono (wp_and (sendContent_textOpen delta s h) (sound_of_calm h fun _ =>
    sendContent_calm delta)) fun _ s' _ hs => ?_
  obtain ⟨htext, hsound⟩ := hs
  rw [← htext]
  simp only [signThinkingBlock, wp_bind, wp_ofExcept, wp_when, wp_current, wp_emit, wp_update]
  split
  · intro hasOpaque _
    split
    · next hsigned =>
      have hclosed := hsound.exclusive (Bool.and_eq_true _ _ ▸ hsigned).2
      rw [textOpen_of_closed hclosed]
      exact textOpen_of_closed hclosed
    · trivial
  · trivial

theorem handleToolCalls_textOpen (p : String) (delta : Delta) (s : AnthropicStreamState) :
    wp (fun _ _ => ()) (handleToolCalls p delta) (fun _ s' _ =>
      (delta.hasToolCalls = false → textOpen s' = textOpen s) ∧
        (delta.hasToolCalls = true → lengthTolerated delta.reasoningOpaque = true)) s () := by
  have hret := (handleToolCalls_failsIff p delta).wp (fun (_ : Unit) _ => ()) s ()
  have hsame : wp (fun (_ : Unit) _ => ()) (handleToolCalls p delta)
      (fun _ s' _ => delta.hasToolCalls = false → textOpen s' = textOpen s) s () := by
    refine wp_of_imp fun hnone => ?_
    unfold handleToolCalls
    cases hcalls : delta.toolCalls.asArray with
    | none => exact rfl
    | some calls =>
      rw [Delta.hasToolCalls, hcalls] at hnone
      have hempty : ¬calls ≠ [] := by simpa using hnone
      show wp _ (when (calls ≠ []) _) _ s ()
      rw [wp_when, if_neg hempty]
  refine wp_mono (wp_and hret hsame) fun _ s' _ h => ⟨h.2, fun hhas => ?_⟩
  have hok := h.1
  rw [hhas, Bool.not_true, Bool.false_or, Bool.not_eq_false, Bool.and_eq_true] at hok
  exact hok.1

end ChunkTolerance

theorem isOk_translateChunkToAnthropicEvents (h : Sound s) (chunk : Json) :
    (translateChunkToAnthropicEvents chunk s).isOk = s.tolerates chunk := by
  have hext : ∀ {a b : Bool}, (a = false ↔ b = false) → a = b := by decide
  refine hext ?_
  unfold translateChunkToAnthropicEvents translateChunkWith tolerates
  cases hchoice : readTranslatableChoice chunk with
  | none => exact iff_of_false Bool.noConfusion Bool.noConfusion
  | some r =>
    obtain ⟨choice, delta⟩ := r
    dsimp only
    have hkept := wp_and (handleMessageStart_keepsContent chunk s)
      (sound_of_calm h fun _ => handleMessageStart_calm chunk)
    rw [Bool.and_eq_false_iff]
    refine isOk_bind_iff (handleMessageStart_isOk chunk) hkept fun _ s₁ h₁ => ?_
    have hthinking := wp_and (handleThinkingText_keepsContent delta s s₁ h₁.1)
      (sound_of_calm h₁.2 fun _ => handleThinkingText_calm delta)
    rw [Bool.and_eq_false_iff]
    refine isOk_bind_iff (handleThinkingText_failsIff delta s₁) hthinking fun delta' s₂ h₂ => ?_
    obtain ⟨⟨rfl, hs₂⟩, hsound⟩ := h₂
    rw [Bool.and_eq_false_iff]
    have hsame : (s.sentDelta delta).toolCalls = delta.toolCalls ∧
        (s.sentDelta delta).reasoningOpaque = delta.reasoningOpaque := by
      unfold sentDelta
      split <;> exact ⟨rfl, rfl⟩
    have hcontent := handleContent_failsIff (s.sentDelta delta) s₂
    rw [hsame.2] at hcontent
    refine isOk_bind_iff hcontent (handleContent_textOpen _ s₂ hsound)
      fun _ s₃ h₃ => ?_
    rw [Bool.and_eq_false_iff]
    have hcalls := handleToolCalls_failsIff THINKING_TEXT (s.sentDelta delta) s₃
    rw [Delta.hasToolCalls, hsame.1, hsame.2, ← Delta.hasToolCalls] at hcalls
    refine isOk_bind_iff hcalls (handleToolCalls_textOpen THINKING_TEXT _ s₃) fun _ s₄ h₄ => ?_
    rw [handleFinish_isOk, ← textOpen, hsame.2]
    rw [Delta.hasToolCalls, hsame.1, hsame.2, ← Delta.hasToolCalls] at h₄
    have hleaves : textOpen s₃ = s.leavesTextOpen delta := by rw [h₃, hs₂.textOpen]; rfl
    cases hhas : delta.hasToolCalls with
    | true => rw [h₄.2 hhas, Bool.or_true, Bool.true_or, Bool.true_or]
    | false => rw [h₄.1 hhas, hleaves, Bool.false_or]

end Maximal
