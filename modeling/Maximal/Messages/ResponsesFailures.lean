import Maximal.Messages.ResponsesStreamTranslation

/-!
# When the Responses translators throw

A frame is any JSON value. Reading its fields never throws, but turning a value into a text or a
number does when the value is not printable, and so does walking over something that is not
iterable.

## Main definitions

- `isTolerated` — the frames on which the stream translator returns

## Main results

- `isOk_translateResponsesResultToAnthropic` — exactly when the translator of results returns
- `translateResponsesStreamEvent_failsIff` — exactly when the stream translator throws
-/

namespace Maximal.Responses

open Js Emitter

/-! ## Helpers -/

theorem closeBlockIfOpen_failsIff (blockIndex : ℕ) :
    FailsIff (closeBlockIfOpen blockIndex) False :=
  .after .current fun _ => .when_total _ <| .after (.emit _) fun _ => .update _

theorem closeOpenBlocks_failsIff : FailsIff closeOpenBlocks False :=
  .after .current fun _ => .forEach closeBlockIfOpen_failsIff _

theorem closeAllOpenBlocks_failsIff : FailsIff closeAllOpenBlocks False :=
  .after closeOpenBlocks_failsIff fun _ => .update _

theorem blockIndexFor_failsIff (key : String) : FailsIff (blockIndexFor key) False := by
  refine .after .current fun s => ?_
  split
  · exact .pure _
  · exact .after (.update _) fun _ => .pure _

theorem openBlockIfNeeded_failsIff (blockIndex : ℕ) (block : ContentBlock) :
    FailsIff (openBlockIfNeeded blockIndex block) False :=
  .after .current fun _ => .when_total _ <| .after closeOpenBlocks_failsIff fun _ =>
    .after (.emit _) fun _ => .update _

theorem functionCallFor_failsIff (outputIndex : MapKey) (toolCallId name : Val) :
    FailsIff (functionCallFor outputIndex toolCallId name) False := by
  refine .after .current fun s => ?_
  split
  · exact .pure _
  · exact .after (.update _) fun _ => .pure _

theorem openFunctionCallBlock_failsIff (outputIndex : MapKey) (toolCallId name : Val) :
    FailsIff (openFunctionCallBlock outputIndex toolCallId name) False :=
  .after (functionCallFor_failsIff _ _ _) fun _ =>
    .after (openBlockIfNeeded_failsIff _ _) fun _ => .pure _

theorem markDelta_failsIff (blockIndex : ℕ) : FailsIff (markDelta blockIndex) False := .update _

theorem sendDelta_failsIff (blockIndex : ℕ) (delta : BlockDelta) :
    FailsIff (sendDelta blockIndex delta) False :=
  .emit _

theorem sendDelta_markDelta_failsIff (blockIndex : ℕ) (delta : BlockDelta) :
    FailsIff (do sendDelta blockIndex delta; markDelta blockIndex) False :=
  .after (sendDelta_failsIff _ _) fun _ => markDelta_failsIff _

theorem handleFunctionCallArgumentsValidationError_failsIff (reason : String) :
    FailsIff (handleFunctionCallArgumentsValidationError reason) False :=
  .after closeAllOpenBlocks_failsIff fun _ => .after (.update _) fun _ => .emit _

/-- A key is made of the texts of both indices. -/
theorem isOk_getBlockKey (outputIndex contentIndex : Val) :
    (getBlockKey outputIndex contentIndex).isOk =
      (outputIndex.printable && contentIndex.printable) := by
  rw [← Val.isOk_text, ← Val.isOk_text, getBlockKey]
  cases outputIndex.text <;> cases contentIndex.text <;> rfl

/-! ## Results -/

/-- A block of a message that can be made text: the text of a typed block is taken as it is. -/
def blockTolerated (block : Json) : Bool :=
  if block.isRecord ∧ (block.get "type").asString = some "output_text" then
    (block.get "text").printable
  else if block.isRecord ∧ (block.get "type").asString = some "refusal" then
    (block.get "refusal").printable
  else !block.isNull

def contentTolerated (content : Val) : Bool :=
  (content.asArray.getD []).all blockTolerated

def summaryTolerated (item : Json) : Bool :=
  isMissingOrEmpty (item.get "summary") ||
    ((item.get "summary").asArray.getD []).all (!·.isNull)

def signatureTolerated (item : Json) : Bool :=
  ((item.get "encrypted_content").orElse (.string "")).printable && (item.get "id").printable

def compactionTolerated (item : Json) : Bool :=
  !(item.get "id").truthy || !(item.get "encrypted_content").truthy ||
    (item.get "id").printable && (item.get "encrypted_content").printable

/-- A reasoning item whose text is blank is left out before its signature is made. -/
def itemTolerated (item : Json) : Bool :=
  !item.isNull &&
    if (item.get "type").asString = some "reasoning" then
      summaryTolerated item &&
        ((extractReasoningText item).toOption = some "" || signatureTolerated item)
    else if (item.get "type").asString = some "function_call" then true
    else if (item.get "type").asString = some "message" then contentTolerated (item.get "content")
    else if (item.get "type").asString = some "compaction" then compactionTolerated item
    else contentTolerated (item.get "content")

def usageTolerated (response : Json) : Bool :=
  let usage := response.get "usage"
  let cached := (usage.optProp "input_tokens_details").optProp "cached_tokens"
  let zero := Json.number (.ofNat 0)
  ((usage.optProp "input_tokens").orElse zero).printable && (cached.orElse zero).printable

/-- The output can be walked over, and is an array if the response is completed. -/
def responseTolerated (response : Json) : Bool :=
  (iterate (response.get "output")).toOption.any (·.all itemTolerated) && usageTolerated response &&
    ((response.get "status").asString ≠ some "completed" ||
      (response.get "output").asArray.isSome)

section Results

variable {α β ε : Type}

theorem isOk_bind {x : Except ε α} {f : α → Except ε β} {b : Bool}
    (h : ∀ a, x = .ok a → (f a).isOk = b) : (x >>= f).isOk = (x.isOk && b) := by
  cases x with
  | error e => rfl
  | ok a => exact h a rfl

theorem isOk_concatTexts (f : Json → Except TypeError String) (xs : List Json) :
    (concatTexts f xs).isOk = xs.all fun x => (f x).isOk := by
  induction xs with
  | nil => rfl
  | cons x xs ih =>
    rw [concatTexts, List.all_cons, ← ih]
    refine isOk_bind fun t _ => ?_
    rw [isOk_bind fun ts _ => (rfl : (pure (t ++ ts) : Except TypeError String).isOk = true),
      Bool.and_true]

theorem isOk_prop (j : Json) (k : String) : (Val.prop (some j) k).isOk = !j.isNull := by
  cases j <;> rfl

theorem isOk_outputBlockText (block : Json) :
    (outputBlockText block).isOk = blockTolerated block := by
  unfold outputBlockText blockTolerated
  split
  · exact Val.isOk_text _
  · split
    · exact Val.isOk_text _
    · rw [← isOk_prop block "text", isOk_bind, Bool.and_true]
      intro text _
      cases text.asString <;> rfl

theorem isOk_combineMessageTextContent (content : Val) :
    (combineMessageTextContent content).isOk = contentTolerated content := by
  unfold combineMessageTextContent contentTolerated
  cases content.asArray with
  | none => rfl
  | some blocks =>
    show (concatTexts outputBlockText blocks).isOk = _
    rw [isOk_concatTexts]
    simp only [isOk_outputBlockText]
    rfl

theorem isOk_summaryBlockText (block : Json) : (summaryBlockText block).isOk = !block.isNull := by
  have hpure : ∀ text : Val,
      (pure (text.asString.getD "") : Except TypeError String).isOk = true :=
    fun _ => rfl
  rw [← isOk_prop block "text", summaryBlockText, isOk_bind fun text _ => hpure text, Bool.and_true]

theorem isOk_extractReasoningText (item : Json) :
    (extractReasoningText item).isOk = summaryTolerated item := by
  rw [extractReasoningText, summaryTolerated]
  by_cases h : isMissingOrEmpty (item.get "summary") = true
  · rw [if_pos h, h]
    rfl
  · rw [if_neg h, Bool.eq_false_iff.2 h, Bool.false_or]
    cases (item.get "summary").asArray with
    | none => rfl
    | some blocks =>
      show ((concatTexts summaryBlockText blocks).map trim).isOk = _
      rw [Json.isOk_map, isOk_concatTexts]
      simp only [isOk_summaryBlockText]
      rfl

theorem isOk_reasoningSignature (item : Json) :
    (reasoningSignature item).isOk = signatureTolerated item := by
  rw [signatureTolerated, ← Json.isOk_text, ← Val.isOk_text, reasoningSignature]
  cases (item.get "id").text <;>
    cases ((item.get "encrypted_content").orElse (.string "")).text <;> rfl

theorem isOk_encodeCompactionCarrierSignature (id encrypted : Val) :
    (encodeCompactionCarrierSignature id encrypted).isOk =
      (id.printable && encrypted.printable) := by
  rw [← Val.isOk_text, ← Val.isOk_text, encodeCompactionCarrierSignature]
  cases id.text <;> cases encrypted.text <;> rfl

theorem isOk_textBlocks (content : Val) :
    (do return textBlocks (← combineMessageTextContent content) :
      Except TypeError (List AnthropicAssistantContentBlock)).isOk = contentTolerated content := by
  rw [← isOk_combineMessageTextContent]
  cases combineMessageTextContent content <;> rfl

theorem isOk_mapOutputItem (parse : String → Option Json) (item : Json) :
    (mapOutputItem parse item).isOk = itemTolerated item := by
  rw [itemTolerated, ← isOk_prop item "type", mapOutputItem]
  refine isOk_bind fun type htype => ?_
  obtain rfl : item.get "type" = type := by
    cases item with
    | null => cases htype
    | _ => exact Except.ok.inj htype
  split
  · rw [← isOk_extractReasoningText]
    refine isOk_bind fun thinkingText htext => ?_
    rw [htext, ← isOk_reasoningSignature]
    by_cases hempty : thinkingText = ""
    · rw [if_pos hempty, hempty]
      rfl
    · rw [if_neg hempty]
      have hne : ((Except.ok thinkingText : Except TypeError String).toOption = some "") = False :=
        eq_false fun h => hempty (Option.some.inj h)
      simp only [hne, decide_false, Bool.false_or]
      cases reasoningSignature item <;> rfl
  · split
    · dsimp only
      split <;> rfl
    · split
      · exact isOk_textBlocks _
      · split
        · rw [compactionTolerated, ← isOk_encodeCompactionCarrierSignature]
          cases hid : (item.get "id").truthy <;>
            cases hencrypted : (item.get "encrypted_content").truthy <;>
            simp only [hid, hencrypted, Bool.not_true, Bool.not_false, Bool.or_false,
              Bool.or_true, Bool.true_or, Bool.false_or, if_true, Bool.false_eq_true, if_false]
          · rfl
          · rfl
          · rfl
          · cases encodeCompactionCarrierSignature (item.get "id") (item.get "encrypted_content") <;>
              rfl
        · exact isOk_textBlocks _

theorem isOk_mapOutputItems (parse : String → Option Json) (items : List Json) :
    (mapOutputItems parse items).isOk = items.all itemTolerated := by
  induction items with
  | nil => rfl
  | cons item items ih =>
    rw [mapOutputItems, List.all_cons, ← isOk_mapOutputItem parse, ← ih]
    refine isOk_bind fun blocks _ => ?_
    cases mapOutputItems parse items <;> rfl

theorem isOk_mapResponsesUsage (response : Json) :
    (mapResponsesUsage response).isOk = usageTolerated response := by
  have hminus := Val.isOk_minus
    (some (((response.get "usage").optProp "input_tokens").orElse (.number (.ofNat 0))))
    (some ((((response.get "usage").optProp "input_tokens_details").optProp
      "cached_tokens").orElse (.number (.ofNat 0))))
  refine Eq.trans ?_ hminus
  rw [mapResponsesUsage]
  cases Val.minus _ _ <;> rfl

theorem isOk_mapResponsesStopReason (response : Json) :
    (mapResponsesStopReason response).isOk =
      ((response.get "status").asString ≠ some "completed" ||
        (response.get "output").asArray.isSome) := by
  rw [mapResponsesStopReason]
  by_cases h : (response.get "status").asString = some "completed"
  · rw [if_pos h]
    cases (response.get "output").asArray <;> simp [h, Except.isOk, Except.toBool]
  · rw [if_neg h]
    split
    · simp [h, Except.isOk, Except.toBool]
    · split <;> simp [h, Except.isOk, Except.toBool]

/-- The translator of results returns exactly on the results it tolerates. -/
theorem isOk_translateResponsesResultToAnthropic (parse : String → Option Json)
    (response : Json) :
    (translateResponsesResultToAnthropic parse response).isOk = responseTolerated response := by
  rw [responseTolerated, Bool.and_assoc, ← isOk_mapResponsesUsage, ← isOk_mapResponsesStopReason,
    translateResponsesResultToAnthropic]
  have hcontent : (mapOutputToAnthropicContent parse (response.get "output")).isOk =
      (iterate (response.get "output")).toOption.any (·.all itemTolerated) := by
    rw [mapOutputToAnthropicContent]
    cases iterate (response.get "output") with
    | error e => rfl
    | ok items => exact isOk_mapOutputItems parse items
  rw [← hcontent]
  refine isOk_bind fun blocks _ => isOk_bind fun usage _ => ?_
  cases mapResponsesStopReason response <;> rfl

end Results

/-! ## Frames -/

/-- The usage of a response that was created is read if the upstream says any. -/
def createdTolerated (rawEvent : Json) : Bool :=
  match Val.asRecord (rawEvent.get "response") with
  | none => true
  | some response =>
    let usage := response.get "usage"
    let cached := (usage.optProp "input_tokens_details").optProp "cached_tokens"
    match usage.optProp "input_tokens" with
    | none => true
    | some upstreamInput => upstreamInput.printable && (cached.orElse (.number (.ofNat 0))).printable

/-- Arguments that are there have a length, unless they are `null`. -/
def itemAddedTolerated (rawEvent : Json) : Bool :=
  match extractFunctionCallDetails rawEvent with
  | none => true
  | some item =>
    match item.get "arguments" with
    | none => true
    | some initialArguments =>
      !initialArguments.isNull && (initialArguments.get "length").printable

def itemDoneTolerated (rawEvent : Json) : Bool :=
  match Val.asRecord (rawEvent.get "item") with
  | none => true
  | some item =>
    match (item.get "type").asString with
    | some "compaction" =>
      !((item.get "id").truthy && (item.get "encrypted_content").truthy) ||
        (rawEvent.get "output_index").printable &&
          ((item.get "id").printable && (item.get "encrypted_content").printable)
    | some "reasoning" => (rawEvent.get "output_index").printable && signatureTolerated item
    | _ => true

def textIndicesTolerated (rawEvent : Json) : Bool :=
  (rawEvent.get "output_index").printable && (rawEvent.get "content_index").printable

def callDeltaTolerated (rawEvent : Json) : Bool :=
  !(rawEvent.get "delta").truthy || (iterate (rawEvent.get "delta")).isOk

def completedTolerated (rawEvent : Json) : Bool :=
  match Val.asRecord (rawEvent.get "response") with
  | none => true
  | some response => responseTolerated response

def recordTolerated (rawEvent : Json) : Bool :=
  match (rawEvent.get "type").asString with
  | some "response.created" => createdTolerated rawEvent
  | some "response.output_item.added" => itemAddedTolerated rawEvent
  | some "response.reasoning_summary_text.delta" => (rawEvent.get "output_index").printable
  | some "response.output_text.delta" =>
    !(rawEvent.get "delta").truthy || textIndicesTolerated rawEvent
  | some "response.reasoning_summary_text.done" => (rawEvent.get "output_index").printable
  | some "response.output_text.done" => textIndicesTolerated rawEvent
  | some "response.output_item.done" => itemDoneTolerated rawEvent
  | some "response.function_call_arguments.delta" => callDeltaTolerated rawEvent
  | some "response.completed" => completedTolerated rawEvent
  | some "response.incomplete" => completedTolerated rawEvent
  | _ => true

/-- The frames on which the translator returns, whatever its state. -/
def isTolerated (rawEvent : Json) : Bool := !rawEvent.isRecord || recordTolerated rawEvent

theorem openTextBlockIfNeeded_failsIff (rawEvent : Json) :
    FailsIff (openTextBlockIfNeeded (rawEvent.get "output_index") (rawEvent.get "content_index"))
      (textIndicesTolerated rawEvent = false) := by
  refine .before ?_ fun key => .after (blockIndexFor_failsIff key) fun _ =>
    .after (openBlockIfNeeded_failsIff _ _) fun _ => .pure _
  exact (FailsIff.ofExcept _).congr (by rw [isOk_getBlockKey]; rfl)

theorem openThinkingBlockIfNeeded_failsIff (outputIndex : Val) :
    FailsIff (openThinkingBlockIfNeeded outputIndex) (outputIndex.printable = false) := by
  refine .before ?_ fun key => .after (blockIndexFor_failsIff key) fun _ =>
    .after (openBlockIfNeeded_failsIff _ _) fun _ => .pure _
  refine (FailsIff.ofExcept _).congr ?_
  have hzero : Val.printable (some (.number (.ofNat 0))) = true := rfl
  rw [isOk_getBlockKey, hzero, Bool.and_true]

theorem handleResponseCreated_failsIff (rawEvent : Json) :
    FailsIff (handleResponseCreated rawEvent) (createdTolerated rawEvent = false) := by
  unfold handleResponseCreated createdTolerated
  cases Val.asRecord (rawEvent.get "response") with
  | none => exact (FailsIff.pure ()).congr (by simp)
  | some response =>
    refine .after (.update _) fun _ => .after .current fun s => .before ?_ fun _ => .emit _
    refine (FailsIff.ofExcept _).congr (iff_of_eq (congrArg (· = false) ?_))
    dsimp only [createdUsage]
    cases (response.get "usage").optProp "input_tokens" with
    | none => rfl
    | some upstreamInput =>
      have hminus := Val.isOk_minus (some upstreamInput)
        (some ((((response.get "usage").optProp "input_tokens_details").optProp
          "cached_tokens").orElse (.number (.ofNat 0))))
      refine Eq.trans ?_ hminus
      rw [← Bool.and_true (Val.minus _ _).isOk]
      exact isOk_bind fun _ _ => rfl

theorem hasInitialArguments_isOk (initialArguments : Val) :
    (hasInitialArguments initialArguments).isOk =
      match initialArguments with
      | none => true
      | some initialArguments =>
        !initialArguments.isNull && (initialArguments.get "length").printable := by
  cases initialArguments with
  | none => rfl
  | some initialArguments =>
    dsimp only [hasInitialArguments]
    rw [← isOk_prop initialArguments "length"]
    refine isOk_bind fun length hlength => ?_
    obtain rfl : initialArguments.get "length" = length := by
      cases initialArguments with
      | null => cases hlength
      | _ => exact Except.ok.inj hlength
    rw [← Val.isOk_toNumber]
    cases Val.toNumber _ <;> rfl

theorem handleOutputItemAdded_failsIff (frame : ℕ) (rawEvent : Json) :
    FailsIff (handleOutputItemAdded frame rawEvent) (itemAddedTolerated rawEvent = false) := by
  unfold handleOutputItemAdded itemAddedTolerated
  cases extractFunctionCallDetails rawEvent with
  | none => exact (FailsIff.pure ()).congr (by simp)
  | some item =>
    refine .after (openFunctionCallBlock_failsIff _ _ _) fun blockIndex => .before ?_ fun _ =>
      .when_total _ (sendDelta_markDelta_failsIff _ _)
    exact (FailsIff.ofExcept _).congr (by rw [hasInitialArguments_isOk])

theorem handleOutputItemDone_failsIff (rawEvent : Json) :
    FailsIff (handleOutputItemDone rawEvent) (itemDoneTolerated rawEvent = false) := by
  unfold itemDoneTolerated
  cases hitem : Val.asRecord (rawEvent.get "item") with
  | none =>
    rw [handleOutputItemDone, hitem]
    exact (FailsIff.pure ()).congr (by simp)
  | some item =>
    dsimp only
    split
    · next htype =>
      rw [handleOutputItemDone, hitem]
      simp only [htype]
      refine ((FailsIff.bind (openThinkingBlockIfNeeded_failsIff _) fun blockIndex =>
        .after .current fun s => .after (.when_total _ (sendDelta_failsIff _ _)) fun _ =>
          .before (.ofExcept _) fun _ => sendDelta_markDelta_failsIff _ _).when _).congr ?_
      rw [isOk_encodeCompactionCarrierSignature, Bool.or_eq_false_iff,
        ← Bool.and_eq_false_iff, Bool.not_eq_false']
    · next htype =>
      rw [handleOutputItemDone, hitem]
      simp only [htype]
      refine (FailsIff.bind (openThinkingBlockIfNeeded_failsIff _) fun blockIndex =>
        .before (.ofExcept _) fun _ => .after (.when_total _ (sendDelta_failsIff _ _)) fun _ =>
          sendDelta_markDelta_failsIff _ _).congr ?_
      rw [isOk_reasoningSignature, Bool.and_eq_false_iff]
    · next hcompaction hreasoning =>
      simp only [handleOutputItemDone, hitem]
      exact (FailsIff.pure ()).congr (by simp)

/-- The calls known to the state stay. -/
def callsFrame : Frame ResponsesStreamState AnthropicStreamEventData where
  moves s s' := s'.functionCallStateByOutputIndex = s.functionCallStateByOutputIndex
  refl _ := rfl
  trans h h' := h'.trans h
  emits _ := True

theorem openBlockIfNeeded_keepsCalls (blockIndex : ℕ) (block : ContentBlock) :
    Keeps callsFrame (openBlockIfNeeded blockIndex block) := by
  have hemit : ∀ events, Keeps callsFrame (emit events : ResponsesTranslator Unit) :=
    fun _ => .emit fun _ _ => trivial
  have hclose : ∀ i, Keeps callsFrame (closeBlockIfOpen i) := fun i =>
    .bind .current fun _ => .when _ <| .bind (hemit _) fun _ => .update fun _ => rfl
  exact .bind .current fun _ => .when _ <| .bind (.bind .current fun _ => .forEach hclose _)
    fun _ => .bind (hemit _) fun _ => .update fun _ => rfl

/-- The call whose block is opened is known afterwards. -/
theorem openFunctionCallBlock_known (outputIndex : MapKey) (toolCallId name : Val)
    (s : ResponsesStreamState) :
    wp (fun _ _ => ()) (openFunctionCallBlock outputIndex toolCallId name)
      (fun _ s' _ => (s'.functionCallStateByOutputIndex.get outputIndex).isSome) s () := by
  have hopen : ∀ i block, Hoare (fun (_ : Unit) _ => ())
      (fun s _ => (s.functionCallStateByOutputIndex.get outputIndex).isSome)
      (openBlockIfNeeded i block)
      fun _ s _ => (s.functionCallStateByOutputIndex.get outputIndex).isSome := by
    intro i block
    refine (openBlockIfNeeded_keepsCalls i block).hoare fun s s' _ _ h hmoves _ => ?_
    rwa [hmoves]
  rw [openFunctionCallBlock, wp_bind, functionCallFor, wp_bind, wp_current]
  cases hget : s.functionCallStateByOutputIndex.get outputIndex with
  | some call =>
    rw [wp_pure, wp_bind]
    exact hopen _ _ s () (Option.isSome_of_eq_some hget)
  | none =>
    simp only [wp_bind, wp_update, wp_pure]
    exact hopen _ _ _ () (Option.isSome_of_eq_some (Entries.get_set_self _ _ _))

theorem sendArguments_isOk {outputIndex : MapKey} {s : ResponsesStreamState}
    (h : (s.functionCallStateByOutputIndex.get outputIndex).isSome) (blockIndex : ℕ) (delta : Val) :
    (sendArguments outputIndex blockIndex delta s).isOk = false ↔ (iterate delta).isOk = false := by
  obtain ⟨call, hcall⟩ := Option.isSome_iff_exists.1 h
  rw [sendArguments, isOk_current_bind, hcall]
  refine FailsIff.before (.ofExcept _) (fun chars => ?_) s
  split
  · exact handleFunctionCallArgumentsValidationError_failsIff _
  · exact .after (.update _) fun _ => sendDelta_markDelta_failsIff _ _

theorem handleFunctionCallArgumentsDelta_failsIff (frame : ℕ) (rawEvent : Json) :
    FailsIff (handleFunctionCallArgumentsDelta frame rawEvent)
      (callDeltaTolerated rawEvent = false) := by
  have hdelta : FailsIff (do
      let blockIndex ←
        openFunctionCallBlock (mapKey frame (rawEvent.get "output_index")) none none
      sendArguments (mapKey frame (rawEvent.get "output_index")) blockIndex (rawEvent.get "delta"))
      ((iterate (rawEvent.get "delta")).isOk = false) := by
    intro s
    rw [← false_or ((iterate (rawEvent.get "delta")).isOk = false)]
    exact isOk_bind_iff (openFunctionCallBlock_failsIff _ _ _ s)
      (openFunctionCallBlock_known _ none none s) fun b s' h => sendArguments_isOk h b _
  refine (hdelta.when _).congr ?_
  rw [callDeltaTolerated, Bool.or_eq_false_iff, Bool.not_eq_false']

theorem handleFunctionCallArgumentsDone_failsIff (frame : ℕ) (rawEvent : Json) :
    FailsIff (handleFunctionCallArgumentsDone frame rawEvent) False :=
  .after (openFunctionCallBlock_failsIff _ _ _) fun _ => .after .current fun _ =>
    .after (.when_total _ (sendDelta_markDelta_failsIff _ _)) fun _ => .update _

theorem handleOutputTextDelta_failsIff (rawEvent : Json) :
    FailsIff (handleOutputTextDelta rawEvent)
      ((!(rawEvent.get "delta").truthy || textIndicesTolerated rawEvent) = false) := by
  refine (FailsIff.when _ (.before (openTextBlockIfNeeded_failsIff rawEvent) fun _ =>
    sendDelta_markDelta_failsIff _ _)).congr ?_
  rw [Bool.or_eq_false_iff, Bool.not_eq_false']

theorem handleReasoningSummaryTextDelta_failsIff (rawEvent : Json) :
    FailsIff (handleReasoningSummaryTextDelta rawEvent)
      ((rawEvent.get "output_index").printable = false) :=
  .before (openThinkingBlockIfNeeded_failsIff _) fun _ => sendDelta_markDelta_failsIff _ _

theorem handleReasoningSummaryTextDone_failsIff (rawEvent : Json) :
    FailsIff (handleReasoningSummaryTextDone rawEvent)
      ((rawEvent.get "output_index").printable = false) :=
  .before (openThinkingBlockIfNeeded_failsIff _) fun _ => .after .current fun _ =>
    .when_total _ (sendDelta_failsIff _ _)

theorem handleOutputTextDone_failsIff (rawEvent : Json) :
    FailsIff (handleOutputTextDone rawEvent) (textIndicesTolerated rawEvent = false) :=
  .before (openTextBlockIfNeeded_failsIff rawEvent) fun _ => .after .current fun _ =>
    .when_total _ (sendDelta_failsIff _ _)

theorem handleResponseCompleted_failsIff (parse : String → Option Json) (type : String)
    (rawEvent : Json) :
    FailsIff (handleResponseCompleted parse type rawEvent)
      (completedTolerated rawEvent = false) := by
  unfold handleResponseCompleted completedTolerated
  refine .after closeAllOpenBlocks_failsIff fun _ => ?_
  dsimp only
  cases Val.asRecord (rawEvent.get "response") with
  | none => exact (FailsIff.after (.emit _) fun _ => .update _).congr (by simp)
  | some response =>
    refine .before ?_ fun _ => .after (.emit _) fun _ => .update _
    exact (FailsIff.ofExcept _).congr (by rw [isOk_translateResponsesResultToAnthropic])

theorem dispatchResponsesStreamEvent_failsIff (parse : String → Option Json) (frame : ℕ)
    (rawEvent : Json) :
    FailsIff (dispatchResponsesStreamEvent parse frame rawEvent)
      (recordTolerated rawEvent = false) := by
  unfold dispatchResponsesStreamEvent
  split
  · next htype => rw [recordTolerated, htype]; exact handleResponseCreated_failsIff rawEvent
  · next htype => rw [recordTolerated, htype]; exact handleOutputItemAdded_failsIff frame rawEvent
  · next htype =>
    rw [recordTolerated, htype]
    exact handleReasoningSummaryTextDelta_failsIff rawEvent
  · next htype => rw [recordTolerated, htype]; exact handleOutputTextDelta_failsIff rawEvent
  · next htype =>
    rw [recordTolerated, htype]
    exact handleReasoningSummaryTextDone_failsIff rawEvent
  · next htype => rw [recordTolerated, htype]; exact handleOutputTextDone_failsIff rawEvent
  · next htype => rw [recordTolerated, htype]; exact handleOutputItemDone_failsIff rawEvent
  · next htype =>
    rw [recordTolerated, htype]
    exact handleFunctionCallArgumentsDelta_failsIff frame rawEvent
  · next htype =>
    rw [recordTolerated, htype]
    exact (handleFunctionCallArgumentsDone_failsIff frame rawEvent).congr (by simp)
  · next htype =>
    rw [recordTolerated, htype]
    exact handleResponseCompleted_failsIff parse _ rawEvent
  · next htype =>
    rw [recordTolerated, htype]
    exact handleResponseCompleted_failsIff parse _ rawEvent
  · next htype =>
    rw [recordTolerated, htype]
    refine FailsIff.of_not ?_ (by simp)
    exact .after closeAllOpenBlocks_failsIff fun _ => .after (.emit _) fun _ => .update _
  · next htype =>
    rw [recordTolerated, htype]
    refine FailsIff.of_not ?_ (by simp)
    exact .after (.update _) fun _ => .emit _
  · have htolerated : recordTolerated rawEvent = true := by
      unfold recordTolerated
      split <;> first | contradiction | rfl
    exact (FailsIff.pure ()).congr (by simp [htolerated])

/-- The translator throws exactly on the frames it does not tolerate, whatever its state. -/
theorem translateResponsesStreamEvent_failsIff (parse : String → Option Json)
    (rawEvent : RawEvent) :
    FailsIff (translateResponsesStreamEvent parse rawEvent)
      (isTolerated rawEvent.value = false) := by
  refine ((dispatchResponsesStreamEvent_failsIff parse rawEvent.identity rawEvent.value).when
    _).congr ?_
  rw [isTolerated, Bool.or_eq_false_iff, Bool.not_eq_false']

end Maximal.Responses
