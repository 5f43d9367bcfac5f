import Maximal.Messages.ResponsesStreamTranslation

/-!
# Frames as fragments

A frame that delivers a fragment of the response, with its fields as the API documents them. Each
fragment belongs to a part, which the translator gives one content block.

## Main definitions

- `Part` — the parts of a response, by the keys of the maps that hold their blocks
- `Fragment` — a piece of a part, or a frame that concerns none
- `Fragment.translate` — the translator on fragments
- `readFragment` — a frame as a fragment, if its fields have their documented types

## Main results

- `translateResponsesStreamEvent_eq_translate` — on such frames the translator does just that
-/

namespace Maximal.Responses

open Js Emitter

inductive Part where
  | block (key : String)
  | call (outputIndex : MapKey)
  deriving DecidableEq

inductive Fragment where
  | quiet
  | created (response : Json)
  | textDelta (key delta : String)
  | textDone (key text : String)
  | summaryDelta (key delta : String)
  | summaryDone (key text : String)
  | reasoningDone (key signature : String) (isSummaryMissing : Bool)
  | compactionDone (key signature : String)
  | callAdded (outputIndex : MapKey) (toolCallId name : Val) (initialArguments : String)
  | callDelta (outputIndex : MapKey) (delta : String)
  | callDone (outputIndex : MapKey) (finalArguments : String)

namespace Fragment

def part : Fragment → Option Part
  | .quiet | .created _ => none
  | .textDelta key _ | .textDone key _ | .summaryDelta key _ | .summaryDone key _
  | .reasoningDone key _ _ | .compactionDone key _ => some (.block key)
  | .callAdded outputIndex _ _ _ | .callDelta outputIndex _ | .callDone outputIndex _ =>
    some (.call outputIndex)

end Fragment

/-- The block of a key, opened. -/
def openBlock (key : String) (block : ContentBlock) : ResponsesTranslator ℕ := do
  let blockIndex ← blockIndexFor key
  openBlockIfNeeded blockIndex block
  return blockIndex

def sendText (blockIndex : ℕ) (delta : Val → BlockDelta) (text : String) :
    ResponsesTranslator Unit :=
  sendDelta blockIndex (delta (some (.string text)))

/-- A text that came as a whole, unless deltas brought it before. -/
def sendWhole (blockIndex : ℕ) (delta : Val → BlockDelta) (text : String) :
    ResponsesTranslator Unit := do
  let state ← current
  when (text ≠ "" ∧ blockIndex ∉ state.blockHasDelta) (sendText blockIndex delta text)

namespace Fragment

def translate : Fragment → ResponsesTranslator Unit
  | .quiet => pure ()
  | .created response => messageStart response
  | .textDelta key delta => do
    let blockIndex ← openBlock key (.text "")
    sendText blockIndex .textDelta delta
    markDelta blockIndex
  | .textDone key text => do
    let blockIndex ← openBlock key (.text "")
    sendWhole blockIndex .textDelta text
  | .summaryDelta key delta => do
    let blockIndex ← openBlock key (.thinking "")
    sendText blockIndex .thinkingDelta delta
    markDelta blockIndex
  | .summaryDone key text => do
    let blockIndex ← openBlock key (.thinking "")
    sendWhole blockIndex .thinkingDelta text
  | .reasoningDone key signature isSummaryMissing => do
    let blockIndex ← openBlock key (.thinking "")
    when isSummaryMissing (sendText blockIndex .thinkingDelta THINKING_TEXT)
    sendText blockIndex .signatureDelta signature
    markDelta blockIndex
  | .compactionDone key signature => do
    let blockIndex ← openBlock key (.thinking "")
    let state ← current
    when (blockIndex ∉ state.blockHasDelta) (sendText blockIndex .thinkingDelta THINKING_TEXT)
    sendText blockIndex .signatureDelta signature
    markDelta blockIndex
  | .callAdded outputIndex toolCallId name initialArguments => do
    let blockIndex ← openFunctionCallBlock outputIndex toolCallId name
    when (initialArguments ≠ "") do
      sendText blockIndex .inputJsonDelta initialArguments
      markDelta blockIndex
  | .callDelta outputIndex delta => do
    let blockIndex ← openFunctionCallBlock outputIndex none none
    sendArguments outputIndex blockIndex (some (.string delta))
  | .callDone outputIndex finalArguments => do
    let blockIndex ← openFunctionCallBlock outputIndex none none
    let state ← current
    when (blockIndex ∉ state.blockHasDelta ∧ finalArguments ≠ "") do
      sendText blockIndex .inputJsonDelta finalArguments
      markDelta blockIndex
    update fun s =>
      { s with functionCallStateByOutputIndex :=
          s.functionCallStateByOutputIndex.delete outputIndex }

end Fragment

/-! ## Reading frames -/

/-- A text, or nothing to say: `""` for every value that does not hold. -/
def textOrNothing (v : Val) : Option String := if v.truthy then v.asString else some ""

def keyOf (outputIndex contentIndex : Val) : Option String :=
  (getBlockKey outputIndex contentIndex).toOption

def zeroIndex : Val := some (.number (.ofNat 0))

def readItemAdded (outputIndex : MapKey) (rawEvent : Json) : Option Fragment :=
  match extractFunctionCallDetails rawEvent with
  | none => some .quiet
  | some item =>
    match item.get "arguments" with
    | none => some (.callAdded outputIndex (item.get "call_id") (item.get "name") "")
    | some (.string s) => some (.callAdded outputIndex (item.get "call_id") (item.get "name") s)
    | some _ => none

def readItemDone (rawEvent : Json) : Option Fragment :=
  match Val.asRecord (rawEvent.get "item") with
  | none => some .quiet
  | some item =>
    let id := item.get "id"
    let encrypted := item.get "encrypted_content"
    match (item.get "type").asString with
    | some "compaction" =>
      if id.truthy && encrypted.truthy then do
        let key ← keyOf (rawEvent.get "output_index") zeroIndex
        let signature ← (encodeCompactionCarrierSignature id encrypted).toOption
        return .compactionDone key signature
      else some .quiet
    | some "reasoning" => do
      let key ← keyOf (rawEvent.get "output_index") zeroIndex
      let signature ← (reasoningSignature item).toOption
      return .reasoningDone key signature (isMissingOrEmpty (item.get "summary"))
    | _ => some .quiet

def readCreated (rawEvent : Json) : Option Fragment :=
  match Val.asRecord (rawEvent.get "response") with
  | none => some .quiet
  | some response => if (createdUsage none response).isOk then some (.created response) else none

def readTextDelta (rawEvent : Json) : Option Fragment := do
  let delta ← textOrNothing (rawEvent.get "delta")
  if delta = "" then return .quiet
  else
    return .textDelta (← keyOf (rawEvent.get "output_index") (rawEvent.get "content_index")) delta

def readTextDone (rawEvent : Json) : Option Fragment := do
  let key ← keyOf (rawEvent.get "output_index") (rawEvent.get "content_index")
  return .textDone key (← textOrNothing (rawEvent.get "text"))

def readSummaryDelta (rawEvent : Json) : Option Fragment := do
  let key ← keyOf (rawEvent.get "output_index") zeroIndex
  return .summaryDelta key (← (rawEvent.get "delta").asString)

def readSummaryDone (rawEvent : Json) : Option Fragment := do
  let key ← keyOf (rawEvent.get "output_index") zeroIndex
  return .summaryDone key (← textOrNothing (rawEvent.get "text"))

def readCallDelta (outputIndex : MapKey) (rawEvent : Json) : Option Fragment := do
  let delta ← textOrNothing (rawEvent.get "delta")
  return if delta = "" then .quiet else .callDelta outputIndex delta

/-- What an unfinished response delivers; the frames that end it are not read. -/
def readRecord (identity : ℕ) (rawEvent : Json) : Option Fragment :=
  let call := mapKey identity (rawEvent.get "output_index")
  match (rawEvent.get "type").asString with
  | some "response.created" => readCreated rawEvent
  | some "response.output_item.added" => readItemAdded call rawEvent
  | some "response.reasoning_summary_text.delta" => readSummaryDelta rawEvent
  | some "response.output_text.delta" => readTextDelta rawEvent
  | some "response.reasoning_summary_text.done" => readSummaryDone rawEvent
  | some "response.output_text.done" => readTextDone rawEvent
  | some "response.output_item.done" => readItemDone rawEvent
  | some "response.function_call_arguments.delta" => readCallDelta call rawEvent
  | some "response.function_call_arguments.done" =>
    some (.callDone call ((rawEvent.get "arguments").asString.getD ""))
  | some "response.completed" => none
  | some "response.incomplete" => none
  | some "response.failed" => none
  | some "error" => none
  | _ => some .quiet

def readFragment (rawEvent : RawEvent) : Option Fragment :=
  if rawEvent.value.isRecord then readRecord rawEvent.identity rawEvent.value else some .quiet

/-! ## The translator on fragments -/

theorem textOrNothing_eq {v : Val} {text : String} (h : textOrNothing v = some text) :
    v.truthy = false ∧ text = "" ∨ v = some (.string text) ∧ text ≠ "" := by
  unfold textOrNothing at h
  split at h
  · next hv =>
    right
    cases v with
    | none => cases h
    | some j =>
      cases j with
      | string s =>
        obtain rfl := Option.some.inj h
        exact ⟨rfl, by simpa [Val.truthy, Json.truthy] using hv⟩
      | _ => cases h
  · next hv => exact .inl ⟨Bool.eq_false_iff.2 hv, (Option.some.inj h).symm⟩

theorem openTextBlockIfNeeded_eq {outputIndex contentIndex : Val} {key : String}
    (h : keyOf outputIndex contentIndex = some key) :
    openTextBlockIfNeeded outputIndex contentIndex = openBlock key (.text "") :=
  ofExcept_bind_of_ok (ok_of_toOption h) _

theorem openThinkingBlockIfNeeded_eq {outputIndex : Val} {key : String}
    (h : keyOf outputIndex zeroIndex = some key) :
    openThinkingBlockIfNeeded outputIndex = openBlock key (.thinking "") :=
  ofExcept_bind_of_ok (ok_of_toOption h) _

/-- A whole text is sent as `sendWhole` does. -/
theorem sendWhole_eq {v : Val} {text : String} (h : textOrNothing v = some text)
    (blockIndex : ℕ) (delta : Val → BlockDelta) :
    (do let state ← current
        when (v.truthy ∧ blockIndex ∉ state.blockHasDelta) (sendDelta blockIndex (delta v))) =
      sendWhole blockIndex delta text := by
  rcases textOrNothing_eq h with ⟨hv, rfl⟩ | ⟨rfl, ht⟩
  · refine bind_congr fun state => ?_
    rw [when, when, if_neg (by simp [hv]), if_neg (by simp)]
  · exact bind_congr fun state => when_congr (by simp [Val.truthy, Json.truthy, ht]) _

theorem handleItemDone_eq {rawEvent : Json} {fragment : Fragment}
    (h : readItemDone rawEvent = some fragment) :
    handleOutputItemDone rawEvent = fragment.translate := by
  unfold readItemDone at h
  cases hitem : Val.asRecord (rawEvent.get "item") with
  | none =>
    rw [hitem] at h
    obtain rfl := Option.some.inj h
    rw [handleOutputItemDone, hitem]
    rfl
  | some item =>
    simp only [hitem] at h
    split at h
    · next htype =>
      simp only [handleOutputItemDone, hitem, htype]
      split at h
      · next hc =>
        simp only [Option.bind_eq_bind, Option.bind_eq_some_iff, Option.pure_def,
          Option.some.injEq] at h
        obtain ⟨key, hkey, signature, hsig, rfl⟩ := h
        show when _ _ = _
        rw [when, if_pos hc, openThinkingBlockIfNeeded_eq hkey]
        refine bind_congr fun blockIndex => bind_congr fun state => bind_congr fun _ => ?_
        exact ofExcept_bind_of_ok (ok_of_toOption hsig) _
      · next hc =>
        obtain rfl := Option.some.inj h
        show when _ _ = _
        rw [when, if_neg hc]
        rfl
    · next htype =>
      simp only [handleOutputItemDone, hitem, htype]
      simp only [Option.bind_eq_bind, Option.bind_eq_some_iff, Option.pure_def,
        Option.some.injEq] at h
      obtain ⟨key, hkey, signature, hsig, rfl⟩ := h
      rw [handleReasoningDone, openThinkingBlockIfNeeded_eq hkey]
      refine bind_congr fun blockIndex => ?_
      exact ofExcept_bind_of_ok (ok_of_toOption hsig) _
    · next hcompaction hreasoning =>
      obtain rfl := Option.some.inj h
      simp only [handleOutputItemDone, hitem]
      rfl

theorem hasInitialArguments_string (s : String) :
    hasInitialArguments (some (.string s)) = .ok (decide (s ≠ "")) := by
  refine congrArg Except.ok ?_
  show decide ((0 : ℤ) < Json.utf16Length s) = _
  by_cases hs : s = ""
  · subst hs
    rfl
  · have hlen := Json.utf16Length_pos hs
    rw [decide_eq_true (by omega : (0 : ℤ) < Json.utf16Length s), decide_eq_true hs]

theorem handleItemAdded_eq {identity : ℕ} {rawEvent : Json} {fragment : Fragment}
    (h : readItemAdded (mapKey identity (rawEvent.get "output_index")) rawEvent = some fragment) :
    handleOutputItemAdded identity rawEvent = fragment.translate := by
  unfold readItemAdded at h
  unfold handleOutputItemAdded
  cases hitem : extractFunctionCallDetails rawEvent with
  | none =>
    rw [hitem] at h
    obtain rfl := Option.some.inj h
    rfl
  | some item =>
    simp only [hitem] at h ⊢
    split at h
    · next harguments =>
      obtain rfl := Option.some.inj h
      refine bind_congr fun blockIndex => ?_
      rw [harguments]
      have hnone : hasInitialArguments none = .ok false := rfl
      rw [ofExcept_bind_of_ok hnone]
      rfl
    · next s harguments =>
      obtain rfl := Option.some.inj h
      refine bind_congr fun blockIndex => ?_
      rw [harguments]
      rw [ofExcept_bind_of_ok (hasInitialArguments_string s)]
      exact when_congr (by simp) _
    · cases h

theorem handleResponseCreated_eq {rawEvent : Json} {fragment : Fragment}
    (h : readCreated rawEvent = some fragment) :
    handleResponseCreated rawEvent = fragment.translate := by
  unfold readCreated at h
  unfold handleResponseCreated
  cases hresponse : Val.asRecord (rawEvent.get "response") with
  | none =>
    rw [hresponse] at h
    obtain rfl := Option.some.inj h
    rfl
  | some response =>
    simp only [hresponse] at h ⊢
    split at h
    · obtain rfl := Option.some.inj h
      rfl
    · cases h

theorem handleOutputTextDelta_eq {rawEvent : Json} {fragment : Fragment}
    (h : readTextDelta rawEvent = some fragment) :
    handleOutputTextDelta rawEvent = fragment.translate := by
  obtain ⟨delta, hdelta, h⟩ := Option.bind_eq_some_iff.1 h
  unfold handleOutputTextDelta
  rcases textOrNothing_eq hdelta with ⟨hv, rfl⟩ | ⟨hv, hne⟩
  · obtain rfl := Option.some.inj h
    rw [when, if_neg (by simp [hv])]
    rfl
  · rw [if_neg hne] at h
    obtain ⟨key, hkey, h⟩ := Option.bind_eq_some_iff.1 h
    obtain rfl := Option.some.inj h
    rw [hv, when, if_pos (by simpa [Val.truthy, Json.truthy] using hne),
      openTextBlockIfNeeded_eq hkey]
    rfl

theorem handleOutputTextDone_eq {rawEvent : Json} {fragment : Fragment}
    (h : readTextDone rawEvent = some fragment) :
    handleOutputTextDone rawEvent = fragment.translate := by
  obtain ⟨key, hkey, h⟩ := Option.bind_eq_some_iff.1 h
  obtain ⟨text, htext, h⟩ := Option.bind_eq_some_iff.1 h
  obtain rfl := Option.some.inj h
  show openTextBlockIfNeeded _ _ >>= _ = _
  rw [openTextBlockIfNeeded_eq hkey]
  exact bind_congr fun blockIndex => sendWhole_eq htext blockIndex .textDelta

theorem handleReasoningSummaryTextDelta_eq {rawEvent : Json} {fragment : Fragment}
    (h : readSummaryDelta rawEvent = some fragment) :
    handleReasoningSummaryTextDelta rawEvent = fragment.translate := by
  obtain ⟨key, hkey, h⟩ := Option.bind_eq_some_iff.1 h
  obtain ⟨delta, hdelta, h⟩ := Option.bind_eq_some_iff.1 h
  obtain rfl := Option.some.inj h
  have hv : rawEvent.get "delta" = some (.string delta) := by
    revert hdelta
    rcases rawEvent.get "delta" with _ | (_ | _ | _ | s | _ | _) <;> simp [Val.asString]
  rw [handleReasoningSummaryTextDelta, openThinkingBlockIfNeeded_eq hkey, hv]
  rfl

theorem handleReasoningSummaryTextDone_eq {rawEvent : Json} {fragment : Fragment}
    (h : readSummaryDone rawEvent = some fragment) :
    handleReasoningSummaryTextDone rawEvent = fragment.translate := by
  obtain ⟨key, hkey, h⟩ := Option.bind_eq_some_iff.1 h
  obtain ⟨text, htext, h⟩ := Option.bind_eq_some_iff.1 h
  obtain rfl := Option.some.inj h
  show openThinkingBlockIfNeeded _ >>= _ = _
  rw [openThinkingBlockIfNeeded_eq hkey]
  exact bind_congr fun blockIndex => sendWhole_eq htext blockIndex .thinkingDelta

theorem handleFunctionCallArgumentsDelta_eq {identity : ℕ} {rawEvent : Json} {fragment : Fragment}
    (h : readCallDelta (mapKey identity (rawEvent.get "output_index")) rawEvent = some fragment) :
    handleFunctionCallArgumentsDelta identity rawEvent = fragment.translate := by
  obtain ⟨delta, hdelta, h⟩ := Option.bind_eq_some_iff.1 h
  obtain rfl := Option.some.inj h
  unfold handleFunctionCallArgumentsDelta
  rcases textOrNothing_eq hdelta with ⟨hv, rfl⟩ | ⟨hv, hne⟩
  · rw [when, if_neg (by simp [hv])]
    rfl
  · rw [hv, when, if_pos (by simpa [Val.truthy, Json.truthy] using hne), if_neg hne]
    rfl

theorem readRecord_translate (parse : String → Option Json) {identity : ℕ} {rawEvent : Json}
    {fragment : Fragment} (h : readRecord identity rawEvent = some fragment) :
    dispatchResponsesStreamEvent parse identity rawEvent = fragment.translate := by
  unfold readRecord at h
  split at h
  · next htype => rw [dispatchResponsesStreamEvent, htype]; exact handleResponseCreated_eq h
  · next htype => rw [dispatchResponsesStreamEvent, htype]; exact handleItemAdded_eq h
  · next htype =>
    rw [dispatchResponsesStreamEvent, htype]
    exact handleReasoningSummaryTextDelta_eq h
  · next htype => rw [dispatchResponsesStreamEvent, htype]; exact handleOutputTextDelta_eq h
  · next htype =>
    rw [dispatchResponsesStreamEvent, htype]
    exact handleReasoningSummaryTextDone_eq h
  · next htype => rw [dispatchResponsesStreamEvent, htype]; exact handleOutputTextDone_eq h
  · next htype => rw [dispatchResponsesStreamEvent, htype]; exact handleItemDone_eq h
  · next htype =>
    rw [dispatchResponsesStreamEvent, htype]
    exact handleFunctionCallArgumentsDelta_eq h
  · next htype =>
    obtain rfl := Option.some.inj h
    rw [dispatchResponsesStreamEvent, htype]
    rfl
  · cases h
  · cases h
  · cases h
  · cases h
  · obtain rfl := Option.some.inj h
    unfold dispatchResponsesStreamEvent
    split <;> first | contradiction | rfl

/-- On a frame with the documented types the translator handles the fragment that it delivers. -/
theorem translateResponsesStreamEvent_eq_translate (parse : String → Option Json)
    {rawEvent : RawEvent} {fragment : Fragment} (h : readFragment rawEvent = some fragment) :
    translateResponsesStreamEvent parse rawEvent = fragment.translate := by
  unfold readFragment at h
  unfold translateResponsesStreamEvent
  split at h
  · next hrecord =>
    rw [when, if_pos hrecord]
    exact readRecord_translate parse h
  · next hrecord =>
    obtain rfl := Option.some.inj h
    rw [when, if_neg hrecord]
    rfl

end Maximal.Responses
