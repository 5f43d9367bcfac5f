import Maximal.Messages.ResponsesPartBlocks

/-!
# Deltas of one call

The arguments of a call arrive in pieces. Wherever they are cut, the stream is broken off exactly
when all of them together run away in white space, and otherwise each piece is sent on as it came.

## Main definitions

- `streamResponses` — the loop over the frames of a response, which ends with the message
- `Feeds` — fragments whose deltas for one call are given
- `BrokenOff` — the stream ended because of white space

## Main results

- `translate_callDelta` — what one delta does
- `streamResponses_feeds` — what all of them do
-/

namespace Maximal.Responses

open Js Emitter AnthropicStreamEventData

/-- The loop over the frames of a response: it ends with the message, or when a frame throws. -/
def streamResponses (parse : String → Option Json) :
    ResponsesStreamState → List RawEvent →
      Outcome TypeError ResponsesStreamState AnthropicStreamEventData :=
  runUntil (·.messageCompleted) (translateResponsesStreamEvent parse)

/-! ## Arguments and errors -/

/-- Arguments of a call, and errors. -/
def isHeard : AnthropicStreamEventData → Bool
  | .contentBlockDelta _ (.inputJsonDelta _) => true
  | .error _ => true
  | _ => false

def heard (events : List AnthropicStreamEventData) : List AnthropicStreamEventData :=
  events.filter isHeard

def hear (m : List AnthropicStreamEventData) (e : AnthropicStreamEventData) :
    List AnthropicStreamEventData :=
  if isHeard e then m ++ [e] else m

theorem foldl_hear (events m : List AnthropicStreamEventData) :
    events.foldl hear m = m ++ heard events := by
  induction events generalizing m with
  | nil => simp [heard]
  | cons e events ih =>
    rw [List.foldl_cons, ih, hear, heard, heard, List.filter_cons]
    by_cases he : isHeard e
    · simp [he]
    · simp [he]

/-- Neither the calls nor the completion of the message change, and nothing of note is sent. -/
def asideFrame : Frame ResponsesStreamState AnthropicStreamEventData where
  moves s s' := s'.functionCallStateByOutputIndex = s.functionCallStateByOutputIndex ∧
    s'.messageCompleted = s.messageCompleted
  refl _ := ⟨rfl, rfl⟩
  trans h h' := ⟨h'.1.trans h.1, h'.2.trans h.2⟩
  emits e := isHeard e = false

theorem closeOpenBlocks_aside : Keeps asideFrame closeOpenBlocks := by
  have hclose : ∀ i, Keeps asideFrame (closeBlockIfOpen i) := fun i =>
    .bind .current fun _ => .when _ <| .bind (.emit (List.forall_mem_singleton.2 rfl)) fun _ =>
      .update fun _ => ⟨rfl, rfl⟩
  exact .bind .current fun _ => .forEach hclose _

theorem openBlockIfNeeded_aside (blockIndex : ℕ) (block : ContentBlock) :
    Keeps asideFrame (openBlockIfNeeded blockIndex block) :=
  .bind .current fun _ => .when _ <| .bind closeOpenBlocks_aside fun _ =>
    .bind (.emit (List.forall_mem_singleton.2 rfl)) fun _ => .update fun _ => ⟨rfl, rfl⟩

theorem blockIndexFor_aside (key : String) : Keeps asideFrame (blockIndexFor key) := by
  refine .bind .current fun s => ?_
  split
  · exact .pure _
  · exact .bind (.update fun _ => ⟨rfl, rfl⟩) fun _ => .pure _

theorem openBlock_aside (key : String) (block : ContentBlock) :
    Keeps asideFrame (openBlock key block) :=
  .bind (blockIndexFor_aside key) fun _ => .bind (openBlockIfNeeded_aside _ _) fun _ => .pure _

theorem markDelta_aside (blockIndex : ℕ) : Keeps asideFrame (markDelta blockIndex) :=
  .update fun _ => ⟨rfl, rfl⟩

theorem sendDelta_aside (blockIndex : ℕ) {delta : BlockDelta}
    (h : isHeard (.contentBlockDelta (.at blockIndex) delta) = false) :
    Keeps asideFrame (sendDelta blockIndex delta) :=
  .emit (List.forall_mem_singleton.2 h)

/-- A fragment of no call. -/
theorem translate_aside {f : Fragment} (h : ∀ k, f.part ≠ some (.call k)) :
    Keeps asideFrame f.translate := by
  cases f with
  | quiet => exact .pure ()
  | created response =>
    exact .bind (.update fun _ => ⟨rfl, rfl⟩) fun _ => .bind .current fun _ =>
      .bind (.ofExcept _) fun _ => .emit (List.forall_mem_singleton.2 rfl)
  | textDelta key delta =>
    exact .bind (openBlock_aside _ _) fun _ => .bind (sendDelta_aside _ rfl) fun _ =>
      markDelta_aside _
  | textDone key text =>
    exact .bind (openBlock_aside _ _) fun _ => .bind .current fun _ =>
      .when _ (sendDelta_aside _ rfl)
  | summaryDelta key delta =>
    exact .bind (openBlock_aside _ _) fun _ => .bind (sendDelta_aside _ rfl) fun _ =>
      markDelta_aside _
  | summaryDone key text =>
    exact .bind (openBlock_aside _ _) fun _ => .bind .current fun _ =>
      .when _ (sendDelta_aside _ rfl)
  | reasoningDone key signature isSummaryMissing =>
    exact .bind (openBlock_aside _ _) fun _ => .bind (.when _ (sendDelta_aside _ rfl)) fun _ =>
      .bind (sendDelta_aside _ rfl) fun _ => markDelta_aside _
  | compactionDone key signature =>
    exact .bind (openBlock_aside _ _) fun _ => .bind .current fun _ =>
      .bind (.when _ (sendDelta_aside _ rfl)) fun _ =>
        .bind (sendDelta_aside _ rfl) fun _ => markDelta_aside _
  | callAdded k => exact absurd rfl (h k)
  | callDelta k => exact absurd rfl (h k)
  | callDone k => exact absurd rfl (h k)

/-! ## One delta -/

/-- How many breaks the row has in which the last delta of a call ended. -/
def countOf (k : MapKey) (s : ResponsesStreamState) : ℕ :=
  ((s.functionCallStateByOutputIndex.get k).map (·.consecutiveWhitespaceCount)).getD 0

/-- The block of a call, if the call is known, is `i`. -/
def BlockAt (k : MapKey) (i : ℕ) (s : ResponsesStreamState) : Prop :=
  ∀ call, s.functionCallStateByOutputIndex.get k = some call → call.blockIndex = i

variable {k : MapKey} {s : ResponsesStreamState} {m : List AnthropicStreamEventData}

theorem heard_eq_nil {events : List AnthropicStreamEventData}
    (h : ∀ e ∈ events, isHeard e = false) : heard events = [] :=
  List.filter_eq_nil_iff.2 fun e he => by simp [h e he]

theorem wp_aside {α : Type} {x : ResponsesTranslator α} (h : Keeps asideFrame x) :
    wp hear x (fun _ s' m' => m' = m ∧ asideFrame.moves s s') s m := by
  refine h.hoare (P := fun s' m' => m' = m ∧ asideFrame.moves s s') ?_ s m
    ⟨rfl, asideFrame.refl s⟩
  rintro s₁ s₂ m₁ events ⟨rfl, hmoves⟩ hmoves' hemits
  rw [foldl_hear, heard_eq_nil hemits, List.append_nil]
  exact ⟨rfl, asideFrame.trans hmoves hmoves'⟩

/-- The call is known from here on, and its count is what it was. -/
theorem openFunctionCallBlock_hear (toolCallId name : Val) :
    wp hear (openFunctionCallBlock k toolCallId name)
      (fun i s' m' => m' = m ∧ s'.messageCompleted = s.messageCompleted ∧ BlockAt k i s ∧
        ∃ call, s'.functionCallStateByOutputIndex.get k = some call ∧ call.blockIndex = i ∧
          call.consecutiveWhitespaceCount = countOf k s) s m := by
  rw [openFunctionCallBlock, wp_bind, functionCallFor, wp_bind, wp_current]
  cases hget : s.functionCallStateByOutputIndex.get k with
  | some call =>
    rw [wp_pure, wp_bind]
    refine wp_mono (wp_aside (openBlockIfNeeded_aside _ _)) ?_
    rintro _ s' m' ⟨rfl, hcalls, hcompleted⟩
    refine ⟨rfl, hcompleted, fun call' hcall' => ?_, call, ?_, rfl, ?_⟩
    · rw [hget] at hcall'
      rw [Option.some_inj.mp hcall']
    · rw [hcalls, hget]
    · simp [countOf, hget]
  | none =>
    simp only [wp_bind, wp_update, wp_pure]
    refine wp_mono (wp_aside (openBlockIfNeeded_aside _ _)) ?_
    rintro _ s' m' ⟨rfl, hcalls, hcompleted⟩
    have hknown := (congrArg (Entries.get · k) hcalls).trans (Entries.get_set_self _ _ _)
    refine ⟨rfl, hcompleted, fun call' hcall' => ?_, _, hknown, rfl, ?_⟩
    · rw [hget] at hcall'
      cases hcall'
    · simp [countOf, hget]

/-- What a delta of a call sends on. -/
def argumentsDelta (i : ℕ) (text : String) : AnthropicStreamEventData :=
  .contentBlockDelta (.at i) (.inputJsonDelta (some (.string text)))

theorem handleFunctionCallArgumentsValidationError_hear (reason : String) :
    wp hear (handleFunctionCallArgumentsValidationError reason)
      (fun _ s' m' => s'.messageCompleted = true ∧ m' = m ++ [.error reason]) s m := by
  rw [handleFunctionCallArgumentsValidationError, wp_bind, closeAllOpenBlocks, wp_bind]
  refine wp_mono (wp_aside closeOpenBlocks_aside) ?_
  rintro _ s' m' ⟨rfl, -⟩
  exact ⟨rfl, rfl⟩

/-- One delta of a call: it is sent on and its row goes on in the next one, or white space ends
the stream. -/
theorem translate_callDelta (text : String) :
    wp hear (Fragment.callDelta k text).translate
      (fun _ s' m' => ∃ i, BlockAt k i s ∧
        match updateWhitespaceRunState (countOf k s) (charsOf text.toList) with
        | none => s'.messageCompleted = true ∧ m' = m ++ [.error TOO_MUCH_WHITESPACE]
        | some n => s'.messageCompleted = s.messageCompleted ∧ m' = m ++ [argumentsDelta i text] ∧
            countOf k s' = n ∧ (s'.functionCallStateByOutputIndex.get k).isSome ∧ BlockAt k i s')
      s m := by
  rw [Fragment.translate, wp_bind]
  refine wp_mono (openFunctionCallBlock_hear none none) ?_
  rintro i s' m' ⟨rfl, hcompleted, hat, call, hget, rfl, hcount⟩
  have hchars : iterate (some (.string text)) = .ok (charsOf text.toList) := rfl
  rw [sendArguments, wp_bind, wp_current, hget]
  simp only [hchars, hcount, wp_bind, wp_ofExcept, Except.ok.injEq]
  rintro _ rfl
  cases hrun : updateWhitespaceRunState (countOf k s) (charsOf text.toList) with
  | none =>
    refine wp_mono (handleFunctionCallArgumentsValidationError_hear _) ?_
    rintro _ s'' m'' ⟨hdone, rfl⟩
    exact ⟨_, hat, hdone, rfl⟩
  | some n =>
    simp only [wp_bind, wp_update, sendDelta, markDelta, wp_emit]
    refine ⟨_, hat, hcompleted, rfl, ?_, ?_, ?_⟩
    · simp [countOf, Entries.get_set_self]
    · simp [Entries.get_set_self]
    · intro call' hcall'
      rw [Entries.get_set_self] at hcall'
      rw [← Option.some_inj.mp hcall']

/-! ## All deltas -/

/-- Fragments with these deltas for the call, and otherwise of no call. -/
inductive Feeds (k : MapKey) : List Fragment → List String → Prop
  | nil : Feeds k [] []
  | delta (text : String) {fragments : List Fragment} {deltas : List String}
      (h : Feeds k fragments deltas) : Feeds k (.callDelta k text :: fragments) (text :: deltas)
  | aside {f : Fragment} {fragments : List Fragment} {deltas : List String}
      (hf : ∀ k', f.part ≠ some (.call k')) (h : Feeds k fragments deltas) :
      Feeds k (f :: fragments) deltas

/-- The characters of all deltas together. -/
def textOf (deltas : List String) : List Char := deltas.flatMap (·.toList)

theorem exists_blockAt (k : MapKey) (s : ResponsesStreamState) : ∃ i, BlockAt k i s := by
  cases h : s.functionCallStateByOutputIndex.get k with
  | none => exact ⟨0, fun call hcall => by rw [h] at hcall; cases hcall⟩
  | some known =>
    refine ⟨known.blockIndex, fun call hcall => ?_⟩
    rw [h] at hcall
    rw [Option.some_inj.mp hcall]

theorem exists_translate {f : Fragment} (h : f.isReadable) (s : ResponsesStreamState) :
    ∃ s' events, f.translate s = .ok ((), s', events) := by
  cases hs : f.translate s with
  | error e =>
    have hfails := (translate_failsIff f s).1 (by rw [hs]; rfl)
    rw [h] at hfails
    cases hfails
  | ok r =>
    obtain ⟨_, s', events⟩ := r
    exact ⟨s', events, rfl⟩

/-- What a run over the fragments of a call ends in. -/
def EndsAs (i : ℕ) (deltas : List String) (count : Option ℕ)
    (out : Outcome TypeError ResponsesStreamState AnthropicStreamEventData) : Prop :=
  match count with
  | some _ => out.state.messageCompleted = false ∧ heard out.outputs = deltas.map (argumentsDelta i)
  | none => out.state.messageCompleted = true ∧ ∃ sent, sent <+: deltas ∧
      heard out.outputs = sent.map (argumentsDelta i) ++ [.error TOO_MUCH_WHITESPACE]

/-- What was sent before goes in front. -/
theorem EndsAs.after {i : ℕ} (sent : List String) {deltas : List String} {count : Option ℕ}
    {out : Outcome TypeError ResponsesStreamState AnthropicStreamEventData}
    {events : List AnthropicStreamEventData} (h : EndsAs i deltas count out)
    (hevents : heard events = sent.map (argumentsDelta i)) :
    EndsAs i (sent ++ deltas) count ⟨out.state, events ++ out.outputs, out.failure⟩ := by
  have happend : heard (events ++ out.outputs) = heard events ++ heard out.outputs :=
    List.filter_append ..
  cases count with
  | some n => exact ⟨h.1, by rw [happend, hevents, h.2, List.map_append]⟩
  | none =>
    obtain ⟨hdone, us, hus, hheard⟩ := h
    refine ⟨hdone, sent ++ us, (List.prefix_append_right_inj sent).2 hus, ?_⟩
    rw [happend, hevents, hheard, List.map_append, List.append_assoc]

theorem runUntil_feeds {fragments : List Fragment} {deltas : List String}
    (h : Feeds k fragments deltas) (hr : ∀ f ∈ fragments, f.isReadable)
    (hopen : s.messageCompleted = false) :
    let out := runUntil (·.messageCompleted) Fragment.translate s fragments
    out.failure = none ∧ ∃ i, BlockAt k i s ∧
      EndsAs i deltas (updateWhitespaceRunState (countOf k s) (charsOf (textOf deltas))) out := by
  induction h generalizing s with
  | nil =>
    obtain ⟨i, hat⟩ := exists_blockAt k s
    exact ⟨rfl, i, hat, hopen, rfl⟩
  | @delta text fragments deltas h ih =>
    obtain ⟨hf, hrest⟩ := List.forall_mem_cons.1 hr
    obtain ⟨s', events, hs⟩ := exists_translate hf s
    obtain ⟨i, hat, hstep⟩ := wp_apply (translate_callDelta (m := []) text) hs
    rw [foldl_hear, List.nil_append] at hstep
    have htext : textOf (text :: deltas) = text.toList ++ textOf deltas := rfl
    simp only [runUntil, hs]
    rw [htext, charsOf_append, updateWhitespaceRunState_append]
    cases hrun : updateWhitespaceRunState (countOf k s) (charsOf text.toList) with
    | none =>
      rw [hrun] at hstep
      rw [if_pos hstep.1]
      exact ⟨rfl, i, hat, hstep.1, [], List.nil_prefix, hstep.2⟩
    | some n =>
      rw [hrun] at hstep
      obtain ⟨hcompleted, hevents, hcount, hknown, hat'⟩ := hstep
      have hopen' : s'.messageCompleted = false := hcompleted.trans hopen
      obtain ⟨hfailure, i', hblock, hends⟩ := ih hrest hopen'
      -- the block of the call stays the same
      obtain ⟨call, hcall⟩ := Option.isSome_iff_exists.1 hknown
      obtain rfl : i = i' := (hat' call hcall).symm.trans (hblock call hcall)
      rw [hopen', if_neg Bool.false_ne_true]
      refine ⟨hfailure, i, hat, ?_⟩
      rw [Option.bind_some, ← hcount]
      exact hends.after [text] hevents
  | @aside f fragments deltas hf h ih =>
    obtain ⟨hf', hrest⟩ := List.forall_mem_cons.1 hr
    obtain ⟨s', events, hs⟩ := exists_translate hf' s
    obtain ⟨⟨hcalls, hcompleted⟩, hemits⟩ := translate_aside hf _ _ _ _ hs
    have hopen' : s'.messageCompleted = false := hcompleted.trans hopen
    obtain ⟨hfailure, i, hblock, hends⟩ := ih hrest hopen'
    simp only [runUntil, hs]
    rw [hopen', if_neg Bool.false_ne_true]
    refine ⟨hfailure, i, ?_, ?_⟩
    · rwa [BlockAt, hcalls] at hblock
    · rw [countOf, hcalls] at hends
      exact hends.after [] (heard_eq_nil hemits)

/-! ## The stream -/

/-- The stream ended with the error about white space. -/
def BrokenOff (out : Outcome TypeError ResponsesStreamState AnthropicStreamEventData) : Prop :=
  out.state.messageCompleted ∧ buildErrorEvent TOO_MUCH_WHITESPACE ∈ out.outputs

theorem error_mem_heard {events : List AnthropicStreamEventData} (reason : String) :
    AnthropicStreamEventData.error reason ∈ heard events ↔ .error reason ∈ events := by
  simp [heard, isHeard]

/-- However the arguments of a call are cut into deltas, the stream is broken off exactly when
they run away in white space, and otherwise every delta is sent on unchanged, all to one block.
Before the first delta the call is unknown, or announced without any. -/
theorem streamResponses_feeds (parse : String → Option Json) {rawEvents : List RawEvent}
    {fragments : List Fragment} {deltas : List String}
    (hread : List.Forall₂ (fun rawEvent f => readFragment rawEvent = some f) rawEvents fragments)
    (hfeeds : Feeds k fragments deltas) (hcount : countOf k s = 0)
    (hopen : s.messageCompleted = false) :
    let out := streamResponses parse s rawEvents
    out.failure = none ∧ (BrokenOff out ↔ RunsAway (textOf deltas)) ∧
      (¬BrokenOff out → ∃ i, heard out.outputs = deltas.map (argumentsDelta i)) := by
  have hrun : streamResponses parse s rawEvents =
      runUntil (·.messageCompleted) Fragment.translate s fragments :=
    runUntil_congr (hread.imp fun _ _ => translateResponsesStreamEvent_eq_translate parse) s
  obtain ⟨hfailure, i, -, hends⟩ := runUntil_feeds hfeeds (forall_isReadable hread) hopen
  rw [hcount] at hends
  intro out
  rw [← hrun] at hfailure hends
  refine ⟨hfailure, ?_⟩
  rw [← updateWhitespaceRunState_eq_none_iff]
  cases hstate : updateWhitespaceRunState 0 (charsOf (textOf deltas)) with
  | some n =>
    rw [hstate] at hends
    have hnot : ¬BrokenOff out := fun hbroken => by
      have hcompleted := hbroken.1
      rw [hends.1] at hcompleted
      cases hcompleted
    exact ⟨iff_of_false hnot nofun, fun _ => ⟨i, hends.2⟩⟩
  | none =>
    rw [hstate] at hends
    obtain ⟨hcompleted, sent, -, hheard⟩ := hends
    have hbroken : BrokenOff out := by
      refine ⟨hcompleted, (error_mem_heard _).1 ?_⟩
      rw [hheard]
      simp
    exact ⟨iff_of_true hbroken rfl, fun hnot => absurd hbroken hnot⟩

/-- A frame with a delta of the call under the output index 0. -/
def argumentsFrame (delta : String) : RawEvent :=
  ⟨0, .object [("type", .string "response.function_call_arguments.delta"),
    ("output_index", .number (.ofNat 0)), ("delta", .string delta)]⟩

theorem readFragment_argumentsFrame {text : String} (h : text ≠ "") :
    readFragment (argumentsFrame text) = some (.callDelta (.number "0") text) := by
  have hread : textOrNothing (some (.string text)) = some text :=
    if_pos (decide_eq_true h)
  have hframe : readFragment (argumentsFrame text) =
      (textOrNothing (some (.string text))).bind fun delta =>
        some (if delta = "" then .quiet else .callDelta (.number "0") delta) := rfl
  rw [hframe, hread, Option.bind_some, if_neg h]

def elevenTabs : String := "\t\t\t\t\t\t\t\t\t\t\t"

/-- Twice eleven tabs are too many, whichever frame they came with. -/
theorem streamResponses_feeds_tabs :
    BrokenOff (streamResponses (fun _ => none) (createResponsesStreamState none)
        [argumentsFrame elevenTabs, argumentsFrame elevenTabs]) ∧
      ∃ i, heard (streamResponses (fun _ => none) (createResponsesStreamState none)
        [argumentsFrame elevenTabs, argumentsFrame "{}"]).outputs =
          [argumentsDelta i elevenTabs, argumentsDelta i "{}"] := by
  have hread : ∀ t u : String, t ≠ "" → u ≠ "" →
      List.Forall₂ (fun rawEvent f => readFragment rawEvent = some f)
        [argumentsFrame t, argumentsFrame u]
        [.callDelta (.number "0") t, .callDelta (.number "0") u] := fun t u ht hu =>
    .cons (readFragment_argumentsFrame ht) (.cons (readFragment_argumentsFrame hu) .nil)
  have hfeeds : ∀ t u : String,
      Feeds (.number "0") [.callDelta (.number "0") t, .callDelta (.number "0") u] [t, u] :=
    fun t u => .delta t (.delta u .nil)
  have hbroken := (streamResponses_feeds (fun _ => none) (s := createResponsesStreamState none)
    (hread elevenTabs elevenTabs (by decide) (by decide)) (hfeeds _ _) rfl rfl).2.1
  have hsent := (streamResponses_feeds (fun _ => none) (s := createResponsesStreamState none)
    (hread elevenTabs "{}" (by decide) (by decide)) (hfeeds _ _) rfl rfl).2
  refine ⟨hbroken.2 ⟨[], textOf [elevenTabs, elevenTabs], [], by decide,
    List.all_eq_true.1 (by decide), by decide⟩, hsent.2 fun h => ?_⟩
  have hnone := (updateWhitespaceRunState_eq_none_iff _).2 (hsent.1.1 h)
  revert hnone
  decide

end Maximal.Responses
