import Maximal.Messages.ResponsesBlocks
import Maximal.Messages.ResponsesPartBlocks

/-!
# Delivery of parts

A part arrives as deltas, and after them at most one fragment repeats all of its text. Whatever
the deltas said is not sent twice, as long as no part interrupts another and no arguments run away
in white space.

## Main definitions

- `Speaks`, `Delivers` — the fragments of a part, and the text they deliver
- `endsResponse` — the frames that end a response

## Main results

- `Delivers.text_partBlock` — the block of a part says the text of the part
- `delivered_once` — each part is started once, and its text is sent once
-/

namespace Maximal.Responses

open Js Emitter Turns AnthropicStreamEventData

namespace Fragment

/-- The text of a fragment that is one of several. -/
def delta : Fragment → Option String
  | .textDelta _ delta | .summaryDelta _ delta | .callDelta _ delta => some delta
  | .callAdded _ _ _ initialArguments => some initialArguments
  | _ => none

/-- The text of a fragment that repeats what the ones before it said. -/
def whole : Fragment → Option String
  | .textDone _ text | .summaryDone _ text | .callDone _ text => some text
  | _ => none

/-- Only the announcement of a call may be without text. -/
def isDelta : Fragment → Bool
  | .textDelta _ delta | .summaryDelta _ delta | .callDelta _ delta => delta ≠ ""
  | .callAdded _ _ _ _ => true
  | _ => false

end Fragment

/-- What the deltas say one after the other. -/
def said (fs : List Fragment) : String := fs.foldl (fun s f => s ++ f.delta.getD "") ""

/-- Non-empty deltas, then at most one fragment with the whole text. The summaries of a reasoning
item come one after the other. -/
inductive Speaks : List Fragment → String → Prop
  | deltas {fs : List Fragment} (h : ∀ f ∈ fs, f.isDelta) : Speaks fs (said fs)
  | whole {fs : List Fragment} {f : Fragment} {text : String} (h : ∀ f ∈ fs, f.isDelta)
      (hf : f.whole = some text) (hsaid : said fs = "" ∨ said fs = text) : Speaks (fs ++ [f]) text
  | more {fs gs : List Fragment} {text key : String} (h : Speaks fs text)
      (hgs : ∀ g ∈ gs, g.isDelta ∧ g.part = some (.block key)) :
      Speaks (fs ++ (gs ++ [.summaryDone key (said gs)])) (text ++ said gs)

/-- The fragments of a part up to the end of its item. An item without a text of its own shows a
placeholder. -/
inductive Delivers : List Fragment → String → Prop
  | unsigned {fs : List Fragment} {text : String} (h : Speaks fs text) : Delivers fs text
  | signed {fs : List Fragment} {text : String} (h : Speaks fs text) (key signature : String) :
      Delivers (fs ++ [.reasoningDone key signature false]) text
  | withoutSummary (key signature : String) :
      Delivers [.reasoningDone key signature true] THINKING_TEXT
  | compaction (key signature : String) :
      Delivers [.compactionDone key signature] THINKING_TEXT

/-! ## The block of a part -/

theorem said_concat (fs : List Fragment) (f : Fragment) :
    said (fs ++ [f]) = said fs ++ f.delta.getD "" := by
  rw [said, List.foldl_append]
  rfl

theorem exists_fresh (index : ℕ) (fs : List Fragment) :
    ∃ start, partBlock index fs = fs.foldl Fragment.extend (.fresh start) := by
  cases fs with
  | nil => exact ⟨_, rfl⟩
  | cons f fs => exact ⟨_, rfl⟩

/-- A delta is said and noted, unless it is an announcement without arguments. -/
theorem extend_of_isDelta {f : Fragment} (h : f.isDelta) (b : PartBlock) :
    f.extend b = if f.delta.getD "" = "" then b else (b.say (f.delta.getD "")).mark := by
  cases f with
  | textDelta key delta => exact (if_neg (of_decide_eq_true h)).symm
  | summaryDelta key delta => exact (if_neg (of_decide_eq_true h)).symm
  | callDelta outputIndex delta => exact (if_neg (of_decide_eq_true h)).symm
  | callAdded outputIndex toolCallId name initialArguments => rfl
  | _ => cases h

theorem text_extend_of_whole {f : Fragment} {text : String} (h : f.whole = some text)
    (b : PartBlock) : (f.extend b).text = if b.hasDelta then b.text else b.text ++ text := by
  cases f with
  | textDone key text' =>
    obtain rfl := Option.some.inj h
    rw [Fragment.extend]
    split <;> rfl
  | summaryDone key text' =>
    obtain rfl := Option.some.inj h
    rw [Fragment.extend]
    split <;> rfl
  | callDone outputIndex finalArguments =>
    obtain rfl := Option.some.inj h
    rw [Fragment.extend]
    by_cases hb : b.hasDelta
    · rw [if_pos (.inl hb), if_pos hb]
    · rw [if_neg hb]
      by_cases ht : finalArguments = ""
      · rw [if_pos (.inr ht), ht, String.append_empty]
      · rw [if_neg (by tauto)]
        rfl
  | _ => cases h

/-- Deltas add what they say to the block, and mark it if they say anything. -/
theorem foldl_deltas {fs : List Fragment} (h : ∀ f ∈ fs, f.isDelta) (b : PartBlock) :
    (fs.foldl Fragment.extend b).text = b.text ++ said fs ∧
      ((fs.foldl Fragment.extend b).hasDelta ↔ b.hasDelta ∨ said fs ≠ "") := by
  induction fs using List.reverseRecOn with
  | nil => simp [said]
  | append_singleton fs f ih =>
    obtain ⟨htext, hdelta⟩ := ih fun g hg => h g (List.mem_append_left _ hg)
    rw [List.foldl_append, List.foldl_cons, List.foldl_nil, said_concat,
      extend_of_isDelta (h f (by simp))]
    split
    · next hf =>
      rw [hf, String.append_empty]
      exact ⟨htext, hdelta⟩
    · next hf =>
      refine ⟨?_, iff_of_true rfl (.inr fun hempty => ?_)⟩
      · show (fs.foldl Fragment.extend b).text ++ _ = _
        rw [htext, String.append_assoc]
      · exact hf (String.append_eq_empty_iff.1 hempty).2

/-- A fragment with the whole text of the deltas before it adds nothing. -/
theorem foldl_deltas_whole {fs : List Fragment} {f : Fragment} (h : ∀ f ∈ fs, f.isDelta)
    (hf : f.whole = some (said fs)) (b : PartBlock) :
    ((fs ++ [f]).foldl Fragment.extend b).text = b.text ++ said fs := by
  obtain ⟨htext, hdelta⟩ := foldl_deltas h b
  rw [List.foldl_append, List.foldl_cons, List.foldl_nil, text_extend_of_whole hf, htext]
  split
  · rfl
  · next hb =>
    have hempty : said fs = "" := not_not.1 fun hne => hb (hdelta.2 (.inr hne))
    rw [hempty, String.append_empty]

theorem Speaks.text_foldl {fs : List Fragment} {text : String} (h : Speaks fs text)
    (start : ContentBlock) : (fs.foldl Fragment.extend (.fresh start)).text = text := by
  induction h with
  | deltas h => exact (foldl_deltas h _).1.trans String.empty_append
  | whole h hf hsaid =>
    obtain ⟨htext, hdelta⟩ := foldl_deltas h (.fresh start)
    rw [List.foldl_append, List.foldl_cons, List.foldl_nil, text_extend_of_whole hf, htext]
    split
    · next hb =>
      have hne : said _ ≠ "" := (hdelta.1 hb).resolve_left Bool.noConfusion
      exact String.empty_append.trans (hsaid.resolve_left hne)
    · next hb =>
      have hempty : said _ = "" := not_not.1 fun hne => hb (hdelta.2 (.inr hne))
      rw [hempty]
      exact String.empty_append
  | more h hgs ih =>
    rw [List.foldl_append, foldl_deltas_whole (fun g hg => (hgs g hg).1) rfl, ih]

/-- The block of a part says the text of the part. -/
theorem Delivers.text_foldl {fs : List Fragment} {text : String} (h : Delivers fs text)
    (start : ContentBlock) : (fs.foldl Fragment.extend (.fresh start)).text = text := by
  cases h with
  | unsigned h => exact h.text_foldl start
  | signed h key signature =>
    rw [List.foldl_append]
    exact h.text_foldl start
  | withoutSummary key signature => exact String.empty_append
  | compaction key signature => exact String.empty_append

theorem Delivers.text_partBlock {fs : List Fragment} {text : String} (h : Delivers fs text)
    (index : ℕ) : (partBlock index fs).text = text := by
  obtain ⟨start, hstart⟩ := exists_fresh index fs
  rw [hstart, h.text_foldl]

/-! ## The end of a call -/

theorem Fragment.whole_of_isCallDone {f : Fragment} {k : MapKey} (h : f.isCallDone k) :
    f.isDelta = false := by
  cases f with
  | callDone => rfl
  | _ => cases h

/-- After the end of a call its part has no fragment. -/
theorem Speaks.not_after_callDone {fs : List Fragment} {text : String} (h : Speaks fs text)
    {f g : Fragment} {k : MapKey} (hsub : [f, g].Sublist fs) (hf : f.isCallDone k) :
    g.part ≠ some (.call k) := by
  have hdelta : f.isDelta = false := Fragment.whole_of_isCallDone hf
  induction h with
  | deltas h => exact Bool.noConfusion (hdelta.symm.trans (h f (hsub.subset (by simp))))
  | @whole fs last text h hlast hsaid =>
    have hmem : f ∈ fs := by
      rcases pair_sublist_concat hsub with hfs | hfs
      · exact hfs.subset (by simp)
      · exact hfs.1
    exact Bool.noConfusion (hdelta.symm.trans (h f hmem))
  | @more fs gs text key h hgs ih =>
    rcases pair_sublist_append hsub with hfs | hg
    · exact ih hfs
    · rcases List.mem_append.1 hg with hg | hg
      · simp [(hgs g hg).2]
      · simp [List.mem_singleton.1 hg, Fragment.part]

theorem Delivers.not_after_callDone {fs : List Fragment} {text : String} (h : Delivers fs text)
    {f g : Fragment} {k : MapKey} (hsub : [f, g].Sublist fs) (hf : f.isCallDone k) :
    g.part ≠ some (.call k) := by
  cases h with
  | unsigned h => exact h.not_after_callDone hsub hf
  | signed h key signature =>
    rcases pair_sublist_concat hsub with hfs | ⟨-, rfl⟩
    · exact h.not_after_callDone hfs hf
    · simp [Fragment.part]
  | withoutSummary key signature => simpa using hsub.length_le
  | compaction key signature => simpa using hsub.length_le

/-! ## The end of a response -/

def endsResponse (rawEvent : RawEvent) : Bool :=
  match (rawEvent.value.get "type").asString with
  | some "response.completed" => true
  | some "response.incomplete" => true
  | some "response.failed" => true
  | some "error" => true
  | _ => false

/-- Events without content; the state may be anything. -/
def quietFrame : Frame ResponsesStreamState AnthropicStreamEventData where
  moves _ _ := True
  refl _ := trivial
  trans _ _ := trivial
  emits e := e.isContent = false

theorem closeBlockIfOpen_keeps (blockIndex : ℕ) : Keeps quietFrame (closeBlockIfOpen blockIndex) :=
  .bind .current fun _ => .when _ <| .bind (.emit (List.forall_mem_singleton.2 rfl)) fun _ =>
    .update fun _ => trivial

theorem closeAllOpenBlocks_keeps : Keeps quietFrame closeAllOpenBlocks :=
  .bind (.bind .current fun _ => .forEach closeBlockIfOpen_keeps _) fun _ =>
    .update fun _ => trivial

theorem handleResponseCompleted_keeps (parse : String → Option Json) (type : String)
    (rawEvent : Json) : Keeps quietFrame (handleResponseCompleted parse type rawEvent) := by
  refine .bind closeAllOpenBlocks_keeps fun _ => ?_
  dsimp only
  split
  · exact .bind (.emit (List.forall_mem_singleton.2 rfl)) fun _ =>
      .update fun _ => trivial
  · exact .bind (.ofExcept _) fun _ =>
      .bind (.emit (List.forall_mem_cons.2 ⟨rfl, List.forall_mem_singleton.2 rfl⟩)) fun _ =>
        .update fun _ => trivial

/-- A frame that ends the response brings no content, whether it is well formed or not. -/
theorem translateResponsesStreamEvent_keeps (parse : String → Option Json) {rawEvent : RawEvent}
    (h : endsResponse rawEvent) :
    Keeps quietFrame (translateResponsesStreamEvent parse rawEvent) := by
  refine .when _ ?_
  unfold endsResponse at h
  unfold dispatchResponsesStreamEvent
  split at h
  · next htype =>
    rw [htype]
    exact handleResponseCompleted_keeps _ _ _
  · next htype =>
    rw [htype]
    exact handleResponseCompleted_keeps _ _ _
  · next htype =>
    rw [htype]
    exact .bind closeAllOpenBlocks_keeps fun _ =>
      .bind (.emit (List.forall_mem_singleton.2 rfl)) fun _ =>
        .update fun _ => trivial
  · next htype =>
    rw [htype]
    exact .bind (.update fun _ => trivial) fun _ =>
      .emit (List.forall_mem_singleton.2 rfl)
  · cases h

/-! ## Whole responses -/

theorem orderly_of_delivers {fragments : List Fragment} {text : Part → String}
    (hu : Uninterrupted (fragments.filterMap (·.part)))
    (hd : ∀ p ∈ parts fragments, Delivers (fragmentsOf fragments p) (text p))
    (hr : ∀ k, ¬RunsAway (argumentChars fragments k)) : Orderly fragments where
  uninterrupted := hu
  finished k f hf g hg hsub hdone hpart := by
    have hmem : .call k ∈ parts fragments := mem_parts.2 ⟨g, hg, hpart⟩
    have hfiltered : [f, g].Sublist (fragmentsOf fragments (.call k)) := by
      have hfilter := hsub.filter (fun f : Fragment => decide (f.part = some (.call k)))
      rwa [List.filter_eq_self.2] at hfilter
      simp [part_of_isCallDone hdone, hpart]
    exact (hd _ hmem).not_after_callDone hfiltered hdone hpart
  restrained := hr

theorem map_index_streamed (bs : List PartBlock) :
    (bs.mapIdx fun i b => b.streamed i).map (·.index) = List.range bs.length := by
  refine List.ext_getElem (by simp) fun i hi hi' => ?_
  simp [PartBlock.streamed]

/-- What the client reads back from a whole response: a block for each part. -/
theorem readBlocks_run (parse : String → Option Json) (estimatedInputTokens : Option Number)
    {rawEvents ends : List RawEvent} {fragments : List Fragment}
    (hread : List.Forall₂ (fun rawEvent f => readFragment rawEvent = some f) rawEvents fragments)
    (hends : ∀ rawEvent ∈ ends, endsResponse rawEvent) (h : Orderly fragments) :
    readBlocks (run (translateResponsesStreamEvent parse)
      (createResponsesStreamState estimatedInputTokens) (rawEvents ++ ends)).outputs =
        (contents fragments).mapIdx fun i b => b.streamed i := by
  obtain ⟨hfailure, hfollows⟩ := run_contents h (forall_isReadable hread) estimatedInputTokens
  rw [← run_readFragment parse hread] at hfailure hfollows
  -- the frames that end the response add no content
  have hquiet := (Keeps.run (fun i hi => translateResponsesStreamEvent_keeps parse (hends i hi))
    (run (translateResponsesStreamEvent parse)
      (createResponsesStreamState estimatedInputTokens) rawEvents).state).2
  rw [run_append hfailure]
  exact (readBlocks_append_quiet hquiet).trans hfollows.blocks

/-- However the fragments of different parts follow each other, as long as no part is interrupted
and no arguments run away: each part is started once, in the order in which the parts began, and
what is sent for it is its text. -/
theorem delivered_once (parse : String → Option Json) (estimatedInputTokens : Option Number)
    {rawEvents ends : List RawEvent} {fragments : List Fragment} {text : Part → String}
    (hread : List.Forall₂ (fun rawEvent f => readFragment rawEvent = some f) rawEvents fragments)
    (hends : ∀ rawEvent ∈ ends, endsResponse rawEvent)
    (huninterrupted : Uninterrupted (fragments.filterMap (·.part)))
    (hdelivers : ∀ p ∈ parts fragments, Delivers (fragmentsOf fragments p) (text p))
    (hrestrained : ∀ k, ¬RunsAway (argumentChars fragments k)) :
    let out := run (translateResponsesStreamEvent parse)
      (createResponsesStreamState estimatedInputTokens) (rawEvents ++ ends)
    started out.outputs = List.range (parts fragments).length ∧
      ∀ i p, (parts fragments)[i]? = some p → saidAt i out.outputs = text p := by
  intro out
  have hblocks : readBlocks out.outputs = _ := readBlocks_run parse estimatedInputTokens hread hends
    (orderly_of_delivers huninterrupted hdelivers hrestrained)
  have hdisciplined : Blocks.Disciplined _ [] (out.outputs.map bounded) :=
    (responses_run_blockDiscipline parse estimatedInputTokens (rawEvents ++ ends)).1
  have hstarted : started out.outputs = List.range (parts fragments).length := by
    rw [← map_index_readBlocks, hblocks, map_index_streamed, length_contents]
  refine ⟨hstarted, fun i p hp => ?_⟩
  have hmem : (partBlock i (fragmentsOf fragments p)).streamed i ∈ readBlocks out.outputs := by
    rw [hblocks]
    exact List.mem_of_getElem? (i := i) (by simp [contents, hp])
  have htext := readBlocks_text hdisciplined (hstarted ▸ List.nodup_range) _ hmem
  exact htext.symm.trans ((hdelivers p (List.mem_of_getElem? hp)).text_partBlock i)

/-- A frame about one part, with one more field. -/
def partFrame (type : String) (outputIndex : ℕ) (field text : String) : RawEvent :=
  ⟨0, .object [("type", .string type), ("output_index", .number (.ofNat outputIndex)),
    ("content_index", .number (.ofNat 0)), (field, .string text)]⟩

/-- A text, then a call. -/
def textThenCall : List RawEvent :=
  [partFrame "response.output_text.delta" 0 "delta" "Hel",
    partFrame "response.output_text.delta" 0 "delta" "lo",
    partFrame "response.output_text.done" 0 "text" "Hello",
    partFrame "response.function_call_arguments.delta" 1 "delta" "{}",
    partFrame "response.function_call_arguments.done" 1 "arguments" "{}"]

theorem delivered_once_textThenCall :
    let out := run (translateResponsesStreamEvent fun _ => none) (createResponsesStreamState none)
      (textThenCall ++ [partFrame "response.failed" 1 "message" "late"])
    started out.outputs = [0, 1] ∧ saidAt 0 out.outputs = "Hello" ∧
      saidAt 1 out.outputs = "{}" := by
  let fragments : List Fragment := [.textDelta "0:0" "Hel", .textDelta "0:0" "lo",
    .textDone "0:0" "Hello", .callDelta (.number "1") "{}", .callDone (.number "1") "{}"]
  have hread : List.Forall₂ (fun rawEvent f => readFragment rawEvent = some f) textThenCall
      fragments :=
    .cons rfl (.cons rfl (.cons rfl (.cons rfl (.cons rfl .nil))))
  have hparts : parts fragments = [.block "0:0", .call (.number "1")] := by decide
  have htext : Delivers [.textDelta "0:0" "Hel", .textDelta "0:0" "lo", .textDone "0:0" "Hello"]
      "Hello" :=
    .unsigned (@Speaks.whole [_, _] _ _ (by decide) rfl (.inr (by decide)))
  have hcall : Delivers [.callDelta (.number "1") "{}", .callDone (.number "1") "{}"] "{}" :=
    .unsigned (@Speaks.whole [_] _ _ (by decide) rfl (.inr (by decide)))
  have hdelivers : ∀ p ∈ parts fragments, Delivers (fragmentsOf fragments p)
      (if p = .block "0:0" then "Hello" else "{}") := by
    rw [hparts]
    exact List.forall_mem_cons.2 ⟨htext, List.forall_mem_singleton.2 hcall⟩
  have hrestrained : ∀ k, ¬RunsAway (argumentChars fragments k) := by
    intro k hrun
    have hlen := hrun.lt_length
    by_cases hk : k = .number "1"
    · subst hk
      revert hlen
      decide
    · have hnil : argumentChars fragments k = [] := by
        simp [fragments, argumentChars, fragmentsOf, Fragment.part, Ne.symm hk]
      rw [hnil] at hlen
      cases hlen
  have hends : ∀ rawEvent ∈ [partFrame "response.failed" 1 "message" "late"],
      endsResponse rawEvent := by
    decide
  obtain ⟨hstarted, hsaid⟩ := delivered_once (fun _ => none) none hread hends (by decide)
    hdelivers hrestrained
  exact ⟨hstarted, hsaid 0 (.block "0:0") rfl, hsaid 1 (.call (.number "1")) rfl⟩

/-- The property for one list of frames, whatever interrupts what. -/
def DeliveredOnce (rawEvents : List RawEvent) (fragments : List Fragment) (text : Part → String) :
    Prop :=
  List.Forall₂ (fun rawEvent f => readFragment rawEvent = some f) rawEvents fragments →
    (∀ p ∈ parts fragments, Delivers (fragmentsOf fragments p) (text p)) →
      let out := run (translateResponsesStreamEvent fun _ => none)
        (createResponsesStreamState none) rawEvents
      (started out.outputs).Nodup ∧
        ∀ p ∈ parts fragments, ∃ i ∈ started out.outputs, saidAt i out.outputs = text p

/-- An interrupted part is started again and sent again, and arguments of tabs are withheld. -/
theorem not_always_deliveredOnce :
    (¬DeliveredOnce
      [partFrame "response.output_text.delta" 0 "delta" "a",
        partFrame "response.output_text.delta" 1 "delta" "b",
        partFrame "response.output_text.done" 0 "text" "a"]
      [.textDelta "0:0" "a", .textDelta "1:0" "b", .textDone "0:0" "a"]
      fun p => if p = .block "0:0" then "a" else "b") ∧
    ¬DeliveredOnce
      [partFrame "response.function_call_arguments.delta" 0 "delta"
        "\t\t\t\t\t\t\t\t\t\t\t\t\t\t\t\t\t\t\t\t\t"]
      [.callDelta (.number "0") "\t\t\t\t\t\t\t\t\t\t\t\t\t\t\t\t\t\t\t\t\t"]
      fun _ => "\t\t\t\t\t\t\t\t\t\t\t\t\t\t\t\t\t\t\t\t\t" := by
  constructor
  · intro h
    have htext : Delivers [.textDelta "0:0" "a", .textDone "0:0" "a"] "a" :=
      .unsigned (@Speaks.whole [_] _ _ (by decide) rfl (.inr (by decide)))
    have hother : Delivers [.textDelta "1:0" "b"] "b" := .unsigned (.deltas (by decide))
    have hnodup := (h (.cons rfl (.cons rfl (.cons rfl .nil)))
      (List.forall_mem_cons.2 ⟨htext, List.forall_mem_singleton.2 hother⟩)).1
    exact absurd hnodup (by decide)
  · intro h
    have hsaid := (h (.cons rfl .nil) (List.forall_mem_singleton.2 (.unsigned (.deltas (by decide))))).2
      (.call (.number "0")) (by decide)
    exact absurd hsaid (by decide)

end Maximal.Responses
