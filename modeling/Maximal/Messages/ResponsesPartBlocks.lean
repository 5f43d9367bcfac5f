import Maximal.Messages.ResponsesFailures
import Maximal.Messages.ResponsesParts

/-!
# Parts of a response and their blocks

When no part is interrupted by another, the client reads back one block for each part, in the
order in which the parts began, and finds in it what the fragments of the part brought.

## Main definitions

- `Tracks` — the state of the translator and the blocks the client has read agree with the parts

## Main results

- `translate_hoare` — every fragment takes its part's block one step further
- `run_contents` — what the client reads back after an orderly list of fragments
-/

namespace Maximal.Responses

open Js Emitter Turns

/-! ## Agreement with the state -/

/-- The parts that have begun, what their blocks hold, and the calls that are not done. -/
structure Tracks (ps : List Part) (bs : List PartBlock) (calls : MapKey → Option (ℕ × ℕ))
    (s : ResponsesStreamState) (blocks : List StreamedBlock) : Prop where
  blocks : blocks = bs.mapIdx fun i b => b.streamed i
  next : s.nextContentBlockIndex = bs.length
  openBlocks : s.openBlocks = if bs = [] then [] else [bs.length - 1]
  marks : ∀ i, i ∈ s.blockHasDelta ↔ i + 1 = bs.length ∧ bs.getLast?.any (·.hasDelta)
  keys : ∀ k, s.blockIndexByKey.get k = ps.idxOf? (.block k)
  calls : ∀ k, (s.functionCallStateByOutputIndex.get k).map
    (fun call => (call.blockIndex, call.consecutiveWhitespaceCount)) = calls k

variable {ps : List Part} {bs : List PartBlock} {b : PartBlock}
  {calls : MapKey → Option (ℕ × ℕ)} {s s' : ResponsesStreamState} {blocks : List StreamedBlock}

theorem tracks_init (estimatedInputTokens : Option Number) :
    Tracks [] [] (fun _ => none) (createResponsesStreamState estimatedInputTokens) [] where
  blocks := rfl
  next := rfl
  openBlocks := rfl
  marks i := by simp [createResponsesStreamState]
  keys _ := rfl
  calls _ := rfl

theorem Tracks.openBlocks_concat (h : Tracks ps (bs ++ [b]) calls s blocks) :
    s.openBlocks = [bs.length] := by
  rw [h.openBlocks, if_neg (by simp), List.length_append, List.length_singleton,
    Nat.add_sub_cancel]

theorem Tracks.hasDelta_iff (h : Tracks ps (bs ++ [b]) calls s blocks) :
    bs.length ∈ s.blockHasDelta ↔ b.hasDelta := by
  simp [h.marks]

theorem Tracks.delta (h : Tracks ps (bs ++ [b]) calls s blocks) (d : BlockDelta) :
    Tracks ps (bs ++ [b.add d]) calls s (readEvent blocks (.contentBlockDelta (.at bs.length) d)) := by
  have hlast : ∀ x ∈ bs.mapIdx (fun i b => b.streamed i),
      x.index ≠ (b.streamed bs.length).index := by
    intro x hx
    obtain ⟨i, hi, rfl⟩ := List.mem_mapIdx.1 hx
    exact hi.ne
  constructor
  · rw [h.blocks, List.mapIdx_concat, List.mapIdx_concat]
    exact readEvent_delta_concat hlast d
  · simpa using h.next
  · simpa using h.openBlocks
  · intro i
    simpa [PartBlock.add] using h.marks i
  · exact h.keys
  · exact h.calls

theorem sendText_hoare (delta : Val → BlockDelta) (text : String) :
    Hoare readEvent (Tracks ps (bs ++ [b]) calls) (sendText bs.length delta text) fun _ =>
      Tracks ps (bs ++ [b.add (delta (some (.string text)))]) calls :=
  fun _ _ h => h.delta _

theorem markDelta_hoare :
    Hoare readEvent (Tracks ps (bs ++ [b]) calls) (markDelta bs.length) fun _ =>
      Tracks ps (bs ++ [b.mark]) calls := by
  intro s blocks h
  rw [markDelta, wp_update]
  have hmarks := h.marks
  refine { h with blocks := ?_, next := ?_, openBlocks := ?_, marks := ?_ }
  · rw [h.blocks, List.mapIdx_concat, List.mapIdx_concat]
    rfl
  · simpa using h.next
  · simpa using h.openBlocks
  · intro i
    have hmem : i ∈ (if bs.length ∈ s.blockHasDelta then s.blockHasDelta
        else s.blockHasDelta ++ [bs.length]) ↔ i ∈ s.blockHasDelta ∨ i = bs.length := by
      split
      · next hlen => exact ⟨.inl, fun h => h.elim id fun heq => heq ▸ hlen⟩
      · simp
    have hi := hmarks i
    simp only [List.length_append, List.length_singleton, List.getLast?_concat, Option.any_some,
      Nat.add_right_cancel_iff] at hi ⊢
    rw [hmem, hi, PartBlock.mark]
    simp only [and_true]
    exact ⟨fun h => h.elim And.left id, .inr⟩

theorem Tracks.setCall (h : Tracks ps bs calls s blocks) (k : MapKey)
    (call : FunctionCallStreamState) {index count : ℕ} (hindex : call.blockIndex = index)
    (hcount : call.consecutiveWhitespaceCount = count) :
    Tracks ps bs (Function.update calls k (some (index, count)))
      { s with functionCallStateByOutputIndex := s.functionCallStateByOutputIndex.set k call }
      blocks := by
  subst hindex hcount
  refine { h with calls := fun k' => ?_ }
  by_cases hk : k' = k
  · rw [hk, Function.update_self]
    exact congrArg _ (Entries.get_set_self _ _ _)
  · rw [Function.update_of_ne hk, ← h.calls]
    exact congrArg _ (Entries.get_set_of_ne _ _ hk)

theorem Tracks.deleteCall (h : Tracks ps bs calls s blocks) (k : MapKey) :
    Tracks ps bs (Function.update calls k none)
      { s with functionCallStateByOutputIndex := s.functionCallStateByOutputIndex.delete k }
      blocks := by
  refine { h with calls := fun k' => ?_ }
  by_cases hk : k' = k
  · rw [hk, Function.update_self]
    exact congrArg _ (Entries.get_delete_self _ _)
  · rw [Function.update_of_ne hk, ← h.calls]
    exact congrArg _ (Entries.get_delete_of_ne _ hk)

/-! ## Opening blocks -/

/-- A part that is not open yet closes what is. -/
theorem openBlockIfNeeded_new {i : ℕ} (block : ContentBlock)
    (hopen : s.openBlocks = [] ∨ ∃ j, s.openBlocks = [j]) (hi : i ∉ s.openBlocks) :
    wp readEvent (openBlockIfNeeded i block)
      (fun _ s' blocks' => blocks' = blocks ++ [⟨i, block, "", ""⟩] ∧
        s' = { s with
          openBlocks := [i]
          blockHasDelta := s.blockHasDelta.filter (· ∉ s.openBlocks) }) s blocks := by
  simp only [openBlockIfNeeded, wp_bind, wp_current, wp_when, if_pos hi]
  rw [closeOpenBlocks, wp_bind, wp_current]
  rcases hopen with hnil | ⟨j, hj⟩
  · rw [hnil]
    refine ⟨rfl, ?_⟩
    simp [hnil]
  · rw [hj]
    simp only [forEach, closeBlockIfOpen, wp_bind, wp_current, wp_when, hj, List.mem_singleton,
      if_true, wp_emit, wp_update, wp_pure]
    exact ⟨rfl, by simp⟩

theorem openBlockIfNeeded_open {i : ℕ} (block : ContentBlock) (hi : i ∈ s.openBlocks) :
    wp readEvent (openBlockIfNeeded i block) (fun _ s' blocks' => blocks' = blocks ∧ s' = s)
      s blocks := by
  simp only [openBlockIfNeeded, wp_bind, wp_current, wp_when]
  rw [if_neg (not_not.2 hi)]
  exact ⟨trivial, trivial⟩

theorem Tracks.openBlocks_cases (h : Tracks ps bs calls s blocks) :
    s.openBlocks = [] ∨ ∃ j, s.openBlocks = [j] := by
  rw [h.openBlocks]
  split
  · exact .inl rfl
  · exact .inr ⟨_, rfl⟩

theorem Tracks.not_mem_openBlocks (h : Tracks ps bs calls s blocks) :
    bs.length ∉ s.openBlocks := by
  rw [h.openBlocks]
  split
  · simp
  · next hne =>
    have hpos := List.length_pos_iff.2 hne
    rw [List.mem_singleton]
    omega

/-- A new part has a new block. -/
theorem Tracks.opened (h : Tracks ps bs calls s blocks) (p : Part) (start : ContentBlock)
    {calls' : MapKey → Option (ℕ × ℕ)} (hnext : s'.nextContentBlockIndex = bs.length + 1)
    (hopen : s'.openBlocks = [bs.length])
    (hmarks : s'.blockHasDelta = s.blockHasDelta.filter (· ∉ s.openBlocks))
    (hkeys : ∀ k, s'.blockIndexByKey.get k = (ps ++ [p]).idxOf? (.block k))
    (hcalls : ∀ k, (s'.functionCallStateByOutputIndex.get k).map
      (fun call => (call.blockIndex, call.consecutiveWhitespaceCount)) = calls' k) :
    Tracks (ps ++ [p]) (bs ++ [.fresh start]) calls' s'
      (blocks ++ [⟨bs.length, start, "", ""⟩]) where
  blocks := by
    rw [h.blocks, List.mapIdx_concat]
    rfl
  next := by simpa using hnext
  openBlocks := by simpa using hopen
  marks i := by
    have hempty : s'.blockHasDelta = [] := by
      rw [hmarks, List.filter_eq_nil_iff]
      intro j hj
      obtain ⟨hlast, hb⟩ := (h.marks j).1 hj
      have hne : bs ≠ [] := by
        rintro rfl
        simp at hlast
      rw [h.openBlocks, if_neg hne]
      simp only [List.mem_singleton, decide_not, Bool.not_eq_true', decide_eq_false_iff_not,
        not_not]
      omega
    simp [hempty, PartBlock.fresh]
  keys := hkeys
  calls := hcalls

theorem openBlock_new {key : String} (hlen : ps.length = bs.length) (hkey : .block key ∉ ps)
    (start : ContentBlock) :
    Hoare readEvent (Tracks ps bs calls) (openBlock key start) fun i s blocks =>
      i = bs.length ∧ Tracks (ps ++ [.block key]) (bs ++ [.fresh start]) calls s blocks := by
  intro s blocks h
  have hnone : s.blockIndexByKey.get key = none := by
    rw [h.keys]
    exact List.idxOf?_eq_none_iff.2 hkey
  rw [openBlock, wp_bind, blockIndexFor, wp_bind, wp_current, hnone]
  simp only [wp_bind, wp_update, wp_pure, h.next]
  refine wp_mono (openBlockIfNeeded_new start h.openBlocks_cases h.not_mem_openBlocks) ?_
  rintro _ s' blocks' ⟨rfl, rfl⟩
  refine ⟨rfl, h.opened (.block key) start rfl rfl rfl (fun k => ?_) h.calls⟩
  by_cases hk : k = key
  · subst hk
    rw [idxOf?_concat_self hkey, hlen]
    exact Entries.get_set_self _ _ _
  · have hne : Part.block k ≠ .block key := by simpa using hk
    rw [idxOf?_concat_of_ne hne, ← h.keys]
    exact Entries.get_set_of_ne _ _ hk

theorem openBlock_current {key : String} (hkey : ps.idxOf? (.block key) = some bs.length)
    (start : ContentBlock) :
    Hoare readEvent (Tracks ps (bs ++ [b]) calls) (openBlock key start) fun i s blocks =>
      i = bs.length ∧ Tracks ps (bs ++ [b]) calls s blocks := by
  intro s blocks h
  have hsome : s.blockIndexByKey.get key = some bs.length := (h.keys key).trans hkey
  rw [openBlock, wp_bind, blockIndexFor, wp_bind, wp_current, hsome]
  simp only [wp_bind, wp_pure]
  have hopen : bs.length ∈ s.openBlocks := by simp [h.openBlocks_concat]
  refine wp_mono (openBlockIfNeeded_open start hopen) ?_
  rintro _ s' blocks' ⟨rfl, rfl⟩
  exact ⟨rfl, h⟩

theorem openFunctionCallBlock_new {k : MapKey} (hk : calls k = none) (toolCallId name : Val) :
    Hoare readEvent (Tracks ps bs calls) (openFunctionCallBlock k toolCallId name)
      fun i s blocks =>
        i = bs.length ∧
          Tracks (ps ++ [.call k])
            (bs ++ [.fresh ((Fragment.callAdded k toolCallId name "").start bs.length)])
            (Function.update calls k (some (bs.length, 0))) s blocks := by
  intro s blocks h
  have hnone : s.functionCallStateByOutputIndex.get k = none :=
    Option.map_eq_none_iff.1 ((h.calls k).trans hk)
  rw [openFunctionCallBlock, wp_bind, functionCallFor, wp_bind, wp_current, hnone]
  simp only [wp_bind, wp_update, wp_pure, h.next]
  refine wp_mono (openBlockIfNeeded_new _ h.openBlocks_cases h.not_mem_openBlocks) ?_
  rintro _ s' blocks' ⟨rfl, rfl⟩
  refine ⟨rfl, h.opened (.call k) _ rfl rfl rfl (fun key => ?_) fun k' => ?_⟩
  · rw [idxOf?_concat_of_ne (by simp), ← h.keys]
  · by_cases hk' : k' = k
    · subst hk'
      rw [Function.update_self]
      exact congrArg _ (Entries.get_set_self _ _ _)
    · rw [Function.update_of_ne hk', ← h.calls]
      exact congrArg _ (Entries.get_set_of_ne _ _ hk')

theorem openFunctionCallBlock_current {k : MapKey} {n : ℕ} (hk : calls k = some (bs.length, n))
    (toolCallId name : Val) :
    Hoare readEvent (Tracks ps (bs ++ [b]) calls) (openFunctionCallBlock k toolCallId name)
      fun i s blocks => i = bs.length ∧ Tracks ps (bs ++ [b]) calls s blocks := by
  intro s blocks h
  obtain ⟨call, hcall, heq⟩ := Option.map_eq_some_iff.1 ((h.calls k).trans hk)
  have hindex : call.blockIndex = bs.length := (Prod.mk.inj heq).1
  rw [openFunctionCallBlock, wp_bind, functionCallFor, wp_bind, wp_current, hcall]
  simp only [wp_bind, wp_pure, hindex]
  have hopen : bs.length ∈ s.openBlocks := by simp [h.openBlocks_concat]
  refine wp_mono (openBlockIfNeeded_open _ hopen) ?_
  rintro _ s' blocks' ⟨rfl, rfl⟩
  exact ⟨rfl, h⟩

/-! ## The fragments -/

section Step

variable {fragments : List Fragment} {f : Fragment}

/-- State and blocks agree with the fragments so far. -/
def Follows (fragments : List Fragment) : ResponsesStreamState → List StreamedBlock → Prop :=
  Tracks (parts fragments) (contents fragments) (callOf fragments)

/-- The block of a part with a key, opened for the next fragment. -/
theorem exists_openBlock {key : String} {start : ContentBlock}
    (h : Orderly (fragments ++ [f])) (hp : f.part = some (.block key))
    (hstart : ∀ index, f.start index = start) :
    ∃ bs b, contents (fragments ++ [f]) = bs ++ [f.extend b] ∧
      Hoare readEvent (Follows fragments) (openBlock key start) fun i s blocks =>
        i = bs.length ∧
          Tracks (parts (fragments ++ [f])) (bs ++ [b]) (callOf (fragments ++ [f])) s blocks := by
  have hcalls : callOf (fragments ++ [f]) = callOf fragments := by
    funext k
    exact callOf_concat_of_ne (by simp [hp])
  rw [hcalls]
  rcases h.new_or_last hp with ⟨hnew, hparts, hcontents⟩ | ⟨bs, b, hindex, hparts, hbs, hcontents⟩
  · rw [hstart] at hcontents
    refine ⟨_, _, hcontents, ?_⟩
    rw [hparts]
    exact openBlock_new length_contents.symm hnew start
  · refine ⟨bs, b, hcontents, ?_⟩
    have hopen := @openBlock_current _ _ b (callOf fragments) _ hindex start
    rw [hparts]
    exact hopen.consequence (fun s blocks hs => hbs ▸ hs) fun _ _ _ hs => hs

/-- The block of a call, opened for the next fragment. -/
theorem exists_openFunctionCallBlock {k : MapKey} (toolCallId name : Val)
    (h : Orderly (fragments ++ [f])) (hp : f.part = some (.call k))
    (hstart : ∀ index, f.start index = (Fragment.callAdded k toolCallId name "").start index) :
    ∃ bs b count, contents (fragments ++ [f]) = bs ++ [f.extend b] ∧
      updateWhitespaceRunState 0 (charsOf (argumentChars fragments k)) = some count ∧
      (parts (fragments ++ [f])).idxOf? (.call k) = some bs.length ∧
      Hoare readEvent (Follows fragments) (openFunctionCallBlock k toolCallId name)
        fun i s blocks =>
          i = bs.length ∧
            Tracks (parts (fragments ++ [f])) (bs ++ [b])
              (Function.update (callOf fragments) k (some (bs.length, count))) s blocks := by
  rcases h.new_or_last hp with ⟨hnew, hparts, hcontents⟩ | ⟨bs, b, hindex, hparts, hbs, hcontents⟩
  · rw [hstart] at hcontents
    have hnone : callOf fragments k = none := by
      have hindex : (parts fragments).idxOf? (.call k) = none := List.idxOf?_eq_none_iff.2 hnew
      rw [callOf, hindex]
      split <;> rfl
    refine ⟨_, _, 0, hcontents, ?_, ?_, ?_⟩
    · rw [argumentChars, fragmentsOf_eq_nil hnew]
      rfl
    · rw [hparts, idxOf?_concat_self hnew, length_contents]
    · rw [hparts]
      exact openFunctionCallBlock_new hnone toolCallId name
  · obtain ⟨count, hcount⟩ := h.of_append.exists_count k
    have hsome : callOf fragments k = some (bs.length, count) := by
      rw [callOf, if_neg (by simp [h.not_done hp]), hindex, hcount]
    refine ⟨bs, b, count, hcontents, hcount, by rw [hparts, hindex], ?_⟩
    have hopen := @openFunctionCallBlock_current (parts fragments) _ b _ _ _ hsome toolCallId name
    rw [hparts, Function.update_eq_self_iff.2 hsome.symm]
    exact hopen.consequence (fun s blocks hs => hbs ▸ hs) fun _ _ _ hs => hs

variable {ps : List Part} {bs : List PartBlock} {b : PartBlock}
  {calls : MapKey → Option (ℕ × ℕ)}

theorem sendText_markDelta_hoare (delta : Val → BlockDelta) (text : String) :
    Hoare readEvent (Tracks ps (bs ++ [b]) calls)
      (do sendText bs.length delta text; markDelta bs.length)
      fun _ => Tracks ps (bs ++ [(b.add (delta (some (.string text)))).mark]) calls :=
  (sendText_hoare delta text).bind fun _ => markDelta_hoare

theorem say_empty (b : PartBlock) : b.say "" = b := by
  simp [PartBlock.say]

theorem sendWhole_hoare (delta : Val → BlockDelta) (text : String)
    (hdelta : ∀ b : PartBlock, b.add (delta (some (.string text))) = b.say text) :
    Hoare readEvent (Tracks ps (bs ++ [b]) calls) (sendWhole bs.length delta text)
      fun _ => Tracks ps (bs ++ [if b.hasDelta then b else b.say text]) calls := by
  intro s blocks h
  simp only [sendWhole, wp_bind, wp_current, wp_when, h.hasDelta_iff]
  cases hb : b.hasDelta with
  | true => simpa using h
  | false =>
    by_cases ht : text = ""
    · subst ht
      simpa [say_empty] using h
    · simp only [Bool.false_eq_true, not_false_eq_true, and_true, if_false]
      rw [if_pos ht, ← hdelta]
      exact h.delta _

/-- A fragment of no part changes nothing that the parts depend on. -/
theorem follows_concat_none (hp : f.part = none) {s s' : ResponsesStreamState}
    {blocks : List StreamedBlock} (h : Follows fragments s blocks)
    (hnext : s'.nextContentBlockIndex = s.nextContentBlockIndex)
    (hopen : s'.openBlocks = s.openBlocks) (hmarks : s'.blockHasDelta = s.blockHasDelta)
    (hkeys : s'.blockIndexByKey = s.blockIndexByKey)
    (hcalls : s'.functionCallStateByOutputIndex = s.functionCallStateByOutputIndex) :
    Follows (fragments ++ [f]) s' blocks := by
  have hcall : callOf (fragments ++ [f]) = callOf fragments := by
    funext k
    exact callOf_concat_of_ne (by simp [hp])
  rw [Follows, parts_concat_none hp, contents_concat_none hp, hcall]
  constructor
  · exact h.blocks
  · exact hnext.trans h.next
  · exact hopen.trans h.openBlocks
  · rw [hmarks]
    exact h.marks
  · rw [hkeys]
    exact h.keys
  · rw [hcalls]
    exact h.calls

/-- The next fragment of an orderly list. -/
theorem translate_hoare (h : Orderly (fragments ++ [f])) :
    Hoare readEvent (Follows fragments) f.translate fun _ => Follows (fragments ++ [f]) := by
  cases f with
  | quiet => exact fun s blocks hs => follows_concat_none rfl hs rfl rfl rfl rfl rfl
  | created response =>
    intro s blocks hs
    simp only [Fragment.translate, messageStart, wp_bind, wp_update, wp_current, wp_ofExcept,
      wp_emit]
    exact fun usage _ => follows_concat_none rfl hs rfl rfl rfl rfl rfl
  | textDelta key delta =>
    obtain ⟨bs, b, hcontents, hopen⟩ := exists_openBlock h rfl fun _ => rfl
    refine hopen.bind fun i => ?_
    rintro s blocks ⟨rfl, hs⟩
    rw [Follows, hcontents]
    simpa [Fragment.extend] using sendText_markDelta_hoare .textDelta delta s blocks hs
  | textDone key text =>
    obtain ⟨bs, b, hcontents, hopen⟩ := exists_openBlock h rfl fun _ => rfl
    refine hopen.bind fun i => ?_
    rintro s blocks ⟨rfl, hs⟩
    rw [Follows, hcontents]
    exact sendWhole_hoare .textDelta text (fun b => b.add_textDelta text) s blocks hs
  | summaryDelta key delta =>
    obtain ⟨bs, b, hcontents, hopen⟩ := exists_openBlock h rfl fun _ => rfl
    refine hopen.bind fun i => ?_
    rintro s blocks ⟨rfl, hs⟩
    rw [Follows, hcontents]
    simpa [Fragment.extend] using sendText_markDelta_hoare .thinkingDelta delta s blocks hs
  | summaryDone key text =>
    obtain ⟨bs, b, hcontents, hopen⟩ := exists_openBlock h rfl fun _ => rfl
    refine hopen.bind fun i => ?_
    rintro s blocks ⟨rfl, hs⟩
    rw [Follows, hcontents]
    exact sendWhole_hoare .thinkingDelta text (fun b => b.add_thinkingDelta text) s blocks hs
  | reasoningDone key signature isSummaryMissing =>
    obtain ⟨bs, b, hcontents, hopen⟩ := exists_openBlock h rfl fun _ => rfl
    refine hopen.bind fun i => ?_
    rintro s blocks ⟨rfl, hs⟩
    rw [Follows, hcontents, wp_bind, wp_when]
    cases isSummaryMissing with
    | true =>
      rw [if_pos rfl]
      refine (sendText_hoare .thinkingDelta THINKING_TEXT).apply hs fun _ s blocks hs => ?_
      simpa [Fragment.extend] using
        sendText_markDelta_hoare .signatureDelta signature s blocks hs
    | false =>
      simpa [Fragment.extend] using
        sendText_markDelta_hoare .signatureDelta signature s blocks hs
  | compactionDone key signature =>
    obtain ⟨bs, b, hcontents, hopen⟩ := exists_openBlock h rfl fun _ => rfl
    refine hopen.bind fun i => ?_
    rintro s blocks ⟨rfl, hs⟩
    rw [Follows, hcontents, wp_bind, wp_current, wp_bind, wp_when]
    have hiff := hs.hasDelta_iff
    cases hb : b.hasDelta with
    | true =>
      rw [if_neg (not_not.2 (hiff.2 hb))]
      simpa [Fragment.extend, hb] using
        sendText_markDelta_hoare .signatureDelta signature s blocks hs
    | false =>
      rw [if_pos (by simp [hiff, hb])]
      refine (sendText_hoare .thinkingDelta THINKING_TEXT).apply hs fun _ s blocks hs => ?_
      simpa [Fragment.extend, hb] using
        sendText_markDelta_hoare .signatureDelta signature s blocks hs
  | callAdded k toolCallId name initialArguments =>
    obtain ⟨bs, b, count, hcontents, hcount, hindex, hopen⟩ :=
      exists_openFunctionCallBlock toolCallId name h rfl fun _ => rfl
    refine hopen.bind fun i => ?_
    rintro s blocks ⟨rfl, hs⟩
    have hchars : argumentChars fragments k ++
        (Fragment.callAdded k toolCallId name initialArguments).deltaChars =
          argumentChars fragments k :=
      List.append_nil _
    have hcall := callOf_concat_self h rfl rfl hindex (hchars ▸ hcount)
    rw [Follows, hcontents, callOf_concat_eq_update rfl hcall, wp_when]
    split
    · next hargs =>
      simpa [Fragment.extend, hargs] using
        sendText_markDelta_hoare .inputJsonDelta initialArguments s blocks hs
    · next hargs => simpa [Fragment.extend, not_not.1 hargs] using hs
  | callDelta k delta =>
    obtain ⟨bs, b, count, hcontents, hcount, hindex, hopen⟩ :=
      exists_openFunctionCallBlock none none h rfl fun _ => rfl
    refine hopen.bind fun i => ?_
    rintro s blocks ⟨rfl, hs⟩
    obtain ⟨call, hget, heq⟩ := Option.map_eq_some_iff.1 ((hs.calls k).trans
      (Function.update_self ..))
    obtain ⟨hcallIndex, hcallCount⟩ := Prod.mk.inj heq
    -- the delta does not make the arguments run away
    obtain ⟨nextCount, hall⟩ := h.exists_count k
    rw [argumentChars_concat_self rfl] at hall
    have hcall := callOf_concat_self h rfl rfl hindex hall
    have hnext := hall
    rw [charsOf_append, updateWhitespaceRunState_append, hcount, Option.bind_some] at hnext
    have hset := hs.setCall k { call with consecutiveWhitespaceCount := nextCount } hcallIndex rfl
    rw [Function.update_idem] at hset
    have hchars : iterate (some (.string delta)) = .ok (charsOf delta.toList) := rfl
    rw [Follows, hcontents, callOf_concat_eq_update rfl hcall, sendArguments, wp_bind, wp_current,
      hget]
    dsimp only
    rw [wp_bind, wp_ofExcept]
    intro chars hok
    obtain rfl := Except.ok.inj (hchars.symm.trans hok)
    rw [hcallCount, show updateWhitespaceRunState count (charsOf delta.toList) = _ from hnext]
    dsimp only
    rw [wp_bind, wp_update]
    have hsend := sendText_markDelta_hoare .inputJsonDelta delta _ blocks hset
    rw [PartBlock.add_inputJsonDelta] at hsend
    exact hsend
  | callDone k finalArguments =>
    obtain ⟨bs, b, count, hcontents, hcount, hindex, hopen⟩ :=
      exists_openFunctionCallBlock none none h rfl fun _ => rfl
    refine hopen.bind fun i => ?_
    rintro s blocks ⟨rfl, hs⟩
    have hdone : (Fragment.callDone k finalArguments).isCallDone k := decide_eq_true rfl
    rw [Follows, hcontents, callOf_concat_eq_update rfl (callOf_concat_done hdone), wp_bind,
      wp_current]
    have hiff := hs.hasDelta_iff
    have hdelete : ∀ {b : PartBlock} {s : ResponsesStreamState} {blocks : List StreamedBlock},
        Tracks (parts (fragments ++ [.callDone k finalArguments])) (bs ++ [b])
          (Function.update (callOf fragments) k (some (bs.length, count))) s blocks →
        Tracks (parts (fragments ++ [.callDone k finalArguments])) (bs ++ [b])
          (Function.update (callOf fragments) k none)
          { s with functionCallStateByOutputIndex := s.functionCallStateByOutputIndex.delete k }
          blocks := by
      intro b s blocks hs
      simpa using hs.deleteCall k
    by_cases hc : b.hasDelta = true ∨ finalArguments = ""
    · rw [Fragment.extend, if_pos hc, wp_bind, wp_when,
        if_neg (by rw [hiff]; tauto), wp_update]
      exact hdelete hs
    · rw [Fragment.extend, if_neg hc, wp_bind, wp_when, if_pos (by rw [hiff]; tauto)]
      refine (sendText_markDelta_hoare .inputJsonDelta finalArguments).apply hs ?_
      intro _ s blocks hs
      rw [wp_update]
      exact hdelete (by simpa using hs)

end Step

/-! ## Whole lists -/

/-- The upstream may say any usage that can be read. -/
def Fragment.isReadable : Fragment → Bool
  | .created response => (createdUsage none response).isOk
  | _ => true

/-- Whether the usage can be read does not depend on the estimate. -/
theorem isOk_createdUsage (estimatedInputTokens : Option Number) (response : Json) :
    (createdUsage estimatedInputTokens response).isOk = (createdUsage none response).isOk := by
  dsimp only [createdUsage]
  cases (response.get "usage").optProp "input_tokens" <;> rfl

theorem isReadable_of_readFragment {rawEvent : RawEvent} {f : Fragment}
    (h : readFragment rawEvent = some f) : f.isReadable := by
  cases f with
  | created response =>
    unfold readFragment at h
    split at h
    · unfold readRecord at h
      dsimp only at h
      split at h
      · unfold readCreated at h
        split at h
        · cases h
        · split at h
          · next hok =>
            cases h
            exact hok
          · cases h
      · unfold readItemAdded at h
        split at h
        · cases h
        · split at h <;> cases h
      · simp [readSummaryDelta, Option.bind_eq_some_iff] at h
      · obtain ⟨delta, -, h⟩ := Option.bind_eq_some_iff.1 h
        split at h <;> simp [Option.bind_eq_some_iff] at h
      · simp [readSummaryDone, Option.bind_eq_some_iff] at h
      · simp [readTextDone, Option.bind_eq_some_iff] at h
      · unfold readItemDone at h
        split at h
        · cases h
        · dsimp only at h
          split at h
          · split at h <;> simp [Option.bind_eq_some_iff] at h
          · simp [Option.bind_eq_some_iff] at h
          · cases h
      · obtain ⟨delta, -, h⟩ := Option.bind_eq_some_iff.1 h
        split at h <;> simp at h
      · cases h
      · cases h
      · cases h
      · cases h
      · cases h
      · cases h
    · cases h
  | _ => rfl

theorem sendText_markDelta_failsIff (blockIndex : ℕ) (delta : Val → BlockDelta) (text : String) :
    FailsIff (do sendText blockIndex delta text; markDelta blockIndex) False :=
  sendDelta_markDelta_failsIff _ _

theorem openBlock_failsIff (key : String) (block : ContentBlock) :
    FailsIff (openBlock key block) False :=
  .after (blockIndexFor_failsIff key) fun _ => .after (openBlockIfNeeded_failsIff _ _) fun _ =>
    .pure _

theorem sendWhole_failsIff (blockIndex : ℕ) (delta : Val → BlockDelta) (text : String) :
    FailsIff (sendWhole blockIndex delta text) False :=
  .after .current fun _ => .when_total _ (sendDelta_failsIff _ _)

theorem sendArguments_failsIff (outputIndex : MapKey) (blockIndex : ℕ) (delta : String) :
    FailsIff (sendArguments outputIndex blockIndex (some (.string delta))) False := by
  refine .after .current fun s => ?_
  split
  · exact handleFunctionCallArgumentsValidationError_failsIff _
  · next call _ =>
    have hchars : FailsIff (ofExcept (iterate (some (.string delta))) :
        ResponsesTranslator (List Json)) False :=
      (FailsIff.ofExcept _).congr (iff_of_false Bool.noConfusion id)
    refine hchars.after fun chars => ?_
    split
    · exact handleFunctionCallArgumentsValidationError_failsIff _
    · exact .after (.update _) fun _ => sendDelta_markDelta_failsIff _ _

theorem messageStart_failsIff (response : Json) :
    FailsIff (messageStart response) ((createdUsage none response).isOk = false) := by
  refine .after (.update _) fun _ => .after .current fun s => ?_
  refine .before ?_ fun _ => .emit _
  exact (FailsIff.ofExcept _).congr (by rw [isOk_createdUsage])

theorem translate_total {f : Fragment} (hf : ∀ response, f ≠ .created response) :
    FailsIff f.translate False := by
  cases f with
  | created response => exact absurd rfl (hf response)
  | quiet => exact .pure ()
  | textDelta key delta =>
    exact .after (openBlock_failsIff _ _) fun _ => sendText_markDelta_failsIff _ _ _
  | textDone key text => exact .after (openBlock_failsIff _ _) fun _ => sendWhole_failsIff _ _ _
  | summaryDelta key delta =>
    exact .after (openBlock_failsIff _ _) fun _ => sendText_markDelta_failsIff _ _ _
  | summaryDone key text => exact .after (openBlock_failsIff _ _) fun _ => sendWhole_failsIff _ _ _
  | reasoningDone key signature isSummaryMissing =>
    exact .after (openBlock_failsIff _ _) fun _ =>
      .after (.when_total _ (sendDelta_failsIff _ _)) fun _ => sendText_markDelta_failsIff _ _ _
  | compactionDone key signature =>
    exact .after (openBlock_failsIff _ _) fun _ => .after .current fun _ =>
      .after (.when_total _ (sendDelta_failsIff _ _)) fun _ => sendText_markDelta_failsIff _ _ _
  | callAdded outputIndex toolCallId name initialArguments =>
    exact .after (openFunctionCallBlock_failsIff _ _ _) fun _ =>
      .when_total _ (sendText_markDelta_failsIff _ _ _)
  | callDelta outputIndex delta =>
    exact .after (openFunctionCallBlock_failsIff _ _ _) fun _ => sendArguments_failsIff _ _ _
  | callDone outputIndex finalArguments =>
    exact .after (openFunctionCallBlock_failsIff _ _ _) fun _ => .after .current fun _ =>
      .after (.when_total _ (sendText_markDelta_failsIff _ _ _)) fun _ => .update _

/-- Only a usage that cannot be read stops the translator. -/
theorem translate_failsIff (f : Fragment) : FailsIff f.translate (f.isReadable = false) := by
  cases f with
  | created response => exact messageStart_failsIff response
  | _ => exact (translate_total (by simp)).of_not Bool.noConfusion

/-- What the client reads back after an orderly list of fragments. -/
theorem run_contents {fragments : List Fragment} (h : Orderly fragments)
    (hr : ∀ f ∈ fragments, f.isReadable) (estimatedInputTokens : Option Number) :
    let out := run Fragment.translate (createResponsesStreamState estimatedInputTokens) fragments
    out.failure = none ∧ Follows fragments out.state (readBlocks out.outputs) := by
  have htotal : ∀ f ∈ fragments, FailsIff f.translate False := by
    intro f hf
    exact (translate_failsIff f).congr (iff_of_false (by simp [hr f hf]) id)
  obtain ⟨hconsumed, hfailure⟩ := run_of_failsIff htotal
    (createResponsesStreamState estimatedInputTokens)
  refine ⟨hfailure, ?_⟩
  -- lists that are not orderly are of no interest, but a prefix of an orderly list is orderly
  have hrun := run_history_invariant (C := fun _ _ => True) (f := Fragment.translate)
    (I := fun fragments s blocks => Orderly fragments → Follows fragments s blocks)
    (fun fragments f s blocks _ hI =>
      wp_of_imp fun ho => translate_hoare ho s blocks (hI ho.of_append))
    [] (Meets.of_forall (fun _ _ => trivial) _ fragments)
    fun _ => tracks_init estimatedInputTokens
  rw [List.nil_append, hconsumed] at hrun
  exact hrun h

theorem forall_isReadable {rawEvents : List RawEvent} {fragments : List Fragment}
    (h : List.Forall₂ (fun rawEvent f => readFragment rawEvent = some f) rawEvents fragments) :
    ∀ f ∈ fragments, f.isReadable := by
  induction h with
  | nil => simp
  | cons hread _ ih => exact List.forall_mem_cons.2 ⟨isReadable_of_readFragment hread, ih⟩

/-- Frames with the documented types are translated as their fragments. -/
theorem run_readFragment (parse : String → Option Json) {rawEvents : List RawEvent}
    {fragments : List Fragment}
    (h : List.Forall₂ (fun rawEvent f => readFragment rawEvent = some f) rawEvents fragments)
    (s : ResponsesStreamState) :
    run (translateResponsesStreamEvent parse) s rawEvents = run Fragment.translate s fragments :=
  run_congr (h.imp fun _ _ => translateResponsesStreamEvent_eq_translate parse) s

end Maximal.Responses
