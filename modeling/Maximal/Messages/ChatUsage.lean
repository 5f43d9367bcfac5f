import Maximal.Lib.Js.Counts
import Maximal.Lib.Js.JsonText
import Maximal.Messages.ChunkFrame

/-!
# The usage of a chat-completions stream

The usage is told twice: to the client with the end of the message, and to the recorder when the
stream has ended. The first is read from the chunk that ends the message, the second from the last
chunk that has a usage.

## Main definitions

- `normalizeOpenAIUsage` — the counts for the recorder
- `streamChunks` — the streaming part of `handleWithChatCompletions`
- `SameCounts` — both are told the same

## Main results

- `usage_agrees_iff` — when they are
-/

namespace Maximal

open Js Emitter

/-! ## Token counts -/

/-- A whole number that is not negative; zero for everything that is no finite number. -/
def normalizeToken : Val → ℕ
  | some (.number (.finite m e)) =>
    (if 0 ≤ e then m * 10 ^ e.toNat else m / 10 ^ (-e).toNat).toNat
  | _ => 0

def normalizeOptionalToken : Val → Option ℕ
  | none => none
  | some .null => none
  | v => some (normalizeToken v)

structure UsageTokens where
  cacheCreationInputTokens : Option ℕ := none
  cacheReadInputTokens : Option ℕ := none
  inputTokens : Option ℕ := none
  outputTokens : Option ℕ := none
  totalTokens : Option ℕ := none
  deriving DecidableEq

def promptTokens (usage : Val) : Val := usage.optProp "prompt_tokens"

def cachedTokens (usage : Val) : Val :=
  (usage.optProp "prompt_tokens_details").optProp "cached_tokens"

def completionTokens (usage : Val) : Val := usage.optProp "completion_tokens"

def normalizeOpenAIUsage (usage : Val) : UsageTokens where
  cacheReadInputTokens := some (normalizeToken (cachedTokens usage))
  inputTokens := some (normalizeToken (promptTokens usage) - normalizeToken (cachedTokens usage))
  outputTokens := some (normalizeToken (completionTokens usage))
  totalTokens := normalizeOptionalToken (usage.optProp "total_tokens")

example : normalizeToken (some (.number (.finite 125 (-1)))) = 12 := by decide

/-! ## The flow -/

/-- The top-level `usage` of a frame. -/
def readUsage (frame : Json) : Val := (Val.asRecord (some frame)).optProp "usage"

/-- What the client and the recorder are given. The event for a stream that breaks off is left
out. -/
structure ChatFlow where
  written : List AnthropicStreamEventData
  recorded : UsageTokens

section

variable (parse : String → Option Json)

/-- The data of the frames, one after the other; `usage` is what the recorder would be given. -/
def streamChunks : List (Option String) → AnthropicStreamState → UsageTokens → ChatFlow
  | [], _, usage => ⟨[], usage⟩
  | data :: frames, streamState, usage =>
    if data = some "[DONE]" then ⟨[], usage⟩
    else if data.getD "" = "" then streamChunks frames streamState usage
    else
      match parse (data.getD "") with
      | none => streamChunks frames streamState usage
      | some chunk =>
        let usage :=
          if (readUsage chunk).truthy then normalizeOpenAIUsage (readUsage chunk) else usage
        match translateChunkToAnthropicEvents chunk streamState with
        | .error _ => ⟨[], usage⟩
        | .ok (_, streamState, events) =>
          let rest := streamChunks frames streamState usage
          { rest with written := events ++ rest.written }

/-- The streaming part of `handleWithChatCompletions`. -/
def handleWithChatCompletions (frames : List (Option String)) : ChatFlow :=
  streamChunks parse frames .fresh {}

/-- The chunks of a stream. -/
def chunksOf : List (Option String) → List Json
  | [] => []
  | data :: frames =>
    if data = some "[DONE]" then []
    else if data.getD "" = "" then chunksOf frames
    else (parse (data.getD "")).toList ++ chunksOf frames

/-- The chunks that the flow reads: those up to the first that the translator throws on. -/
def chunksRead (frames : List (Option String)) : List Json :=
  let chunks := chunksOf parse frames
  chunks.take ((consumed translateChunkToAnthropicEvents .fresh chunks).length + 1)

end

/-! ## The two usages -/

def deltaUsage? : AnthropicStreamEventData → Option Usage
  | .messageDelta _ usage => some usage
  | _ => none

/-- The usages that go out with the ends of messages. -/
def deltaUsages (events : List AnthropicStreamEventData) : List Usage :=
  events.filterMap deltaUsage?

/-- The chunk ends the message. -/
def finishes (chunk : Json) : Bool := (readTranslatableChoice chunk).any (·.1.finish.isSome)

def laterUsage (last : Val) (chunk : Json) : Val :=
  if (readUsage chunk).truthy then readUsage chunk else last

/-- The last usage that any of the chunks brings. -/
def lastUsage (chunks : List Json) : Val := chunks.foldl laterUsage none

/-- What the recorder is given for the last usage of a stream. -/
def recordedOf (last : Val) : UsageTokens := last.elim {} fun usage => normalizeOpenAIUsage usage

/-- The client and the recorder are given the same counts; a count that is not given is zero. -/
structure SameCounts (told : Usage) (recorded : UsageTokens) : Prop where
  input : IsCount (some (.number told.inputTokens)) (recorded.inputTokens.getD 0)
  cached : IsCount (told.cacheReadInputTokens.orElse (.number (.ofNat 0)))
    (recorded.cacheReadInputTokens.getD 0)
  output : IsCount (some told.outputTokens) (recorded.outputTokens.getD 0)

/-- The usage of the chunk that ends the message has the counts of the last one: the same cached
and completion tokens, and as prompt tokens the more of its prompt and cached tokens. -/
structure Repeats (finish last : Val) : Prop where
  cached : IsCount ((cachedTokens finish).orElse (.number (.ofNat 0)))
    (normalizeToken (cachedTokens last))
  completion : IsCount ((completionTokens finish).orElse (.number (.ofNat 0)))
    (normalizeToken (completionTokens last))
  prompt : ∃ x, Val.toNumber ((promptTokens finish).orElse (.number (.ofNat 0))) = .ok x ∧
    IsCount (some (.number x))
      (max (normalizeToken (promptTokens last)) (normalizeToken (cachedTokens last)) : ℕ)

/-! ## One chunk -/

namespace ChatUsage

def observe (usages : List Usage) (e : AnthropicStreamEventData) : List Usage :=
  usages ++ (deltaUsage? e).toList

theorem foldl_observe (usages : List Usage) (events : List AnthropicStreamEventData) :
    events.foldl observe usages = usages ++ deltaUsages events := by
  induction events generalizing usages with
  | nil => exact (List.append_nil usages).symm
  | cons e events ih =>
    rw [List.foldl_cons, ih, observe, List.append_assoc]
    cases h : deltaUsage? e with
    | none => rw [deltaUsages, deltaUsages, List.filterMap_cons_none h]; rfl
    | some u => rw [deltaUsages, deltaUsages, List.filterMap_cons_some h]; rfl

/-- No message ends. -/
def unended : Frame AnthropicStreamState AnthropicStreamEventData where
  moves _ _ := True
  refl _ := trivial
  trans _ _ := trivial
  emits e := deltaUsage? e = none

theorem unended_chunkFrame (p : String) : ChunkFrame p unended where
  moves _ _ _ _ := trivial
  stop _ := rfl
  start _ _ _ := rfl
  signature _ _ := rfl
  placeholder _ := rfl
  messageStart _ _ _ := rfl

theorem unended_hoare {α : Type} {x : ChunkTranslator α} (h : Keeps unended x)
    (usages : List Usage) :
    Hoare observe (fun _ m => m = usages) x fun _ _ m => m = usages := by
  refine h.hoare fun s s' m os hm _ hos => ?_
  have hnone : deltaUsages os = [] := List.filterMap_eq_nil_iff.2 hos
  rw [foldl_observe, hm, hnone, List.append_nil]

theorem handleToolCall_unended (call : Json) : Keeps unended (handleToolCall call) := by
  refine .when _ <| .bind (.when _ <| (closeContentBlockIfOpen_keeps (unended_chunkFrame "")).bind
    fun _ => .bind .current fun s => .bind (.ofExcept _) fun _ =>
      .bind (.update fun _ => trivial) fun _ => .emit ?_) fun _ => .when _ <|
    .bind (.ofExcept _) fun key => .bind .current fun s => ?_
  · simp [unended, deltaUsage?]
  · split
    · exact .pure ()
    · exact .emit (by simp [unended, deltaUsage?])

/-- The chunk that ends the message reports its own usage, and no other chunk reports one. -/
theorem translateChunk_hoare (p : String) (chunk : Json) (usages : List Usage) :
    Hoare observe (fun _ m => m = usages) (translateChunkWith p chunk) fun _ _ m =>
      if finishes chunk then
        ∃ u, chunkUsage chunk
            ((completionTokens (chunk.get "usage")).orElse (.number (.ofNat 0))) = .ok u ∧
          m = usages ++ [u]
      else m = usages := by
  have hF := unended_chunkFrame p
  intro s m hm
  rw [translateChunkWith, finishes]
  cases readTranslatableChoice chunk with
  | none => simpa using hm
  | some r =>
    obtain ⟨choice, delta⟩ := r
    dsimp only
    refine ((unended_hoare (handleMessageStart_keeps hF chunk) usages).bind fun _ =>
      (unended_hoare (handleThinkingText_keeps hF (fun _ _ => rfl) delta) usages).bind
        fun delta' =>
      (unended_hoare (handleContent_keeps hF (fun _ _ => rfl) delta') usages).bind fun _ =>
      (unended_hoare (handleToolCalls_keeps hF delta' handleToolCall_unended) usages).bind
        fun _ => ?_) s m hm
    rw [handleFinish]
    cases hfinish : choice.finish with
    | none =>
      intro s m hm
      simpa [hfinish] using hm
    | some reason =>
      refine (unended_hoare (closeLastBlock_keeps hF delta') usages).bind fun _ => ?_
      rintro s m rfl
      simp only [wp_bind, wp_ofExcept, wp_emit]
      intro u hu
      rw [if_pos (by simp [hfinish])]
      exact ⟨u, hu, foldl_observe m _⟩

/-- The chunk reports this usage when it ends the message. -/
def Tells (chunk : Json) (u : Usage) : Prop :=
  chunkUsage chunk ((completionTokens (chunk.get "usage")).orElse (.number (.ofNat 0))) = .ok u

/-- One usage goes out for every chunk that ends a message. -/
theorem run_tells (chunks : List Json) :
    List.Forall₂ Tells
      ((consumed translateChunkToAnthropicEvents .fresh chunks).filter finishes)
      (deltaUsages (run translateChunkToAnthropicEvents .fresh chunks).outputs) := by
  have hstep (hist : List Json) (chunk : Json) (s : AnthropicStreamState) (m : List Usage)
      (_ : True) (hm : List.Forall₂ Tells (hist.filter finishes) m) :
      wp observe (translateChunkToAnthropicEvents chunk)
        (fun _ _ m => List.Forall₂ Tells ((hist ++ [chunk]).filter finishes) m) s m := by
    refine wp_mono (translateChunk_hoare THINKING_TEXT chunk m s m rfl) fun _ _ m' hm' => ?_
    rw [List.filter_append]
    cases hfinishes : finishes chunk with
    | false =>
      rw [hfinishes, if_neg Bool.false_ne_true] at hm'
      rwa [List.filter_cons_of_neg (by simp [hfinishes]), List.filter_nil, List.append_nil, hm']
    | true =>
      rw [hfinishes, if_pos rfl] at hm'
      obtain ⟨u, hu, rfl⟩ := hm'
      rw [List.filter_cons_of_pos hfinishes, List.filter_nil]
      exact List.rel_append hm (.cons hu .nil)
  have hrun := run_history_invariant hstep []
    (Meets.of_forall (fun _ _ => trivial) AnthropicStreamState.fresh chunks) List.Forall₂.nil
  rwa [foldl_observe] at hrun

end ChatUsage

/-! ## The whole stream -/

section

variable {parse : String → Option Json}

theorem streamChunks_eq (frames : List (Option String)) (s : AnthropicStreamState) (last : Val) :
    let chunks := chunksOf parse frames
    streamChunks parse frames s (recordedOf last) =
      ⟨(run translateChunkToAnthropicEvents s chunks).outputs,
        recordedOf ((chunks.take
          ((consumed translateChunkToAnthropicEvents s chunks).length + 1)).foldl laterUsage
            last)⟩ := by
  have hlater (last : Val) (chunk : Json) :
      (if (readUsage chunk).truthy then normalizeOpenAIUsage (readUsage chunk)
        else recordedOf last) = recordedOf (laterUsage last chunk) := by
    rw [laterUsage]
    split
    · next h =>
      cases hu : readUsage chunk with
      | none =>
        rw [hu] at h
        cases h
      | some u => rfl
    · rfl
  induction frames generalizing s last with
  | nil => rfl
  | cons data frames ih =>
    rw [streamChunks, chunksOf]
    split
    · rfl
    · split
      · exact ih s last
      · cases parse (data.getD "") with
        | none => exact ih s last
        | some chunk =>
          simp only [hlater, Option.toList_some, List.singleton_append, run, consumed]
          cases translateChunkToAnthropicEvents chunk s with
          | error e => rfl
          | ok r =>
            obtain ⟨_, s', events⟩ := r
            simp only [ih s' (laterUsage last chunk), List.length_cons, List.take_succ_cons,
              List.foldl_cons]

/-! ## Agreement -/

theorem recordedOf_counts (last : Val) :
    (recordedOf last).inputTokens.getD 0 =
        normalizeToken (promptTokens last) - normalizeToken (cachedTokens last) ∧
      (recordedOf last).cacheReadInputTokens.getD 0 = normalizeToken (cachedTokens last) ∧
      (recordedOf last).outputTokens.getD 0 = normalizeToken (completionTokens last) := by
  cases last with
  | none => decide
  | some usage => exact ⟨rfl, rfl, rfl⟩

/-- The chunk that ends the message, and the last usage of the stream. -/
theorem sameCounts_iff {chunk : Json} {u : Usage} (h : ChatUsage.Tells chunk u) (last : Val) :
    SameCounts u (recordedOf last) ↔ Repeats (chunk.get "usage") last := by
  obtain ⟨hinput, hcached, houtput⟩ := recordedOf_counts last
  rw [ChatUsage.Tells, chunkUsage] at h
  obtain ⟨input, hminus, h⟩ := exists_of_bind_eq_ok h
  obtain rfl := Except.ok.inj h
  rw [Val.minus] at hminus
  obtain ⟨x, hx, hminus⟩ := exists_of_bind_eq_ok hminus
  obtain ⟨c, hc, hminus⟩ := exists_of_bind_eq_ok hminus
  obtain rfl := Except.ok.inj hminus
  have hmax : ((normalizeToken (promptTokens last) - normalizeToken (cachedTokens last) : ℕ) : ℚ) +
      (normalizeToken (cachedTokens last) : ℕ) =
      (max (normalizeToken (promptTokens last)) (normalizeToken (cachedTokens last)) : ℕ) := by
    rw [← Nat.cast_add, Nat.sub_add_eq_max]
  constructor
  · rintro ⟨hi, hk, ho⟩
    rw [hinput] at hi
    rw [hcached] at hk
    rw [houtput] at ho
    exact ⟨hk, ho, x, hx, hmax ▸ (isCount_sub_iff (hk.toNumber hc)).1 hi⟩
  · rintro ⟨hk, ho, x', hx', hi⟩
    obtain rfl := Except.ok.inj (hx.symm.trans hx')
    refine ⟨?_, ?_, ?_⟩
    · rw [hinput, isCount_sub_iff (hk.toNumber hc), hmax]
      exact hi
    · rw [hcached]
      exact hk
    · rw [houtput]
      exact ho

theorem exists_of_mem_right {α β : Type} {R : α → β → Prop} {as : List α} {bs : List β}
    (h : List.Forall₂ R as bs) {b : β} (hb : b ∈ bs) : ∃ a ∈ as, R a b := by
  induction h with
  | nil => cases hb
  | @cons a c as bs hac _ ih =>
    obtain rfl | hb := List.mem_cons.1 hb
    · exact ⟨a, List.mem_cons_self, hac⟩
    · obtain ⟨a', ha', hR⟩ := ih hb
      exact ⟨a', List.mem_cons_of_mem a ha', hR⟩

/-- In a stream with one chunk that ends the message, the client and the recorder are given the
same counts exactly when that chunk repeats the last usage of the stream. -/
theorem usage_agrees_iff (frames : List (Option String)) {before after : List Json} {finish : Json}
    (hread : chunksRead parse frames = before ++ finish :: after)
    (hfinish : finishes finish = true)
    (hone : ∀ chunk ∈ before ++ after, finishes chunk = false) :
    let flow := handleWithChatCompletions parse frames
    ((run translateChunkToAnthropicEvents .fresh (chunksOf parse frames)).failure = none →
        (deltaUsages flow.written).length = 1) ∧
      ∀ told ∈ deltaUsages flow.written,
        (SameCounts told flow.recorded ↔
          Repeats (finish.get "usage") (lastUsage (chunksRead parse frames))) := by
  intro flow
  have hflow : flow = _ := streamChunks_eq frames .fresh none
  rw [hflow, lastUsage]
  have htells := ChatUsage.run_tells (chunksOf parse frames)
  dsimp only
  generalize hdone : consumed translateChunkToAnthropicEvents .fresh (chunksOf parse frames) =
    done at htells
  have hreads : chunksRead parse frames = (chunksOf parse frames).take (done.length + 1) := by
    rw [chunksRead, hdone]
  have hall : (chunksRead parse frames).filter finishes = [finish] := by
    have hbefore : before.filter finishes = [] := List.filter_eq_nil_iff.2 fun chunk hchunk =>
      Bool.eq_false_iff.1 (hone chunk (List.mem_append_left _ hchunk))
    have hafter : after.filter finishes = [] := List.filter_eq_nil_iff.2 fun chunk hchunk =>
      Bool.eq_false_iff.1 (hone chunk (List.mem_append_right _ hchunk))
    rw [hread, List.filter_append, hbefore, List.filter_cons_of_pos hfinish, hafter, List.nil_append]
  -- the translator has got through all of the chunks read, or all but the last
  have hread : done <+: chunksRead parse frames := by
    have hchunks := consumed_prefix (f := translateChunkToAnthropicEvents) .fresh
      (chunksOf parse frames)
    rw [hdone] at hchunks
    rw [hreads]
    refine List.prefix_of_prefix_length_le hchunks (List.take_prefix _ _) ?_
    rw [List.length_take]
    exact le_min (Nat.le_succ _) hchunks.length_le
  constructor
  · intro hcomplete
    have heq := consumed_of_run hcomplete
    rw [hdone] at heq
    have hsame : chunksRead parse frames = done := by
      rw [hreads, ← heq]
      exact List.take_of_length_le (Nat.le_succ _)
    rw [← hsame, hall] at htells
    exact htells.length_eq.symm
  · intro told htold
    obtain ⟨chunk, hchunk, htold⟩ := exists_of_mem_right htells htold
    have hmem := (hread.filter finishes).subset hchunk
    rw [hall, List.mem_singleton] at hmem
    rw [hmem] at htold
    rw [hreads]
    exact sameCounts_iff htold _

end

/-- A usage with these counts. -/
def usageOf (prompt cached completion : ℕ) : Json :=
  .object [("prompt_tokens", .number (.ofNat prompt)),
    ("completion_tokens", .number (.ofNat completion)),
    ("prompt_tokens_details", .object [("cached_tokens", .number (.ofNat cached))])]

theorem normalizeToken_ofNat (n : ℕ) : normalizeToken (some (.number (.ofNat n))) = n := by
  simp [normalizeToken, Number.ofNat]

/-- A usage on the finish chunk alone, and one on a later chunk next to it. -/
theorem repeats_usageOf (p c o p' c' o' : ℕ) :
    Repeats (some (usageOf p c o)) (some (usageOf p' c' o')) ↔ c = c' ∧ o = o' ∧ p = max p' c' := by
  have hcount {m n : ℕ} : IsCount (some (.number (.ofNat m))) (n : ℚ) ↔ m = n := by
    constructor
    · intro h
      exact_mod_cast (isCount_ofNat m).unique h
    · rintro rfl
      exact isCount_ofNat m
  have hnormal (n : ℕ) (v : Val) (hv : v = some (.number (.ofNat n))) : normalizeToken v = n :=
    hv ▸ normalizeToken_ofNat n
  have hp' := hnormal p' (promptTokens (some (usageOf p' c' o'))) rfl
  have hc' := hnormal c' (cachedTokens (some (usageOf p' c' o'))) rfl
  have ho' := hnormal o' (completionTokens (some (usageOf p' c' o'))) rfl
  constructor
  · rintro ⟨hc, ho, x, hx, hp⟩
    rw [hc'] at hc hp
    rw [ho'] at ho
    rw [hp'] at hp
    obtain rfl := Except.ok.inj hx
    exact ⟨hcount.1 hc, hcount.1 ho, hcount.1 hp⟩
  · rintro ⟨rfl, rfl, hp⟩
    refine ⟨?_, ?_, .ofNat p, rfl, ?_⟩
    · rw [hc']
      exact isCount_ofNat c
    · rw [ho']
      exact isCount_ofNat o
    · rw [hp', hc', ← hp]
      exact isCount_ofNat p

/-- A chunk that ends the message with a usage of its own. -/
def finishWith : Json :=
  .object [("choices", .array [.object [("finish_reason", .string "stop")]]),
    ("usage", usageOf 10 4 5)]

/-- A frame with the text of a value. -/
theorem chunksOf_stringify {v : Json} (hv : v.isParsed = true) (hdone : v.stringify ≠ "[DONE]")
    (hempty : v.stringify ≠ "") (frames : List (Option String)) :
    chunksOf Json.parse (some v.stringify :: frames) = v :: chunksOf Json.parse frames := by
  rw [chunksOf, if_neg (mt Option.some.inj hdone), Option.getD_some, if_neg hempty,
    Json.parse_stringify hv]
  rfl

theorem usage_agrees_iff_finish :
    let flow := handleWithChatCompletions Json.parse [some finishWith.stringify]
    (deltaUsages flow.written).length = 1 ∧
      ∀ told ∈ deltaUsages flow.written, SameCounts told flow.recorded := by
  have hchunks : chunksOf Json.parse [some finishWith.stringify] = [finishWith] :=
    chunksOf_stringify (by decide +kernel) (by decide +kernel) (by decide +kernel) []
  have hread : chunksRead Json.parse [some finishWith.stringify] = [] ++ finishWith :: [] := by
    rw [chunksRead, hchunks]
    rfl
  obtain ⟨hone, hagrees⟩ := usage_agrees_iff [some finishWith.stringify] hread rfl (by simp)
  rw [hread] at hagrees
  rw [hchunks] at hone
  exact ⟨hone rfl, fun told htold =>
    (hagrees told htold).2 ((repeats_usageOf 10 4 5 10 4 5).2 (by decide))⟩

/-- A chunk that ends the message, and a later one without choices that brings the usage. -/
def finishWithout : Json := chunkOf [] (.string "stop")

def usageAfter : Json :=
  .object [("choices", .array []), ("usage", usageOf 10 0 5)]

/-- The two of them as the frames of a stream. -/
def framesWithout : List (Option String) := [some finishWithout.stringify, some usageAfter.stringify]

theorem not_all_usages_agree :
    ¬ ∀ (parse : String → Option Json) (frames : List (Option String)) (before after : List Json)
      (finish : Json), chunksRead parse frames = before ++ finish :: after →
      finishes finish = true → (∀ chunk ∈ before ++ after, finishes chunk = false) →
      ∀ told ∈ deltaUsages (handleWithChatCompletions parse frames).written,
        SameCounts told (handleWithChatCompletions parse frames).recorded := by
  intro h
  have hchunks : chunksOf Json.parse framesWithout = [finishWithout, usageAfter] := by
    rw [framesWithout, chunksOf_stringify (by decide +kernel) (by decide +kernel)
      (by decide +kernel), chunksOf_stringify (by decide +kernel) (by decide +kernel)
      (by decide +kernel)]
    rfl
  have hread : chunksRead Json.parse framesWithout = [] ++ finishWithout :: [usageAfter] := by
    rw [chunksRead, hchunks]
    rfl
  have hflow : handleWithChatCompletions Json.parse framesWithout = _ :=
    streamChunks_eq framesWithout .fresh none
  rw [hchunks] at hflow
  have hnone : (deltaUsages (handleWithChatCompletions Json.parse framesWithout).written).map
      Usage.outputTokens = [.number (.ofNat 0)] := by
    rw [hflow]
    rfl
  have hfive :
      (handleWithChatCompletions Json.parse framesWithout).recorded.outputTokens.getD 0 = 5 := by
    rw [hflow]
    rfl
  obtain ⟨told, htold, hzero⟩ := List.map_eq_singleton_iff.1 hnone
  have hsame := h Json.parse framesWithout [] [usageAfter] finishWithout hread rfl
    (fun chunk hchunk => by obtain rfl := List.mem_singleton.1 hchunk; rfl) told
    (by rw [htold]; exact List.mem_singleton_self told)
  have hcount := hsame.output
  rw [hzero, hfive] at hcount
  have heq := isCount_zero.unique hcount
  norm_num at heq

end Maximal
