import Maximal.Messages.ChunkFrame

/-!
# The text of the chat-completions translator

The texts a chunk brings are its reasoning text and its content. What the translator sends of
them is computed with an empty placeholder text, so that placeholders count for nothing.

## Main definitions

- `gather` — the concatenation of texts over a list
- `sentText`, `chunkText` — the text of an emitted event, the text of a chunk
- `AnthropicStreamState.overwritesContent` — a reasoning text takes the place of a content

## Main results

- `ChunkText.translateChunk_hoare` — a chunk sends its text, less a content that is overwritten
- `ChunkText.run_iff` — a run sends all the text iff no chunk of it overwrites a content
-/

namespace Maximal

open Js Emitter AnthropicStreamEventData

/-- The texts of the elements, one after the other. -/
def gather {α : Type} (f : α → String) : List α → String
  | [] => ""
  | x :: xs => f x ++ gather f xs

section Gather

variable {α : Type} {f : α → String}

@[simp] theorem gather_nil : gather f [] = "" := rfl

@[simp] theorem gather_cons (x : α) (xs : List α) : gather f (x :: xs) = f x ++ gather f xs := rfl

@[simp] theorem gather_append (xs ys : List α) :
    gather f (xs ++ ys) = gather f xs ++ gather f ys := by
  induction xs with
  | nil => simp
  | cons x xs ih => simp [ih, String.append_assoc]

theorem foldl_gather (t : String) (xs : List α) :
    xs.foldl (fun t x => t ++ f x) t = t ++ gather f xs := by
  induction xs generalizing t with
  | nil => simp
  | cons x xs ih => simp [ih, String.append_assoc]

end Gather

/-- The text of a value; anything but a string has none. -/
def textOf (v : Val) : String := v.asString.getD ""

theorem textOf_eq_empty {v : Val} (h : v.hasLength = .ok false) : textOf v = "" := by
  rcases v with _ | (_ | _ | _ | s | _ | _) <;> try rfl
  by_cases hs : s = ""
  · simp [textOf, Val.asString, hs]
  · have hlen := Json.utf16Length_pos hs
    simp [Val.hasLength, Val.truthy, Json.truthy, hs, Val.optProp, Json.get, Val.toNumber,
      Except.map, Number.ofNat, Number.isPositive] at h
    omega

theorem textOf_of_not_truthy {v : Val} (h : v.truthy = false) : textOf v = "" := by
  rcases v with _ | (_ | _ | _ | s | _ | _) <;> try rfl
  simpa [textOf, Val.asString, Val.truthy, Json.truthy] using h

/-- The text of a text or thinking delta. -/
def sentText : AnthropicStreamEventData → String
  | .contentBlockDelta _ (.textDelta text) => textOf text
  | .contentBlockDelta _ (.thinkingDelta thinking) => textOf thinking
  | _ => ""

/-- The reasoning text of a chunk, then its content. -/
def chunkText (chunk : Json) : String :=
  match readTranslatableChoice chunk with
  | none => ""
  | some (_, delta) => textOf delta.reasoningText ++ textOf delta.content

namespace AnthropicStreamState

/-- A reasoning text arrives in an open content block, next to a content of its own. -/
def overwritesContent (state : AnthropicStreamState) (chunk : Json) : Bool :=
  match readTranslatableChoice chunk with
  | none => false
  | some (_, delta) =>
    state.contentBlockOpen && nonEmpty delta.reasoningText && textOf delta.content ≠ ""

/-- What is left of the chunk's text then. -/
def keptText (state : AnthropicStreamState) (chunk : Json) : String :=
  match readTranslatableChoice chunk with
  | none => ""
  | some (_, delta) =>
    if state.overwritesContent chunk then textOf delta.reasoningText else chunkText chunk

end AnthropicStreamState

namespace ChunkText

def observe (text : String) (e : AnthropicStreamEventData) : String := text ++ sentText e

/-- No text is emitted. -/
def silence : Frame AnthropicStreamState AnthropicStreamEventData where
  moves _ _ := True
  refl _ := trivial
  trans _ _ := trivial
  emits e := sentText e = ""

theorem silence_chunkFrame : ChunkFrame "" silence where
  moves _ _ _ _ := trivial
  stop _ := rfl
  start _ _ _ := rfl
  signature _ _ := rfl
  placeholder _ := rfl
  messageStart _ _ _ := rfl

theorem silent_hoare {α : Type} {x : ChunkTranslator α} (h : Keeps silence x) (text : String) :
    Hoare observe (fun _ m => m = text) x fun _ _ m => m = text := by
  refine h.hoare fun s s' m os hm _ hos => ?_
  rw [← hm]
  clear hm
  induction os with
  | nil => rfl
  | cons e es ih =>
    rw [List.foldl_cons, observe, hos e List.mem_cons_self, String.append_empty]
    exact ih fun e he => hos e (List.mem_cons_of_mem _ he)

theorem handleToolCall_silent (call : Json) : Keeps silence (handleToolCall call) := by
  refine .when _ <| .bind (.when _ <| (closeContentBlockIfOpen_keeps silence_chunkFrame).bind
    fun _ => .bind .current fun s => .bind (.ofExcept _) fun _ =>
      .bind (.update fun _ => trivial) fun _ => .emit ?_) fun _ => .when _ <|
    .bind (.ofExcept _) fun key => .bind .current fun s => ?_
  · simp [silence, sentText]
  · split
    · exact .pure ()
    · exact .emit (by simp [silence, sentText])

/-- Content goes out as it is. -/
theorem handleContent_hoare (delta : Delta) (text : String) :
    Hoare observe (fun _ m => m = text) (handleContent delta) fun _ _ m =>
      m = text ++ textOf delta.content := by
  refine Hoare.bind (S := fun _ _ m => m = text ++ textOf delta.content) ?_ fun _ =>
    silent_hoare (signThinkingBlock_keeps silence_chunkFrame delta) _
  rintro s m rfl
  rw [sendContent, wp_bind, wp_ofExcept]
  intro hasContent hlen
  rw [wp_when]
  cases hasContent with
  | false => simp [textOf_eq_empty hlen]
  | true =>
    rw [if_pos rfl]
    refine ((silent_hoare (closeThinkingBlockIfOpen_keeps silence_chunkFrame) m).bind fun _ =>
      (silent_hoare (closeToolBlockIfOpen_keeps silence_chunkFrame) m).bind fun _ =>
      (silent_hoare (openTextBlockIfNeeded_keeps silence_chunkFrame) m).bind
        fun _ s m' hm => ?_) s m rfl
    obtain rfl := hm
    rfl

theorem handleMessageStart_hoare (chunk : Json) (isOpen : Bool) (text : String) :
    Hoare observe (fun s m => s.contentBlockOpen = isOpen ∧ m = text) (handleMessageStart chunk)
      fun _ s m => s.contentBlockOpen = isOpen ∧ m = text := by
  rintro s m ⟨rfl, rfl⟩
  simp only [handleMessageStart, wp_bind, wp_current, wp_when, wp_ofExcept, wp_emit, wp_update]
  split
  · intro _ _
    exact ⟨trivial, String.append_empty⟩
  · exact ⟨trivial, trivial⟩

/-- What is sent of the reasoning text, and what the delta then holds as content. -/
theorem handleThinkingText_hoare (delta : Delta) (isOpen : Bool) (text : String) :
    Hoare observe (fun s m => s.contentBlockOpen = isOpen ∧ m = text) (handleThinkingText delta)
      fun delta' _ m => m ++ textOf delta'.content = text ++
        if isOpen && nonEmpty delta.reasoningText then textOf delta.reasoningText
        else textOf delta.reasoningText ++ textOf delta.content := by
  rintro s m ⟨rfl, rfl⟩
  simp only [handleThinkingText, wp_bind, wp_ofExcept, wp_current, wp_ite, wp_pure, wp_when,
    wp_emit, wp_update]
  intro hasThinking hlen
  rw [nonEmpty_of_hasLength hlen]
  cases hasThinking with
  | false => simp [textOf_eq_empty hlen]
  | true =>
    cases s.contentBlockOpen with
    | true => simp
    | false =>
      simp only [Bool.and_false, Bool.false_eq_true, if_false, if_true, Bool.false_and]
      split <;> simp [observe, sentText, textOf, String.append_assoc]

/-- A chunk sends its text, unless its reasoning text overwrites its content. -/
theorem translateChunk_hoare (chunk : Json) (s : AnthropicStreamState) (text : String) :
    wp observe (translateChunkWith "" chunk)
      (fun _ _ m => m = text ++ s.keptText chunk) s text := by
  rw [translateChunkWith, AnthropicStreamState.keptText, AnthropicStreamState.overwritesContent,
    chunkText]
  cases readTranslatableChoice chunk with
  | none => simp
  | some r =>
    obtain ⟨choice, delta⟩ := r
    dsimp only
    refine ((handleMessageStart_hoare chunk s.contentBlockOpen text).bind fun _ =>
      (handleThinkingText_hoare delta s.contentBlockOpen text).bind fun delta' s' m h =>
        ?_) s text ⟨rfl, rfl⟩
    refine ((handleContent_hoare delta' m).bind fun _ =>
      (silent_hoare (handleToolCalls_keeps silence_chunkFrame delta' handleToolCall_silent) _).bind
        fun _ => silent_hoare
          (handleFinish_keeps silence_chunkFrame (fun _ _ => rfl) rfl choice chunk delta') _).apply
        rfl fun _ _ m' hm' => ?_
    rw [hm', h]
    by_cases hc : textOf delta.content = ""
    · simp [hc]
    · simp only [hc, ne_eq, not_false_eq_true, decide_true, Bool.and_true]

theorem keptText_of_not_overwrites {s : AnthropicStreamState} {chunk : Json}
    (h : s.overwritesContent chunk = false) : s.keptText chunk = chunkText chunk := by
  rw [AnthropicStreamState.keptText, h]
  cases hread : readTranslatableChoice chunk with
  | none => simp [chunkText, hread]
  | some r => simp

theorem keptText_lt_of_overwrites {s : AnthropicStreamState} {chunk : Json}
    (h : s.overwritesContent chunk = true) :
    (s.keptText chunk).length < (chunkText chunk).length := by
  rw [AnthropicStreamState.keptText, h]
  rw [AnthropicStreamState.overwritesContent] at h
  rw [chunkText]
  cases hread : readTranslatableChoice chunk with
  | none => simp [hread] at h
  | some r =>
    obtain ⟨choice, delta⟩ := r
    simp only [hread, Bool.and_eq_true, decide_eq_true_eq] at h
    have hpos : 0 < (textOf delta.content).length := by
      rw [Nat.pos_iff_ne_zero, ne_eq, String.length_eq_zero_iff]
      exact h.2
    simp only [if_true, String.length_append]
    omega

/-- What a step sends. -/
theorem gather_step {s s' : AnthropicStreamState} {chunk : Json}
    {os : List AnthropicStreamEventData} (h : translateChunkWith "" chunk s = .ok ((), s', os)) :
    gather sentText os = s.keptText chunk := by
  have hstep := wp_apply (translateChunk_hoare chunk s "") h
  rwa [show observe = fun t e => t ++ sentText e from rfl, foldl_gather, String.empty_append,
    String.empty_append] at hstep

/-- A run sends at most the text of its chunks. -/
theorem run_length_le (s : AnthropicStreamState) (chunks : List Json) :
    (gather sentText (run (translateChunkWith "") s chunks).outputs).length ≤
      (gather chunkText (consumed (translateChunkWith "") s chunks)).length := by
  induction chunks generalizing s with
  | nil => exact le_rfl
  | cons chunk chunks ih =>
    simp only [run, consumed]
    cases hf : translateChunkWith "" chunk s with
    | error e => exact le_rfl
    | ok r =>
      obtain ⟨_, s', os⟩ := r
      simp only [gather_append, gather_cons, gather_step hf, String.length_append]
      have hrest := ih s'
      have hkept : (s.keptText chunk).length ≤ (chunkText chunk).length := by
        cases ho : s.overwritesContent chunk with
        | false => rw [keptText_of_not_overwrites ho]
        | true => exact (keptText_lt_of_overwrites ho).le
      omega

theorem run_iff (s : AnthropicStreamState) (chunks : List Json) :
    gather sentText (run (translateChunkWith "") s chunks).outputs =
        gather chunkText (consumed (translateChunkWith "") s chunks) ↔
      Meets (fun s chunk => s.overwritesContent chunk = false) (translateChunkWith "") s chunks := by
  induction chunks generalizing s with
  | nil => exact iff_of_true rfl trivial
  | cons chunk chunks ih =>
    simp only [run, consumed, Meets]
    cases hf : translateChunkWith "" chunk s with
    | error e => exact iff_of_true rfl trivial
    | ok r =>
      obtain ⟨_, s', os⟩ := r
      simp only [gather_append, gather_cons, gather_step hf]
      cases ho : s.overwritesContent chunk with
      | false =>
        rw [keptText_of_not_overwrites ho, String.append_right_inj, ih s']
        simp
      | true =>
        refine iff_of_false (fun heq => ?_) (by simp)
        have hlen := congrArg String.length heq
        simp only [String.length_append] at hlen
        have hlt := keptText_lt_of_overwrites ho
        have hle := run_length_le s' chunks
        omega

end ChunkText

end Maximal
