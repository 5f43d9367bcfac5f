import Maximal.Messages.StreamTranslation
import Mathlib.Tactic.Set

/-!
# Content blocks of the chat-completions translator

What each handler of the translator does to the stream of content blocks, seen through a view
that may blur block kinds and hide deltas. The state knows one open block at most, by two flags
and the map of tool calls; `At kind` says that the stream agrees with it.

## Main definitions

- `BlockView` — how a property looks at the events
- `ChunkBlocks.At` — state and observed stream agree on the open block and on the indices used
- `Delta.hasText`, `Delta.hasToolCalls`, `Delta.signsThinking` — what a delta makes the handlers do
-/

namespace Maximal

open Js Emitter Blocks

/-- A view of the emitted events as a stream of blocks labelled in `κ`. Starts and stops are seen
as they are; a delta that fits its block is admissible there; the end of a message is a boundary
or nothing. -/
structure BlockView (κ : Type) where
  label : BlockKind → κ
  fits : κ → DeltaKind → Prop
  view : AnthropicStreamEventData → BlockEvent (Option ℕ) κ DeltaKind
  start : ∀ i b, view (.contentBlockStart i b) = .start (some i) (label b.kind)
  stop : ∀ i, view (.contentBlockStop i) = .stop (some i)
  delta : ∀ i d k, k.Fits d.kind →
    Admissible fits [(some i, label k)] (view (.contentBlockDelta (.at i) d))
  track_delta : ∀ blocks i d, track blocks (view (.contentBlockDelta i d)) = blocks
  opens_delta : ∀ i d, opens [view (.contentBlockDelta i d)] = []
  messageStart : ∀ id model usage, view (.messageStart id model usage) = .other
  ends : Bool
  messageDelta : ∀ r u, view (.messageDelta r u) = if ends then .boundary else .other
  messageStop : view .messageStop = if ends then .boundary else .other

/-- `v && v.length > 0`, where reading the length does not throw. -/
def nonEmpty (v : Val) : Bool := v.hasLength.toOption.getD false

theorem nonEmpty_of_hasLength {v : Val} {b : Bool} (h : v.hasLength = .ok b) : nonEmpty v = b := by
  rw [nonEmpty, h]
  rfl

/-- A block the state flags as content: its text or a tool call. -/
@[simp] def isContent : Option BlockKind → Bool
  | some .text => true
  | some .toolUse => true
  | some .thinking => false
  | none => false

theorem isContent_iff {kind : Option BlockKind} :
    isContent kind = true ↔ kind = some .text ∨ kind = some .toolUse := by
  rcases kind with _ | (_ | _ | _) <;> simp

namespace Delta

/-- The delta reaches the content handler with a text, its own or a thinking text moved there. -/
def hasText (delta : Delta) : Bool := nonEmpty delta.content || nonEmpty delta.reasoningText

def hasToolCalls (delta : Delta) : Bool := delta.toolCalls.asArray.any (· ≠ [])

/-- The delta the later handlers see: a thinking text inside an open content block is content. -/
def afterThinkingText (delta : Delta) (kind : Option BlockKind) : Delta :=
  if nonEmpty delta.reasoningText ∧ isContent kind then
    { delta with content := delta.reasoningText, reasoningText := none }
  else delta

/-- The open block once the thinking text is handled. -/
def thinkingKind (delta : Delta) (kind : Option BlockKind) : Option BlockKind :=
  if nonEmpty delta.reasoningText && !isContent kind then some .thinking else kind

/-- An empty content next to a signature: the open thinking block is signed and stopped. -/
def signsThinking (delta : Delta) : Bool :=
  delta.content.asString = some "" && nonEmpty delta.reasoningOpaque

/-- The open block once the content is handled. -/
def contentKind (delta : Delta) (kind : Option BlockKind) : Option BlockKind :=
  if nonEmpty delta.content then some .text
  else if kind = some .thinking ∧ delta.signsThinking then none
  else kind

/-- A tool call is still open after the content only if no text of the chunk came between. -/
theorem contentKind_eq_toolUse (delta : Delta) (kind : Option BlockKind) :
    (delta.afterThinkingText kind).contentKind (delta.thinkingKind kind) = some .toolUse ↔
      kind = some .toolUse ∧ delta.hasText = false := by
  rw [afterThinkingText, thinkingKind, contentKind, hasText]
  cases hr : nonEmpty delta.reasoningText <;> cases hc : nonEmpty delta.content <;>
    cases hs : delta.signsThinking <;> rcases kind with _ | (_ | _ | _) <;> simp [*]

theorem contentKind_eq_thinking (delta : Delta) (kind : Option BlockKind) :
    (delta.afterThinkingText kind).contentKind (delta.thinkingKind kind) = some .thinking ↔
      (kind = some .thinking ∨ kind = none ∧ nonEmpty delta.reasoningText) ∧
        nonEmpty delta.content = false ∧ delta.signsThinking = false := by
  rw [afterThinkingText, thinkingKind, contentKind]
  cases hr : nonEmpty delta.reasoningText <;> cases hc : nonEmpty delta.content <;>
    cases hs : delta.signsThinking <;> rcases kind with _ | (_ | _ | _) <;> simp [*]

/-- The open block when the entries of `tool_calls` are handled. -/
def beforeToolCalls (delta : Delta) (kind : Option BlockKind) : Option BlockKind :=
  if kind = some .toolUse ∧ ¬delta.hasText then kind else none

theorem beforeToolCalls_ne_thinking (delta : Delta) (kind : Option BlockKind) :
    delta.beforeToolCalls kind ≠ some .thinking := by
  rw [beforeToolCalls]
  split
  · next h => simp [h.1]
  · simp

/-- Once the deltas of the chunk are handled, a thinking block is still open. -/
def leavesThinkingOpen (delta : Delta) (kind : Option BlockKind) : Bool :=
  (kind = some .thinking ∨ kind = none ∧ nonEmpty delta.reasoningText)
    && !nonEmpty delta.content && !delta.hasToolCalls && !delta.signsThinking

end Delta

namespace ChunkBlocks

variable {κ : Type} (V : BlockView κ)

def observe (c : Scan (Option ℕ) κ) (e : AnthropicStreamEventData) : Scan (Option ℕ) κ :=
  Scan.step V.fits c (V.view e)

theorem foldl_observe (c : Scan (Option ℕ) κ) (events : List AnthropicStreamEventData) :
    events.foldl (observe V) c =
      ⟨openAfter c.blocks (events.map V.view), c.opened ++ opens (events.map V.view),
        c.disciplined ∧ Disciplined V.fits c.blocks (events.map V.view)⟩ := by
  rw [← foldl_scan, List.foldl_map]
  rfl

/-- The observed stream is disciplined, its open block is the one the state takes to be open, its
blocks are numbered from zero, and the known tool calls have numbers already used. The open tool
call is the one announced last. -/
structure At (kind : Option BlockKind) (tools : ToolCalls) (s : AnthropicStreamState)
    (c : Scan (Option ℕ) κ) : Prop where
  disciplined : c.disciplined
  content : s.contentBlockOpen = isContent kind
  thinking : s.thinkingBlockOpen = (kind = some .thinking : Bool)
  toolCalls : s.toolCalls = tools
  blocks : c.blocks = kind.toList.map fun k => (some s.contentBlockIndex, V.label k)
  opened : c.opened = (List.range (s.contentBlockIndex + kind.toList.length)).map some
  below : ∀ e ∈ tools.entries, e.2.anthropicBlockIndex < s.contentBlockIndex + kind.toList.length
  older : kind = some .text → ∀ e ∈ tools.entries,
    e.2.anthropicBlockIndex ≠ s.contentBlockIndex
  announced : kind = some .toolUse →
    tools.entries.head?.map (·.2.anthropicBlockIndex) = some s.contentBlockIndex
  proto : V.label .text ≠ V.label .toolUse → tools.proto = none

theorem At.init : At V none .empty .fresh Scan.init := by
  constructor <;> simp [AnthropicStreamState.fresh, Scan.init, ToolCalls.empty]

variable {V} {kind : Option BlockKind} {tools : ToolCalls} {s s' : AnthropicStreamState}
  {c : Scan (Option ℕ) κ} {p : String}

theorem At.isToolBlockOpen (h : At V kind tools s c) :
    s.isToolBlockOpen = (kind = some .toolUse : Bool) := by
  rw [AnthropicStreamState.isToolBlockOpen, h.content, h.toolCalls]
  rcases kind with _ | (_ | _ | _)
  · rfl
  · simpa using h.older rfl
  · obtain ⟨e, he, hi⟩ := Option.map_eq_some_iff.1 (h.announced rfl)
    simpa using ⟨e.1, e.2, List.mem_of_mem_head? he, hi⟩
  · rfl

/-! ## Single events -/

theorem At.start {k : BlockKind} (h : At V none tools s c) (b : ContentBlock)
    (hk : V.label b.kind = V.label k) {tools' : ToolCalls}
    (hidx : s'.contentBlockIndex = s.contentBlockIndex)
    (hc : s'.contentBlockOpen = isContent (some k))
    (ht : s'.thinkingBlockOpen = (k = .thinking : Bool))
    (htools : s'.toolCalls = tools')
    (hbelow : ∀ e ∈ tools'.entries, e.2.anthropicBlockIndex ≤ s.contentBlockIndex)
    (holder : k = .text → ∀ e ∈ tools'.entries, e.2.anthropicBlockIndex ≠ s.contentBlockIndex)
    (hann : k = .toolUse →
      tools'.entries.head?.map (·.2.anthropicBlockIndex) = some s.contentBlockIndex)
    (hproto : V.label .text ≠ V.label .toolUse → tools'.proto = none) :
    At V (some k) tools' s' (observe V c (.contentBlockStart s.contentBlockIndex b)) := by
  have hb : c.blocks = [] := h.blocks
  constructor
  · exact ⟨h.disciplined, by rw [V.start]; exact hb⟩
  · simpa using hc
  · simpa using ht
  · exact htools
  · simp [observe, Scan.step, V.start, track, hb, hk, hidx]
  · simp [observe, Scan.step, V.start, opens, h.opened, hidx, List.range_succ]
  · intro e he
    have := hbelow e he
    simp only [Option.toList_some, List.length_singleton, hidx]
    omega
  · intro hk' e he
    rw [hidx]
    exact holder (Option.some_inj.1 hk') e he
  · intro hk'
    rw [hidx]
    exact hann (Option.some_inj.1 hk')
  · exact hproto

/-- Starting a block that is no tool call. -/
theorem At.start_plain {k : BlockKind} (h : At V none tools s c) (b : ContentBlock)
    (hk : b.kind = k) (hne : k ≠ .toolUse)
    (hidx : s'.contentBlockIndex = s.contentBlockIndex)
    (hc : s'.contentBlockOpen = (k = .text : Bool))
    (ht : s'.thinkingBlockOpen = (k = .thinking : Bool))
    (htools : s'.toolCalls = s.toolCalls) :
    At V (some k) tools s' (observe V c (.contentBlockStart s.contentBlockIndex b)) := by
  have hlt : ∀ e ∈ tools.entries, e.2.anthropicBlockIndex < s.contentBlockIndex := h.below
  have hc' : s'.contentBlockOpen = isContent (some k) := by
    rw [hc]
    cases k <;> simp at hne ⊢
  exact h.start b (by rw [hk]) hidx hc' ht (htools.trans h.toolCalls)
    (fun e he => (hlt e he).le) (fun _ e he => (hlt e he).ne) (fun hk' => absurd hk' hne) h.proto

theorem At.stop {k : BlockKind} (h : At V (some k) tools s c)
    (hidx : s'.contentBlockIndex = s.contentBlockIndex + 1)
    (hc : s'.contentBlockOpen = false) (ht : s'.thinkingBlockOpen = false)
    (htools : s'.toolCalls = s.toolCalls) :
    At V none tools s' (observe V c (.contentBlockStop s.contentBlockIndex)) := by
  have hb : c.blocks = [(some s.contentBlockIndex, V.label k)] := h.blocks
  constructor
  · exact ⟨h.disciplined, by rw [V.stop]; exact ⟨_, hb⟩⟩
  · exact hc
  · exact ht
  · exact htools.trans h.toolCalls
  · simp [observe, Scan.step, V.stop, track, hb]
  · simp [observe, Scan.step, V.stop, opens, h.opened, hidx]
  · intro e he
    have := h.below e he
    simpa [hidx] using this
  · simp
  · simp
  · exact h.proto

theorem At.delta {k : BlockKind} (h : At V (some k) tools s c) {d : BlockDelta}
    (hfits : k.Fits d.kind) :
    At V (some k) tools s (observe V c (.contentBlockDelta (.at s.contentBlockIndex) d)) := by
  have hb : c.blocks = [(some s.contentBlockIndex, V.label k)] := h.blocks
  constructor
  · refine ⟨h.disciplined, ?_⟩
    rw [hb]
    exact V.delta _ _ _ hfits
  · exact h.content
  · exact h.thinking
  · exact h.toolCalls
  · exact (V.track_delta _ _ _).trans h.blocks
  · rw [observe, Scan.step, V.opens_delta, List.append_nil]
    exact h.opened
  · exact h.below
  · exact h.older
  · exact h.announced
  · exact h.proto

theorem At.other (h : At V kind tools s c) {e : AnthropicStreamEventData}
    (he : V.view e = .other) : At V kind tools s (observe V c e) := by
  have hobs : observe V c e = { c with disciplined := c.disciplined ∧ True } := by
    simp only [observe, Scan.step, he, track, opens, List.filterMap_cons, List.filterMap_nil,
      List.append_nil, Admissible]
  rw [hobs]
  exact { h with disciplined := ⟨h.disciplined, trivial⟩ }

/-- The end of a message, with no block open where that matters. -/
theorem At.messageEnd (h : At V kind tools s c) {e : AnthropicStreamEventData}
    (he : V.view e = if V.ends then .boundary else .other) (hk : V.ends = true → kind = none) :
    At V kind tools s (observe V c e) := by
  by_cases hends : V.ends = true
  · obtain rfl := hk hends
    have hobs : observe V c e = { c with disciplined := c.disciplined ∧ c.blocks = [] } := by
      simp only [observe, Scan.step, he, hends, if_true, track, opens, List.filterMap_cons,
        List.filterMap_nil, List.append_nil, Admissible]
    rw [hobs]
    exact { h with disciplined := ⟨h.disciplined, h.blocks⟩ }
  · exact h.other (by rw [he, if_neg hends])

/-- The flag for the message start concerns no block. -/
theorem At.sent (h : At V kind tools s c) : At V kind tools { s with messageStartSent := true } c :=
  { h with }

/-! ## The handlers -/

theorem handleMessageStart_hoare (chunk : Json) :
    Hoare (observe V) (At V kind tools) (handleMessageStart chunk) fun _ => At V kind tools := by
  intro s c h
  simp only [handleMessageStart, wp_bind, wp_current, wp_when, wp_ofExcept, wp_emit, wp_update]
  split
  · intro usage _
    exact (h.other (V.messageStart _ _ _)).sent
  · exact h

theorem stopContentBlock_hoare (hk : isContent kind) :
    Hoare (observe V) (At V kind tools) stopContentBlock fun _ => At V none tools := by
  intro s c h
  simp only [stopContentBlock, wp_bind, wp_current, wp_emit, wp_update]
  have ht : s.thinkingBlockOpen = false := by
    rw [h.thinking]
    rcases isContent_iff.1 hk with rfl | rfl <;> rfl
  rcases isContent_iff.1 hk with rfl | rfl
  · exact h.stop rfl rfl ht rfl
  · exact h.stop rfl rfl ht rfl

theorem closeThinkingBlockIfOpen_hoare :
    Hoare (observe V) (At V kind tools) closeThinkingBlockIfOpen fun _ =>
      At V (if kind = some .thinking then none else kind) tools := by
  intro s c h
  simp only [closeThinkingBlockIfOpen, wp_bind, wp_current, wp_when, wp_emit, wp_update]
  rw [h.thinking]
  by_cases hk : kind = some .thinking
  · subst hk
    simp only [if_true, decide_true]
    exact (h.delta (.inr rfl)).stop rfl h.content rfl rfl
  · simpa [hk] using h

theorem handleThinkingText_hoare (delta : Delta) :
    Hoare (observe V) (At V kind tools) (handleThinkingText delta) fun delta' s c =>
      delta' = delta.afterThinkingText kind ∧ At V (delta.thinkingKind kind) tools s c := by
  intro s c h
  simp only [handleThinkingText, wp_bind, wp_ofExcept, wp_current, wp_ite, wp_pure, wp_when,
    wp_emit, wp_update]
  intro hasThinking hlen
  rw [Delta.afterThinkingText, Delta.thinkingKind, nonEmpty_of_hasLength hlen, h.content,
    h.thinking]
  cases hasThinking with
  | false => simpa using h
  | true =>
    rcases kind with _ | (_ | _ | _)
    · simp only [isContent, Bool.and_false, Bool.false_eq_true, if_false, reduceCtorEq,
        decide_false, Bool.not_false, if_true, Bool.and_true, and_false, true_and]
      have hstart : At V (some .thinking) tools
          { s with contentBlockOpen := false, thinkingBlockOpen := true } _ :=
        h.start_plain (.thinking "") rfl (by simp) rfl rfl rfl rfl
      exact hstart.delta (.inl rfl)
    · simpa using h
    · simpa using h
    · simp only [isContent, Bool.and_false, Bool.false_eq_true, if_false, decide_true,
        Bool.not_true, Bool.not_false, if_true, Bool.and_true, and_false, true_and]
      exact h.delta (d := .thinkingDelta _) (.inl rfl)

theorem handleReasoningOpaque_hoare (delta : Delta)
    (hk : kind = none ∨ nonEmpty delta.reasoningOpaque = false) :
    Hoare (observe V) (At V kind tools) (handleReasoningOpaque p delta) fun _ => At V kind tools := by
  intro s c h
  simp only [handleReasoningOpaque, wp_bind, wp_ofExcept, wp_current, wp_when, wp_emit, wp_update]
  intro hasOpaque hlen
  rw [nonEmpty_of_hasLength hlen] at hk
  cases hasOpaque with
  | false => exact h
  | true =>
    obtain rfl : kind = none := hk.resolve_right (by simp)
    have hstart : At V (some .thinking) tools { s with thinkingBlockOpen := true } _ :=
      h.start_plain (.thinking "") rfl (by simp) rfl h.content rfl rfl
    exact ((hstart.delta (.inl rfl)).delta (.inr rfl)).stop rfl h.content h.thinking rfl

theorem handleReasoningOpaqueInToolCalls_hoare (delta : Delta) (hk : kind ≠ some .thinking)
    (ho : kind = some .toolUse → nonEmpty delta.reasoningOpaque = false) :
    Hoare (observe V) (At V kind tools) (handleReasoningOpaqueInToolCalls p delta) fun _ =>
      At V (if kind = some .toolUse then kind else none) tools := by
  intro s c h
  simp only [handleReasoningOpaqueInToolCalls, wp_bind, wp_current, wp_when]
  rw [h.content, h.isToolBlockOpen]
  rcases kind with _ | (_ | _ | _)
  · exact handleReasoningOpaque_hoare delta (.inl rfl) s c h
  · exact (stopContentBlock_hoare rfl).apply h fun _ s' c' h' =>
      handleReasoningOpaque_hoare delta (.inl rfl) s' c' h'
  · exact handleReasoningOpaque_hoare delta (.inr (ho rfl)) s c h
  · exact absurd rfl hk

theorem closeToolBlockIfOpen_hoare :
    Hoare (observe V) (At V kind tools) closeToolBlockIfOpen fun _ =>
      At V (if kind = some .toolUse then none else kind) tools := by
  intro s c h
  simp only [closeToolBlockIfOpen, wp_bind, wp_current, wp_when]
  rw [h.isToolBlockOpen]
  by_cases hk : kind = some .toolUse
  · subst hk
    exact stopContentBlock_hoare rfl s c h
  · simpa [hk] using h

theorem openTextBlockIfNeeded_hoare (hk : kind = none ∨ kind = some .text) :
    Hoare (observe V) (At V kind tools) openTextBlockIfNeeded fun _ =>
      At V (some .text) tools := by
  intro s c h
  simp only [openTextBlockIfNeeded, wp_bind, wp_current, wp_when, wp_emit, wp_update]
  rw [h.content]
  rcases hk with rfl | rfl
  · exact h.start_plain (.text "") rfl (by simp) rfl rfl h.thinking rfl
  · exact h

theorem sendContent_hoare (delta : Delta) :
    Hoare (observe V) (At V kind tools) (sendContent delta) fun _ =>
      At V (if nonEmpty delta.content then some .text else kind) tools := by
  intro s c h
  rw [sendContent, wp_bind, wp_ofExcept]
  intro hasContent hlen
  rw [wp_when, nonEmpty_of_hasLength hlen]
  cases hasContent with
  | false => exact h
  | true =>
    rw [if_pos rfl, if_pos rfl]
    refine (closeThinkingBlockIfOpen_hoare.bind fun _ => closeToolBlockIfOpen_hoare.bind fun _ =>
      (openTextBlockIfNeeded_hoare ?_).bind fun _ s c h => ?_) s c h
    · rcases kind with _ | (_ | _ | _) <;> simp
    · exact h.delta rfl

theorem signThinkingBlock_hoare (delta : Delta) :
    Hoare (observe V) (At V kind tools) (signThinkingBlock delta) fun _ =>
      At V (if kind = some .thinking ∧ delta.signsThinking then none else kind) tools := by
  intro s c h
  simp only [signThinkingBlock, wp_bind, wp_ofExcept, wp_when, wp_current, wp_emit, wp_update]
  rw [Delta.signsThinking, h.thinking]
  split
  · next hc =>
    intro hasOpaque hlen
    rw [nonEmpty_of_hasLength hlen]
    by_cases hk : hasOpaque = true ∧ kind = some .thinking
    · obtain ⟨rfl, rfl⟩ := hk
      have hsigned := h.delta (d := .signatureDelta delta.reasoningOpaque) (.inr rfl)
      have hstopped : At V none tools { s with
          contentBlockIndex := s.contentBlockIndex + 1, thinkingBlockOpen := false } _ :=
        hsigned.stop rfl h.content rfl rfl
      simpa [hc] using hstopped
    · rw [if_neg (by simpa using hk), if_neg]
      · exact h
      · rintro ⟨hkind, ho⟩
        exact hk ⟨by simpa [hc] using ho, hkind⟩
  · next hc => simpa [hc] using h

theorem handleContent_hoare (delta : Delta) :
    Hoare (observe V) (At V kind tools) (handleContent delta) fun _ =>
      At V (delta.contentKind kind) tools := by
  refine (sendContent_hoare delta).bind fun _ => ?_
  refine (signThinkingBlock_hoare delta).consequence (fun _ _ h => h) fun _ s c h => ?_
  by_cases hc : nonEmpty delta.content <;> simpa [Delta.contentKind, hc] using h

theorem closeContentBlockIfOpen_hoare (hk : kind ≠ some .thinking) :
    Hoare (observe V) (At V kind tools) closeContentBlockIfOpen fun _ => At V none tools := by
  intro s c h
  rw [closeContentBlockIfOpen, wp_bind, wp_current, wp_when, h.content]
  rcases kind with _ | (_ | _ | _)
  · exact h
  · exact stopContentBlock_hoare rfl s c h
  · exact stopContentBlock_hoare rfl s c h
  · exact absurd rfl hk

/-- A call with an id and a name closes the open block and starts its own, known by its key from
then on. Only a key that no entry can have leaves the state unaware that a tool call is open. -/
theorem startToolCall_hoare (call : Json) (hk : kind ≠ some .thinking)
    (hkey : startsToolCall call → ∀ key, (call.get "index").text = .ok key →
      V.label .text = V.label .toolUse ∨ key ≠ "__proto__") :
    Hoare (observe V) (At V kind tools) (startToolCall call) fun _ s c =>
      if startsToolCall call then ∃ key info, (call.get "index").text = .ok key ∧
        At V (some (if key = "__proto__" then .text else .toolUse)) (tools.set key info) s c
      else At V kind tools s c := by
  intro s c h
  rw [startToolCall, wp_when]
  by_cases hstarts : startsToolCall call = true
  · rw [if_pos hstarts, wp_bind]
    refine (closeContentBlockIfOpen_hoare hk).apply h fun _ s c h => ?_
    simp only [wp_bind, wp_current, wp_ofExcept, wp_update, wp_emit]
    intro key hkeyText
    rw [if_pos hstarts]
    refine ⟨key, ⟨call.get "id", (call.get "function").optProp "name", s.contentBlockIndex⟩,
      hkeyText, ?_⟩
    have hbelow : ∀ e ∈ tools.entries, e.2.anthropicBlockIndex < s.contentBlockIndex := h.below
    by_cases hp : key = "__proto__"
    · subst hp
      have hlabel := (hkey hstarts _ hkeyText).resolve_right (not_not.2 rfl)
      rw [if_pos rfl, ToolCalls.set_proto]
      exact h.start (.toolUse _ _) hlabel.symm rfl rfl h.thinking
        (by rw [h.toolCalls, ToolCalls.set_proto])
        (fun e he => (hbelow e he).le) (fun _ e he => (hbelow e he).ne) (by rintro ⟨⟩)
        (fun hne => absurd hlabel hne)
    · rw [if_neg hp, ToolCalls.set_of_ne _ _ hp]
      refine h.start (.toolUse _ _) rfl rfl rfl h.thinking
        (by rw [h.toolCalls, ToolCalls.set_of_ne _ _ hp]) ?_ (by rintro ⟨⟩) (fun _ => rfl) h.proto
      intro e he
      rcases Entries.mem_set he with rfl | he
      · exact le_rfl
      · exact (hbelow e he).le
  · rw [if_neg hstarts, if_neg hstarts]
    exact h

theorem closeLastBlock_hoare (delta : Delta) :
    Hoare (observe V) (At V kind tools) (closeLastBlock p delta) fun _ =>
      At V (if isContent kind then none else kind) tools := by
  intro s c h
  rw [closeLastBlock, wp_bind, wp_current, wp_when, h.content]
  by_cases hk : isContent kind = true
  · rw [if_pos hk, if_pos hk, wp_bind]
    refine (stopContentBlock_hoare hk).apply h fun _ s c h => ?_
    rw [wp_when]
    split
    · exact handleReasoningOpaque_hoare delta (.inl rfl) s c h
    · exact h
  · rw [if_neg hk, if_neg hk]
    exact h

theorem handleFinish_hoare (choice : Choice) (chunk : Json) (delta : Delta)
    (hk : V.ends → choice.finish.isSome → kind ≠ some .thinking) :
    Hoare (observe V) (At V kind tools) (handleFinish p choice chunk delta) fun _ s c =>
      ∃ kind', At V kind' tools s c := by
  intro s c h
  rw [handleFinish]
  cases hf : choice.finish with
  | none => exact ⟨kind, h⟩
  | some finishReason =>
    rw [hf] at hk
    have hend : V.ends = true → (if isContent kind then none else kind) = none := by
      intro hends
      have := hk hends rfl
      rcases kind with _ | (_ | _ | _) <;> simp at this ⊢
    rw [wp_bind]
    refine (closeLastBlock_hoare delta).apply h fun _ s c h => ?_
    simp only [wp_bind, wp_ofExcept, wp_emit]
    intro usage _
    exact ⟨_, (h.messageEnd (V.messageDelta _ _) hend).messageEnd V.messageStop hend⟩

/-- The entries of `tool_calls` are handled with the tool call of an earlier chunk open, or with
no block open. -/
theorem handleToolCalls_hoare (delta : Delta)
    (hsignature : kind = some .toolUse → delta.hasToolCalls → nonEmpty delta.reasoningOpaque = false)
    (hcalls : ∀ calls, delta.toolCalls.asArray = some calls →
      Hoare (observe V) (At V (if kind = some .toolUse then kind else none) tools)
        (forEach calls handleToolCall)
        fun _ s c => ∃ kind' tools', kind' ≠ some .thinking ∧ At V kind' tools' s c) :
    Hoare (observe V) (At V kind tools) (handleToolCalls p delta) fun _ s c =>
      ∃ kind' tools', At V kind' tools' s c ∧
        (kind' = some .thinking → kind = some .thinking ∧ delta.hasToolCalls = false) := by
  intro s c h
  rw [handleToolCalls]
  cases hd : delta.toolCalls.asArray with
  | none => exact ⟨kind, tools, h, fun hk => ⟨hk, by simp [Delta.hasToolCalls, hd]⟩⟩
  | some calls =>
    dsimp only
    rw [wp_when]
    by_cases hne : calls = []
    · rw [if_neg (not_not.2 hne)]
      exact ⟨kind, tools, h, fun hk => ⟨hk, by simp [Delta.hasToolCalls, hd, hne]⟩⟩
    · rw [if_pos hne, wp_bind]
      have hhas : delta.hasToolCalls = true := by simp [Delta.hasToolCalls, hd, hne]
      refine closeThinkingBlockIfOpen_hoare.apply h fun _ s c h => ?_
      rw [wp_bind]
      refine (handleReasoningOpaqueInToolCalls_hoare delta ?_ ?_).apply h fun _ s c h => ?_
      · rcases kind with _ | (_ | _ | _) <;> simp
      · intro hk
        exact hsignature (by rcases kind with _ | (_ | _ | _) <;> simp at hk ⊢) hhas
      · have hkind : (if (if kind = some .thinking then none else kind) = some .toolUse then
            (if kind = some .thinking then none else kind) else none) =
            if kind = some .toolUse then kind else none := by
          rcases kind with _ | (_ | _ | _) <;> rfl
        rw [hkind] at h
        refine (hcalls calls hd).apply h fun _ s c hs => ?_
        obtain ⟨kind', tools', hk', h'⟩ := hs
        exact ⟨kind', tools', h', fun hk => absurd hk hk'⟩

/-- One chunk, given what its `tool_calls` do. They start with the open block that the tool calls
of earlier chunks left, unless a text of this chunk came between. -/
theorem translateChunk_hoare {chunk : Json} {choice : Choice} {delta : Delta}
    (hread : readTranslatableChoice chunk = some (choice, delta))
    (hsignature : kind = some .toolUse → delta.hasText = false → delta.hasToolCalls →
      nonEmpty delta.reasoningOpaque = false)
    (hcalls : ∀ calls, delta.toolCalls.asArray = some calls →
      Hoare (observe V) (At V (delta.beforeToolCalls kind) tools) (forEach calls handleToolCall)
        fun _ s c => ∃ kind' tools', kind' ≠ some .thinking ∧ At V kind' tools' s c)
    (hfinish : V.ends → choice.finish.isSome → delta.leavesThinkingOpen kind = false) :
    Hoare (observe V) (At V kind tools) (translateChunkWith p chunk) fun _ s c =>
      ∃ kind' tools', At V kind' tools' s c := by
  rw [translateChunkWith, hread]
  refine (handleMessageStart_hoare chunk).bind fun _ => ?_
  refine (handleThinkingText_hoare delta).bind fun delta' s c h => ?_
  obtain ⟨rfl, h⟩ := h
  have hcalls' : (delta.afterThinkingText kind).toolCalls = delta.toolCalls := by
    rw [Delta.afterThinkingText]
    split <;> rfl
  have hsignature' : (delta.afterThinkingText kind).reasoningOpaque = delta.reasoningOpaque := by
    rw [Delta.afterThinkingText]
    split <;> rfl
  rw [wp_bind]
  refine (handleContent_hoare _).apply h fun _ s c h => ?_
  rw [wp_bind]
  refine (handleToolCalls_hoare _ ?_ ?_).apply h fun _ s c h => ?_
  · intro hk hhas
    obtain ⟨hkind, htext⟩ := (Delta.contentKind_eq_toolUse delta kind).1 hk
    rw [hsignature']
    exact hsignature hkind htext (by rwa [Delta.hasToolCalls, hcalls'] at hhas)
  · have hbefore : (if (delta.afterThinkingText kind).contentKind (delta.thinkingKind kind) =
          some .toolUse then
        (delta.afterThinkingText kind).contentKind (delta.thinkingKind kind) else none) =
        delta.beforeToolCalls kind := by
      rw [Delta.beforeToolCalls]
      by_cases hk : kind = some .toolUse ∧ delta.hasText = false
      · rw [(Delta.contentKind_eq_toolUse delta kind).2 hk, if_pos rfl, if_pos (by simpa using hk),
          hk.1]
      · rw [if_neg (mt (Delta.contentKind_eq_toolUse delta kind).1 hk), if_neg (by simpa using hk)]
    rw [hcalls', hbefore]
    exact hcalls
  · obtain ⟨kind', tools', h, hk⟩ := h
    refine (handleFinish_hoare choice chunk _ ?_).apply h fun _ s c h => ?_
    · rintro hends hfin rfl
      obtain ⟨hk, hhas⟩ := hk rfl
      rw [Delta.hasToolCalls, hcalls', ← Delta.hasToolCalls] at hhas
      obtain ⟨hopen, hcontent, hsigns⟩ := (Delta.contentKind_eq_thinking delta kind).1 hk
      have hclosed := hfinish hends hfin
      simp [Delta.leavesThinkingOpen, hhas, hcontent, hsigns, hopen] at hclosed
    · obtain ⟨kind', h⟩ := h
      exact ⟨kind', tools', h⟩

end ChunkBlocks

end Maximal
