import Maximal.Messages.ChunkClosure
import Mathlib.Tactic.Convert

namespace Maximal

open Js Emitter Blocks AnthropicStreamEventData

/-- The content blocks are numbered from zero without repetition, one is open at a time, and each
delta and stop names the open block, with a delta that fits its kind. -/
def BlockGrammar (events : List AnthropicStreamEventData) : Prop :=
  Disciplined BlockKind.Fits [] (events.map block) ∧
    started events = List.range (started events).length

instance (events : List AnthropicStreamEventData) : Decidable (BlockGrammar events) :=
  inferInstanceAs (Decidable (_ ∧ _))

/-- Arguments come only for the call announced last, whose block is still open. Keys are those
the calls so far were announced under; arguments under any other key are dropped, unless every
object has a member of that name. -/
def callsInOrder (keys : List String) (openKey : Option String) : List Json → Bool
  | [] => true
  | call :: calls =>
    let key := (call.get "index").text.toOption
    if call.isRecord && startsToolCall call then
      key ≠ some "__proto__"
        && callsInOrder (key.toList ++ keys.filter fun k => key ≠ some k) key calls
    else if call.isRecord && continuesToolCall call then
      key.all (fun k => if k ∈ keys then openKey = some k
        else k ≠ "__proto__" ∧ k ∉ objectPrototypeMembers)
        && callsInOrder keys openKey calls
    else callsInOrder keys openKey calls

namespace ToolCalls

def keys (tools : ToolCalls) : List String := tools.entries.map Prod.fst

/-- The key of the tool call whose block is open. -/
def openKey (tools : ToolCalls) (kind : Option BlockKind) : Option String :=
  if kind = some .toolUse then tools.keys.head? else none

theorem blockIndexOf_head {tools : ToolCalls} {key : String} {info : ToolCallInfo}
    (h : tools.entries.head? = some (key, info)) :
    tools.blockIndexOf key = some (.at info.anthropicBlockIndex) := by
  obtain ⟨rest, hrest⟩ := List.head?_eq_some_iff.1 h
  rw [blockIndexOf, hrest, Entries.get_cons, if_pos rfl]

theorem blockIndexOf_unknown {tools : ToolCalls} {key : String} (hp : tools.proto = none)
    (hk : key ∉ tools.keys) (hproto : key ≠ "__proto__") (hm : key ∉ objectPrototypeMembers) :
    tools.blockIndexOf key = none := by
  simp [blockIndexOf, Entries.get_eq_none hk, hp, hproto, hm]

end ToolCalls

namespace AnthropicStreamState

/-- The chunk neither sends a signature into an open tool call nor arguments to a tool call that
is not the open one. -/
def addressesOpenBlock (state : AnthropicStreamState) (chunk : Json) : Bool :=
  match readTranslatableChoice chunk with
  | none => true
  | some (_, delta) =>
    !state.opaqueMeetsOpenTool delta
      && delta.toolCalls.asArray.all fun calls =>
        callsInOrder state.toolCalls.keys
          (state.toolCalls.openKey (delta.beforeToolCalls state.openKind)) calls

end AnthropicStreamState

namespace ChunkGrammar

open ChunkBlocks

def blockView : BlockView BlockKind where
  label k := k
  fits := BlockKind.Fits
  view := block
  start _ _ := rfl
  stop _ := rfl
  delta _ _ k h := ⟨k, rfl, h⟩
  track_delta _ i _ := by cases i <;> rfl
  opens_delta i _ := by cases i <;> rfl
  messageStart _ _ _ := rfl
  ends := false
  messageDelta _ _ := rfl
  messageStop := rfl

def Inv (s : AnthropicStreamState) (c : Scan (Option ℕ) BlockKind) : Prop :=
  ∃ kind tools, At blockView kind tools s c

/-- The entries of `tool_calls` still to come are in order. -/
def InCalls (calls : List Json) (s : AnthropicStreamState) (c : Scan (Option ℕ) BlockKind) :
    Prop :=
  ∃ kind tools, kind ≠ some .thinking ∧ At blockView kind tools s c ∧
    callsInOrder tools.keys (tools.openKey kind) calls

variable {kind : Option BlockKind} {tools : ToolCalls}

/-- Arguments under the open key go to the open block. -/
theorem continueToolCall_open (call : Json) {key : String}
    (hkey : ∀ k, (call.get "index").text = .ok k → k = key)
    (hopen : tools.openKey kind = some key) :
    Hoare (observe blockView) (At blockView kind tools) (continueToolCall call) fun _ =>
      At blockView kind tools := by
  intro s c h
  obtain rfl : kind = some .toolUse := by
    by_contra hk
    rw [ToolCalls.openKey, if_neg hk] at hopen
    cases hopen
  rw [ToolCalls.openKey, if_pos rfl, ToolCalls.keys, List.head?_map] at hopen
  obtain ⟨⟨k, info⟩, hhead, rfl⟩ := Option.map_eq_some_iff.1 hopen
  have hidx : info.anthropicBlockIndex = s.contentBlockIndex := by
    have := h.announced rfl
    rw [hhead] at this
    exact Option.some_inj.1 this
  simp only [continueToolCall, wp_when, wp_bind, wp_ofExcept, wp_current]
  split
  · intro k' hk'
    obtain rfl := hkey k' hk'
    rw [h.toolCalls, ToolCalls.blockIndexOf_head hhead, hidx]
    exact h.delta rfl
  · exact h

/-- Arguments under a key that is neither known nor inherited are dropped. -/
theorem continueToolCall_unknown (call : Json)
    (hkey : ∀ k, (call.get "index").text = .ok k →
      k ∉ tools.keys ∧ k ≠ "__proto__" ∧ k ∉ objectPrototypeMembers) :
    Hoare (observe blockView) (At blockView kind tools) (continueToolCall call) fun _ =>
      At blockView kind tools := by
  intro s c h
  simp only [continueToolCall, wp_when, wp_bind, wp_ofExcept, wp_current]
  split
  · intro k hk
    obtain ⟨hknown, hproto, hmember⟩ := hkey k hk
    rw [h.toolCalls, ToolCalls.blockIndexOf_unknown (h.proto (by rintro ⟨⟩)) hknown hproto hmember]
    exact h
  · exact h

theorem handleToolCall_hoare (call : Json) (calls : List Json) :
    Hoare (observe blockView) (InCalls (call :: calls)) (handleToolCall call) fun _ =>
      InCalls calls := by
  rintro s c ⟨kind, tools, hk, h, horder⟩
  rw [callsInOrder] at horder
  rw [handleToolCall, wp_when]
  by_cases hrec : call.isRecord = true
  · rw [if_pos hrec, wp_bind]
    refine (startToolCall_hoare call hk ?_).apply h fun _ s c hs => ?_
    · intro hstarts key hkey
      rw [hrec, hstarts, hkey] at horder
      exact .inr fun hp => by simp [Except.toOption, hp] at horder
    by_cases hstarts : startsToolCall call = true
    · rw [if_pos hstarts] at hs
      obtain ⟨key, info, hkey, hs⟩ := hs
      rw [hrec, hstarts, hkey] at horder
      simp only [Bool.and_self, if_true, Except.toOption, Option.toList_some, ne_eq,
        Option.some.injEq, decide_not, Bool.and_eq_true, Bool.not_eq_true',
        decide_eq_false_iff_not, List.singleton_append] at horder
      obtain ⟨hproto, horder⟩ := horder
      rw [if_neg hproto, ToolCalls.set_of_ne _ _ hproto] at hs
      refine (continueToolCall_open call ?_ rfl).apply hs fun _ s c hs => ?_
      · intro k hk
        exact Except.ok.inj (hk.symm.trans hkey)
      · refine ⟨some .toolUse, _, by simp, hs, ?_⟩
        rw [ToolCalls.openKey, if_pos rfl, ToolCalls.keys, Entries.set, List.map_cons,
          List.head?_cons]
        convert horder using 3
        rw [ToolCalls.keys, List.filter_map, Entries.delete]
        congr 2
        funext e
        simp [eq_comm]
    · rw [if_neg hstarts] at hs
      rw [Bool.not_eq_true] at hstarts
      rw [hrec, hstarts] at horder
      by_cases hcont : continuesToolCall call = true
      · rw [hcont] at horder
        simp only [Bool.and_false, Bool.false_eq_true, if_false, Bool.and_self, if_true,
          Bool.and_eq_true] at horder
        obtain ⟨haddr, horder⟩ := horder
        have hsame : wp (observe blockView) (continueToolCall call)
            (fun _ => At blockView kind tools) s c := by
          cases hkey : (call.get "index").text with
          | error e => exact continueToolCall_unknown call (by simp [hkey]) s c hs
          | ok key =>
            simp only [hkey, Except.toOption, Option.all_some] at haddr
            split at haddr
            · exact continueToolCall_open call (by simp [hkey, eq_comm])
                (of_decide_eq_true haddr) s c hs
            · next hunknown =>
              refine continueToolCall_unknown call ?_ s c hs
              rw [hkey]
              rintro _ ⟨⟩
              exact ⟨hunknown, of_decide_eq_true haddr⟩
        exact wp_mono hsame fun _ s c hs => ⟨kind, tools, hk, hs, horder⟩
      · rw [continueToolCall, wp_when, if_neg hcont]
        exact ⟨kind, tools, hk, hs, by simpa [hcont] using horder⟩
  · rw [if_neg hrec]
    exact ⟨kind, tools, hk, h, by simpa [hrec] using horder⟩

theorem translateChunk_hoare (chunk : Json) (s : AnthropicStreamState)
    (c : Scan (Option ℕ) BlockKind) (hc : s.addressesOpenBlock chunk) (h : Inv s c) :
    wp (observe blockView) (translateChunkToAnthropicEvents chunk) (fun _ => Inv) s c := by
  obtain ⟨kind, tools, h⟩ := h
  rw [AnthropicStreamState.addressesOpenBlock] at hc
  cases hread : readTranslatableChoice chunk with
  | none =>
    rw [translateChunkToAnthropicEvents, translateChunkWith, hread]
    exact ⟨kind, tools, h⟩
  | some r =>
    obtain ⟨choice, delta⟩ := r
    rw [hread] at hc
    simp only [AnthropicStreamState.opaqueMeetsOpenTool, h.openKind, h.toolCalls,
      Bool.and_eq_true, Bool.not_eq_true'] at hc
    obtain ⟨hsignature, horder⟩ := hc
    refine ChunkBlocks.translateChunk_hoare hread ?_ ?_
      (fun hends => absurd hends Bool.false_ne_true) s c h
    · intro hk htext hcalls
      simpa [hk, htext, hcalls] using hsignature
    · intro calls hcalls s c hbefore
      rw [hcalls, Option.all_some] at horder
      have hk := delta.beforeToolCalls_ne_thinking kind
      refine (Hoare.forEach_remaining handleToolCall_hoare calls).apply ⟨_, _, hk, hbefore, horder⟩
        fun _ s c hs => ?_
      obtain ⟨kind', tools', hk', h', -⟩ := hs
      exact ⟨kind', tools', hk', h'⟩

end ChunkGrammar

/-- A run whose chunks address the open block obeys the block grammar. -/
theorem chunk_run_blockGrammar (chunks : List Json)
    (h : Meets (fun s chunk => s.addressesOpenBlock chunk) translateChunkToAnthropicEvents .fresh
      chunks) :
    BlockGrammar (run translateChunkToAnthropicEvents .fresh chunks).outputs := by
  obtain ⟨kind, tools, hat⟩ := run_invariant
    (fun chunk s c hc hi => ChunkGrammar.translateChunk_hoare chunk s c hc hi) h
    ⟨none, .empty, ChunkBlocks.At.init ChunkGrammar.blockView⟩
  have hdis := hat.disciplined
  have hopened := hat.opened
  rw [ChunkBlocks.foldl_observe] at hdis hopened
  refine ⟨hdis.2, ?_⟩
  have hstarted : started (run translateChunkToAnthropicEvents .fresh chunks).outputs =
      List.range _ :=
    List.map_injective_iff.2 (Option.some_injective ℕ) ((opens_block _).symm.trans hopened)
  rw [hstarted, List.length_range]

/-- A fragment of `tool_calls` for the call of the given index. -/
def toolCall (index : ℕ) (function : List (String × Json)) (id : List (String × Json)) : Json :=
  .object ([("index", .number (.ofNat index)), ("function", .object function)] ++ id)

theorem chunk_run_blockGrammar_tool :
    BlockGrammar (run translateChunkToAnthropicEvents .fresh
      [chunkOf [("tool_calls", .array [toolCall 0 [("name", .string "Read")]
        [("id", .string "call_1")]])] .null,
        chunkOf [("tool_calls", .array [toolCall 0 [("arguments", .string "{}")] []])] .null]).outputs :=
  chunk_run_blockGrammar _ (by decide)

/-- Two announced tool calls, then arguments for the first one. -/
def argumentsForEarlierCall : List Json :=
  [chunkOf [("tool_calls", .array [
      toolCall 0 [("name", .string "Read")] [("id", .string "call_1")],
      toolCall 1 [("name", .string "Grep")] [("id", .string "call_2")],
      toolCall 0 [("arguments", .string "{}")] []])] .null]

theorem not_all_chunk_runs_blockGrammar :
    ¬ ∀ chunks, BlockGrammar (run translateChunkToAnthropicEvents .fresh chunks).outputs :=
  fun h => absurd (h argumentsForEarlierCall) (by decide)

end Maximal
