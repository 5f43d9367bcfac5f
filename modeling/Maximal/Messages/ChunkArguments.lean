import Maximal.Messages.ChunkText
import Mathlib.Data.List.Nodup
import Mathlib.Tactic.Set

/-!
# The tool calls of the chat-completions translator

A tool call is known by the property key of its index. The entries of `tool_calls` that announce
it and the `tool_use` blocks started for it correspond in order, and its arguments arrive in
those blocks.

## Main definitions

- `toolFragments`, `fragmentKey`, `toolArguments` — the tool calls as the chunks bring them
- `toolBlocks`, `inputJson` — the blocks started for a tool call and what they receive
- `ChunkArguments.Routed` — the known tool calls lead to their blocks

## Main results

- `ChunkArguments.handleToolCall_hoare` — an entry of `tool_calls` adds its arguments
- `ChunkArguments.run_routed` — a run delivers the arguments of the tool calls announced first
-/

namespace Maximal

open Js Emitter AnthropicStreamEventData

/-- The entries of `tool_calls` of a chunk that are objects. -/
def toolFragments (chunk : Json) : List Json :=
  match readTranslatableChoice chunk with
  | none => []
  | some (_, delta) => (delta.toolCalls.asArray.getD []).filter Json.isRecord

/-- The property key of a fragment's index, unless converting the index throws. -/
def fragmentKey (call : Json) : Option String := (call.get "index").text.toOption

def fragmentArguments (call : Json) : String :=
  textOf ((call.get "function").optProp "arguments")

/-- The first fragment of the tool call brings an id and a name. -/
def announcedFirst (calls : List Json) (key : String) : Bool :=
  (calls.find? fun call => fragmentKey call = some key).any startsToolCall

def toolArguments (calls : List Json) (key : String) : String :=
  gather fragmentArguments (calls.filter fun call => fragmentKey call = some key)

def announcedKeys (calls : List Json) : List (Option String) :=
  (calls.filter startsToolCall).map fragmentKey

def toolStart : AnthropicStreamEventData → Option ℕ
  | .contentBlockStart i (.toolUse _ _) => some i
  | _ => none

def toolDelta : AnthropicStreamEventData → Option (ℕ × String)
  | .contentBlockDelta (.at i) (.inputJsonDelta json) => some (i, textOf json)
  | _ => none

def toolStarts (events : List AnthropicStreamEventData) : List ℕ := events.filterMap toolStart

/-- The `tool_use` blocks started when the tool call was announced. -/
def toolBlocks (calls : List Json) (events : List AnthropicStreamEventData) (key : String) :
    List ℕ :=
  ((announcedKeys calls).zip (toolStarts events)).filterMap fun p =>
    if p.1 = some key then some p.2 else none

/-- What an event adds to the input of the given blocks. -/
def inputJson (blocks : List ℕ) (e : AnthropicStreamEventData) : String :=
  match toolDelta e with
  | some (i, json) => if i ∈ blocks then json else ""
  | none => ""

section

variable {calls : List Json} {call : Json} {events : List AnthropicStreamEventData} {key : String}

theorem announcedKeys_append (ds : List Json) :
    announcedKeys (calls ++ ds) = announcedKeys calls ++ announcedKeys ds := by
  simp [announcedKeys]

theorem toolStarts_append (es : List AnthropicStreamEventData) :
    toolStarts (events ++ es) = toolStarts events ++ toolStarts es :=
  List.filterMap_append

theorem toolArguments_append (ds : List Json) :
    toolArguments (calls ++ ds) key = toolArguments calls key ++ toolArguments ds key := by
  simp [toolArguments]

/-- The blocks of a call that is announced together with the start of a block. -/
theorem toolBlocks_announce (hlen : (announcedKeys calls).length = (toolStarts events).length)
    (hstarts : startsToolCall call) {e : AnthropicStreamEventData} {i : ℕ}
    (he : toolStart e = some i) :
    toolBlocks (calls ++ [call]) (events ++ [e]) key =
      toolBlocks calls events key ++ if fragmentKey call = some key then [i] else [] := by
  have hk : announcedKeys [call] = [fragmentKey call] := by simp [announcedKeys, hstarts]
  have hi : toolStarts [e] = [i] := by simp [toolStarts, he]
  rw [toolBlocks, announcedKeys_append, toolStarts_append, List.zip_append hlen, hk, hi,
    List.filterMap_append, toolBlocks]
  congr 1
  split <;> simp [*]

theorem gather_inputJson_congr {b b' : List ℕ}
    (h : ∀ e ∈ events, ∀ i json, toolDelta e = some (i, json) → (i ∈ b ↔ i ∈ b')) :
    gather (inputJson b) events = gather (inputJson b') events := by
  induction events with
  | nil => rfl
  | cons e es ih =>
    have hes := ih fun e he => h e (List.mem_cons_of_mem _ he)
    have he : inputJson b e = inputJson b' e := by
      rw [inputJson, inputJson]
      split
      · next i json hd => simp only [h e List.mem_cons_self i json hd]
      · rfl
    rw [gather_cons, gather_cons, he, hes]

theorem mem_toolBlocks {i : ℕ} :
    i ∈ toolBlocks calls events key ↔ (some key, i) ∈ (announcedKeys calls).zip (toolStarts events) := by
  rw [toolBlocks, List.mem_filterMap]
  constructor
  · rintro ⟨⟨k, j⟩, hmem, hj⟩
    obtain ⟨rfl, rfl⟩ : k = some key ∧ j = i := by simpa using hj
    exact hmem
  · intro h
    exact ⟨_, h, if_pos rfl⟩

theorem gather_inputJson_nil : gather (inputJson []) events = "" := by
  induction events with
  | nil => rfl
  | cons e es ih =>
    rw [gather_cons, ih, inputJson]
    split <;> simp

theorem toolBlocks_eq_nil (h : (calls.filter fun call => fragmentKey call = some key) = []) :
    toolBlocks calls events key = [] := by
  refine List.eq_nil_iff_forall_not_mem.2 fun i hi => ?_
  obtain ⟨call, hcall, hkey⟩ := List.mem_map.1 (List.of_mem_zip (mem_toolBlocks.1 hi)).1
  exact List.filter_eq_nil_iff.1 h call (List.mem_filter.1 hcall).1 (decide_eq_true hkey)

theorem toolBlocks_subset {i : ℕ} (h : i ∈ toolBlocks calls events key) : i ∈ toolStarts events :=
  (List.of_mem_zip (mem_toolBlocks.1 h)).2

/-- Different tool calls have different blocks. -/
theorem toolBlocks_disjoint (hlen : (announcedKeys calls).length = (toolStarts events).length)
    (hnodup : (toolStarts events).Nodup) {key' : String} {i : ℕ}
    (h : i ∈ toolBlocks calls events key) (h' : i ∈ toolBlocks calls events key') :
    key = key' := by
  have hmap : (((announcedKeys calls).zip (toolStarts events)).map Prod.snd).Nodup := by
    rwa [List.map_snd_zip hlen.ge]
  have heq := List.inj_on_of_nodup_map hmap (mem_toolBlocks.1 h) (mem_toolBlocks.1 h') rfl
  exact Option.some_inj.1 (Prod.ext_iff.1 heq).1

theorem announcedFirst_mem (h : announcedFirst calls key) : some key ∈ announcedKeys calls := by
  rw [announcedFirst, Option.any_eq_true] at h
  obtain ⟨call, hfind, hstarts⟩ := h
  have hkey := List.find?_some hfind
  exact List.mem_map.2 ⟨call, List.mem_filter.2 ⟨List.mem_of_find?_eq_some hfind, hstarts⟩,
    of_decide_eq_true hkey⟩

theorem toolArguments_singleton :
    toolArguments [call] key = if fragmentKey call = some key then fragmentArguments call else "" := by
  rw [toolArguments]
  split <;> simp [*]

theorem announcedFirst_append (h : announcedFirst (calls ++ [call]) key) :
    announcedFirst calls key ∨
      (calls.filter fun call => fragmentKey call = some key) = [] ∧
        fragmentKey call = some key ∧ startsToolCall call := by
  rw [announcedFirst, List.find?_append] at h
  cases hf : calls.find? fun call => fragmentKey call = some key with
  | some c =>
    rw [hf] at h
    exact .inl (by rw [announcedFirst, hf]; exact h)
  | none =>
    rw [hf, Option.none_or, List.find?_singleton] at h
    refine .inr ⟨List.filter_eq_nil_iff.2 (List.find?_eq_none.1 hf), ?_⟩
    split at h
    · next hk => exact ⟨of_decide_eq_true hk, h⟩
    · cases h

end

namespace ToolCalls

theorem blockIndexOf_set_self (t : ToolCalls) (key : String) (info : ToolCallInfo)
    (hproto : t.entries.get "__proto__" = none) :
    (t.set key info).blockIndexOf key = some (.at info.anthropicBlockIndex) := by
  by_cases hk : key = "__proto__"
  · subst hk
    simp [set_proto, blockIndexOf, hproto]
  · simp [set_of_ne t info hk, blockIndexOf]

theorem get_set_of_ne (t : ToolCalls) {key key' : String} (info : ToolCallInfo)
    (hne : key' ≠ key) : (t.set key info).entries.get key' = t.entries.get key' := by
  by_cases hk : key = "__proto__"
  · subst hk
    rfl
  · rw [set_of_ne t info hk]
    exact t.entries.get_set_of_ne info hne

/-- A key leads to a block only by an entry of its own, or by a replaced prototype. -/
theorem blockIndexOf_eq_at {t : ToolCalls} {key : String} {i : ℕ} :
    t.blockIndexOf key = some (.at i) ↔
      (∃ info, t.entries.get key = some info ∧ info.anthropicBlockIndex = i) ∨
        t.entries.get key = none ∧ key = "__proto__" ∧
          ∃ info, t.proto = some info ∧ info.anthropicBlockIndex = i := by
  rw [blockIndexOf]
  cases t.entries.get key with
  | some info => simp
  | none =>
    cases t.proto with
    | none => simp
    | some info =>
      by_cases hp : key = "__proto__"
      · simp [hp]
      · simp only [hp, if_false, reduceCtorEq, false_and, exists_false, and_false, or_self,
          iff_false]
        repeat' split
        all_goals simp

theorem blockIndexOf_set_of_ne (t : ToolCalls) {key key' : String} (info : ToolCallInfo)
    (hne : key' ≠ key) (i : ℕ) :
    (t.set key info).blockIndexOf key' = some (.at i) ↔ t.blockIndexOf key' = some (.at i) := by
  rw [blockIndexOf_eq_at, blockIndexOf_eq_at, get_set_of_ne t info hne]
  by_cases hk : key = "__proto__"
  · subst hk
    simp [hne]
  · rw [set_of_ne t info hk]

end ToolCalls

namespace ChunkArguments

/-- The observer that keeps what was emitted. -/
def observe (events : List AnthropicStreamEventData) (e : AnthropicStreamEventData) :
    List AnthropicStreamEventData := events ++ [e]

theorem foldl_observe (events os : List AnthropicStreamEventData) :
    os.foldl observe events = events ++ os := by
  induction os generalizing events with
  | nil => simp
  | cons e es ih => simp [observe, ih]

/-- Announcements and started blocks correspond, each known tool call leads to a block of its
own, and the blocks of a call that was announced first received the arguments of `done`. -/
structure Routed (calls done : List Json) (s : AnthropicStreamState)
    (events : List AnthropicStreamEventData) : Prop where
  paired : (announcedKeys calls).length = (toolStarts events).length
  below : ∀ i ∈ toolStarts events, i < s.nextIndex
  nodup : (toolStarts events).Nodup
  deltas : ∀ e ∈ events, ∀ i json, toolDelta e = some (i, json) → i ∈ toolStarts events
  proto : s.toolCalls.entries.get "__proto__" = none
  route : ∀ key i, s.toolCalls.blockIndexOf key = some (.at i) → i ∈ toolBlocks calls events key
  known : ∀ key, some key ∈ announcedKeys calls →
    ∃ i, s.toolCalls.blockIndexOf key = some (.at i)
  conserved : ∀ key, announcedFirst calls key →
    gather (inputJson (toolBlocks calls events key)) events = toolArguments done key

theorem Routed.init : Routed [] [] .fresh [] := by
  constructor <;> simp [announcedKeys, toolStarts, announcedFirst, AnthropicStreamState.fresh,
    ToolCalls.empty, ToolCalls.blockIndexOf_eq_at]

/-- No tool call is started or continued. -/
def plain : Frame AnthropicStreamState AnthropicStreamEventData where
  moves s s' := s'.toolCalls = s.toolCalls ∧ s.nextIndex ≤ s'.nextIndex
  refl _ := ⟨rfl, le_rfl⟩
  trans h h' := ⟨h'.1.trans h.1, h.2.trans h'.2⟩
  emits e := toolStart e = none ∧ toolDelta e = none

theorem plain_chunkFrame (p : String) : ChunkFrame p plain where
  moves _ _ h h' := ⟨h, h'⟩
  stop _ := ⟨rfl, rfl⟩
  start _ b hb := ⟨by cases b <;> first | rfl | exact absurd rfl hb, rfl⟩
  signature _ _ := ⟨rfl, rfl⟩
  placeholder _ := ⟨rfl, rfl⟩
  messageStart _ _ _ := ⟨rfl, rfl⟩

theorem Routed.plain {calls done : List Json} {s s' : AnthropicStreamState}
    {events os : List AnthropicStreamEventData} (h : Routed calls done s events)
    (hmoves : plain.moves s s') (hemits : ∀ e ∈ os, plain.emits e) :
    Routed calls done s' (events ++ os) := by
  obtain ⟨htools, hnext⟩ := hmoves
  have hstarts : toolStarts (events ++ os) = toolStarts events := by
    have hnil : toolStarts os = [] := List.filterMap_eq_nil_iff.2 fun e he => (hemits e he).1
    rw [toolStarts_append, hnil, List.append_nil]
  have hblocks : ∀ key, toolBlocks calls (events ++ os) key = toolBlocks calls events key := by
    intro key
    rw [toolBlocks, hstarts, toolBlocks]
  have hjson : ∀ blocks, gather (inputJson blocks) os = "" := by
    intro blocks
    clear hstarts hblocks
    induction os with
    | nil => rfl
    | cons e es ih =>
      rw [gather_cons, ih fun e he => hemits e (List.mem_cons_of_mem _ he), inputJson,
        (hemits e List.mem_cons_self).2]
      rfl
  refine ⟨?_, ?_, ?_, ?_, ?_, ?_, ?_, ?_⟩
  · rw [hstarts]
    exact h.paired
  · rw [hstarts]
    exact fun i hi => (h.below i hi).trans_le hnext
  · rw [hstarts]
    exact h.nodup
  · intro e he i json hd
    rw [hstarts]
    rcases List.mem_append.1 he with he | he
    · exact h.deltas e he i json hd
    · rw [(hemits e he).2] at hd
      cases hd
  · rw [htools]
    exact h.proto
  · intro key i hi
    rw [hblocks]
    exact h.route key i (htools ▸ hi)
  · rw [htools]
    exact h.known
  · intro key hkey
    rw [hblocks, gather_append, hjson, String.append_empty]
    exact h.conserved key hkey

variable {calls done : List Json}

/-- A fragment that announces no call. -/
theorem Routed.unannounced {call : Json} {s : AnthropicStreamState}
    {events : List AnthropicStreamEventData} (h : Routed calls done s events)
    (hstarts : startsToolCall call = false) : Routed (calls ++ [call]) done s events := by
  have hkeys : announcedKeys (calls ++ [call]) = announcedKeys calls := by
    rw [announcedKeys_append]
    simp [announcedKeys, hstarts]
  have hblocks : ∀ key, toolBlocks (calls ++ [call]) events key = toolBlocks calls events key := by
    intro key
    rw [toolBlocks, hkeys, toolBlocks]
  refine ⟨?_, h.below, h.nodup, h.deltas, h.proto, ?_, ?_, ?_⟩
  · rw [hkeys]
    exact h.paired
  · intro key i hi
    rw [hblocks]
    exact h.route key i hi
  · rw [hkeys]
    exact h.known
  · intro key hkey
    rw [hblocks]
    rcases announcedFirst_append hkey with hkey | ⟨-, -, hs⟩
    · exact h.conserved key hkey
    · rw [hstarts] at hs
      cases hs

/-- Arguments of a tool call arrive in one of its blocks, and in those of no other call. -/
theorem Routed.deliver {call : Json} {s : AnthropicStreamState}
    {events : List AnthropicStreamEventData} (h : Routed calls done s events) {key : String}
    (hkey : fragmentKey call = some key) {i : ℕ}
    (hroute : s.toolCalls.blockIndexOf key = some (.at i)) :
    Routed calls (done ++ [call]) s (events ++
      [.contentBlockDelta (.at i)
        (.inputJsonDelta ((call.get "function").optProp "arguments"))]) := by
  have hi := h.route key i hroute
  set e : AnthropicStreamEventData := .contentBlockDelta (.at i)
    (.inputJsonDelta ((call.get "function").optProp "arguments")) with he
  have hstarts : toolStarts (events ++ [e]) = toolStarts events := by
    rw [toolStarts_append]
    exact List.append_nil _
  have hblocks : ∀ k, toolBlocks calls (events ++ [e]) k = toolBlocks calls events k := by
    intro k
    rw [toolBlocks, hstarts, toolBlocks]
  refine ⟨?_, ?_, ?_, ?_, h.proto, ?_, h.known, ?_⟩
  · rw [hstarts]
    exact h.paired
  · rw [hstarts]
    exact h.below
  · rw [hstarts]
    exact h.nodup
  · intro e' he' j json hd
    rw [hstarts]
    rcases List.mem_append.1 he' with he' | he'
    · exact h.deltas e' he' j json hd
    · obtain rfl := List.mem_singleton.1 he'
      obtain ⟨rfl, -⟩ := Prod.mk.injEq .. ▸ Option.some_inj.1 hd
      exact toolBlocks_subset hi
  · intro k j hj
    rw [hblocks]
    exact h.route k j hj
  · intro k hk
    have hsent : gather (inputJson (toolBlocks calls events k)) [e] = toolArguments [call] k := by
      rw [toolArguments_singleton, hkey]
      by_cases hkk : key = k
      · subst hkk
        simp [inputJson, he, toolDelta, hi, fragmentArguments]
      · have hnot : i ∉ toolBlocks calls events k := fun hi' =>
          hkk (toolBlocks_disjoint h.paired h.nodup hi hi')
        simp [inputJson, he, toolDelta, hnot, hkk]
    rw [hblocks, gather_append, hsent, h.conserved k hk, toolArguments_append]

/-- A fragment without arguments, or with arguments for a tool call that was not announced
first. -/
theorem Routed.undelivered {call : Json} {s : AnthropicStreamState}
    {events : List AnthropicStreamEventData} (h : Routed calls done s events)
    (hcall : ∀ key, announcedFirst calls key → fragmentKey call = some key →
      fragmentArguments call = "") : Routed calls (done ++ [call]) s events := by
  refine { h with conserved := fun key hkey => ?_ }
  have hnone : toolArguments [call] key = "" := by
    rw [toolArguments_singleton]
    split
    · next hk => exact hcall key hkey hk
    · rfl
  rw [toolArguments_append, hnone, String.append_empty]
  exact h.conserved key hkey

theorem plain_hoare {α : Type} {x : ChunkTranslator α} (h : Keeps plain x) :
    Hoare observe (Routed calls done) x fun _ => Routed calls done :=
  h.hoare fun _ _ _ _ hr hmoves hemits => by
    rw [foldl_observe]
    exact hr.plain hmoves hemits

theorem closeContentBlockIfOpen_hoare :
    Hoare observe (Routed calls done) closeContentBlockIfOpen fun _ s events =>
      Routed calls done s events ∧ s.contentBlockOpen = false := by
  intro s events h
  simp only [closeContentBlockIfOpen, stopContentBlock, wp_bind, wp_current, wp_when, wp_emit,
    wp_update]
  split
  · next hopen =>
    have hstop : ∀ e ∈ [AnthropicStreamEventData.contentBlockStop s.contentBlockIndex],
        plain.emits e := by
      simp [plain, toolStart, toolDelta]
    exact ⟨h.plain ⟨rfl, by simp [AnthropicStreamState.nextIndex, hopen]⟩ hstop, trivial⟩
  · next hopen => exact ⟨h, Bool.eq_false_iff.2 hopen⟩

/-- An announcement and its block come together. -/
theorem Routed.announce {call : Json} {s s' : AnthropicStreamState}
    {events : List AnthropicStreamEventData} (h : Routed calls calls s events)
    (hopen : s.contentBlockOpen = false) (hstarts : startsToolCall call) {key : String}
    (hkey : fragmentKey call = some key) {info : ToolCallInfo} {id name : Val}
    (hinfo : info.anthropicBlockIndex = s.contentBlockIndex)
    (htools : s'.toolCalls = s.toolCalls.set key info)
    (hidx : s'.contentBlockIndex = s.contentBlockIndex) (hopen' : s'.contentBlockOpen = true) :
    Routed (calls ++ [call]) calls s'
      (events ++ [.contentBlockStart s.contentBlockIndex (.toolUse id name)]) := by
  have hnext : s.nextIndex = s.contentBlockIndex := by
    simp [AnthropicStreamState.nextIndex, hopen]
  have hfresh : s.contentBlockIndex ∉ toolStarts events := fun hi =>
    (hnext ▸ h.below _ hi).false
  set e : AnthropicStreamEventData :=
    .contentBlockStart s.contentBlockIndex (.toolUse id name) with he
  have hstart : toolStart e = some s.contentBlockIndex := rfl
  have hstarts' : toolStarts (events ++ [e]) = toolStarts events ++ [s.contentBlockIndex] := by
    rw [toolStarts_append]
    rfl
  have hkeys : announcedKeys (calls ++ [call]) = announcedKeys calls ++ [some key] := by
    rw [announcedKeys_append]
    simp [announcedKeys, hstarts, hkey]
  have hblocks : ∀ k, toolBlocks (calls ++ [call]) (events ++ [e]) k =
      toolBlocks calls events k ++ if key = k then [s.contentBlockIndex] else [] := by
    intro k
    simp only [toolBlocks_announce h.paired hstarts hstart, hkey, Option.some_inj]
  refine ⟨?_, ?_, ?_, ?_, ?_, ?_, ?_, ?_⟩
  · rw [hkeys, hstarts', List.length_append, List.length_append, h.paired]
    rfl
  · intro i hi
    rw [hstarts', List.mem_append, List.mem_singleton] at hi
    rw [AnthropicStreamState.nextIndex, hidx, hopen', Bool.toNat_true]
    rcases hi with hi | rfl
    · have := h.below i hi
      omega
    · omega
  · rw [hstarts', List.nodup_append_comm, List.singleton_append, List.nodup_cons]
    exact ⟨hfresh, h.nodup⟩
  · intro e' he' i json hd
    rw [hstarts']
    rcases List.mem_append.1 he' with he' | he'
    · exact List.mem_append_left _ (h.deltas e' he' i json hd)
    · obtain rfl := List.mem_singleton.1 he'
      cases hd
  · rw [htools]
    by_cases hp : "__proto__" = key
    · rw [← hp]
      exact h.proto
    · rw [ToolCalls.get_set_of_ne _ _ hp]
      exact h.proto
  · intro k i hi
    rw [htools] at hi
    rw [hblocks, List.mem_append]
    by_cases hk : k = key
    · subst hk
      rw [ToolCalls.blockIndexOf_set_self _ _ _ h.proto] at hi
      cases hi
      exact .inr (by simp [hinfo])
    · exact .inl (h.route k i ((ToolCalls.blockIndexOf_set_of_ne _ _ hk i).1 hi))
  · intro k hmem
    rw [htools]
    by_cases hk : k = key
    · rw [hk]
      exact ⟨_, ToolCalls.blockIndexOf_set_self _ _ _ h.proto⟩
    · rw [hkeys, List.mem_append, List.mem_singleton, Option.some_inj] at hmem
      obtain ⟨i, hi⟩ := h.known k (hmem.resolve_right hk)
      exact ⟨i, (ToolCalls.blockIndexOf_set_of_ne _ _ hk i).2 hi⟩
  · intro k hk
    have hjson : gather (inputJson (toolBlocks (calls ++ [call]) (events ++ [e]) k)) (events ++ [e]) =
        gather (inputJson (toolBlocks calls events k)) events := by
      have he0 : gather (inputJson (toolBlocks (calls ++ [call]) (events ++ [e]) k)) [e] = "" := rfl
      rw [gather_append, he0, String.append_empty]
      refine gather_inputJson_congr fun e' he' i json hd => ?_
      have hi : i ≠ s.contentBlockIndex := fun hi => hfresh (hi ▸ h.deltas e' he' i json hd)
      rw [hblocks, List.mem_append]
      split <;> simp [hi]
    rw [hjson]
    rcases announcedFirst_append hk with hk | ⟨hnone, -, -⟩
    · exact h.conserved k hk
    · rw [toolArguments, hnone, gather_nil, toolBlocks_eq_nil hnone, gather_inputJson_nil]

theorem startToolCall_hoare (call : Json) :
    Hoare observe (Routed calls calls) (startToolCall call) fun _ =>
      Routed (calls ++ [call]) calls := by
  intro s events h
  rw [startToolCall, wp_when]
  split
  · next hstarts =>
    rw [wp_bind]
    refine closeContentBlockIfOpen_hoare.apply h ?_
    rintro _ s events ⟨h, hopen⟩
    simp only [wp_bind, wp_current, wp_ofExcept, wp_update, wp_emit]
    intro key hkeyText
    have hkey : fragmentKey call = some key := by rw [fragmentKey, hkeyText]; rfl
    rw [foldl_observe]
    exact h.announce hopen hstarts hkey rfl rfl rfl rfl
  · next hstarts => exact h.unannounced (by simpa using hstarts)

theorem continueToolCall_hoare (call : Json) :
    Hoare observe (Routed (calls ++ [call]) calls) (continueToolCall call) fun _ =>
      Routed (calls ++ [call]) (calls ++ [call]) := by
  intro s events h
  simp only [continueToolCall, wp_when, wp_bind, wp_ofExcept, wp_current]
  split
  · intro key hkeyText
    have hkey : fragmentKey call = some key := by rw [fragmentKey, hkeyText]; rfl
    have hknown : announcedFirst (calls ++ [call]) key → ∃ i,
        s.toolCalls.blockIndexOf key = some (.at i) := fun hfirst =>
      h.known key (announcedFirst_mem hfirst)
    cases hroute : s.toolCalls.blockIndexOf key with
    | none =>
      refine h.undelivered fun k hfirst hk => ?_
      obtain rfl := Option.some_inj.1 (hkey.symm.trans hk)
      obtain ⟨i, hi⟩ := hknown hfirst
      rw [hroute] at hi
      cases hi
    | some index =>
      dsimp only
      rw [wp_emit, foldl_observe]
      cases index with
      | «at» i => exact h.deliver hkey hroute
      | other v =>
        have hsame : plain.moves s s := ⟨rfl, le_rfl⟩
        refine (h.plain hsame ?_).undelivered fun k hfirst hk => ?_
        · simp [plain, toolStart, toolDelta]
        · obtain rfl := Option.some_inj.1 (hkey.symm.trans hk)
          obtain ⟨i, hi⟩ := hknown hfirst
          rw [hroute] at hi
          cases hi
  · next hcont =>
    exact h.undelivered fun _ _ _ => textOf_of_not_truthy (by simpa [continuesToolCall] using hcont)

theorem handleToolCall_hoare (call : Json) :
    Hoare observe (Routed calls calls) (handleToolCall call) fun _ =>
      Routed (calls ++ [call].filter Json.isRecord) (calls ++ [call].filter Json.isRecord) := by
  intro s events h
  rw [handleToolCall, wp_when]
  split
  · next hrec =>
    rw [List.filter_cons_of_pos hrec, List.filter_nil]
    exact (startToolCall_hoare call).bind (fun _ => continueToolCall_hoare call) s events h
  · next hrec =>
    rw [List.filter_cons_of_neg hrec, List.filter_nil, List.append_nil]
    exact h

theorem forEach_handleToolCall_hoare (fragments : List Json) :
    Hoare observe (Routed calls calls) (forEach fragments handleToolCall) fun _ =>
      Routed (calls ++ fragments.filter Json.isRecord) (calls ++ fragments.filter Json.isRecord) := by
  induction fragments generalizing calls with
  | nil =>
    intro s events h
    simpa [forEach] using h
  | cons call fragments ih =>
    refine (handleToolCall_hoare call).bind fun _ => ?_
    have hsplit : (call :: fragments).filter Json.isRecord =
        [call].filter Json.isRecord ++ fragments.filter Json.isRecord :=
      List.filter_append [call] fragments
    rw [hsplit, ← List.append_assoc]
    exact ih

/-- A thinking text in an open content block changes the delta, but not its tool calls. -/
theorem handleThinkingText_toolCalls (delta : Delta) (s : AnthropicStreamState)
    (events : List AnthropicStreamEventData) :
    wp observe (handleThinkingText delta)
      (fun delta' _ _ => delta'.toolCalls = delta.toolCalls) s events := by
  simp only [handleThinkingText, wp_bind, wp_ofExcept, wp_current, wp_ite, wp_pure, wp_when,
    wp_emit, wp_update]
  intro hasThinking _
  repeat' split
  all_goals trivial

theorem handleToolCalls_hoare (p : String) (delta : Delta) :
    Hoare observe (Routed calls calls) (handleToolCalls p delta) fun _ =>
      Routed (calls ++ (delta.toolCalls.asArray.getD []).filter Json.isRecord)
        (calls ++ (delta.toolCalls.asArray.getD []).filter Json.isRecord) := by
  intro s events h
  rw [handleToolCalls]
  cases delta.toolCalls.asArray with
  | none => simpa using h
  | some fragments =>
    dsimp only [Option.getD_some]
    rw [wp_when]
    by_cases hne : fragments = []
    · simpa [hne] using h
    · rw [if_pos hne]
      have hF := plain_chunkFrame p
      exact ((plain_hoare (closeThinkingBlockIfOpen_keeps hF)).bind fun _ =>
        (plain_hoare (.bind .current fun _ => .bind (.when _ (stopContentBlock_keeps hF)) fun _ =>
          handleReasoningOpaque_keeps hF delta)).bind fun _ =>
        forEach_handleToolCall_hoare fragments) s events h

theorem translateChunk_hoare (p : String) (chunk : Json) :
    Hoare observe (Routed calls calls) (translateChunkWith p chunk) fun _ =>
      Routed (calls ++ toolFragments chunk) (calls ++ toolFragments chunk) := by
  rw [translateChunkWith, toolFragments]
  cases readTranslatableChoice chunk with
  | none =>
    intro s events h
    simpa using h
  | some r =>
    obtain ⟨choice, delta⟩ := r
    have hF := plain_chunkFrame p
    refine (plain_hoare (handleMessageStart_keeps hF chunk)).bind fun _ => ?_
    refine Hoare.bind (S := fun delta' s events =>
      delta'.toolCalls = delta.toolCalls ∧ Routed calls calls s events) (fun s events h =>
        wp_and (handleThinkingText_toolCalls delta s events)
          (plain_hoare (handleThinkingText_keeps hF (fun _ _ => ⟨rfl, rfl⟩) delta) s events h))
      fun delta' => ?_
    rintro s events ⟨hdelta, h⟩
    refine ((plain_hoare (handleContent_keeps hF (fun _ _ => ⟨rfl, rfl⟩) delta')).bind fun _ =>
      (handleToolCalls_hoare p delta').bind fun _ =>
        plain_hoare (handleFinish_keeps hF (fun _ _ => ⟨rfl, rfl⟩) ⟨rfl, rfl⟩ choice chunk
          delta')).apply h fun _ s events h => ?_
    rwa [hdelta] at h

/-- After a run, the known tool calls lead to their blocks. -/
theorem run_routed (p : String) (chunks : List Json) :
    Routed ((consumed (translateChunkWith p) .fresh chunks).flatMap toolFragments)
      ((consumed (translateChunkWith p) .fresh chunks).flatMap toolFragments)
      (run (translateChunkWith p) .fresh chunks).state
      (run (translateChunkWith p) .fresh chunks).outputs := by
  let Delivered (chunks : List Json) : AnthropicStreamState → List AnthropicStreamEventData → Prop :=
    Routed (chunks.flatMap toolFragments) (chunks.flatMap toolFragments)
  have hstep : ∀ hist chunk s events, True → Delivered hist s events →
      wp observe (translateChunkWith p chunk) (fun _ => Delivered (hist ++ [chunk])) s events := by
    intro hist chunk s events _ h
    simpa only [Delivered, List.flatMap_append, List.flatMap_singleton] using
      translateChunk_hoare p chunk s events h
  have hmeets : Meets (fun _ _ => True) (translateChunkWith p) .fresh chunks :=
    Meets.of_forall (fun _ _ => trivial) _ _
  have h : Delivered _ _ _ := run_history_invariant hstep [] hmeets Routed.init
  rwa [foldl_observe] at h

end ChunkArguments

end Maximal
