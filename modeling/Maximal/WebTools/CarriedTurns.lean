import Maximal.Messages.ChunkText
import Maximal.Messages.ResponsesResult
import Maximal.Messages.StreamedBlocks
import Maximal.WebTools.TurnEvents

/-!
# Web tools: blocks of a turn, whole and streamed

A turn that streams its blocks one after another, and what the streaming agent makes of them.

## Main definitions

- `CarriedBlock`, `CarriedBlock.whole` — a streamed block, and the block of a whole response
- `readClient`, `ClientBlock.shown` — the blocks the client puts together
- `webOutcome`, `shownOf` — what becomes of a block

## Main results

- `dispatchAll_blocks` — the state after the blocks of a turn
- `readClient_blocks` — the blocks the client has then
-/

namespace Maximal.WebTools

open Js

/-! ## Streamed blocks -/

/-- A block as a stream carries it. -/
structure CarriedBlock where
  start : ContentBlock
  deltas : List BlockDelta

/-- The delta brings a text. -/
def bringsText : BlockDelta → Bool
  | .textDelta v => v.asString.isSome
  | .inputJsonDelta v => v.asString.isSome
  | .thinkingDelta v => v.asString.isSome
  | .signatureDelta v => v.asString.isSome

namespace CarriedBlock

/-- The deltas of the block belong into it and bring texts. -/
def WellFormed (b : CarriedBlock) : Prop :=
  ∀ d ∈ b.deltas, b.start.kind.Fits d.kind ∧ bringsText d

instance (b : CarriedBlock) : Decidable b.WellFormed :=
  inferInstanceAs (Decidable (∀ d ∈ b.deltas, b.start.kind.Fits d.kind ∧ bringsText d))

/-- What the deltas of the block say. -/
def text (b : CarriedBlock) : String := gather BlockDelta.text b.deltas

def events (index : ℕ) (b : CarriedBlock) : List AnthropicStreamEventData :=
  .contentBlockStart index b.start ::
    (b.deltas.map (.contentBlockDelta (.at index)) ++ [.contentBlockStop index])

/-- The same block in a whole response; thinking is left aside. -/
def whole (platform : Platform) (b : CarriedBlock) : Option AnthropicAssistantContentBlock :=
  match b.start with
  | .text text => some (.text (.string (text ++ b.text)))
  | .toolUse id name =>
    some (.toolUse ⟨id, name, parseToolCallArguments platform.parse (some (.string b.text))⟩)
  | .thinking _ => none

end CarriedBlock

/-- Blocks one after another, from an index on. -/
def blockEvents : ℕ → List CarriedBlock → List AnthropicStreamEventData
  | _, [] => []
  | index, b :: bs => b.events index ++ blockEvents (index + 1) bs

/-! ## The client -/

inductive ClientStart where
  | upstream (block : ContentBlock)
  | serverToolUse (id name : Val)
  | result (block : ResultOutBlock)

structure ClientBlock where
  index : ℕ
  start : ClientStart
  text : String

def readClientEvent (blocks : List ClientBlock) : ClientEvent → List ClientBlock
  | .forward (.contentBlockStart i b) => blocks ++ [⟨i, .upstream b, ""⟩]
  | .forward (.contentBlockDelta (.at i) d) =>
    blocks.map fun b => if b.index = i then { b with text := b.text ++ d.text } else b
  | .serverToolUseStart i id name => blocks ++ [⟨i, .serverToolUse id name, ""⟩]
  | .resultStart i b => blocks ++ [⟨i, .result b, ""⟩]
  | _ => blocks

/-- The blocks that a client puts together from what is written to it. -/
def readClient (written : List ClientEvent) : List ClientBlock :=
  written.foldl readClientEvent []

/-- A block of the client as one of a whole response; thinking is left aside. -/
def ClientBlock.shown (platform : Platform) (b : ClientBlock) : Option SynthesizedBlock :=
  match b.start with
  | .upstream (.text text) => some (.assistant (.text (.string (text ++ b.text))))
  | .upstream (.toolUse id name) =>
    some (.assistant (.toolUse ⟨id, name, parseToolInput platform b.text⟩))
  | .upstream (.thinking _) => none
  | .serverToolUse id name => some (.serverToolUse ⟨id, name, parseToolInput platform b.text⟩)
  | .result block => some (.result block)

section

variable (platform : Platform) (executor : Executor)

/-- The call of a web tool that a block is, executed. -/
def webOutcome (b : CarriedBlock) (x : Execution) :
    Option (AnthropicToolUseBlock × ExecOutcome) × Execution :=
  match webTool? b.start with
  | none => (none, x)
  | some (id, name) =>
    let tu : AnthropicToolUseBlock :=
      ⟨id, some (.string name.text), parseToolInput platform b.text⟩
    let (outcome, x) := executeToolUse platform executor name tu.input x
    (some (tu, outcome), x)

/-- How the client starts to read a block. -/
def clientStart (start : ContentBlock) : ClientStart :=
  match webTool? start with
  | some (id, name) => .serverToolUse id (some (.string name.text))
  | none => .upstream start

/-- What the client reads of a block, from its next index on. -/
def clientBlocks (next : ℕ) (b : CarriedBlock)
    (outcome : Option (AnthropicToolUseBlock × ExecOutcome)) : List ClientBlock :=
  ⟨next, clientStart b.start, b.text⟩ ::
    outcome.toList.map fun o =>
      ⟨next + 1, .result (buildResultBlockForOutcome platform o.1.id o.2), ""⟩

/-- What the client is written of a block. -/
def writtenOf (next : ℕ) (b : CarriedBlock)
    (outcome : Option (AnthropicToolUseBlock × ExecOutcome)) : List ClientEvent :=
  startEvent next b.start ::
    (b.deltas.map (fun d => .forward (.contentBlockDelta (.at next) d)) ++
      [.forward (.contentBlockStop next)] ++
      outcome.toList.flatMap fun o =>
        [.resultStart (next + 1) (buildResultBlockForOutcome platform o.1.id o.2),
          .forward (.contentBlockStop (next + 1))])

end

/-! ## One block -/

section

variable {platform : Platform} {executor : Executor}

theorem text_of_asString {v : Val} (h : v.asString.isSome) : v.text = .ok (v.asString.getD "") := by
  rcases v with _ | j
  · cases h
  · cases j with
    | string s => rfl
    | _ => cases h

/-- A delta that belongs into an open block is added to it. -/
theorem OpenBlock.add_of_fits {o : OpenBlock} {x : BlockDelta} (hfits : o.blockKind.Fits x.kind)
    (htext : bringsText x) (hkind : o.isWebTool → o.blockKind = .toolUse) :
    ∃ o', o.add x = .ok o' ∧ o'.clientIndex = o.clientIndex ∧
      (o.isWebTool → o'.partialJson = o.partialJson ++ x.text) := by
  have hother {k : DeltaKind} (hx : x.kind = k) (hk : k ≠ .inputJson) : ¬o.isWebTool := by
    intro hweb
    rw [hkind hweb, hx] at hfits
    exact hk hfits
  cases x with
  | inputJsonDelta v =>
    rw [OpenBlock.add, text_of_asString htext]
    split
    · exact ⟨_, rfl, rfl, fun _ => rfl⟩
    · next hweb => exact ⟨o, rfl, rfl, fun h => absurd h hweb⟩
  | textDelta v =>
    have hweb := hother rfl DeltaKind.noConfusion
    rw [OpenBlock.add, text_of_asString htext]
    split
    · exact ⟨_, rfl, rfl, fun h => absurd h hweb⟩
    · exact ⟨o, rfl, rfl, fun h => absurd h hweb⟩
  | thinkingDelta v =>
    have hweb := hother rfl DeltaKind.noConfusion
    rw [OpenBlock.add, text_of_asString htext]
    split
    · exact ⟨_, rfl, rfl, fun h => absurd h hweb⟩
    · exact ⟨o, rfl, rfl, fun h => absurd h hweb⟩
  | signatureDelta v => exact ⟨o, rfl, rfl, fun h => absurd h (hother rfl DeltaKind.noConfusion)⟩

/-- The deltas of a block reach it and are passed on. -/
theorem dispatchAll_deltas (platform : Platform) (executor : Executor) {index : ℕ}
    {deltas : List BlockDelta} {o : OpenBlock} {d : Dispatch}
    (hget : d.upstreamToClient.get index = some o)
    (hdeltas : ∀ x ∈ deltas, o.blockKind.Fits x.kind ∧ bringsText x)
    (hkind : o.isWebTool → o.blockKind = .toolUse) :
    ∃ opened o', dispatchAll platform executor (deltas.map (.contentBlockDelta (.at index))) d =
        ({ d with
          upstreamToClient := opened
          written := d.written ++
            deltas.map fun x => .forward (.contentBlockDelta (.at o.clientIndex) x) }, none) ∧
      opened.get index = some o' ∧ o'.clientIndex = o.clientIndex ∧ o'.toolUse = o.toolUse ∧
      o'.blockKind = o.blockKind ∧
      (o.isWebTool → o'.partialJson = o.partialJson ++ gather BlockDelta.text deltas) := by
  induction deltas generalizing d o with
  | nil =>
    refine ⟨d.upstreamToClient, o, ?_, hget, rfl, rfl, rfl, fun _ => (String.append_empty).symm⟩
    rw [List.map_nil, List.map_nil, List.append_nil, dispatchAll]
  | cons x deltas ih =>
    obtain ⟨hfits, htext⟩ := hdeltas x List.mem_cons_self
    obtain ⟨o₁, hadd, hclient, hjson⟩ := OpenBlock.add_of_fits hfits htext hkind
    obtain ⟨htool, hkind₁⟩ := OpenBlock.add_fields hadd
    have hweb : o₁.isWebTool = o.isWebTool := by rw [OpenBlock.isWebTool, htool, OpenBlock.isWebTool]
    obtain ⟨opened, o', hrest, hget', hclient', htool', hkind', hjson'⟩ :=
      ih (d := { d with
        upstreamToClient := d.upstreamToClient.set index o₁
        written := d.written ++ [.forward (.contentBlockDelta (.at o.clientIndex) x)] })
        (Entries.get_set_self _ _ _)
        (fun y hy => hkind₁ ▸ hdeltas y (List.mem_cons_of_mem _ hy))
        (fun h => hkind₁ ▸ hkind (hweb ▸ h))
    refine ⟨opened, o', ?_, hget', hclient'.trans hclient, htool'.trans htool,
      hkind'.trans hkind₁, fun h => ?_⟩
    · have hevent : dispatchEvent platform executor (.contentBlockDelta (.at index) x) d =
          .ok { d with
            upstreamToClient := d.upstreamToClient.set index o₁
            written := d.written ++ [.forward (.contentBlockDelta (.at o.clientIndex) x)] } := by
        rw [dispatchEvent, handleBlockDelta, Dispatch.openAt, hget, Option.map_some]
        simp only [hadd, Except.map]
      rw [List.map_cons, dispatchAll, hevent]
      refine hrest.trans ?_
      rw [hclient, List.map_cons, List.append_assoc, List.singleton_append]
    · rw [hjson' (hweb ▸ h), hjson h, gather_cons, String.append_assoc]

/-- What a turn does with one block. -/
theorem dispatchAll_block (platform : Platform) (executor : Executor) {b : CarriedBlock}
    (hb : b.WellFormed) (index : ℕ) (d : Dispatch) :
    ∃ d', dispatchAll platform executor (b.events index) d = (d', none) ∧
      d'.execution = (webOutcome platform executor b d.execution).2 ∧
      d'.outcomes = d.outcomes ++ (webOutcome platform executor b d.execution).1.toList ∧
      d'.next = d.next + 1 + (webOutcome platform executor b d.execution).1.toList.length ∧
      d'.written = d.written ++
        writtenOf platform d.next b (webOutcome platform executor b d.execution).1 ∧
      d'.bufferedFinal = d.bufferedFinal ∧ d'.stopReason = d.stopReason ∧
      d'.messageStartEmitted = d.messageStartEmitted := by
  have hstart : (handleBlockStart index b.start d).upstreamToClient.get index =
      some ⟨d.next, "", webTool? b.start, "", "", b.start.kind⟩ := Entries.get_set_self _ _ _
  obtain ⟨opened, o', hdeltas, hget, hclient, htool, hkind, hjson⟩ :=
    dispatchAll_deltas platform executor hstart hb webTool?_kind
  have hweb : o'.toolUse = webTool? b.start := htool
  have hkind' : o'.blockKind = b.start.kind := hkind
  have hclient' : o'.clientIndex = d.next := hclient
  refine ⟨_, (dispatchAll_append hdeltas).trans rfl, ?_⟩
  rw [handleBlockStop, hget]
  dsimp only
  rw [hweb, hkind', hclient']
  cases hcall : webTool? b.start with
  | none =>
    rw [webOutcome, hcall]
    have hwritten : d.written ++ [startEvent d.next b.start] ++
        b.deltas.map (fun x => ClientEvent.forward (.contentBlockDelta (.at d.next) x)) ++
          [.forward (.contentBlockStop d.next)] = d.written ++ writtenOf platform d.next b none := by
      simp [writtenOf]
    cases b.start.kind <;> exact ⟨rfl, (List.append_nil _).symm, rfl, hwritten, rfl, rfl, rfl⟩
  | some call =>
    obtain ⟨id, name⟩ := call
    have hkindTool : b.start.kind = .toolUse := webTool?_kind (by rw [hcall]; rfl)
    have hpartial : o'.partialJson = b.text := by
      refine (hjson ?_).trans String.empty_append
      rw [OpenBlock.isWebTool, hcall]
      rfl
    rw [hkindTool, webOutcome, hcall, hpartial]
    refine ⟨rfl, rfl, rfl, ?_, rfl, rfl, rfl⟩
    simp [finishWebTool, handleBlockStart, writtenOf]

/-! ## What the client reads -/

theorem readClient_append (written written' : List ClientEvent) :
    readClient (written ++ written') = written'.foldl readClientEvent (readClient written) :=
  List.foldl_append

/-- A delta for the last block leaves the others alone. -/
theorem readClientEvent_delta {before : List ClientBlock} {last : ClientBlock}
    (h : ∀ c ∈ before, c.index < last.index) (x : BlockDelta) :
    readClientEvent (before ++ [last]) (.forward (.contentBlockDelta (.at last.index) x)) =
      before ++ [{ last with text := last.text ++ x.text }] := by
  have hbefore : before.map (fun c =>
      if c.index = last.index then { c with text := c.text ++ x.text } else c) = before := by
    conv_rhs => rw [← List.map_id before]
    exact List.map_congr_left fun c hc => if_neg (Nat.ne_of_lt (h c hc))
  rw [readClientEvent, List.map_append, hbefore, List.map_singleton, if_pos rfl]

theorem readClientEvent_deltas {before : List ClientBlock} {last : ClientBlock}
    (h : ∀ c ∈ before, c.index < last.index) (deltas : List BlockDelta) :
    (deltas.map fun x => ClientEvent.forward (.contentBlockDelta (.at last.index) x)).foldl
        readClientEvent (before ++ [last]) =
      before ++ [{ last with text := last.text ++ gather BlockDelta.text deltas }] := by
  induction deltas generalizing last with
  | nil => rw [List.map_nil, List.foldl_nil, gather_nil, String.append_empty]
  | cons x deltas ih =>
    rw [List.map_cons, List.foldl_cons, readClientEvent_delta h x]
    refine (@ih { last with text := last.text ++ x.text } h).trans ?_
    rw [gather_cons, String.append_assoc]

theorem readClientEvent_start (blocks : List ClientBlock) (next : ℕ) (start : ContentBlock) :
    readClientEvent blocks (startEvent next start) = blocks ++ [⟨next, clientStart start, ""⟩] := by
  rw [startEvent, clientStart]
  cases webTool? start with
  | none => rfl
  | some call => rfl

/-- The client reads a block as the last of its blocks, and its result after it. -/
theorem readClient_block {written : List ClientEvent} {next : ℕ}
    (h : ∀ c ∈ readClient written, c.index < next) (b : CarriedBlock)
    (outcome : Option (AnthropicToolUseBlock × ExecOutcome)) :
    readClient (written ++ writtenOf platform next b outcome) =
      readClient written ++ clientBlocks platform next b outcome := by
  rw [readClient_append, writtenOf, List.foldl_cons, readClientEvent_start, List.foldl_append,
    List.foldl_append]
  have hdeltas := @readClientEvent_deltas _ ⟨next, clientStart b.start, ""⟩ h b.deltas
  rw [hdeltas, String.empty_append, clientBlocks]
  cases outcome with
  | none => rfl
  | some o => exact List.append_assoc ..

theorem index_lt_of_mem_clientBlocks {next : ℕ} {b : CarriedBlock}
    {outcome : Option (AnthropicToolUseBlock × ExecOutcome)} {c : ClientBlock}
    (h : c ∈ clientBlocks platform next b outcome) :
    c.index < next + 1 + outcome.toList.length := by
  rcases List.mem_cons.1 h with rfl | h
  · show next < _
    omega
  · obtain ⟨o, ho, rfl⟩ := List.mem_map.1 h
    have hpos := List.length_pos_of_mem ho
    show next + 1 < _
    omega

theorem writtenOf_quiet (next : ℕ) (b : CarriedBlock)
    (outcome : Option (AnthropicToolUseBlock × ExecOutcome)) :
    ∀ event ∈ writtenOf platform next b outcome, event.isMessageDelta = false := by
  intro event hevent
  rcases List.mem_cons.1 hevent with rfl | hevent
  · exact startEvent_quiet next b.start
  rcases List.mem_append.1 hevent with hevent | hevent
  · rcases List.mem_append.1 hevent with hevent | hevent
    · obtain ⟨x, -, rfl⟩ := List.mem_map.1 hevent
      rfl
    · obtain rfl := List.mem_singleton.1 hevent
      rfl
  · obtain ⟨o, -, hevent⟩ := List.mem_flatMap.1 hevent
    simp only [List.mem_cons, List.not_mem_nil, or_false] at hevent
    rcases hevent with rfl | rfl <;> rfl

/-! ## The blocks of a turn -/

/-- What the client is shown of a block. -/
def shownOf (platform : Platform) (b : CarriedBlock)
    (outcome : Option (AnthropicToolUseBlock × ExecOutcome)) : List SynthesizedBlock :=
  (clientBlocks platform 0 b outcome).filterMap (·.shown platform)

theorem shown_clientBlocks (next : ℕ) (b : CarriedBlock)
    (outcome : Option (AnthropicToolUseBlock × ExecOutcome)) :
    (clientBlocks platform next b outcome).filterMap (·.shown platform) =
      shownOf platform b outcome := by
  cases outcome <;> rfl

/-- What the client is shown of blocks, the calls of web tools among them with their outcomes, and
the execution after them. -/
def streamBlocks (platform : Platform) (executor : Executor) : List CarriedBlock → Execution →
    List SynthesizedBlock × List (AnthropicToolUseBlock × ExecOutcome) × Execution
  | [], x => ([], [], x)
  | b :: bs, x =>
    let o := webOutcome platform executor b x
    let rest := streamBlocks platform executor bs o.2
    (shownOf platform b o.1 ++ rest.1, o.1.toList ++ rest.2.1, rest.2.2)

/-- What the client reads so far: its blocks have indices below the next one, and the message has
not ended. -/
structure Reading (platform : Platform) (shown : List SynthesizedBlock) (next : ℕ)
    (written : List ClientEvent) : Prop where
  shown_eq : (readClient written).filterMap (·.shown platform) = shown
  below : ∀ c ∈ readClient written, c.index < next
  quiet : ∀ event ∈ written, event.isMessageDelta = false

theorem Reading.block {shown : List SynthesizedBlock} {next : ℕ} {written : List ClientEvent}
    (h : Reading platform shown next written) (b : CarriedBlock)
    (outcome : Option (AnthropicToolUseBlock × ExecOutcome)) :
    Reading platform (shown ++ shownOf platform b outcome)
      (next + 1 + outcome.toList.length) (written ++ writtenOf platform next b outcome) := by
  refine ⟨?_, ?_, ?_⟩
  · rw [readClient_block h.below, List.filterMap_append, h.shown_eq, shown_clientBlocks]
  · rw [readClient_block h.below]
    intro c hc
    rcases List.mem_append.1 hc with hc | hc
    · have hlt := h.below c hc
      omega
    · exact index_lt_of_mem_clientBlocks hc
  · intro event hevent
    exact (List.mem_append.1 hevent).elim (h.quiet event) (writtenOf_quiet next b outcome event)

/-- The state after the blocks of a turn. -/
theorem dispatchAll_blocks (executor : Executor) {blocks : List CarriedBlock}
    (hblocks : ∀ b ∈ blocks, b.WellFormed) (index : ℕ) {shown : List SynthesizedBlock} {d : Dispatch}
    (h : Reading platform shown d.next d.written) :
    ∃ d', dispatchAll platform executor (blockEvents index blocks) d = (d', none) ∧
      Reading platform (shown ++ (streamBlocks platform executor blocks d.execution).1) d'.next
        d'.written ∧
      d'.outcomes = d.outcomes ++ (streamBlocks platform executor blocks d.execution).2.1 ∧
      d'.execution = (streamBlocks platform executor blocks d.execution).2.2 ∧
      d'.bufferedFinal = d.bufferedFinal ∧ d'.stopReason = d.stopReason ∧
      d'.messageStartEmitted = d.messageStartEmitted := by
  induction blocks generalizing index shown d with
  | nil =>
    refine ⟨d, rfl, ?_, (List.append_nil _).symm, rfl, rfl, rfl, rfl⟩
    rw [streamBlocks, List.append_nil]
    exact h
  | cons b blocks ih =>
    obtain ⟨d₁, hd₁, hexecution, houtcomes, hnext, hwritten, hbuffered, hreason, hemitted⟩ :=
      dispatchAll_block platform executor (hblocks b List.mem_cons_self) index d
    have hreading := h.block b (webOutcome platform executor b d.execution).1
    rw [← hnext, ← hwritten] at hreading
    obtain ⟨d', hd', hreading', houtcomes', hexecution', hbuffered', hreason', hemitted'⟩ :=
      ih (fun b' hb' => hblocks b' (List.mem_cons_of_mem _ hb')) (index + 1) hreading
    rw [hexecution] at hreading' houtcomes' hexecution'
    refine ⟨d', (dispatchAll_append hd₁).trans hd', ?_, ?_, hexecution', hbuffered'.trans hbuffered,
      hreason'.trans hreason, hemitted'.trans hemitted⟩
    · rwa [List.append_assoc] at hreading'
    · rw [houtcomes', houtcomes, List.append_assoc]
      rfl

end

end Maximal.WebTools
