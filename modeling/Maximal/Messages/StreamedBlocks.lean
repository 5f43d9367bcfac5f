import Mathlib.Data.List.Induction
import Maximal.Messages.AnthropicPayload
import Maximal.Messages.AnthropicTypes

/-!
# Reading a stream back

A client puts the content blocks of a message together from the events of its stream.

## Main definitions

- `StreamedBlock` — a block as it was started, with all its deltas so far
- `readBlocks` — the blocks of a stream
- `saidAt` — what all deltas for one index say, one after the other

## Main results

- `readBlocks_text` — a disciplined stream says at an index what its block says
-/

namespace Maximal

open Js

/-- What a delta adds to the text of its block. -/
def BlockDelta.text : BlockDelta → String
  | .textDelta text => text.asString.getD ""
  | .inputJsonDelta partialJson => partialJson.asString.getD ""
  | .thinkingDelta thinking => thinking.asString.getD ""
  | .signatureDelta _ => ""

def BlockDelta.signature : BlockDelta → String
  | .signatureDelta signature => signature.asString.getD ""
  | _ => ""

/-- A content block: how it was started, and what its deltas say one after the other. -/
structure StreamedBlock where
  index : ℕ
  start : ContentBlock
  text : String
  signature : String

namespace StreamedBlock

def add (b : StreamedBlock) (d : BlockDelta) : StreamedBlock :=
  { b with text := b.text ++ d.text, signature := b.signature ++ d.signature }

/-- A block that was started as a thinking block, as a client keeps it. -/
def thinking? (b : StreamedBlock) : Option AnthropicThinkingBlock :=
  match b.start with
  | .thinking thinking => some ⟨thinking ++ b.text, b.signature⟩
  | _ => none

end StreamedBlock

def readEvent (blocks : List StreamedBlock) : AnthropicStreamEventData → List StreamedBlock
  | .contentBlockStart i b => blocks ++ [⟨i, b, "", ""⟩]
  | .contentBlockDelta (.at i) d => blocks.map fun b => if b.index = i then b.add d else b
  | _ => blocks

def readBlocks (events : List AnthropicStreamEventData) : List StreamedBlock :=
  events.foldl readEvent []

/-- A delta for the last block leaves the others alone. -/
theorem readEvent_delta_concat {before : List StreamedBlock} {last : StreamedBlock}
    (h : ∀ b ∈ before, b.index ≠ last.index) (d : BlockDelta) :
    readEvent (before ++ [last]) (.contentBlockDelta (.at last.index) d) =
      before ++ [last.add d] := by
  have hbefore : before.map (fun b => if b.index = last.index then b.add d else b) = before := by
    conv_rhs => rw [← List.map_id before]
    exact List.map_congr_left fun b hb => if_neg (h b hb)
  rw [readEvent, List.map_append, hbefore, List.map_singleton, if_pos rfl]

/-- What the deltas for an index say, whether its block was started before them or not. -/
def saidAt (i : ℕ) (events : List AnthropicStreamEventData) : String :=
  events.foldl (fun said e =>
    match e with
    | .contentBlockDelta (.at j) d => if j = i then said ++ d.text else said
    | _ => said) ""

open AnthropicStreamEventData

theorem readBlocks_concat (events : List AnthropicStreamEventData)
    (e : AnthropicStreamEventData) :
    readBlocks (events ++ [e]) = readEvent (readBlocks events) e := by
  rw [readBlocks, List.foldl_append]
  rfl

theorem saidAt_concat_delta (i j : ℕ) (d : BlockDelta) (events : List AnthropicStreamEventData) :
    saidAt i (events ++ [.contentBlockDelta (.at j) d]) =
      if j = i then saidAt i events ++ d.text else saidAt i events := by
  rw [saidAt, List.foldl_append]
  rfl

theorem saidAt_concat_of_ne {i : ℕ} {e : AnthropicStreamEventData}
    (h : ∀ d, e ≠ .contentBlockDelta (.at i) d) (events : List AnthropicStreamEventData) :
    saidAt i (events ++ [e]) = saidAt i events := by
  cases e with
  | contentBlockDelta index d =>
    rcases index with j | v
    · rw [saidAt_concat_delta, if_neg]
      rintro rfl
      exact h d rfl
    · rw [saidAt, List.foldl_append]
      rfl
  | _ =>
    rw [saidAt, List.foldl_append]
    rfl

theorem map_index_readBlocks (events : List AnthropicStreamEventData) :
    (readBlocks events).map (·.index) = started events := by
  induction events using List.reverseRecOn with
  | nil => rfl
  | append_singleton events e ih =>
    rw [readBlocks_concat, started, List.filterMap_append, ← started, ← ih]
    cases e with
    | contentBlockStart i b => simp [readEvent]
    | contentBlockDelta index d =>
      rcases index with i | v
      · simp only [readEvent, List.map_map, List.filterMap_cons, List.filterMap_nil,
          List.append_nil]
        refine List.map_congr_left fun b _ => ?_
        show (if b.index = i then b.add d else b).index = b.index
        split <;> rfl
      · simp [readEvent]
    | _ => simp [readEvent]

/-- Before an index is started nothing is said there. -/
theorem saidAt_eq_empty {events : List AnthropicStreamEventData} {i : ℕ}
    (h : Blocks.Disciplined (fun _ _ => True) [] (events.map bounded)) (hi : i ∉ started events) :
    saidAt i events = "" := by
  induction events using List.reverseRecOn with
  | nil => rfl
  | append_singleton events e ih =>
    rw [List.map_append] at h
    have hstarted : i ∉ started events := by
      intro hmem
      refine hi ?_
      rw [started, List.filterMap_append]
      exact List.mem_append_left _ hmem
    rw [saidAt_concat_of_ne ?_, ih (Blocks.disciplined_append.1 h).1 hstarted]
    rintro d rfl
    have hopens : some i ∈ Blocks.opens (events.map bounded) :=
      Blocks.Disciplined.mem_opens_of_delta h
    rw [opens_bounded] at hopens
    obtain ⟨j, hj, heq⟩ := List.mem_map.1 hopens
    exact hstarted (Option.some.inj heq ▸ hj)

/-- A stream that starts no index twice says at an index what its block says. -/
theorem readBlocks_text {events : List AnthropicStreamEventData}
    (h : Blocks.Disciplined (fun _ _ => True) [] (events.map bounded))
    (hn : (started events).Nodup) : ∀ b ∈ readBlocks events, b.text = saidAt b.index events := by
  induction events using List.reverseRecOn with
  | nil => simp [readBlocks]
  | append_singleton events e ih =>
    rw [List.map_append] at h
    have hold := (Blocks.disciplined_append.1 h).1
    rw [started, List.filterMap_append, ← started] at hn
    have hblocks := ih hold (List.nodup_append.1 hn).1
    rw [readBlocks_concat]
    cases e with
    | contentBlockStart i start =>
      intro b hb
      rw [saidAt_concat_of_ne (by simp)]
      rcases List.mem_append.1 hb with hb | hb
      · exact hblocks b hb
      · obtain rfl := List.mem_singleton.1 hb
        refine (saidAt_eq_empty hold fun hi => ?_).symm
        exact (List.nodup_append.1 hn).2.2 i hi i (by simp) rfl
    | contentBlockDelta index d =>
      rcases index with i | v
      · intro b hb
        obtain ⟨c, hc, rfl⟩ := List.mem_map.1 hb
        rw [saidAt_concat_delta]
        by_cases hci : c.index = i
        · rw [if_pos hci]
          show c.text ++ d.text = if i = c.index then _ else _
          rw [if_pos hci.symm, hblocks c hc]
          rfl
        · rw [if_neg hci, if_neg (Ne.symm hci), hblocks c hc]
      · intro b hb
        rw [saidAt_concat_of_ne (by simp)]
        exact hblocks b hb
    | _ =>
      intro b hb
      rw [saidAt_concat_of_ne (by simp)]
      exact hblocks b hb

/-! ## Events without content -/

/-- Starts and deltas are what a client reads blocks from. -/
def AnthropicStreamEventData.isContent : AnthropicStreamEventData → Bool
  | .contentBlockStart _ _ => true
  | .contentBlockDelta _ _ => true
  | _ => false

variable {events quiet : List AnthropicStreamEventData}

theorem readBlocks_append_quiet (h : ∀ e ∈ quiet, e.isContent = false) :
    readBlocks (events ++ quiet) = readBlocks events := by
  induction quiet using List.reverseRecOn with
  | nil => rw [List.append_nil]
  | append_singleton quiet e ih =>
    have he := h e (by simp)
    rw [← List.append_assoc, readBlocks_concat, ih fun e' he' => h e' (by simp [he'])]
    cases e with
    | contentBlockStart => cases he
    | contentBlockDelta => cases he
    | _ => rfl

end Maximal
