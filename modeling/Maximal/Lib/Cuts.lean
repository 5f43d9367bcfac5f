import Mathlib.Data.List.Basic

/-!
# Blocks of a stream

A stream is made of blocks with a separator after each. A reader keeps what has arrived of the next
block and takes blocks off the front while there are any. The blocks that it handles do not depend on
where the stream was cut while it arrived.

## Main definitions

- `Cuts.cut` — what stands before the first separator, and what stands after it
- `Cuts.drain`, `Cuts.blocks` — the loop that takes blocks off the front
- `Cuts.consume`, `Cuts.consumeAll` — the loop with a handler of blocks that may fail, and its run over
  the pieces of a stream

## Main results

- `Cuts.blocks_append` — a block that was taken off is the same when more arrives
- `Cuts.blocks_joined` — the blocks that a stream was made of
- `Cuts.consumeAll_eq` — the blocks of the whole stream are handled in order
-/

namespace Cuts

section Cut

variable {α : Type} [DecidableEq α]

def cut (sep : List α) : List α → Option (List α × List α)
  | [] => none
  | c :: cs =>
    if sep.isPrefixOf (c :: cs) then some ([], (c :: cs).drop sep.length)
    else (cut sep cs).map fun (before, after) => (c :: before, after)

/-- The fuel bounds the blocks. -/
def drain (sep : List α) : ℕ → List α → List (List α) × List α
  | 0, text => ([], text)
  | fuel + 1, text =>
    match cut sep text with
    | none => ([], text)
    | some (block, rest) =>
      let (blocks, rest) := drain sep fuel rest
      (block :: blocks, rest)

/-- All blocks of a text, and what is left of it. -/
def blocks (sep text : List α) : List (List α) × List α := drain sep text.length text

/-- The stream with the separator after each block. -/
def joined (sep : List α) (blocks : List (List α)) : List α := blocks.flatMap (· ++ sep)

variable {sep text more block rest : List α}

theorem cut_of_sep {c : α} (h : sep <+: c :: text) :
    cut sep (c :: text) = some ([], (c :: text).drop sep.length) :=
  if_pos (List.isPrefixOf_iff_prefix.2 h)

theorem cut_of_no_sep {c : α} (h : ¬sep <+: c :: text) :
    cut sep (c :: text) = (cut sep text).map fun (before, after) => (c :: before, after) :=
  if_neg (mt List.isPrefixOf_iff_prefix.1 h)

/-- The block and the separator are what was taken off. -/
theorem eq_of_cut (h : cut sep text = some (block, rest)) : text = block ++ (sep ++ rest) := by
  induction text generalizing block rest with
  | nil => cases h
  | cons c text ih =>
    by_cases hsep : sep <+: c :: text
    · rw [cut_of_sep hsep] at h
      cases h
      obtain ⟨after, hafter⟩ := hsep
      rw [← hafter, List.drop_left, List.nil_append]
    · rw [cut_of_no_sep hsep, Option.map_eq_some_iff] at h
      obtain ⟨⟨before, after⟩, hcut, heq⟩ := h
      cases heq
      rw [ih hcut, List.cons_append]

theorem length_of_cut (hsep : sep ≠ []) (h : cut sep text = some (block, rest)) :
    rest.length < text.length := by
  have hpos : 0 < sep.length := List.length_pos_iff.2 hsep
  rw [eq_of_cut h, List.length_append, List.length_append]
  omega

/-- The first separator stays the first when more arrives. -/
theorem cut_append (h : cut sep text = some (block, rest)) (more : List α) :
    cut sep (text ++ more) = some (block, rest ++ more) := by
  induction text generalizing block rest with
  | nil => cases h
  | cons c text ih =>
    by_cases hsep : sep <+: c :: text
    · have hlength : sep.length ≤ (c :: text).length := hsep.length_le
      have hmore : sep <+: c :: (text ++ more) := hsep.trans (List.prefix_append _ more)
      rw [cut_of_sep hsep] at h
      cases h
      rw [List.cons_append, cut_of_sep hmore, ← List.cons_append,
        List.drop_append_of_le_length hlength]
    · have hcut := h
      rw [cut_of_no_sep hsep, Option.map_eq_some_iff] at hcut
      obtain ⟨⟨before, after⟩, hcut, heq⟩ := hcut
      cases heq
      have hmore : ¬sep <+: c :: (text ++ more) := by
        -- a separator within the text would be found without what arrived
        intro hfirst
        have hlength : sep.length ≤ (c :: text).length := by
          rw [eq_of_cut hcut]
          simp only [List.length_cons, List.length_append]
          omega
        exact hsep (List.prefix_of_prefix_length_le hfirst (List.prefix_append _ more) hlength)
      rw [List.cons_append, cut_of_no_sep hmore, ih hcut]
      rfl

/-- A block that does not hold the separator's first element is cut off. -/
theorem cut_block {c : α} (hblock : c ∉ block) (rest : List α) :
    cut (c :: sep) (block ++ (c :: sep ++ rest)) = some (block, rest) := by
  induction block with
  | nil =>
    rw [List.nil_append, List.cons_append, cut_of_sep (by
      rw [← List.cons_append]
      exact List.prefix_append _ _), ← List.cons_append, List.drop_left]
  | cons d block ih =>
    obtain ⟨hne, hblock⟩ := not_or.1 (mt List.mem_cons.2 hblock)
    have hsep : ¬(c :: sep) <+: d :: (block ++ (c :: sep ++ rest)) := fun h =>
      hne (List.cons_prefix_cons.1 h).1
    rw [List.cons_append, cut_of_no_sep hsep, ih hblock]
    rfl

theorem drain_of_none (h : cut sep text = none) (fuel : ℕ) : drain sep fuel text = ([], text) := by
  cases fuel with
  | zero => rfl
  | succ fuel => simp only [drain, h]

theorem drain_of_some (h : cut sep text = some (block, rest)) (fuel : ℕ) :
    drain sep (fuel + 1) text =
      (block :: (drain sep fuel rest).1, (drain sep fuel rest).2) := by
  simp only [drain, h]

/-- More fuel than elements changes nothing. -/
theorem drain_fuel (hsep : sep ≠ []) {fuel : ℕ} (hfuel : text.length ≤ fuel) :
    drain sep fuel text = blocks sep text := by
  rw [blocks]
  induction hlength : text.length using Nat.strongRecOn generalizing fuel text with
  | ind n ih =>
    cases hcut : cut sep text with
    | none => rw [drain_of_none hcut, drain_of_none hcut]
    | some p =>
      obtain ⟨block, rest⟩ := p
      have hrest := length_of_cut hsep hcut
      obtain ⟨fuel, rfl⟩ := Nat.exists_eq_succ_of_ne_zero (n := fuel) (by omega)
      obtain ⟨k, rfl⟩ := Nat.exists_eq_succ_of_ne_zero (n := n) (by omega)
      have hfuel' : drain sep fuel rest = drain sep rest.length rest :=
        ih rest.length (by omega) (by omega) rfl
      have hk : drain sep k rest = drain sep rest.length rest :=
        ih rest.length (by omega) (by omega) rfl
      rw [drain_of_some hcut, drain_of_some hcut, hfuel', hk]

theorem blocks_of_none (h : cut sep text = none) : blocks sep text = ([], text) :=
  drain_of_none h _

theorem blocks_of_some (hsep : sep ≠ []) (h : cut sep text = some (block, rest)) :
    blocks sep text = (block :: (blocks sep rest).1, (blocks sep rest).2) := by
  have hrest := length_of_cut hsep h
  rw [← drain_fuel hsep (Nat.le_succ text.length), drain_of_some h, drain_fuel hsep (by omega)]

/-- Nothing is left that could be taken off. -/
theorem cut_blocks (hsep : sep ≠ []) (text : List α) : cut sep (blocks sep text).2 = none := by
  induction hlength : text.length using Nat.strongRecOn generalizing text with
  | ind n ih =>
    cases hcut : cut sep text with
    | none => rw [blocks_of_none hcut, hcut]
    | some p =>
      obtain ⟨block, rest⟩ := p
      rw [blocks_of_some hsep hcut]
      exact ih rest.length (by rw [← hlength]; exact length_of_cut hsep hcut) rest rfl

/-- The blocks and what is left are the text. -/
theorem joined_blocks_left (hsep : sep ≠ []) (text : List α) :
    joined sep (blocks sep text).1 ++ (blocks sep text).2 = text := by
  induction hlength : text.length using Nat.strongRecOn generalizing text with
  | ind n ih =>
    cases hcut : cut sep text with
    | none => rw [blocks_of_none hcut]; rfl
    | some p =>
      obtain ⟨block, rest⟩ := p
      have hrest := ih rest.length (by rw [← hlength]; exact length_of_cut hsep hcut) rest rfl
      rw [blocks_of_some hsep hcut, eq_of_cut hcut, joined, List.flatMap_cons, ← joined,
        List.append_assoc, List.append_assoc, hrest]

theorem blocks_append (hsep : sep ≠ []) (text more : List α) :
    blocks sep (text ++ more) =
      ((blocks sep text).1 ++ (blocks sep ((blocks sep text).2 ++ more)).1,
        (blocks sep ((blocks sep text).2 ++ more)).2) := by
  induction hlength : text.length using Nat.strongRecOn generalizing text with
  | ind n ih =>
    cases hcut : cut sep text with
    | none => rw [blocks_of_none hcut, List.nil_append]
    | some p =>
      obtain ⟨block, rest⟩ := p
      have hrest := ih rest.length (by rw [← hlength]; exact length_of_cut hsep hcut) rest rfl
      rw [blocks_of_some hsep (cut_append hcut more), blocks_of_some hsep hcut, hrest,
        List.cons_append]

theorem blocks_joined {c : α} {texts : List (List α)} (htexts : ∀ text ∈ texts, c ∉ text) :
    blocks (c :: sep) (joined (c :: sep) texts) = (texts, []) := by
  induction texts with
  | nil => rfl
  | cons text texts ih =>
    have hcut : cut (c :: sep) (joined (c :: sep) (text :: texts)) =
        some (text, joined (c :: sep) texts) := by
      rw [joined, List.flatMap_cons, List.append_assoc]
      exact cut_block (htexts text List.mem_cons_self) _
    rw [blocks_of_some (List.cons_ne_nil c sep) hcut,
      ih fun text htext => htexts text (List.mem_cons_of_mem _ htext)]

end Cut

/-! ## Handlers -/

section Consume

variable {α : Type} {m : Type → Type} [DecidableEq α] [Monad m]

/-- The fuel bounds the blocks. -/
def consume (sep : List α) (handle : List α → m Unit) : ℕ → List α → m (List α)
  | 0, text => pure text
  | fuel + 1, text =>
    match cut sep text with
    | none => pure text
    | some (block, rest) => do
      handle block
      consume sep handle fuel rest

def consumeAll (sep : List α) (handle : List α → m Unit) : List α → List (List α) → m Unit
  | _, [] => pure ()
  | buffer, piece :: pieces => do
    let rest ← consume sep handle (buffer ++ piece).length (buffer ++ piece)
    consumeAll sep handle rest pieces

variable [LawfulMonad m] {sep : List α}

theorem consume_eq (handle : List α → m Unit) (fuel : ℕ) (text : List α) :
    consume sep handle fuel text = (do
      forM (drain sep fuel text).1 handle
      pure (drain sep fuel text).2) := by
  induction fuel generalizing text with
  | zero => simp [consume, drain]
  | succ fuel ih =>
    cases hcut : cut sep text with
    | none => simp [consume, drain_of_none hcut, hcut]
    | some p =>
      obtain ⟨block, rest⟩ := p
      simp only [consume, hcut, drain_of_some hcut, List.forM_cons, bind_assoc, ih]

theorem consumeAll_eq (hsep : sep ≠ []) (handle : List α → m Unit) {buffer : List α}
    (hbuffer : cut sep buffer = none) (pieces : List (List α)) :
    consumeAll sep handle buffer pieces =
      forM (blocks sep (buffer ++ pieces.flatten)).1 handle := by
  induction pieces generalizing buffer with
  | nil => simp [consumeAll, blocks_of_none hbuffer]
  | cons piece pieces ih =>
    have hrest := cut_blocks hsep (buffer ++ piece)
    rw [List.flatten_cons, ← List.append_assoc, blocks_append hsep, List.forM_append, ← ih hrest]
    simp only [consumeAll, consume_eq, bind_assoc, pure_bind]
    rfl

end Consume

end Cuts
