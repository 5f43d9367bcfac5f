import Maximal.Lib.Turns
import Maximal.Messages.ResponsesFragments
import Maximal.Messages.StreamedBlocks
import Maximal.Messages.WhitespaceGuard

/-!
# Parts of a response

What the fragments of each part add up to, and how this grows with one fragment more, for lists
of fragments in which no part is interrupted by another.

## Main definitions

- `PartBlock`, `Fragment.extend` — what the fragments of a part add up to
- `contents` — the blocks of a list of fragments, part by part
- `callOf` — the function calls that are not done
- `Orderly` — no part is interrupted, no call goes on after it is done, and none runs away in
  white space

## Main results

- `Orderly.new_or_last` — a fragment begins a new part, or goes on with the last one
- `callOf_concat_eq_update` — a fragment of one call concerns this call only
-/

namespace Maximal.Responses

open Js Emitter Turns

/-- The block of a part: how it was started, what it says, and whether a delta came for it. -/
structure PartBlock where
  start : ContentBlock
  text : String
  signature : String
  hasDelta : Bool

namespace PartBlock

def fresh (start : ContentBlock) : PartBlock := ⟨start, "", "", false⟩

def add (b : PartBlock) (d : BlockDelta) : PartBlock :=
  { b with text := b.text ++ d.text, signature := b.signature ++ d.signature }

def mark (b : PartBlock) : PartBlock := { b with hasDelta := true }

def say (b : PartBlock) (text : String) : PartBlock := { b with text := b.text ++ text }

def sign (b : PartBlock) (signature : String) : PartBlock :=
  { b with signature := b.signature ++ signature }

@[simp] theorem add_textDelta (b : PartBlock) (text : String) :
    b.add (.textDelta (some (.string text))) = b.say text := by
  simp [add, say, BlockDelta.text, BlockDelta.signature, Val.asString]

@[simp] theorem add_thinkingDelta (b : PartBlock) (text : String) :
    b.add (.thinkingDelta (some (.string text))) = b.say text := by
  simp [add, say, BlockDelta.text, BlockDelta.signature, Val.asString]

@[simp] theorem add_inputJsonDelta (b : PartBlock) (text : String) :
    b.add (.inputJsonDelta (some (.string text))) = b.say text := by
  simp [add, say, BlockDelta.text, BlockDelta.signature, Val.asString]

@[simp] theorem add_signatureDelta (b : PartBlock) (signature : String) :
    b.add (.signatureDelta (some (.string signature))) = b.sign signature := by
  simp [add, sign, BlockDelta.text, BlockDelta.signature, Val.asString]

/-- The block as the client reads it. -/
def streamed (b : PartBlock) (index : ℕ) : StreamedBlock := ⟨index, b.start, b.text, b.signature⟩

end PartBlock

namespace Fragment

/-- How the first fragment of a part starts its block. -/
def start (index : ℕ) : Fragment → ContentBlock
  | .quiet | .created _ | .textDelta _ _ | .textDone _ _ => .text ""
  | .summaryDelta _ _ | .summaryDone _ _ | .reasoningDone _ _ _ | .compactionDone _ _ =>
    .thinking ""
  | .callAdded _ toolCallId name _ =>
    .toolUse (some (toolCallId.orElse (.string ("tool_call_" ++ toString index))))
      (some (name.orElse (.string "function")))
  | .callDelta _ _ | .callDone _ _ =>
    .toolUse (some (.string ("tool_call_" ++ toString index))) (some (.string "function"))

/-- What a fragment adds to the block of its part. -/
def extend (b : PartBlock) : Fragment → PartBlock
  | .quiet | .created _ => b
  | .textDelta _ delta | .summaryDelta _ delta | .callDelta _ delta => (b.say delta).mark
  | .textDone _ text | .summaryDone _ text => if b.hasDelta then b else b.say text
  | .reasoningDone _ signature isSummaryMissing =>
    ((if isSummaryMissing then b.say THINKING_TEXT else b).sign signature).mark
  | .compactionDone _ signature =>
    ((if b.hasDelta then b else b.say THINKING_TEXT).sign signature).mark
  | .callAdded _ _ _ initialArguments =>
    if initialArguments = "" then b else (b.say initialArguments).mark
  | .callDone _ finalArguments =>
    if b.hasDelta ∨ finalArguments = "" then b else (b.say finalArguments).mark

def isCallDone (outputIndex : MapKey) : Fragment → Bool
  | .callDone k _ => k = outputIndex
  | _ => false

/-- The characters that a fragment sends through the white space guard. -/
def deltaChars : Fragment → List Char
  | .callDelta _ delta => delta.toList
  | _ => []

end Fragment

/-! ## The parts of a list of fragments -/

def parts (fragments : List Fragment) : List Part := firsts (fragments.filterMap (·.part))

def fragmentsOf (fragments : List Fragment) (p : Part) : List Fragment :=
  fragments.filter (·.part = some p)

/-- What the fragments of one part add up to, in the block with the given index. -/
def partBlock (index : ℕ) : List Fragment → PartBlock
  | [] => .fresh (.text "")
  | f :: fs => (f :: fs).foldl Fragment.extend (.fresh (f.start index))

def contents (fragments : List Fragment) : List PartBlock :=
  (parts fragments).mapIdx fun index p => partBlock index (fragmentsOf fragments p)

/-- The characters of a call's argument deltas. -/
def argumentChars (fragments : List Fragment) (outputIndex : MapKey) : List Char :=
  (fragmentsOf fragments (.call outputIndex)).flatMap (·.deltaChars)

/-- Block index and white space count of a call that is not done. -/
def callOf (fragments : List Fragment) (outputIndex : MapKey) : Option (ℕ × ℕ) :=
  if fragments.any (·.isCallDone outputIndex) then none
  else
    match (parts fragments).idxOf? (.call outputIndex),
        updateWhitespaceRunState 0 (charsOf (argumentChars fragments outputIndex)) with
    | some index, some count => some (index, count)
    | _, _ => none

structure Orderly (fragments : List Fragment) : Prop where
  uninterrupted : Uninterrupted (fragments.filterMap (·.part))
  finished : ∀ k, ∀ f ∈ fragments, ∀ g ∈ fragments, [f, g].Sublist fragments →
    f.isCallDone k → g.part ≠ some (.call k)
  restrained : ∀ k, ¬RunsAway (argumentChars fragments k)

theorem idxOf?_concat_of_ne {p q : Part} (h : q ≠ p) (ps : List Part) :
    (ps ++ [p]).idxOf? q = ps.idxOf? q := by
  show (ps ++ [p]).findIdx? (· == q) = ps.findIdx? (· == q)
  rw [List.findIdx?_append, List.findIdx?_singleton, if_neg (by simpa using h.symm),
    Option.map_none, Option.or_none]

theorem idxOf?_concat_self {p : Part} {ps : List Part} (h : p ∉ ps) :
    (ps ++ [p]).idxOf? p = some ps.length := by
  have hnone : ps.idxOf? p = none := List.idxOf?_eq_none_iff.2 h
  change ps.findIdx? (· == p) = none at hnone
  show (ps ++ [p]).findIdx? (· == p) = some ps.length
  rw [List.findIdx?_append, hnone, List.findIdx?_singleton, if_pos (beq_self_eq_true p)]
  simp

/-! ### One fragment more -/

section Step

variable {fragments : List Fragment} {f : Fragment} {p q : Part} {k : MapKey}

theorem Orderly.of_append (h : Orderly (fragments ++ [f])) : Orderly fragments where
  uninterrupted := by
    have hu := h.uninterrupted
    rw [List.filterMap_append] at hu
    exact hu.of_append
  finished k g hg g' hg' hsub := h.finished k g (List.mem_append_left _ hg) g'
    (List.mem_append_left _ hg') (hsub.trans (List.sublist_append_left _ _))
  restrained k := by
    have hr := h.restrained k
    rw [argumentChars, fragmentsOf, List.filter_append, List.flatMap_append] at hr
    exact fun hrun => hr (hrun.append _)

/-- The guard lets the arguments of an orderly list pass. -/
theorem Orderly.exists_count (h : Orderly fragments) (k : MapKey) :
    ∃ count, updateWhitespaceRunState 0 (charsOf (argumentChars fragments k)) = some count :=
  Option.ne_none_iff_exists'.1 fun hnone =>
    h.restrained k ((updateWhitespaceRunState_eq_none_iff _).1 hnone)

theorem fragmentsOf_concat_self (h : f.part = some p) :
    fragmentsOf (fragments ++ [f]) p = fragmentsOf fragments p ++ [f] := by
  simp [fragmentsOf, h]

theorem fragmentsOf_concat_of_ne (h : f.part ≠ some p) :
    fragmentsOf (fragments ++ [f]) p = fragmentsOf fragments p := by
  simp [fragmentsOf, h]

theorem parts_concat_none (h : f.part = none) : parts (fragments ++ [f]) = parts fragments := by
  simp [parts, h]

theorem parts_concat_some (h : f.part = some p) :
    parts (fragments ++ [f]) =
      if p ∈ parts fragments then parts fragments else parts fragments ++ [p] := by
  have happ : (fragments ++ [f]).filterMap (·.part) = fragments.filterMap (·.part) ++ [p] := by
    simp [h]
  rw [parts, happ, firsts_concat]
  rfl

theorem mem_parts : p ∈ parts fragments ↔ ∃ g ∈ fragments, g.part = some p := by
  rw [parts, mem_firsts, List.mem_filterMap]

theorem fragmentsOf_eq_nil (h : p ∉ parts fragments) : fragmentsOf fragments p = [] := by
  rw [fragmentsOf, List.filter_eq_nil_iff]
  intro g hg hpart
  exact h (mem_parts.2 ⟨g, hg, of_decide_eq_true hpart⟩)

theorem length_contents : (contents fragments).length = (parts fragments).length :=
  List.length_mapIdx

/-- The blocks of the other parts stay as they are. -/
theorem mapIdx_partBlock_concat {ps : List Part} (h : ∀ q ∈ ps, f.part ≠ some q) :
    ps.mapIdx (fun index q => partBlock index (fragmentsOf (fragments ++ [f]) q)) =
      ps.mapIdx fun index q => partBlock index (fragmentsOf fragments q) := by
  rw [List.mapIdx_eq_mapIdx_iff]
  intro i hi
  rw [fragmentsOf_concat_of_ne (h _ (List.getElem_mem hi))]

theorem partBlock_concat {index : ℕ} {fs : List Fragment} (h : fs ≠ []) (f : Fragment) :
    partBlock index (fs ++ [f]) = f.extend (partBlock index fs) := by
  obtain ⟨g, gs, rfl⟩ := List.exists_cons_of_ne_nil h
  rw [List.cons_append, partBlock, partBlock, ← List.cons_append, List.foldl_append]
  rfl

theorem contents_concat_none (h : f.part = none) :
    contents (fragments ++ [f]) = contents fragments := by
  rw [contents, contents, parts_concat_none h]
  exact mapIdx_partBlock_concat fun q _ => by simp [h]

/-- A fragment belongs to a new part, or to the one that began last. -/
theorem Orderly.new_or_last (h : Orderly (fragments ++ [f])) (hp : f.part = some p) :
    (p ∉ parts fragments ∧ parts (fragments ++ [f]) = parts fragments ++ [p] ∧
      contents (fragments ++ [f]) =
        contents fragments ++ [f.extend (.fresh (f.start (contents fragments).length))]) ∨
    ∃ bs b, (parts fragments).idxOf? p = some bs.length ∧
      parts (fragments ++ [f]) = parts fragments ∧ contents fragments = bs ++ [b] ∧
        contents (fragments ++ [f]) = bs ++ [f.extend b] := by
  have hparts : parts (fragments ++ [f]) = _ := parts_concat_some hp
  by_cases hmem : p ∈ parts fragments
  · right
    rw [if_pos hmem] at hparts
    -- the last part that began is the one of the last fragment that has one
    have hlast : (parts fragments).getLast? = some p := by
      have hu := h.uninterrupted
      have happ : (fragments ++ [f]).filterMap (·.part) =
          fragments.filterMap (·.part) ++ [p] := by
        simp [hp]
      rw [happ] at hu
      rw [parts, hu.of_append.getLast?_firsts]
      exact hu.getLast?_of_mem (mem_firsts.1 hmem)
    obtain ⟨ps, hps⟩ := List.getLast?_eq_some_iff.1 hlast
    have hnodup : (ps ++ [p]).Nodup := hps ▸ nodup_firsts
    have hnot : p ∉ ps := by
      intro hin
      exact (List.nodup_append.1 hnodup).2.2 p hin p (List.mem_singleton_self p) rfl
    have hothers : ∀ q ∈ ps, f.part ≠ some q := by
      intro q hq heq
      obtain rfl := Option.some.inj (hp.symm.trans heq)
      exact hnot hq
    have hne : fragmentsOf fragments p ≠ [] := by
      obtain ⟨g, hg, hpart⟩ := mem_parts.1 hmem
      exact List.ne_nil_of_mem (List.mem_filter.2 ⟨hg, decide_eq_true hpart⟩)
    refine ⟨ps.mapIdx fun index q => partBlock index (fragmentsOf fragments q),
      partBlock ps.length (fragmentsOf fragments p), ?_, hparts, ?_, ?_⟩
    · rw [hps, List.length_mapIdx]
      exact idxOf?_concat_self hnot
    · rw [contents, hps, List.mapIdx_concat]
    · rw [contents, hparts, hps, List.mapIdx_concat, mapIdx_partBlock_concat hothers,
        fragmentsOf_concat_self hp, partBlock_concat hne]
  · left
    rw [if_neg hmem] at hparts
    have hothers : ∀ q ∈ parts fragments, f.part ≠ some q := by
      intro q hq heq
      obtain rfl := Option.some.inj (hp.symm.trans heq)
      exact hmem hq
    refine ⟨hmem, hparts, ?_⟩
    rw [contents, hparts, List.mapIdx_concat, mapIdx_partBlock_concat hothers,
      fragmentsOf_concat_self hp, fragmentsOf_eq_nil hmem, length_contents]
    rfl

theorem argumentChars_concat_self (h : f.part = some (.call k)) :
    argumentChars (fragments ++ [f]) k = argumentChars fragments k ++ f.deltaChars := by
  rw [argumentChars, fragmentsOf_concat_self h, List.flatMap_append, List.flatMap_singleton]
  rfl

/-- Nothing comes after the end of a call's arguments. -/
theorem Orderly.not_done (h : Orderly (fragments ++ [f])) (hp : f.part = some (.call k)) :
    fragments.any (·.isCallDone k) = false := by
  rw [List.any_eq_false]
  intro g hg hdone
  have hsub : [g, f].Sublist (fragments ++ [f]) :=
    (List.singleton_sublist.2 hg).append (List.Sublist.refl [f])
  exact h.finished k g (List.mem_append_left _ hg) f (by simp) hsub hdone hp

theorem part_of_isCallDone (h : f.isCallDone k) : f.part = some (.call k) := by
  cases f with
  | callDone outputIndex finalArguments =>
    rw [of_decide_eq_true h]
    rfl
  | _ => cases h

theorem callOf_concat_of_ne (h : f.part ≠ some (.call k)) :
    callOf (fragments ++ [f]) k = callOf fragments k := by
  have hdone : f.isCallDone k = false := by
    by_contra hd
    exact h (part_of_isCallDone (by simpa using hd))
  have hindex : (parts (fragments ++ [f])).idxOf? (.call k) =
      (parts fragments).idxOf? (.call k) := by
    cases hp : f.part with
    | none => rw [parts_concat_none hp]
    | some p =>
      rw [parts_concat_some hp]
      split
      · rfl
      · refine idxOf?_concat_of_ne ?_ _
        rintro rfl
        exact h hp
  rw [callOf, callOf, List.any_append, hindex, argumentChars, fragmentsOf_concat_of_ne h]
  simp [hdone, argumentChars]

/-- The call of a fragment that does not end it. -/
theorem callOf_concat_self {index count : ℕ} (h : Orderly (fragments ++ [f]))
    (hp : f.part = some (.call k)) (hdone : f.isCallDone k = false)
    (hindex : (parts (fragments ++ [f])).idxOf? (.call k) = some index)
    (hcount : updateWhitespaceRunState 0 (charsOf (argumentChars fragments k ++ f.deltaChars)) =
      some count) :
    callOf (fragments ++ [f]) k = some (index, count) := by
  have hnot : (fragments ++ [f]).any (·.isCallDone k) = false := by
    simp [h.not_done hp, hdone]
  rw [callOf, if_neg (by simp [hnot]), hindex, argumentChars_concat_self hp, hcount]

/-- A fragment of one call changes what is known of this call only. -/
theorem callOf_concat_eq_update (hp : f.part = some (.call k)) {known : Option (ℕ × ℕ)}
    (hk : callOf (fragments ++ [f]) k = known) :
    callOf (fragments ++ [f]) = Function.update (callOf fragments) k known := by
  funext k'
  by_cases hne : k' = k
  · rw [hne, Function.update_self, hk]
  · rw [Function.update_of_ne hne]
    refine callOf_concat_of_ne ?_
    rw [hp]
    simpa using Ne.symm hne

theorem callOf_concat_done (h : f.isCallDone k) : callOf (fragments ++ [f]) k = none := by
  rw [callOf, if_pos (by simp [h])]

end Step

end Maximal.Responses
