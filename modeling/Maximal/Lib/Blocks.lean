import Mathlib.Data.List.Count
import Mathlib.Data.List.Infix

/-!
# Streams of content blocks

A stream of events that open, fill and close numbered blocks. A stream is *disciplined* when at
most one block is open at any time, fills and closes name the block that is open, and events at
a boundary find no block open. The kind of a block decides which payloads fit into it.

## Main definitions

- `BlockEvent` — opening, filling, closing, a boundary between blocks, anything else
- `Blocks.openAfter` — the blocks opened and not yet closed
- `Blocks.Disciplined` — the discipline, for a stream that starts with given blocks open
- `Blocks.Scan` — an observer that computes open blocks, openings and the discipline together

## Main results

- `Blocks.foldl_scan` — the observer computes what the definitions say
- `Blocks.Disciplined.closed_at_boundary` — before a boundary event no block is open
- `Blocks.Disciplined.opens_perm_closes` — and each index was closed as often as it was opened
-/

/-- An event of a stream of blocks with indices in `ι`, kinds in `κ` and payloads in `δ`. -/
inductive BlockEvent (ι κ δ : Type) where
  | start (index : ι) (kind : κ)
  | delta (index : ι) (payload : δ)
  | stop (index : ι)
  | boundary
  | other

namespace Blocks

variable {ι κ δ : Type} [DecidableEq ι]

/-- The open blocks after one more event. -/
def track (blocks : List (ι × κ)) : BlockEvent ι κ δ → List (ι × κ)
  | .start i k => blocks ++ [(i, k)]
  | .stop i => blocks.filter fun b => b.1 ≠ i
  | _ => blocks

/-- The blocks opened and not yet closed by `es`, when `blocks` were open before it. -/
def openAfter (blocks : List (ι × κ)) (es : List (BlockEvent ι κ δ)) : List (ι × κ) :=
  es.foldl track blocks

/-- The indices opened by `es`, in order. -/
def opens (es : List (BlockEvent ι κ δ)) : List ι :=
  es.filterMap fun
    | .start i _ => some i
    | _ => none

/-- The indices closed by `es`, in order. -/
def closes (es : List (BlockEvent ι κ δ)) : List ι :=
  es.filterMap fun
    | .stop i => some i
    | _ => none

/-- Whether an event may come while `blocks` are open. -/
def Admissible (fits : κ → δ → Prop) (blocks : List (ι × κ)) : BlockEvent ι κ δ → Prop
  | .start _ _ => blocks = []
  | .delta i d => ∃ k, blocks = [(i, k)] ∧ fits k d
  | .stop i => ∃ k, blocks = [(i, k)]
  | .boundary => blocks = []
  | .other => True

/-- Every event of the stream is admissible when it comes. -/
def Disciplined (fits : κ → δ → Prop) (blocks : List (ι × κ)) : List (BlockEvent ι κ δ) → Prop
  | [] => True
  | e :: es => Admissible fits blocks e ∧ Disciplined fits (track blocks e) es

instance Admissible.decidable (fits : κ → δ → Prop) [∀ k d, Decidable (fits k d)] :
    (blocks : List (ι × κ)) → (e : BlockEvent ι κ δ) → Decidable (Admissible fits blocks e)
  | [], .start _ _ => .isTrue rfl
  | _ :: _, .start _ _ => .isFalse nofun
  | [(j, k)], .delta i d => decidable_of_iff (j = i ∧ fits k d) <| by
    constructor
    · rintro ⟨rfl, h⟩
      exact ⟨k, rfl, h⟩
    · rintro ⟨_, ⟨⟩, h⟩
      exact ⟨rfl, h⟩
  | [], .delta _ _ => .isFalse nofun
  | _ :: _ :: _, .delta _ _ => .isFalse nofun
  | [(j, k)], .stop i => decidable_of_iff (j = i) <| by
    constructor
    · rintro rfl
      exact ⟨k, rfl⟩
    · rintro ⟨_, ⟨⟩⟩
      rfl
  | [], .stop _ => .isFalse nofun
  | _ :: _ :: _, .stop _ => .isFalse nofun
  | [], .boundary => .isTrue rfl
  | _ :: _, .boundary => .isFalse nofun
  | _, .other => .isTrue trivial

instance Disciplined.decidable (fits : κ → δ → Prop) [∀ k d, Decidable (fits k d)] :
    (blocks : List (ι × κ)) → (es : List (BlockEvent ι κ δ)) →
      Decidable (Disciplined fits blocks es)
  | _, [] => .isTrue trivial
  | blocks, e :: es =>
    have := Disciplined.decidable fits (track blocks e) es
    inferInstanceAs (Decidable (_ ∧ _))

variable {fits : κ → δ → Prop} {blocks : List (ι × κ)} {es es' : List (BlockEvent ι κ δ)}

@[simp] theorem disciplined_nil : Disciplined fits blocks [] := trivial

@[simp] theorem openAfter_nil : openAfter blocks ([] : List (BlockEvent ι κ δ)) = blocks := rfl

@[simp] theorem openAfter_cons (e : BlockEvent ι κ δ) :
    openAfter blocks (e :: es) = openAfter (track blocks e) es := rfl

theorem disciplined_append :
    Disciplined fits blocks (es ++ es') ↔
      Disciplined fits blocks es ∧ Disciplined fits (openAfter blocks es) es' := by
  induction es generalizing blocks with
  | nil => simp
  | cons e es ih => simp only [List.cons_append, Disciplined, openAfter_cons, ih, and_assoc]

/-- Each event of a disciplined stream is admissible after the events before it. -/
theorem Disciplined.admissible {pre post : List (BlockEvent ι κ δ)} {e : BlockEvent ι κ δ}
    (h : Disciplined fits blocks (pre ++ e :: post)) :
    Admissible fits (openAfter blocks pre) e :=
  (disciplined_append.1 h).2.1

theorem Disciplined.closed_at_boundary {pre post : List (BlockEvent ι κ δ)}
    (h : Disciplined fits blocks (pre ++ .boundary :: post)) : openAfter blocks pre = [] :=
  h.admissible

theorem Disciplined.of_prefix (h : Disciplined fits blocks es) (hp : es' <+: es) :
    Disciplined fits blocks es' := by
  obtain ⟨rest, rfl⟩ := hp
  exact (disciplined_append.1 h).1

/-- Openings and closings differ by the blocks still open. -/
theorem Disciplined.count_opens (h : Disciplined fits blocks es) (i : ι) :
    (blocks.map Prod.fst).count i + (opens es).count i =
      (closes es).count i + ((openAfter blocks es).map Prod.fst).count i := by
  induction es generalizing blocks with
  | nil => simp [opens, closes]
  | cons e es ih =>
    have hrest := ih h.2
    have hadm := h.1
    cases e with
    | start j k =>
      obtain rfl : blocks = [] := hadm
      simp only [track, opens, closes, openAfter_cons, List.filterMap_cons, List.nil_append,
        List.map_cons, List.map_nil, List.count_nil, List.count_cons] at hrest ⊢
      omega
    | stop j =>
      obtain ⟨k, rfl⟩ := hadm
      simp only [track, opens, closes, openAfter_cons, List.filterMap_cons, List.map_cons,
        List.map_nil, List.count_nil, List.count_cons, ne_eq, not_true_eq_false, decide_false,
        List.filter_cons, List.filter_nil, Bool.false_eq_true, if_false] at hrest ⊢
      omega
    | delta j d => exact hrest
    | boundary => exact hrest
    | other => exact hrest

/-- Before a boundary of a disciplined stream each index was closed as often as it was
opened. -/
theorem Disciplined.opens_perm_closes {pre post : List (BlockEvent ι κ δ)}
    (h : Disciplined fits [] (pre ++ .boundary :: post)) : (opens pre).Perm (closes pre) := by
  refine List.perm_iff_count.2 fun i => ?_
  have hc := (disciplined_append.1 h).1.count_opens i
  rw [h.closed_at_boundary] at hc
  simpa using hc

theorem mem_opens_of_mem_openAfter {b : ι × κ} (h : b ∈ openAfter blocks es) :
    b ∈ blocks ∨ b.1 ∈ opens es := by
  induction es generalizing blocks with
  | nil => exact .inl h
  | cons e es ih =>
    have hopens : ∀ {i : ι}, i ∈ opens es → i ∈ opens (e :: es) := by
      intro i hi
      obtain ⟨e', he', heq⟩ := List.mem_filterMap.1 hi
      exact List.mem_filterMap.2 ⟨e', List.mem_cons_of_mem _ he', heq⟩
    rcases ih h with hb | hb
    · cases e with
      | start j k =>
        rcases List.mem_append.1 hb with hb | hb
        · exact .inl hb
        · obtain rfl := List.mem_singleton.1 hb
          exact .inr (by simp [opens])
      | stop j => exact .inl (List.mem_filter.1 hb).1
      | delta j d => exact .inl hb
      | boundary => exact .inl hb
      | other => exact .inl hb
    · exact .inr (hopens hb)

/-- A disciplined stream fills no block before it opens it. -/
theorem Disciplined.mem_opens_of_delta {pre post : List (BlockEvent ι κ δ)} {i : ι} {d : δ}
    (h : Disciplined fits [] (pre ++ .delta i d :: post)) : i ∈ opens pre := by
  obtain ⟨k, hopen, -⟩ := h.admissible
  have hmem : (i, k) ∈ openAfter [] pre := by
    rw [hopen]
    exact List.mem_singleton_self _
  exact (mem_opens_of_mem_openAfter hmem).resolve_left List.not_mem_nil

/-! ## The scanning observer -/

/-- What an observer of the stream knows: the open blocks, the indices opened so far and whether
every event so far was admissible. -/
structure Scan (ι κ : Type) where
  blocks : List (ι × κ)
  opened : List ι
  disciplined : Prop

namespace Scan

def init : Scan ι κ := ⟨[], [], True⟩

def step (fits : κ → δ → Prop) (c : Scan ι κ) (e : BlockEvent ι κ δ) : Scan ι κ :=
  ⟨track c.blocks e, c.opened ++ opens [e], c.disciplined ∧ Admissible fits c.blocks e⟩

end Scan

theorem foldl_scan (c : Scan ι κ) :
    es.foldl (Scan.step fits) c =
      ⟨openAfter c.blocks es, c.opened ++ opens es,
        c.disciplined ∧ Disciplined fits c.blocks es⟩ := by
  induction es generalizing c with
  | nil => simp [opens]
  | cons e es ih =>
    rw [List.foldl_cons, ih]
    simp only [Scan.step, openAfter_cons, Disciplined, and_assoc, List.append_assoc]
    congr 1
    rw [opens, opens, opens, ← List.filterMap_append, List.singleton_append]

end Blocks
