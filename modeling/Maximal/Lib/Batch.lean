import Mathlib.Data.List.Basic
import Mathlib.Data.List.SplitBy

/-!
# Batches

A list is turned into items. Some elements become an item of their own; the others add contents
to a batch, which is closed into an item before the next such element and at the end.

## Main definitions

- `Batch.flush` — the pending contents as an item, unless there are none
- `Batch.items` — the items of a list

## Main results

- `Batch.items_append_cons_own` — an element with an item of its own divides the list
- `Batch.items_append_own`, `Batch.items_append_contents` — the last element decides the last item
- `Batch.items_eq_nil` — no items, exactly when no element has anything to add
- `Batch.forall_items` — what holds of every item
- `Batch.items_flatMap` — the items hold what the elements come to, in order
- `Batch.items_eq_splitBy` — each run of elements without an item of their own makes one batch
- `Batch.any_items` — what holds of some item, when no item of its own has it
-/

namespace Batch

variable {β ι κ : Type}

def flush (close : List κ → ι) : List κ → List ι
  | [] => []
  | pending => [close pending]

/-- The items of a list, with `pending` contents before it: `own` is the item that an element
becomes, `contents` is what any other element adds, and `close` makes an item of a batch. -/
def items (own : β → Option ι) (contents : β → List κ) (close : List κ → ι) :
    List κ → List β → List ι
  | pending, [] => flush close pending
  | pending, b :: bs =>
    match own b with
    | some i => flush close pending ++ i :: items own contents close [] bs
    | none => items own contents close (pending ++ contents b) bs

variable {own : β → Option ι} {contents : β → List κ} {close : List κ → ι}

@[simp]
theorem flush_nil : flush close [] = [] := rfl

theorem flush_of_ne_nil {pending : List κ} (h : pending ≠ []) :
    flush close pending = [close pending] := by
  cases pending with
  | nil => exact absurd rfl h
  | cons k ks => rfl

theorem flush_eq_nil {pending : List κ} : flush close pending = [] ↔ pending = [] := by
  cases pending <;> simp [flush]

theorem items_nil (pending : List κ) :
    items own contents close pending [] = flush close pending := rfl

theorem items_cons_own {b : β} {i : ι} (h : own b = some i) (pending : List κ) (bs : List β) :
    items own contents close pending (b :: bs) =
      flush close pending ++ i :: items own contents close [] bs := by
  rw [items, h]

theorem items_cons_contents {b : β} (h : own b = none) (pending : List κ) (bs : List β) :
    items own contents close pending (b :: bs) =
      items own contents close (pending ++ contents b) bs := by
  rw [items, h]

/-- An element with an item of its own stands between the items before it and those after it. -/
theorem items_append_cons_own {b : β} {i : ι} (h : own b = some i) (pending : List κ)
    (bs cs : List β) :
    items own contents close pending (bs ++ b :: cs) =
      items own contents close pending bs ++ i :: items own contents close [] cs := by
  induction bs generalizing pending with
  | nil => rw [List.nil_append, items_cons_own h, items_nil]
  | cons b' bs ih =>
    rw [List.cons_append]
    cases h' : own b' with
    | some j =>
      rw [items_cons_own h', items_cons_own h', ih, List.append_assoc, List.cons_append]
    | none => rw [items_cons_contents h', items_cons_contents h', ih]

/-- An element with an item of its own at the end puts this item at the end. -/
theorem items_append_own {b : β} {i : ι} (h : own b = some i) (pending : List κ) (bs : List β) :
    items own contents close pending (bs ++ [b]) = items own contents close pending bs ++ [i] :=
  items_append_cons_own h pending bs []

/-- An element that adds contents at the end puts a batch at the end. -/
theorem items_append_contents {b : β} (h : own b = none) (hb : contents b ≠ [])
    (pending : List κ) (bs : List β) :
    ∃ is batch, items own contents close pending (bs ++ [b]) = is ++ [close batch] := by
  induction bs generalizing pending with
  | nil =>
    have hne : pending ++ contents b ≠ [] := by simp [hb]
    exact ⟨[], _, by rw [List.nil_append, items_cons_contents h, items_nil, flush_of_ne_nil hne]; rfl⟩
  | cons b' bs ih =>
    rw [List.cons_append]
    cases h' : own b' with
    | some j =>
      obtain ⟨is, batch, heq⟩ := ih []
      refine ⟨flush close pending ++ j :: is, batch, ?_⟩
      rw [items_cons_own h', heq, List.append_assoc, List.cons_append]
    | none =>
      rw [items_cons_contents h']
      exact ih _

theorem items_eq_nil {pending : List κ} {bs : List β} :
    items own contents close pending bs = [] ↔
      pending = [] ∧ ∀ b ∈ bs, own b = none ∧ contents b = [] := by
  induction bs generalizing pending with
  | nil => simp [items_nil, flush_eq_nil]
  | cons b bs ih =>
    cases h : own b with
    | some i => simp [items_cons_own h, h]
    | none => simp [items_cons_contents h, ih, h, and_assoc]

/-- A property of the items that elements become and of every batch holds of all items. -/
theorem forall_items {P : ι → Prop} {bs : List β} (hown : ∀ b ∈ bs, ∀ i, own b = some i → P i)
    (hclose : ∀ batch, batch ≠ [] → P (close batch)) (pending : List κ) :
    ∀ i ∈ items own contents close pending bs, P i := by
  have hflush : ∀ pending, ∀ i ∈ flush close pending, P i := by
    intro pending i hi
    cases pending with
    | nil => simp at hi
    | cons k ks =>
      rw [List.mem_singleton.1 hi]
      exact hclose _ (List.cons_ne_nil k ks)
  induction bs generalizing pending with
  | nil => exact hflush pending
  | cons b bs ih =>
    have hrest := ih fun b' hb' => hown b' (List.mem_cons_of_mem _ hb')
    cases h : own b with
    | none =>
      rw [items_cons_contents h]
      exact hrest _
    | some j =>
      rw [items_cons_own h]
      intro i hi
      rcases List.mem_append.1 hi with hi | hi
      · exact hflush pending i hi
      · rcases List.mem_cons.1 hi with rfl | hi
        · exact hown b (List.mem_cons_self ..) i h
        · exact hrest [] i hi

/-- A test that fails on items of their own, and passes on a batch when it does on some of its
contents, passes when it does on some content. -/
theorem any_items {p : ι → Bool} {q : κ → Bool} (hown : ∀ b i, own b = some i → p i = false)
    (hclose : ∀ ks, p (close ks) = ks.any q) (pending : List κ) (bs : List β) :
    (items own contents close pending bs).any p =
      (pending.any q || bs.any fun b => (own b).isNone && (contents b).any q) := by
  have hflush : ∀ ks, (flush close ks).any p = ks.any q := by
    intro ks
    cases ks with
    | nil => rfl
    | cons k ks =>
      rw [flush_of_ne_nil (List.cons_ne_nil k ks), List.any_cons, List.any_nil, Bool.or_false,
        hclose]
  induction bs generalizing pending with
  | nil => rw [items_nil, hflush, List.any_nil, Bool.or_false]
  | cons b bs ih =>
    cases hb : own b with
    | some i => simp [items_cons_own hb, List.any_append, hflush, hown b i hb, ih, hb]
    | none => simp [items_cons_contents hb, ih, List.any_append, hb, Bool.or_assoc]

/-- What the items hold: an item of its own as `hold` has it, and a batch with its contents. -/
theorem items_flatMap {π : Type} (hold : ι → List π) (part : κ → π)
    (hclose : ∀ ks, hold (close ks) = ks.map part) (pending : List κ) (bs : List β) :
    (items own contents close pending bs).flatMap hold =
      pending.map part ++ bs.flatMap fun b =>
        match own b with
        | some i => hold i
        | none => (contents b).map part := by
  have hflush : ∀ ks, (flush close ks).flatMap hold = ks.map part := by
    intro ks
    cases ks with
    | nil => rfl
    | cons k ks =>
      rw [flush_of_ne_nil (List.cons_ne_nil k ks), List.flatMap_singleton, hclose]
  induction bs generalizing pending with
  | nil => rw [items_nil, hflush, List.flatMap_nil, List.append_nil]
  | cons b bs ih =>
    rw [List.flatMap_cons]
    cases hb : own b with
    | some i =>
      rw [items_cons_own hb, List.flatMap_append, List.flatMap_cons, hflush, ih, List.map_nil,
        List.nil_append]
    | none => rw [items_cons_contents hb, ih, List.map_append, List.append_assoc]

/-- Elements without an item of their own only add to the batch. -/
theorem items_of_forall {bs : List β} (h : ∀ b ∈ bs, own b = none) (pending : List κ) :
    items own contents close pending bs = flush close (pending ++ bs.flatMap contents) := by
  induction bs generalizing pending with
  | nil => rw [items_nil, List.flatMap_nil, List.append_nil]
  | cons b bs ih =>
    rw [items_cons_contents (h b List.mem_cons_self), List.flatMap_cons, ← List.append_assoc]
    exact ih (fun c hc => h c (List.mem_cons_of_mem b hc)) _

/-- Neither element becomes an item of its own. -/
def joins (own : β → Option ι) (a b : β) : Bool := (own a).isNone && (own b).isNone

/-- The item that the only element of a run becomes, or the batch of the run. -/
def runItems (own : β → Option ι) (contents : β → List κ) (close : List κ → ι) (run : List β) :
    List ι :=
  match run.filterMap own with
  | [] => flush close (run.flatMap contents)
  | is => is

theorem runItems_of_forall {run : List β} (h : ∀ b ∈ run, own b = none) :
    runItems own contents close run = flush close (run.flatMap contents) := by
  have hnone : run.filterMap own = [] := List.filterMap_eq_nil_iff.2 h
  simp only [runItems, hnone]

theorem runItems_singleton {b : β} {i : ι} (h : own b = some i) :
    runItems own contents close [b] = [i] := by
  simp only [runItems, List.filterMap_cons, h, List.filterMap_nil]

theorem items_eq_splitBy_of_forall {run : List β} (h : ∀ b ∈ run, own b = none) :
    items own contents close [] run =
      (run.splitBy (joins own)).flatMap (runItems own contents close) := by
  rw [items_of_forall h, List.nil_append]
  by_cases hne : run = []
  · rw [hne]
    rfl
  · have hchain : run.IsChain fun a b => joins own a b = true := by
      refine List.Pairwise.isChain (List.pairwise_of_forall_mem_list fun a ha b hb => ?_)
      rw [joins, h a ha, h b hb]
      rfl
    rw [List.splitBy_of_isChain hne hchain, List.flatMap_singleton, runItems_of_forall h]

/-- The longest runs of elements without an item of their own make one batch each. -/
theorem items_eq_splitBy (bs : List β) :
    items own contents close [] bs =
      (bs.splitBy (joins own)).flatMap (runItems own contents close) := by
  -- the run that is not over yet stands in front of the list
  have hrun : ∀ run : List β, (∀ b ∈ run, own b = none) →
      items own contents close [] (run ++ bs) =
        ((run ++ bs).splitBy (joins own)).flatMap (runItems own contents close) := by
    induction bs with
    | nil =>
      intro run h
      rw [List.append_nil]
      exact items_eq_splitBy_of_forall h
    | cons b bs ih =>
      intro run h
      cases hb : own b with
      | none =>
        have hconcat : run ++ b :: bs = (run ++ [b]) ++ bs := by simp
        rw [hconcat]
        refine ih _ fun c hc => ?_
        obtain hc | hc := List.mem_append.1 hc
        · exact h c hc
        · rw [List.mem_singleton.1 hc, hb]
      | some i =>
        have hbefore : ∀ c, joins own c b = false := fun c => by simp [joins, hb]
        have hafter : ∀ c, joins own b c = false := fun c => by simp [joins, hb]
        have hsplit : (b :: bs).splitBy (joins own) = [b] :: bs.splitBy (joins own) :=
          List.splitBy_append (l := [b]) fun x hx y _ => by
            obtain rfl : b = x := Option.some.inj hx
            exact hafter y
        have hright := ih [] fun c hc => absurd hc List.not_mem_nil
        rw [List.nil_append] at hright
        rw [items_append_cons_own hb, List.splitBy_append_cons bs fun x _ => hbefore x, hsplit,
          List.flatMap_append, List.flatMap_cons, runItems_singleton hb,
          items_eq_splitBy_of_forall h, hright]
        rfl
  exact hrun [] fun b hb => absurd hb List.not_mem_nil

end Batch
