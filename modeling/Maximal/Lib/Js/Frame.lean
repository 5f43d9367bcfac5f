import Maximal.Lib.Js.Schema

/-!
# Changes at a path

A program that sets a field deep in a value makes the objects around it anew. What the two values
have in common is said path by path: the change is seen below the paths that are set, and above one
only where an object had to be made.

## Main definitions

- `Js.Val.kindAt` — what stands at a path in a value that may be missing
- `Js.SameBut` — two values agree but for the paths that were set

## Main results

- `Js.SameBut.field`, `Js.SameBut.index`, `Js.SameBut.append` — a change further in
- `Js.SameBut.trans`
-/

namespace Js

/-- Nothing stands anywhere in a value that is missing. -/
def Val.kindAt (v : Val) (path : Path) : Option Kind := v.bind fun value => value.kindAt path

theorem Val.kindAt_some (value : Json) (path : Path) :
    Val.kindAt (some value) path = value.kindAt path := rfl

theorem Json.kindAt_object_key (fields : List (String × Json)) (k : String) (path : Path) :
    (Json.object fields).kindAt (.key k :: path) = Val.kindAt (fields.lookup k) path :=
  Json.kindAt_cons _ _ _

theorem Json.kindAt_array_index (items : List Json) (i : ℕ) (path : Path) :
    (Json.array items).kindAt (.index i :: path) = Val.kindAt items[i]? path :=
  Json.kindAt_cons _ _ _

/-- Below the paths of the list the values may differ, and above one of them there may be an object
or a list where there was nothing. -/
def SameBut (paths : List Path) (old new : Val) : Prop :=
  ∀ p, (∃ q ∈ paths, q <+: p) ∨ new.kindAt p = old.kindAt p ∨
    ∃ q ∈ paths, p <+: q ∧ old.kindAt p = none

namespace SameBut

variable {paths paths' : List Path} {a b c : Val}

theorem refl (paths : List Path) (a : Val) : SameBut paths a a := fun _ => .inr (.inl rfl)

theorem anything (a b : Val) : SameBut [[]] a b := fun _ =>
  .inl ⟨[], List.mem_singleton_self _, List.nil_prefix⟩

theorem mono (h : SameBut paths a b) (hpaths : ∀ p ∈ paths, p ∈ paths') : SameBut paths' a b := by
  intro p
  obtain ⟨q, hq, hp⟩ | h | ⟨q, hq, hp⟩ := h p
  · exact .inl ⟨q, hpaths q hq, hp⟩
  · exact .inr (.inl h)
  · exact .inr (.inr ⟨q, hpaths q hq, hp⟩)

theorem trans (hab : SameBut paths a b) (hbc : SameBut paths b c) : SameBut paths a c := by
  intro p
  obtain h | hab | h := hab p
  · exact .inl h
  · obtain h | hbc | ⟨q, hq, hp, hnone⟩ := hbc p
    · exact .inl h
    · exact .inr (.inl (hbc.trans hab))
    · exact .inr (.inr ⟨q, hq, hp, hab ▸ hnone⟩)
  · exact .inr (.inr h)

/-- A change under a step is a change below it. -/
theorem under {step : Step} {old new : Val} {p : Path} (h : SameBut paths old new)
    {old' new' : Option Kind} (hold : old' = old.kindAt p) (hnew : new' = new.kindAt p) :
    (∃ q ∈ paths.map (step :: ·), q <+: step :: p) ∨ new' = old' ∨
      ∃ q ∈ paths.map (step :: ·), step :: p <+: q ∧ old' = none := by
  obtain ⟨q, hq, hp⟩ | h | ⟨q, hq, hp, hnone⟩ := h p
  · exact .inl ⟨_, List.mem_map_of_mem hq, (List.prefix_cons_inj step).2 hp⟩
  · exact .inr (.inl (by rw [hold, hnew, h]))
  · exact .inr (.inr ⟨_, List.mem_map_of_mem hq, (List.prefix_cons_inj step).2 hp, hold.trans hnone⟩)

/-- A field of an object is set. -/
theorem field {fields : List (String × Json)} {k : String} {v : Json}
    (h : SameBut paths (fields.lookup k) (some v)) :
    SameBut (paths.map (.key k :: ·)) (some (.object fields))
      (some (.object (Json.set fields k v))) := by
  intro p
  match p with
  | [] => exact .inr (.inl rfl)
  | .index i :: p => exact .inr (.inl rfl)
  | .key k' :: p =>
    by_cases hk : k' = k
    · subst hk
      refine h.under (p := p) (Json.kindAt_object_key _ _ _) ?_
      rw [Val.kindAt_some, Json.kindAt_object_key, Json.lookup_set_self]
    · refine .inr (.inl ?_)
      rw [Val.kindAt_some, Val.kindAt_some, Json.kindAt_object_key, Json.kindAt_object_key,
        Json.lookup_set_of_ne fields v hk]

/-- An object with one field is made where there was nothing. -/
theorem fieldOfNone {k : String} {v : Json} {q : Path} (hq : q ∈ paths)
    (h : SameBut paths none (some v)) :
    SameBut (paths.map (.key k :: ·)) none (some (.object (Json.set [] k v))) := by
  intro p
  match p with
  | [] => exact .inr (.inr ⟨_, List.mem_map_of_mem hq, List.nil_prefix, rfl⟩)
  | .index i :: p => exact .inr (.inl rfl)
  | .key k' :: p =>
    by_cases hk : k' = k
    · subst hk
      refine h.under (p := p) rfl ?_
      rw [Val.kindAt_some, Json.kindAt_object_key, Json.lookup_set_self]
    · refine .inr (.inl ?_)
      rw [Val.kindAt_some, Json.kindAt_object_key, Json.lookup_set_of_ne _ v hk]
      rfl

/-- An item of a list is replaced. -/
theorem index {items : List Json} {i : ℕ} {v : Json} (hi : i < items.length)
    (h : SameBut paths items[i]? (some v)) :
    SameBut (paths.map (.index i :: ·)) (some (.array items)) (some (.array (items.set i v))) := by
  intro p
  match p with
  | [] => exact .inr (.inl rfl)
  | .key k :: p => exact .inr (.inl rfl)
  | .index j :: p =>
    by_cases hj : j = i
    · subst hj
      refine h.under (p := p) (Json.kindAt_array_index _ _ _) ?_
      rw [Val.kindAt_some, Json.kindAt_array_index, List.getElem?_set_self hi]
    · refine .inr (.inl ?_)
      rw [Val.kindAt_some, Val.kindAt_some, Json.kindAt_array_index, Json.kindAt_array_index,
        List.getElem?_set_ne (Ne.symm hj)]

/-- An item is put behind a list. -/
theorem append (items : List Json) (v : Json) :
    SameBut [[.index items.length]] (some (.array items)) (some (.array (items ++ [v]))) := by
  intro p
  match p with
  | [] => exact .inr (.inl rfl)
  | .key k :: p => exact .inr (.inl rfl)
  | .index j :: p =>
    by_cases hj : j = items.length
    · subst hj
      exact .inl ⟨_, List.mem_singleton_self _, (List.prefix_cons_inj _).2 List.nil_prefix⟩
    · refine .inr (.inl ?_)
      rw [Val.kindAt_some, Val.kindAt_some, Json.kindAt_array_index, Json.kindAt_array_index,
        List.getElem?_append]
      split
      · rfl
      · next hlt =>
        rw [List.getElem?_eq_none (by rw [List.length_singleton]; omega),
          List.getElem?_eq_none (by omega)]

/-- A list with one item is made where there was nothing. -/
theorem appendOfNone (v : Json) : SameBut [[.index 0]] none (some (.array [v])) := by
  intro p
  match p with
  | [] => exact .inr (.inr ⟨_, List.mem_singleton_self _, List.nil_prefix, rfl⟩)
  | .key k :: p => exact .inr (.inl rfl)
  | .index 0 :: p =>
    exact .inl ⟨_, List.mem_singleton_self _, (List.prefix_cons_inj _).2 List.nil_prefix⟩
  | .index (j + 1) :: p => exact .inr (.inl rfl)

end SameBut

end Js
