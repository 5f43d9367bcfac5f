import Maximal.Lib.Js.JsonText
import Mathlib.Data.List.Nodup

/-!
# What a text of a value says

Two decimals of one value are one number to a program. The meaning of a value forgets how its
numbers are written and keeps everything else, the order of the fields included.

## Main definitions

- `Js.Meaning`, `Js.Json.meaning`
- `Js.Json.isProper` — numbers are finite, and no key comes twice

## Main results

- `Js.Json.isProper_parse` — what is read is proper
- `Js.Json.meaning_reread` — a proper value is read again with its meaning
-/

namespace Js

inductive Meaning where
  | null
  | bool (b : Bool)
  | number (value : ℚ)
  | notFinite (n : Number)
  | string (s : String)
  | array (items : List Meaning)
  | object (fields : List (String × Meaning))

namespace Json

mutual

def meaning : Json → Meaning
  | .null => .null
  | .bool b => .bool b
  | .number (.finite m e) => .number (Number.value m e)
  | .number n => .notFinite n
  | .string s => .string s
  | .array items => .array (meaningItems items)
  | .object fields => .object (meaningFields fields)

def meaningItems : List Json → List Meaning
  | [] => []
  | item :: items => meaning item :: meaningItems items

def meaningFields : List (String × Json) → List (String × Meaning)
  | [] => []
  | (key, value) :: fields => (key, meaning value) :: meaningFields fields

end

def isFinite : Number → Bool
  | .finite _ _ => true
  | _ => false

mutual

def isProper : Json → Bool
  | .number n => isFinite n
  | .array items => isProperItems items
  | .object fields => decide (fields.map Prod.fst).Nodup && isProperFields fields
  | _ => true

def isProperItems : List Json → Bool
  | [] => true
  | item :: items => isProper item && isProperItems items

def isProperFields : List (String × Json) → Bool
  | [] => true
  | (_, value) :: fields => isProper value && isProperFields fields

end

/-! ## Reading again -/

mutual

theorem meaning_reread : ∀ v : Json, isProper v = true → meaning (reread v) = meaning v
  | .null, _ => rfl
  | .bool _, _ => rfl
  | .string _, _ => rfl
  | .number n, h => by
    cases n with
    | finite m e =>
      obtain ⟨m', e', hreread, hvalue⟩ := Number.value_reread m e
      rw [reread, rereadNumber, hreread, meaning, meaning, hvalue]
    | infinity negative => cases h
    | nan => cases h
  | .array items, h => by
    rw [isProper] at h
    rw [reread, meaning, meaning, meaningItems_reread items h]
  | .object fields, h => by
    rw [isProper, Bool.and_eq_true, decide_eq_true_iff] at h
    rw [reread, collect_eq (by rw [keys_rereadFields]; exact h.1), meaning, meaning,
      meaningFields_reread fields h.2]

theorem meaningItems_reread : ∀ items : List Json, isProperItems items = true →
    meaningItems (rereadItems items) = meaningItems items
  | [], _ => rfl
  | item :: items, h => by
    rw [isProperItems, Bool.and_eq_true] at h
    rw [rereadItems, meaningItems, meaningItems, meaning_reread item h.1,
      meaningItems_reread items h.2]

theorem meaningFields_reread : ∀ fields : List (String × Json), isProperFields fields = true →
    meaningFields (rereadFields fields) = meaningFields fields
  | [], _ => rfl
  | (key, value) :: fields, h => by
    rw [isProperFields, Bool.and_eq_true] at h
    rw [rereadFields, meaningFields, meaningFields, meaning_reread value h.1,
      meaningFields_reread fields h.2]

end

/-- A field of an object, read again. -/
theorem get_reread {fields : List (String × Json)} (h : (fields.map Prod.fst).Nodup) (k : String) :
    (reread (.object fields)).get k = (fields.lookup k).map reread := by
  rw [reread, collect_eq (by rw [keys_rereadFields]; exact h), get]
  clear h
  induction fields with
  | nil => rfl
  | cons field fields ih =>
    obtain ⟨key, value⟩ := field
    rw [rereadFields, List.lookup_cons, List.lookup_cons]
    cases k == key with
    | true => rfl
    | false => exact ih

/-! ## Reading a text -/

theorem isProperFields_iff (fields : List (String × Json)) :
    isProperFields fields = true ↔ ∀ field ∈ fields, isProper field.2 = true := by
  induction fields with
  | nil => exact iff_of_true rfl nofun
  | cons field fields ih =>
    obtain ⟨key, value⟩ := field
    rw [isProperFields, Bool.and_eq_true, ih, List.forall_mem_cons]

theorem isProper_object_iff (fields : List (String × Json)) :
    isProper (.object fields) = true ↔
      (fields.map Prod.fst).Nodup ∧ ∀ field ∈ fields, isProper field.2 = true := by
  rw [isProper, Bool.and_eq_true, decide_eq_true_iff, isProperFields_iff]

theorem isProper_of_lookup {fields : List (String × Json)} (h : isProper (.object fields) = true)
    {k : String} {v : Json} (hv : fields.lookup k = some v) : isProper v = true := by
  obtain ⟨l₁, l₂, hfields, -⟩ := List.lookup_eq_some_iff.1 hv
  have hmem : (k, v) ∈ fields := hfields ▸ List.mem_append_right l₁ List.mem_cons_self
  exact ((isProper_object_iff fields).1 h).2 _ hmem

/-- A field that is set takes the place of the field of its key, or the last place. -/
theorem nodup_set {fields : List (String × Json)} (k : String) (v : Json)
    (h : (fields.map Prod.fst).Nodup) : ((Json.set fields k v).map Prod.fst).Nodup := by
  rw [Json.set]
  split
  · have hkeys : (fields.map fun f => if f.1 = k then (k, v) else f).map Prod.fst =
        fields.map Prod.fst := by
      rw [List.map_map]
      refine List.map_congr_left fun f _ => ?_
      by_cases hf : f.1 = k
      · exact (congrArg Prod.fst (if_pos hf)).trans hf.symm
      · exact congrArg Prod.fst (if_neg hf)
    rw [hkeys]
    exact h
  · next hany =>
    rw [List.map_append, List.map_singleton]
    refine h.append (List.nodup_singleton k) (List.disjoint_singleton.2 fun hk => hany ?_)
    obtain ⟨f, hf, hfk⟩ := List.mem_map.1 hk
    exact List.any_eq_true.2 ⟨f, hf, beq_iff_eq.2 hfk⟩

theorem isProper_object_set {fields : List (String × Json)} {k : String} {v : Json}
    (h : isProper (.object fields) = true) (hv : isProper v = true) :
    isProper (.object (Json.set fields k v)) = true := by
  rw [isProper_object_iff] at h ⊢
  refine ⟨nodup_set k v h.1, fun field hfield => ?_⟩
  rw [Json.set] at hfield
  split at hfield
  · obtain ⟨f, hf, rfl⟩ := List.mem_map.1 hfield
    split
    · exact hv
    · exact h.2 f hf
  · obtain hfield | hfield := List.mem_append.1 hfield
    · exact h.2 field hfield
    · rw [List.mem_singleton.1 hfield]
      exact hv

theorem isProper_collect {fields : List (String × Json)} (h : isProperFields fields = true) :
    isProper (.object (collect fields)) = true := by
  have hfold : ∀ found, isProper (.object found) = true → isProper (.object
      (fields.foldl (fun found field => Json.set found field.1 field.2) found)) = true := by
    induction fields with
    | nil => exact fun _ hfound => hfound
    | cons field fields ih =>
      obtain ⟨key, value⟩ := field
      rw [isProperFields, Bool.and_eq_true] at h
      exact fun found hfound => ih h.2 _ (isProper_object_set hfound h.1)
  exact hfold [] rfl

theorem isFinite_ofLiteral {cs : List Char} {n : Number} (h : Number.ofLiteral cs = some n) :
    isFinite n = true := by
  simp only [Number.ofLiteral, Option.ite_none_left_eq_some, Option.map_eq_some_iff] at h
  obtain ⟨-, d, -, rfl⟩ := h
  rfl

mutual

theorem isProper_parseValue : ∀ (fuel : ℕ) (cs : List Char) {v : Json} {rest : List Char},
    parseValue fuel cs = some (v, rest) → isProper v = true
  | 0, _, _, _, h => by cases h
  | fuel + 1, cs, v, rest, h => by
    rw [parseValue.eq_def] at h
    dsimp only at h
    split at h
    · cases h; rfl
    · cases h; rfl
    · cases h; rfl
    · obtain ⟨s, -, heq⟩ := Option.map_eq_some_iff.1 h
      cases heq
      rfl
    · split at h
      · cases h; rfl
      · obtain ⟨⟨items, rest'⟩, hitems, heq⟩ := Option.map_eq_some_iff.1 h
        cases heq
        exact isProper_parseItems fuel _ hitems
    · split at h
      · cases h; rfl
      · obtain ⟨⟨fields, rest'⟩, hfields, heq⟩ := Option.map_eq_some_iff.1 h
        cases heq
        exact isProper_collect (isProper_parseFields fuel _ hfields)
    · obtain ⟨n, hn, heq⟩ := Option.map_eq_some_iff.1 h
      cases heq
      exact isFinite_ofLiteral hn

theorem isProper_parseItems : ∀ (fuel : ℕ) (cs : List Char) {items : List Json}
    {rest : List Char}, parseItems fuel cs = some (items, rest) → isProperItems items = true
  | 0, _, _, _, h => by cases h
  | fuel + 1, cs, items, rest, h => by
    rw [parseItems.eq_def] at h
    dsimp only at h
    split at h
    · cases h
    · next item rest' hitem =>
      have hproper := isProper_parseValue fuel _ hitem
      split at h
      · obtain ⟨⟨items', rest''⟩, hitems, heq⟩ := Option.map_eq_some_iff.1 h
        cases heq
        rw [isProperItems, hproper, isProper_parseItems fuel _ hitems]
        rfl
      · cases h
        rw [isProperItems, hproper]
        rfl
      · cases h

theorem isProper_parseFields : ∀ (fuel : ℕ) (cs : List Char) {fields : List (String × Json)}
    {rest : List Char}, parseFields fuel cs = some (fields, rest) → isProperFields fields = true
  | 0, _, _, _, h => by cases h
  | fuel + 1, cs, fields, rest, h => by
    rw [parseFields.eq_def] at h
    dsimp only at h
    split at h
    · cases h
    · split at h
      · cases h
      · next value rest' hvalue =>
        have hproper := isProper_parseValue fuel _ hvalue
        split at h
        · obtain ⟨⟨fields', rest''⟩, hfields, heq⟩ := Option.map_eq_some_iff.1 h
          cases heq
          rw [isProperFields, hproper, isProper_parseFields fuel _ hfields]
          rfl
        · cases h
          rw [isProperFields, hproper]
          rfl
        · cases h

end

/-- What is read of a text is proper. -/
theorem isProper_parse {text : String} {v : Json} (h : parse text = some v) :
    isProper v = true := by
  rw [parse] at h
  split at h
  · next value rest hvalue =>
    split at h
    · cases h
      exact isProper_parseValue _ _ hvalue
    · cases h
  · cases h

end Json

end Js
