import Maximal.Lib.Js.Value
import Maximal.Lib.Pointwise

/-!
# Schemas of JSON values

A schema checks a value and returns it again. Of an object only the declared fields are returned,
unless the object is loose.

## Main definitions

- `Js.Schema`, `Js.Shape` — schemas, and the declared fields of an object
- `Js.Schema.parse` — the value that is returned, if the check succeeds
- `Js.Json.kindAt` — what stands at a path in a value
- `Js.Schema.keeps` — no step of the path is dropped

## Main results

- `Js.Schema.kindAt_parse` — along the paths that are kept the value is the same
-/

namespace Js

mutual

inductive Schema where
  /-- Any value at all. -/
  | any
  | string (ok : String → Bool)
  | number (ok : Number → Bool)
  | boolean
  | array (item : Schema)
  | record (value : Schema)
  | object (loose : Bool) (shape : Shape)

inductive Shape where
  | nil
  | cons (key : String) (optional : Bool) (value : Schema) (rest : Shape)

end

mutual

def Schema.parse : Schema → Json → Option Json
  | .any, value => some value
  | .string ok, .string s => if ok s then some (.string s) else none
  | .number ok, .number n => if ok n then some (.number n) else none
  | .boolean, .bool b => some (.bool b)
  | .array item, .array items => (items.mapM item.parse).map .array
  | .record value, .object fields =>
    (fields.mapM fun field => (value.parse field.2).map fun v => (field.1, v)).map .object
  | .object loose shape, .object fields =>
    (shape.parse fields).map fun declared =>
      .object (declared ++ if loose then fields.filter fun field => !shape.declares field.1 else [])
  | _, _ => none

def Shape.parse : Shape → List (String × Json) → Option (List (String × Json))
  | .nil, _ => some []
  | .cons key optional value rest, fields =>
    match fields.lookup key with
    | none => if optional then rest.parse fields else none
    | some v => do
      let w ← value.parse v
      let ws ← rest.parse fields
      return (key, w) :: ws

def Shape.declares : Shape → String → Bool
  | .nil, _ => false
  | .cons key _ _ rest, k => k = key || rest.declares k

end

/-! ## Paths -/

inductive Step where
  | key (k : String)
  | index (i : ℕ)
  deriving DecidableEq

abbrev Path := List Step

def Json.child : Json → Step → Val
  | .object fields, .key k => fields.lookup k
  | .array items, .index i => items[i]?
  | _, _ => none

/-- What stands in a value at a path. -/
def Json.valueAt (value : Json) (path : Path) : Val := path.foldlM Json.child value

inductive Kind where
  | null
  | bool (b : Bool)
  | number (n : Number)
  | string (s : String)
  | array
  | object
  deriving DecidableEq

def Json.kind : Json → Kind
  | .null => .null
  | .bool b => .bool b
  | .number n => .number n
  | .string s => .string s
  | .array _ => .array
  | .object _ => .object

/-- A scalar, or that there is a list or an object. -/
def Json.kindAt (value : Json) (path : Path) : Option Kind := (value.valueAt path).map Json.kind

/-- The schema of a declared field. -/
def Shape.find : Shape → String → Option Schema
  | .nil, _ => none
  | .cons key _ value rest, k => if k = key then some value else rest.find k

/-- The schema under a step; a step under which there is none is dropped. -/
def Schema.under : Schema → Step → Option Schema
  | .any, _ => some .any
  | .array item, .index _ => some item
  | .record value, .key _ => some value
  | .object loose shape, .key k => (shape.find k).or (if loose then some .any else none)
  | _, _ => none

def Schema.keeps (schema : Schema) (path : Path) : Bool := (path.foldlM Schema.under schema).isSome

theorem Json.kindAt_nil (value : Json) : value.kindAt [] = some value.kind := rfl

theorem Json.kindAt_cons (value : Json) (step : Step) (path : Path) :
    value.kindAt (step :: path) = (value.child step).bind fun v => v.kindAt path := by
  rw [kindAt, valueAt, List.foldlM_cons]
  cases value.child step <;> rfl

theorem Schema.keeps_cons (schema : Schema) (step : Step) (path : Path) :
    schema.keeps (step :: path) = (schema.under step).any fun s => s.keeps path := by
  rw [keeps, List.foldlM_cons]
  cases schema.under step <;> rfl

/-! ## What a schema returns -/

theorem Shape.declares_eq (shape : Shape) (k : String) :
    shape.declares k = (shape.find k).isSome := by
  match shape with
  | .nil => rfl
  | .cons key optional value rest =>
    rw [declares, find]
    by_cases h : k = key
    · simp [h]
    · simp [h, Shape.declares_eq rest k]

theorem Shape.lookup_parse_of_none {shape : Shape} {fields fields' : List (String × Json)}
    (h : shape.parse fields = some fields') {k : String} (hk : shape.find k = none) :
    fields'.lookup k = none := by
  match shape with
  | .nil =>
    obtain rfl := Option.some.inj h
    rfl
  | .cons key optional value rest =>
    rw [find] at hk
    split at hk
    · cases hk
    · next hne =>
      rw [Shape.parse] at h
      cases hlookup : fields.lookup key with
      | none =>
        rw [hlookup] at h
        cases optional with
        | false => cases h
        | true => exact lookup_parse_of_none h hk
      | some v =>
        rw [hlookup] at h
        obtain ⟨w, -, h⟩ := Option.bind_eq_some_iff.1 h
        obtain ⟨ws, hws, h⟩ := Option.bind_eq_some_iff.1 h
        obtain rfl := Option.some.inj h
        rw [List.lookup_cons, beq_false_of_ne hne]
        exact lookup_parse_of_none hws hk

theorem Shape.lookup_parse_of_absent {shape : Shape} {fields fields' : List (String × Json)}
    (h : shape.parse fields = some fields') {k : String} (hk : fields.lookup k = none) :
    fields'.lookup k = none := by
  match shape with
  | .nil =>
    obtain rfl := Option.some.inj h
    rfl
  | .cons key optional value rest =>
    rw [Shape.parse] at h
    cases hlookup : fields.lookup key with
    | none =>
      rw [hlookup] at h
      cases optional with
      | false => cases h
      | true => exact lookup_parse_of_absent h hk
    | some v =>
      rw [hlookup] at h
      obtain ⟨w, -, h⟩ := Option.bind_eq_some_iff.1 h
      obtain ⟨ws, hws, h⟩ := Option.bind_eq_some_iff.1 h
      obtain rfl := Option.some.inj h
      have hne : k ≠ key := fun heq => by
        rw [heq, hlookup] at hk
        cases hk
      rw [List.lookup_cons, beq_false_of_ne hne]
      exact lookup_parse_of_absent hws hk

theorem Shape.lookup_parse {shape : Shape} {fields fields' : List (String × Json)}
    (h : shape.parse fields = some fields') {k : String} {s : Schema} (hk : shape.find k = some s) :
    (fields.lookup k).map s.parse = (fields'.lookup k).map some := by
  match shape with
  | .nil => cases hk
  | .cons key optional value rest =>
    rw [Shape.parse] at h
    rw [find] at hk
    cases hlookup : fields.lookup key with
    | none =>
      rw [hlookup] at h
      cases optional with
      | false => cases h
      | true =>
        split at hk
        · next heq =>
          subst heq
          rw [hlookup, Shape.lookup_parse_of_absent h hlookup]
          rfl
        · exact lookup_parse h hk
    | some v =>
      rw [hlookup] at h
      obtain ⟨w, hw, h⟩ := Option.bind_eq_some_iff.1 h
      obtain ⟨ws, hws, h⟩ := Option.bind_eq_some_iff.1 h
      obtain rfl := Option.some.inj h
      rw [List.lookup_cons]
      split at hk
      · next heq =>
        subst heq
        obtain rfl := Option.some.inj hk
        rw [beq_self_eq_true, hlookup]
        exact congrArg some hw
      · next hne =>
        rw [beq_false_of_ne hne]
        exact lookup_parse hws hk

theorem lookup_filter {p : String → Bool} (fields : List (String × Json)) (k : String) :
    (fields.filter fun field => p field.1).lookup k = if p k then fields.lookup k else none := by
  induction fields with
  | nil => exact (ite_self _).symm
  | cons field fields ih =>
    obtain ⟨key, v⟩ := field
    rw [List.filter_cons, List.lookup_cons]
    dsimp only
    by_cases hk : k = key
    · subst hk
      rw [beq_self_eq_true]
      cases hp : p k with
      | true => exact List.lookup_cons_self
      | false => rw [if_neg Bool.false_ne_true, ih, hp]; rfl
    · rw [beq_false_of_ne hk, ← ih]
      cases hp : p key with
      | true => rw [if_pos rfl, List.lookup_cons, beq_false_of_ne hk]
      | false => rfl

theorem lookup_mapM {f : Json → Option Json} {fields fields' : List (String × Json)}
    (h : (fields.mapM fun field => (f field.2).map fun v => (field.1, v)) = some fields')
    (k : String) : (fields.lookup k).map f = (fields'.lookup k).map some := by
  have hitems := List.mapM_forall₂ h
  clear h
  induction hitems with
  | nil => rfl
  | @cons field field' _ _ hfield _ ih =>
    obtain ⟨v, hv, rfl⟩ := Option.map_eq_some_iff.1 hfield
    rw [List.lookup_cons, List.lookup_cons]
    by_cases hk : k = field.1
    · rw [beq_iff_eq.2 hk]
      exact congrArg some hv
    · rw [beq_false_of_ne hk]
      exact ih

namespace Schema

theorem kind_parse {schema : Schema} {value value' : Json} (h : schema.parse value = some value') :
    value'.kind = value.kind := by
  rw [parse.eq_def] at h
  split at h
  case h_1 => rw [Option.some.inj h]
  case h_2 =>
    split at h
    · rw [← Option.some.inj h]
    · cases h
  case h_3 =>
    split at h
    · rw [← Option.some.inj h]
    · cases h
  case h_4 => rw [← Option.some.inj h]
  case h_5 =>
    obtain ⟨_, -, rfl⟩ := Option.map_eq_some_iff.1 h
    rfl
  case h_6 =>
    obtain ⟨_, -, rfl⟩ := Option.map_eq_some_iff.1 h
    rfl
  case h_7 =>
    obtain ⟨_, -, rfl⟩ := Option.map_eq_some_iff.1 h
    rfl
  case h_8 => cases h

/-- The children are those of the value, each as the schema under its step returns it. -/
theorem child_parse {schema : Schema} {value value' : Json} (h : schema.parse value = some value')
    (step : Step) :
    match schema.under step with
    | none => value'.child step = none
    | some s => (value.child step).map s.parse = (value'.child step).map some := by
  rw [parse.eq_def] at h
  split at h
  case h_1 =>
    obtain rfl := Option.some.inj h
    rfl
  case h_2 =>
    split at h
    · obtain rfl := Option.some.inj h
      rfl
    · cases h
  case h_3 =>
    split at h
    · obtain rfl := Option.some.inj h
      rfl
    · cases h
  case h_4 =>
    obtain rfl := Option.some.inj h
    rfl
  case h_5 item items =>
    obtain ⟨items', hitems, rfl⟩ := Option.map_eq_some_iff.1 h
    cases step with
    | key k => rfl
    | index i => exact List.getElem?_mapM hitems i
  case h_6 field fields =>
    obtain ⟨fields', hfields, rfl⟩ := Option.map_eq_some_iff.1 h
    cases step with
    | key k => exact lookup_mapM hfields k
    | index i => rfl
  case h_7 loose shape fields =>
    obtain ⟨fields', hfields, rfl⟩ := Option.map_eq_some_iff.1 h
    cases step with
    | index i => rfl
    | key k =>
      have hrest : (if loose then fields.filter fun field => !shape.declares field.1 else []).lookup k =
          if loose && !(shape.find k).isSome then fields.lookup k else none := by
        cases loose with
        | false => rfl
        | true =>
          rw [if_pos rfl, lookup_filter (p := fun k => !shape.declares k), shape.declares_eq,
            Bool.true_and]
      rw [Json.child, Json.child, under, List.lookup_append, hrest]
      cases hfind : shape.find k with
      | none =>
        rw [Shape.lookup_parse_of_none hfields hfind]
        cases loose with
        | false => rfl
        | true => rfl
      | some s =>
        dsimp only [Option.or]
        rw [Shape.lookup_parse hfields hfind]
        cases fields'.lookup k <;> simp
  case h_8 => cases h

theorem exists_object_of_parse {loose : Bool} {shape : Shape} {value value' : Json}
    (h : (Schema.object loose shape).parse value = some value') :
    ∃ fields fields', value = .object fields ∧ value' = .object fields' := by
  cases value with
  | object fields =>
    obtain ⟨declared, -, rfl⟩ := Option.map_eq_some_iff.1 h
    exact ⟨fields, _, rfl, rfl⟩
  | _ => cases h

theorem exists_items_of_parse {item : Schema} {value value' : Json}
    (h : (Schema.array item).parse value = some value') :
    ∃ items items', value = .array items ∧ value' = .array items' ∧
      items.mapM item.parse = some items' := by
  cases value with
  | array items =>
    obtain ⟨items', hitems, rfl⟩ := Option.map_eq_some_iff.1 h
    exact ⟨items, items', rfl, rfl, hitems⟩
  | _ => cases h

/-- Along the paths that are kept the value is the same, and nothing is left of the others. -/
theorem kindAt_parse {schema : Schema} {value value' : Json} (h : schema.parse value = some value')
    (path : Path) : value'.kindAt path = if schema.keeps path then value.kindAt path else none := by
  induction path generalizing schema value value' with
  | nil => rw [Json.kindAt_nil, Json.kindAt_nil, kind_parse h]; rfl
  | cons step path ih =>
    have hchild := child_parse h step
    rw [Json.kindAt_cons, Json.kindAt_cons, keeps_cons]
    cases hunder : schema.under step with
    | none =>
      rw [hunder] at hchild
      rw [hchild]
      rfl
    | some s =>
      rw [hunder] at hchild
      rw [Option.any_some]
      cases hv : value.child step with
      | none =>
        rw [hv] at hchild
        rw [Option.map_eq_none_iff.1 hchild.symm]
        exact (ite_self _).symm
      | some v =>
        rw [hv] at hchild
        obtain ⟨v', hv', hparse⟩ := Option.map_eq_some_iff.1 hchild.symm
        rw [hv', Option.bind_some, Option.bind_some]
        exact ih hparse.symm

end Schema

end Js
