import Maximal.Lib.Js.Number
import Mathlib.Data.List.Basic

/-!
# Values a JavaScript program reads from parsed JSON

`Json` is the result of `JSON.parse`, and `Val` adds `undefined`, the value of a field that is
not there. Reading a field of `undefined` or `null` throws, and so does turning an object into a
text or a number when it has a field `toString` of its own, which shadows the inherited method
by something that cannot be called.

## Main definitions

- `Js.Json`, `Js.Val`, `Js.TypeError`
- `Js.Val.prop`, `Js.Val.optProp` — `v.k` and `v?.k`
- `Js.Val.truthy`, `Js.Val.text`, `Js.Val.toNumber` — the implicit conversions
- `Js.Val.plus`, `Js.Val.minus` — `a + b` and `a - b`
- `Js.Val.printable` — whether a value converts to a text

## Main results

- `Js.Val.isOk_text`, `Js.Val.isOk_toNumber` — the conversions throw exactly on values that are
  not printable
-/

namespace Js

/-- What a throwing operation of the language was about to do. -/
inductive TypeError where
  | readOfNullish
  | notPrimitive
  | notIterable
  | notFunction
  deriving DecidableEq, Repr

inductive Json where
  | null
  | bool (b : Bool)
  | number (n : Number)
  | string (s : String)
  | array (items : List Json)
  | object (fields : List (String × Json))

/-- A JSON value or `undefined`. -/
abbrev Val := Option Json

/-- A computation that does not throw has not thrown in its first step. -/
theorem exists_of_bind_eq_ok {ε α β : Type} {x : Except ε α} {f : α → Except ε β} {b : β}
    (h : (x >>= f) = .ok b) : ∃ a, x = .ok a ∧ f a = .ok b := by
  cases x with
  | error e => cases h
  | ok a => exact ⟨a, rfl, h⟩

theorem exists_of_map_eq_ok {ε α β : Type} {x : Except ε α} {f : α → β} {b : β}
    (h : x.map f = .ok b) : ∃ a, x = .ok a ∧ f a = b := by
  cases x with
  | error e => cases h
  | ok a => exact ⟨a, rfl, Except.ok.inj h⟩

namespace Json

def isNull : Json → Bool
  | .null => true
  | _ => false

/-- `typeof value === "object" && value !== null`. -/
def isRecord : Json → Bool
  | .array _ => true
  | .object _ => true
  | _ => false

/-- The length of a text in UTF-16 code units. -/
def utf16Length (s : String) : ℕ :=
  (s.toList.map fun c => if c.toNat < 0x10000 then 1 else 2).sum

theorem utf16Length_pos {s : String} (h : s ≠ "") : 0 < utf16Length s := by
  obtain ⟨c, cs, hcs⟩ := List.exists_cons_of_ne_nil (mt String.toList_eq_nil_iff.1 h)
  rw [utf16Length, hcs, List.map_cons, List.sum_cons]
  split <;> omega

/-- A property of a value other than `null`; inherited properties play no role for the names that
the programs read. -/
def get : Json → String → Val
  | .object fields, k => fields.lookup k
  | .array items, k => if k = "length" then some (.number (.ofNat items.length)) else none
  | .string s, k => if k = "length" then some (.number (.ofNat (utf16Length s))) else none
  | _, _ => none

/-- The field `k` set to `v`. -/
def set (fields : List (String × Json)) (k : String) (v : Json) : List (String × Json) :=
  if fields.any (·.1 == k) then fields.map fun f => if f.1 = k then (k, v) else f
  else fields ++ [(k, v)]

theorem lookup_set_self (fields : List (String × Json)) (k : String) (v : Json) :
    (set fields k v).lookup k = some v := by
  rw [set]
  split
  · next hany =>
    induction fields with
    | nil => cases hany
    | cons f fields ih =>
      rw [List.map_cons]
      by_cases hf : f.1 = k
      · rw [if_pos hf, List.lookup_cons_self]
      · rw [if_neg hf, List.lookup_cons, beq_false_of_ne (Ne.symm hf)]
        exact ih (by simpa [hf] using hany)
  · next hany =>
    have hnone : fields.lookup k = none := by
      rw [List.lookup_eq_none_iff]
      intro f hf
      have hne : f.1 ≠ k := fun heq => hany (List.any_eq_true.2 ⟨f, hf, beq_iff_eq.2 heq⟩)
      simpa using hne.symm
    simp [List.lookup_append, hnone]

theorem lookup_set_of_ne (fields : List (String × Json)) {k k' : String} (v : Json) (h : k' ≠ k) :
    (set fields k v).lookup k' = fields.lookup k' := by
  rw [set]
  split
  · clear * - h
    induction fields with
    | nil => rfl
    | cons f fields ih =>
      obtain ⟨l, w⟩ := f
      rw [List.map_cons]
      by_cases hl : l = k
      · rw [if_pos hl, List.lookup_cons, List.lookup_cons, beq_false_of_ne h,
          beq_false_of_ne (hl ▸ h)]
        exact ih
      · rw [if_neg hl, List.lookup_cons, List.lookup_cons, ih]
  · simp [List.lookup_append, List.lookup_cons, beq_false_of_ne h]

def truthy : Json → Bool
  | .null => false
  | .bool b => b
  | .number n => n.truthy
  | .string s => s ≠ ""
  | .array _ => true
  | .object _ => true

/-- An object whose inherited `toString` is shadowed by one of its own fields. -/
def shadowsToString (fields : List (String × Json)) : Bool := fields.any (·.1 == "toString")

mutual

/-- `String(value)`: an array joins the texts of its items, leaving those of `null` empty. -/
def text : Json → Except TypeError String
  | .null => .ok "null"
  | .bool b => .ok (if b then "true" else "false")
  | .number n => .ok n.text
  | .string s => .ok s
  | .array items => (itemTexts items).map (String.intercalate ",")
  | .object fields =>
    if shadowsToString fields then .error .notPrimitive else .ok "[object Object]"

def itemTexts : List Json → Except TypeError (List String)
  | [] => .ok []
  | item :: items =>
    (if item.isNull then .ok "" else text item).bind fun t => (itemTexts items).map (t :: ·)

end

mutual

/-- No object that the conversion to a text meets shadows `toString`. -/
def printable : Json → Bool
  | .array items => printableItems items
  | .object fields => !shadowsToString fields
  | _ => true

def printableItems : List Json → Bool
  | [] => true
  | item :: items => printable item && printableItems items

end

theorem isOk_map {α β : Type} {x : Except TypeError α} {f : α → β} :
    (x.map f).isOk = x.isOk := by
  cases x <;> rfl

mutual

theorem isOk_text : ∀ j : Json, (text j).isOk = printable j
  | .null | .bool _ | .number _ | .string _ => rfl
  | .array items => by rw [text, printable, isOk_map, isOk_itemTexts items]
  | .object fields => by
    rw [text, printable]
    cases shadowsToString fields <;> rfl

theorem isOk_itemTexts : ∀ js : List Json, (itemTexts js).isOk = printableItems js
  | [] => rfl
  | item :: items => by
    rw [itemTexts, printableItems, ← isOk_text item, ← isOk_itemTexts items]
    have hnull : (if item.isNull then Except.ok "" else text item).isOk = (text item).isOk := by
      cases item <;> rfl
    rw [← hnull]
    cases (if item.isNull then Except.ok "" else text item) with
    | error e => rfl
    | ok t => exact isOk_map

end

end Json

namespace Val

open Json

/-- `v?.k`. -/
def optProp : Val → String → Val
  | none, _ => none
  | some j, k => j.get k

/-- `v.k`. -/
def prop : Val → String → Except TypeError Val
  | none, _ => .error .readOfNullish
  | some .null, _ => .error .readOfNullish
  | some j, k => .ok (j.get k)

def truthy : Val → Bool
  | none => false
  | some j => j.truthy

/-- `v ?? d`. -/
def orElse : Val → Json → Json
  | none, d => d
  | some .null, d => d
  | some j, _ => j

/-- `v` when `typeof v === "string"`. -/
def asString : Val → Option String
  | some (.string s) => some s
  | _ => none

/-- `v` when `Array.isArray(v)`. -/
def asBool : Val → Option Bool
  | some (.bool b) => some b
  | _ => none

def asArray : Val → Option (List Json)
  | some (.array items) => some items
  | _ => none

/-- `asRecord(v)`: arrays count as records. -/
def asRecord : Val → Val
  | some j => if j.isRecord then some j else none
  | none => none

def text : Val → Except TypeError String
  | none => .ok "undefined"
  | some j => j.text

def printable : Val → Bool
  | none => true
  | some j => j.printable

theorem isOk_text (v : Val) : v.text.isOk = v.printable := by
  cases v with
  | none => rfl
  | some j => exact Json.isOk_text j

/-- `ToNumber`. -/
def toNumber : Val → Except TypeError Number
  | none => .ok .nan
  | some .null => .ok (.ofNat 0)
  | some (.bool b) => .ok (.ofNat b.toNat)
  | some (.number n) => .ok n
  | some (.string s) => .ok (.ofText s)
  | some j => j.text.map .ofText

theorem isOk_toNumber (v : Val) : v.toNumber.isOk = v.printable := by
  cases v with
  | none => rfl
  | some j =>
    cases j with
    | array items => exact isOk_map.trans (Json.isOk_text (.array items))
    | object fields => exact isOk_map.trans (Json.isOk_text (.object fields))
    | _ => rfl

/-- `a - b`. -/
def minus (a b : Val) : Except TypeError Number := do
  let x ← a.toNumber
  let y ← b.toNumber
  return x.sub y

theorem isOk_minus (a b : Val) : (minus a b).isOk = (a.printable && b.printable) := by
  rw [← isOk_toNumber, ← isOk_toNumber, minus]
  cases a.toNumber <;> cases b.toNumber <;> rfl

/-- The operator `+` joins texts when one of its operands is a text or an object. -/
def joinsTexts : Val → Bool
  | some (.string _) => true
  | some (.array _) => true
  | some (.object _) => true
  | _ => false

/-- `a + b`. -/
def plus (a b : Val) : Except TypeError Json :=
  if joinsTexts a || joinsTexts b then do
    let x ← a.text
    let y ← b.text
    return .string (x ++ y)
  else do
    let x ← a.toNumber
    let y ← b.toNumber
    return .number (x.add y)

/-- `v && v.length > 0`. -/
def hasLength (v : Val) : Except TypeError Bool :=
  if v.truthy then (optProp v "length").toNumber.map Number.isPositive else .ok false

theorem isOk_hasLength (v : Val) :
    v.hasLength.isOk = (!v.truthy || (v.optProp "length").printable) := by
  rw [hasLength]
  cases v.truthy with
  | false => rfl
  | true => exact isOk_map.trans (isOk_toNumber _)

end Val

end Js
