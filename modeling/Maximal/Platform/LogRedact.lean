import Maximal.Lib.Js.Equality

/-!
# Redaction for logs

A log shows the structure of a payload: a text is kept under a key of an allowlist, and replaced by
its length under any other key. The key alone decides, whatever the text is part of.

## Main definitions

- `redactForLog`
- `Alike` — payloads that differ in texts of equal length inside content only
- `Leaks` — a text that differs sits under a structural key

## Main results

- `redactForLog_eq_iff` — when a log does not tell such payloads apart
-/

namespace Maximal.Platform

open Js Json

/-! ## Redaction -/

def STRUCTURAL_STRING_KEYS : List String :=
  ["model", "object", "provider", "kind", "status", "source", "service_tier", "encoding",
    "role", "type", "name", "tool_name", "function_name",
    "stop_reason", "finish_reason", "stop",
    "id", "request_id", "session_id", "trace_id", "tool_use_id", "tool_call_id",
    "anthropic_version", "anthropic_beta", "version", "schema_version",
    "media_type", "mime_type", "detail",
    "reasoning_effort", "effort", "authtype",
    "syscall", "hostname", "address"]

/-- The lower case of a character of a key; beside the letters of ASCII, the Kelvin sign is the
only character whose lower case is in ASCII. -/
def lowerKeyChar (c : Char) : Char := if c.toNat = 0x212A then 'k' else c.toLower

/-- `[redacted N chars]`. -/
def redactString (value : String) : String :=
  "[redacted " ++ (Number.ofNat (utf16Length value)).text ++ " chars]"

def isStructuralKey (key : Option String) : Bool :=
  key.any fun k => String.ofList (k.toList.map lowerKeyChar) ∈ STRUCTURAL_STRING_KEYS

/-- `out[key] = value`: the name `__proto__` takes an object or `null` for the prototype, shown
here as a field, and ignores any other value. -/
def assign (key : String) (value : Json) (fields : List (String × Json)) : List (String × Json) :=
  if key = "__proto__" ∧ !(value.isRecord || value.isNull) then fields else (key, value) :: fields

mutual

/-- A value of parsed JSON contains no value twice, so that no cycle is met. -/
def redactValue (keyContext : Option String) : Json → Json
  | .string value => .string (if isStructuralKey keyContext then value else redactString value)
  | .array items => .array (redactItems keyContext items)
  | .object fields => .object (redactFields fields)
  | value => value

def redactItems (keyContext : Option String) : List Json → List Json
  | [] => []
  | item :: items => redactValue keyContext item :: redactItems keyContext items

def redactFields : List (String × Json) → List (String × Json)
  | [] => []
  | (key, inner) :: fields => assign key (redactValue (some key) inner) (redactFields fields)

end

def redactForLog (value : Json) : Json := redactValue none value

/-! ## Payloads -/

/-- A field whose texts are content: the input of a `tool_use`, the content of a `tool_result`,
the text of a text block, or the text that is the content of a message. -/
def isContent (object : Json) (key : String) (value : Json) : Bool :=
  let type := (object.get "type").asString
  type = some "tool_use" && key = "input" ||
    type = some "tool_result" && key = "content" ||
    type.any (["text", "input_text", "output_text"].contains ·) && key = "text" ||
    (object.get "role").isSome && key = "content" && (Val.asString (some value)).isSome

mutual

/-- The values differ in nothing but texts of equal length inside content. -/
def Alike (inside : Bool) : Json → Json → Prop
  | .string s, .string t => s = t ∨ inside = true ∧ utf16Length s = utf16Length t
  | .array xs, .array ys => AlikeItems inside xs ys
  | .object fs, .object gs => AlikeFields inside (.object fs) fs gs
  | v, w => v = w

def AlikeItems (inside : Bool) : List Json → List Json → Prop
  | [], [] => True
  | v :: xs, w :: ys => Alike inside v w ∧ AlikeItems inside xs ys
  | _, _ => False

def AlikeFields (inside : Bool) (object : Json) :
    List (String × Json) → List (String × Json) → Prop
  | [], [] => True
  | (k, v) :: fs, (l, w) :: gs =>
    k = l ∧ Alike (inside || isContent object k v) v w ∧ AlikeFields inside object fs gs
  | _, _ => False

end

mutual

/-- A text that differs sits under a structural key. -/
def Leaks (keyContext : Option String) : Json → Json → Prop
  | .string s, .string t => isStructuralKey keyContext = true ∧ s ≠ t
  | .array xs, .array ys => LeaksItems keyContext xs ys
  | .object fs, .object gs => LeaksFields fs gs
  | _, _ => False

def LeaksItems (keyContext : Option String) : List Json → List Json → Prop
  | v :: xs, w :: ys => Leaks keyContext v w ∨ LeaksItems keyContext xs ys
  | _, _ => False

def LeaksFields : List (String × Json) → List (String × Json) → Prop
  | (k, v) :: fs, (_, w) :: gs => Leaks (some k) v w ∨ LeaksFields fs gs
  | _, _ => False

end

/-! ## Two runs -/

theorem redactString_congr {s t : String} (h : utf16Length s = utf16Length t) :
    redactString s = redactString t := by
  rw [redactString, h, ← redactString]

theorem redactString_eq_iff (key : Option String) {s t : String}
    (h : utf16Length s = utf16Length t) :
    (if isStructuralKey key then s else redactString s) =
        (if isStructuralKey key then t else redactString t) ↔
      ¬ (isStructuralKey key = true ∧ s ≠ t) := by
  by_cases hkey : isStructuralKey key = true
  · rw [if_pos hkey, if_pos hkey]
    tauto
  · rw [if_neg hkey, if_neg hkey]
    exact iff_of_true (redactString_congr h) fun hleak => hkey hleak.1

/-- A value that `__proto__` ignores is a text or a constant, and no text is kept there. -/
theorem Leaks.proto {v w : Json} (hleak : Leaks (some "__proto__") v w) : v.isRecord = true := by
  have hkey : isStructuralKey (some "__proto__") = false := by decide
  cases v <;> cases w <;> simp_all [Leaks, isRecord]

theorem isRecord_redactValue (key : Option String) (v : Json) :
    (redactValue key v).isRecord = v.isRecord := by
  cases v <;> rfl

theorem isNull_redactValue (key : Option String) (v : Json) :
    (redactValue key v).isNull = v.isNull := by
  cases v <;> rfl

theorem Alike.isRecord_eq {inside : Bool} {v w : Json} (h : Alike inside v w) :
    v.isRecord = w.isRecord := by
  cases v <;> cases w <;> simp_all [Alike, isRecord]

theorem Alike.isNull_eq {inside : Bool} {v w : Json} (h : Alike inside v w) :
    v.isNull = w.isNull := by
  cases v <;> cases w <;> simp_all [Alike, isNull]

theorem assign_eq_iff (key : String) {inside : Bool} {v w : Json} (h : Alike inside v w)
    {fs gs : List (String × Json)} {Q : Prop}
    (hhead : redactValue (some key) v = redactValue (some key) w ↔ ¬ Leaks (some key) v w)
    (htail : fs = gs ↔ ¬ Q) :
    assign key (redactValue (some key) v) fs = assign key (redactValue (some key) w) gs ↔
      ¬ (Leaks (some key) v w ∨ Q) := by
  simp only [assign, isRecord_redactValue, isNull_redactValue, ← h.isRecord_eq, ← h.isNull_eq]
  rw [not_or, ← hhead, ← htail]
  by_cases hlost : key = "__proto__" ∧ !(v.isRecord || v.isNull)
  · obtain ⟨rfl, hconst⟩ := hlost
    have hquiet : ¬ Leaks (some "__proto__") v w := fun hleak => by
      rw [hleak.proto] at hconst
      cases hconst
    rw [if_pos ⟨rfl, hconst⟩, if_pos ⟨rfl, hconst⟩]
    exact (and_iff_right (hhead.2 hquiet)).symm
  · rw [if_neg hlost, if_neg hlost, List.cons.injEq, Prod.mk.injEq, eq_self_iff_true, true_and]

mutual

theorem redactValue_eq_iff (key : Option String) (inside : Bool) : ∀ v w : Json,
    Alike inside v w → (redactValue key v = redactValue key w ↔ ¬ Leaks key v w)
  | .string s, w, h => by
    cases w with
    | string t =>
      rw [redactValue, redactValue, string.injEq, Leaks]
      rw [Alike] at h
      have hlength : utf16Length s = utf16Length t := h.elim (congrArg utf16Length) And.right
      exact redactString_eq_iff key hlength
    | _ => simp [Alike] at h
  | .array xs, w, h => by
    cases w with
    | array ys =>
      rw [redactValue, redactValue, array.injEq, Leaks]
      rw [Alike] at h
      exact redactItems_eq_iff key inside xs ys h
    | _ => simp [Alike] at h
  | .object fs, w, h => by
    cases w with
    | object gs =>
      rw [redactValue, redactValue, object.injEq, Leaks]
      rw [Alike] at h
      exact redactFields_eq_iff inside (.object fs) fs gs h
    | _ => simp [Alike] at h
  | .null, w, h => by cases w <;> simp_all [Alike, Leaks]
  | .bool a, w, h => by cases w <;> simp_all [Alike, Leaks]
  | .number n, w, h => by cases w <;> simp_all [Alike, Leaks]

theorem redactItems_eq_iff (key : Option String) (inside : Bool) : ∀ xs ys : List Json,
    AlikeItems inside xs ys → (redactItems key xs = redactItems key ys ↔ ¬ LeaksItems key xs ys)
  | [], [], _ => by simp [LeaksItems]
  | [], _ :: _, h => by simp [AlikeItems] at h
  | _ :: _, [], h => by simp [AlikeItems] at h
  | v :: xs, w :: ys, h => by
    rw [AlikeItems] at h
    rw [redactItems, redactItems, List.cons.injEq, LeaksItems, not_or,
      redactValue_eq_iff key inside v w h.1, redactItems_eq_iff key inside xs ys h.2]

theorem redactFields_eq_iff (inside : Bool) (object : Json) : ∀ fs gs : List (String × Json),
    AlikeFields inside object fs gs → (redactFields fs = redactFields gs ↔ ¬ LeaksFields fs gs)
  | [], [], _ => by simp [LeaksFields]
  | [], _ :: _, h => by simp [AlikeFields] at h
  | _ :: _, [], h => by simp [AlikeFields] at h
  | (k, v) :: fs, (l, w) :: gs, h => by
    rw [AlikeFields] at h
    obtain ⟨rfl, hvalue, hfields⟩ := h
    rw [redactFields, redactFields, LeaksFields]
    exact assign_eq_iff k hvalue (redactValue_eq_iff (some k) _ v w hvalue)
      (redactFields_eq_iff inside object fs gs hfields)

end

/-- The log tells two payloads apart exactly where a text of the content is the value, or in an
array that is the value, of a key that names structure elsewhere. -/
theorem redactForLog_eq_iff (p q : Json) (h : Alike false p q) :
    redactForLog p = redactForLog q ↔ ¬ Leaks none p q :=
  redactValue_eq_iff none false p q h

def toolUse (input : Json) : Json :=
  .object [("type", .string "tool_use"), ("name", .string "lookup"), ("input", input)]

theorem redactForLog_eq_iff_query :
    redactForLog (toolUse (.object [("query", .string "Alice")])) =
        redactForLog (toolUse (.object [("query", .string "Carol")])) ↔
      ¬ Leaks none (toolUse (.object [("query", .string "Alice")]))
        (toolUse (.object [("query", .string "Carol")])) :=
  redactForLog_eq_iff _ _ (by
    simp [toolUse, Alike, AlikeFields, isContent, Val.asString, Json.get]
    decide)

/-- The input of a tool may have a field `name`, and its text is written to the log. -/
theorem not_redactForLog_eq :
    ¬ ∀ p q : Json, Alike false p q → redactForLog p = redactForLog q := by
  intro h
  have halike : Alike false (toolUse (.object [("name", .string "Alice")]))
      (toolUse (.object [("name", .string "Carol")])) := by
    simp [toolUse, Alike, AlikeFields, isContent, Val.asString, Json.get]
    decide
  have hkept : redactForLog (toolUse (.object [("name", .string "Alice")])) ≠
      redactForLog (toolUse (.object [("name", .string "Carol")])) := by
    decide
  exact hkept (h _ _ halike)

end Maximal.Platform
