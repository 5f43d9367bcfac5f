import Maximal.Lib.Js.Equality
import Maximal.Lib.Js.NumberText

/-!
# The text of a value

`JSON.stringify` without indentation, and `JSON.parse`. Keys that look like array indices stay in
the place where they are read, and half a surrogate pair reads as a replacement character.

## Main definitions

- `Js.Json.stringify`, `Js.Json.parse`
- `Js.Json.reread` — what is read of the text of a value
- `Js.Json.isParsed` — the value is as `parse` builds it

## Main results

- `Js.Json.parse_stringify_reread`, `Js.Json.reread_eq` — such a value again
- `Js.Json.printable_stringifyChars` — the text is one line
-/

namespace Js

namespace Json

/-! ## Writing -/

def hexDigit (n : ℕ) : Char := if n < 10 then Char.ofNat (0x30 + n) else Char.ofNat (0x57 + n)

def escapeChar (c : Char) : List Char :=
  if c.toNat = 0x22 then ['\\', '\x22']
  else if c.toNat = 0x5C then ['\\', '\\']
  else if c.toNat = 0x08 then ['\\', 'b']
  else if c.toNat = 0x0C then ['\\', 'f']
  else if c.toNat = 0x0A then ['\\', 'n']
  else if c.toNat = 0x0D then ['\\', 'r']
  else if c.toNat = 0x09 then ['\\', 't']
  else if c.toNat < 0x20 then
    ['\\', 'u', '0', '0', hexDigit (c.toNat / 16), hexDigit (c.toNat % 16)]
  else [c]

def quote (s : String) : List Char := '\x22' :: (s.toList.flatMap escapeChar ++ ['\x22'])

def numberText : Number → List Char
  | .finite m e => (Number.finite m e).text.toList
  | _ => "null".toList

mutual

def stringifyChars : Json → List Char
  | .null => "null".toList
  | .bool b => if b then "true".toList else "false".toList
  | .number n => numberText n
  | .string s => quote s
  | .array items => '[' :: (itemsChars items ++ [']'])
  | .object fields => '\x7b' :: (fieldsChars fields ++ ['\x7d'])

def itemsChars : List Json → List Char
  | [] => []
  | item :: items => stringifyChars item ++ (if items.isEmpty then [] else ',' :: itemsChars items)

def fieldsChars : List (String × Json) → List Char
  | [] => []
  | (key, value) :: fields =>
    quote key ++ (':' :: (stringifyChars value ++
      (if fields.isEmpty then [] else ',' :: fieldsChars fields)))

end

def stringify (value : Json) : String := String.ofList (stringifyChars value)

/-! ## Reading -/

def isSpace (c : Char) : Bool := c.toNat ∈ [0x20, 0x09, 0x0A, 0x0D]

def skipSpace (cs : List Char) : List Char := cs.dropWhile isSpace

def hex4 (a b c d : Char) : Option ℕ := Number.naturalOf 16 [a, b, c, d]

def unescape (c : Char) : Option Char :=
  if c.toNat = 0x22 ∨ c.toNat = 0x5C ∨ c.toNat = 0x2F then some c
  else if c = 'b' then some (Char.ofNat 0x08)
  else if c = 'f' then some (Char.ofNat 0x0C)
  else if c = 'n' then some (Char.ofNat 0x0A)
  else if c = 'r' then some (Char.ofNat 0x0D)
  else if c = 't' then some (Char.ofNat 0x09)
  else none

def isHigh (u : ℕ) : Bool := 0xD800 ≤ u ∧ u < 0xDC00
def isLow (u : ℕ) : Bool := 0xDC00 ≤ u ∧ u < 0xE000

/-- The character of one code unit. -/
def ofUnit (u : ℕ) : Char := if isHigh u || isLow u then Char.ofNat 0xFFFD else Char.ofNat u

/-- An escaped second half of a surrogate pair, and what follows it. -/
def lowAfter : List Char → Option (ℕ × List Char)
  | '\\' :: 'u' :: a :: b :: c :: d :: rest =>
    (hex4 a b c d).bind fun v => if isLow v then some (v, rest) else none
  | _ => none

/-- The text up to the closing quote; the fuel bounds the characters. -/
def parseString : ℕ → List Char → Option (List Char × List Char)
  | 0, _ => none
  | _, [] => none
  | fuel + 1, c :: rest =>
    if c.toNat = 0x22 then some ([], rest)
    else if c.toNat < 0x20 then none
    else if c.toNat ≠ 0x5C then (parseString fuel rest).map fun (s, rest) => (c :: s, rest)
    else
      match rest with
      | 'u' :: a :: b :: c :: d :: rest =>
        match hex4 a b c d with
        | none => none
        | some u =>
          match if isHigh u then lowAfter rest else none with
          | some (v, rest) =>
            (parseString fuel rest).map fun (s, rest) =>
              (Char.ofNat (0x10000 + (u - 0xD800) * 0x400 + (v - 0xDC00)) :: s, rest)
          | none => (parseString fuel rest).map fun (s, rest) => (ofUnit u :: s, rest)
      | c :: rest =>
        match unescape c with
        | none => none
        | some c => (parseString fuel rest).map fun (s, rest) => (c :: s, rest)
      | [] => none

/-- A key that comes again has the last value in the first place. -/
def collect (fields : List (String × Json)) : List (String × Json) :=
  fields.foldl (fun found field => Json.set found field.1 field.2) []

/-- A key with the colon after it. -/
def parseKey : List Char → Option (String × List Char)
  | '\x22' :: rest =>
    match parseString rest.length rest with
    | none => none
    | some (key, rest) =>
      match skipSpace rest with
      | ':' :: rest => some (String.ofList key, rest)
      | _ => none
  | _ => none

mutual

/-- A value in front of the text; the fuel bounds the characters. -/
def parseValue : ℕ → List Char → Option (Json × List Char)
  | 0, _ => none
  | fuel + 1, cs =>
    match cs with
    | 'n' :: 'u' :: 'l' :: 'l' :: rest => some (.null, rest)
    | 't' :: 'r' :: 'u' :: 'e' :: rest => some (.bool true, rest)
    | 'f' :: 'a' :: 'l' :: 's' :: 'e' :: rest => some (.bool false, rest)
    | '\x22' :: rest =>
      (parseString rest.length rest).map fun (s, rest) => (.string (String.ofList s), rest)
    | '[' :: rest =>
      match skipSpace rest with
      | ']' :: rest => some (.array [], rest)
      | rest => (parseItems fuel rest).map fun (items, rest) => (.array items, rest)
    | '\x7b' :: rest =>
      match skipSpace rest with
      | '\x7d' :: rest => some (.object [], rest)
      | rest => (parseFields fuel rest).map fun (fields, rest) => (.object (collect fields), rest)
    | cs =>
      (Number.ofLiteral (cs.takeWhile Number.isLiteralChar)).map fun n =>
        (.number n, cs.dropWhile Number.isLiteralChar)

def parseItems : ℕ → List Char → Option (List Json × List Char)
  | 0, _ => none
  | fuel + 1, cs =>
    match parseValue fuel (skipSpace cs) with
    | none => none
    | some (item, rest) =>
      match skipSpace rest with
      | ',' :: rest => (parseItems fuel rest).map fun (items, rest) => (item :: items, rest)
      | ']' :: rest => some ([item], rest)
      | _ => none

def parseFields : ℕ → List Char → Option (List (String × Json) × List Char)
  | 0, _ => none
  | fuel + 1, cs =>
    match parseKey (skipSpace cs) with
    | none => none
    | some (key, rest) =>
      match parseValue fuel (skipSpace rest) with
      | none => none
      | some (value, rest) =>
        match skipSpace rest with
        | ',' :: rest =>
          (parseFields fuel rest).map fun (fields, rest) => ((key, value) :: fields, rest)
        | '\x7d' :: rest => some ([(key, value)], rest)
        | _ => none

end

/-- `JSON.parse`; `none` is a `SyntaxError`. -/
def parse (text : String) : Option Json :=
  match parseValue (text.toList.length + 1) (skipSpace text.toList) with
  | some (value, rest) => if skipSpace rest = [] then some value else none
  | none => none

/-! ## Values that are read -/

/-- A number that is not finite is written as `null`. -/
def rereadNumber : Number → Json
  | .finite m e => .number (Number.reread m e)
  | _ => .null

mutual

/-- What is read of the text of a value. -/
def reread : Json → Json
  | .null => .null
  | .bool b => .bool b
  | .number n => rereadNumber n
  | .string s => .string s
  | .array items => .array (rereadItems items)
  | .object fields => .object (collect (rereadFields fields))

def rereadItems : List Json → List Json
  | [] => []
  | item :: items => reread item :: rereadItems items

def rereadFields : List (String × Json) → List (String × Json)
  | [] => []
  | (key, value) :: fields => (key, reread value) :: rereadFields fields

end

def isParsedNumber : Number → Bool
  | .finite m e => Number.reread m e = .finite m e
  | _ => false

mutual

/-- Numbers are as they are read, and no key comes twice. -/
def isParsed : Json → Bool
  | .number n => isParsedNumber n
  | .array items => isParsedItems items
  | .object fields => decide (fields.map Prod.fst).Nodup && isParsedFields fields
  | _ => true

def isParsedItems : List Json → Bool
  | [] => true
  | item :: items => isParsed item && isParsedItems items

def isParsedFields : List (String × Json) → Bool
  | [] => true
  | (_, value) :: fields => isParsed value && isParsedFields fields

end

/-! ## Texts -/

theorem eq_ofNat {c : Char} {n : ℕ} (h : c.toNat = n) : c = Char.ofNat n := by
  rw [← h, Char.ofNat_toNat]

theorem hex4_hexDigit (n : ℕ) (h : n < 0x20) :
    hex4 '0' '0' (hexDigit (n / 16)) (hexDigit (n % 16)) = some n := by
  revert n
  decide

/-- An escaped character is read as that character. -/
theorem parseString_escapeChar (fuel : ℕ) (c : Char) (rest : List Char) :
    parseString (fuel + 1) (escapeChar c ++ rest) =
      (parseString fuel rest).map fun (s, rest) => (c :: s, rest) := by
  rw [escapeChar]
  split_ifs with h1 h2 h3 h4 h5 h6 h7 h8
  · rw [eq_ofNat h1]
    rfl
  · rw [eq_ofNat h2]
    rfl
  · rw [eq_ofNat h3]
    rfl
  · rw [eq_ofNat h4]
    rfl
  · rw [eq_ofNat h5]
    rfl
  · rw [eq_ofNat h6]
    rfl
  · rw [eq_ofNat h7]
    rfl
  · have hhigh : isHigh c.toNat = false := decide_eq_false (by omega)
    have hlow : isLow c.toNat = false := decide_eq_false (by omega)
    have hunit : ofUnit c.toNat = c := by
      rw [ofUnit, hhigh, hlow]
      exact Char.ofNat_toNat c
    simp only [List.cons_append, List.nil_append]
    rw [parseString.eq_def]
    simp only [hex4_hexDigit _ h8, hhigh, hunit, Bool.false_eq_true, if_false]
    rw [if_neg (by decide), if_neg (by decide), if_neg (by decide)]
  · simp only [List.cons_append, List.nil_append]
    rw [parseString.eq_def]
    dsimp only
    rw [if_neg h1, if_neg h8, if_pos h2]

theorem parseString_quote (s rest : List Char) (fuel : ℕ)
    (hfuel : (s.flatMap escapeChar).length < fuel) :
    parseString fuel (s.flatMap escapeChar ++ '\x22' :: rest) = some (s, rest) := by
  induction s generalizing fuel with
  | nil =>
    obtain ⟨fuel, rfl⟩ := Nat.exists_eq_succ_of_ne_zero (Nat.ne_of_gt hfuel)
    rfl
  | cons c s ih =>
    obtain ⟨fuel, rfl⟩ := Nat.exists_eq_succ_of_ne_zero (Nat.ne_zero_of_lt hfuel)
    have hpos : 0 < (escapeChar c).length := by
      rw [escapeChar]
      split_ifs <;> exact Nat.succ_pos _
    rw [List.flatMap_cons, List.length_append] at hfuel
    rw [List.flatMap_cons, List.append_assoc, parseString_escapeChar, ih fuel (by omega)]
    rfl

theorem parseString_stringify (s : String) (rest : List Char) :
    parseString (s.toList.flatMap escapeChar ++ '\x22' :: rest).length
        (s.toList.flatMap escapeChar ++ '\x22' :: rest) =
      some (s.toList, rest) :=
  parseString_quote _ _ _ (by simp)

theorem skipSpace_cons {c : Char} (h : isSpace c = false) (cs : List Char) :
    skipSpace (c :: cs) = c :: cs := by
  rw [skipSpace, List.dropWhile_cons_of_neg (by simp [h])]

/-- What follows a number ends it. -/
def Ends (rest : List Char) : Prop := ∀ c ∈ rest.head?, Number.isLiteralChar c = false

theorem ends_cons {c : Char} (h : Number.isLiteralChar c = false) (rest : List Char) :
    Ends (c :: rest) :=
  fun d hd => by
    obtain rfl : c = d := Option.some.inj hd
    exact h

theorem isSpace_of_isLiteralChar {c : Char} (h : Number.isLiteralChar c = true) :
    isSpace c = false := by
  by_contra hspace
  have hmem : c.toNat ∈ [0x20, 0x09, 0x0A, 0x0D] :=
    of_decide_eq_true (Bool.eq_true_of_not_eq_false hspace)
  simp only [List.mem_cons, List.not_mem_nil, or_false] at hmem
  obtain h' | h' | h' | h' := hmem <;> · rw [eq_ofNat h'] at h; exact absurd h (by decide)

theorem numberText_finite (m e : ℤ) :
    ∃ c cs, numberText (.finite m e) = c :: cs ∧ Number.isLiteralChar c = true := by
  have hread := Number.ofLiteral_text m e
  have hall := Number.isLiteralChar_text m e
  rw [numberText]
  cases htext : (Number.finite m e).text.toList with
  | nil =>
    rw [htext] at hread
    cases hread
  | cons c cs =>
    rw [htext] at hall
    exact ⟨c, cs, rfl, hall c List.mem_cons_self⟩

/-- The text of a value begins with no white space, and does not close an array. -/
theorem stringifyChars_cons (v : Json) :
    ∃ c cs, stringifyChars v = c :: cs ∧ isSpace c = false ∧ c ≠ ']' := by
  cases v with
  | null => exact ⟨_, _, rfl, by decide⟩
  | bool b => cases b <;> exact ⟨_, _, rfl, by decide⟩
  | number n =>
    cases n with
    | finite m e =>
      obtain ⟨c, cs, htext, hc⟩ := numberText_finite m e
      refine ⟨c, cs, by rw [stringifyChars, htext], isSpace_of_isLiteralChar hc, ?_⟩
      rintro rfl
      exact absurd hc (by decide)
    | infinity negative => exact ⟨_, _, by rw [stringifyChars]; rfl, by decide⟩
    | nan => exact ⟨_, _, by rw [stringifyChars]; rfl, by decide⟩
  | string s => exact ⟨_, _, by rw [stringifyChars, quote], by decide⟩
  | array items => exact ⟨_, _, by rw [stringifyChars], by decide⟩
  | object fields => exact ⟨_, _, by rw [stringifyChars], by decide⟩

theorem skipSpace_stringify (v : Json) (rest : List Char) :
    skipSpace (stringifyChars v ++ rest) = stringifyChars v ++ rest := by
  obtain ⟨c, cs, htext, hc, -⟩ := stringifyChars_cons v
  rw [htext, List.cons_append, skipSpace_cons hc]

theorem collect_eq {fields : List (String × Json)} (h : (fields.map Prod.fst).Nodup) :
    collect fields = fields := by
  have happend : ∀ found, ((found ++ fields).map Prod.fst).Nodup →
      fields.foldl (fun found field => Json.set found field.1 field.2) found = found ++ fields := by
    clear h
    induction fields with
    | nil => intro found _; rw [List.append_nil]; rfl
    | cons f fields ih =>
      obtain ⟨key, value⟩ := f
      intro found hnodup
      have hnew : found.any (·.1 == key) = false := by
        rw [List.map_append, List.nodup_append] at hnodup
        rw [List.any_eq_false]
        intro e he
        simpa using hnodup.2.2 e.1 (List.mem_map_of_mem he) key (by simp)
      have hset : Json.set found key value = found ++ [(key, value)] := by
        rw [Json.set, hnew]
        rfl
      rw [List.foldl_cons, hset, ih _ (by simpa using hnodup), List.append_assoc]
      rfl
  exact happend [] h

theorem parseValue_finite (m e : ℤ) {rest : List Char} (hrest : Ends rest) (fuel : ℕ) :
    parseValue (fuel + 1) (numberText (.finite m e) ++ rest) =
      some (.number (Number.reread m e), rest) := by
  obtain ⟨c, cs, htext, hc⟩ := numberText_finite m e
  have hall : ∀ d ∈ numberText (.finite m e), Number.isLiteralChar d = true :=
    Number.isLiteralChar_text m e
  have hread : Number.ofLiteral (numberText (.finite m e)) = some (Number.reread m e) :=
    Number.ofLiteral_text m e
  have htake : rest.takeWhile Number.isLiteralChar = [] ∧
      rest.dropWhile Number.isLiteralChar = rest := by
    cases rest with
    | nil => exact ⟨rfl, rfl⟩
    | cons d rest => simp [hrest d rfl]
  have hsplit : (numberText (.finite m e) ++ rest).takeWhile Number.isLiteralChar =
        numberText (.finite m e) ∧
      (numberText (.finite m e) ++ rest).dropWhile Number.isLiteralChar = rest := by
    rw [List.takeWhile_append_of_pos hall, List.dropWhile_append_of_pos hall, htake.1, htake.2,
      List.append_nil]
    exact ⟨rfl, rfl⟩
  rw [htext, List.cons_append] at hsplit ⊢
  rw [parseValue.eq_def]
  dsimp only
  -- no other value begins with a character of a number
  split
  · next heq => rw [(List.cons.inj heq).1] at hc; exact absurd hc (by decide)
  · next heq => rw [(List.cons.inj heq).1] at hc; exact absurd hc (by decide)
  · next heq => rw [(List.cons.inj heq).1] at hc; exact absurd hc (by decide)
  · next heq => rw [(List.cons.inj heq).1] at hc; exact absurd hc (by decide)
  · next heq => rw [(List.cons.inj heq).1] at hc; exact absurd hc (by decide)
  · next heq => rw [(List.cons.inj heq).1] at hc; exact absurd hc (by decide)
  · rw [hsplit.1, hsplit.2, ← htext, hread]
    rfl

theorem parseValue_number (n : Number) {rest : List Char} (hrest : Ends rest) (fuel : ℕ) :
    parseValue (fuel + 1) (numberText n ++ rest) = some (rereadNumber n, rest) := by
  cases n with
  | finite m e => exact parseValue_finite m e hrest fuel
  | infinity negative => rfl
  | nan => rfl

theorem itemsChars_cons (item : Json) (items : List Json) :
    itemsChars (item :: items) =
      stringifyChars item ++ (if items.isEmpty then [] else ',' :: itemsChars items) := by
  rw [itemsChars]

theorem fieldsChars_cons (key : String) (value : Json) (fields : List (String × Json)) :
    fieldsChars ((key, value) :: fields) =
      quote key ++ (':' :: (stringifyChars value ++
        (if fields.isEmpty then [] else ',' :: fieldsChars fields))) := by
  rw [fieldsChars]

theorem parseValue_string (s : String) (fuel : ℕ) (rest : List Char) :
    parseValue (fuel + 1) (quote s ++ rest) = some (.string s, rest) := by
  have hstring : parseValue (fuel + 1) ('\x22' :: (s.toList.flatMap escapeChar ++ '\x22' :: rest)) =
      (parseString (s.toList.flatMap escapeChar ++ '\x22' :: rest).length
        (s.toList.flatMap escapeChar ++ '\x22' :: rest)).map
          fun (s, rest) => (.string (String.ofList s), rest) := rfl
  rw [quote, List.cons_append, List.append_assoc, List.singleton_append, hstring,
    parseString_stringify, Option.map_some]
  dsimp only
  rw [String.ofList_toList]

theorem parseKey_quote (key : String) (rest : List Char) :
    parseKey (quote key ++ ':' :: rest) = some (key, rest) := by
  have hkey : parseKey ('\x22' :: (key.toList.flatMap escapeChar ++ '\x22' :: ':' :: rest)) =
      match parseString (key.toList.flatMap escapeChar ++ '\x22' :: ':' :: rest).length
        (key.toList.flatMap escapeChar ++ '\x22' :: ':' :: rest) with
      | none => none
      | some (key, rest) =>
        match skipSpace rest with
        | ':' :: rest => some (String.ofList key, rest)
        | _ => none := rfl
  rw [quote, List.cons_append, List.append_assoc, List.singleton_append, hkey,
    parseString_stringify]
  dsimp only
  rw [skipSpace_cons (by decide), String.ofList_toList]
  rfl

/-- An array that is not closed at once. -/
theorem parseValue_array {c : Char} (hspace : isSpace c = false) (hc : c ≠ ']') (fuel : ℕ)
    (cs : List Char) :
    parseValue (fuel + 1) ('[' :: c :: cs) =
      (parseItems fuel (c :: cs)).map fun (items, rest) => (.array items, rest) := by
  have hopen : parseValue (fuel + 1) ('[' :: c :: cs) =
      match skipSpace (c :: cs) with
      | ']' :: rest => some (.array [], rest)
      | rest => (parseItems fuel rest).map fun (items, rest) => (.array items, rest) := rfl
  rw [hopen, skipSpace_cons hspace]
  split
  · next heq => exact absurd (List.cons.inj heq).1 hc
  · rfl

mutual

/-- The text of a value is read, whatever follows it. -/
theorem parseValue_stringify : ∀ (v : Json) (fuel : ℕ) (rest : List Char),
    (stringifyChars v).length ≤ fuel → Ends rest →
    parseValue fuel (stringifyChars v ++ rest) = some (reread v, rest)
  | v, 0, rest, hfuel, _ => by
    obtain ⟨c, cs, htext, -⟩ := stringifyChars_cons v
    rw [htext] at hfuel
    exact absurd hfuel (Nat.not_succ_le_zero _)
  | .null, fuel + 1, rest, _, _ => rfl
  | .bool b, fuel + 1, rest, _, _ => by cases b <;> rfl
  | .number n, fuel + 1, rest, _, hrest => by
    rw [stringifyChars, reread]
    exact parseValue_number n hrest fuel
  | .string s, fuel + 1, rest, _, _ => by
    rw [stringifyChars, reread]
    exact parseValue_string s fuel rest
  | .array [], fuel + 1, rest, _, _ => rfl
  | .array (item :: items), fuel + 1, rest, hfuel, _ => by
    obtain ⟨c, cs, htext, hspace, hc⟩ := stringifyChars_cons item
    have hlength : (itemsChars (item :: items)).length + 1 ≤ fuel := by
      simpa [stringifyChars] using hfuel
    have hitems := parseItems_stringify (item :: items) (List.cons_ne_nil _ _) fuel rest hlength
    rw [stringifyChars, List.cons_append, List.append_assoc, List.singleton_append]
    rw [itemsChars_cons, htext, List.cons_append, List.cons_append] at hitems ⊢
    rw [parseValue_array hspace hc, hitems, Option.map_some, reread]
  | .object [], fuel + 1, rest, _, _ => rfl
  | .object ((key, value) :: fields), fuel + 1, rest, hfuel, _ => by
    have hlength : (fieldsChars ((key, value) :: fields)).length + 1 ≤ fuel := by
      simpa [stringifyChars] using hfuel
    have hfields := parseFields_stringify ((key, value) :: fields) (List.cons_ne_nil _ _) fuel
      rest hlength
    have hobject : ∀ cs, parseValue (fuel + 1) ('\x7b' :: '\x22' :: cs) =
        (parseFields fuel ('\x22' :: cs)).map fun (fields, rest) =>
          (.object (collect fields), rest) :=
      fun _ => rfl
    rw [stringifyChars, List.cons_append, List.append_assoc, List.singleton_append]
    rw [fieldsChars_cons, quote, List.cons_append, List.cons_append] at hfields ⊢
    rw [hobject, hfields, Option.map_some, reread]

theorem parseItems_stringify : ∀ (items : List Json), items ≠ [] →
    ∀ (fuel : ℕ) (rest : List Char), (itemsChars items).length + 1 ≤ fuel →
    parseItems fuel (itemsChars items ++ ']' :: rest) = some (rereadItems items, rest)
  | _, _, 0, _, hfuel => absurd hfuel (Nat.not_succ_le_zero _)
  | [], hne, _, _, _ => absurd rfl hne
  | item :: items, _, fuel + 1, rest, hfuel => by
    rw [itemsChars_cons, List.length_append] at hfuel
    have hvalue : ∀ rest, Ends rest →
        parseValue fuel (stringifyChars item ++ rest) = some (reread item, rest) :=
      fun rest hrest =>
      parseValue_stringify item fuel rest (by omega) hrest
    rw [itemsChars_cons, List.append_assoc, parseItems.eq_def]
    dsimp only
    rw [skipSpace_stringify item]
    cases items with
    | nil =>
      rw [List.isEmpty_nil, if_pos rfl, List.nil_append, hvalue _ (ends_cons (by decide) _)]
      rfl
    | cons item' items =>
      have hrest := parseItems_stringify (item' :: items) (List.cons_ne_nil _ _) fuel rest (by
        rw [List.isEmpty_cons, if_neg Bool.false_ne_true, List.length_cons] at hfuel
        obtain ⟨c, cs, htext, -⟩ := stringifyChars_cons item
        rw [htext, List.length_cons] at hfuel
        omega)
      rw [List.isEmpty_cons, if_neg Bool.false_ne_true, List.cons_append,
        hvalue _ (ends_cons (by decide) _)]
      dsimp only
      rw [skipSpace_cons (by decide)]
      change (parseItems fuel (itemsChars (item' :: items) ++ ']' :: rest)).map _ = _
      rw [hrest]
      rfl

theorem parseFields_stringify : ∀ (fields : List (String × Json)), fields ≠ [] →
    ∀ (fuel : ℕ) (rest : List Char), (fieldsChars fields).length + 1 ≤ fuel →
    parseFields fuel (fieldsChars fields ++ '\x7d' :: rest) = some (rereadFields fields, rest)
  | _, _, 0, _, hfuel => absurd hfuel (Nat.not_succ_le_zero _)
  | [], hne, _, _, _ => absurd rfl hne
  | (key, value) :: fields, _, fuel + 1, rest, hfuel => by
    rw [fieldsChars_cons, List.length_append, List.length_cons, List.length_append] at hfuel
    have hvalue : ∀ rest, Ends rest →
        parseValue fuel (stringifyChars value ++ rest) = some (reread value, rest) :=
      fun rest hrest =>
      parseValue_stringify value fuel rest (by omega) hrest
    have hspace : ∀ cs, skipSpace (quote key ++ cs) = quote key ++ cs := fun cs =>
      skipSpace_cons (by decide) _
    rw [fieldsChars_cons, List.append_assoc, List.cons_append, List.append_assoc,
      parseFields.eq_def]
    dsimp only
    rw [hspace, parseKey_quote]
    dsimp only
    rw [skipSpace_stringify value]
    cases fields with
    | nil =>
      rw [List.isEmpty_nil, if_pos rfl, List.nil_append, hvalue _ (ends_cons (by decide) _)]
      rfl
    | cons field fields =>
      have hrest := parseFields_stringify (field :: fields) (List.cons_ne_nil _ _) fuel rest
        (by
          rw [List.isEmpty_cons, if_neg Bool.false_ne_true, List.length_cons] at hfuel
          omega)
      rw [List.isEmpty_cons, if_neg Bool.false_ne_true, List.cons_append,
        hvalue _ (ends_cons (by decide) _)]
      dsimp only
      rw [skipSpace_cons (by decide)]
      change (parseFields fuel (fieldsChars (field :: fields) ++ '\x7d' :: rest)).map _ = _
      rw [hrest]
      rfl

end

/-- The text of a value is read as the value that it holds. -/
theorem parse_stringify_reread (v : Json) : parse (stringify v) = some (reread v) := by
  have hspace := skipSpace_stringify v []
  have hvalue := parseValue_stringify v ((stringifyChars v).length + 1) [] (Nat.le_succ _)
    fun c hc => by cases hc
  rw [List.append_nil] at hspace hvalue
  rw [parse, stringify, String.toList_ofList, hspace, hvalue]
  rfl

theorem keys_rereadFields (fields : List (String × Json)) :
    (rereadFields fields).map Prod.fst = fields.map Prod.fst := by
  induction fields with
  | nil => rfl
  | cons field fields ih =>
    obtain ⟨key, value⟩ := field
    rw [rereadFields, List.map_cons, List.map_cons, ih]

mutual

/-- A value that was read is read again. -/
theorem reread_eq : ∀ v : Json, isParsed v = true → reread v = v
  | .null, _ => rfl
  | .bool _, _ => rfl
  | .string _, _ => rfl
  | .number n, h => by
    rw [isParsed] at h
    rw [reread]
    cases n with
    | finite m e => exact congrArg number (of_decide_eq_true h)
    | infinity negative => cases h
    | nan => cases h
  | .array items, h => by
    rw [isParsed] at h
    rw [reread, rereadItems_eq items h]
  | .object fields, h => by
    rw [isParsed, Bool.and_eq_true, decide_eq_true_iff] at h
    rw [reread, collect_eq (by rw [keys_rereadFields]; exact h.1), rereadFields_eq fields h.2]

theorem rereadItems_eq : ∀ items : List Json, isParsedItems items = true →
    rereadItems items = items
  | [], _ => rfl
  | item :: items, h => by
    rw [isParsedItems, Bool.and_eq_true] at h
    rw [rereadItems, reread_eq item h.1, rereadItems_eq items h.2]

theorem rereadFields_eq : ∀ fields : List (String × Json), isParsedFields fields = true →
    rereadFields fields = fields
  | [], _ => rfl
  | (key, value) :: fields, h => by
    rw [isParsedFields, Bool.and_eq_true] at h
    rw [rereadFields, reread_eq value h.1, rereadFields_eq fields h.2]

end

theorem parse_stringify {v : Json} (h : isParsed v = true) : parse (stringify v) = some v := by
  rw [parse_stringify_reread, reread_eq v h]

/-! ## Characters of a text -/

/-- No control character. -/
def Printable (cs : List Char) : Prop := ∀ c ∈ cs, 0x20 ≤ c.toNat

theorem Printable.append {cs ds : List Char} (hcs : Printable cs) (hds : Printable ds) :
    Printable (cs ++ ds) := by
  intro c hc
  obtain hc | hc := List.mem_append.1 hc
  · exact hcs c hc
  · exact hds c hc

theorem Printable.cons {c : Char} {cs : List Char} (hc : 0x20 ≤ c.toNat) (hcs : Printable cs) :
    Printable (c :: cs) := by
  intro d hd
  obtain rfl | hd := List.mem_cons.1 hd
  · exact hc
  · exact hcs d hd

theorem printable_of_all {cs : List Char} (h : cs.all (fun c => 0x20 ≤ c.toNat) = true) :
    Printable cs :=
  fun c hc => of_decide_eq_true (List.all_eq_true.1 h c hc)

theorem printable_nil : Printable [] := fun _ hc => absurd hc List.not_mem_nil

theorem printable_escapeChar (c : Char) : Printable (escapeChar c) := by
  have hhex : ∀ n < 16, 0x20 ≤ (hexDigit n).toNat := by decide
  have hpair : ∀ d : Char, 0x20 ≤ d.toNat → Printable ['\\', d] := fun d hd =>
    .cons (by decide) (.cons hd printable_nil)
  rw [escapeChar]
  split_ifs with h1 h2 h3 h4 h5 h6 h7 h8
  · exact hpair _ (by decide)
  · exact hpair _ (by decide)
  · exact hpair _ (by decide)
  · exact hpair _ (by decide)
  · exact hpair _ (by decide)
  · exact hpair _ (by decide)
  · exact hpair _ (by decide)
  · exact (hpair 'u' (by decide)).append (.cons (by decide) (.cons (by decide)
      (.cons (hhex _ (by omega)) (.cons (hhex _ (by omega)) printable_nil))))
  · exact .cons (by omega) printable_nil

theorem printable_quote (s : String) : Printable (quote s) := by
  have hescaped : Printable (s.toList.flatMap escapeChar) := by
    intro d hd
    obtain ⟨c, -, hd⟩ := List.mem_flatMap.1 hd
    exact printable_escapeChar c d hd
  exact .cons (by decide) (hescaped.append (.cons (by decide) printable_nil))

theorem printable_of_isLiteralChar {c : Char} (h : Number.isLiteralChar c = true) :
    0x20 ≤ c.toNat := by
  by_contra hlt
  have hcontrol : ∀ n < 0x20, Number.isLiteralChar (Char.ofNat n) = false := by decide
  have hc := hcontrol c.toNat (by omega)
  rw [Char.ofNat_toNat, h] at hc
  exact Bool.noConfusion hc

theorem printable_null : Printable "null".toList := printable_of_all rfl

theorem printable_numberText (n : Number) : Printable (numberText n) := by
  cases n with
  | finite m e => exact fun c hc => printable_of_isLiteralChar (Number.isLiteralChar_text m e c hc)
  | infinity negative => exact printable_null
  | nan => exact printable_null

mutual

theorem printable_stringifyChars : ∀ v : Json, Printable (stringifyChars v)
  | .null => printable_null
  | .bool b => printable_of_all (by cases b <;> rfl)
  | .number n => by
    rw [stringifyChars]
    exact printable_numberText n
  | .string s => by
    rw [stringifyChars]
    exact printable_quote s
  | .array items => by
    rw [stringifyChars]
    exact .cons (by decide)
      ((printable_itemsChars items).append (.cons (by decide) printable_nil))
  | .object fields => by
    rw [stringifyChars]
    exact .cons (by decide)
      ((printable_fieldsChars fields).append (.cons (by decide) printable_nil))

theorem printable_itemsChars : ∀ items : List Json, Printable (itemsChars items)
  | [] => by
    rw [itemsChars]
    exact printable_nil
  | item :: items => by
    rw [itemsChars]
    refine (printable_stringifyChars item).append ?_
    split_ifs
    · exact printable_nil
    · exact .cons (by decide) (printable_itemsChars items)

theorem printable_fieldsChars : ∀ fields : List (String × Json), Printable (fieldsChars fields)
  | [] => by
    rw [fieldsChars]
    exact printable_nil
  | (key, value) :: fields => by
    rw [fieldsChars]
    refine (printable_quote key).append (.cons (by decide) ?_)
    refine (printable_stringifyChars value).append ?_
    split_ifs
    · exact printable_nil
    · exact .cons (by decide) (printable_fieldsChars fields)

end

end Json

end Js
