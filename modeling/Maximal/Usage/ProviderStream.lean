import Maximal.Lib.Js.Meaning
import Maximal.Messages.ChatUsage
import Maximal.Responses.StreamIdSync
import Mathlib.Data.Rat.Floor

/-!
# The stream of a passthrough provider

The frames of a configured provider are handed on as they come. Where the configuration says so,
the cached tokens are taken out of the input tokens on the way; the usage that is recorded is what
the client can read off the frames it was given.

## Main definitions

- `adjustedInput` — the input tokens without the cached ones
- `parseProviderStreamEvent`, `streamProviderMessages` — one frame, and the loop
- `clientUsage` — the usage that the written frames tell
- `Delivers` — a frame and what is written for it

## Main results

- `readFrame_told`, `parsed_told` — one frame tells the client what it tells the recorder
- `provider_stream_faithful` — all frames
-/

namespace Maximal.Provider

open Js
open Maximal.Responses (assign)

/-! ## Usage -/

def normalizeAnthropicUsage (usage : Val) : UsageTokens where
  cacheCreationInputTokens := normalizeOptionalToken (usage.optProp "cache_creation_input_tokens")
  cacheReadInputTokens := normalizeOptionalToken (usage.optProp "cache_read_input_tokens")
  inputTokens := normalizeOptionalToken (usage.optProp "input_tokens")
  outputTokens := normalizeOptionalToken (usage.optProp "output_tokens")
  totalTokens := normalizeOptionalToken (usage.optProp "total_tokens")

def mergeAnthropicUsage (current next : UsageTokens) : UsageTokens where
  cacheCreationInputTokens := next.cacheCreationInputTokens.or current.cacheCreationInputTokens
  cacheReadInputTokens := next.cacheReadInputTokens.or current.cacheReadInputTokens
  inputTokens := next.inputTokens.or current.inputTokens
  outputTokens := next.outputTokens.or current.outputTokens
  totalTokens := next.totalTokens.or current.totalTokens

def readNestedUsage (frame : Json) (key : String) : Val :=
  (Val.asRecord ((Val.asRecord (some frame)).optProp key)).optProp "usage"

/-- `value ?? 0`. -/
def orZero : Val → Val
  | none => some (.number (.ofNat 0))
  | some .null => some (.number (.ofNat 0))
  | value => value

/-- `Math.max(0, n)`. -/
def maxZero : Number → Number
  | .finite m e => if m < 0 then .ofNat 0 else .finite m e
  | .infinity negative => if negative then .ofNat 0 else .infinity false
  | .nan => .nan

def adjustedInput (usage : Val) : Except TypeError Number := do
  let uncached ← Val.minus (orZero (usage.optProp "input_tokens"))
    (orZero (usage.optProp "cache_read_input_tokens"))
  let adjusted ← Val.minus (some (.number uncached))
    (orZero (usage.optProp "cache_creation_input_tokens"))
  return maxZero adjusted

/-- The number written to `usage.input_tokens`, if one is; `none` when it throws, as it does on a
value that is no object. -/
def adjustInputTokens (adjust : Bool) (usage : Val) : Option (Option Number) :=
  if !adjust || !usage.truthy then some none
  else if (Val.asRecord usage).isSome then (adjustedInput usage).toOption.map some
  else none

/-- The usage for the recorder, from an object to which `input_tokens` may have been written. -/
def adjustedUsage (usage : Val) (written : Option Number) : UsageTokens :=
  match written with
  | none => normalizeAnthropicUsage usage
  | some n =>
    { normalizeAnthropicUsage usage with
      inputTokens := normalizeOptionalToken (some (.number n)) }

/-! ## Frames -/

/-- The frame after `frame.usage.input_tokens = n`. -/
def withDeltaInput (n : Number) (frame : Json) : Json :=
  match frame.get "usage" with
  | none => frame
  | some usage => assign "usage" (assign "input_tokens" (.number n) usage) frame

/-- The frame after `frame.message.usage.input_tokens = n`. -/
def withStartInput (n : Number) (frame : Json) : Json :=
  match frame.get "message" with
  | none => frame
  | some message => assign "message" (withDeltaInput n message) frame

/-- A frame as it is written, and its usage; `none` when reading it throws. -/
def readFrame (adjust : Bool) (parsed : Json) : Option (Json × UsageTokens) :=
  if parsed.isNull then none
  else if Val.asString (parsed.get "type") = some "message_start" then
    (adjustInputTokens adjust (readNestedUsage parsed "message")).map fun written =>
      (written.elim parsed (withStartInput · parsed),
        adjustedUsage (readNestedUsage parsed "message") written)
  else if Val.asString (parsed.get "type") = some "message_delta" then
    (adjustInputTokens adjust (readUsage parsed)).map fun written =>
      (written.elim parsed (withDeltaInput · parsed), adjustedUsage (readUsage parsed) written)
  else some (parsed, {})

/-- What the `try` block returns; `none` when it is left by an error. -/
def parseProviderStreamEvent (adjust : Bool) (data : String) : Option (String × UsageTokens) :=
  (Json.parse data).bind fun parsed =>
    (readFrame adjust parsed).map fun frame => (Json.stringify frame.1, frame.2)

structure StreamEvent where
  event : Option String
  data : Option String
  deriving DecidableEq

/-- What the client is written, and what is recorded in the end. -/
structure ProviderRun where
  written : List StreamEvent
  recorded : UsageTokens

def PING : StreamEvent := ⟨some "ping", some "\x7b\"type\":\"ping\"\x7d"⟩

def streamFrames (adjust : Bool) : List StreamEvent → UsageTokens → ProviderRun
  | [], usage => ⟨[], usage⟩
  | chunk :: chunks, usage =>
    if chunk.event = some "ping" then
      let rest := streamFrames adjust chunks usage
      ⟨PING :: rest.written, rest.recorded⟩
    else if chunk.data.getD "" = "" then streamFrames adjust chunks usage
    else if chunk.data = some "[DONE]" then ⟨[], usage⟩
    else
      match parseProviderStreamEvent adjust (chunk.data.getD "") with
      | none =>
        let rest := streamFrames adjust chunks usage
        ⟨chunk :: rest.written, rest.recorded⟩
      | some parsed =>
        let rest := streamFrames adjust chunks (mergeAnthropicUsage usage parsed.2)
        ⟨⟨chunk.event, some parsed.1⟩ :: rest.written, rest.recorded⟩

def streamProviderMessages (adjust : Bool) (chunks : List StreamEvent) : ProviderRun :=
  streamFrames adjust chunks {}

/-! ## What the client reads -/

/-- The usage that one frame tells. -/
def usageOf (frame : StreamEvent) : UsageTokens :=
  ((parseProviderStreamEvent false (frame.data.getD "")).map Prod.snd).getD {}

def clientUsage (written : List StreamEvent) : UsageTokens :=
  written.foldl (fun usage frame => mergeAnthropicUsage usage (usageOf frame)) {}

/-- The frames that are handed on. -/
def forwarded : List StreamEvent → List StreamEvent
  | [] => []
  | chunk :: chunks =>
    if chunk.event = some "ping" then chunk :: forwarded chunks
    else if chunk.data.getD "" = "" then forwarded chunks
    else if chunk.data = some "[DONE]" then []
    else chunk :: forwarded chunks

/-- The value of a frame, handed on: nothing is changed but the input tokens, and those only where
the configuration says so. -/
def HandsOn (adjust : Bool) (v w : Json) : Prop :=
  w.meaning = v.meaning ∨
    adjust = true ∧ ∃ n, w = (withStartInput n v).reread ∨ w = (withDeltaInput n v).reread

/-- What is written for a frame: the text itself if it cannot be read. -/
def Delivers (adjust : Bool) (chunk out : StreamEvent) : Prop :=
  if chunk.event = some "ping" then out = PING
  else out.event = chunk.event ∧
    match Json.parse (chunk.data.getD "") with
    | none => out.data = chunk.data
    | some v => ∃ w, Json.parse (out.data.getD "") = some w ∧ HandsOn adjust v w

/-- A count is a number, or it is not told. -/
def isCountField (v : Val) : Bool :=
  match v with
  | none => true
  | some .null => true
  | some (.number _) => true
  | _ => false

/-- The counts that an adjustment reads are counts. -/
def hasCounts : Val → Bool
  | some (.array _) => false
  | some (.object fields) =>
    ["input_tokens", "cache_read_input_tokens", "cache_creation_input_tokens"].all fun key =>
      isCountField (fields.lookup key)
  | _ => true

/-- The usage of a frame, if it is one that has a usage, is given in counts. -/
def tellsCounts (chunk : StreamEvent) : Bool :=
  match Json.parse (chunk.data.getD "") with
  | none => true
  | some v =>
    let type := Val.asString (v.get "type")
    (type ≠ some "message_start" || hasCounts (readNestedUsage v "message")) &&
      (type ≠ some "message_delta" || hasCounts (readUsage v))

/-! ## Reading a text again -/

theorem floor_value (m e : ℤ) :
    ⌊Number.value m e⌋ = if 0 ≤ e then m * 10 ^ e.toNat else m / 10 ^ (-e).toNat := by
  rw [Number.value]
  split
  · next he =>
    obtain ⟨n, rfl⟩ := Int.eq_ofNat_of_zero_le he
    rw [Int.toNat_natCast, zpow_natCast]
    exact_mod_cast Int.floor_intCast (R := ℚ) (m * 10 ^ n)
  · next he =>
    obtain ⟨n, hn⟩ := Int.eq_ofNat_of_zero_le (by omega : 0 ≤ -e)
    have hpow : (10 : ℚ) ^ e = ((10 ^ n : ℕ) : ℚ)⁻¹ := by
      rw [← neg_neg e, hn, zpow_neg, zpow_natCast]
      push_cast
      rfl
    rw [hpow, hn, Int.toNat_natCast, ← div_eq_mul_inv, Rat.floor_intCast_div_natCast]
    push_cast
    rfl

theorem normalizeToken_finite (m e : ℤ) :
    normalizeToken (some (.number (.finite m e))) = ⌊Number.value m e⌋.toNat := by
  rw [floor_value]
  rfl

/-- The value of a field, or that it is missing, is proper. -/
def Proper (v : Val) : Prop := ∀ j, v = some j → Json.isProper j = true

theorem Proper.optProp {v : Val} (h : Proper v) (k : String) (hk : k ≠ "length") :
    Proper (v.optProp k) := by
  intro j hj
  cases v with
  | none => cases hj
  | some w =>
    cases w with
    | object fields => exact Json.isProper_of_lookup (h _ rfl) hj
    | array items => simp [Val.optProp, Json.get, hk] at hj
    | string s => simp [Val.optProp, Json.get, hk] at hj
    | _ => cases hj

theorem optProp_reread {v : Val} (h : Proper v) (k : String) (hk : k ≠ "length") :
    Val.optProp (v.map Json.reread) k = (v.optProp k).map Json.reread := by
  cases v with
  | none => rfl
  | some w =>
    cases w with
    | object fields =>
      exact Json.get_reread ((Json.isProper_object_iff fields).1 (h _ rfl)).1 k
    | array items => simp [Val.optProp, Json.get, Json.reread, hk]
    | string s => simp [Val.optProp, Json.get, Json.reread, hk]
    | number n => cases n <;> rfl
    | _ => rfl

theorem asRecord_reread (v : Val) :
    Val.asRecord (v.map Json.reread) = (Val.asRecord v).map Json.reread := by
  cases v with
  | none => rfl
  | some w =>
    cases w with
    | number n => cases n <;> rfl
    | _ => rfl

theorem asString_reread (v : Val) : Val.asString (v.map Json.reread) = Val.asString v := by
  cases v with
  | none => rfl
  | some w =>
    cases w with
    | number n => cases n <;> rfl
    | _ => rfl

theorem Proper.asRecord {v : Val} (h : Proper v) : Proper (Val.asRecord v) := by
  intro j hj
  cases v with
  | none => cases hj
  | some w =>
    obtain ⟨-, hw⟩ := Option.ite_none_right_eq_some.1 hj
    exact h j hw

theorem normalizeOptionalToken_reread {v : Val} (h : Proper v) :
    normalizeOptionalToken (v.map Json.reread) = normalizeOptionalToken v := by
  cases v with
  | none => rfl
  | some w =>
    cases w with
    | number n =>
      cases n with
      | finite m e =>
        obtain ⟨m', e', hreread, hvalue⟩ := Number.value_reread m e
        rw [Option.map_some, Json.reread, Json.rereadNumber, hreread]
        refine congrArg some ?_
        rw [normalizeToken_finite, normalizeToken_finite, hvalue]
      | infinity negative => cases h _ rfl
      | nan => cases h _ rfl
    | _ => rfl

theorem normalizeAnthropicUsage_reread {usage : Val} (h : Proper usage) :
    normalizeAnthropicUsage (usage.map Json.reread) = normalizeAnthropicUsage usage := by
  have hfield : ∀ k, k ≠ "length" → normalizeOptionalToken (Val.optProp (usage.map Json.reread) k) =
      normalizeOptionalToken (usage.optProp k) := fun k hk => by
    rw [optProp_reread h k hk, normalizeOptionalToken_reread (h.optProp k hk)]
  rw [normalizeAnthropicUsage, normalizeAnthropicUsage, hfield _ (by decide),
    hfield _ (by decide), hfield _ (by decide), hfield _ (by decide), hfield _ (by decide)]

theorem proper_readUsage {frame : Json} (h : Json.isProper frame = true) :
    Proper (readUsage frame) := by
  have hframe : Proper (some frame) := fun j hj => Option.some.inj hj ▸ h
  exact hframe.asRecord.optProp "usage" (by decide)

theorem proper_readNestedUsage {frame : Json} (h : Json.isProper frame = true) {key : String}
    (hkey : key ≠ "length") : Proper (readNestedUsage frame key) := by
  have hframe : Proper (some frame) := fun j hj => Option.some.inj hj ▸ h
  exact (hframe.asRecord.optProp key hkey).asRecord.optProp "usage" (by decide)

theorem readUsage_reread {frame : Json} (h : Json.isProper frame = true) :
    readUsage frame.reread = (readUsage frame).map Json.reread := by
  have hframe : Proper (some frame) := fun j hj => Option.some.inj hj ▸ h
  rw [readUsage, readUsage, ← optProp_reread hframe.asRecord _ (by decide), ← asRecord_reread]
  rfl

theorem readNestedUsage_reread {frame : Json} (h : Json.isProper frame = true) {key : String}
    (hkey : key ≠ "length") :
    readNestedUsage frame.reread key = (readNestedUsage frame key).map Json.reread := by
  have hframe : Proper (some frame) := fun j hj => Option.some.inj hj ▸ h
  have hnested := (hframe.asRecord.optProp key hkey).asRecord
  rw [readNestedUsage, readNestedUsage, ← optProp_reread hnested _ (by decide), ← asRecord_reread,
    ← optProp_reread hframe.asRecord _ hkey, ← asRecord_reread]
  rfl

/-! ## Adjusting -/

theorem orZero_finite {v : Val} (h : Proper v) (hcount : isCountField v = true) :
    ∃ m e, orZero v = some (.number (.finite m e)) := by
  cases v with
  | none => exact ⟨0, 0, rfl⟩
  | some w =>
    cases w with
    | null => exact ⟨0, 0, rfl⟩
    | number n =>
      cases n with
      | finite m e => exact ⟨m, e, rfl⟩
      | infinity negative => cases h _ rfl
      | nan => cases h _ rfl
    | _ => cases hcount

theorem adjustedInput_finite {fields : List (String × Json)}
    (h : Json.isProper (.object fields) = true) (hcounts : hasCounts (some (.object fields)) = true) :
    ∃ m e, adjustedInput (some (.object fields)) = .ok (.finite m e) := by
  have hfield : ∀ key ∈ ["input_tokens", "cache_read_input_tokens", "cache_creation_input_tokens"],
      ∃ m e, orZero (fields.lookup key) = some (.number (.finite m e)) := fun key hkey =>
    orZero_finite (fun j hj => Json.isProper_of_lookup h hj) (List.all_eq_true.1 hcounts key hkey)
  obtain ⟨m₁, e₁, h₁⟩ := hfield "input_tokens" (by decide)
  obtain ⟨m₂, e₂, h₂⟩ := hfield "cache_read_input_tokens" (by decide)
  obtain ⟨m₃, e₃, h₃⟩ := hfield "cache_creation_input_tokens" (by decide)
  obtain ⟨m₄, e₄, h₄, -⟩ := Number.sub_finite m₁ e₁ m₂ e₂
  obtain ⟨m₅, e₅, h₅, -⟩ := Number.sub_finite m₄ e₄ m₃ e₃
  have hadjusted : adjustedInput (some (.object fields)) = .ok (maxZero (.finite m₅ e₅)) := by
    change Except.bind (Val.minus (orZero (fields.lookup "input_tokens"))
      (orZero (fields.lookup "cache_read_input_tokens"))) _ = _
    rw [h₁, h₂]
    change Except.bind (Val.minus (some (.number (Number.sub _ _)))
      (orZero (fields.lookup "cache_creation_input_tokens"))) _ = _
    rw [h₃, h₄]
    change Except.ok (maxZero (Number.sub _ _)) = _
    rw [h₅]
  rw [hadjusted, maxZero]
  split
  · exact ⟨0, 0, rfl⟩
  · exact ⟨m₅, e₅, rfl⟩

/-- Nothing is written, or a finite number to a plain object. -/
theorem adjustInputTokens_eq_some {adjust : Bool} {usage : Val} {written : Option Number}
    (h : Proper usage) (hcounts : adjust = true → hasCounts usage = true)
    (hwritten : adjustInputTokens adjust usage = some written) :
    written = none ∨ adjust = true ∧ ∃ fields m e, usage = some (.object fields) ∧
      written = some (.finite m e) := by
  rw [adjustInputTokens] at hwritten
  split at hwritten
  · exact .inl (Option.some.inj hwritten).symm
  · next hadjust =>
    rw [Bool.not_eq_true, Bool.or_eq_false_iff, Bool.not_eq_false'] at hadjust
    obtain ⟨hrecord, hwritten⟩ := Option.ite_none_right_eq_some.1 hwritten
    refine .inr ⟨hadjust.1, ?_⟩
    have hcounts := hcounts hadjust.1
    cases usage with
    | none => cases hrecord
    | some w =>
      cases w with
      | object fields =>
        obtain ⟨m, e, hfinite⟩ := adjustedInput_finite (h _ rfl) hcounts
        rw [hfinite] at hwritten
        exact ⟨fields, m, e, rfl, (Option.some.inj hwritten).symm⟩
      | array items => cases hcounts
      | _ => cases hrecord

/-- Where writing throws, there are no counts to be read. -/
theorem adjustInputTokens_eq_none {adjust : Bool} {usage : Val} (h : Proper usage)
    (hcounts : adjust = true → hasCounts usage = true)
    (hnone : adjustInputTokens adjust usage = none) : normalizeAnthropicUsage usage = {} := by
  rw [adjustInputTokens] at hnone
  split at hnone
  · cases hnone
  · next hadjust =>
    rw [Bool.not_eq_true, Bool.or_eq_false_iff, Bool.not_eq_false'] at hadjust
    have hcounts := hcounts hadjust.1
    cases usage with
    | none => rfl
    | some w =>
      cases w with
      | object fields =>
        obtain ⟨m, e, hfinite⟩ := adjustedInput_finite (h _ rfl) hcounts
        rw [hfinite] at hnone
        cases hnone
      | array items => cases hcounts
      | string s =>
        have hget : ∀ k, k ≠ "length" → (Json.string s).get k = none := fun k hk => if_neg hk
        rw [normalizeAnthropicUsage]
        simp only [Val.optProp, hget _ (by decide : "cache_creation_input_tokens" ≠ "length"),
          hget _ (by decide : "cache_read_input_tokens" ≠ "length"),
          hget _ (by decide : "input_tokens" ≠ "length"),
          hget _ (by decide : "output_tokens" ≠ "length"),
          hget _ (by decide : "total_tokens" ≠ "length"), normalizeOptionalToken]
      | _ => rfl

theorem isProper_assign {k : String} {v w : Json} (hw : Json.isProper w = true)
    (hv : Json.isProper v = true) : Json.isProper (assign k v w) = true := by
  cases w with
  | object fields => exact Json.isProper_object_set hw hv
  | _ => exact hw

theorem isProper_withDeltaInput {v : Json} (h : Json.isProper v = true) (m e : ℤ) :
    Json.isProper (withDeltaInput (.finite m e) v) = true := by
  rw [withDeltaInput]
  split
  · exact h
  · next usage hget =>
    have hv : Proper (some v) := fun j hj => Option.some.inj hj ▸ h
    exact isProper_assign h (isProper_assign (hv.optProp "usage" (by decide) usage hget) rfl)

theorem isProper_withStartInput {v : Json} (h : Json.isProper v = true) (m e : ℤ) :
    Json.isProper (withStartInput (.finite m e) v) = true := by
  rw [withStartInput]
  split
  · exact h
  · next message hget =>
    have hv : Proper (some v) := fun j hj => Option.some.inj hj ▸ h
    exact isProper_assign h (isProper_withDeltaInput (hv.optProp "message" (by decide) message hget)
      m e)

/-- The counts of an object to which the input tokens were written. -/
theorem normalizeAnthropicUsage_assign (fields : List (String × Json)) (n : Number) :
    normalizeAnthropicUsage (some (assign "input_tokens" (.number n) (.object fields))) =
      adjustedUsage (some (.object fields)) (some n) := by
  have hother : ∀ k, k ≠ "input_tokens" →
      Val.optProp (some (assign "input_tokens" (.number n) (.object fields))) k =
        Val.optProp (some (.object fields)) k := fun k hk => Json.lookup_set_of_ne fields _ hk
  have hinput : Val.optProp (some (assign "input_tokens" (.number n) (.object fields)))
      "input_tokens" = some (.number n) := Json.lookup_set_self fields _ _
  rw [adjustedUsage, normalizeAnthropicUsage, normalizeAnthropicUsage,
    hinput, hother _ (by decide), hother _ (by decide), hother _ (by decide), hother _ (by decide)]

theorem readUsage_withDeltaInput {v usage : Json} (h : readUsage v = some usage) (n : Number)
    (hv : ∃ fields, v = .object fields) :
    readUsage (withDeltaInput n v) = some (assign "input_tokens" (.number n) usage) := by
  obtain ⟨fields, rfl⟩ := hv
  have hget : (Json.object fields).get "usage" = some usage := h
  rw [withDeltaInput, hget]
  exact Json.lookup_set_self fields _ _

/-- An object within a value is a field of an object. -/
theorem isObject_of_get {v w : Json} {k : String} (hk : k ≠ "length") (h : v.get k = some w) :
    ∃ fields, v = .object fields := by
  cases v with
  | object fields => exact ⟨fields, rfl⟩
  | array items => simp [Json.get, hk] at h
  | string s => simp [Json.get, hk] at h
  | _ => cases h

theorem get_of_readUsage {v usage : Json} (h : readUsage v = some usage) :
    v.get "usage" = some usage := by
  rw [readUsage, Val.asRecord] at h
  split at h
  · exact h
  · cases h

theorem get_type_withDeltaInput (v : Json) (n : Number) :
    (withDeltaInput n v).get "type" = v.get "type" := by
  rw [withDeltaInput]
  split
  · rfl
  · cases v with
    | object fields => exact Json.lookup_set_of_ne fields _ (by decide)
    | _ => rfl

theorem get_type_withStartInput (v : Json) (n : Number) :
    (withStartInput n v).get "type" = v.get "type" := by
  rw [withStartInput]
  split
  · rfl
  · cases v with
    | object fields => exact Json.lookup_set_of_ne fields _ (by decide)
    | _ => rfl

theorem readNestedUsage_withStartInput {v usage : Json}
    (h : readNestedUsage v "message" = some usage) (n : Number) :
    readNestedUsage (withStartInput n v) "message" =
      some (assign "input_tokens" (.number n) usage) := by
  rw [readNestedUsage] at h
  cases hmessage : v.get "message" with
  | none =>
    have hnone : (Val.asRecord (some v)).optProp "message" = none := by
      rw [Val.asRecord]
      split
      · exact hmessage
      · rfl
    rw [hnone] at h
    cases h
  | some message =>
    obtain ⟨fields, rfl⟩ := isObject_of_get (by decide) hmessage
    have hread : readUsage message = some usage := by
      have hprop : (Val.asRecord (some (.object fields))).optProp "message" = some message :=
        hmessage
      rw [hprop] at h
      exact h
    obtain ⟨inner, rfl⟩ := isObject_of_get (by decide) (get_of_readUsage hread)
    have hinner := readUsage_withDeltaInput hread n ⟨inner, rfl⟩
    rw [withStartInput, hmessage, readNestedUsage]
    have hset : (Val.asRecord (some (assign "message" (withDeltaInput n (.object inner))
        (.object fields)))).optProp "message" = some (withDeltaInput n (.object inner)) :=
      Json.lookup_set_self fields _ _
    dsimp only
    rw [hset]
    exact hinner

/-! ## One frame -/

/-- The usage that a value tells as it is. -/
def frameUsage (v : Json) : UsageTokens :=
  if Val.asString (v.get "type") = some "message_start" then
    normalizeAnthropicUsage (readNestedUsage v "message")
  else if Val.asString (v.get "type") = some "message_delta" then
    normalizeAnthropicUsage (readUsage v)
  else {}

theorem readFrame_false (v : Json) :
    readFrame false v = if v.isNull then none else some (v, frameUsage v) := by
  rw [readFrame, frameUsage]
  split_ifs <;> rfl

theorem get_type_reread {v : Json} (h : Json.isProper v = true) :
    Val.asString (v.reread.get "type") = Val.asString (v.get "type") := by
  have hv : Proper (some v) := fun j hj => Option.some.inj hj ▸ h
  exact (congrArg Val.asString (optProp_reread hv "type" (by decide))).trans (asString_reread _)

theorem frameUsage_reread {v : Json} (h : Json.isProper v = true) :
    frameUsage v.reread = frameUsage v := by
  rw [frameUsage, frameUsage, get_type_reread h, readNestedUsage_reread h (by decide),
    readUsage_reread h,
    normalizeAnthropicUsage_reread (proper_readNestedUsage h (by decide)),
    normalizeAnthropicUsage_reread (proper_readUsage h)]

theorem isNull_reread {v : Json} (h : Json.isProper v = true) : v.reread.isNull = v.isNull := by
  cases v with
  | number n =>
    cases n with
    | finite m e =>
      obtain ⟨m', e', hreread, -⟩ := Number.value_reread m e
      rw [Json.reread, Json.rereadNumber]
      rfl
    | infinity negative => cases h
    | nan => cases h
  | _ => rfl

/-- What was written for a value, and what the client reads of it. -/
structure Told (adjust : Bool) (v w : Json) (usage : UsageTokens) : Prop where
  proper : Json.isProper w = true
  notNull : w.isNull = false
  usage : frameUsage w = usage
  handsOn : HandsOn adjust v w.reread

theorem told_self {adjust : Bool} {v : Json} (h : Json.isProper v = true) (hnull : v.isNull = false) :
    Told adjust v v (frameUsage v) where
  proper := h
  notNull := hnull
  usage := rfl
  handsOn := .inl (Json.meaning_reread v h)

section

variable {adjust : Bool} {v : Json} (h : Json.isProper v = true)

include h

theorem told_delta (hnull : v.isNull = false)
    (htype : Val.asString (v.get "type") = some "message_delta")
    (hcounts : adjust = true → hasCounts (readUsage v) = true) {written : Option Number}
    (hwritten : adjustInputTokens adjust (readUsage v) = some written) :
    Told adjust v (written.elim v (withDeltaInput · v)) (adjustedUsage (readUsage v) written) := by
  obtain rfl | ⟨hadjust, fields, m, e, hobject, rfl⟩ :=
    adjustInputTokens_eq_some (proper_readUsage h) hcounts hwritten
  · have hself : Told adjust v v (frameUsage v) := told_self h hnull
    rwa [frameUsage, htype, if_neg (by decide), if_pos rfl] at hself
  · obtain ⟨outer, rfl⟩ := isObject_of_get (by decide) (get_of_readUsage hobject)
    have hread := readUsage_withDeltaInput hobject (.finite m e) ⟨outer, rfl⟩
    have hframe : (withDeltaInput (.finite m e) (.object outer)).isNull = false := by
      rw [withDeltaInput, get_of_readUsage hobject]
      rfl
    refine ⟨isProper_withDeltaInput h m e, hframe, ?_, .inr ⟨hadjust, _, .inr rfl⟩⟩
    rw [Option.elim_some, frameUsage, get_type_withDeltaInput, htype, if_neg (by decide),
      if_pos rfl, hread, hobject]
    exact normalizeAnthropicUsage_assign fields (.finite m e)

theorem told_start (hnull : v.isNull = false)
    (htype : Val.asString (v.get "type") = some "message_start")
    (hcounts : adjust = true → hasCounts (readNestedUsage v "message") = true)
    {written : Option Number}
    (hwritten : adjustInputTokens adjust (readNestedUsage v "message") = some written) :
    Told adjust v (written.elim v (withStartInput · v))
      (adjustedUsage (readNestedUsage v "message") written) := by
  obtain rfl | ⟨hadjust, fields, m, e, hobject, rfl⟩ :=
    adjustInputTokens_eq_some (proper_readNestedUsage h (by decide)) hcounts hwritten
  · have hself : Told adjust v v (frameUsage v) := told_self h hnull
    rwa [frameUsage, htype, if_pos rfl] at hself
  · have hread := readNestedUsage_withStartInput hobject (.finite m e)
    have hframe : (withStartInput (.finite m e) v).isNull = false := by
      rw [withStartInput]
      split
      · exact hnull
      · cases v <;> first | rfl | exact hnull
    refine ⟨isProper_withStartInput h m e, hframe, ?_, .inr ⟨hadjust, _, .inl rfl⟩⟩
    rw [Option.elim_some, frameUsage, get_type_withStartInput, htype, if_pos rfl, hread, hobject]
    exact normalizeAnthropicUsage_assign fields (.finite m e)

/-- A frame that is read tells the client what it tells the recorder; one that is not tells
neither anything. -/
theorem readFrame_told
    (hstart : Val.asString (v.get "type") = some "message_start" → adjust = true →
      hasCounts (readNestedUsage v "message") = true)
    (hdelta : Val.asString (v.get "type") = some "message_delta" → adjust = true →
      hasCounts (readUsage v) = true) :
    match readFrame adjust v with
    | none => v.isNull = true ∨ frameUsage v = {}
    | some (w, usage) => Told adjust v w usage := by
  rw [readFrame]
  cases hnull : v.isNull with
  | true => exact .inl rfl
  | false =>
    rw [if_neg Bool.false_ne_true]
    by_cases htype : Val.asString (v.get "type") = some "message_start"
    · rw [if_pos htype]
      cases hwritten : adjustInputTokens adjust (readNestedUsage v "message") with
      | none =>
        refine .inr ?_
        rw [frameUsage, if_pos htype]
        exact adjustInputTokens_eq_none (proper_readNestedUsage h (by decide)) (hstart htype)
          hwritten
      | some written => exact told_start h hnull htype (hstart htype) hwritten
    · rw [if_neg htype]
      by_cases htype' : Val.asString (v.get "type") = some "message_delta"
      · rw [if_pos htype']
        cases hwritten : adjustInputTokens adjust (readUsage v) with
        | none =>
          refine .inr ?_
          rw [frameUsage, if_neg htype, if_pos htype']
          exact adjustInputTokens_eq_none (proper_readUsage h) (hdelta htype') hwritten
        | some written => exact told_delta h hnull htype' (hdelta htype') hwritten
      · rw [if_neg htype']
        have hself : Told adjust v v (frameUsage v) := told_self h hnull
        rwa [frameUsage, if_neg htype, if_neg htype'] at hself

end

/-! ## All frames -/

theorem mergeAnthropicUsage_empty (usage : UsageTokens) : mergeAnthropicUsage usage {} = usage := rfl

theorem usageOf_of_parse {chunk : StreamEvent} {v : Json}
    (h : Json.parse (chunk.data.getD "") = some v) (hnull : v.isNull = false) :
    usageOf chunk = frameUsage v := by
  rw [usageOf, parseProviderStreamEvent, h, Option.bind_some, readFrame_false, hnull,
    if_neg Bool.false_ne_true]
  rfl

theorem usageOf_null {chunk : StreamEvent} {v : Json}
    (h : Json.parse (chunk.data.getD "") = some v) (hnull : v.isNull = true) :
    usageOf chunk = {} := by
  rw [usageOf, parseProviderStreamEvent, h, Option.bind_some, readFrame_false, hnull, if_pos rfl]
  rfl

theorem usageOf_ping : usageOf PING = {} := by decide +kernel

theorem delivers_of_parse {adjust : Bool} {chunk out : StreamEvent} {v w : Json}
    (hping : chunk.event ≠ some "ping") (hparse : Json.parse (chunk.data.getD "") = some v)
    (hevent : out.event = chunk.event) (hout : Json.parse (out.data.getD "") = some w)
    (h : HandsOn adjust v w) : Delivers adjust chunk out := by
  rw [Delivers, if_neg hping, hparse]
  exact ⟨hevent, w, hout, h⟩

/-- What is written for a frame tells the client what was recorded for it. -/
theorem parsed_told {adjust : Bool} {chunk : StreamEvent} (hping : chunk.event ≠ some "ping")
    (hcounts : adjust = true → tellsCounts chunk = true) :
    match parseProviderStreamEvent adjust (chunk.data.getD "") with
    | none => usageOf chunk = {} ∧ Delivers adjust chunk chunk
    | some (data, usage) =>
      usageOf ⟨chunk.event, some data⟩ = usage ∧ Delivers adjust chunk ⟨chunk.event, some data⟩ := by
  cases hparse : Json.parse (chunk.data.getD "") with
  | none =>
    rw [parseProviderStreamEvent, hparse, Delivers, if_neg hping, hparse]
    refine ⟨?_, rfl, rfl⟩
    rw [usageOf, parseProviderStreamEvent, hparse]
    rfl
  | some v =>
    have hproper := Json.isProper_parse hparse
    have hfields : adjust = true →
        (Val.asString (v.get "type") = some "message_start" →
          hasCounts (readNestedUsage v "message") = true) ∧
        (Val.asString (v.get "type") = some "message_delta" → hasCounts (readUsage v) = true) := by
      intro hadjust
      have htells := hcounts hadjust
      rw [tellsCounts, hparse] at htells
      rw [Bool.and_eq_true, Bool.or_eq_true, Bool.or_eq_true, decide_eq_true_iff,
        decide_eq_true_iff] at htells
      exact ⟨fun htype => htells.1.resolve_left fun hne => hne htype,
        fun htype => htells.2.resolve_left fun hne => hne htype⟩
    have htold := @readFrame_told adjust v hproper
      (fun htype hadjust => (hfields hadjust).1 htype)
      (fun htype hadjust => (hfields hadjust).2 htype)
    rw [parseProviderStreamEvent, hparse, Option.bind_some]
    cases hread : readFrame adjust v with
    | none =>
      rw [hread] at htold
      refine ⟨?_, ?_⟩
      · cases hnull : v.isNull with
        | true => exact usageOf_null hparse hnull
        | false =>
          rw [usageOf_of_parse hparse hnull]
          exact htold.resolve_left (by simp [hnull])
      · exact delivers_of_parse hping hparse rfl hparse (.inl rfl)
    | some frame =>
      obtain ⟨w, usage⟩ := frame
      rw [hread] at htold
      have hagain := Json.parse_stringify_reread w
      dsimp only [Option.map_some]
      generalize hout : Json.stringify w = data at hagain ⊢
      refine ⟨?_, delivers_of_parse hping hparse rfl hagain htold.handsOn⟩
      have hnull := (isNull_reread htold.proper).trans htold.notNull
      have husage : usageOf ⟨chunk.event, some data⟩ = frameUsage w.reread :=
        usageOf_of_parse hagain hnull
      rw [husage, frameUsage_reread htold.proper]
      exact htold.usage

theorem streamFrames_faithful {adjust : Bool} (chunks : List StreamEvent)
    (hcounts : adjust = true → ∀ chunk ∈ chunks, tellsCounts chunk = true) (usage : UsageTokens) :
    List.Forall₂ (Delivers adjust) (forwarded chunks) (streamFrames adjust chunks usage).written ∧
      (streamFrames adjust chunks usage).recorded =
        (streamFrames adjust chunks usage).written.foldl
          (fun usage frame => mergeAnthropicUsage usage (usageOf frame)) usage := by
  induction chunks generalizing usage with
  | nil => exact ⟨.nil, rfl⟩
  | cons chunk chunks ih =>
    have ih := ih fun hadjust chunk hchunk => hcounts hadjust chunk (List.mem_cons_of_mem _ hchunk)
    rw [forwarded, streamFrames]
    by_cases hping : chunk.event = some "ping"
    · rw [if_pos hping, if_pos hping]
      obtain ⟨hwritten, hrecorded⟩ := ih usage
      refine ⟨.cons (by rw [Delivers, if_pos hping]) hwritten, ?_⟩
      rw [List.foldl_cons, usageOf_ping, mergeAnthropicUsage_empty]
      exact hrecorded
    rw [if_neg hping, if_neg hping]
    by_cases hempty : chunk.data.getD "" = ""
    · rw [if_pos hempty, if_pos hempty]
      exact ih usage
    rw [if_neg hempty, if_neg hempty]
    by_cases hdone : chunk.data = some "[DONE]"
    · rw [if_pos hdone, if_pos hdone]
      exact ⟨.nil, rfl⟩
    rw [if_neg hdone, if_neg hdone]
    have htold := parsed_told hping fun hadjust => hcounts hadjust chunk List.mem_cons_self
    cases hparsed : parseProviderStreamEvent adjust (chunk.data.getD "") with
    | none =>
      rw [hparsed] at htold
      obtain ⟨hwritten, hrecorded⟩ := ih usage
      refine ⟨.cons htold.2 hwritten, ?_⟩
      rw [List.foldl_cons, htold.1, mergeAnthropicUsage_empty]
      exact hrecorded
    | some parsed =>
      obtain ⟨data, told⟩ := parsed
      rw [hparsed] at htold
      obtain ⟨hwritten, hrecorded⟩ := ih (mergeAnthropicUsage usage told)
      refine ⟨.cons htold.2 hwritten, ?_⟩
      rw [List.foldl_cons, htold.1]
      exact hrecorded

/-- Every frame up to the end mark is handed on, in the order of the stream: unchanged where it
cannot be read, with its values where it can, the adjusted input tokens apart. What is recorded is
the usage that the client reads of what it was written. -/
theorem provider_stream_faithful (adjust : Bool) (chunks : List StreamEvent)
    (hcounts : adjust = true → ∀ chunk ∈ chunks, tellsCounts chunk = true) :
    List.Forall₂ (Delivers adjust) (forwarded chunks)
        (streamProviderMessages adjust chunks).written ∧
      (streamProviderMessages adjust chunks).recorded =
        clientUsage (streamProviderMessages adjust chunks).written :=
  streamFrames_faithful chunks hcounts {}

theorem provider_stream_faithful_started :
    let chunks : List StreamEvent :=
      [⟨some "message_start", some ("\x7b\"type\":\"message_start\",\"message\":\x7b\"usage\":" ++
        "\x7b\"input_tokens\":10,\"cache_read_input_tokens\":4\x7d\x7d\x7d")⟩,
        ⟨some "message_delta", some ("\x7b\"type\":\"message_delta\"," ++
          "\"usage\":\x7b\"output_tokens\":7\x7d\x7d")⟩]
    List.Forall₂ (Delivers true) (forwarded chunks) (streamProviderMessages true chunks).written ∧
      (streamProviderMessages true chunks).recorded =
        clientUsage (streamProviderMessages true chunks).written :=
  provider_stream_faithful true _ (by decide +kernel)

end Maximal.Provider
