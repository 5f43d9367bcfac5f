import Maximal.Lib.Js.Map
import Maximal.Lib.Js.Text
import Maximal.Lib.Js.Value
import Maximal.Lib.Pointwise

/-!
# Preparing a payload for the Messages API

The passes that a payload goes through before it is sent. Blocks and tools are any JSON, as the
client has sent them; a pass that throws gives no payload.

## Main definitions

- `Payload` — an object with a list of messages, which is all that has been checked
- `stripCacheControl` and the other passes
- `prepareMessagesApiPayload`
- `CleanedUp` — no scopes are left, and nothing else is lost

## Main results

- `cleanedUp_iff` — when the clean-up is complete
-/

namespace Maximal.Preprocess

open Js List

abbrev Fields := Entries String Json

/-- An object with a field `messages`, which is a list, and its other fields. -/
structure Payload where
  messages : List Json
  fields : Fields

/-- `delete value[k]`. -/
def deleteField (k : String) : Json → Json
  | .object fields => .object (Entries.delete fields k)
  | value => value

/-- `value[k] = v`. -/
def setField (k : String) (v : Json) : Json → Json
  | .object fields => .object (Json.set fields k v)
  | value => value

/-- The properties that a rest pattern takes from an object; those of a list are its items. -/
def ownFields : Json → Option Fields
  | .object fields => some fields
  | .array items => some (items.zipIdx.map fun e => (e.2.repr, e.1))
  | _ => none

/-! ## Cache control -/

def stripCacheControlScope (obj : Json) : Json :=
  match (obj.get "cache_control").bind ownFields with
  | none => obj
  | some cc => setField "cache_control" (.object (cc.delete "scope")) obj

def stripTool (tool : Json) : Option Json :=
  if tool.isNull then none
  else some (deleteField "eager_input_streaming" (stripCacheControlScope tool))

/-- The operator `in` throws on a value that is no object. -/
def stripInner (inner : Json) : Option Json :=
  if inner.isRecord then some (deleteField "cache_control" inner) else none

def stripBlock (block : Json) : Option Json :=
  if block.isNull then none
  else if (block.get "type").asString ≠ some "tool_result" then some block
  else
    match (block.get "content").asArray with
    | none => some block
    | some items => (items.mapM stripInner).map fun items => setField "content" (.array items) block

def stripMessage (msg : Json) : Option Json :=
  if msg.isNull then none
  else
    match (msg.get "content").asArray with
    | none => some msg
    | some blocks => (blocks.mapM stripBlock).map fun blocks => setField "content" (.array blocks) msg

def stripSystem (fields : Fields) : Fields :=
  match Val.asArray (fields.get "system") with
  | none => fields
  | some blocks => Json.set fields "system" (.array (blocks.map stripCacheControlScope))

/-- A text is iterated without effect; what else is no list cannot be iterated. -/
def stripTools (fields : Fields) : Option Fields :=
  match fields.get "tools" with
  | some (.array tools) => (tools.mapM stripTool).map fun tools => Json.set fields "tools" (.array tools)
  | some (.string _) => some fields
  | tools => if Val.truthy tools then none else some fields

def stripCacheControl (payload : Payload) : Option Payload := do
  let fields ← stripTools (stripSystem payload.fields)
  let messages ← payload.messages.mapM stripMessage
  return ⟨messages, fields⟩

/-! ## The other passes -/

/-- Thinking without a text or a signature of its own is dropped. -/
def keepsBlock (block : Json) : Option Bool :=
  if block.isNull then none
  else if (block.get "type").asString ≠ some "thinking" then some true
  else if (block.get "thinking").truthy ∧ (block.get "thinking").asString ≠ some "Thinking..." ∧
      (block.get "signature").truthy then
    match block.get "signature" with
    | some (.string signature) => some !includes signature "@"
    | some (.array items) => some !items.any fun item => Val.asString (some item) = some "@"
    | _ => none
  else some false

def filterBlocks : List Json → Option (List Json)
  | [] => some []
  | block :: blocks => do
    let keep ← keepsBlock block
    let rest ← filterBlocks blocks
    return if keep then block :: rest else rest

def filterMessage (msg : Json) : Option Json :=
  if msg.isNull then none
  else if (msg.get "role").asString ≠ some "assistant" then some msg
  else
    match (msg.get "content").asArray with
    | none => some msg
    | some blocks =>
      (filterBlocks blocks).map fun blocks => setField "content" (.array blocks) msg

def filterAssistantThinkingBlocks (payload : Payload) : Option Payload := do
  let messages ← payload.messages.mapM filterMessage
  return { payload with messages }

/-- What the passes read of the profile of the selected model. -/
structure ModelProfile where
  isReasoning : Bool
  supportsAdaptiveThinking : Bool
  reasoningEffortLadder : Option (List String)

def stripSamplingParams (selectedModel : Option ModelProfile) (payload : Payload) : Payload :=
  let fields :=
    if selectedModel.any (·.isReasoning) then
      ((payload.fields.delete "temperature").delete "top_p").delete "top_k"
    else payload.fields
  { payload with
    fields :=
      if (fields.get "temperature").isSome ∧ (fields.get "top_p").isSome then
        fields.delete "top_p"
      else fields }

/-- The effort within the ladder of the model; past its end there is none. -/
def clampEffort (ladder : Option (List String)) (effort : String) : Option String :=
  let effort := if effort = "none" ∨ effort = "minimal" then "low" else effort
  match ladder with
  | none => some effort
  | some ladder => if effort ∈ ladder then some effort else ladder.getLast?

/-- `effortOf` stands for the effort that is configured for a model. -/
def applyAdaptiveThinking (effortOf : Val → String) (selectedModel : Option ModelProfile)
    (payload : Payload) : Payload :=
  let thinking : Val := payload.fields.get "thinking"
  let incomingDisplay := thinking.optProp "display"
  let clientDisabledThinking := (thinking.optProp "type").asString = some "disabled"
  let choice := (Val.optProp (payload.fields.get "tool_choice") "type").asString
  match selectedModel with
  | none => payload
  | some profile =>
    if choice = some "any" ∨ choice = some "tool" ∨ clientDisabledThinking ∨
        !profile.supportsAdaptiveThinking then payload
    else
      let display :=
        if Val.asString (payload.fields.get "model") = some "claude-opus-4.7" then
          .string "summarized"
        else incomingDisplay.orElse (.string "summarized")
      let effort := clampEffort profile.reasoningEffortLadder
        (effortOf (payload.fields.get "model"))
      let fields := Json.set payload.fields "thinking"
        (.object [("type", .string "adaptive"), ("display", display)])
      { payload with
        fields := Json.set fields "output_config"
          (.object (effort.toList.map fun effort => ("effort", .string effort))) }

def MESSAGES_API_PASSES (effortOf : Val → String) :
    List (Option ModelProfile → Payload → Option Payload) :=
  [fun _ payload => stripCacheControl payload,
    fun _ payload => filterAssistantThinkingBlocks payload,
    fun selectedModel payload => some (stripSamplingParams selectedModel payload),
    fun selectedModel payload => some (applyAdaptiveThinking effortOf selectedModel payload)]

def prepareMessagesApiPayload (effortOf : Val → String) (selectedModel : Option ModelProfile)
    (payload : Payload) : Option Payload :=
  (MESSAGES_API_PASSES effortOf).foldlM (fun payload run => run selectedModel payload) payload

/-! ## What is left and what is kept -/

/-- The `cache_control` object of a value has a scope. -/
def hasScope (value : Json) : Bool :=
  match value.get "cache_control" with
  | some (.object cc) => (Entries.get cc "scope").isSome
  | _ => false

/-- The items of a list; there are none in anything else. -/
def itemsOf (v : Val) : List Json := v.asArray.getD []

def Payload.system (payload : Payload) : List Json := itemsOf (payload.fields.get "system")

def Payload.tools (payload : Payload) : List Json := itemsOf (payload.fields.get "tools")

def contentBlocks (msg : Json) : List Json := itemsOf (msg.get "content")

/-- The items inside a tool result. -/
def innerItems (block : Json) : List Json :=
  if (block.get "type").asString = some "tool_result" then itemsOf (block.get "content") else []

/-- Objects with the same fields, these aside; what is no object is the same. -/
def KeptBut (ks : List String) (old new : Json) : Prop :=
  new = old ∨ ∃ fields fields' : Fields, old = .object fields ∧ new = .object fields' ∧
    ∀ k ∉ ks, fields'.get k = fields.get k

/-- A `cache_control` object has lost at most its scope. -/
def ScopeLost (old new : Json) : Prop :=
  ∀ cc : Fields, old.get "cache_control" = some (.object cc) →
    ∃ cc' : Fields, new.get "cache_control" = some (.object cc') ∧
      ∀ k, k ≠ "scope" → cc'.get k = cc.get k

/-- The block is the same but for the items of a tool result, and those have lost at most their
`cache_control`. -/
structure BlockKept (old new : Json) : Prop where
  fields : KeptBut ["content"] old new
  content : (old.get "content").asArray = none → new = old
  items : List.Forall₂ (KeptBut ["cache_control"]) (itemsOf (old.get "content"))
    (itemsOf (new.get "content"))

structure MessageKept (old new : Json) : Prop where
  fields : KeptBut ["content"] old new
  content : (old.get "content").asArray = none → new = old
  blocks : List.Forall₂ BlockKept (contentBlocks old) (contentBlocks new)

/-- In the payload that is sent no `cache_control` has a scope and none is left inside a tool
result; the pass that strips them keeps everything else. -/
structure CleanedUp (payload stripped sent : Payload) : Prop where
  system : ∀ block ∈ sent.system, hasScope block = false
  tools : ∀ tool ∈ sent.tools, hasScope tool = false
  content : ∀ msg ∈ sent.messages, ∀ block ∈ contentBlocks msg, hasScope block = false
  inner : ∀ msg ∈ sent.messages, ∀ block ∈ contentBlocks msg, ∀ item ∈ innerItems block,
    item.get "cache_control" = none
  systemKept : List.Forall₂ (fun old new => KeptBut ["cache_control"] old new ∧ ScopeLost old new)
    payload.system stripped.system
  toolsKept : List.Forall₂ (fun old new =>
    KeptBut ["cache_control", "eager_input_streaming"] old new ∧ ScopeLost old new)
    payload.tools stripped.tools
  messagesKept : List.Forall₂ MessageKept payload.messages stripped.messages
  fieldsKept : ∀ k, k ≠ "system" → k ≠ "tools" → stripped.fields.get k = payload.fields.get k

/-- The block is not one that the filter for thinking drops. -/
def isSent (msg block : Json) : Bool :=
  (msg.get "role").asString ≠ some "assistant" || keepsBlock block = some true

/-! ## Single values -/

theorem keptBut_setField (k : String) (v value : Json) : KeptBut [k] value (setField k v value) := by
  cases value with
  | object fields =>
    refine .inr ⟨fields, Json.set fields k v, rfl, rfl, fun k' hk' => ?_⟩
    exact Json.lookup_set_of_ne fields v (by simpa using hk')
  | _ => exact .inl rfl

theorem keptBut_deleteField (k : String) (value : Json) : KeptBut [k] value (deleteField k value) := by
  cases value with
  | object fields =>
    refine .inr ⟨fields, Entries.delete fields k, rfl, rfl, fun k' hk' => ?_⟩
    exact Entries.get_delete_of_ne fields (by simpa using hk')
  | _ => exact .inl rfl

theorem KeptBut.mono {ks ks' : List String} {old new : Json} (h : KeptBut ks old new)
    (hks : ∀ k ∈ ks, k ∈ ks') : KeptBut ks' old new := by
  obtain h | ⟨fields, fields', hold, hnew, hkept⟩ := h
  · exact .inl h
  · exact .inr ⟨fields, fields', hold, hnew, fun k hk => hkept k fun hk' => hk (hks k hk')⟩

theorem KeptBut.trans {ks : List String} {a b c : Json} (hab : KeptBut ks a b)
    (hbc : KeptBut ks b c) : KeptBut ks a c := by
  obtain rfl | ⟨fields, fields', rfl, rfl, hab⟩ := hab
  · exact hbc
  · obtain rfl | ⟨fields₁, fields₂, hb, rfl, hbc⟩ := hbc
    · exact .inr ⟨fields, fields', rfl, rfl, hab⟩
    · obtain rfl := Json.object.inj hb
      exact .inr ⟨fields, fields₂, rfl, rfl, fun k hk => (hbc k hk).trans (hab k hk)⟩

theorem KeptBut.get_eq {ks : List String} {old new : Json} (h : KeptBut ks old new) {k : String}
    (hk : k ∉ ks) : new.get k = old.get k := by
  obtain rfl | ⟨fields, fields', rfl, rfl, hkept⟩ := h
  · rfl
  · exact hkept k hk

theorem KeptBut.isNull_eq {ks : List String} {old new : Json} (h : KeptBut ks old new) :
    new.isNull = old.isNull := by
  obtain rfl | ⟨fields, fields', rfl, rfl, -⟩ := h <;> rfl

/-! ## The pass for cache control -/

theorem isRecord_of_get {value v : Json} (h : value.get "cache_control" = some v) :
    ∃ fields, value = .object fields := by
  cases value with
  | object fields => exact ⟨fields, rfl⟩
  | array items => cases h
  | string s => cases h
  | _ => cases h

theorem stripCacheControlScope_spec (obj : Json) :
    hasScope (stripCacheControlScope obj) = false ∧
      KeptBut ["cache_control"] obj (stripCacheControlScope obj) ∧
      ScopeLost obj (stripCacheControlScope obj) := by
  rw [stripCacheControlScope]
  cases hcc : (obj.get "cache_control").bind ownFields with
  | none =>
    refine ⟨?_, .inl rfl, fun cc h => ⟨cc, h, fun _ _ => rfl⟩⟩
    rw [hasScope]
    split
    · next cc hget =>
      rw [hget] at hcc
      cases hcc
    · rfl
  | some cc =>
    obtain ⟨v, hget, hown⟩ := Option.bind_eq_some_iff.1 hcc
    obtain ⟨fields, rfl⟩ := isRecord_of_get hget
    have hset : (setField "cache_control" (.object (Entries.delete cc "scope"))
        (.object fields)).get "cache_control" = some (.object (Entries.delete cc "scope")) :=
      Json.lookup_set_self fields "cache_control" _
    refine ⟨?_, keptBut_setField _ _ _, fun cc' hcc' => ⟨_, hset, fun k hk => ?_⟩⟩
    · dsimp only
      rw [hasScope, hset]
      dsimp only
      rw [Entries.get_delete_self]
      rfl
    · obtain rfl := Option.some.inj (hget.symm.trans hcc')
      obtain rfl := Option.some.inj hown
      exact Entries.get_delete_of_ne _ hk

theorem stripTool_spec {tool tool' : Json} (h : stripTool tool = some tool') :
    hasScope tool' = false ∧ KeptBut ["cache_control", "eager_input_streaming"] tool tool' ∧
      ScopeLost tool tool' := by
  rw [stripTool] at h
  split at h
  · cases h
  · obtain rfl := Option.some.inj h
    obtain ⟨hscope, hkept, hlost⟩ := stripCacheControlScope_spec tool
    have hdeleted := keptBut_deleteField "eager_input_streaming" (stripCacheControlScope tool)
    have hget := hdeleted.get_eq (k := "cache_control") (by decide)
    refine ⟨?_, (hkept.mono (by simp)).trans (hdeleted.mono (by simp)), fun cc hcc => ?_⟩
    · rw [hasScope, hget]
      exact hscope
    · rw [hget]
      exact hlost cc hcc

theorem stripInner_spec {inner inner' : Json} (h : stripInner inner = some inner') :
    KeptBut ["cache_control"] inner inner' ∧ inner'.get "cache_control" = none := by
  rw [stripInner] at h
  split at h
  · obtain rfl := Option.some.inj h
    refine ⟨keptBut_deleteField _ _, ?_⟩
    cases inner with
    | object fields => exact Entries.get_delete_self fields _
    | array items => rfl
    | _ => contradiction
  · cases h

/-- A list in a field of a value, after the field has been set. -/
theorem get_setField_array {value : Json} {k : String} {items : List Json} (items' : List Json)
    (h : (value.get k).asArray = some items) (hk : k ≠ "length") :
    (setField k (.array items') value).get k = some (.array items') := by
  cases value with
  | object fields => exact Json.lookup_set_self fields k _
  | array _ => rw [Json.get, if_neg hk] at h; cases h
  | string _ => rw [Json.get, if_neg hk] at h; cases h
  | _ => cases h

theorem stripBlock_spec {block block' : Json} (h : stripBlock block = some block') :
    BlockKept block block' ∧ (∀ item ∈ innerItems block', item.get "cache_control" = none) ∧
      hasScope block' = hasScope block ∧ keepsBlock block' = keepsBlock block := by
  have hsame (xs : List Json) : List.Forall₂ (KeptBut ["cache_control"]) xs xs :=
    List.forall₂_same.2 fun _ _ => .inl rfl
  rw [stripBlock] at h
  split at h
  · cases h
  · split at h
    · next htype =>
      obtain rfl := Option.some.inj h
      refine ⟨⟨.inl rfl, fun _ => rfl, hsame _⟩, fun item hitem => ?_, rfl, rfl⟩
      rw [innerItems, if_neg htype] at hitem
      cases hitem
    · cases hcontent : (block.get "content").asArray with
      | none =>
        rw [hcontent] at h
        obtain rfl := Option.some.inj h
        refine ⟨⟨.inl rfl, fun _ => rfl, hsame _⟩, fun item hitem => ?_, rfl, rfl⟩
        rw [innerItems, itemsOf, hcontent] at hitem
        split at hitem <;> cases hitem
      | some items =>
        rw [hcontent] at h
        obtain ⟨items', hitems, rfl⟩ := Option.map_eq_some_iff.1 h
        have hkept := keptBut_setField "content" (.array items') block
        have hget := get_setField_array items' hcontent (by decide)
        have hstripped := mapM_forall₂ hitems
        refine ⟨⟨hkept, fun hnone => ?_, ?_⟩, fun item hitem => ?_, ?_, ?_⟩
        · rw [hcontent] at hnone
          cases hnone
        · rw [hget, itemsOf, hcontent]
          exact hstripped.imp fun _ _ hinner => (stripInner_spec hinner).1
        · have hclean := (forall_iff_of_forall₂ (p := fun _ => True)
            (q := fun item => item.get "cache_control" = none) hstripped
            fun _ _ hinner => iff_of_true (stripInner_spec hinner).2 trivial).2 fun _ _ => trivial
          rw [innerItems, hget] at hitem
          split at hitem
          · exact hclean item hitem
          · cases hitem
        · rw [hasScope, hkept.get_eq (by decide), hasScope]
        · rw [keepsBlock, hkept.isNull_eq, hkept.get_eq (by decide), hkept.get_eq (by decide),
            hkept.get_eq (by decide), keepsBlock]

/-- Stripping, block by block. -/
abbrev Stripped : List Json → List Json → Prop :=
  List.Forall₂ fun block block' => stripBlock block = some block'

theorem stripMessage_spec {msg msg' : Json} (h : stripMessage msg = some msg') :
    KeptBut ["content"] msg msg' ∧ ((msg.get "content").asArray = none → msg' = msg) ∧
      Stripped (contentBlocks msg) (contentBlocks msg') := by
  rw [stripMessage] at h
  split at h
  · cases h
  · cases hcontent : (msg.get "content").asArray with
    | none =>
      rw [hcontent] at h
      obtain rfl := Option.some.inj h
      refine ⟨.inl rfl, fun _ => rfl, ?_⟩
      rw [contentBlocks, itemsOf, hcontent]
      exact .nil
    | some blocks =>
      rw [hcontent] at h
      obtain ⟨blocks', hblocks, rfl⟩ := Option.map_eq_some_iff.1 h
      have hget := get_setField_array blocks' hcontent (by decide)
      refine ⟨keptBut_setField _ _ _, fun hnone => (by cases hnone), ?_⟩
      rw [contentBlocks, contentBlocks, hget, itemsOf, hcontent]
      exact mapM_forall₂ hblocks

theorem messageKept_of_strip {msg msg' : Json} (h : stripMessage msg = some msg') :
    MessageKept msg msg' := by
  obtain ⟨hfields, hcontent, hblocks⟩ := stripMessage_spec h
  exact ⟨hfields, hcontent, hblocks.imp fun _ _ hblock => (stripBlock_spec hblock).1⟩

/-! ## The filter for thinking -/

theorem filterBlocks_eq {blocks blocks' : List Json} (h : filterBlocks blocks = some blocks') :
    blocks' = blocks.filter fun block => keepsBlock block = some true := by
  induction blocks generalizing blocks' with
  | nil =>
    obtain rfl := Option.some.inj h
    rfl
  | cons block blocks ih =>
    rw [filterBlocks] at h
    obtain ⟨keep, hkeep, h⟩ := Option.bind_eq_some_iff.1 h
    obtain ⟨rest, hrest, h⟩ := Option.bind_eq_some_iff.1 h
    obtain rfl := Option.some.inj h
    obtain rfl := ih hrest
    cases keep with
    | true => rw [List.filter_cons_of_pos (by simp [hkeep]), if_pos rfl]
    | false => rw [List.filter_cons_of_neg (by simp [hkeep]), if_neg Bool.false_ne_true]

theorem filterMessage_spec {msg msg' : Json} (h : filterMessage msg = some msg') :
    contentBlocks msg' = (contentBlocks msg).filter (isSent msg) := by
  rw [filterMessage] at h
  split at h
  · cases h
  · split at h
    · next hrole =>
      obtain rfl := Option.some.inj h
      symm
      exact List.filter_eq_self.2 fun block _ => by simp [isSent, hrole]
    · next hrole =>
      have hsent : isSent msg = fun block => keepsBlock block = some true := by
        funext block
        simp [isSent, not_not.1 hrole]
      cases hcontent : (msg.get "content").asArray with
      | none =>
        rw [hcontent] at h
        obtain rfl := Option.some.inj h
        rw [contentBlocks, itemsOf, hcontent]
        rfl
      | some blocks =>
        rw [hcontent] at h
        obtain ⟨blocks', hblocks, rfl⟩ := Option.map_eq_some_iff.1 h
        rw [contentBlocks, get_setField_array blocks' hcontent (by decide),
          contentBlocks, itemsOf, itemsOf, hcontent, hsent]
        exact filterBlocks_eq hblocks

/-- What the filter goes by is the same after the clean-up. -/
theorem isSent_strip {msg msg' block block' : Json} (hmsg : stripMessage msg = some msg')
    (hblock : stripBlock block = some block') : isSent msg' block' = isSent msg block := by
  rw [isSent, isSent, (stripMessage_spec hmsg).1.get_eq (by decide),
    (stripBlock_spec hblock).2.2.2]

/-! ## The other fields -/

theorem system_stripSystem (fields : Fields) :
    itemsOf ((stripSystem fields).get "system") =
      (itemsOf (fields.get "system")).map stripCacheControlScope := by
  rw [stripSystem]
  cases h : Val.asArray (fields.get "system") with
  | none => rw [itemsOf, h]; rfl
  | some blocks =>
    dsimp only
    rw [itemsOf, itemsOf, h, Entries.get, Json.lookup_set_self]
    rfl

theorem get_stripSystem (fields : Fields) {k : String} (hk : k ≠ "system") :
    (stripSystem fields).get k = fields.get k := by
  rw [stripSystem]
  cases Val.asArray (fields.get "system") with
  | none => rfl
  | some blocks => exact Json.lookup_set_of_ne fields _ hk

theorem stripTools_spec {fields fields' : Fields} (h : stripTools fields = some fields') :
    List.Forall₂ (fun tool tool' => stripTool tool = some tool') (itemsOf (fields.get "tools"))
        (itemsOf (fields'.get "tools")) ∧
      ∀ k, k ≠ "tools" → fields'.get k = fields.get k := by
  rw [stripTools] at h
  split at h
  · next tools htools =>
    obtain ⟨tools', htools', rfl⟩ := Option.map_eq_some_iff.1 h
    refine ⟨?_, fun k hk => Json.lookup_set_of_ne fields _ hk⟩
    rw [htools, Entries.get, Json.lookup_set_self]
    exact mapM_forall₂ htools'
  · next htools =>
    obtain rfl := Option.some.inj h
    refine ⟨?_, fun _ _ => rfl⟩
    rw [htools]
    exact .nil
  · next hlist _ =>
    split at h
    · cases h
    · obtain rfl := Option.some.inj h
      refine ⟨?_, fun _ _ => rfl⟩
      -- a list is the first case, so there are no tools here
      have hnone : Val.asArray (fields.get "tools") = none := by
        cases htools : fields.get "tools" with
        | none => rfl
        | some tools =>
          cases tools with
          | array tools => exact absurd htools (hlist tools)
          | _ => rfl
      rw [itemsOf, hnone]
      exact .nil

theorem get_stripSamplingParams (selectedModel : Option ModelProfile) (payload : Payload)
    {k : String} (hk : k ∉ ["temperature", "top_p", "top_k"]) :
    (stripSamplingParams selectedModel payload).fields.get k = payload.fields.get k := by
  simp only [List.mem_cons, List.not_mem_nil, or_false, not_or] at hk
  obtain ⟨htemperature, htop_p, htop_k⟩ := hk
  have hall : (((payload.fields.delete "temperature").delete "top_p").delete "top_k").get k =
      payload.fields.get k := by
    rw [Entries.get_delete_of_ne _ htop_k, Entries.get_delete_of_ne _ htop_p,
      Entries.get_delete_of_ne _ htemperature]
  have hlast (fields : Fields) : Entries.get (if (fields.get "temperature").isSome ∧
      (fields.get "top_p").isSome then fields.delete "top_p" else fields) k = fields.get k := by
    split
    · exact Entries.get_delete_of_ne _ htop_p
    · rfl
  refine (hlast _).trans ?_
  split
  · exact hall
  · rfl

theorem get_applyAdaptiveThinking (effortOf : Val → String) (selectedModel : Option ModelProfile)
    (payload : Payload) {k : String} (hk : k ∉ ["thinking", "output_config"]) :
    (applyAdaptiveThinking effortOf selectedModel payload).fields.get k = payload.fields.get k := by
  simp only [List.mem_cons, List.not_mem_nil, or_false, not_or] at hk
  cases selectedModel with
  | none => rfl
  | some profile =>
    rw [applyAdaptiveThinking]
    split
    · rfl
    · exact (Json.lookup_set_of_ne _ _ hk.2).trans (Json.lookup_set_of_ne _ _ hk.1)

theorem messages_applyAdaptiveThinking (effortOf : Val → String)
    (selectedModel : Option ModelProfile) (payload : Payload) :
    (applyAdaptiveThinking effortOf selectedModel payload).messages = payload.messages := by
  cases selectedModel with
  | none => rfl
  | some profile =>
    rw [applyAdaptiveThinking]
    split <;> rfl

/-! ## The whole preparation -/

theorem stripCacheControl_spec {payload stripped : Payload}
    (h : stripCacheControl payload = some stripped) :
    stripTools (stripSystem payload.fields) = some stripped.fields ∧
      List.Forall₂ (fun msg msg' => stripMessage msg = some msg') payload.messages
        stripped.messages := by
  obtain ⟨fields, hfields, h⟩ := Option.bind_eq_some_iff.1 h
  obtain ⟨messages, hmessages, h⟩ := Option.bind_eq_some_iff.1 h
  obtain rfl := Option.some.inj h
  exact ⟨hfields, mapM_forall₂ hmessages⟩

/-- The passes after the first filter the blocks of the messages, and leave the system and the
tools. -/
theorem prepare_spec {effortOf : Val → String} {selectedModel : Option ModelProfile}
    {payload stripped sent : Payload} (hstrip : stripCacheControl payload = some stripped)
    (hsent : prepareMessagesApiPayload effortOf selectedModel payload = some sent) :
    sent.system = stripped.system ∧ sent.tools = stripped.tools ∧
      List.Forall₂ (fun msg msg' => contentBlocks msg' = (contentBlocks msg).filter (isSent msg))
        stripped.messages sent.messages := by
  obtain ⟨_, hstripped, hsent⟩ := Option.bind_eq_some_iff.1 hsent
  obtain rfl := Option.some.inj (hstrip.symm.trans hstripped)
  obtain ⟨filtered, hfiltered, hsent⟩ := Option.bind_eq_some_iff.1 hsent
  obtain rfl := Option.some.inj hsent
  obtain ⟨messages, hmessages, h⟩ := Option.bind_eq_some_iff.1 hfiltered
  obtain rfl := Option.some.inj h
  refine ⟨?_, ?_, ?_⟩
  · rw [Payload.system, get_applyAdaptiveThinking _ _ _ (by decide),
      get_stripSamplingParams _ _ (by decide), Payload.system]
  · rw [Payload.tools, get_applyAdaptiveThinking _ _ _ (by decide),
      get_stripSamplingParams _ _ (by decide), Payload.tools]
  · rw [messages_applyAdaptiveThinking]
    exact (mapM_forall₂ hmessages).imp fun _ _ hmsg => filterMessage_spec hmsg

/-- Of a message that has been stripped, the blocks that are sent have a scope where the blocks
that the client has sent had one. -/
theorem sent_hasScope_iff {msg stripped sent : Json} (hstrip : stripMessage msg = some stripped)
    (hsent : contentBlocks sent = (contentBlocks stripped).filter (isSent stripped)) :
    (∀ block ∈ contentBlocks sent, hasScope block = false) ↔
      ∀ block ∈ contentBlocks msg, isSent msg block = true → hasScope block = false := by
  have hfilter : (∀ block ∈ contentBlocks sent, hasScope block = false) ↔
      ∀ block ∈ contentBlocks stripped, isSent stripped block = true → hasScope block = false := by
    rw [hsent]
    simp only [List.mem_filter, and_imp]
  refine hfilter.trans (forall_iff_of_forall₂ (stripMessage_spec hstrip).2.2 ?_)
  intro block block' hblock
  rw [isSent_strip hstrip hblock, (stripBlock_spec hblock).2.2.1]

theorem sent_inner {msg stripped sent : Json} (hstrip : stripMessage msg = some stripped)
    (hsent : contentBlocks sent = (contentBlocks stripped).filter (isSent stripped)) :
    ∀ block ∈ contentBlocks sent, ∀ item ∈ innerItems block, item.get "cache_control" = none := by
  have hclean : ∀ block ∈ contentBlocks stripped, ∀ item ∈ innerItems block,
      item.get "cache_control" = none :=
    (forall_iff_of_forall₂ (p := fun _ => True) (stripMessage_spec hstrip).2.2
      fun _ _ hblock => iff_of_true (stripBlock_spec hblock).2.1 trivial).2 fun _ _ => trivial
  rw [hsent]
  exact fun block hblock => hclean block (List.mem_of_mem_filter hblock)

/-- The clean-up is complete where no block of a message that is sent has a scope: those are
passed over. -/
theorem cleanedUp_iff {effortOf : Val → String} {selectedModel : Option ModelProfile}
    {payload stripped sent : Payload} (hstrip : stripCacheControl payload = some stripped)
    (hsent : prepareMessagesApiPayload effortOf selectedModel payload = some sent) :
    CleanedUp payload stripped sent ↔
      ∀ msg ∈ payload.messages, ∀ block ∈ contentBlocks msg, isSent msg block = true →
        hasScope block = false := by
  obtain ⟨hsystem, htools, hfiltered⟩ := prepare_spec hstrip hsent
  obtain ⟨hfields, hstripped⟩ := stripCacheControl_spec hstrip
  obtain ⟨htool, hkept⟩ := stripTools_spec hfields
  rw [get_stripSystem _ (by decide)] at htool
  have hmessages : List.Forall₂ (fun msg sent => ∃ stripped, stripMessage msg = some stripped ∧
      contentBlocks sent = (contentBlocks stripped).filter (isSent stripped))
      payload.messages sent.messages :=
    forall₂_comp hstripped hfiltered
  have hscope := forall_iff_of_forall₂ hmessages
    fun _ _ ⟨_, hmsg, hblocks⟩ => sent_hasScope_iff hmsg hblocks
  refine ⟨fun h => hscope.1 h.content, fun h => ?_⟩
  have hclean : stripped.system = payload.system.map stripCacheControlScope := by
    rw [Payload.system, hkept _ (by decide), system_stripSystem, Payload.system]
  refine ⟨?_, ?_, hscope.2 h, ?_, ?_, ?_, ?_, ?_⟩
  · rw [hsystem, hclean]
    simpa using fun block _ => (stripCacheControlScope_spec block).1
  · rw [htools]
    exact (forall_iff_of_forall₂ (p := fun _ => True) htool
      fun _ _ h => iff_of_true (stripTool_spec h).1 trivial).2 fun _ _ => trivial
  · exact (forall_iff_of_forall₂ (p := fun _ => True) hmessages
      fun _ _ ⟨_, hmsg, hblocks⟩ => iff_of_true (sent_inner hmsg hblocks) trivial).2
        fun _ _ => trivial
  · rw [hclean, List.forall₂_map_right_iff]
    exact List.forall₂_same.2 fun block _ => (stripCacheControlScope_spec block).2
  · exact htool.imp fun _ _ h => (stripTool_spec h).2
  · exact hstripped.imp fun _ _ => messageKept_of_strip
  · exact fun k hk hk' => (hkept k hk').trans (get_stripSystem _ hk)

/-- A text block, cached with these fields. -/
def textBlock (cacheControl : Fields) : Json :=
  .object [("type", .string "text"), ("text", .string "Be brief."),
    ("cache_control", .object cacheControl)]

def userPayload (system block : Json) : Payload where
  messages := [.object [("role", .string "user"), ("content", .array [block])]]
  fields := [("model", .string "claude-haiku-4.5"), ("system", .array [system])]

theorem cleanedUp_iff_system :
    let cached := textBlock [("type", .string "ephemeral")]
    let shared := textBlock [("type", .string "ephemeral"), ("scope", .string "global")]
    CleanedUp (userPayload shared cached) (userPayload cached cached) (userPayload cached cached) :=
  (@cleanedUp_iff (fun _ => "high") none _ _ _ rfl rfl).2 fun _ hmsg _ hblock _ => by
    obtain rfl := List.mem_singleton.1 hmsg
    obtain rfl := List.mem_singleton.1 hblock
    rfl

/-- The scope of a block in a message is left. -/
theorem not_all_cleanedUp :
    ¬ ∀ (effortOf : Val → String) (selectedModel : Option ModelProfile)
      (payload stripped sent : Payload), stripCacheControl payload = some stripped →
      prepareMessagesApiPayload effortOf selectedModel payload = some sent →
      CleanedUp payload stripped sent := by
  intro h
  let cached := textBlock [("type", .string "ephemeral")]
  let shared := textBlock [("type", .string "ephemeral"), ("scope", .string "global")]
  have hclean := h (fun _ => "high") none (userPayload cached shared) _ _ rfl rfl
  have hscope := hclean.content _ (List.mem_singleton_self _) shared (List.mem_singleton_self _)
  exact Bool.noConfusion hscope

end Maximal.Preprocess
