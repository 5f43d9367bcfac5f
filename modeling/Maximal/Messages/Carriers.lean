import Maximal.Messages.ResponsesDelivery
import Maximal.Messages.ResponsesRequest

/-!
# Reasoning and compaction items through the client

A reasoning or compaction item travels to the client as a thinking block whose signature holds
the item's id and encrypted content. The client sends the block back, and the request translator
makes the item of it again.

## Main definitions

- `Carrier` — id and encrypted content that fit into a signature
- `IsReasoning`, `IsCompaction` — the output items that bring a carrier
- `SendsBack` — what a thinking block in the history becomes

## Main results

- `sendsBack_reasoning`, `sendsBack_compaction` — signatures are read back
- `carriers_roundtrip` — items survive the client, whichever translator made the block
-/

namespace Maximal.Responses

open Js Emitter

/-- Id and encrypted content of an item. Neither contains the separator, and the encrypted content
does not look like the signature of a compaction. -/
structure Carrier where
  id : String
  encryptedContent : String
  id_ne : id ≠ ""
  encryptedContent_ne : encryptedContent ≠ ""
  id_separable : '@' ∉ id.toList
  encryptedContent_separable : '@' ∉ encryptedContent.toList
  encryptedContent_plain : startsWith encryptedContent COMPACTION_SIGNATURE_PREFIX = false

namespace Carrier

variable (c : Carrier)

def reasoningSignature : String := c.encryptedContent ++ "@" ++ c.id

def compactionSignature : String :=
  COMPACTION_SIGNATURE_PREFIX ++ c.encryptedContent ++ COMPACTION_SIGNATURE_SEPARATOR ++ c.id

/-! ## Reading signatures -/

theorem toList_separator : COMPACTION_SIGNATURE_SEPARATOR.toList = ['@'] := rfl

theorem length_pos_of_ne {s : String} (h : s ≠ "") : 0 < s.toList.length :=
  List.length_pos_iff.2 (mt String.toList_eq_nil_iff.1 h)

theorem decode_compactionSignature :
    decodeCompactionCarrierSignature c.compactionSignature =
      some ⟨c.id, c.encryptedContent⟩ := by
  have hraw : slice c.compactionSignature COMPACTION_SIGNATURE_PREFIX.length =
      c.encryptedContent ++ (COMPACTION_SIGNATURE_SEPARATOR ++ c.id) := by
    rw [compactionSignature, String.append_assoc, String.append_assoc]
    exact slice_right COMPACTION_SIGNATURE_PREFIX _
  have hstarts : startsWith c.compactionSignature COMPACTION_SIGNATURE_PREFIX := by
    rw [compactionSignature, String.append_assoc, String.append_assoc]
    exact startsWith_append _ _
  have hid := length_pos_of_ne c.id_ne
  have hencrypted := length_pos_of_ne c.encryptedContent_ne
  have hlength : (c.encryptedContent ++ (COMPACTION_SIGNATURE_SEPARATOR ++ c.id)).toList.length =
      c.encryptedContent.toList.length + (c.id.toList.length + 1) := by
    rw [toList_separated toList_separator, List.length_append, List.length_cons]
  rw [decodeCompactionCarrierSignature, if_pos hstarts]
  simp only [hraw, indexOf_separated toList_separator c.encryptedContent_separable]
  rw [if_neg (by omega), hraw, slice_separated toList_separator, slice_left]

/-- A reasoning signature does not start like one of a compaction. -/
theorem decode_reasoningSignature :
    decodeCompactionCarrierSignature c.reasoningSignature = none := by
  have hstarts : startsWith c.reasoningSignature COMPACTION_SIGNATURE_PREFIX = false := by
    rw [Bool.eq_false_iff]
    intro h
    have hsignature : c.reasoningSignature.toList =
        c.encryptedContent.toList ++ ['@'] ++ c.id.toList := by
      rw [reasoningSignature, String.toList_append, String.toList_append]
      rfl
    rw [startsWith, List.isPrefixOf_iff_prefix, hsignature] at h
    -- the prefix ends within the encrypted content, or reaches the separator
    rcases List.prefix_or_prefix_of_prefix h (List.prefix_append _ _) with hprefix | hprefix
    · rcases List.prefix_concat_iff.1 hprefix with heq | hprefix
      · have hmem : '@' ∈ COMPACTION_SIGNATURE_PREFIX.toList := by simp [heq]
        exact absurd hmem (by decide)
      · have hplain := c.encryptedContent_plain
        rw [startsWith, Bool.eq_false_iff, Ne, List.isPrefixOf_iff_prefix] at hplain
        exact hplain hprefix
    · have hmem : '@' ∈ COMPACTION_SIGNATURE_PREFIX.toList := hprefix.subset (by simp)
      exact absurd hmem (by decide)
  rw [decodeCompactionCarrierSignature, if_neg (by simp [hstarts])]

theorem parse_reasoningSignature :
    parseReasoningSignature c.reasoningSignature = (c.encryptedContent, c.id) := by
  have hsignature : c.reasoningSignature =
      c.encryptedContent ++ (COMPACTION_SIGNATURE_SEPARATOR ++ c.id) :=
    String.append_assoc
  have hid := length_pos_of_ne c.id_ne
  have hencrypted := length_pos_of_ne c.encryptedContent_ne
  have hlength : (c.encryptedContent ++ (COMPACTION_SIGNATURE_SEPARATOR ++ c.id)).toList.length =
      c.encryptedContent.toList.length + (c.id.toList.length + 1) := by
    rw [toList_separated toList_separator, List.length_append, List.length_cons]
  rw [parseReasoningSignature, hsignature]
  simp only [lastIndexOf_separated toList_separator c.id_separable]
  rw [if_neg (by omega), slice_separated toList_separator, slice_left]

theorem includes_reasoningSignature : includes c.reasoningSignature "@" := by
  rw [reasoningSignature, String.append_assoc]
  exact includes_append _ _ _

theorem reasoningSignature_ne : c.reasoningSignature ≠ "" := by
  intro h
  have hincludes := c.includes_reasoningSignature
  rw [h] at hincludes
  exact absurd hincludes (by decide)

theorem compactionSignature_ne : c.compactionSignature ≠ "" := by
  intro h
  have hnone : decodeCompactionCarrierSignature "" = none := by decide
  rw [← h, c.decode_compactionSignature] at hnone
  cases hnone

/-- The reasoning item with a given text: the placeholder stands for no text. -/
def reasoning (thinking : String) : ResponseInputItem :=
  .reasoning ⟨c.id, if thinking = "" ∨ thinking = THINKING_TEXT then [] else [thinking],
    c.encryptedContent⟩

def compaction : ResponseInputItem := .compaction ⟨c.id, c.encryptedContent⟩

end Carrier

/-! ## Blocks in the history -/

section History

variable (stringify : Json → String) (getExtraPromptForModel : String → String)

/-- Wherever the block stands in an assistant message, and whatever comes before and after this
message, it becomes one input item in its place. -/
def SendsBack (block : AnthropicThinkingBlock) (item : ResponseInputItem) : Prop :=
  ∀ (model : String) (system : Option (Content AnthropicTextBlock))
    (before after : List AnthropicMessage) (as bs : List AnthropicAssistantContentBlock),
    let content := Content.blocks (as ++ .thinking block :: bs)
    let applyPhase := shouldApplyPhase getExtraPromptForModel model
    let phase := resolveAssistantPhase content applyPhase
    (translateAnthropicMessagesToResponsesPayload stringify getExtraPromptForModel
      ⟨model, before ++ .assistant content :: after, system⟩).input =
        before.flatMap (translateMessage stringify applyPhase) ++
          (assistantItems stringify phase as ++ item :: assistantItems stringify phase bs) ++
            after.flatMap (translateMessage stringify applyPhase)

variable {stringify}

theorem sendsBack_of_assistantItem {block : AnthropicThinkingBlock} {item : ResponseInputItem}
    (h : assistantItem stringify (.thinking block) = some item) :
    SendsBack stringify getExtraPromptForModel block item := by
  intro model system before after as bs content applyPhase phase
  have hmessage : translateMessage stringify applyPhase (.assistant content) =
      assistantItems stringify phase as ++ item :: assistantItems stringify phase bs :=
    Batch.items_append_cons_own h [] as bs
  show (before ++ .assistant content :: after).flatMap (translateMessage stringify applyPhase) = _
  rw [List.flatMap_append, List.flatMap_cons, hmessage, ← List.append_assoc]

variable (stringify) (c : Carrier)

theorem sendsBack_reasoning (thinking : String) :
    SendsBack stringify getExtraPromptForModel ⟨thinking, c.reasoningSignature⟩
      (c.reasoning thinking) := by
  refine sendsBack_of_assistantItem _ ?_
  have hreasoning : createReasoningContent ⟨thinking, c.reasoningSignature⟩ =
      ⟨c.id, if thinking = "" ∨ thinking = THINKING_TEXT then [] else [thinking],
        c.encryptedContent⟩ := by
    rw [createReasoningContent, c.parse_reasoningSignature]
    by_cases ht : thinking = THINKING_TEXT
    · simp [ht]
    · by_cases he : thinking = ""
      · simp [he]
      · simp [ht, he]
  rw [assistantItem, if_neg c.reasoningSignature_ne, createCompactionContent,
    c.decode_reasoningSignature]
  dsimp only
  rw [if_pos c.includes_reasoningSignature, hreasoning]
  rfl

theorem sendsBack_compaction (thinking : String) :
    SendsBack stringify getExtraPromptForModel ⟨thinking, c.compactionSignature⟩ c.compaction := by
  refine sendsBack_of_assistantItem _ ?_
  rw [assistantItem, if_neg c.compactionSignature_ne, createCompactionContent,
    c.decode_compactionSignature]
  rfl

end History

/-! ## Items as blocks -/

/-- The texts one after the other. -/
def joined (texts : List String) : String := texts.foldr (· ++ ·) ""

/-- A reasoning item with the texts of its summary. -/
structure IsReasoning (item : Json) (c : Carrier) (texts : List String) : Prop where
  type : item.get "type" = some (.string "reasoning")
  id : item.get "id" = some (.string c.id)
  encryptedContent : item.get "encrypted_content" = some (.string c.encryptedContent)
  summary : texts = [] ∧ (item.get "summary").truthy = false ∨
    ∃ blocks, item.get "summary" = some (.array blocks) ∧
      List.Forall₂ (fun block text => block.get "text" = some (.string text)) blocks texts

structure IsCompaction (item : Json) (c : Carrier) : Prop where
  type : item.get "type" = some (.string "compaction")
  id : item.get "id" = some (.string c.id)
  encryptedContent : item.get "encrypted_content" = some (.string c.encryptedContent)

variable {item : Json} {c : Carrier} {texts : List String}

theorem prop_of_get {j v : Json} {k : String} (h : j.get k = some v) :
    Val.prop (some j) k = .ok (some v) := by
  cases j with
  | null => cases h
  | _ => exact congrArg Except.ok h

theorem concatTexts_of_forall₂ {blocks : List Json}
    (h : List.Forall₂ (fun block text => block.get "text" = some (.string text)) blocks texts) :
    concatTexts summaryBlockText blocks = .ok (joined texts) := by
  induction h with
  | nil => rfl
  | cons htext _ ih =>
    rw [concatTexts, summaryBlockText, prop_of_get htext, ih]
    rfl

theorem isMissingOrEmpty_array (blocks : List Json) :
    isMissingOrEmpty (some (.array blocks)) = blocks.isEmpty := by
  cases blocks with
  | nil => rfl
  | cons block blocks =>
    have hlength : ((blocks.length + 1 : ℕ) : ℤ) ≠ 0 := by omega
    exact decide_eq_false hlength

theorem IsReasoning.isMissingOrEmpty_summary (h : IsReasoning item c texts) :
    isMissingOrEmpty (item.get "summary") = texts.isEmpty := by
  rcases h.summary with ⟨rfl, hfalse⟩ | ⟨blocks, hsummary, htexts⟩
  · rw [isMissingOrEmpty, hfalse]
    rfl
  · rw [hsummary, isMissingOrEmpty_array]
    cases htexts <;> rfl

theorem IsReasoning.extractReasoningText (h : IsReasoning item c texts) :
    extractReasoningText item =
      .ok (if texts.isEmpty then THINKING_TEXT else trim (joined texts)) := by
  rw [Responses.extractReasoningText, h.isMissingOrEmpty_summary]
  split
  · rfl
  · next hne =>
    rcases h.summary with ⟨rfl, -⟩ | ⟨blocks, hsummary, htexts⟩
    · exact absurd rfl hne
    · rw [hsummary]
      show (concatTexts summaryBlockText blocks).map trim = _
      rw [concatTexts_of_forall₂ htexts]
      rfl

theorem IsReasoning.reasoningSignature (h : IsReasoning item c texts) :
    reasoningSignature item = .ok c.reasoningSignature := by
  rw [Responses.reasoningSignature, h.encryptedContent, h.id]
  rfl

theorem IsCompaction.encode (h : IsCompaction item c) :
    encodeCompactionCarrierSignature (item.get "id") (item.get "encrypted_content") =
      .ok c.compactionSignature := by
  rw [h.id, h.encryptedContent]
  rfl

theorem truthy_string {s : String} (h : s ≠ "") : Val.truthy (some (.string s)) = true := by
  simpa [Val.truthy, Json.truthy] using h

/-- The mapper of results makes a thinking block of a reasoning item, unless its summary is
blank. -/
theorem mapOutputItem_reasoning (parse : String → Option Json) (h : IsReasoning item c texts)
    (hne : texts = [] ∨ trim (joined texts) ≠ "") :
    mapOutputItem parse item = .ok [.thinking
      ⟨if texts.isEmpty then THINKING_TEXT else trim (joined texts), c.reasoningSignature⟩] := by
  have htext : (if texts.isEmpty then THINKING_TEXT else trim (joined texts)) ≠ "" := by
    rcases hne with rfl | hne
    · decide
    · split
      · decide
      · exact hne
  rw [mapOutputItem, prop_of_get h.type]
  show (do
    let thinkingText ← extractReasoningText item
    _) = _
  rw [h.extractReasoningText]
  show (if (if texts.isEmpty then THINKING_TEXT else trim (joined texts)) = "" then _ else _) = _
  rw [if_neg htext, h.reasoningSignature]
  rfl

theorem mapOutputItem_compaction (parse : String → Option Json) (h : IsCompaction item c) :
    mapOutputItem parse item = .ok [.thinking ⟨THINKING_TEXT, c.compactionSignature⟩] := by
  have hid : (item.get "id").truthy = true := by rw [h.id]; exact truthy_string c.id_ne
  have hencrypted : (item.get "encrypted_content").truthy = true := by
    rw [h.encryptedContent]
    exact truthy_string c.encryptedContent_ne
  rw [mapOutputItem, prop_of_get h.type]
  show (if !(item.get "id").truthy || !(item.get "encrypted_content").truthy then _ else _) = _
  rw [hid, hencrypted, if_neg (by decide), h.encode]
  rfl

/-! ## Items in a stream -/

/-- The frame that ends an output item. -/
structure IsItemDone (rawEvent : RawEvent) (item : Json) : Prop where
  type : rawEvent.value.get "type" = some (.string "response.output_item.done")
  item : Val.asRecord (rawEvent.value.get "item") = some item

namespace Fragment

def isSummary : Fragment → Bool
  | .summaryDelta _ _ | .summaryDone _ _ => true
  | _ => false

end Fragment

variable {rawEvent : RawEvent} {f : Fragment}

theorem IsItemDone.readItemDone (hd : IsItemDone rawEvent item)
    (hread : readFragment rawEvent = some f) : readItemDone rawEvent.value = some f := by
  have hrecord : rawEvent.value.isRecord := by
    have htype := hd.type
    cases h : rawEvent.value with
    | array items => rfl
    | object fields => rfl
    | _ => simp [h, Json.get] at htype
  rw [readFragment, if_pos hrecord, readRecord, hd.type] at hread
  exact hread

theorem IsItemDone.reasoning (hd : IsItemDone rawEvent item) (h : IsReasoning item c texts)
    (hread : readFragment rawEvent = some f) :
    ∃ key, f = .reasoningDone key c.reasoningSignature texts.isEmpty := by
  have hdone := hd.readItemDone hread
  rw [Responses.readItemDone, hd.item] at hdone
  dsimp only at hdone
  rw [h.type, h.reasoningSignature, h.isMissingOrEmpty_summary] at hdone
  obtain ⟨key, -, hkey⟩ := Option.bind_eq_some_iff.1 hdone
  exact ⟨key, (Option.some.inj hkey).symm⟩

theorem IsItemDone.compaction (hd : IsItemDone rawEvent item) (h : IsCompaction item c)
    (hread : readFragment rawEvent = some f) :
    ∃ key, f = .compactionDone key c.compactionSignature := by
  have hid : (item.get "id").truthy = true := by rw [h.id]; exact truthy_string c.id_ne
  have hencrypted : (item.get "encrypted_content").truthy = true := by
    rw [h.encryptedContent]
    exact truthy_string c.encryptedContent_ne
  have hdone := hd.readItemDone hread
  rw [Responses.readItemDone, hd.item] at hdone
  dsimp only at hdone
  rw [h.type, hid, hencrypted, h.encode] at hdone
  obtain ⟨key, -, hkey⟩ := Option.bind_eq_some_iff.1 hdone
  exact ⟨key, (Option.some.inj hkey).symm⟩

/-- Summaries do not sign a block. -/
theorem signature_foldl_summary {fs : List Fragment} (h : ∀ f ∈ fs, f.isSummary) (b : PartBlock) :
    (fs.foldl Fragment.extend b).signature = b.signature ∧
      (fs.foldl Fragment.extend b).start = b.start := by
  induction fs generalizing b with
  | nil => exact ⟨rfl, rfl⟩
  | cons f fs ih =>
    obtain ⟨hsignature, hstart⟩ := ih (fun g hg => h g (List.mem_cons_of_mem _ hg)) (f.extend b)
    rw [List.foldl_cons, hsignature, hstart]
    have hf := h f (List.mem_cons_self ..)
    cases f with
    | summaryDelta key delta => exact ⟨rfl, rfl⟩
    | summaryDone key text =>
      rw [Fragment.extend]
      split <;> exact ⟨rfl, rfl⟩
    | _ => cases hf

/-- The thinking block of a reasoning item whose summary came before its end. -/
theorem partBlock_reasoning {fs : List Fragment} {text : String} (h : ∀ f ∈ fs, f.isSummary)
    (ht : Speaks fs text) (index : ℕ) (key signature : String) :
    ((partBlock index (fs ++ [.reasoningDone key signature false])).streamed index).thinking? =
      some ⟨text, signature⟩ := by
  have hfresh : partBlock index (fs ++ [.reasoningDone key signature false]) =
      (fs ++ [Fragment.reasoningDone key signature false]).foldl Fragment.extend
        (.fresh (.thinking "")) := by
    cases fs with
    | nil => rfl
    | cons f fs =>
      have hf := h f (List.mem_cons_self ..)
      cases f with
      | summaryDelta key delta => rfl
      | summaryDone key text => rfl
      | _ => cases hf
  obtain ⟨hsignature, hstart⟩ := signature_foldl_summary h (.fresh (.thinking ""))
  have htext := ht.text_foldl (.thinking "")
  rw [hfresh, List.foldl_append, List.foldl_cons, List.foldl_nil]
  generalize fs.foldl Fragment.extend (.fresh (.thinking "")) = b at hsignature hstart htext
  obtain ⟨start, said, sig, hasDelta⟩ := b
  obtain rfl : start = .thinking "" := hstart
  obtain rfl : sig = "" := hsignature
  obtain rfl : said = text := htext
  simp [Fragment.extend, PartBlock.sign, PartBlock.mark, PartBlock.streamed,
    StreamedBlock.thinking?]

/-! ## There and back -/

/-- What a client sends back after a response, part by part. -/
theorem exists_readBlocks (parse : String → Option Json) (estimatedInputTokens : Option Number)
    {rawEvents ends : List RawEvent} {fragments : List Fragment}
    (hread : List.Forall₂ (fun rawEvent f => readFragment rawEvent = some f) rawEvents fragments)
    (hends : ∀ rawEvent ∈ ends, endsResponse rawEvent) (h : Orderly fragments) {p : Part}
    (hp : p ∈ parts fragments) :
    ∃ i, (partBlock i (fragmentsOf fragments p)).streamed i ∈
      readBlocks (run (translateResponsesStreamEvent parse)
        (createResponsesStreamState estimatedInputTokens) (rawEvents ++ ends)).outputs := by
  obtain ⟨i, hi⟩ := List.mem_iff_getElem?.1 hp
  refine ⟨i, ?_⟩
  rw [readBlocks_run parse estimatedInputTokens hread hends h]
  exact List.mem_of_getElem? (i := i) (by simp [contents, hi])

/-- In the part of an item the frame that ends the item comes last, after `fs`. -/
structure StreamsItem (rawEvents : List RawEvent) (fragments : List Fragment) (item : Json)
    (fs : List Fragment) : Prop where
  read : List.Forall₂ (fun rawEvent f => readFragment rawEvent = some f) rawEvents fragments
  orderly : Orderly fragments
  done : ∃ rawEvent ∈ rawEvents, IsItemDone rawEvent item ∧
    ∃ f p, readFragment rawEvent = some f ∧ f.part = some p ∧ fragmentsOf fragments p = fs ++ [f]

theorem StreamsItem.exists_block {rawEvents ends : List RawEvent} {fragments fs : List Fragment}
    (h : StreamsItem rawEvents fragments item fs) (hends : ∀ rawEvent ∈ ends, endsResponse rawEvent)
    (parse : String → Option Json) (estimatedInputTokens : Option Number) :
    ∃ rawEvent f i, IsItemDone rawEvent item ∧ readFragment rawEvent = some f ∧
      (partBlock i (fs ++ [f])).streamed i ∈
        readBlocks (run (translateResponsesStreamEvent parse)
          (createResponsesStreamState estimatedInputTokens) (rawEvents ++ ends)).outputs := by
  obtain ⟨rawEvent, -, hdone, f, p, hread, -, hpart⟩ := h.done
  have hp : p ∈ parts fragments := by
    have hmem : f ∈ fragmentsOf fragments p := by simp [hpart]
    obtain ⟨hf, hfp⟩ := List.mem_filter.1 hmem
    exact mem_parts.2 ⟨f, hf, of_decide_eq_true hfp⟩
  obtain ⟨i, hi⟩ := exists_readBlocks parse estimatedInputTokens h.read hends h.orderly hp
  exact ⟨rawEvent, f, i, hdone, hread, hpart ▸ hi⟩

/-- A reasoning or compaction item survives the way through the client. The mapper of results
trims the text of a summary; a stream passes it on as it is. A text that is the placeholder is
taken for none. -/
theorem carriers_roundtrip (stringify : Json → String) (getExtraPromptForModel : String → String)
    (parse : String → Option Json) (estimatedInputTokens : Option Number) (c : Carrier)
    (item : Json) :
    (∀ texts, IsReasoning item c texts → (texts = [] ∨ trim (joined texts) ≠ "") →
      ∃ block, mapOutputItem parse item = .ok [.thinking block] ∧
        SendsBack stringify getExtraPromptForModel block (c.reasoning (trim (joined texts)))) ∧
    (IsCompaction item c →
      ∃ block, mapOutputItem parse item = .ok [.thinking block] ∧
        SendsBack stringify getExtraPromptForModel block c.compaction) ∧
    ∀ rawEvents ends fragments fs, StreamsItem rawEvents fragments item fs →
      (∀ rawEvent ∈ ends, endsResponse rawEvent) →
      let blocks := readBlocks (run (translateResponsesStreamEvent parse)
        (createResponsesStreamState estimatedInputTokens) (rawEvents ++ ends)).outputs
      (∀ texts, IsReasoning item c texts → (∀ f ∈ fs, f.isSummary) →
        (if texts.isEmpty then fs = [] else Speaks fs (joined texts)) →
        ∃ block ∈ blocks.filterMap (·.thinking?),
          SendsBack stringify getExtraPromptForModel block (c.reasoning (joined texts))) ∧
      (IsCompaction item c → fs = [] →
        ∃ block ∈ blocks.filterMap (·.thinking?),
          SendsBack stringify getExtraPromptForModel block c.compaction) := by
  refine ⟨fun texts h hne => ?_, fun h => ?_, fun rawEvents ends fragments fs h hends => ?_⟩
  · refine ⟨_, mapOutputItem_reasoning parse h hne, ?_⟩
    have hback := sendsBack_reasoning stringify getExtraPromptForModel c
      (if texts.isEmpty then THINKING_TEXT else trim (joined texts))
    cases texts with
    | nil => exact hback
    | cons text texts => exact hback
  · exact ⟨_, mapOutputItem_compaction parse h, sendsBack_compaction _ _ c _⟩
  · obtain ⟨rawEvent, f, i, hdone, hread, hblock⟩ := h.exists_block hends parse estimatedInputTokens
    refine ⟨fun texts hitem hsummary hspeaks => ?_, fun hitem hfs => ?_⟩
    · obtain ⟨key, rfl⟩ := hdone.reasoning hitem hread
      cases texts with
      | nil =>
        obtain rfl : fs = [] := hspeaks
        exact ⟨⟨THINKING_TEXT, c.reasoningSignature⟩, List.mem_filterMap.2 ⟨_, hblock, rfl⟩,
          sendsBack_reasoning _ _ c _⟩
      | cons text texts =>
        exact ⟨_, List.mem_filterMap.2 ⟨_, hblock, partBlock_reasoning hsummary hspeaks i key _⟩,
          sendsBack_reasoning _ _ c _⟩
    · obtain ⟨key, rfl⟩ := hdone.compaction hitem hread
      subst hfs
      exact ⟨⟨THINKING_TEXT, c.compactionSignature⟩, List.mem_filterMap.2 ⟨_, hblock, rfl⟩,
        sendsBack_compaction _ _ c _⟩

def exampleCarrier : Carrier where
  id := "rs_1"
  encryptedContent := "enc"
  id_ne := by decide
  encryptedContent_ne := by decide
  id_separable := by decide
  encryptedContent_separable := by decide
  encryptedContent_plain := by decide

/-- A reasoning item with one summary. -/
def reasoningItem (text : String) : Json :=
  .object [("type", .string "reasoning"), ("id", .string "rs_1"),
    ("encrypted_content", .string "enc"),
    ("summary", .array [.object [("type", .string "summary_text"), ("text", .string text)]])]

theorem isReasoning_reasoningItem (text : String) :
    IsReasoning (reasoningItem text) exampleCarrier [text] where
  type := rfl
  id := rfl
  encryptedContent := rfl
  summary := .inr ⟨_, rfl, .cons rfl .nil⟩

/-- The summary of the item as a delta, then the item as a whole. -/
def reasoningFrames : List RawEvent :=
  [⟨0, .object [("type", .string "response.reasoning_summary_text.delta"),
      ("output_index", .number (.ofNat 0)), ("delta", .string "plan ")]⟩,
    ⟨1, .object [("type", .string "response.output_item.done"),
      ("output_index", .number (.ofNat 0)), ("item", reasoningItem "plan ")]⟩]

theorem carriers_roundtrip_plan :
    (∃ block, mapOutputItem (fun _ => none) (reasoningItem "plan ") = .ok [.thinking block] ∧
      SendsBack (fun _ => "") (fun _ => "") block (.reasoning ⟨"rs_1", ["plan"], "enc"⟩)) ∧
    ∃ block ∈ (readBlocks (run (translateResponsesStreamEvent fun _ => none)
        (createResponsesStreamState none) (reasoningFrames ++ [])).outputs).filterMap (·.thinking?),
      SendsBack (fun _ => "") (fun _ => "") block (.reasoning ⟨"rs_1", ["plan "], "enc"⟩) := by
  obtain ⟨hresult, -, hstream⟩ := carriers_roundtrip (fun _ => "") (fun _ => "") (fun _ => none) none
    exampleCarrier (reasoningItem "plan ")
  let fragments : List Fragment :=
    [.summaryDelta "0:0" "plan ", .reasoningDone "0:0" "enc@rs_1" false]
  have hspeaks : Speaks [.summaryDelta "0:0" "plan "] "plan " := .deltas (by decide)
  have hdelivers : ∀ p ∈ parts fragments, Delivers (fragmentsOf fragments p) "plan " :=
    List.forall_mem_singleton.2 (.signed hspeaks "0:0" "enc@rs_1")
  have horderly : Orderly fragments := by
    refine orderly_of_delivers (by decide) hdelivers fun k hrun => ?_
    have hnil : argumentChars fragments k = [] := rfl
    exact absurd hrun.lt_length (by simp [hnil])
  have hstreams : StreamsItem reasoningFrames fragments (reasoningItem "plan ")
      [.summaryDelta "0:0" "plan "] :=
    ⟨.cons rfl (.cons rfl .nil), horderly, _, List.mem_cons_of_mem _ (List.mem_singleton_self _),
      ⟨rfl, rfl⟩, _, .block "0:0", rfl, rfl, rfl⟩
  refine ⟨hresult ["plan "] (isReasoning_reasoningItem _) (.inr (by decide)), ?_⟩
  exact (hstream reasoningFrames [] _ _ hstreams (by decide)).1 ["plan "]
    (isReasoning_reasoningItem _) (by decide) hspeaks

/-- The claim without exceptions fails for a summary that reads like the placeholder. -/
theorem not_all_carriers_roundtrip :
    ¬∀ (stringify : Json → String) (getExtraPromptForModel : String → String)
      (parse : String → Option Json) (c : Carrier) (item : Json) (texts : List String),
      IsReasoning item c texts →
      ∃ block, mapOutputItem parse item = .ok [.thinking block] ∧
        SendsBack stringify getExtraPromptForModel block (.reasoning ⟨c.id,
          if trim (joined texts) = "" then [] else [trim (joined texts)], c.encryptedContent⟩) := by
  intro h
  obtain ⟨block, hblock, hback⟩ := h (fun _ => "") (fun _ => "") (fun _ => none) exampleCarrier
    (reasoningItem THINKING_TEXT) [THINKING_TEXT] (isReasoning_reasoningItem _)
  have hthinking : mapOutputItem (fun _ => none) (reasoningItem THINKING_TEXT) =
      .ok [.thinking ⟨THINKING_TEXT, exampleCarrier.reasoningSignature⟩] := rfl
  obtain rfl : _ = block := by simpa using hthinking.symm.trans hblock
  have hitems := (hback "" none [] [] [] []).symm.trans
    (sendsBack_reasoning (fun _ => "") (fun _ => "") exampleCarrier THINKING_TEXT "" none [] [] [] [])
  have hitem := ResponseInputItem.reasoning.inj (List.cons.inj hitems).1
  exact absurd (congrArg ResponseInputReasoning.summary hitem) (by decide)

end Maximal.Responses
