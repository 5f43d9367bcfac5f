import Maximal.Lib.Distribution
import Maximal.Messages.Preprocess

/-!
# What merging keeps

A user message is merged into its tool results. Texts and attachments are distributed over the
tool results; an attachment can only go to a tool result that is no error and holds no tool
reference.

## Main definitions

- `ToolResultBlock.receives` — a tool result with texts and attachments added
- `LosesNothing` — the merged content is the tool results with everything else added
- `takesAttachments` — a condition on the content

## Main results

- `merge_losesNothing_iff` — nothing is lost exactly when there is no attachment, or a tool result
  that takes them
-/

namespace Maximal.Preprocess

open Js

/-! ## The blocks of a content -/

def UserContentBlock.toolResult? : UserContentBlock → Option ToolResultBlock
  | .toolResult block => some block
  | _ => none

def UserContentBlock.text? : UserContentBlock → Option AnthropicTextBlock
  | .text block => some block
  | _ => none

def UserContentBlock.attachment? : UserContentBlock → Option AttachmentBlock
  | .attachment block => some block
  | _ => none

/-- Texts and attachments added to a tool result. Texts are appended to a text and added to
blocks; where a tool reference is held they are discarded. -/
def ToolResultBlock.receives (tr : ToolResultBlock) (texts : List AnthropicTextBlock)
    (attachments : List AttachmentBlock) : ToolResultBlock :=
  match tr.content with
  | some (.text s) =>
    let text := String.intercalate "\n\n" (s :: texts.map (·.text))
    if attachments = [] then { tr with content := some (.text text) }
    else { tr with content := some (.blocks (.text ⟨text⟩ :: attachments.map (·.inner))) }
  | _ =>
    let texts := if hasToolRef tr then [] else texts
    if texts = [] ∧ attachments = [] then tr
    else
      { tr with
        content := some (.blocks
          (resultBlocks tr ++ texts.map .text ++ attachments.map (·.inner))) }

/-- The merged content is the tool results in their order, and every text and every attachment
went to one of them; each of them has its attachments in their order. -/
def LosesNothing (content merged : List UserContentBlock) : Prop :=
  let toolResults := content.filterMap (·.toolResult?)
  ∃ (said : ℕ → List AnthropicTextBlock) (placed : ℕ → List AttachmentBlock),
    Distributes (List.range toolResults.length) said (content.filterMap (·.text?)) ∧
    Distributes (List.range toolResults.length) placed (content.filterMap (·.attachment?)) ∧
    (∀ i, (placed i).Sublist (content.filterMap (·.attachment?))) ∧
    merged = toolResults.mapIdx fun i tr => .toolResult (tr.receives (said i) (placed i))

/-- There is no attachment, or a tool result that takes attachments. -/
def takesAttachments (content : List UserContentBlock) : Bool :=
  (content.filterMap (·.attachment?)).isEmpty ||
    (content.filterMap (·.toolResult?)).any isMergeable

/-! ## Texts -/

section Texts

variable (tr : ToolResultBlock) (texts : List AnthropicTextBlock)

theorem receives_nil : tr.receives [] [] = tr := by
  obtain ⟨id, content, isError⟩ := tr
  rcases content with _ | (s | bs)
  · simp [ToolResultBlock.receives]
  · simp [ToolResultBlock.receives]
  · simp [ToolResultBlock.receives]

theorem mergeContentWithTexts_eq (h : texts ≠ []) :
    mergeContentWithTexts tr texts = tr.receives texts [] := by
  obtain ⟨id, content, isError⟩ := tr
  rcases content with _ | (s | bs)
  · simp [mergeContentWithTexts, ToolResultBlock.receives, hasToolRef, h]
  · obtain ⟨t, ts, rfl⟩ := List.exists_cons_of_ne_nil h
    simp [mergeContentWithTexts, ToolResultBlock.receives, String.intercalate_cons_cons]
  · cases href : hasToolRef ⟨id, some (.blocks bs), isError⟩ <;>
      simp [mergeContentWithTexts, ToolResultBlock.receives, h, href]

theorem mergeContentWithText_eq (text : AnthropicTextBlock) :
    mergeContentWithText tr text = tr.receives [text] [] := by
  rw [← mergeContentWithTexts_eq tr [text] (List.cons_ne_nil _ _)]
  obtain ⟨id, content, isError⟩ := tr
  rcases content with _ | (s | bs) <;> simp [mergeContentWithText, mergeContentWithTexts]

/-- Texts hold no tool reference. -/
theorem hasToolRef_receives : hasToolRef (tr.receives texts []) = hasToolRef tr := by
  have htexts : (texts.map AnthropicToolResultContentBlock.text).any isToolReference = false := by
    rw [List.any_map, List.any_eq_false]
    exact fun _ _ => Bool.noConfusion
  rw [ToolResultBlock.receives]
  split
  · next s hs => rw [if_pos rfl, hasToolRef, hasToolRef, hs]
  · cases href : hasToolRef tr with
    | true => simpa using href
    | false =>
      dsimp only
      rw [if_neg Bool.false_ne_true]
      split
      · exact href
      · have hbs : (resultBlocks tr).any isToolReference = false := by
          revert href
          rw [hasToolRef, resultBlocks]
          cases tr.content with
          | none => exact fun _ => rfl
          | some content => cases content <;> simp
        simp only [hasToolRef, List.any_append, hbs, htexts, List.map_nil, List.any_nil,
          Bool.or_self]

theorem isMergeable_receives : isMergeable (tr.receives texts []) = isMergeable tr := by
  have herror : (tr.receives texts []).isError = tr.isError := by
    rw [ToolResultBlock.receives]
    split
    · rw [if_pos rfl]
    · dsimp only
      split <;> split <;> rfl
  rw [isMergeable, isMergeable, hasToolRef_receives, herror]

theorem mergeContentWithAttachments_eq {attachments : List AttachmentBlock} (h : attachments ≠ [])
    (hmergeable : isMergeable tr) :
    mergeContentWithAttachments (tr.receives texts []) attachments =
      tr.receives texts attachments := by
  have href : hasToolRef tr = false := by
    rw [isMergeable, Bool.not_eq_true', Bool.or_eq_false_iff] at hmergeable
    exact hmergeable.2
  obtain ⟨id, content, isError⟩ := tr
  rcases content with _ | (s | bs)
  · cases texts <;>
      simp [mergeContentWithAttachments, ToolResultBlock.receives, href, h, resultBlocks]
  · simp [mergeContentWithAttachments, ToolResultBlock.receives, h]
  · cases texts <;>
      simp [mergeContentWithAttachments, ToolResultBlock.receives, href, h, resultBlocks]

end Texts

/-- The texts are distributed over the tool results. -/
theorem mergeToolResult_spec {toolResults : List ToolResultBlock}
    {texts : List AnthropicTextBlock} (hresults : toolResults ≠ []) (htexts : texts ≠ []) :
    ∃ said, Distributes (List.range toolResults.length) said texts ∧
      mergeToolResult toolResults texts =
        toolResults.mapIdx fun i tr => tr.receives (said i) [] := by
  rw [mergeToolResult]
  split
  · next hlen =>
    refine ⟨fun i => texts[i]?.toList, hlen ▸ distributes_getElem? texts, ?_⟩
    refine List.ext_getElem (by simp [hlen]) fun i hi hi' => ?_
    have hlt : i < texts.length := by simpa [hlen] using hi'
    simp [mergeContentWithText_eq, List.getElem?_eq_getElem hlt]
  · refine ⟨fun i => if i = toolResults.length - 1 then texts else [], ?_, ?_⟩
    · have hlast : toolResults.length - 1 ∈ List.range toolResults.length :=
        List.mem_range.2 (Nat.sub_one_lt (mt List.length_eq_zero_iff.1 hresults))
      have hempty : Distributes (List.range toolResults.length)
          (fun _ => ([] : List AnthropicTextBlock)) [] := .empty _
      exact hempty.add List.nodup_range hlast (by simp) fun j hj => by simp [hj]
    · congr 1
      funext i tr
      dsimp only
      by_cases hi : i = toolResults.length - 1
      · rw [if_pos hi, if_pos hi, mergeContentWithTexts_eq tr texts htexts]
      · rw [if_neg hi, if_neg hi, receives_nil]

/-! ## Attachments -/

/-- The attachments `xs` are assigned to tool results at the given indices. -/
structure Assigned (n : ℕ) (indices : List ℕ) (target : Assignment)
    (xs : List IndexedAttachment) : Prop where
  all : Distributes (List.range n) (fun i => (target.get i).getD []) xs
  nonempty : ∀ i, target.get i ≠ some []
  keys : ∀ i, (target.get i).isSome → i ∈ indices

namespace Assigned

variable {n : ℕ} {indices : List ℕ} {target : Assignment} {xs : List IndexedAttachment}

theorem empty (n : ℕ) (indices : List ℕ) : Assigned n indices [] [] where
  all := .empty _
  nonempty := by simp
  keys := by simp

/-- The indices are those of tool results. -/
theorem push (h : Assigned n indices target xs) (hn : ∀ i ∈ indices, i < n) {i : ℕ}
    (hi : i ∈ indices) {as : List IndexedAttachment} (has : as ≠ []) :
    Assigned n indices (Preprocess.push target i as) (xs ++ as) where
  all := by
    refine h.all.add List.nodup_range (List.mem_range.2 (hn i hi)) ?_ fun j hj => ?_
    · rw [Preprocess.push, Entries.get_set_self, Option.getD_some]
    · rw [Preprocess.push, Entries.get_set_of_ne _ _ hj]
  nonempty := by
    intro j
    by_cases hj : j = i
    · rw [hj, Preprocess.push, Entries.get_set_self]
      simp [has]
    · rw [Preprocess.push, Entries.get_set_of_ne _ _ hj]
      exact h.nonempty j
  keys := by
    intro j hsome
    by_cases hj : j = i
    · rwa [hj]
    · rw [Preprocess.push, Entries.get_set_of_ne _ _ hj] at hsome
      exact h.keys j hsome

/-- One attachment for each index. -/
theorem pushAll (hn : ∀ i ∈ indices, i < n) {is : List ℕ} {as : List IndexedAttachment}
    (h : Assigned n indices target xs) (his : ∀ i ∈ is, i ∈ indices)
    (hlen : is.length = as.length) :
    Assigned n indices ((is.zip as).foldl (fun target e => Preprocess.push target e.1 [e.2]) target)
      (xs ++ as) := by
  induction is generalizing as target xs with
  | nil =>
    obtain rfl := List.length_eq_zero_iff.1 hlen.symm
    rwa [List.append_nil]
  | cons i is ih =>
    obtain ⟨a, as, rfl⟩ := List.exists_cons_of_length_eq_add_one hlen.symm
    rw [List.zip_cons_cons, List.foldl_cons, List.append_cons]
    exact ih (h.push hn (his i (List.mem_cons_self ..)) (List.cons_ne_nil _ _))
      (fun j hj => his j (List.mem_cons_of_mem _ hj)) (Nat.succ.inj hlen)

/-- With an index to fall back to, no attachment is left over. -/
theorem assign (h : Assigned n indices target xs) (hn : ∀ i ∈ indices, i < n)
    {is fallback : List ℕ} (his : ∀ i ∈ is, i ∈ indices) (hfallback : ∀ i ∈ fallback, i ∈ indices)
    (hne : fallback ≠ []) (as : List IndexedAttachment) :
    Assigned n indices (assignAttachmentsToToolResults target as is fallback) (xs ++ as) := by
  rw [assignAttachmentsToToolResults]
  split
  · next hnil =>
    rw [List.length_eq_zero_iff.1 hnil, List.append_nil]
    exact h
  · next hsome =>
    split
    · next hcount => exact pushAll hn h his hcount.2
    · rw [List.getLast?_eq_some_getLast hne]
      exact h.push hn (hfallback _ (List.getLast_mem hne)) (mt List.length_eq_zero_iff.2 hsome)

end Assigned

section Attachments

variable {toolResults : List ToolResultBlock} {attachments : List IndexedAttachment}

theorem mem_getMergeableToolResultIndices {i : ℕ} :
    i ∈ getMergeableToolResultIndices toolResults ↔
      ∃ tr, toolResults[i]? = some tr ∧ isMergeable tr := by
  simp [getMergeableToolResultIndices, List.mem_zipIdx_iff_getElem?]

/-- The documents matched first, and the attachments that remain. -/
theorem filter_matched_append (hordered : attachments.Pairwise (·.order < ·.order)) (k : ℕ) :
    ((attachments.filter (·.attachment.isDocument)).take k ++ attachments.filter fun a =>
      !a.attachment.isDocument ||
        a.order ∉ ((attachments.filter (·.attachment.isDocument)).take k).map (·.order)).Perm
      attachments := by
  have horders : ((attachments.filter (·.attachment.isDocument)).map (·.order)).Nodup :=
    List.pairwise_map.2 ((hordered.sublist List.filter_sublist).imp fun hlt => hlt.ne)
  have hmatched := filter_mem_take horders k
  rw [List.filter_filter] at hmatched
  generalize (attachments.filter (·.attachment.isDocument)).take k = matched at hmatched ⊢
  have hsplit := List.filter_append_perm
    (fun a => decide (a.order ∈ matched.map (·.order)) && a.attachment.isDocument) attachments
  have hrest : ∀ a : IndexedAttachment,
      (!(decide (a.order ∈ matched.map (·.order)) && a.attachment.isDocument)) =
        (!a.attachment.isDocument || decide (a.order ∉ matched.map (·.order))) := by
    intro a
    rw [Bool.not_and, Bool.or_comm, decide_not]
  rwa [hmatched, funext hrest] at hsplit

/-- Every attachment is assigned, if a tool result takes attachments. -/
theorem assignAttachments_assigned (hordered : attachments.Pairwise (·.order < ·.order))
    (hne : getMergeableToolResultIndices toolResults ≠ []) :
    Assigned toolResults.length (getMergeableToolResultIndices toolResults)
      (assignAttachments toolResults attachments) attachments := by
  have hn : ∀ i ∈ getMergeableToolResultIndices toolResults, i < toolResults.length := by
    intro i hi
    obtain ⟨tr, htr, -⟩ := mem_getMergeableToolResultIndices.1 hi
    exact (List.getElem?_eq_some_iff.1 htr).1
  have hempty := Assigned.empty toolResults.length (getMergeableToolResultIndices toolResults)
  rw [assignAttachments]
  dsimp only
  split
  · next hpdf =>
    set pdfRead := pdfReadToolResultIndices toolResults
      (getMergeableToolResultIndices toolResults) with hpdfRead
    set k := min pdfRead.length (attachments.filter (·.attachment.isDocument)).length with hk
    have hpos : 0 < k := lt_min hpdf.2 hpdf.1
    have htake : ∀ i ∈ pdfRead.take k, i ∈ getMergeableToolResultIndices toolResults :=
      fun i hi => (List.mem_filter.1 (List.mem_of_mem_take hi)).1
    have hsome : pdfRead.take k ≠ [] := by
      rw [Ne, List.take_eq_nil_iff, not_or]
      exact ⟨hpos.ne', List.ne_nil_of_length_pos hpdf.2⟩
    have hfirst := hempty.assign hn htake htake hsome
      ((attachments.filter (·.attachment.isDocument)).take k)
    have hothers : ∀ i ∈ (getMergeableToolResultIndices toolResults).filter (· ∉ pdfRead.take k),
        i ∈ getMergeableToolResultIndices toolResults := fun i hi => (List.mem_filter.1 hi).1
    have hrest := hfirst.assign hn hothers (fun _ hi => hi) hne (attachments.filter fun a =>
      !a.attachment.isDocument || a.order ∉
        ((attachments.filter (·.attachment.isDocument)).take k).map (·.order))
    rw [List.nil_append] at hrest
    exact { hrest with all := hrest.all.perm (filter_matched_append hordered k) }
  · have hall := hempty.assign hn (fun _ hi => hi) (fun _ hi => hi) hne attachments
    rwa [List.nil_append] at hall

theorem map_mapIdx {α β γ : Type} (f : ℕ → α → β) (g : β → γ) (xs : List α) :
    (xs.mapIdx f).map g = xs.mapIdx fun i x => g (f i x) :=
  List.ext_getElem (by simp) (by simp)

theorem mapIdx_self {α : Type} (xs : List α) : (xs.mapIdx fun _ x => x) = xs :=
  List.ext_getElem (by simp) (by simp)

theorem orderedAttachments_eq_nil {as : List IndexedAttachment} :
    orderedAttachments as = [] ↔ as = [] := by
  rw [orderedAttachments, List.map_eq_nil_iff]
  exact ⟨fun h => (h ▸ List.perm_insertionSort _ as).symm.eq_nil, fun h => by rw [h]; rfl⟩

theorem mergeAttachmentsIntoToolResults_eq {target : Assignment}
    (h : ∀ i, target.get i ≠ some []) :
    mergeAttachmentsIntoToolResults toolResults target =
      toolResults.mapIdx fun i tr =>
        if orderedAttachments ((target.get i).getD []) = [] then tr
        else mergeContentWithAttachments tr (orderedAttachments ((target.get i).getD [])) := by
  rw [mergeAttachmentsIntoToolResults]
  split
  · next hempty =>
    obtain rfl := List.length_eq_zero_iff.1 hempty
    simp [orderedAttachments, mapIdx_self]
  · congr 1
    funext i tr
    have hne := h i
    cases hget : target.get i with
    | none => simp [orderedAttachments]
    | some as =>
      have has : as ≠ [] := fun hnil => hne (hget.trans (congrArg some hnil))
      simp [orderedAttachments_eq_nil, has]

/-- Where nothing is placed the tool result stays, elsewhere it receives the attachments. -/
theorem mergeAttachmentsForToolResults_spec (hordered : attachments.Pairwise (·.order < ·.order))
    (hne : getMergeableToolResultIndices toolResults ≠ []) :
    ∃ placed, Distributes (List.range toolResults.length) placed (attachments.map (·.attachment)) ∧
      (∀ i, (placed i).Sublist (attachments.map (·.attachment))) ∧
      (∀ i, placed i ≠ [] → i ∈ getMergeableToolResultIndices toolResults) ∧
      mergeAttachmentsForToolResults toolResults attachments =
        toolResults.mapIdx fun i tr =>
          if placed i = [] then tr else mergeContentWithAttachments tr (placed i) := by
  have h := assignAttachments_assigned hordered hne
  set target := assignAttachments toolResults attachments with htarget
  have hkeys : ∀ i, (target.get i).getD [] ≠ [] → i ∈ getMergeableToolResultIndices toolResults := by
    intro i hsome
    refine h.keys i (Option.isSome_iff_ne_none.2 fun hnone => hsome ?_)
    rw [hnone, Option.getD_none]
  refine ⟨fun i => orderedAttachments ((target.get i).getD []), ?_, fun i => ?_, fun i hi => ?_, ?_⟩
  · exact (h.all.congr_perm fun i _ => List.perm_insertionSort _ _).map _
  · have hsub : ((target.get i).getD []).Subperm attachments := by
      by_cases hi : (target.get i).getD [] = []
      · rw [hi]
        exact List.nil_subperm
      · obtain ⟨tr, htr, -⟩ := mem_getMergeableToolResultIndices.1 (hkeys i hi)
        exact h.all.subperm (List.mem_range.2 (List.getElem?_eq_some_iff.1 htr).1)
    exact (insertionSort_sublist hsub hordered).map _
  · exact hkeys i (mt orderedAttachments_eq_nil.2 hi)
  · rw [mergeAttachmentsForToolResults]
    split
    · next hnil =>
      have hnone : ∀ i, (target.get i).getD [] = [] := by
        intro i
        rw [htarget, List.length_eq_zero_iff.1 hnil]
        simp [assignAttachments, assignAttachmentsToToolResults]
      simp [hnone, orderedAttachments, mapIdx_self]
    · exact mergeAttachmentsIntoToolResults_eq h.nonempty

/-- A content without a tool result that takes attachments loses them. -/
theorem mergeAttachmentsForToolResults_of_not_mergeable
    (h : getMergeableToolResultIndices toolResults = []) :
    mergeAttachmentsForToolResults toolResults attachments = toolResults := by
  rw [mergeAttachmentsForToolResults]
  split
  · rfl
  · next hsome =>
    have htarget : assignAttachments toolResults attachments = [] := by
      rw [assignAttachments, h]
      simp [pdfReadToolResultIndices, assignAttachmentsToToolResults]
    rw [htarget]
    rfl

end Attachments

/-! ## Contents -/

/-- The blocks of a content that can be merged, by their kind. -/
theorem collectFrom_spec {order : ℕ} {content : List UserContentBlock} {m : MergeableUserContent}
    (h : collectFrom order content = some m) :
    m.toolResults = content.filterMap (·.toolResult?) ∧
      m.textBlocks = content.filterMap (·.text?) ∧
      m.attachments.map (·.attachment) = content.filterMap (·.attachment?) ∧
      m.attachments.Pairwise (·.order < ·.order) ∧ ∀ a ∈ m.attachments, order ≤ a.order := by
  induction content generalizing order m with
  | nil =>
    obtain rfl := Option.some.inj h
    exact ⟨rfl, rfl, rfl, .nil, by simp⟩
  | cons block content ih =>
    rw [collectFrom] at h
    obtain ⟨rest, hrest, h⟩ := Option.bind_eq_some_iff.1 h
    obtain ⟨hresults, htexts, hattachments, hordered, hfrom⟩ := ih hrest
    have hlater : ∀ a ∈ rest.attachments, order ≤ a.order := fun a ha =>
      (Nat.le_succ order).trans (hfrom a ha)
    cases block with
    | toolResult tr =>
      obtain rfl := Option.some.inj h
      exact ⟨congrArg (tr :: ·) hresults, htexts, hattachments, hordered, hlater⟩
    | text text =>
      obtain rfl := Option.some.inj h
      exact ⟨hresults, congrArg (text :: ·) htexts, hattachments, hordered, hlater⟩
    | attachment attachment =>
      obtain rfl := Option.some.inj h
      refine ⟨hresults, htexts, congrArg (attachment :: ·) hattachments,
        List.pairwise_cons.2 ⟨fun a ha => hfrom a ha, hordered⟩, ?_⟩
      exact List.forall_mem_cons.2 ⟨le_rfl, hlater⟩
    | other block => cases h

/-- The tool results before attachments are merged. -/
theorem mergeUserMessageContent_spec {content : List UserContentBlock}
    {merged : List ToolResultBlock} (h : mergeUserMessageContent content = some merged) :
    ∃ said attachments, let toolResults := content.filterMap (·.toolResult?)
      Distributes (List.range toolResults.length) said (content.filterMap (·.text?)) ∧
      attachments.map IndexedAttachment.attachment = content.filterMap (·.attachment?) ∧
      attachments.Pairwise (·.order < ·.order) ∧
      merged = mergeAttachmentsForToolResults
        (toolResults.mapIdx fun i tr => tr.receives (said i) []) attachments := by
  rw [mergeUserMessageContent] at h
  obtain ⟨m, hm, h⟩ := Option.bind_eq_some_iff.1 h
  obtain ⟨hresults, htexts, hattachments, hordered, -⟩ := collectFrom_spec hm
  obtain ⟨toolResults, textBlocks, attachments⟩ := m
  dsimp only at hresults htexts hattachments hordered h
  subst hresults htexts
  split at h
  · cases h
  · next hmerge =>
    obtain rfl := Option.some.inj h
    rw [not_or] at hmerge
    have hne := mt List.length_eq_zero_iff.2 hmerge.1
    by_cases hnone : content.filterMap (·.text?) = []
    · refine ⟨fun _ => [], attachments, ?_, hattachments, hordered, ?_⟩
      · rw [hnone]
        exact .empty _
      · simp only [hnone, List.length_nil, if_true, receives_nil, mapIdx_self]
    · obtain ⟨said, hsaid, heq⟩ := mergeToolResult_spec hne hnone
      refine ⟨said, attachments, hsaid, hattachments, hordered, ?_⟩
      rw [if_neg (mt List.length_eq_zero_iff.1 hnone), heq]

/-- A block inside a tool result as an attachment, if it is one. -/
def attachmentOf : AnthropicToolResultContentBlock → Option AttachmentBlock
  | .image block => some (.image block)
  | .document block => some (.document block)
  | _ => none

/-- The attachments among the blocks of a tool result. -/
def heldAttachments (tr : ToolResultBlock) : List AttachmentBlock :=
  (resultBlocks tr).filterMap attachmentOf

theorem attachmentOf_inner (attachments : List AttachmentBlock) :
    (attachments.map (·.inner)).filterMap attachmentOf = attachments := by
  have hinner : ∀ a : AttachmentBlock, attachmentOf a.inner = some a := by
    intro a
    cases a <;> rfl
  rw [List.filterMap_map, show attachmentOf ∘ (·.inner) = some from funext hinner,
    List.filterMap_some]

theorem attachmentOf_text (texts : List AnthropicTextBlock) :
    (texts.map AnthropicToolResultContentBlock.text).filterMap attachmentOf = [] := by
  rw [List.filterMap_map, List.filterMap_eq_nil_iff]
  exact fun _ _ => rfl

theorem heldAttachments_receives (tr : ToolResultBlock) (texts : List AnthropicTextBlock)
    (attachments : List AttachmentBlock) :
    heldAttachments (tr.receives texts attachments) = heldAttachments tr ++ attachments := by
  rw [ToolResultBlock.receives]
  split
  · next s hs =>
    have hnone : heldAttachments tr = [] := by rw [heldAttachments, resultBlocks, hs]; rfl
    rw [hnone, List.nil_append]
    dsimp only
    split
    · next hnil => rw [hnil]; rfl
    · exact attachmentOf_inner attachments
  · dsimp only
    generalize (if hasToolRef tr = true then [] else texts) = spoken
    split
    · next hnil => rw [hnil.2, List.append_nil]
    · show List.filterMap attachmentOf (resultBlocks tr ++ _ ++ _) = _
      rw [heldAttachments, List.filterMap_append, List.filterMap_append, attachmentOf_inner,
        attachmentOf_text, List.append_nil]

theorem length_flatMap_mapIdx {α β γ : Type} {r : ℕ → α → β} {f : α → List γ} {g : ℕ → List γ}
    {h : β → List γ} (hr : ∀ i x, h (r i x) = f x ++ g i) (xs : List α) :
    ((xs.mapIdx r).flatMap h).length =
      (xs.flatMap f).length + ((List.range xs.length).flatMap g).length := by
  induction xs using List.reverseRecOn with
  | nil => rfl
  | append_singleton xs x ih =>
    rw [List.mapIdx_concat, List.flatMap_append, List.flatMap_append, List.length_append,
      List.length_append, List.length_append, List.length_singleton, List.range_succ,
      List.flatMap_append, List.length_append, ih]
    simp only [List.flatMap_singleton, hr, List.length_append]
    omega

/-- The merged content holds the attachments of the tool results and those that were added. -/
theorem length_heldAttachments {content : List UserContentBlock} {merged : List ToolResultBlock}
    (h : LosesNothing content (merged.map .toolResult)) :
    (merged.flatMap heldAttachments).length =
      ((content.filterMap (·.toolResult?)).flatMap heldAttachments).length +
        (content.filterMap (·.attachment?)).length := by
  obtain ⟨said, placed, -, hplaced, -, hmerged⟩ := h
  have heq : merged = (content.filterMap (·.toolResult?)).mapIdx fun i tr =>
      tr.receives (said i) (placed i) := by
    have hinj : Function.Injective UserContentBlock.toolResult := fun _ _ h => by cases h; rfl
    refine List.map_injective_iff.2 hinj ?_
    rw [hmerged, map_mapIdx]
  rw [heq, length_flatMap_mapIdx fun i tr => heldAttachments_receives tr (said i) (placed i)]
  exact congrArg _ hplaced.length_eq

theorem mergeUserMessageContent_losesNothing_iff {content : List UserContentBlock}
    {merged : List ToolResultBlock} (h : mergeUserMessageContent content = some merged) :
    LosesNothing content (merged.map .toolResult) ↔ takesAttachments content := by
  obtain ⟨said, attachments, hsaid, hattachments, hordered, rfl⟩ := mergeUserMessageContent_spec h
  have hmergeable : (getMergeableToolResultIndices
      ((content.filterMap (·.toolResult?)).mapIdx fun i tr => tr.receives (said i) []) ≠ []) ↔
      (content.filterMap (·.toolResult?)).any isMergeable := by
    have hne : ∀ is : List ℕ, is ≠ [] ↔ ∃ i, i ∈ is := fun is =>
      ⟨List.exists_mem_of_ne_nil is, fun h => h.elim fun _ => List.ne_nil_of_mem⟩
    rw [List.any_eq_true, hne]
    constructor
    · rintro ⟨i, hi⟩
      obtain ⟨tr', htr', hm⟩ := mem_getMergeableToolResultIndices.1 hi
      rw [List.getElem?_mapIdx, Option.map_eq_some_iff] at htr'
      obtain ⟨tr, htr, rfl⟩ := htr'
      exact ⟨tr, List.mem_of_getElem? htr, isMergeable_receives tr (said i) ▸ hm⟩
    · rintro ⟨tr, htr, hm⟩
      obtain ⟨i, hi⟩ := List.mem_iff_getElem?.1 htr
      refine ⟨i, mem_getMergeableToolResultIndices.2 ⟨tr.receives (said i) [], ?_, ?_⟩⟩
      · rw [List.getElem?_mapIdx, hi, Option.map_some]
      · exact (isMergeable_receives tr (said i)).trans hm
  generalize htools : content.filterMap (·.toolResult?) = toolResults at *
  by_cases hm : toolResults.any isMergeable
  · refine iff_of_true ?_ (by rw [takesAttachments, htools, hm, Bool.or_true])
    obtain ⟨placed, hplaced, hsub, hkeys, heq⟩ :=
      mergeAttachmentsForToolResults_spec hordered (hmergeable.2 hm)
    rw [List.length_mapIdx] at hplaced
    refine ⟨said, placed, htools ▸ hsaid, htools ▸ hattachments ▸ hplaced,
      fun i => hattachments ▸ hsub i, ?_⟩
    rw [heq, htools, map_mapIdx]
    refine List.ext_getElem (by simp) fun i hi hi' => ?_
    simp only [List.getElem_mapIdx]
    refine congrArg UserContentBlock.toolResult ?_
    split
    · next hnil => rw [hnil]
    · next hsome =>
      obtain ⟨tr, htr, hmtr⟩ := mem_getMergeableToolResultIndices.1 (hkeys i hsome)
      have hlt : i < toolResults.length := by simpa using hi'
      rw [List.getElem?_mapIdx, List.getElem?_eq_getElem hlt, Option.map_some,
        Option.some_inj] at htr
      rw [← htr, isMergeable_receives] at hmtr
      exact mergeContentWithAttachments_eq _ _ hsome hmtr
  · rw [mergeAttachmentsForToolResults_of_not_mergeable (not_not.1 (mt hmergeable.1 hm)),
      takesAttachments, htools, Bool.eq_false_iff.2 hm, Bool.or_false, List.isEmpty_iff]
    constructor
    · intro hnothing
      have hlen := length_heldAttachments hnothing
      rw [htools, length_flatMap_mapIdx (g := fun _ => []) fun i tr =>
        heldAttachments_receives tr (said i) []] at hlen
      simpa using hlen
    · intro hnone
      refine ⟨said, fun _ => [], htools ▸ hsaid, ?_, fun _ => List.nil_sublist _, ?_⟩
      · rw [hnone]
        exact .empty _
      · rw [htools, map_mapIdx]

/-- What is rewritten in a user message loses nothing exactly when it has no attachment, or a tool
result that takes attachments. -/
theorem merge_losesNothing_iff {skipLastMessage : Bool} {messages : List Message} {i : ℕ}
    {content merged : List UserContentBlock}
    (hbefore : messages[i]? = some (.user (.blocks content)))
    (hafter : (mergeToolResultForClaude skipLastMessage messages)[i]? =
      some (.user (.blocks merged)))
    (hrewritten : merged ≠ content) :
    LosesNothing content merged ↔ takesAttachments content := by
  rw [mergeToolResultForClaude, List.getElem?_mapIdx, hbefore, Option.map_some,
    Option.some_inj] at hafter
  split at hafter
  · cases hafter
    exact absurd rfl hrewritten
  · rw [mergeMessage] at hafter
    split at hafter
    · next mergedContent hmerge =>
      cases hafter
      exact mergeUserMessageContent_losesNothing_iff hmerge
    · cases hafter
      exact absurd rfl hrewritten

def anImage : AnthropicImageBlock := ⟨"image/png", "iVBORw0KGgo="⟩

/-- An image next to the output of a tool. -/
theorem merge_losesNothing_iff_image :
    let content := [UserContentBlock.toolResult ⟨"call_1", some (.text "done"), none⟩,
      .attachment (.image anImage)]
    let merged := [UserContentBlock.toolResult
      ⟨"call_1", some (.blocks [.text ⟨"done"⟩, .image anImage]), none⟩]
    LosesNothing content merged ↔ takesAttachments content :=
  @merge_losesNothing_iff false [.user (.blocks _)] 0 _ _ rfl rfl (by simp)

/-- An image next to a tool result that reports an error is dropped. -/
theorem not_all_losesNothing :
    ¬ ∀ (skipLastMessage : Bool) (messages : List Message) (i : ℕ)
      (content merged : List UserContentBlock),
      messages[i]? = some (.user (.blocks content)) →
      (mergeToolResultForClaude skipLastMessage messages)[i]? = some (.user (.blocks merged)) →
      merged ≠ content → LosesNothing content merged := by
  intro h
  have hlost := h false [.user (.blocks [.toolResult ⟨"call_1", some (.text "failed"), some true⟩,
    .attachment (.image anImage)])] 0 _ [.toolResult ⟨"call_1", some (.text "failed"), some true⟩]
    rfl rfl (by simp)
  have hlen := @length_heldAttachments _ [⟨"call_1", some (.text "failed"), some true⟩] hlost
  revert hlen
  decide

end Maximal.Preprocess
