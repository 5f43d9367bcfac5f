import Maximal.Models.Models
import Mathlib.Data.List.Nodup

/-!
# The catalog that clients see

The listing leaves out the variants of a model and rewrites the ids of the rest. A request names a
listed id and asks for a variant by its parameters; the handler finds its way back to one model of
the catalog.

## Main definitions

- `isVariantId`, `pickCopilotVariantId` — variants by the end of an id
- `listModels` — the body of `/v1/models`, in the shape that the client wants
- `selectModel` — the model that a request is sent to
- `Serves` — the model is the first variant asked for that exists

## Main results

- `selectModel_forwardId` — a request for a listed id
- `listed_models_served` — every listed id is served, and which models are served at all
-/

namespace Maximal.Models

open Js Regex

/-! ## Variants -/

inductive Effort where
  | low | medium | high | xhigh | max
  deriving DecidableEq, Repr

def Effort.text : Effort → String
  | .low => "low"
  | .medium => "medium"
  | .high => "high"
  | .xhigh => "xhigh"
  | .max => "max"

structure VariantOpts where
  effort : Option Effort := none
  longContext : Bool := false

/-- `low|medium|high|xhigh|max|1m`. -/
def VARIANT_NAME_RE : Regex :=
  .alt (.text "low".toList) <| .alt (.text "medium".toList) <| .alt (.text "high".toList) <|
    .alt (.text "xhigh".toList) <| .alt (.text "max".toList) (.text "1m".toList)

def VARIANT_RE : Regex :=
  .seq (.text ['-']) (.seq VARIANT_NAME_RE (.opt (.text "-internal".toList)))

/-- The expression ends with the text and starts anywhere. -/
def isVariantId (copilotId : String) : Bool :=
  FORWARD_RE.test copilotId.toList && copilotId.toList.tails.any VARIANT_RE.test

def effortSuffixes : Option Effort → List String
  | none | some .low | some .medium => []
  | some effort => ["-" ++ effort.text]

/-- What is tried behind the base id, in this order. -/
def wantedSuffixes (opts : VariantOpts) : List String :=
  effortSuffixes opts.effort ++ if opts.longContext then ["-1m-internal", "-1m"] else []

def pickCopilotVariantId (baseId : String) (opts : VariantOpts) (knownIds : List String) :
    String :=
  if isVariantId baseId then baseId
  else if !FORWARD_RE.test baseId.toList then baseId
  else (((wantedSuffixes opts).map (baseId ++ ·)).find? (· ∈ knownIds)).getD baseId

/-! ## The listing -/

structure ModelLimits where
  max_context_window_tokens : Option ℕ := none
  max_output_tokens : Option ℕ := none

structure ModelSupports where
  structured_outputs : Option Bool := none
  vision : Option Bool := none
  adaptive_thinking : Option Bool := none
  reasoning_effort : Option (List String) := none

structure CatalogModel extends Model where
  name : String
  vendor : String
  limits : Option ModelLimits := none
  supports : Option ModelSupports := none

/-- The fields of a profile that the listing shows. -/
structure ModelProfile where
  isReasoning : Bool
  supportsVision : Bool
  supportsStructuredOutputs : Bool
  maxContextWindowTokens : ℕ
  maxOutputTokens : ℕ

/-- What is not there is not supported. -/
def resolveModelProfile (model : CatalogModel) : ModelProfile :=
  let limits := model.limits.getD {}
  let supports := model.supports.getD {}
  { isReasoning :=
      supports.adaptive_thinking = some true || 0 < (supports.reasoning_effort.getD []).length
    supportsVision := supports.vision = some true
    supportsStructuredOutputs := supports.structured_outputs = some true
    maxContextWindowTokens := limits.max_context_window_tokens.getD 0
    maxOutputTokens := limits.max_output_tokens.getD 0 }

structure OpenAiModel where
  id : String
  created : ℕ
  owned_by : String

structure AnthropicModel where
  id : String
  display_name : String
  max_input_tokens : ℕ
  max_tokens : ℕ
  image_input : Bool
  pdf_input : Bool
  structured_outputs : Bool
  thinking : Bool

def toOpenAiModel (model : CatalogModel) : OpenAiModel where
  id := forwardId model.id
  created := 0
  owned_by := model.vendor

def toAnthropicModel (model : CatalogModel) : AnthropicModel :=
  let profile := resolveModelProfile model
  { id := forwardId model.id
    display_name := model.name
    max_input_tokens := profile.maxContextWindowTokens
    max_tokens := profile.maxOutputTokens
    image_input := profile.supportsVision
    pdf_input := profile.supportsVision
    structured_outputs := profile.supportsStructuredOutputs
    thinking := profile.isReasoning }

inductive ModelList where
  | openAi (data : List OpenAiModel)
  | anthropic (data : List AnthropicModel) (first_id last_id : Option String)

def openAiModelList (models : List CatalogModel) : ModelList := .openAi (models.map toOpenAiModel)

def anthropicModelList (models : List CatalogModel) : ModelList :=
  let data := models.map toAnthropicModel
  .anthropic data (data.head?.map AnthropicModel.id) (data.getLast?.map AnthropicModel.id)

structure Headers where
  anthropicVersion : Option String := none
  userAgent : Option String := none
  anthropicBeta : Option String := none

def prefersAnthropicModels (headers : Headers) : Bool :=
  let ua := toLowerCase (headers.userAgent.getD "")
  headers.anthropicVersion.any (· ≠ "") || startsWith ua "anthropic/" || startsWith ua "claude"

/-- The models that the listing shows. -/
def listed (catalog : List CatalogModel) : List CatalogModel :=
  catalog.filter fun model => !isVariantId model.id

def listModels (headers : Headers) (catalog : List CatalogModel) : ModelList :=
  if prefersAnthropicModels headers then anthropicModelList (listed catalog)
  else openAiModelList (listed catalog)

def ModelList.ids : ModelList → List String
  | .openAi data => data.map OpenAiModel.id
  | .anthropic data _ _ => data.map AnthropicModel.id

/-! ## Requests -/

/-- What a request says about its model. -/
structure Wish where
  model : String
  effort : Option Effort := none

def isLongContext (headers : Headers) : Bool :=
  headers.anthropicBeta.any (includes · "context-1m-2025-08-07")

def resolveCopilotModel (headers : Headers) (wish : Wish) (catalog : List CatalogModel) : String :=
  pickCopilotVariantId (reverseId wish.model) ⟨wish.effort, isLongContext headers⟩
    (catalog.map fun model => model.id)

def selectModel (headers : Headers) (wish : Wish) (catalog : List CatalogModel) : Option Model :=
  findInModels (resolveCopilotModel headers wish catalog) (catalog.map CatalogModel.toModel)

/-! ## Picking -/

/-- The id is the first one that is wanted and known, or the base id when there is none. -/
inductive Serves (knownIds : List String) (opts : VariantOpts) (baseId : String) : String → Prop
  | variant {before after : List String} {suffix : String}
      (dotted : FORWARD_RE.test baseId.toList = true)
      (wanted : wantedSuffixes opts = before ++ suffix :: after)
      (known : baseId ++ suffix ∈ knownIds) (first : ∀ other ∈ before, baseId ++ other ∉ knownIds) :
      Serves knownIds opts baseId (baseId ++ suffix)
  | base (none : FORWARD_RE.test baseId.toList = true →
      ∀ suffix ∈ wantedSuffixes opts, baseId ++ suffix ∉ knownIds) :
      Serves knownIds opts baseId baseId

theorem serves_pickCopilotVariantId {baseId : String} (h : isVariantId baseId = false)
    (opts : VariantOpts) (knownIds : List String) :
    Serves knownIds opts baseId (pickCopilotVariantId baseId opts knownIds) := by
  rw [pickCopilotVariantId, if_neg (by rw [h]; exact Bool.false_ne_true), List.find?_map]
  cases hdotted : FORWARD_RE.test baseId.toList with
  | false => exact .base fun htrue => absurd (hdotted.symm.trans htrue) Bool.false_ne_true
  | true =>
    cases hfind : (wantedSuffixes opts).find? ((· ∈ knownIds) ∘ (baseId ++ ·)) with
    | none =>
      refine .base fun _ suffix hsuffix hknown => ?_
      exact List.find?_eq_none.1 hfind suffix hsuffix (decide_eq_true hknown)
    | some suffix =>
      obtain ⟨hknown, before, after, hwanted, hfirst⟩ := List.find?_eq_some_iff_append.1 hfind
      refine .variant hdotted hwanted (of_decide_eq_true hknown) fun other hother => ?_
      simpa using hfirst other hother

/-- The first one that is wanted is known. -/
theorem Serves.of_head {knownIds : List String} {opts : VariantOpts} {baseId suffix : String}
    {after : List String} (hdotted : FORWARD_RE.test baseId.toList = true)
    (hwanted : wantedSuffixes opts = suffix :: after) (hknown : baseId ++ suffix ∈ knownIds) :
    Serves knownIds opts baseId (baseId ++ suffix) :=
  .variant hdotted (hwanted.trans (List.nil_append _).symm) hknown nofun

/-- There is one such id. -/
theorem Serves.unique {knownIds : List String} {opts : VariantOpts} {baseId id id' : String}
    (h : Serves knownIds opts baseId id) (h' : Serves knownIds opts baseId id') : id = id' := by
  have hfind : ∀ {before after suffix}, wantedSuffixes opts = before ++ suffix :: after →
      baseId ++ suffix ∈ knownIds → (∀ other ∈ before, baseId ++ other ∉ knownIds) →
      (wantedSuffixes opts).find? (fun suffix => baseId ++ suffix ∈ knownIds) = some suffix :=
    fun hwanted hknown hfirst => List.find?_eq_some_iff_append.2
      ⟨decide_eq_true hknown, _, _, hwanted, fun other hother => by simpa using hfirst other hother⟩
  have hmem : ∀ {before after suffix}, wantedSuffixes opts = before ++ suffix :: after →
      suffix ∈ wantedSuffixes opts := fun hwanted => by
    rw [hwanted]
    exact List.mem_append_right _ List.mem_cons_self
  cases h with
  | variant dotted wanted known first =>
    cases h' with
    | variant _ wanted' known' first' =>
      rw [Option.some.inj ((hfind wanted known first).symm.trans (hfind wanted' known' first'))]
    | base none => exact absurd known (none dotted _ (hmem wanted))
  | base none =>
    cases h' with
    | variant dotted' wanted' known' _ => exact absurd known' (none dotted' _ (hmem wanted'))
    | base _ => rfl

/-- The id is known, if the base id is. -/
theorem Serves.mem {knownIds : List String} {opts : VariantOpts} {baseId id : String}
    (h : Serves knownIds opts baseId id) (hbase : baseId ∈ knownIds) : id ∈ knownIds := by
  cases h with
  | variant _ _ known _ => exact known
  | base _ => exact hbase

/-! ## A catalog -/

/-- No id comes twice, and each comes back as it goes to a client. -/
structure IsCatalog (catalog : List CatalogModel) : Prop where
  nodup : (catalog.map fun model => model.id).Nodup
  plain : ∀ model ∈ catalog, IsPlain model.id

theorem ids_listModels (headers : Headers) (catalog : List CatalogModel) :
    (listModels headers catalog).ids = (listed catalog).map fun model => forwardId model.id := by
  rw [listModels]
  split <;> exact List.map_map

theorem mem_listed {catalog : List CatalogModel} {model : CatalogModel} :
    model ∈ listed catalog ↔ model ∈ catalog ∧ isVariantId model.id = false := by
  rw [listed, List.mem_filter, Bool.not_eq_true']

theorem mem_ids_listModels {headers : Headers} {catalog : List CatalogModel} {id : String} :
    id ∈ (listModels headers catalog).ids ↔
      ∃ model ∈ catalog, isVariantId model.id = false ∧ forwardId model.id = id := by
  rw [ids_listModels, List.mem_map]
  simp only [mem_listed, and_assoc]

section Catalog

variable {catalog : List CatalogModel}

theorem IsCatalog.eq_of_id (h : IsCatalog catalog) {model model' : CatalogModel}
    (hmodel : model ∈ catalog) (hmodel' : model' ∈ catalog) (hid : model.id = model'.id) :
    model = model' :=
  List.inj_on_of_nodup_map h.nodup hmodel hmodel' hid

theorem IsCatalog.nodup_ids (h : IsCatalog catalog) (headers : Headers) :
    (listModels headers catalog).ids.Nodup := by
  rw [ids_listModels]
  refine List.Nodup.map_on ?_ (h.nodup.of_map.filter _)
  intro model hmodel model' hmodel' hid
  have hplain := h.plain model (mem_listed.1 hmodel).1
  have hplain' := h.plain model' (mem_listed.1 hmodel').1
  refine h.eq_of_id (mem_listed.1 hmodel).1 (mem_listed.1 hmodel').1 ?_
  rw [← reverseId_forwardId hplain, hid, reverseId_forwardId hplain']

/-- A known id is found as it stands. -/
theorem findInModels_of_mem (h : IsCatalog catalog) {model : CatalogModel}
    (hmodel : model ∈ catalog) :
    findInModels model.id (catalog.map CatalogModel.toModel) = some model.toModel := by
  have hfind : catalog.find? (fun other => other.id = model.id) = some model := by
    cases hfind : catalog.find? fun other => other.id = model.id with
    | none => exact absurd (List.find?_eq_none.1 hfind model hmodel) (by simp)
    | some found =>
      have hid : found.id = model.id := by simpa using List.find?_some hfind
      rw [h.eq_of_id (List.mem_of_find?_eq_some hfind) hmodel hid]
  have hexact : (catalog.map CatalogModel.toModel).find? (·.id = model.id) =
      some model.toModel := by
    rw [List.find?_map]
    exact congrArg (Option.map CatalogModel.toModel) hfind
  rw [findInModels, hexact]

/-- A request for a listed id is sent to the model of that id or to a variant of it. -/
theorem selectModel_forwardId (h : IsCatalog catalog) {base : CatalogModel} (hbase : base ∈ catalog)
    (hlisted : isVariantId base.id = false) (headers : Headers) (effort : Option Effort) :
    ∃ served ∈ catalog,
      selectModel headers ⟨forwardId base.id, effort⟩ catalog = some served.toModel ∧
      Serves (catalog.map fun model => model.id) ⟨effort, isLongContext headers⟩ base.id
        served.id := by
  have hresolve : resolveCopilotModel headers ⟨forwardId base.id, effort⟩ catalog =
      pickCopilotVariantId base.id ⟨effort, isLongContext headers⟩
        (catalog.map fun model => model.id) := by
    rw [resolveCopilotModel, reverseId_forwardId (h.plain base hbase)]
  have hserves := serves_pickCopilotVariantId hlisted ⟨effort, isLongContext headers⟩
    (catalog.map fun model => model.id)
  obtain ⟨served, hserved, hid⟩ := List.mem_map.1
    (hserves.mem (List.mem_map_of_mem (f := fun model : CatalogModel => model.id) hbase))
  refine ⟨served, hserved, ?_, hid ▸ hserves⟩
  rw [selectModel, hresolve, ← hid]
  exact findInModels_of_mem h hserved

/-- The suffixes that some request asks for. A long context is asked for under its internal name
first, so the other name is of use only where that one is not known. -/
def IsAskedFor (knownIds : List String) (baseId suffix : String) : Prop :=
  suffix ∈ ["-high", "-xhigh", "-max", "-1m-internal"] ∨
    suffix = "-1m" ∧ baseId ++ "-1m-internal" ∉ knownIds

theorem mem_effortSuffixes {effort : Option Effort} {suffix : String}
    (h : suffix ∈ effortSuffixes effort) : suffix ∈ ["-high", "-xhigh", "-max"] := by
  cases effort with
  | none => cases h
  | some effort =>
    cases effort with
    | low | medium => cases h
    | high | xhigh | max =>
      rw [List.mem_singleton.1 h]
      decide +kernel

/-- Some wish is granted with the suffix. -/
theorem exists_wish {knownIds : List String} {baseId suffix : String}
    (hdotted : FORWARD_RE.test baseId.toList = true) (hknown : baseId ++ suffix ∈ knownIds)
    (h : IsAskedFor knownIds baseId suffix) :
    ∃ effort headers,
      Serves knownIds ⟨effort, isLongContext headers⟩ baseId (baseId ++ suffix) := by
  let longContext : Headers := { anthropicBeta := some "context-1m-2025-08-07" }
  have hlong : isLongContext longContext = true := by decide +kernel
  obtain hmem | ⟨rfl, hinternal⟩ := h
  · simp only [List.mem_cons, List.not_mem_nil, or_false] at hmem
    obtain rfl | rfl | rfl | rfl := hmem
    · exact ⟨some .high, {}, .of_head hdotted rfl hknown⟩
    · exact ⟨some .xhigh, {}, .of_head hdotted rfl hknown⟩
    · exact ⟨some .max, {}, .of_head hdotted rfl hknown⟩
    · exact ⟨none, longContext, hlong ▸ .of_head hdotted rfl hknown⟩
  · refine ⟨none, longContext, ?_⟩
    rw [hlong]
    have hwanted : wantedSuffixes ⟨none, true⟩ = ["-1m-internal"] ++ "-1m" :: [] := rfl
    refine .variant hdotted hwanted hknown fun other hother => ?_
    obtain rfl := List.mem_singleton.1 hother
    exact hinternal

theorem isAskedFor_of_serves {knownIds : List String} {opts : VariantOpts} {baseId id : String}
    (h : Serves knownIds opts baseId id) :
    id = baseId ∨ FORWARD_RE.test baseId.toList = true ∧
      ∃ suffix, id = baseId ++ suffix ∧ IsAskedFor knownIds baseId suffix := by
  cases h with
  | base _ => exact .inl rfl
  | @variant before after suffix dotted wanted known first =>
    refine .inr ⟨dotted, suffix, rfl, ?_⟩
    have hmem : suffix ∈ wantedSuffixes opts := by
      rw [wanted]
      exact List.mem_append_right _ List.mem_cons_self
    rw [wantedSuffixes, List.mem_append] at hmem
    obtain heffort | hlong := hmem
    · exact .inl (List.mem_append_left ["-1m-internal"] (mem_effortSuffixes heffort))
    rw [wantedSuffixes] at wanted
    cases hcontext : opts.longContext with
    | false =>
      rw [hcontext] at hlong
      cases hlong
    | true =>
      rw [hcontext] at hlong wanted
      obtain rfl | rfl : suffix = "-1m-internal" ∨ suffix = "-1m" := by simpa using hlong
      · exact .inl (by decide)
      -- the internal name is tried before
      have hsplit : (effortSuffixes opts.effort ++ ["-1m-internal"]) ++ "-1m" :: [] =
          before ++ "-1m" :: after := by
        rw [← wanted, List.append_assoc]
        rfl
      have hnew : "-1m" ∉ effortSuffixes opts.effort ++ ["-1m-internal"] := by
        rw [List.mem_append]
        rintro (heffort | hinternal)
        · exact absurd (mem_effortSuffixes heffort) (by decide)
        · exact absurd hinternal (by decide)
      obtain ⟨rfl, -, -⟩ := (List.append_cons_inj_of_notMem hnew List.not_mem_nil).1 hsplit
      exact .inr ⟨rfl, first _ (List.mem_append_right _ List.mem_cons_self)⟩

/-- Every id of the listing is served: by the model of that id, or by the first of its variants that
the request asks for and the catalog has; other requests are not looked at. So the models that are
served to who keeps to the listing are the listed ones and the variants with a suffix that some
request asks for. -/
theorem listed_models_served (h : IsCatalog catalog) (headers : Headers) :
    (listModels headers catalog).ids.Nodup ∧
      (∀ id ∈ (listModels headers catalog).ids, ∀ headers' effort, ∃ base ∈ catalog,
        forwardId base.id = id ∧ isVariantId base.id = false ∧ ∃ served ∈ catalog,
          selectModel headers' ⟨id, effort⟩ catalog = some served.toModel ∧
          Serves (catalog.map fun model => model.id) ⟨effort, isLongContext headers'⟩ base.id
            served.id) ∧
      ∀ model ∈ catalog,
        (∃ id ∈ (listModels headers catalog).ids, ∃ headers' effort,
          selectModel headers' ⟨id, effort⟩ catalog = some model.toModel) ↔
        isVariantId model.id = false ∨
          ∃ base ∈ catalog, isVariantId base.id = false ∧
            FORWARD_RE.test base.id.toList = true ∧ ∃ suffix, model.id = base.id ++ suffix ∧
              IsAskedFor (catalog.map fun model => model.id) base.id suffix := by
  refine ⟨h.nodup_ids headers, ?_, ?_⟩
  · intro id hid headers' effort
    obtain ⟨base, hbase, hlisted, rfl⟩ := mem_ids_listModels.1 hid
    exact ⟨base, hbase, rfl, hlisted, selectModel_forwardId h hbase hlisted headers' effort⟩
  · intro model hmodel
    have hknown : model.id ∈ catalog.map fun model => model.id := List.mem_map_of_mem hmodel
    constructor
    · rintro ⟨id, hid, headers', effort, hselect⟩
      obtain ⟨base, hbase, hlisted, rfl⟩ := mem_ids_listModels.1 hid
      obtain ⟨served, hserved, hselect', hserves⟩ :=
        selectModel_forwardId h hbase hlisted headers' effort
      have hsame : served.toModel = model.toModel := Option.some.inj (hselect'.symm.trans hselect)
      have hid : served.id = model.id := congrArg Model.id hsame
      rw [hid] at hserves
      obtain hid' | hvariant := isAskedFor_of_serves hserves
      · exact .inl (hid' ▸ hlisted)
      · exact .inr ⟨base, hbase, hlisted, hvariant⟩
    · -- the wish that is granted with a given id
      have hgranted : ∀ {base : CatalogModel} {effort headers'}, base ∈ catalog →
          isVariantId base.id = false →
          Serves (catalog.map fun model => model.id) ⟨effort, isLongContext headers'⟩ base.id
            model.id →
          ∃ id ∈ (listModels headers catalog).ids, ∃ headers' effort,
            selectModel headers' ⟨id, effort⟩ catalog = some model.toModel := by
        intro base effort headers' hbase hlisted hwish
        obtain ⟨served, hserved, hselect, hserves⟩ :=
          selectModel_forwardId h hbase hlisted headers' effort
        obtain rfl := h.eq_of_id hserved hmodel (hserves.unique hwish)
        exact ⟨_, mem_ids_listModels.2 ⟨base, hbase, hlisted, rfl⟩, headers', effort, hselect⟩
      rintro (hlisted | ⟨base, hbase, hlisted, hdotted, suffix, hid, hasked⟩)
      · exact @hgranted model none {} hmodel hlisted (.base fun _ => nofun)
      · rw [hid] at hknown
        obtain ⟨effort, headers', hwish⟩ := exists_wish hdotted hknown hasked
        exact hgranted hbase hlisted (hid ▸ hwish)

end Catalog

/-- A model with a variant for more effort and two for a long context. -/
def opusCatalog : List CatalogModel :=
  ["claude-opus-4.7", "claude-opus-4.7-high", "claude-opus-4.7-low", "claude-opus-4.7-1m-internal",
    "claude-opus-4.7-1m", "gpt-5.2"].map fun id =>
      { id, version := id, capabilities := ⟨id⟩, name := id, vendor := "Copilot" }

theorem opusCatalog_isCatalog : IsCatalog opusCatalog := by
  have hplain : ∀ model ∈ opusCatalog, REVERSE_RE.test model.id.toList = false ∧
      model.id.toList.getLast? ≠ some '-' := by decide +kernel
  exact ⟨by decide +kernel, fun model hmodel =>
    isPlain_of_last (hplain model hmodel).1 (hplain model hmodel).2⟩

/-- No variant for this effort is known. -/
theorem listed_models_served_opus :
    ∃ served ∈ opusCatalog, served.id = "claude-opus-4.7" ∧
      selectModel {} ⟨"claude-opus-4-7-20260301", some .xhigh⟩ opusCatalog =
        some served.toModel := by
  have hlisted : "claude-opus-4-7-20260301" ∈ (listModels {} opusCatalog).ids := by decide +kernel
  have hbase : ∀ base ∈ opusCatalog, forwardId base.id = "claude-opus-4-7-20260301" →
      base.id = "claude-opus-4.7" := by decide +kernel
  have hunknown : ∀ suffix ∈ wantedSuffixes ⟨some .xhigh, isLongContext {}⟩,
      "claude-opus-4.7" ++ suffix ∉ opusCatalog.map fun model => model.id := by decide +kernel
  obtain ⟨-, hserved, -⟩ := listed_models_served opusCatalog_isCatalog {}
  obtain ⟨base, hmem, hforward, -, served, hserved, hselect, hserves⟩ :=
    hserved _ hlisted {} (some .xhigh)
  rw [hbase base hmem hforward] at hserves
  exact ⟨served, hserved, hserves.unique (.base fun _ => hunknown), hselect⟩

end Maximal.Models
