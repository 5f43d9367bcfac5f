import Maximal.Config.ConfigFrame

/-!
# What a change of the configuration keeps

The configuration that is loaded follows the file, and every later operation keeps the paths that
it does not name.

## Main definitions

- `Added` — a configuration with the defaults that it did not have
- `perform` — the operations of a run
- `SameEntry` — the entries that a delete leaves

## Main results

- `readConfigFromDisk_loaded`, `load_loaded` — what is loaded follows the file
- `config_kept` — what loading and every later operation leave of the file
-/

namespace Maximal.Config

open Js Runs

/-! ## Loading -/

/-- The fields of the configuration to which defaults are added. -/
def defaultedFields : List String := ["extraPrompts", "modelReasoningEfforts"]

theorem eq_of_mem_defaultedFields {k : String} (hk : k ∈ defaultedFields) :
    k = "extraPrompts" ∨ k = "modelReasoningEfforts" := by
  simpa [defaultedFields] using hk

theorem lookup_spreadOver (base fields : Fields) (k : String) :
    (spreadOver base fields).lookup k = (fields.lookup k).or (base.lookup k) := by
  have hmap : (base.map fun e => (e.1, (fields.lookup e.1).getD e.2)).lookup k =
      (base.lookup k).map fun v => (fields.lookup k).getD v := by
    induction base with
    | nil => rfl
    | cons e base ih =>
      rw [List.map_cons, List.lookup_cons, List.lookup_cons, ih]
      by_cases hk : k = e.1
      · rw [hk, beq_self_eq_true]
        rfl
      · rw [beq_false_of_ne hk]
  rw [spreadOver, List.lookup_append, hmap, lookup_filter (p := fun k => (base.lookup k).isNone)]
  cases base.lookup k with
  | none => cases fields.lookup k <;> rfl
  | some v => cases fields.lookup k <;> rfl

theorem lookup_of_not_isMissing {base fields : Fields} (h : isMissing base fields = false)
    (k : String) : fields.lookup k = (fields.lookup k).or (base.lookup k) := by
  cases hfields : fields.lookup k with
  | some v => rfl
  | none =>
    cases hbase : base.lookup k with
    | none => rfl
    | some v =>
      rw [isMissing, List.any_eq_false] at h
      obtain ⟨before, after, rfl, -⟩ := List.lookup_eq_some_iff.1 hbase
      exact absurd (by rw [hfields]; rfl) (h (k, v) (by simp))

/-- What is added to a configuration: texts, where there are none. -/
structure Added (config merged : Fields) : Prop where
  defaulted : ∀ k ∈ defaultedFields, ∃ fields, merged.lookup k = some (.object fields) ∧
    ∀ k', fields.lookup k' = ((recordAt config k).lookup k').or ((recordAt defaultConfig k).lookup k')
  other : ∀ k, k ∉ defaultedFields → merged.lookup k = config.lookup k

theorem exists_text_of_default {k k' : String} {v : Json} (hk : k ∈ defaultedFields)
    (hv : (recordAt defaultConfig k).lookup k' = some v) : ∃ t, v = .string t := by
  have htexts (texts : List (String × String)) (h : (textFields texts).lookup k' = some v) :
      ∃ t, v = .string t := by
    obtain ⟨before, after, heq, -⟩ := List.lookup_eq_some_iff.1 h
    have hmem : (k', v) ∈ textFields texts := by rw [heq]; simp
    obtain ⟨e, -, he⟩ := List.mem_map.1 hmem
    exact ⟨e.2, (congrArg Prod.snd he).symm⟩
  obtain rfl | rfl := eq_of_mem_defaultedFields hk
  · exact htexts defaultExtraPrompts hv
  · exact htexts defaultModelReasoningEfforts hv

theorem kindAt_or_of_text {u v : Val} (hv : ∀ w, v = some w → ∃ t, w = .string t) (p : Path) :
    Val.kindAt (u.or v) p = (Val.kindAt u p).or (Val.kindAt v p) := by
  cases u with
  | none => rfl
  | some u =>
    rw [Option.some_or]
    match p with
    | [] => rfl
    | step :: p =>
      -- a text has nothing below it
      have hnone : Val.kindAt v (step :: p) = none := by
        cases v with
        | none => rfl
        | some w =>
          obtain ⟨t, rfl⟩ := hv w rfl
          cases step <;> rfl
      rw [hnone, Option.or_none]

theorem Added.kindAt {config merged : Fields} (h : Added config merged)
    (hobject : ∀ k ∈ defaultedFields, ∀ v, config.lookup k = some v → ∃ fields, v = .object fields)
    (p : Path) :
    (Json.object merged).kindAt p = ((Json.object config).kindAt p).or (addedDefaults.kindAt p) := by
  match p with
  | [] => rfl
  | .index i :: p => rfl
  | .key k :: p =>
    rw [Json.kindAt_object_key, Json.kindAt_object_key]
    by_cases hk : k ∈ defaultedFields
    · obtain ⟨fields, hfields, hlookup⟩ := h.defaulted k hk
      have hdefault : addedDefaults.kindAt (.key k :: p) =
          (Json.object (recordAt defaultConfig k)).kindAt p := by
        obtain rfl | rfl := eq_of_mem_defaultedFields hk
        · rfl
        · rfl
      rw [hfields, hdefault, Val.kindAt_some]
      cases hconfig : config.lookup k with
      | none =>
        rw [recordAt_of_none hconfig] at hlookup
        match p with
        | [] => rfl
        | .index i :: p => rfl
        | .key k' :: p =>
          rw [Json.kindAt_object_key, Json.kindAt_object_key, hlookup]
          rfl
      | some v =>
        obtain ⟨own, rfl⟩ := hobject k hk v hconfig
        rw [recordAt_of_some hconfig] at hlookup
        rw [Val.kindAt_some]
        match p with
        | [] => rfl
        | .index i :: p => rfl
        | .key k' :: p =>
          rw [Json.kindAt_object_key, Json.kindAt_object_key, Json.kindAt_object_key, hlookup]
          exact kindAt_or_of_text (fun w hw => exists_text_of_default hk hw) p
    · have hdefault : addedDefaults.kindAt (.key k :: p) = none := by
        have hlookup : addedDefaults.child (.key k) = none := by
          rw [defaultedFields, List.mem_cons, List.mem_singleton, not_or] at hk
          simp [addedDefaults, Json.child, List.lookup_cons, beq_false_of_ne hk.1,
            beq_false_of_ne hk.2]
        rw [Json.kindAt_cons, hlookup]
        rfl
      rw [h.other k hk, hdefault, Option.or_none]

theorem mergeDefaultConfig_added {config : Fields}
    (hobject : ∀ k ∈ defaultedFields, ∀ v, config.lookup k = some v → ∃ fields, v = .object fields) :
    Added config (mergeDefaultConfig config).1 := by
  rw [mergeDefaultConfig]
  split
  · refine ⟨fun k hk => ?_, fun k hk => ?_⟩
    · obtain rfl | rfl := eq_of_mem_defaultedFields hk
      · rw [Json.lookup_set_of_ne _ _ (by decide), Json.lookup_set_self]
        exact ⟨_, rfl, lookup_spreadOver _ _⟩
      · rw [Json.lookup_set_self]
        exact ⟨_, rfl, lookup_spreadOver _ _⟩
    · rw [defaultedFields, List.mem_cons, List.mem_singleton, not_or] at hk
      rw [Json.lookup_set_of_ne _ _ hk.2, Json.lookup_set_of_ne _ _ hk.1]
  · next hmissing =>
    rw [Bool.or_eq_true, not_or, Bool.not_eq_true, Bool.not_eq_true] at hmissing
    refine ⟨fun k hk => ?_, fun _ _ => rfl⟩
    have hfull : isMissing (recordAt defaultConfig k) (recordAt config k) = false := by
      obtain rfl | rfl := eq_of_mem_defaultedFields hk
      · exact hmissing.1
      · exact hmissing.2
    cases hlookup : config.lookup k with
    | none =>
      -- there are defaults, which would all be missing
      rw [recordAt_of_none hlookup] at hfull
      obtain rfl | rfl := eq_of_mem_defaultedFields hk
      · cases hfull
      · cases hfull
    | some v =>
      obtain ⟨fields, rfl⟩ := hobject k hk v hlookup
      rw [recordAt_of_some hlookup] at hfull ⊢
      exact ⟨fields, rfl, lookup_of_not_isMissing hfull⟩

theorem Shaped.of_added {config merged : Fields} (h : Shaped config) (hadded : Added config merged) :
    Shaped merged := by
  have hauth := hadded.other "auth" (by decide)
  have happs := hadded.other "apps" (by decide)
  have hauthRecord : recordAt merged "auth" = recordAt config "auth" := by
    rw [recordAt, hauth, recordAt]
  have happsRecord : recordAt merged "apps" = recordAt config "apps" := by
    rw [recordAt, happs, recordAt]
  exact ⟨hauth ▸ h.auth, hauthRecord ▸ h.entries, happs ▸ h.apps, happsRecord ▸ h.app⟩

theorem object_of_validate {raw : Json} {config : Fields} (h : validateAppConfig raw = some config) :
    ∀ k ∈ defaultedFields, ∀ v, config.lookup k = some v → ∃ fields, v = .object fields := by
  intro k hk v hv
  have hrecord : ∃ item, AppConfigSchema.under (.key k) = some (.record item) := by
    obtain rfl | rfl := eq_of_mem_defaultedFields hk
    · exact ⟨_, rfl⟩
    · exact ⟨_, rfl⟩
  obtain ⟨item, hitem⟩ := hrecord
  obtain ⟨w, hw⟩ := exists_parse_of_child (.key k) (parse_of_validate h) hitem hv
  cases w with
  | object fields =>
    obtain ⟨fields', -, rfl⟩ := Option.map_eq_some_iff.1 hw
    exact ⟨fields', rfl⟩
  | _ => cases hw

theorem added_of_not_keeps (merges : Bool) {p : Path} (h : AppConfigSchema.keeps p = false) :
    added merges p = none := by
  have hparse : AppConfigSchema.parse addedDefaults = some addedDefaults := rfl
  rw [added, Schema.kindAt_parse hparse p, h]
  exact ite_self _

theorem follows_of_validate {w : Json} {config : Fields} (h : validateAppConfig w = some config) :
    Follows false w config := by
  intro p
  rw [Schema.kindAt_parse (parse_of_validate h) p, kept]
  split
  · exact Option.or_none.symm
  · rfl

theorem Follows.self {merges : Bool} {w : Json} {config : Fields} (h : Follows merges w config) :
    Follows merges (.object config) config := by
  intro p
  cases hkeeps : AppConfigSchema.keeps p with
  | false => rw [h.of_not_keeps hkeeps, kept, hkeeps]; rfl
  | true => rw [kept, hkeeps, if_pos rfl, h.of_keeps hkeeps, Option.or_assoc, Option.or_self]

/-- The defaults are what is read of them, in another order. -/
theorem follows_defaultConfig : Follows false (.object defaultConfig) defaultConfig := by
  have hfields : ∀ e ∈ defaultConfig, ∃ s, AppConfigSchema.under (.key e.1) = some s ∧
      s.parse e.2 = some e.2 := by
    intro e he
    simp only [defaultConfig, List.mem_cons, List.not_mem_nil, or_false] at he
    obtain rfl | rfl | rfl | rfl | rfl | rfl | rfl | rfl | rfl | rfl := he
    all_goals exact ⟨_, rfl, rfl⟩
  intro p
  rw [kept]
  cases hkeeps : AppConfigSchema.keeps p with
  | true => rw [if_pos rfl, added, if_neg Bool.false_ne_true, Option.or_none]
  | false =>
    rw [if_neg Bool.false_ne_true]
    cases p with
    | nil => cases hkeeps
    | cons step p =>
      cases step with
      | index i => rfl
      | key k =>
        rw [Json.kindAt_object_key]
        cases hlookup : defaultConfig.lookup k with
        | none => rfl
        | some v =>
          obtain ⟨before, after, heq, -⟩ := List.lookup_eq_some_iff.1 hlookup
          obtain ⟨s, hs, hparse⟩ := hfields (k, v) (by rw [heq]; simp)
          rw [Schema.keeps_cons, hs, Option.any_some] at hkeeps
          rw [Val.kindAt_some, Schema.kindAt_parse hparse p, hkeeps]
          rfl

theorem shaped_defaultConfig : Shaped defaultConfig := by
  constructor
  · intro v hv
    exact ⟨_, (Option.some.inj hv).symm⟩
  · intro v hv
    cases hv
  · intro v hv
    cases hv
  · intro k hk v hv
    cases hv

/-- The configuration that defaults can be added to. -/
structure Defaultable (config : Fields) : Prop where
  object : ∀ k ∈ defaultedFields, ∀ v, config.lookup k = some v → ∃ fields, v = .object fields

theorem ensureConfigFile_cases (fs : FileSystem) (content : Content) :
    ensureConfigFile fs content = content ∨
      ensureConfigFile fs content = .json (.object defaultConfig) ∧
        (content = .missing ∨ fs.accessible = false ∧ fs.writable = true) := by
  rw [ensureConfigFile.eq_def]
  split
  · split
    · exact .inr ⟨rfl, .inl rfl⟩
    · exact .inl rfl
  · exact .inl rfl
  · next haccessible =>
    split
    · next hwritable => exact .inr ⟨rfl, .inr ⟨haccessible, hwritable⟩⟩
    · exact .inl rfl

theorem loaded_default {content : Content}
    (h : ∀ w, content = .json w → w = .object defaultConfig) :
    Loaded false ⟨content, defaultConfig⟩ :=
  ⟨shaped_defaultConfig, follows_defaultConfig, fun w hw => h w hw ▸ follows_defaultConfig⟩

/-- What is read is what the schema keeps of the file, or the defaults. -/
theorem readConfigFromDisk_loaded {fs : FileSystem} {content content' : Content} {config : Fields}
    (hread : ∀ v, content = .json v → fs.readable = true)
    (h : readConfigFromDisk fs content = some (content', config)) :
    Loaded false ⟨content', config⟩ ∧ Defaultable config := by
  have hdefault : Defaultable defaultConfig := by
    refine ⟨fun k hk v hv => ?_⟩
    obtain rfl | rfl := eq_of_mem_defaultedFields hk
    · exact ⟨_, (Option.some.inj hv).symm⟩
    · exact ⟨_, (Option.some.inj hv).symm⟩
  rw [readConfigFromDisk] at h
  split at h
  · obtain ⟨rfl, rfl⟩ := Prod.mk.inj (Option.some.inj h)
    exact ⟨loaded_default (fun w hw => by cases hw), hdefault⟩
  · next hreadable _ =>
    obtain ⟨rfl, rfl⟩ := Prod.mk.inj (Option.some.inj h)
    refine ⟨loaded_default fun w hw => ?_, hdefault⟩
    obtain hsame | ⟨hseeded, -⟩ := ensureConfigFile_cases fs content
    · have htrue := hread w (hsame.symm.trans hw)
      rw [hreadable] at htrue
      cases htrue
    · exact (Content.json.inj (hseeded.symm.trans hw)).symm
  · obtain ⟨rfl, rfl⟩ := Prod.mk.inj (Option.some.inj h)
    refine ⟨loaded_default fun w hw => ?_, hdefault⟩
    split at hw
    · exact (Content.json.inj hw).symm
    · cases hw
  · obtain ⟨rfl, rfl⟩ := Prod.mk.inj (Option.some.inj h)
    exact ⟨loaded_default (fun w hw => by cases hw), hdefault⟩
  · next value hensure _ =>
    obtain ⟨validated, hvalidate, heq⟩ := Option.map_eq_some_iff.1 h
    obtain ⟨rfl, rfl⟩ := Prod.mk.inj heq
    have hfollows := follows_of_validate hvalidate
    refine ⟨⟨shaped_of_validate hvalidate, hfollows.self, fun w hw => ?_⟩,
      ⟨object_of_validate hvalidate⟩⟩
    exact Content.json.inj hw ▸ hfollows

theorem Follows.merge {w : Json} {config : Fields} (h : Follows false w config)
    (hdefaultable : Defaultable config) : Follows true w (mergeDefaultConfig config).1 := by
  intro p
  have hconfig := h p
  rw [(mergeDefaultConfig_added hdefaultable.object).kindAt hdefaultable.object p, hconfig, kept, kept]
  cases hkeeps : AppConfigSchema.keeps p with
  | true =>
    rw [if_pos rfl, if_pos rfl, added, added, if_neg Bool.false_ne_true, if_pos rfl, Option.or_none]
  | false =>
    have hnone := added_of_not_keeps true hkeeps
    rw [added, if_pos rfl] at hnone
    rw [if_neg Bool.false_ne_true, if_neg Bool.false_ne_true, hnone]
    rfl

theorem readConfigFromDisk_json {fs : FileSystem} {v : Json} {content : Content} {config : Fields}
    (hreadable : fs.readable = true) (haccess : fs.accessible = true ∨ fs.writable = false)
    (h : readConfigFromDisk fs (.json v) = some (content, config)) : content = .json v := by
  have hensure : ensureConfigFile fs (.json v) = .json v := by
    obtain hsame | ⟨-, hmissing | ⟨haccessible, hwritable⟩⟩ := ensureConfigFile_cases fs (.json v)
    · exact hsame
    · cases hmissing
    · simp [haccessible, hwritable] at haccess
  rw [readConfigFromDisk, hensure, hreadable] at h
  obtain ⟨_, -, heq⟩ := Option.map_eq_some_iff.1 h
  exact (Prod.mk.inj heq).1.symm

theorem loaded_merge {fs : FileSystem} {content : Content} {config : Fields}
    (h : Loaded false ⟨content, config⟩) (hdefaultable : Defaultable config) (changed : Bool) :
    Loaded true ⟨if changed && fs.writable then .json (.object (mergeDefaultConfig config).1)
      else content, (mergeDefaultConfig config).1⟩ := by
  have hmerged := (h.config.merge hdefaultable).self
  refine ⟨h.shaped.of_added (mergeDefaultConfig_added hdefaultable.object), hmerged, fun w hw => ?_⟩
  dsimp only at hw
  split at hw
  · obtain rfl := Content.json.inj hw
    exact hmerged
  · exact (h.content w hw).merge hdefaultable

/-- What is loaded follows the file, which keeps what it had. -/
theorem load_loaded {merges : Bool} {fs : FileSystem} {content : Content} {s : Store}
    (hload : load merges fs content = some s)
    (hread : ∀ v, content = .json v →
      fs.readable = true ∧ (fs.accessible = true ∨ fs.writable = false)) :
    Loaded merges s ∧
      ∀ v, content = .json v → ∃ w, s.content = .json w ∧ Kept merges [] v w := by
  have hsame {content' : Content} {config : Fields}
      (hdisk : readConfigFromDisk fs content = some (content', config)) {v : Json}
      (hv : content = .json v) : content' = .json v := by
    obtain ⟨hreadable, haccess⟩ := hread v hv
    rw [hv] at hdisk
    exact readConfigFromDisk_json hreadable haccess hdisk
  cases merges with
  | false =>
    obtain ⟨⟨content', config⟩, hdisk, rfl⟩ := Option.map_eq_some_iff.1 hload
    have hloaded := (readConfigFromDisk_loaded (fun v hv => (hread v hv).1) hdisk).1
    exact ⟨hloaded, fun v hv => ⟨v, hsame hdisk hv, .inl rfl⟩⟩
  | true =>
    obtain ⟨⟨content', config⟩, hdisk, rfl⟩ := Option.map_eq_some_iff.1 hload
    obtain ⟨hloaded, hdefaultable⟩ := readConfigFromDisk_loaded (fun v hv => (hread v hv).1) hdisk
    refine ⟨loaded_merge hloaded hdefaultable _, fun v hv => ?_⟩
    have hcontent := hsame hdisk hv
    dsimp only
    split
    · have hfollows := (hloaded.content v hcontent).merge hdefaultable
      exact ⟨_, rfl, .inr fun p => .inr (.inl (hfollows p))⟩
    · exact ⟨v, hcontent, .inl rfl⟩

/-- A file that cannot be read, or is no JSON, is left alone when the configuration is loaded. -/
theorem load_unread {merges : Bool} {fs : FileSystem} {content : Content} {s : Store}
    (hload : load merges fs content = some s) (haccessible : fs.accessible = true)
    (hthere : content ≠ .missing) (hunread : content = .malformed ∨ fs.readable = false) :
    s.content = content := by
  have hensure : ensureConfigFile fs content = content := by
    obtain hsame | ⟨-, hmissing | ⟨hblocked, -⟩⟩ := ensureConfigFile_cases fs content
    · exact hsame
    · exact absurd hmissing hthere
    · rw [haccessible] at hblocked
      cases hblocked
  have hdisk : readConfigFromDisk fs content = some (content, defaultConfig) := by
    rw [readConfigFromDisk.eq_def, hensure]
    obtain rfl | hreadable := hunread
    · cases fs.readable <;> rfl
    · rw [hreadable]
      cases content with
      | missing => exact absurd rfl hthere
      | _ => rfl
  cases merges with
  | false =>
    obtain ⟨read, hread, rfl⟩ := Option.map_eq_some_iff.1 hload
    obtain rfl := Option.some.inj (hdisk.symm.trans hread)
    rfl
  | true =>
    obtain ⟨read, hread, rfl⟩ := Option.map_eq_some_iff.1 hload
    obtain rfl := Option.some.inj (hdisk.symm.trans hread)
    rfl

/-! ## The entries that a delete leaves -/

/-- The entries that stand in a file. -/
def entriesAt (w : Json) : List Json := (Val.asArray (w.valueAt entriesPath)).getD []

/-- An entry, and what the schema keeps of it. -/
def SameEntry (entry entry' : Json) : Prop :=
  ∀ p, entry'.kindAt p = if ApiKeyEntrySchema.keeps p then entry.kindAt p else none

theorem SameEntry.trans {e e' e'' : Json} (h : SameEntry e e') (h' : SameEntry e' e'') :
    SameEntry e e'' := by
  intro p
  rw [h' p, h p]
  split
  · rfl
  · rfl

theorem kindAt_entriesAt (w : Json) (i : ℕ) (p : Path) :
    w.kindAt (entriesPath ++ .index i :: p) = Val.kindAt (entriesAt w)[i]? p := by
  have hvalue : w.valueAt (entriesPath ++ .index i :: p) =
      (w.valueAt entriesPath).bind fun v => v.valueAt (.index i :: p) := List.foldlM_append
  rw [Json.kindAt, hvalue, entriesAt]
  cases w.valueAt entriesPath with
  | none => rfl
  | some v =>
    cases v with
    | array items => exact Json.kindAt_array_index items i p
    | _ => rfl

theorem entriesAt_object (config : Fields) : entriesAt (.object config) = entriesOf config := by
  rw [entriesAt, entriesOf, Json.valueAt, entriesPath, List.foldlM_cons, Json.child]
  cases config.lookup "auth" with
  | none => rfl
  | some v =>
    cases v with
    | object fields =>
      have hentries : [Step.key "apiKeyEntries"].foldlM Json.child (.object fields) =
          fields.lookup "apiKeyEntries" := by
        rw [List.foldlM_cons, Json.child]
        cases fields.lookup "apiKeyEntries" <;> rfl
      exact congrArg (fun v => (Val.asArray v).getD []) hentries
    | _ => rfl

theorem sameEntries {xs ys : List Json}
    (h : ∀ (i : ℕ) p, Val.kindAt ys[i]? p =
      if ApiKeyEntrySchema.keeps p then Val.kindAt xs[i]? p else none) :
    List.Forall₂ SameEntry xs ys := by
  induction xs generalizing ys with
  | nil =>
    cases ys with
    | nil => exact .nil
    | cons y ys => cases h 0 []
  | cons x xs ih =>
    cases ys with
    | nil => cases h 0 []
    | cons y ys => exact .cons (h 0) (ih fun i => h (i + 1))

theorem Follows.entries {merges : Bool} {w : Json} {config : Fields} (h : Follows merges w config) :
    List.Forall₂ SameEntry (entriesAt w) (entriesOf config) := by
  refine sameEntries fun i p => ?_
  have hkeeps : AppConfigSchema.keeps (entriesPath ++ .index i :: p) = ApiKeyEntrySchema.keeps p :=
    rfl
  rw [← entriesAt_object, ← kindAt_entriesAt, h, kept, hkeeps, kindAt_entriesAt]
  split
  · rw [entriesPath, List.cons_append, added_eq_none (by decide), Option.or_none]
  · rfl

theorem hasId_eq_of_sameEntry {e e' : Json} (h : SameEntry e e') (id : String) :
    hasId id e = hasId id e' := by
  have hat (e : Json) : hasId id e = true ↔ e.kindAt [.key "id"] = some (.string id) := by
    rw [hasId, decide_eq_true_iff]
    cases e with
    | object fields =>
      rw [Json.kindAt_object_key, Json.get]
      cases fields.lookup "id" with
      | none => exact iff_of_false (by simp [Val.asString]) (by simp [Val.kindAt])
      | some v => cases v <;> simp [Val.asString, Val.kindAt, Json.kindAt_nil, Json.kind]
    | _ =>
      exact iff_of_false (by simp [Json.get, Val.asString])
        (by simp [Json.kindAt_cons, Json.child])
  have hid : e'.kindAt [.key "id"] = e.kindAt [.key "id"] := h _
  rw [Bool.eq_iff_iff, hat, hat, hid]

theorem sameEntry_of_parse {e e' : Json} (h : ApiKeyEntrySchema.parse e = some e') :
    SameEntry e e' := Schema.kindAt_parse h

/-- A delete leaves the other entries, in their order. -/
theorem delete_entries {merges : Bool} {s : Store} (h : Loaded merges s) {w : Json}
    (hw : s.content = .json w) (fs : FileSystem) (id : String) :
    ∃ w', (deleteApiKey fs s id).1.content = .json w' ∧
      (w' = w ∨
        List.Forall₂ SameEntry ((entriesAt w).filter fun e => !hasId id e) (entriesAt w')) := by
  rw [deleteApiKey]
  split
  · exact ⟨w, hw, .inl rfl⟩
  rw [persistApiKeyEntries, write]
  split
  · exact ⟨w, hw, .inl rfl⟩
  · next s' hwrite =>
    obtain ⟨hvalidate, hcontent⟩ := writeConfig_spec hwrite
    refine ⟨_, hcontent, .inr ?_⟩
    have hfiltered : List.Forall₂ SameEntry ((entriesAt w).filter fun e => !hasId id e)
        ((entriesOf s.config).filter fun e => !hasId id e) :=
      List.rel_filter (fun e e' hsame => by dsimp only; rw [hasId_eq_of_sameEntry hsame])
        (h.content w hw).entries
    have hwritten := entriesOf_validate hvalidate
    rw [entriesOf_withAuth] at hwritten
    rw [entriesAt_object]
    refine (List.forall₂_comp hfiltered hwritten).imp fun e e'' h => ?_
    obtain ⟨e', hsame, hparse⟩ := h
    exact hsame.trans (sameEntry_of_parse hparse)

/-! ## Runs -/

/-- Operations, each with what the file system does for it. -/
def perform (l : FileSystem × Operation) (s : Store) : Option Store := some (operate l s)

theorem loaded_of_run {merges : Bool} {s s' : Store} {ls : List (FileSystem × Operation)}
    (h : Loaded merges s) (hexec : exec perform ls s = some s') : Loaded merges s' := by
  refine exec_preserves (fun l s s' hs hstep => ?_) h hexec
  obtain rfl := Option.some.inj hstep
  exact (hs.wrote (operate_wrote hs l) fun q hq => named_spec l.2 s.config hq).1

/-- Loading leaves a file alone that it cannot read, and of a file that it reads what the schema
keeps, and so does every operation after that, but for the paths that it names. Of the list of keys
a delete leaves the other ones. -/
theorem config_kept {merges : Bool} {fs : FileSystem} {content : Content} {s s' : Store}
    {ls : List (FileSystem × Operation)} (hload : load merges fs content = some s)
    (hexec : exec perform ls s = some s') :
    (fs.accessible = true → content ≠ .missing → content = .malformed ∨ fs.readable = false →
      s.content = content) ∧
    ((∀ v, content = .json v →
        fs.readable = true ∧ (fs.accessible = true ∨ fs.writable = false)) →
      (∀ v, content = .json v → ∃ w, s.content = .json w ∧ Kept merges [] v w) ∧
      ∀ w, s'.content = .json w →
        (∀ l, ∃ w', (operate l s').content = .json w' ∧
          Kept merges (named l.2 s'.config) w w') ∧
        ∀ fs id, ∃ w', (operate (fs, .request (.delete id)) s').content = .json w' ∧
          (w' = w ∨
            List.Forall₂ SameEntry ((entriesAt w).filter fun e => !hasId id e) (entriesAt w'))) := by
  refine ⟨fun haccessible hthere hunread => load_unread hload haccessible hthere hunread,
    fun hread => ?_⟩
  obtain ⟨hloaded, hkept⟩ := load_loaded hload hread
  refine ⟨hkept, fun w hw => ?_⟩
  have hs' := loaded_of_run hloaded hexec
  refine ⟨fun l => ?_, fun fs id => delete_entries hs' hw fs id⟩
  exact (hs'.wrote (operate_wrote hs' l) fun q hq => named_spec l.2 s'.config hq).2 w hw

/-- A file with a key that is not known, and no prompts. -/
def themed : Fields :=
  [("auth", .object [("apiKeys", .array [])]), ("theme", .object [("dark", .bool true)])]

theorem config_kept_themed :
    ∃ s s' w, load true anyFile (.json (.object themed)) = some s ∧
      exec perform [(anyFile, .claudeDesktop true true)] s = some s' ∧ s'.content = .json w ∧
      w.kindAt [.key "theme", .key "dark"] = some (.bool true) ∧
      ∀ l, ∃ w', (operate l s').content = .json w' ∧ Kept true (named l.2 s'.config) w w' := by
  have hread (v : Json) (_ : Content.json (.object themed) = .json v) :
      anyFile.readable = true ∧ (anyFile.accessible = true ∨ anyFile.writable = false) :=
    ⟨rfl, .inl rfl⟩
  have hkept (s s' : Store) (hload : load true anyFile (.json (.object themed)) = some s)
      (hexec : exec perform [(anyFile, .claudeDesktop true true)] s = some s') :=
    (config_kept hload hexec).2 hread
  exact ⟨_, _, _, rfl, rfl, rfl, rfl, ((hkept _ _ rfl rfl).2 _ rfl).1⟩

/-- A key that is not known, below the top level. -/
def futureAuth : Fields :=
  [("auth", .object [("apiKeys", .array []), ("future", .bool true)])]

/-- It is gone once the switch next to it is set. -/
theorem not_all_kept :
    ∃ s w', load false anyFile (.json (.object futureAuth)) = some s ∧
      (operate (anyFile, .request (.enforce (.object [("enforce", .bool true)]))) s).content =
        .json w' ∧
      named (.request (.enforce (.object [("enforce", .bool true)]))) s.config =
        [[.key "auth", .key "enforce"]] ∧
      (Json.object futureAuth).kindAt [.key "auth", .key "future"] = some (.bool true) ∧
      w'.kindAt [.key "auth", .key "future"] = none :=
  ⟨_, _, rfl, rfl, rfl, rfl, rfl⟩

end Maximal.Config
