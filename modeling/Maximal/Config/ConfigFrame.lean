import Maximal.Config.ApiKeys
import Maximal.Lib.Js.Frame

/-!
# What an operation sets

The operations that change the configuration, and the paths that each one names. The objects on the
way to a path are made anew, and what is below the top level is dropped where the schema does not
know it.

## Main definitions

- `Operation`, `operate` — the changes, those of the apps included
- `named` — the paths that an operation sets
- `kept`, `Kept` — what a write leaves of the file
- `Follows`, `Loaded` — the configuration is what is kept of the file

## Main results

- `change_sameBut` — a request changes the configuration below the named paths
- `operate_wrote`, `Loaded.wrote` — an operation keeps the rest of the file
-/

namespace Maximal.Config

open Js Runs

/-! ## The switches of the apps -/

/-- `{ ...config, apps: { ...config.apps, [app]: { ...config.apps?.[app], enabled } } }`. -/
def withApp (config : Fields) (app : String) (enabled : Bool) : Fields :=
  let apps := recordAt config "apps"
  Json.set config "apps" (.object (Json.set apps app
    (.object (Json.set (recordAt apps app) "enabled" (.bool enabled)))))

def isEnabledEntry (entry : Json) : Bool :=
  (entry.get "enabled").asBool = some true && trim ((entry.get "key").asString.getD "") ≠ ""

def getDefaultEndpointApiKey (config : Fields) : Option String :=
  let legacy := (((Val.optProp (config.lookup "auth") "apiKeys").asArray.getD []).filterMap
    fun key => Val.asString (some key)).map trim
  (legacy.find? (· ≠ "")).or
    (((entriesOf config).find? isEnabledEntry).map fun entry =>
      trim ((entry.get "key").asString.getD ""))

def ensureDefaultEndpointKey (fs : FileSystem) (generated : Generated) (s : Store) : Option Store :=
  if (getDefaultEndpointApiKey s.config).isSome then some s
  else
    let entry : Json := .object [("id", .string generated.uuid), ("label", .string "Default"),
      ("key", .string generated.key), ("enabled", .bool true), ("created_at", .string generated.now)]
    writeConfig fs (withAuth s.config "apiKeyEntries" (.array (entriesOf s.config ++ [entry])))

def setClaudeCodeRoutingIntent (fs : FileSystem) (enabled : Bool) (s : Store) : Option Store :=
  writeConfig fs (withApp s.config "claudeCode" enabled)

/-- `switched` says that the app's own files were written, which is done first. -/
inductive Operation where
  | request (request : Request)
  | claudeCode (enabled switched : Bool) (generated : Generated)
  | claudeDesktop (enabled switched : Bool)

/-- What is left where a step throws is what was written before. -/
def operate (l : FileSystem × Operation) (s : Store) : Store :=
  match l.2 with
  | .request request => (handle l.1 request s).1
  | .claudeCode enabled switched generated =>
    if !switched then s
    else
      match setClaudeCodeRoutingIntent l.1 enabled s with
      | none => s
      | some s =>
        if enabled then (ensureDefaultEndpointKey l.1 generated s).getD s else s
  | .claudeDesktop enabled switched =>
    if !switched then s
    else (writeConfig l.1 (withApp s.config "claudeDesktop" enabled)).getD s

/-- Either way to load the configuration. -/
def load (merges : Bool) (fs : FileSystem) (content : Content) : Option Store :=
  if merges then mergeConfigWithDefaults fs content else getConfig fs content

/-! ## Named paths -/

def entriesPath : Path := [.key "auth", .key "apiKeyEntries"]

/-- The paths that an operation sets; a key is removed from the list of keys. -/
def named (operation : Operation) (config : Fields) : List Path :=
  let newEntry : Path := entriesPath ++ [.index (entriesOf config).length]
  match operation with
  | .request .list => []
  | .request (.create _ _) => [newEntry]
  | .request (.enforce _) => [[.key "auth", .key "enforce"]]
  | .request (.patch id _) =>
    if id = "enforce" then [[.key "auth", .key "enforce"]]
    else
      match (entriesOf config).findIdx? (hasId id) with
      | none => []
      | some idx =>
        ["label", "key", "enabled"].map fun k => entriesPath ++ [.index idx, .key k]
  | .request (.delete _) => [entriesPath]
  | .claudeCode enabled _ _ =>
    [.key "apps", .key "claudeCode", .key "enabled"] :: if enabled then [newEntry] else []
  | .claudeDesktop _ _ => [[.key "apps", .key "claudeDesktop", .key "enabled"]]

/-- The defaults that are added where they are missing. -/
def addedDefaults : Json :=
  .object [("extraPrompts", .object (textFields defaultExtraPrompts)),
    ("modelReasoningEfforts", .object (textFields defaultModelReasoningEfforts))]

def added (merges : Bool) (p : Path) : Option Kind :=
  if merges then addedDefaults.kindAt p else none

/-- The value at a path after a write: that of a path which the schema does not keep is gone, and
one that is missing may be a default. -/
def kept (merges : Bool) (w : Json) (p : Path) : Option Kind :=
  if AppConfigSchema.keeps p then (w.kindAt p).or (added merges p) else none

/-- The file is left alone, or rewritten: the values change below the named paths, and the objects
above them are made where there were none. -/
def Kept (merges : Bool) (paths : List Path) (w w' : Json) : Prop :=
  w' = w ∨ ∀ p, (∃ q ∈ paths, q <+: p) ∨ w'.kindAt p = kept merges w p ∨
    ∃ q ∈ paths, p <+: q ∧ w.kindAt p = none

/-! ## The shape of a configuration -/

/-- What the schema says about the objects that the operations go through. -/
structure Shaped (config : Fields) : Prop where
  auth : ∀ v, config.lookup "auth" = some v → ∃ fields, v = .object fields
  entries : ∀ v, (recordAt config "auth").lookup "apiKeyEntries" = some v → ∃ items, v = .array items
  apps : ∀ v, config.lookup "apps" = some v → ∃ fields, v = .object fields
  app : ∀ k ∈ ["claudeCode", "claudeDesktop"], ∀ v, (recordAt config "apps").lookup k = some v →
    ∃ fields, v = .object fields

theorem exists_parse_of_child {schema s : Schema} {value value' v' : Json} (step : Step)
    (h : schema.parse value = some value') (hunder : schema.under step = some s)
    (hchild : value'.child step = some v') : ∃ v, s.parse v = some v' := by
  have hparse := Schema.child_parse h step
  rw [hunder, hchild] at hparse
  obtain ⟨v, -, hv⟩ := Option.map_eq_some_iff.1 hparse
  exact ⟨v, hv⟩

theorem recordAt_of_some {config fields : Fields} {k : String}
    (h : config.lookup k = some (.object fields)) : recordAt config k = fields := by
  rw [recordAt, h]

theorem recordAt_of_none {config : Fields} {k : String} (h : config.lookup k = none) :
    recordAt config k = [] := by
  rw [recordAt, h]

section

variable {raw v : Json} {config : Fields} {loose : Bool} {shape : Shape} {k : String}

theorem exists_object_of_validate (h : validateAppConfig raw = some config)
    (hunder : AppConfigSchema.under (.key k) = some (.object loose shape))
    (hv : config.lookup k = some v) :
    ∃ fields, v = .object fields ∧
      ∃ w, (Schema.object loose shape).parse w = some (.object fields) := by
  obtain ⟨w, hw⟩ := exists_parse_of_child (.key k) (parse_of_validate h) hunder hv
  obtain ⟨-, fields, -, rfl⟩ := Schema.exists_object_of_parse hw
  exact ⟨fields, rfl, w, hw⟩

/-- A field of an object in the configuration has been checked. -/
theorem exists_parse_of_record (h : validateAppConfig raw = some config)
    (hunder : AppConfigSchema.under (.key k) = some (.object loose shape)) {k' : String} {s : Schema}
    (hfield : (Schema.object loose shape).under (.key k') = some s)
    (hv : (recordAt config k).lookup k' = some v) : ∃ u, s.parse u = some v := by
  cases hlookup : config.lookup k with
  | none =>
    rw [recordAt_of_none hlookup] at hv
    cases hv
  | some record =>
    obtain ⟨fields, rfl, w, hw⟩ := exists_object_of_validate h hunder hlookup
    rw [recordAt_of_some hlookup] at hv
    exact exists_parse_of_child (.key k') hw hfield hv

theorem shaped_of_validate (h : validateAppConfig raw = some config) : Shaped config := by
  have hauth : AppConfigSchema.under (.key "auth") = some AuthSchema := rfl
  have happs : AppConfigSchema.under (.key "apps") = some AppsSchema := rfl
  refine ⟨fun v hv => ?_, fun v hv => ?_, fun v hv => ?_, fun k hk v hv => ?_⟩
  · obtain ⟨fields, hfields, -⟩ := exists_object_of_validate h hauth hv
    exact ⟨fields, hfields⟩
  · obtain ⟨u, hu⟩ := exists_parse_of_record h hauth rfl hv
    obtain ⟨-, items, -, rfl, -⟩ := Schema.exists_items_of_parse hu
    exact ⟨items, rfl⟩
  · obtain ⟨fields, hfields, -⟩ := exists_object_of_validate h happs hv
    exact ⟨fields, hfields⟩
  · have happ : AppsSchema.under (.key k) = some AppSchema := by
      obtain rfl | rfl : k = "claudeCode" ∨ k = "claudeDesktop" := by simpa using hk
      · rfl
      · rfl
    obtain ⟨u, hu⟩ := exists_parse_of_record h happs happ hv
    obtain ⟨-, fields, -, rfl⟩ := Schema.exists_object_of_parse hu
    exact ⟨fields, rfl⟩

end

/-! ## What the operations set -/

section

variable {config : Fields} {paths : List Path}

theorem sameBut_record (k' : String) {k : String} {v : Json} {q : Path} (hq : q ∈ paths)
    (hshape : ∀ w, config.lookup k = some w → ∃ fields, w = .object fields)
    (h : SameBut paths ((recordAt config k).lookup k') (some v)) :
    SameBut (paths.map (.key k' :: ·)) (config.lookup k)
      (some (.object (Json.set (recordAt config k) k' v))) := by
  cases hlookup : config.lookup k with
  | none =>
    rw [recordAt_of_none hlookup] at h ⊢
    exact h.fieldOfNone hq
  | some w =>
    obtain ⟨fields, rfl⟩ := hshape w hlookup
    rw [recordAt_of_some hlookup] at h ⊢
    exact h.field

theorem sameBut_withAuth {k : String} {v : Json} {q : Path} (hq : q ∈ paths) (hshape : Shaped config)
    (h : SameBut paths ((recordAt config "auth").lookup k) (some v)) :
    SameBut (paths.map fun p => .key "auth" :: .key k :: p) (some (.object config))
      (some (.object (withAuth config k v))) := by
  have hauth := (sameBut_record k hq hshape.auth h).field
  rw [List.map_map] at hauth
  exact hauth

theorem sameBut_withApp (hshape : Shaped config) (app : String)
    (happ : app ∈ ["claudeCode", "claudeDesktop"]) (enabled : Bool) :
    SameBut [[.key "apps", .key app, .key "enabled"]] (some (.object config))
      (some (.object (withApp config app enabled))) := by
  have hswitch := sameBut_record "enabled" (List.mem_singleton_self _) (hshape.app app happ)
    (SameBut.anything _ (some (.bool enabled)))
  have happs := sameBut_record app (List.mem_singleton_self _) hshape.apps hswitch
  exact happs.field

theorem entriesOf_eq (hshape : Shaped config) :
    entriesOf config = (Val.asArray ((recordAt config "auth").lookup "apiKeyEntries")).getD [] := by
  rw [entriesOf]
  cases hlookup : config.lookup "auth" with
  | none => rw [recordAt_of_none hlookup]; rfl
  | some auth =>
    obtain ⟨fields, rfl⟩ := hshape.auth auth hlookup
    rw [recordAt_of_some hlookup]
    rfl

theorem sameBut_newEntry (hshape : Shaped config) (entry : Json) :
    SameBut [entriesPath ++ [.index (entriesOf config).length]] (some (.object config))
      (some (.object (withAuth config "apiKeyEntries" (.array (entriesOf config ++ [entry]))))) := by
  have hentries : SameBut [[.index (entriesOf config).length]]
      ((recordAt config "auth").lookup "apiKeyEntries")
      (some (.array (entriesOf config ++ [entry]))) := by
    rw [entriesOf_eq hshape]
    cases hlookup : (recordAt config "auth").lookup "apiKeyEntries" with
    | none => exact SameBut.appendOfNone entry
    | some v =>
      obtain ⟨items, rfl⟩ := hshape.entries v hlookup
      exact SameBut.append items entry
  exact sameBut_withAuth (List.mem_singleton_self _) hshape hentries

theorem sameBut_assign (fields : Fields) (k : String) (v : Val) :
    SameBut [[.key k]] (some (.object fields)) (some (assign k v (.object fields))) := by
  cases v with
  | none => exact SameBut.refl _ _
  | some v => exact (SameBut.anything _ _).field

theorem exists_assign (fields : Fields) (k : String) (v : Val) :
    ∃ fields', assign k v (.object fields) = .object fields' := by
  cases v with
  | none => exact ⟨_, rfl⟩
  | some v => exact ⟨_, rfl⟩

theorem sameBut_assigns (fields : Fields) (label key enabled : Val) :
    SameBut (["label", "key", "enabled"].map fun k => [.key k]) (some (.object fields))
      (some (assign "enabled" enabled (assign "key" key (assign "label" label (.object fields))))) := by
  have hassign (fields : Fields) {k : String} (v : Val) (hk : k ∈ ["label", "key", "enabled"]) :
      SameBut (["label", "key", "enabled"].map fun k => [.key k]) (some (.object fields))
        (some (assign k v (.object fields))) :=
    (sameBut_assign fields k v).mono fun p hp =>
      List.mem_map.2 ⟨k, hk, (List.mem_singleton.1 hp).symm⟩
  obtain ⟨labelled, hlabelled⟩ := exists_assign fields "label" label
  obtain ⟨keyed, hkeyed⟩ := exists_assign labelled "key" key
  have hlabel := hassign fields (k := "label") label (by decide)
  have hkey := hassign labelled (k := "key") key (by decide)
  have henabled := hassign keyed (k := "enabled") enabled (by decide)
  rw [hlabelled] at hlabel ⊢
  rw [hkeyed] at hkey ⊢
  exact (hlabel.trans hkey).trans henabled

/-- A request sets what it names. -/
theorem change_sameBut {request : Request} {next : Fields} (hshape : Shaped config)
    (hchange : Change config request next) :
    SameBut (named (.request request) config) (some (.object config)) (some (.object next)) := by
  cases hchange with
  | create hid hkey => exact sameBut_newEntry hshape _
  | enforce b hrequest =>
    have hsame := sameBut_withAuth (k := "enforce") (List.mem_singleton_self _) hshape
      (SameBut.anything _ (some (.bool b)))
    obtain ⟨body, rfl⟩ | ⟨body, rfl⟩ := hrequest
    · exact hsame
    · exact hsame
  | @patch id body idx fields data key hid hidx hcurrent hkey =>
    have hentry : SameBut (["label", "key", "enabled"].map fun k => [.key k])
        (entriesOf config)[idx]? (some (updated (.object fields) data key)) := by
      rw [hcurrent]
      exact sameBut_assigns fields _ _ _
    have hitems : SameBut (["label", "key", "enabled"].map fun k => [.index idx, .key k])
        ((recordAt config "auth").lookup "apiKeyEntries")
        (some (.array ((entriesOf config).set idx (updated (.object fields) data key)))) := by
      have hset := hentry.index (List.getElem?_eq_some_iff.1 hcurrent).1
      cases hlookup : (recordAt config "auth").lookup "apiKeyEntries" with
      | none =>
        rw [entriesOf_eq hshape, hlookup] at hcurrent
        cases hcurrent
      | some v =>
        obtain ⟨items, rfl⟩ := hshape.entries v hlookup
        have hitems : entriesOf config = items := by
          rw [entriesOf_eq hshape, hlookup]
          rfl
        rw [hitems] at hset ⊢
        exact hset
    rw [named, if_neg hid, hidx]
    exact sameBut_withAuth List.mem_cons_self hshape hitems
  | delete id =>
    exact sameBut_withAuth (k := "apiKeyEntries") (List.mem_singleton_self _) hshape
      (SameBut.anything _ _)

end

/-! ## One operation -/

/-- The configuration is what is kept of a file. -/
def Follows (merges : Bool) (w : Json) (config : Fields) : Prop :=
  ∀ p, (Json.object config).kindAt p = kept merges w p

/-- A process that has loaded its configuration, from a file that it follows. -/
structure Loaded (merges : Bool) (s : Store) : Prop where
  shaped : Shaped s.config
  config : Follows merges (.object s.config) s.config
  content : ∀ w, s.content = .json w → Follows merges w s.config

/-- The state is left alone, or a configuration that differs below the paths is written. -/
def Wrote (paths : List Path) (s s' : Store) : Prop :=
  s' = s ∨ s'.content = .json (.object s'.config) ∧
    (∃ next, validateAppConfig (.object next) = some s'.config) ∧
    SameBut paths (some (.object s.config)) (some (.object s'.config))

theorem Follows.of_not_keeps {merges : Bool} {w : Json} {config : Fields}
    (h : Follows merges w config) {p : Path} (hp : AppConfigSchema.keeps p = false) :
    (Json.object config).kindAt p = none := by
  rw [h p, kept, hp]
  rfl

theorem Follows.of_keeps {merges : Bool} {w : Json} {config : Fields}
    (h : Follows merges w config) {p : Path} (hp : AppConfigSchema.keeps p = true) :
    (Json.object config).kindAt p = (w.kindAt p).or (added merges p) := by
  rw [h p, kept, hp]
  rfl

section

variable {fs : FileSystem} {merges : Bool} {s s' : Store} {paths : List Path}

theorem writeConfig_wrote (h : Loaded merges s) {next : Fields}
    (hsame : SameBut paths (some (.object s.config)) (some (.object next)))
    (hwrite : writeConfig fs next = some s') : Wrote paths s s' := by
  obtain ⟨hvalidate, hcontent⟩ := writeConfig_spec hwrite
  refine .inr ⟨hcontent, ⟨next, hvalidate⟩, fun p => ?_⟩
  have hparse := Schema.kindAt_parse (parse_of_validate hvalidate) p
  cases hkeeps : AppConfigSchema.keeps p with
  | true =>
    rw [hkeeps, if_pos rfl] at hparse
    rw [Val.kindAt_some, hparse]
    exact hsame p
  | false =>
    rw [hkeeps, if_neg Bool.false_ne_true] at hparse
    exact .inr (.inl (hparse.trans (h.config.of_not_keeps hkeeps).symm))

theorem handle_wrote (h : Loaded merges s) (request : Request) :
    Wrote (named (.request request) s.config) s (handle fs request s).1 := by
  obtain ⟨answer, heq⟩ | ⟨next, answer, hchange, -, heq⟩ := handle_writes fs request s
  · rw [heq]
    exact .inl rfl
  · rw [heq, write]
    cases hwrite : writeConfig fs next with
    | none => exact .inl rfl
    | some s' => exact writeConfig_wrote h (change_sameBut h.shaped hchange) hwrite

theorem added_eq_none {p : Path} {k : String} (hk : k ∈ ["auth", "apps"]) :
    added merges (.key k :: p) = none := by
  rw [added]
  split
  · obtain rfl | rfl : k = "auth" ∨ k = "apps" := by simpa using hk
    · rfl
    · rfl
  · rfl

/-- The named paths are kept, and below them no default is added. -/
theorem named_spec (operation : Operation) (config : Fields) {q : Path}
    (hq : q ∈ named operation config) :
    AppConfigSchema.keeps q = true ∧ ∃ k ∈ ["auth", "apps"], [.key k] <+: q := by
  have hnew : AppConfigSchema.keeps (entriesPath ++ [.index (entriesOf config).length]) = true ∧
      ∃ k ∈ ["auth", "apps"], [Step.key k] <+: entriesPath ++ [.index (entriesOf config).length] :=
    ⟨rfl, "auth", by decide, [_, _], rfl⟩
  cases operation with
  | request request =>
    cases request with
    | list => cases hq
    | create body generated =>
      obtain rfl := List.mem_singleton.1 hq
      exact hnew
    | enforce body =>
      obtain rfl := List.mem_singleton.1 hq
      exact ⟨rfl, "auth", by decide, [_], rfl⟩
    | patch id body =>
      rw [named] at hq
      split at hq
      · obtain rfl := List.mem_singleton.1 hq
        exact ⟨rfl, "auth", by decide, [_], rfl⟩
      · split at hq
        · cases hq
        · next idx _ =>
          obtain ⟨k, hk, rfl⟩ := List.mem_map.1 hq
          refine ⟨?_, "auth", by decide, [_, _, _], rfl⟩
          obtain rfl | rfl | rfl : k = "label" ∨ k = "key" ∨ k = "enabled" := by simpa using hk
          · rfl
          · rfl
          · rfl
    | delete id =>
      obtain rfl := List.mem_singleton.1 hq
      exact ⟨rfl, "auth", by decide, [_], rfl⟩
  | claudeCode enabled switched generated =>
    obtain rfl | hq := List.mem_cons.1 hq
    · exact ⟨rfl, "apps", by decide, [_, _], rfl⟩
    · cases enabled with
      | false => cases hq
      | true =>
        obtain rfl := List.mem_singleton.1 hq
        exact hnew
  | claudeDesktop enabled switched =>
    obtain rfl := List.mem_singleton.1 hq
    exact ⟨rfl, "apps", by decide, [_, _], rfl⟩

/-- A path above one that is kept is kept. -/
theorem keeps_of_prefix {schema : Schema} {p q : Path} (hp : p <+: q)
    (hq : schema.keeps q = true) : schema.keeps p = true := by
  obtain ⟨r, rfl⟩ := hp
  rw [Schema.keeps, List.foldlM_append] at hq
  rw [Schema.keeps]
  cases hfold : p.foldlM Schema.under schema with
  | none =>
    rw [hfold] at hq
    cases hq
  | some s => rfl

/-- What was written leaves the file as it is but for the paths, and the configuration follows it. -/
theorem Loaded.wrote (h : Loaded merges s) (hwrote : Wrote paths s s')
    (hpaths : ∀ q ∈ paths, AppConfigSchema.keeps q = true ∧
      ∃ k ∈ ["auth", "apps"], [.key k] <+: q) :
    Loaded merges s' ∧
      ∀ w, s.content = .json w → ∃ w', s'.content = .json w' ∧ Kept merges paths w w' := by
  obtain rfl | ⟨hcontent, ⟨next, hvalidate⟩, hsame⟩ := hwrote
  · exact ⟨h, fun w hw => ⟨w, hw, .inl rfl⟩⟩
  have hparse := Schema.kindAt_parse (parse_of_validate hvalidate)
  have hfollows : Follows merges (.object s'.config) s'.config := by
    intro p
    rw [kept]
    cases hkeeps : AppConfigSchema.keeps p with
    | false =>
      rw [hparse p, hkeeps]
      rfl
    | true =>
      rw [if_pos rfl]
      have hadded := h.config.of_keeps hkeeps
      obtain ⟨q, hq, hqp⟩ | heq | ⟨q, hq, hpq, hnone⟩ := hsame p
      · obtain ⟨-, k, hk, hkq⟩ := hpaths q hq
        obtain ⟨r, rfl⟩ := hkq.trans hqp
        rw [List.singleton_append, added_eq_none hk, Option.or_none]
      · rw [Val.kindAt_some, Val.kindAt_some] at heq
        rw [heq]
        exact hadded
      · rw [Val.kindAt_some] at hnone
        rw [hnone] at hadded
        rw [Option.none_or] at hadded
        rw [← hadded, Option.or_none]
  refine ⟨⟨shaped_of_validate hvalidate, hfollows, fun w hw => ?_⟩,
    fun w hw => ⟨_, hcontent, .inr fun p => ?_⟩⟩
  · obtain rfl := Content.json.inj (hcontent.symm.trans hw)
    exact hfollows
  · obtain hq | heq | ⟨q, hq, hpq, hnone⟩ := hsame p
    · exact .inl hq
    · exact .inr (.inl (heq.trans (h.content w hw p)))
    · have hkeeps := keeps_of_prefix hpq (hpaths q hq).1
      have hw := (h.content w hw).of_keeps hkeeps
      exact .inr (.inr ⟨q, hq, hpq, (Option.or_eq_none_iff.1 (hw.symm.trans hnone)).1⟩)

theorem Wrote.mono {paths' : List Path} (h : Wrote paths s s') (hpaths : ∀ p ∈ paths, p ∈ paths') :
    Wrote paths' s s' := by
  obtain h | ⟨hcontent, hnext, hsame⟩ := h
  · exact .inl h
  · exact .inr ⟨hcontent, hnext, hsame.mono hpaths⟩

theorem Wrote.trans {s'' : Store} (h : Wrote paths s s') (h' : Wrote paths s' s'') :
    Wrote paths s s'' := by
  obtain rfl | ⟨hcontent, hnext, hsame⟩ := h
  · exact h'
  obtain rfl | ⟨hcontent', hnext', hsame'⟩ := h'
  · exact .inr ⟨hcontent, hnext, hsame⟩
  · exact .inr ⟨hcontent', hnext', hsame.trans hsame'⟩

theorem entriesOf_withApp (config : Fields) (app : String) (enabled : Bool) :
    entriesOf (withApp config app enabled) = entriesOf config := by
  rw [entriesOf, withApp, Json.lookup_set_of_ne _ _ (by decide), entriesOf]

theorem setClaudeCodeRoutingIntent_wrote (h : Loaded merges s) {enabled : Bool}
    (hset : setClaudeCodeRoutingIntent fs enabled s = some s') :
    Wrote [[.key "apps", .key "claudeCode", .key "enabled"]] s s' ∧
      (entriesOf s'.config).length = (entriesOf s.config).length := by
  have hsame := sameBut_withApp h.shaped "claudeCode" (by decide) enabled
  refine ⟨writeConfig_wrote h hsame hset, ?_⟩
  have hentries := entriesOf_validate (writeConfig_spec hset).1
  rw [← hentries.length_eq, entriesOf_withApp]

theorem ensureDefaultEndpointKey_wrote (h : Loaded merges s) {generated : Generated}
    (hensure : ensureDefaultEndpointKey fs generated s = some s') :
    Wrote [entriesPath ++ [.index (entriesOf s.config).length]] s s' := by
  rw [ensureDefaultEndpointKey] at hensure
  split at hensure
  · exact .inl (Option.some.inj hensure).symm
  · exact writeConfig_wrote h (sameBut_newEntry h.shaped _) hensure

/-- An operation sets what it names. -/
theorem operate_wrote (h : Loaded merges s) (l : FileSystem × Operation) :
    Wrote (named l.2 s.config) s (operate l s) := by
  obtain ⟨fs, operation⟩ := l
  cases operation with
  | request request => exact handle_wrote h request
  | claudeCode enabled switched generated =>
    rw [operate]
    dsimp only
    split
    · exact .inl rfl
    cases hset : setClaudeCodeRoutingIntent fs enabled s with
    | none => exact .inl rfl
    | some s₁ =>
      obtain ⟨hwrote, hlength⟩ := setClaudeCodeRoutingIntent_wrote h hset
      have hfirst : Wrote (named (.claudeCode enabled switched generated) s.config) s s₁ :=
        hwrote.mono fun p hp => List.mem_cons.2 (.inl (List.mem_singleton.1 hp))
      cases enabled with
      | false => exact hfirst
      | true =>
        dsimp only
        rw [if_pos rfl]
        cases hensure : ensureDefaultEndpointKey fs generated s₁ with
        | none => exact hfirst
        | some s₂ =>
          have hs₁ := (h.wrote hfirst fun q hq => named_spec _ _ hq).1
          have hsecond := ensureDefaultEndpointKey_wrote hs₁ hensure
          rw [hlength] at hsecond
          exact hfirst.trans (hsecond.mono fun p hp => List.mem_cons_of_mem _ hp)
  | claudeDesktop enabled switched =>
    rw [operate]
    dsimp only
    split
    · exact .inl rfl
    cases hwrite : writeConfig fs (withApp s.config "claudeDesktop" enabled) with
    | none => exact .inl rfl
    | some s₁ =>
      exact writeConfig_wrote h (sameBut_withApp h.shaped "claudeDesktop" (by decide) enabled) hwrite

end

end Maximal.Config
