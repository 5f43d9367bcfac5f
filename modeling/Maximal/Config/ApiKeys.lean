import Maximal.Config.Config
import Maximal.Lib.Js.Text
import Maximal.Lib.Runs
import Mathlib.Data.List.Nodup

/-!
# The API key registry

The endpoints that list, create, change and delete the keys. A request is handled in one piece once
its body has been read, so interleaved requests are handled one after the other.

## Main definitions

- `Request`, `handle` — the endpoints
- `Distinct` — no two entries share a key or an id

## Main results

- `handle_error` — a request that is answered with an error changes nothing
- `handle_registry`, `registry_of_run` — the entries stay distinct
-/

namespace Maximal.Config

open Js Runs

/-! ## Requests and answers -/

structure Answer where
  status : ℕ
  body : Val

/-- What the framework answers when a handler throws. -/
def thrown : Answer := ⟨500, none⟩

def Answer.isError (answer : Answer) : Bool := 400 ≤ answer.status

def errorAnswer (status : ℕ) (message type : String) : Answer where
  status := status
  body := some (.object [("error",
    .object [("message", .string message), ("type", .string type)])])

def ApiKeyCreateRequest : Schema :=
  .object false <|
    .cons "label" false (.string (hasLength 1 64)) <|
    .cons "key" true anyString <|
    .cons "enabled" true .boolean .nil

def ApiKeyUpdateRequest : Schema :=
  .object false <|
    .cons "label" true (.string (hasLength 1 64)) <|
    .cons "key" true anyString <|
    .cons "enabled" true .boolean .nil

def enforceBodySchema : Schema := .object false (.cons "enforce" false .boolean .nil)

def VALIDATION : Answer :=
  errorAnswer 400 ("Key must be 8–128 chars of letters, digits, underscore, or hyphen — " ++
    "or the literal '*' wildcard.") "validation_error"

def invalidPayload : Answer := errorAnswer 400 "Invalid payload" "validation_error"

def conflict : Answer := errorAnswer 409 "Key already exists" "conflict"

def notFound : Answer := errorAnswer 404 "API key not found" "not_found"

/-- What is made for a new entry: a random id, a random key, and the time. -/
structure Generated where
  uuid : String
  key : String
  now : String

/-- A body is `null` where it is no JSON. -/
inductive Request where
  | list
  | create (body : Json) (generated : Generated)
  | enforce (body : Json)
  | patch (id : String) (body : Json)
  | delete (id : String)

/-! ## The endpoints -/

/-- `config.auth?.apiKeyEntries ?? []`. -/
def entriesOf (config : Fields) : List Json :=
  (Val.optProp (config.lookup "auth") "apiKeyEntries").asArray.getD []

def apiKeysList (config : Fields) : Answer where
  status := 200
  body := some (.object [("entries", .array (entriesOf config)),
    ("enforcing", .bool ((Val.optProp (config.lookup "auth") "enforce").asBool = some true))])

/-- `{ ...config, auth: { ...config.auth, [k]: v } }`. -/
def withAuth (config : Fields) (k : String) (v : Json) : Fields :=
  Json.set config "auth" (.object (Json.set (recordAt config "auth") k v))

/-- A handler that writes the configuration and answers. -/
def write (fs : FileSystem) (s : Store) (next : Fields) (answer : Store → Answer) :
    Store × Answer :=
  match writeConfig fs next with
  | none => (s, thrown)
  | some s => (s, answer s)

def persistApiKeyEntries (fs : FileSystem) (s : Store) (entries : List Json) (answer : Answer) :
    Store × Answer :=
  write fs s (withAuth s.config "apiKeyEntries" (.array entries)) fun _ => answer

def hasKey (key : String) (entry : Json) : Bool := (entry.get "key").asString = some key

def hasId (id : String) (entry : Json) : Bool := (entry.get "id").asString = some id

def createApiKey (fs : FileSystem) (s : Store) (body : Json) (generated : Generated) :
    Store × Answer :=
  match ApiKeyCreateRequest.parse body with
  | none => (s, invalidPayload)
  | some data =>
    let key := trim ((data.get "key").asString.getD generated.key)
    if !API_KEY_VALUE_PATTERN key then (s, VALIDATION)
    else
      let existing := entriesOf s.config
      if existing.any (hasKey key) then (s, conflict)
      else
        let entry : Json := .object [("id", .string generated.uuid),
          ("label", .string (trim ((data.get "label").asString.getD ""))),
          ("key", .string key),
          ("enabled", .bool ((data.get "enabled").asBool.getD true)),
          ("created_at", .string generated.now)]
        persistApiKeyEntries fs s (existing ++ [entry]) ⟨201, some entry⟩

def patchEnforce (fs : FileSystem) (s : Store) (body : Json) : Store × Answer :=
  match enforceBodySchema.parse body with
  | none => (s, errorAnswer 400 "Expected \x7b enforce: boolean \x7d" "validation_error")
  | some data =>
    write fs s (withAuth s.config "enforce" (.bool ((data.get "enforce").asBool = some true)))
      fun s => apiKeysList s.config

/-- `{ ...value, [k]: v }`, where `v` is there. -/
def assign (k : String) (v : Val) : Json → Json
  | .object fields =>
    match v with
    | none => .object fields
    | some v => .object (Json.set fields k v)
  | value => value

/-- The key that an entry is given: its own where the request leaves it out, none where another
entry has the new one. -/
inductive NextKey where
  | key (v : Val)
  | invalid
  | taken

def nextKey (entries : List Json) (idx : ℕ) (current data : Json) : NextKey :=
  match (data.get "key").asString with
  | none => .key (current.get "key")
  | some candidate =>
    let candidate := trim candidate
    if !API_KEY_VALUE_PATTERN candidate then .invalid
    else if entries.zipIdx.any fun e => e.2 ≠ idx && hasKey candidate e.1 then .taken
    else .key (some (.string candidate))

/-- A field that the request leaves out keeps its value. -/
def updated (current data : Json) (key : Val) : Json :=
  assign "enabled" (((data.get "enabled").asBool.map Json.bool).or (current.get "enabled"))
    (assign "key" key
      (assign "label" (((data.get "label").asString.map fun l => .string (trim l)).or
        (current.get "label")) current))

def patchApiKey (fs : FileSystem) (s : Store) (id : String) (body : Json) : Store × Answer :=
  match ApiKeyUpdateRequest.parse body with
  | none => (s, invalidPayload)
  | some data =>
    let entries := entriesOf s.config
    match entries.findIdx? (hasId id) with
    | none => (s, notFound)
    | some idx =>
      let current := entries.getD idx .null
      match nextKey entries idx current data with
      | .invalid => (s, VALIDATION)
      | .taken => (s, conflict)
      | .key key =>
        let entry := updated current data key
        persistApiKeyEntries fs s (entries.set idx entry) ⟨200, some entry⟩

def deleteApiKey (fs : FileSystem) (s : Store) (id : String) : Store × Answer :=
  let entries := entriesOf s.config
  let next := entries.filter fun entry => !hasId id entry
  if next.length = entries.length then (s, notFound)
  else persistApiKeyEntries fs s next ⟨204, none⟩

/-- The router takes `enforce` before it takes an id. -/
def handle (fs : FileSystem) (request : Request) (s : Store) : Store × Answer :=
  match request with
  | .list => (s, apiKeysList s.config)
  | .create body generated => createApiKey fs s body generated
  | .enforce body => patchEnforce fs s body
  | .patch id body => if id = "enforce" then patchEnforce fs s body else patchApiKey fs s id body
  | .delete id => deleteApiKey fs s id

/-- Requests, each with what the file system does for it. -/
def step (l : FileSystem × Request) (s : Store) : Option Store := some (handle l.1 l.2 s).1

/-! ## What a request writes -/

/-- The configurations that a request may write. -/
inductive Change (config : Fields) : Request → Fields → Prop
  | create {body : Json} {generated : Generated} {entry : Json}
      (hid : entry.get "id" = some (.string generated.uuid))
      (hkey : ∀ e ∈ entriesOf config, e.get "key" ≠ entry.get "key") :
      Change config (.create body generated)
        (withAuth config "apiKeyEntries" (.array (entriesOf config ++ [entry])))
  | enforce {request : Request} (b : Bool)
      (hrequest : (∃ body, request = .enforce body) ∨ ∃ body, request = .patch "enforce" body) :
      Change config request (withAuth config "enforce" (.bool b))
  | patch {id : String} {body : Json} {idx : ℕ} {fields : Fields} (data : Json) {key : Val}
      (hid : id ≠ "enforce") (hidx : (entriesOf config).findIdx? (hasId id) = some idx)
      (hcurrent : (entriesOf config)[idx]? = some (.object fields))
      (hkey : key = fields.lookup "key" ∨ ∃ candidate, key = some (.string candidate) ∧
        ∀ i e, i ≠ idx → (entriesOf config)[i]? = some e → e.get "key" ≠ key) :
      Change config (.patch id body)
        (withAuth config "apiKeyEntries"
          (.array ((entriesOf config).set idx (updated (.object fields) data key))))
  | delete (id : String) :
      Change config (.delete id)
        (withAuth config "apiKeyEntries"
          (.array ((entriesOf config).filter fun entry => !hasId id entry)))

/-- A request leaves the configuration alone, or writes another one and is answered. -/
def Writes (fs : FileSystem) (request : Request) (s : Store) (result : Store × Answer) : Prop :=
  (∃ answer, result = (s, answer)) ∨
    ∃ next answer, Change s.config request next ∧ (∀ s, Answer.isError (answer s) = false) ∧
      result = write fs s next answer

section

variable {fs : FileSystem} {s : Store} {request : Request}

theorem get_of_hasKey {key : String} {entry : Json} :
    hasKey key entry = true ↔ entry.get "key" = some (.string key) := by
  rw [hasKey, decide_eq_true_iff]
  cases entry.get "key" with
  | none => simp [Val.asString]
  | some v => cases v <;> simp [Val.asString]

theorem object_of_hasId {id : String} {entry : Json} (h : hasId id entry = true) :
    ∃ fields, entry = .object fields := by
  cases entry with
  | object fields => exact ⟨fields, rfl⟩
  | array items => simp [hasId, Json.get, Val.asString] at h
  | string s => simp [hasId, Json.get, Val.asString] at h
  | _ => simp [hasId, Json.get, Val.asString] at h

theorem createApiKey_writes (body : Json) (generated : Generated) :
    Writes fs (.create body generated) s (createApiKey fs s body generated) := by
  rw [createApiKey]
  cases ApiKeyCreateRequest.parse body with
  | none => exact .inl ⟨_, rfl⟩
  | some data =>
    dsimp only
    split
    · exact .inl ⟨_, rfl⟩
    · split
      · exact .inl ⟨_, rfl⟩
      · next htaken =>
        refine .inr ⟨_, _, .create rfl fun e he hkey => ?_, fun _ => rfl, rfl⟩
        exact htaken (List.any_eq_true.2 ⟨e, he, get_of_hasKey.2 hkey⟩)

theorem patchEnforce_writes (body : Json)
    (hrequest : (∃ body, request = .enforce body) ∨ ∃ body, request = .patch "enforce" body) :
    Writes fs request s (patchEnforce fs s body) := by
  rw [patchEnforce]
  cases enforceBodySchema.parse body with
  | none => exact .inl ⟨_, rfl⟩
  | some data => exact .inr ⟨_, _, .enforce _ hrequest, fun _ => rfl, rfl⟩

theorem nextKey_spec {entries : List Json} {idx : ℕ} {current data : Json} {key : Val}
    (h : nextKey entries idx current data = .key key) :
    key = current.get "key" ∨ ∃ candidate, key = some (.string candidate) ∧
      ∀ i e, i ≠ idx → entries[i]? = some e → e.get "key" ≠ key := by
  rw [nextKey] at h
  split at h
  · exact .inl (NextKey.key.inj h).symm
  · next candidate _ =>
    dsimp only at h
    split at h
    · cases h
    · split at h
      · cases h
      · next htaken =>
        obtain rfl := NextKey.key.inj h
        refine .inr ⟨_, rfl, fun i e hi he hkey => htaken (List.any_eq_true.2 ⟨(e, i), ?_, ?_⟩)⟩
        · exact List.mk_mem_zipIdx_iff_getElem?.2 he
        · simpa [hi] using get_of_hasKey.2 hkey

theorem patchApiKey_writes {id : String} (hid : id ≠ "enforce") (body : Json) :
    Writes fs (.patch id body) s (patchApiKey fs s id body) := by
  rw [patchApiKey]
  cases ApiKeyUpdateRequest.parse body with
  | none => exact .inl ⟨_, rfl⟩
  | some data =>
    dsimp only
    cases hidx : (entriesOf s.config).findIdx? (hasId id) with
    | none => exact .inl ⟨_, rfl⟩
    | some idx =>
      obtain ⟨hlt, hentry, -⟩ := List.findIdx?_eq_some_iff_getElem.1 hidx
      obtain ⟨fields, hfields⟩ := object_of_hasId hentry
      have hget : (entriesOf s.config)[idx]? = some (.object fields) := by
        rw [List.getElem?_eq_getElem hlt, hfields]
      have hcurrent : (entriesOf s.config).getD idx .null = .object fields := by
        rw [List.getD_eq_getElem?_getD, hget]
        rfl
      dsimp only
      rw [hcurrent]
      cases hkey : nextKey (entriesOf s.config) idx (.object fields) data with
      | invalid => exact .inl ⟨_, rfl⟩
      | taken => exact .inl ⟨_, rfl⟩
      | key key =>
        exact .inr ⟨_, _, .patch data hid hidx hget (nextKey_spec hkey), fun _ => rfl, rfl⟩

theorem deleteApiKey_writes (id : String) : Writes fs (.delete id) s (deleteApiKey fs s id) := by
  rw [deleteApiKey]
  split
  · exact .inl ⟨_, rfl⟩
  · exact .inr ⟨_, _, .delete id, fun _ => rfl, rfl⟩

theorem handle_writes (fs : FileSystem) (request : Request) (s : Store) :
    Writes fs request s (handle fs request s) := by
  cases request with
  | list => exact .inl ⟨_, rfl⟩
  | create body generated => exact createApiKey_writes body generated
  | enforce body => exact patchEnforce_writes body (.inl ⟨body, rfl⟩)
  | patch id body =>
    rw [handle]
    split
    · next hid => exact patchEnforce_writes body (.inr ⟨body, by rw [hid]⟩)
    · next hid => exact patchApiKey_writes hid body
  | delete id => exact deleteApiKey_writes id

/-- A request that is answered with an error changes nothing. -/
theorem handle_error (h : (handle fs request s).2.isError = true) :
    (handle fs request s).1 = s := by
  obtain ⟨answer, heq⟩ | ⟨next, answer, -, hanswer, heq⟩ := handle_writes fs request s
  · rw [heq]
  · rw [heq, write] at h ⊢
    cases hwrite : writeConfig fs next with
    | none => rfl
    | some s' =>
      rw [hwrite] at h
      exact absurd ((hanswer s').symm.trans h) Bool.false_ne_true

end

/-! ## The entries of a configuration -/

theorem entriesOf_withAuth (config : Fields) (entries : List Json) :
    entriesOf (withAuth config "apiKeyEntries" (.array entries)) = entries := by
  rw [entriesOf, withAuth, Json.lookup_set_self, Val.optProp, Json.get, Json.lookup_set_self]
  rfl

theorem entriesOf_withEnforce (config : Fields) (v : Json) :
    entriesOf (withAuth config "enforce" v) = entriesOf config := by
  rw [entriesOf, withAuth, Json.lookup_set_self, Val.optProp, Json.get,
    Json.lookup_set_of_ne _ _ (by decide), recordAt, entriesOf]
  cases config.lookup "auth" with
  | none => rfl
  | some auth => cases auth <;> rfl

/-- A declared text is returned as it is. -/
theorem get_parse_of_string {schema : Schema} {value value' : Json} {k : String}
    {ok : String → Bool} (h : schema.parse value = some value')
    (hunder : schema.under (.key k) = some (.string ok)) :
    value'.child (.key k) = value.child (.key k) := by
  have hchild := Schema.child_parse h (.key k)
  rw [hunder] at hchild
  cases hv : value.child (.key k) with
  | none =>
    rw [hv] at hchild
    exact Option.map_eq_none_iff.1 hchild.symm
  | some v =>
    rw [hv] at hchild
    obtain ⟨v', hv', hparse⟩ := Option.map_eq_some_iff.1 hchild.symm
    have hsame : v' = v := by
      cases v with
      | string s =>
        rw [Schema.parse] at hparse
        split at hparse
        · exact Option.some.inj hparse
        · cases hparse
      | _ => cases hparse
    rw [hv', hsame]

/-- The entries of the configuration that is written, item by item. -/
theorem entriesOf_validate {next config : Fields}
    (h : validateAppConfig (.object next) = some config) :
    List.Forall₂ (fun entry entry' => ApiKeyEntrySchema.parse entry = some entry') (entriesOf next)
      (entriesOf config) := by
  have hauth := Schema.child_parse (parse_of_validate h) (.key "auth")
  have hunder : AppConfigSchema.under (.key "auth") = some AuthSchema := rfl
  rw [hunder, Json.child, Json.child] at hauth
  rw [entriesOf, entriesOf]
  cases hnext : next.lookup "auth" with
  | none =>
    rw [hnext] at hauth
    rw [Option.map_eq_none_iff.1 hauth.symm]
    exact .nil
  | some auth =>
    rw [hnext] at hauth
    obtain ⟨auth', hauth', hparse⟩ := Option.map_eq_some_iff.1 hauth.symm
    have hentries := Schema.child_parse hparse.symm (.key "apiKeyEntries")
    have hunder : AuthSchema.under (.key "apiKeyEntries") = some (.array ApiKeyEntrySchema) := rfl
    obtain ⟨fields, fields', rfl, rfl⟩ := Schema.exists_object_of_parse hparse.symm
    rw [hunder, Json.child, Json.child] at hentries
    rw [hauth', Val.optProp, Val.optProp, Json.get, Json.get]
    cases hfields : fields.lookup "apiKeyEntries" with
    | none =>
      rw [hfields] at hentries
      rw [Option.map_eq_none_iff.1 hentries.symm]
      exact .nil
    | some entries =>
      rw [hfields] at hentries
      obtain ⟨entries', hentries', hparse⟩ := Option.map_eq_some_iff.1 hentries.symm
      obtain ⟨items, items', rfl, rfl, hitems⟩ := Schema.exists_items_of_parse hparse.symm
      rw [hentries']
      exact List.mapM_forall₂ hitems

/-! ## The invariant -/

structure Distinct (entries : List Json) : Prop where
  ids : (entries.map (·.get "id")).Nodup
  keys : (entries.map (·.get "key")).Nodup

/-- The entries of the cached configuration are distinct, and those in the file. -/
structure Registry (s : Store) : Prop where
  config : Distinct (entriesOf s.config)
  content : ∀ fields, s.content = .json (.object fields) → Distinct (entriesOf fields)

/-- A random id is not one that an entry has. -/
def Fresh (l : FileSystem × Request) (s : Store) : Prop :=
  match l.2 with
  | .create _ generated =>
    ∀ entry ∈ entriesOf s.config, entry.get "id" ≠ some (.string generated.uuid)
  | _ => True

theorem get_parse_entry {entry entry' : Json} (h : ApiKeyEntrySchema.parse entry = some entry') :
    entry'.get "id" = entry.get "id" ∧ entry'.get "key" = entry.get "key" := by
  have hid := get_parse_of_string (k := "id") h rfl
  have hkey := get_parse_of_string (k := "key") h rfl
  obtain ⟨fields, fields', rfl, rfl⟩ := Schema.exists_object_of_parse h
  exact ⟨hid, hkey⟩

/-- What is written is distinct where what was to be written is. -/
theorem Distinct.validate {next config : Fields} (h : Distinct (entriesOf next))
    (hvalidate : validateAppConfig (.object next) = some config) : Distinct (entriesOf config) := by
  have hentries := entriesOf_validate hvalidate
  have hids := List.map_eq_of_forall₂ (f := (·.get "id")) (g := (·.get "id")) hentries
    fun _ _ h => (get_parse_entry h).1
  have hkeys := List.map_eq_of_forall₂ (f := (·.get "key")) (g := (·.get "key")) hentries
    fun _ _ h => (get_parse_entry h).2
  exact ⟨hids ▸ h.ids, hkeys ▸ h.keys⟩

theorem get_assign_of_ne {k k' : String} (v : Val) (value : Json) (h : k' ≠ k) :
    (assign k v value).get k' = value.get k' := by
  cases value with
  | object fields =>
    cases v with
    | none => rfl
    | some v => exact Json.lookup_set_of_ne fields v h
  | _ => rfl

theorem get_assign_self {k : String} {v : Val} {fields : Fields}
    (h : v = none → fields.lookup k = none) : (assign k v (.object fields)).get k = v := by
  cases v with
  | none => exact h rfl
  | some v => exact Json.lookup_set_self fields k v

theorem get_updated_id (current data : Json) (key : Val) :
    (updated current data key).get "id" = current.get "id" := by
  rw [updated, get_assign_of_ne _ _ (by decide), get_assign_of_ne _ _ (by decide),
    get_assign_of_ne _ _ (by decide)]

theorem get_updated_key {fields : Fields} {key : Val} (data : Json)
    (h : key = none → fields.lookup "key" = none) :
    (updated (.object fields) data key).get "key" = key := by
  have hlabel (v : Val) : ∃ fields', assign "label" v (.object fields) = .object fields' ∧
      fields'.lookup "key" = fields.lookup "key" := by
    cases v with
    | none => exact ⟨fields, rfl, rfl⟩
    | some v => exact ⟨_, rfl, Json.lookup_set_of_ne fields v (by decide)⟩
  rw [updated, get_assign_of_ne _ _ (by decide)]
  obtain ⟨fields', heq, hlookup⟩ := hlabel _
  rw [heq]
  exact get_assign_self fun hkey => hlookup.trans (h hkey)

/-- An item is replaced by one that stands nowhere else. -/
theorem nodup_set {α : Type} {xs : List α} {i : ℕ} {x : α} (h : xs.Nodup)
    (hx : ∀ j, xs[j]? = some x → j = i) : (xs.set i x).Nodup := by
  by_cases hmem : x ∈ xs
  · obtain ⟨j, hj, heq⟩ := List.getElem_of_mem hmem
    have hji : j = i := hx j (by rw [List.getElem?_eq_getElem hj, heq])
    subst hji
    rw [← heq, List.set_getElem_self]
    exact h
  · exact List.Nodup.set h hmem

theorem nodup_append_one {α : Type} {xs : List α} {x : α} (h : xs.Nodup) (hx : ∀ y ∈ xs, y ≠ x) :
    (xs ++ [x]).Nodup := by
  rw [← List.concat_eq_append]
  exact List.Nodup.concat (fun hmem => hx x hmem rfl) h

theorem Distinct.change {fs : FileSystem} {request : Request} {s : Store} {next : Fields}
    (h : Distinct (entriesOf s.config)) (hfresh : Fresh (fs, request) s)
    (hchange : Change s.config request next) : Distinct (entriesOf next) := by
  cases hchange with
  | create hid hkey =>
    rw [entriesOf_withAuth]
    constructor
    · rw [List.map_append, List.map_singleton, hid]
      exact nodup_append_one h.ids (List.forall_mem_map.2 hfresh)
    · rw [List.map_append, List.map_singleton]
      exact nodup_append_one h.keys (List.forall_mem_map.2 hkey)
  | enforce b _ =>
    rw [entriesOf_withEnforce]
    exact h
  | @patch id body idx fields data key _ _ hcurrent hkey =>
    have hnone : key = none → fields.lookup "key" = none := by
      intro hnone
      obtain hkey | ⟨candidate, hkey, -⟩ := hkey
      · rw [← hkey, hnone]
      · rw [hkey] at hnone
        cases hnone
    have hlt : idx < (entriesOf s.config).length := (List.getElem?_eq_some_iff.1 hcurrent).1
    -- another entry with the value that the entry has already
    have hsame {k : String} (hnodup : ((entriesOf s.config).map (·.get k)).Nodup) {j : ℕ}
        (hj : ((entriesOf s.config).map (·.get k))[j]? = some (fields.lookup k)) : j = idx := by
      have hidx : ((entriesOf s.config).map (·.get k))[idx]? = some (fields.lookup k) := by
        rw [List.getElem?_map, hcurrent]
        rfl
      exact ((List.getElem?_inj (by simpa using hlt) hnodup).1 (hidx.trans hj.symm)).symm
    rw [entriesOf_withAuth]
    constructor
    · rw [List.map_set, get_updated_id]
      exact nodup_set h.ids fun j hj => hsame h.ids hj
    · rw [List.map_set, get_updated_key data hnone]
      refine nodup_set h.keys fun j hj => ?_
      obtain hkey | ⟨candidate, -, hother⟩ := hkey
      · exact hsame h.keys (hkey ▸ hj)
      · by_contra hne
        rw [List.getElem?_map] at hj
        obtain ⟨e, he, hkey⟩ := Option.map_eq_some_iff.1 hj
        exact hother j e hne he hkey
  | delete id =>
    rw [entriesOf_withAuth]
    have hsublist := List.filter_sublist (p := fun entry => !hasId id entry) (l := entriesOf s.config)
    exact ⟨h.ids.sublist (hsublist.map _), h.keys.sublist (hsublist.map _)⟩

/-- A request keeps the registry. -/
theorem handle_registry {fs : FileSystem} {request : Request} {s : Store} (h : Registry s)
    (hfresh : Fresh (fs, request) s) : Registry (handle fs request s).1 := by
  obtain ⟨answer, heq⟩ | ⟨next, answer, hchange, -, heq⟩ := handle_writes fs request s
  · rw [heq]
    exact h
  · rw [heq, write]
    cases hwrite : writeConfig fs next with
    | none => exact h
    | some s' =>
      obtain ⟨hvalidate, hcontent⟩ := writeConfig_spec hwrite
      have hdistinct := (h.config.change hfresh hchange).validate hvalidate
      refine ⟨hdistinct, fun fields hfields => ?_⟩
      obtain rfl := Json.object.inj (Content.json.inj (hcontent.symm.trans hfields))
      exact hdistinct

/-- After every sequence of requests the entries are distinct, and a request that is answered with
an error changes nothing. -/
theorem registry_of_run {ls : List (FileSystem × Request)} {s s' : Store} (h : Registry s)
    (hfresh : Meets step Fresh ls s) (hexec : exec step ls s = some s') :
    Registry s' ∧ ∀ fs request, (handle fs request s').2.isError = true →
      (handle fs request s').1 = s' := by
  refine ⟨exec_invariant (fun l s s' hs hl hstep => ?_) hfresh h hexec, fun _ _ => handle_error⟩
  obtain rfl := Option.some.inj hstep
  exact handle_registry hs hl

def anyFile : FileSystem := ⟨true, true, true, true⟩

def entryOf (id label key : String) : Json :=
  .object [("id", .string id), ("label", .string label), ("key", .string key),
    ("enabled", .bool true), ("created_at", .string "2026-01-01T00:00:00.000Z")]

/-- A configuration with one key. -/
def oneKey : Fields :=
  [("auth", .object [("apiKeyEntries", .array [entryOf "a" "Laptop" "laptop-key"])])]

/-- A key is created, and then given the key of the other entry. -/
def createThenTake : List (FileSystem × Request) :=
  [(anyFile, .create (.object [("label", .string "Desk"), ("key", .string " desk-key-1 ")])
      ⟨"b", "unused-key", "2026-01-02T00:00:00.000Z"⟩),
    (anyFile, .patch "b" (.object [("key", .string "laptop-key")]))]

theorem registry_of_run_create :
    ∃ s, exec step createThenTake ⟨.json (.object oneKey), oneKey⟩ = some s ∧ Registry s ∧
      (entriesOf s.config).length = 2 := by
  have hone : Distinct (entriesOf oneKey) := ⟨List.nodup_singleton _, List.nodup_singleton _⟩
  have hstart : Registry ⟨.json (.object oneKey), oneKey⟩ :=
    ⟨hone, fun fields h => Json.object.inj (Content.json.inj h) ▸ hone⟩
  have hfresh : Meets step Fresh createThenTake ⟨.json (.object oneKey), oneKey⟩ := by
    refine ⟨fun entry hentry => ?_, fun _ _ => ⟨trivial, fun _ _ => trivial⟩⟩
    obtain rfl := List.mem_singleton.1 hentry
    simp [entryOf, Json.get]
  exact ⟨_, rfl, (registry_of_run hstart hfresh rfl).1, rfl⟩

end Maximal.Config
