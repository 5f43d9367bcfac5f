import Maximal.Lib.Js.Text
import Maximal.Lib.Js.Value

/-!
# The API key gate

`createAuthMiddleware` decides for each request whether it passes, and as whose it counts. The keys
it takes are those of `getConfiguredApiKeys`: the legacy keys and the keys of the enabled entries,
without the white space around them.

## Main definitions

- `getConfiguredApiKeys`, `apiKeyAllowed`, `findApiKeyEntry`
- `extractRequestApiKey` — the key of a request, by its headers
- `createAuthMiddleware`
- `DecidesExactly` — what the gate is for, the wildcard included

## Main results

- `mem_getConfiguredApiKeys`, `extractRequestApiKey_eq_some_iff`
- `decidesExactly_iff`
-/

namespace Maximal.Auth

open Js

/-! ## Configuration -/

structure ApiKeyEntry where
  id : String
  label : String
  key : String
  enabled : Bool
  deriving DecidableEq

/-- The legacy list is of any type. -/
structure AuthConfig where
  apiKeys : Val := none
  apiKeyEntries : Option (List ApiKeyEntry) := none
  enforce : Option Bool := none

structure AppConfig where
  auth : Option AuthConfig

namespace AppConfig

variable (config : AppConfig)

/-- `config.auth?.apiKeys` -/
def apiKeys : Val := config.auth.bind (·.apiKeys)

/-- `config.auth?.apiKeyEntries ?? []` -/
def entries : List ApiKeyEntry := (config.auth.bind (·.apiKeyEntries)).getD []

/-- `config.auth?.enforce === true` -/
def isEnforcing : Bool := config.auth.bind (·.enforce) = some true

end AppConfig

/-! ## Allow list -/

/-- What is no text, or blank, is left out. -/
def normalizeApiKeys (apiKeys : Val) : List String :=
  match apiKeys.asArray with
  | none => []
  | some keys =>
    (((keys.filterMap fun key => Val.asString (some key)).map trim).filter (· ≠ "")).eraseDups

def getConfiguredApiKeys (config : AppConfig) : List String :=
  let legacy := normalizeApiKeys config.apiKeys
  let fromEntries :=
    ((config.entries.filter (·.enabled)).map fun e => trim e.key).filter (· ≠ "")
  (legacy ++ fromEntries).eraseDups

def apiKeyAllowed (allowList : List String) (requestKey : String) : Bool :=
  requestKey ≠ "" && allowList.contains requestKey

/-- The entry that a request counts for. -/
structure Attribution where
  id : String
  label : String
  deriving DecidableEq

def findApiKeyEntry (config : AppConfig) (requestKey : String) : Option Attribution :=
  if requestKey = "" then none
  else
    (config.entries.find? fun e => e.enabled && e.key = requestKey).map fun e => ⟨e.id, e.label⟩

/-! ## Requests -/

/-- `cs.split(/\s+/)` -/
def splitWhite : List Char → List (List Char)
  | [] => [[]]
  | c :: cs =>
    if isWhite c then
      -- a run of white space separates once, at its last character
      if (cs.head?.map isWhite).getD false then splitWhite cs else [] :: splitWhite cs
    else
      match splitWhite cs with
      | [] => [[c]]
      | piece :: pieces => (c :: piece) :: pieces

structure HttpRequest where
  method : String
  path : String
  header : String → Option String
  ip : Option String

def bearerToken (authorization : String) : Option String :=
  match splitWhite (trimChars authorization.toList) with
  -- a split leaves one piece at least
  | [] => none
  | scheme :: rest =>
    if toLowerCase (String.ofList scheme) = "bearer" then
      let bearerToken := String.ofList (trimChars ([' '].intercalate rest))
      if bearerToken = "" then none else some bearerToken
    else none

def extractRequestApiKey (header : String → Option String) : Option String :=
  let xApiKey := ((header "x-api-key").map trim).getD ""
  if xApiKey ≠ "" then some xApiKey else (header "authorization").bind bearerToken

def isShellKey (shellApiKey requestApiKey : Option String) : Bool :=
  requestApiKey.isSome && requestApiKey = shellApiKey

/-! ## The middleware -/

def LOOPBACK_IPS : List String := ["127.0.0.1", "::1", "::ffff:127.0.0.1"]

def pathMatchesPrefix (path pathPrefix : String) : Bool :=
  path = pathPrefix || startsWith path (pathPrefix ++ "/")

def isLoopbackAddress (address : Option String) : Bool := address.any LOOPBACK_IPS.contains

/-- The resolvers of keys, enforcement and address are the default ones. -/
structure AuthMiddlewareOptions where
  allowUnauthenticatedPaths : List String := ["/"]
  allowUnauthenticatedPrefixes : List String := []
  allowOptionsBypass : Bool := true
  loopbackOnlyPaths : List String := []

def shouldBypass (options : AuthMiddlewareOptions) (c : HttpRequest) : Bool :=
  options.allowOptionsBypass && c.method = "OPTIONS" ||
    options.allowUnauthenticatedPaths.contains c.path ||
    options.allowUnauthenticatedPrefixes.any (pathMatchesPrefix c.path) ||
    options.loopbackOnlyPaths.contains c.path && isLoopbackAddress c.ip

inductive AuthDecision where
  | allow (id label : Option String)
  | deny
  deriving DecidableEq

def AuthDecision.of (entry : Option Attribution) : AuthDecision :=
  .allow (entry.map (·.id)) (entry.map (·.label))

def decideAuth (config : AppConfig) (shellApiKey requestApiKey : Option String) : AuthDecision :=
  if isShellKey shellApiKey requestApiKey then .allow none (some "Maximal Settings")
  else if !config.isEnforcing then .of (requestApiKey.bind (findApiKeyEntry config))
  else
    match requestApiKey with
    | none => .deny
    | some key =>
      if apiKeyAllowed (getConfiguredApiKeys config) key then .of (findApiKeyEntry config key)
      else .deny

/-- What is recorded of a client. -/
structure RecordedClient where
  apiKeyId : Option String
  apiKeyLabel : Option String
  userAgent : String
  deriving DecidableEq

inductive Gate where
  /-- The next handler runs; of a request that is bypassed no client is recorded. -/
  | next (client : Option RecordedClient)
  | unauthorized (status : ℕ) (wwwAuthenticate : String) (body : Json)

def Gate.admits : Gate → Bool
  | .next _ => true
  | .unauthorized _ _ _ => false

def unauthorizedResponse : Gate :=
  .unauthorized 401 "Bearer realm=\"copilot-api\"" (.object
    [("error", .object
      [("message", .string "Unauthorized"), ("type", .string "authentication_error")])])

def createAuthMiddleware (options : AuthMiddlewareOptions) (config : AppConfig)
    (shellApiKey : Option String) (c : HttpRequest) : Gate :=
  -- before any key is looked at
  if shouldBypass options c then .next none
  else
    match decideAuth config shellApiKey (extractRequestApiKey c.header) with
    | .deny => unauthorizedResponse
    | .allow id label => .next (some ⟨id, label, (c.header "user-agent").getD ""⟩)

/-! ## Keys of a configuration -/

/-- The key is a legacy key without the white space around it. -/
def IsLegacyKey (config : AppConfig) (key : String) : Prop :=
  ∃ keys s, config.apiKeys.asArray = some keys ∧ Json.string s ∈ keys ∧ trim s = key

/-- The key is that of an enabled entry without the white space around it. -/
def IsEntryKey (config : AppConfig) (key : String) : Prop :=
  ∃ e ∈ config.entries, e.enabled = true ∧ trim e.key = key

theorem mem_normalizeApiKeys (config : AppConfig) (key : String) :
    key ∈ normalizeApiKeys config.apiKeys ↔ key ≠ "" ∧ IsLegacyKey config key := by
  rw [normalizeApiKeys, IsLegacyKey]
  cases config.apiKeys.asArray with
  | none => simp
  | some keys =>
    have hstring : ∀ (k : Json) (s : String), Val.asString (some k) = some s ↔ k = .string s := by
      intro k s
      cases k <;> simp [Val.asString]
    simp only [List.mem_eraseDups, List.mem_filter, List.mem_map, List.mem_filterMap, hstring,
      decide_eq_true_iff, Option.some.injEq]
    constructor
    · rintro ⟨⟨s, ⟨k, hk, rfl⟩, rfl⟩, hne⟩
      exact ⟨hne, keys, s, rfl, hk, rfl⟩
    · rintro ⟨hne, keys', s, rfl, hs, rfl⟩
      exact ⟨⟨s, ⟨_, hs, rfl⟩, rfl⟩, hne⟩

theorem mem_getConfiguredApiKeys (config : AppConfig) (key : String) :
    key ∈ getConfiguredApiKeys config ↔
      key ≠ "" ∧ (IsLegacyKey config key ∨ IsEntryKey config key) := by
  rw [getConfiguredApiKeys, List.mem_eraseDups, List.mem_append, mem_normalizeApiKeys,
    List.mem_filter, List.mem_map, decide_eq_true_iff, IsEntryKey]
  simp only [List.mem_filter]
  constructor
  · rintro (⟨hne, hlegacy⟩ | ⟨⟨e, ⟨he, henabled⟩, rfl⟩, hne⟩)
    · exact ⟨hne, .inl hlegacy⟩
    · exact ⟨hne, .inr ⟨e, he, henabled, rfl⟩⟩
  · rintro ⟨hne, hlegacy | ⟨e, he, henabled, rfl⟩⟩
    · exact .inl ⟨hne, hlegacy⟩
    · exact .inr ⟨⟨e, ⟨he, henabled⟩, rfl⟩, hne⟩

theorem apiKeyAllowed_iff (config : AppConfig) (key : String) :
    apiKeyAllowed (getConfiguredApiKeys config) key = true ↔
      key ≠ "" ∧ (IsLegacyKey config key ∨ IsEntryKey config key) := by
  rw [apiKeyAllowed, Bool.and_eq_true, decide_eq_true_iff, List.contains_iff_mem,
    mem_getConfiguredApiKeys, and_self_left]

/-! ## The key of a request -/

/-- The key that the headers carry: the one of `x-api-key` unless that is blank, else the token of a
`Bearer` authorization. -/
def Carries (header : String → Option String) (key : String) : Prop :=
  key ≠ "" ∧
    ((∃ v, header "x-api-key" = some v ∧ trim v = key) ∨
      (∀ v, header "x-api-key" = some v → trim v = "") ∧
        ∃ v, header "authorization" = some v ∧ bearerToken v = some key)

theorem bearerToken_ne_empty {authorization key : String}
    (h : bearerToken authorization = some key) : key ≠ "" := by
  rw [bearerToken] at h
  split at h
  · cases h
  · split at h
    · dsimp only at h
      split at h
      · cases h
      · next hne =>
        obtain rfl := Option.some.inj h
        exact hne
    · cases h

theorem extractRequestApiKey_eq_some_iff (header : String → Option String) (key : String) :
    extractRequestApiKey header = some key ↔ Carries header key := by
  rw [extractRequestApiKey, Carries]
  cases hx : header "x-api-key" with
  | none =>
    dsimp only [Option.map_none, Option.getD_none]
    rw [if_neg (not_not.2 rfl), Option.bind_eq_some_iff]
    constructor
    · rintro ⟨v, hv, htoken⟩
      exact ⟨bearerToken_ne_empty htoken, .inr ⟨nofun, v, hv, htoken⟩⟩
    · rintro ⟨-, ⟨v, hv, -⟩ | ⟨-, v, hv, htoken⟩⟩
      · cases hv
      · exact ⟨v, hv, htoken⟩
  | some x =>
    dsimp only [Option.map_some, Option.getD_some]
    by_cases hblank : trim x = ""
    · rw [if_neg (not_not.2 hblank), Option.bind_eq_some_iff]
      constructor
      · rintro ⟨v, hv, htoken⟩
        refine ⟨bearerToken_ne_empty htoken, .inr ⟨fun v' hv' => ?_, v, hv, htoken⟩⟩
        obtain rfl := Option.some.inj hv'
        exact hblank
      · rintro ⟨hne, ⟨v, hv, htrim⟩ | ⟨-, v, hv, htoken⟩⟩
        · obtain rfl := Option.some.inj hv
          exact absurd (htrim.symm.trans hblank) hne
        · exact ⟨v, hv, htoken⟩
    · rw [if_pos hblank]
      constructor
      · rintro heq
        obtain rfl := Option.some.inj heq
        exact ⟨hblank, .inl ⟨x, rfl, rfl⟩⟩
      · rintro ⟨-, ⟨v, hv, htrim⟩ | ⟨hall, -⟩⟩
        · obtain rfl := Option.some.inj hv
          rw [htrim]
        · exact absurd (hall x rfl) hblank

/-- A request carries one key at most. -/
theorem Carries.unique {header : String → Option String} {key key' : String}
    (h : Carries header key) (h' : Carries header key') : key = key' := by
  rw [← extractRequestApiKey_eq_some_iff] at h h'
  exact Option.some.inj (h.symm.trans h')

/-! ## What the gate is for -/

/-- The key is the shell's or one of the configuration. -/
def Known (config : AppConfig) (shellApiKey : Option String) (key : String) : Prop :=
  shellApiKey = some key ∨ IsLegacyKey config key ∨ IsEntryKey config key

/-- Without enforcement every request passes; with it, those that carry a key that is known or, while
an enabled entry holds the wildcard, any key. -/
def DecidesExactly (options : AuthMiddlewareOptions) (config : AppConfig)
    (shellApiKey : Option String) (c : HttpRequest) : Prop :=
  (config.isEnforcing = false →
    (createAuthMiddleware options config shellApiKey c).admits = true) ∧
  (config.isEnforcing = true →
    ((createAuthMiddleware options config shellApiKey c).admits = true ↔
      ∃ key, Carries c.header key ∧ (Known config shellApiKey key ∨ IsEntryKey config "*")))

section

variable {options : AuthMiddlewareOptions} {config : AppConfig} {shellApiKey : Option String}
  {c : HttpRequest}

theorem admits_eq (h : shouldBypass options c = false) :
    (createAuthMiddleware options config shellApiKey c).admits =
      (decideAuth config shellApiKey (extractRequestApiKey c.header) != .deny) := by
  rw [createAuthMiddleware, h, if_neg Bool.false_ne_true]
  cases decideAuth config shellApiKey (extractRequestApiKey c.header) <;> rfl

theorem admits_of_not_enforcing (h : config.isEnforcing = false) :
    (createAuthMiddleware options config shellApiKey c).admits = true := by
  cases hbypass : shouldBypass options c with
  | true => rw [createAuthMiddleware, hbypass, if_pos rfl, Gate.admits]
  | false =>
    rw [admits_eq hbypass]
    unfold decideAuth
    split
    · rfl
    · rw [h, Bool.not_false, if_pos rfl]
      rfl

theorem isShellKey_iff {key : String} :
    isShellKey shellApiKey (some key) = true ↔ shellApiKey = some key := by
  rw [isShellKey, Option.isSome_some, Bool.true_and, decide_eq_true_iff]
  exact eq_comm

/-- With enforcement, the requests that carry a known key pass. -/
theorem admits_iff (hbypass : shouldBypass options c = false) (h : config.isEnforcing = true) :
    (createAuthMiddleware options config shellApiKey c).admits = true ↔
      ∃ key, Carries c.header key ∧ Known config shellApiKey key := by
  rw [admits_eq hbypass]
  cases hkey : extractRequestApiKey c.header with
  | none =>
    -- no key: neither the shell's nor a known one
    rw [decideAuth, h]
    refine iff_of_false (by simp [isShellKey]) ?_
    rintro ⟨key, hcarries, -⟩
    rw [← extractRequestApiKey_eq_some_iff, hkey] at hcarries
    cases hcarries
  | some key =>
    have hcarries := (extractRequestApiKey_eq_some_iff c.header key).1 hkey
    have hknown : (∃ key', Carries c.header key' ∧ Known config shellApiKey key') ↔
        Known config shellApiKey key := by
      constructor
      · rintro ⟨key', hkey', hknown⟩
        rwa [hcarries.unique hkey']
      · exact fun hknown => ⟨key, hcarries, hknown⟩
    rw [hknown, Known, ← isShellKey_iff, decideAuth, h]
    cases isShellKey shellApiKey (some key) with
    | true => exact iff_of_true rfl (.inl rfl)
    | false =>
      have hallowed := apiKeyAllowed_iff config key
      rw [and_iff_right hcarries.1] at hallowed
      simp only [Bool.false_eq_true, if_false, Bool.not_true, false_or]
      rw [← hallowed]
      cases apiKeyAllowed (getConfiguredApiKeys config) key with
      | true => exact iff_of_true rfl rfl
      | false => exact iff_of_false (by simp) Bool.false_ne_true

/-- The gate misses the wildcard: it decides exactly unless it enforces, an enabled entry holds the
wildcard, and the request carries a key that is not known. -/
theorem decidesExactly_iff (hbypass : shouldBypass options c = false) :
    DecidesExactly options config shellApiKey c ↔
      config.isEnforcing = false ∨ ¬IsEntryKey config "*" ∨
        ∀ key, Carries c.header key → Known config shellApiKey key := by
  rw [DecidesExactly, and_iff_right admits_of_not_enforcing]
  cases henforce : config.isEnforcing with
  | false => exact iff_of_true nofun (.inl rfl)
  | true =>
    rw [admits_iff hbypass henforce]
    simp only [forall_const, Bool.true_eq_false, false_or]
    constructor
    · intro hexact
      -- with the wildcard, the key that is let in has to be known, and a request has only one
      by_cases hwild : IsEntryKey config "*"
      · refine .inr fun key hcarries => ?_
        obtain ⟨key', hkey', hknown⟩ := hexact.2 ⟨key, hcarries, .inr hwild⟩
        rwa [hcarries.unique hkey']
      · exact .inl hwild
    · intro hcondition
      constructor
      · rintro ⟨key, hcarries, hknown⟩
        exact ⟨key, hcarries, .inl hknown⟩
      · rintro ⟨key, hcarries, hknown | hwild⟩
        · exact ⟨key, hcarries, hknown⟩
        · obtain hnot | hall := hcondition
          · exact absurd hwild hnot
          · exact ⟨key, hcarries, hall key hcarries⟩

end

/-- A configuration that enforces one entry. -/
def enforcing (key : String) : AppConfig where
  auth := some { apiKeyEntries := some [⟨"1", "Client", key, true⟩], enforce := some true }

/-- A request that carries a key in `x-api-key`. -/
def requestWith (key : String) : HttpRequest where
  method := "POST"
  path := "/v1/messages"
  header name := if name = "x-api-key" then some key else none
  ip := none

theorem decidesExactly_iff_client :
    DecidesExactly {} (enforcing "client-key") none (requestWith " client-key ") := by
  refine (decidesExactly_iff (by decide +kernel)).2 (.inr (.inl ?_))
  rintro ⟨e, he, -, hkey⟩
  obtain rfl : e = ⟨"1", "Client", "client-key", true⟩ := List.mem_singleton.1 he
  exact absurd hkey (by decide +kernel)

/-- The wildcard entry lets no other key in. -/
theorem wildcard_refused :
    shouldBypass {} (requestWith "any-key") = false ∧ (enforcing "*").isEnforcing = true ∧
      IsEntryKey (enforcing "*") "*" ∧ Carries (requestWith "any-key").header "any-key" ∧
      (createAuthMiddleware {} (enforcing "*") none (requestWith "any-key")).admits = false ∧
      ¬DecidesExactly {} (enforcing "*") none (requestWith "any-key") := by
  have hwild : IsEntryKey (enforcing "*") "*" :=
    ⟨_, List.mem_singleton_self _, rfl, by decide +kernel⟩
  have hcarries : Carries (requestWith "any-key").header "any-key" :=
    ⟨by decide, .inl ⟨"any-key", by decide +kernel, by decide +kernel⟩⟩
  have hrefused :
      (createAuthMiddleware {} (enforcing "*") none (requestWith "any-key")).admits = false := by
    decide +kernel
  have henforce : (enforcing "*").isEnforcing = true := by decide +kernel
  refine ⟨by decide +kernel, henforce, hwild, hcarries, hrefused, fun hexact => ?_⟩
  rw [(hexact.2 henforce).2 ⟨_, hcarries, .inr hwild⟩] at hrefused
  cases hrefused

end Maximal.Auth
