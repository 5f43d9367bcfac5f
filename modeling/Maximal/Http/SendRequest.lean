import Maximal.Lib.Js.OrderedMap
import Maximal.Lib.Js.Text
import Mathlib.Data.List.DropRight
import Mathlib.Data.List.Forall2

/-!
# The one authenticated sink

Every request with a credential goes out here, and the origin of its destination decides which
credential it carries. The addresses of the hosts come from the environment of the process and
from what the discovery of the Copilot host returned.

## Main definitions

- `getGitHubApiBaseUrl`, `copilotBaseUrl` — the hosts that credentials belong to
- `toCopilotHost`, `applyCopilotApiUrl` — what a discovered host must be
- `attachHostAuth`, `sendRequest`, `sendProviderRequest`
- `SameBut`, `AgreeBut` — events and states that differ in one credential
- `GoesHome` — a request to the host of a credential, over `https`

## Main results

- `baseUrl_origin` — the hosts of the credentials, whatever was discovered
- `sendRequest_sameBut` — one request
- `credentials_confined` — what leaves the process under two values of a credential
-/

namespace Maximal.Http

open Js

/-! ## Addresses -/

/-- What `new URL` makes of a text. -/
structure ParsedUrl where
  protocol : String
  hostname : String
  username : String
  password : String
  pathname : String
  search : String
  hash : String
  origin : String
  deriving DecidableEq

/-- `new URL`; `none` when it throws. -/
abbrev UrlReader := String → Option ParsedUrl

/-- A text that names `https` is read so, an `https` address has an `https` origin, and an origin is
its own origin. -/
structure UrlReader.Lawful (read : UrlReader) : Prop where
  https : ∀ s u, read s = some u → startsWith s "https://" = true → u.protocol = "https:"
  origin : ∀ s u, read s = some u → u.protocol = "https:" → startsWith u.origin "https://" = true
  reread : ∀ s u v, read s = some u → read u.origin = some v → v.origin = u.origin

structure ApiEnv where
  nodeEnv : Option String
  githubApiBase : Option String
  enterpriseUrl : Option String
  oauthApp : Option String

def isOpencodeOauthApp (env : ApiEnv) : Bool := env.oauthApp.map trim = some "opencode"

/-- `.replace(/^https?:\/\//u, "")`. -/
def stripScheme (cs : List Char) : List Char :=
  if "https://".toList.isPrefixOf cs then cs.drop 8
  else if "http://".toList.isPrefixOf cs then cs.drop 7
  else cs

def normalizeDomain (input : String) : String :=
  String.ofList ((stripScheme (trim input).toList).rdropWhile (· = '/'))

def getEnterpriseDomain (env : ApiEnv) : Option String :=
  let raw := trim (env.enterpriseUrl.getD "")
  if raw = "" then none
  else if normalizeDomain raw = "" then none
  else some (normalizeDomain raw)

def LOOPBACK_OVERRIDE_HOSTNAMES : List String := ["127.0.0.1", "[::1]"]

def GITHUB_API_BASE_URL : String := "https://api.github.com"

def ANTHROPIC_API_BASE_URL : String := "https://api.anthropic.com"

section

variable (read : UrlReader) (env : ApiEnv)

def getGitHubApiBaseOverride : Option String :=
  if env.nodeEnv ≠ some "test" then none
  else
    let raw := trim (env.githubApiBase.getD "")
    if raw = "" then none
    else
      match read raw with
      | none => none
      | some parsed =>
        if parsed.protocol ≠ "http:" then none
        else if parsed.hostname ∉ LOOPBACK_OVERRIDE_HOSTNAMES then none
        else if parsed.username ≠ "" ∨ parsed.password ≠ "" then none
        else if parsed.pathname ≠ "/" then none
        else if parsed.search ≠ "" ∨ parsed.hash ≠ "" then none
        else some parsed.origin

def getGitHubApiBaseUrl : String :=
  match (getGitHubApiBaseOverride read env).filter (· ≠ "") with
  | some override => override
  | none =>
    match getEnterpriseDomain env with
    | some resolvedDomain => "https://api." ++ resolvedDomain
    | none => GITHUB_API_BASE_URL

end

/-! ## The state -/

inductive AccountType where
  | individual | business | enterprise
  deriving DecidableEq

def AccountType.text : AccountType → String
  | .individual => "individual"
  | .business => "business"
  | .enterprise => "enterprise"

def hostForAccountType : AccountType → String
  | .individual => "https://api.githubcopilot.com"
  | accountType => "https://api." ++ accountType.text ++ ".githubcopilot.com"

/-- The fields of `state` that a request reads, and what `getAnthropicApiKey` returns. -/
structure OutboundState where
  githubToken : Option String
  copilotToken : Option String
  anthropicApiKey : Option String
  copilotApiUrl : Option String
  accountType : AccountType
  deriving DecidableEq

def OutboundState.start (accountType : AccountType) : OutboundState :=
  ⟨none, none, none, none, accountType⟩

def toCopilotHost (read : UrlReader) (url : String) : Option String :=
  match read url with
  | none => none
  | some parsed => if parsed.protocol ≠ "https:" then none else some parsed.origin

/-- `api` is the host in an answer to the exchange of the token. -/
def applyCopilotApiUrl (read : UrlReader) (state : OutboundState) (api : Option String) :
    OutboundState :=
  match api.filter (· ≠ "") with
  | none => state
  | some api =>
    match toCopilotHost read api with
    | none => state
    | some host => { state with copilotApiUrl := some host }

def copilotBaseUrl (env : ApiEnv) (state : OutboundState) : String :=
  match getEnterpriseDomain env with
  | some domain => "https://copilot-api." ++ domain
  | none =>
    if isOpencodeOauthApp env then "https://api.githubcopilot.com"
    else (state.copilotApiUrl.filter (· ≠ "")).getD (hostForAccountType state.accountType)

/-! ## Requests -/

/-- Names in lower case. -/
abbrev Headers := OrderedMap String String

/-- `new Headers(record)`: two spellings of one name share an entry. -/
def newHeaders (record : List (String × String)) : Headers :=
  record.foldl (fun headers field =>
    let name := toLowerCase field.1
    headers.set name (((headers.get name).map (· ++ ", " ++ field.2)).getD field.2)) .empty

structure SendRequestInit where
  method : String
  headers : List (String × String)
  body : Option String
  githubToken : Option String
  deriving DecidableEq

structure OutboundRequest where
  url : String
  method : String
  headers : Headers
  body : Option String

def dispatch (url : String) (authorized : Headers) (init : SendRequestInit) : OutboundRequest :=
  ⟨url, init.method, authorized, init.body⟩

/-- A value in a template. -/
def interpolated (value : Option String) : String := value.getD "undefined"

section

variable (read : UrlReader) (env : ApiEnv)

def isSameOrigin (url baseUrl : String) : Bool :=
  match read url, read baseUrl with
  | some url, some base => url.origin = base.origin
  | _, _ => false

def attachHostAuth (state : OutboundState) (url : String) (headers : Headers)
    (githubTokenOverride : Option String) : Headers :=
  if isSameOrigin read url (copilotBaseUrl env state) then
    headers.set "authorization" ("Bearer " ++ interpolated state.copilotToken)
  else if isSameOrigin read url (getGitHubApiBaseUrl read env) then
    let token := githubTokenOverride.or state.githubToken
    headers.set "authorization"
      (if isOpencodeOauthApp env then "Bearer " ++ interpolated token
      else "token " ++ interpolated token)
  else if isSameOrigin read url ANTHROPIC_API_BASE_URL then
    match state.anthropicApiKey.filter (· ≠ "") with
    | some key => headers.set "x-api-key" key
    | none => headers
  else headers

def sendRequest (state : OutboundState) (url : String) (init : SendRequestInit) :
    OutboundRequest :=
  dispatch url (attachHostAuth read env state url (newHeaders init.headers) init.githubToken) init

end

inductive ProviderAuthType where
  | authorization | xApiKey
  deriving DecidableEq

structure ResolvedProviderConfig where
  baseUrl : String
  apiKey : String
  authType : ProviderAuthType
  deriving DecidableEq

def attachProviderAuth (config : ResolvedProviderConfig) (headers : Headers) : Headers :=
  match config.authType with
  | .authorization => headers.set "authorization" ("Bearer " ++ config.apiKey)
  | .xApiKey => headers.set "x-api-key" config.apiKey

def sendProviderRequest (config : ResolvedProviderConfig) (url : String) (init : SendRequestInit) :
    OutboundRequest :=
  dispatch url (attachProviderAuth config (newHeaders init.headers)) init

/-! ## Runs -/

inductive OutboundEvent where
  | discovered (api : Option String)
  | copilotToken (token : Option String)
  | githubToken (token : Option String)
  | anthropicApiKey (key : Option String)
  | accountType (accountType : AccountType)
  | send (url : String) (init : SendRequestInit)
  | sendProvider (config : ResolvedProviderConfig) (url : String) (init : SendRequestInit)
  deriving DecidableEq

section

variable (read : UrlReader) (env : ApiEnv)

def OutboundState.next (state : OutboundState) : OutboundEvent → OutboundState
  | .discovered api => applyCopilotApiUrl read state api
  | .copilotToken token => { state with copilotToken := token }
  | .githubToken token => { state with githubToken := token }
  | .anthropicApiKey key => { state with anthropicApiKey := key }
  | .accountType accountType => { state with accountType }
  | .send _ _ => state
  | .sendProvider _ _ _ => state

def OutboundState.request (state : OutboundState) : OutboundEvent → Option OutboundRequest
  | .send url init => some (sendRequest read env state url init)
  | .sendProvider config url init => some (sendProviderRequest config url init)
  | _ => none

/-- What is sent, each request with the state it was sent in. -/
def OutboundState.run (state : OutboundState) :
    List OutboundEvent → List (OutboundState × OutboundRequest)
  | [] => []
  | event :: events =>
    ((state.request read env event).map (state, ·)).toList ++ (state.next read event).run events

end

/-! ## Credentials -/

inductive Credential where
  | copilot | github | anthropic
  deriving DecidableEq

/-- Two events that differ at most in the value of a credential. -/
inductive SameBut : Credential → OutboundEvent → OutboundEvent → Prop where
  | refl (k : Credential) (event : OutboundEvent) : SameBut k event event
  | copilotToken (t t' : Option String) : SameBut .copilot (.copilotToken t) (.copilotToken t')
  | githubToken (t t' : Option String) : SameBut .github (.githubToken t) (.githubToken t')
  /-- A token to be tried comes with the request. -/
  | candidate (url : String) (init : SendRequestInit) (t' : Option String) :
      SameBut .github (.send url init) (.send url { init with githubToken := t' })
  | anthropicApiKey (t t' : Option String) :
      SameBut .anthropic (.anthropicApiKey t) (.anthropicApiKey t')

/-- Two states that differ at most in the value of a credential. -/
structure AgreeBut (k : Credential) (s s' : OutboundState) : Prop where
  copilotApiUrl : s'.copilotApiUrl = s.copilotApiUrl
  accountType : s'.accountType = s.accountType
  copilotToken : k ≠ .copilot → s'.copilotToken = s.copilotToken
  githubToken : k ≠ .github → s'.githubToken = s.githubToken
  anthropicApiKey : k ≠ .anthropic → s'.anthropicApiKey = s.anthropicApiKey

theorem AgreeBut.refl (k : Credential) (s : OutboundState) : AgreeBut k s s where
  copilotApiUrl := rfl
  accountType := rfl
  copilotToken _ := rfl
  githubToken _ := rfl
  anthropicApiKey _ := rfl

section

variable (read : UrlReader) (env : ApiEnv)

/-- The address of the host that a credential belongs to. -/
def Credential.baseUrl (state : OutboundState) : Credential → String
  | .copilot => copilotBaseUrl env state
  | .github => getGitHubApiBaseUrl read env
  | .anthropic => ANTHROPIC_API_BASE_URL

/-- A local server stands in for the GitHub host, and the process is a test. -/
def IsTestServer (origin : String) : Prop :=
  env.nodeEnv = some "test" ∧ ∃ base u, env.githubApiBase = some base ∧ read (trim base) = some u ∧
    u.protocol = "http:" ∧ u.hostname ∈ LOOPBACK_OVERRIDE_HOSTNAMES ∧ origin = u.origin

/-- A request goes to the host of a credential, and it goes there encrypted. -/
def GoesHome (k : Credential) (state : OutboundState) (url : String) : Prop :=
  ∃ u, read url = some u ∧
    (∃ base, read (k.baseUrl read env state) = some base ∧ u.origin = base.origin) ∧
    (startsWith u.origin "https://" = true ∨ k = .github ∧ IsTestServer read env u.origin)

end

variable {read : UrlReader} {env : ApiEnv} {k : Credential} {s s' : OutboundState}

/-! ### The hosts -/

theorem isSameOrigin_iff (url baseUrl : String) :
    isSameOrigin read url baseUrl = true ↔
      ∃ u, read url = some u ∧ ∃ base, read baseUrl = some base ∧ u.origin = base.origin := by
  rw [isSameOrigin]
  cases read url with
  | none => simp
  | some u =>
    cases read baseUrl with
    | none => simp
    | some base => simp

/-- A discovered host is an `https` origin. -/
def OutboundState.Discovered (s : OutboundState) : Prop :=
  ∀ host, s.copilotApiUrl = some host → startsWith host "https://" = true

theorem toCopilotHost_https (hread : read.Lawful) {url host : String}
    (h : toCopilotHost read url = some host) : startsWith host "https://" = true := by
  rw [toCopilotHost] at h
  cases hurl : read url with
  | none =>
    rw [hurl] at h
    cases h
  | some parsed =>
    rw [hurl] at h
    obtain ⟨hprotocol, horigin⟩ := Option.ite_none_left_eq_some.1 h
    obtain rfl := Option.some.inj horigin
    exact hread.origin url parsed hurl (not_not.1 hprotocol)

theorem OutboundState.Discovered.apply (hread : read.Lawful) (h : s.Discovered)
    (api : Option String) : (applyCopilotApiUrl read s api).Discovered := by
  rw [applyCopilotApiUrl]
  split
  · exact h
  · next api _ =>
    cases hhost : toCopilotHost read api with
    | none => exact h
    | some host =>
      intro host' heq
      obtain rfl : host = host' := Option.some.inj heq
      exact toCopilotHost_https hread hhost

theorem OutboundState.Discovered.next (hread : read.Lawful) (h : s.Discovered)
    (event : OutboundEvent) : (s.next read event).Discovered := by
  cases event with
  | discovered api => exact h.apply hread api
  | _ => exact h

theorem startsWith_https (rest : String) : startsWith ("https://" ++ rest) "https://" = true :=
  startsWith_append _ _

theorem copilotBaseUrl_https (h : s.Discovered) :
    startsWith (copilotBaseUrl env s) "https://" = true := by
  rw [copilotBaseUrl]
  split
  · next domain _ => exact startsWith_https ("copilot-api." ++ domain)
  · split
    · decide +kernel
    · cases hhost : s.copilotApiUrl.filter (· ≠ "") with
      | none => cases s.accountType <;> decide +kernel
      | some host => exact h host (Option.filter_eq_some_iff.1 hhost).1

theorem override_isTestServer (hread : read.Lawful) {origin : String} {base : ParsedUrl}
    (h : getGitHubApiBaseOverride read env = some origin) (hbase : read origin = some base) :
    IsTestServer read env base.origin := by
  rw [getGitHubApiBaseOverride] at h
  obtain ⟨henv, h⟩ := Option.ite_none_left_eq_some.1 h
  obtain ⟨hraw, h⟩ := Option.ite_none_left_eq_some.1 h
  cases hparsed : read (trim (env.githubApiBase.getD "")) with
  | none =>
    rw [hparsed] at h
    cases h
  | some parsed =>
    rw [hparsed] at h
    obtain ⟨hprotocol, h⟩ := Option.ite_none_left_eq_some.1 h
    obtain ⟨hhostname, h⟩ := Option.ite_none_left_eq_some.1 h
    obtain ⟨-, h⟩ := Option.ite_none_left_eq_some.1 h
    obtain ⟨-, h⟩ := Option.ite_none_left_eq_some.1 h
    obtain ⟨-, h⟩ := Option.ite_none_left_eq_some.1 h
    obtain rfl := Option.some.inj h
    cases hgithub : env.githubApiBase with
    | none =>
      rw [hgithub] at hraw
      exact absurd (by decide +kernel) hraw
    | some text =>
      rw [hgithub] at hparsed
      exact ⟨not_not.1 henv, text, parsed, hgithub, hparsed, not_not.1 hprotocol,
        not_not.1 hhostname, hread.reread _ parsed base hparsed hbase⟩

/-- The host of a credential is reached over `https`, or is the server of a test. -/
theorem baseUrl_origin (hread : read.Lawful) (h : s.Discovered) {base : ParsedUrl}
    (hbase : read (k.baseUrl read env s) = some base) :
    startsWith base.origin "https://" = true ∨ k = .github ∧ IsTestServer read env base.origin := by
  have hhttps : ∀ text, startsWith text "https://" = true → read text = some base →
      startsWith base.origin "https://" = true := fun text htext htextBase =>
    hread.origin text base htextBase (hread.https text base htextBase htext)
  cases k with
  | copilot => exact .inl (hhttps _ (copilotBaseUrl_https h) hbase)
  | anthropic => exact .inl (hhttps _ (startsWith_https "api.anthropic.com") hbase)
  | github =>
    rw [Credential.baseUrl, getGitHubApiBaseUrl] at hbase
    cases hoverride : (getGitHubApiBaseOverride read env).filter (· ≠ "") with
    | some override =>
      rw [hoverride] at hbase
      exact .inr ⟨rfl, override_isTestServer hread (Option.filter_eq_some_iff.1 hoverride).1 hbase⟩
    | none =>
      rw [hoverride] at hbase
      refine .inl (hhttps _ ?_ hbase)
      cases getEnterpriseDomain env with
      | none => exact startsWith_https "api.github.com"
      | some domain => exact startsWith_https ("api." ++ domain)

theorem goesHome_of_isSameOrigin (hread : read.Lawful) (h : s.Discovered) {url : String}
    (hsame : isSameOrigin read url (k.baseUrl read env s) = true) : GoesHome read env k s url := by
  obtain ⟨u, hu, base, hbase, horigin⟩ := (isSameOrigin_iff _ _).1 hsame
  exact ⟨u, hu, ⟨base, hbase, horigin⟩, horigin ▸ baseUrl_origin hread h hbase⟩

/-! ### Two runs -/

theorem AgreeBut.copilotBaseUrl_eq (h : AgreeBut k s s') :
    copilotBaseUrl env s' = copilotBaseUrl env s := by
  rw [copilotBaseUrl, copilotBaseUrl, h.copilotApiUrl, h.accountType]

/-- The header that the mechanism attaches is the same, unless the request goes to the host of the
credential in which the two states differ. -/
theorem attachHostAuth_agreeBut (h : AgreeBut k s s') (url : String) (headers : Headers)
    {t t' : Option String} (ht : k ≠ .github → t' = t) :
    attachHostAuth read env s' url headers t' = attachHostAuth read env s url headers t ∨
      isSameOrigin read url (k.baseUrl read env s) = true := by
  rw [attachHostAuth, attachHostAuth, h.copilotBaseUrl_eq]
  by_cases hcopilot : isSameOrigin read url (copilotBaseUrl env s) = true
  · rw [if_pos hcopilot, if_pos hcopilot]
    by_cases hk : k = .copilot
    · exact .inr (hk ▸ hcopilot)
    · exact .inl (by rw [h.copilotToken hk])
  · rw [if_neg hcopilot, if_neg hcopilot]
    by_cases hgithub : isSameOrigin read url (getGitHubApiBaseUrl read env) = true
    · rw [if_pos hgithub, if_pos hgithub]
      by_cases hk : k = .github
      · exact .inr (hk ▸ hgithub)
      · exact .inl (by rw [h.githubToken hk, ht hk])
    · rw [if_neg hgithub, if_neg hgithub]
      by_cases hanthropic : isSameOrigin read url ANTHROPIC_API_BASE_URL = true
      · rw [if_pos hanthropic, if_pos hanthropic]
        by_cases hk : k = .anthropic
        · exact .inr (hk ▸ hanthropic)
        · exact .inl (by rw [h.anthropicApiKey hk])
      · exact .inl (by rw [if_neg hanthropic, if_neg hanthropic])

/-- Two requests are the same, or they go to one address, which is at home for the credential. -/
def SameOrHome (read : UrlReader) (env : ApiEnv) (k : Credential)
    (x x' : OutboundState × OutboundRequest) : Prop :=
  x'.2 = x.2 ∨ x'.2.url = x.2.url ∧ GoesHome read env k x.1 x.2.url

theorem sendRequest_sameBut (hread : read.Lawful) (h : AgreeBut k s s') (hs : s.Discovered)
    (url : String) (init : SendRequestInit) {t : Option String}
    (ht : k ≠ .github → t = init.githubToken) :
    SameOrHome read env k (s, sendRequest read env s url init)
      (s', sendRequest read env s' url { init with githubToken := t }) := by
  obtain heq | hsame :=
    @attachHostAuth_agreeBut read env k s s' h url (newHeaders init.headers) _ _ ht
  · refine .inl ?_
    rw [sendRequest, sendRequest, heq]
    rfl
  · exact .inr ⟨rfl, goesHome_of_isSameOrigin hread hs hsame⟩

theorem AgreeBut.next (h : AgreeBut k s s') {e e' : OutboundEvent} (he : SameBut k e e') :
    AgreeBut k (s.next read e) (s'.next read e') := by
  cases he with
  | copilotToken t t' => exact ⟨h.1, h.2, fun hk => absurd rfl hk, h.4, h.5⟩
  | githubToken t t' => exact ⟨h.1, h.2, h.3, fun hk => absurd rfl hk, h.5⟩
  | anthropicApiKey t t' => exact ⟨h.1, h.2, h.3, h.4, fun hk => absurd rfl hk⟩
  | candidate url init t' => exact h
  | refl =>
    cases e with
    | discovered api =>
      rw [OutboundState.next, OutboundState.next, applyCopilotApiUrl, applyCopilotApiUrl]
      split
      · exact h
      · next api _ =>
        cases toCopilotHost read api with
        | none => exact h
        | some host => exact ⟨rfl, h.2, h.3, h.4, h.5⟩
    | copilotToken t => exact ⟨h.1, h.2, fun _ => rfl, h.4, h.5⟩
    | githubToken t => exact ⟨h.1, h.2, h.3, fun _ => rfl, h.5⟩
    | anthropicApiKey t => exact ⟨h.1, h.2, h.3, h.4, fun _ => rfl⟩
    | accountType t => exact ⟨h.1, rfl, h.3, h.4, h.5⟩
    | send url init => exact h
    | sendProvider config url init => exact h

theorem request_sameBut (hread : read.Lawful) (h : AgreeBut k s s') (hs : s.Discovered)
    {e e' : OutboundEvent} (he : SameBut k e e') :
    List.Forall₂ (SameOrHome read env k) ((s.request read env e).map (s, ·)).toList
      ((s'.request read env e').map (s', ·)).toList := by
  cases he with
  | copilotToken t t' => exact .nil
  | githubToken t t' => exact .nil
  | anthropicApiKey t t' => exact .nil
  | candidate url init t' =>
    exact .cons (sendRequest_sameBut hread h hs url init fun hk => absurd rfl hk) .nil
  | refl =>
    cases e with
    | send url init => exact .cons (sendRequest_sameBut hread h hs url init fun _ => rfl) .nil
    | sendProvider config url init => exact .cons (.inl rfl) .nil
    | _ => exact .nil

theorem run_sameBut (hread : read.Lawful) (h : AgreeBut k s s') (hs : s.Discovered)
    {events events' : List OutboundEvent} (hevents : List.Forall₂ (SameBut k) events events') :
    List.Forall₂ (SameOrHome read env k) (s.run read env events) (s'.run read env events') := by
  induction hevents generalizing s s' with
  | nil => exact .nil
  | @cons e e' _ _ he _ ih =>
    exact List.rel_append (request_sameBut hread h hs he) (ih (h.next he) (hs.next hread e))

/-- Two runs of the process whose events differ only in the values of one credential: each request
of the one is the request of the other, unless it goes to the host this credential belongs to, and
there it goes over `https`, or the process is a test with a server of its own. -/
theorem credentials_confined {read : UrlReader} (hread : read.Lawful) (env : ApiEnv)
    (k : Credential) (accountType : AccountType) (events events' : List OutboundEvent)
    (hevents : List.Forall₂ (SameBut k) events events') :
    List.Forall₂
      (fun x x' => x'.2 = x.2 ∨ x'.2.url = x.2.url ∧ GoesHome read env k x.1 x.2.url)
      ((OutboundState.start accountType).run read env events)
      ((OutboundState.start accountType).run read env events') :=
  run_sameBut hread (.refl k _) (fun _ h => by cases h) hevents

/-- The addresses of one host. -/
def addressAt (hostname pathname : String) : ParsedUrl :=
  ⟨"https:", hostname, "", "", pathname, "", "", "https://" ++ hostname⟩

/-- A reader of the addresses that asking for the user takes. -/
def userReader : UrlReader := fun s =>
  if s = "https://api.github.com" then some (addressAt "api.github.com" "/")
  else if s = "https://api.github.com/user" then some (addressAt "api.github.com" "/user")
  else if s = "https://api.githubcopilot.com" then some (addressAt "api.githubcopilot.com" "/")
  else none

theorem userReader_eq_some {text : String} {u : ParsedUrl} (h : userReader text = some u) :
    u.protocol = "https:" ∧ startsWith u.origin "https://" = true ∧
      (userReader u.origin).map ParsedUrl.origin = some u.origin := by
  rw [userReader] at h
  split at h
  · obtain rfl := Option.some.inj h
    decide +kernel
  split at h
  · obtain rfl := Option.some.inj h
    decide +kernel
  split at h
  · obtain rfl := Option.some.inj h
    decide +kernel
  · cases h

theorem userReader_lawful : userReader.Lawful where
  https _ _ h _ := (userReader_eq_some h).1
  origin _ _ h _ := (userReader_eq_some h).2.1
  reread _ u v h hv := by
    have horigin := (userReader_eq_some h).2.2
    rw [hv] at horigin
    exact Option.some.inj horigin

theorem credentials_confined_user :
    List.Forall₂
      (fun x x' => x'.2 = x.2 ∨
        x'.2.url = x.2.url ∧ GoesHome userReader ⟨none, none, none, none⟩ .github x.1 x.2.url)
      ((OutboundState.start .individual).run userReader ⟨none, none, none, none⟩
        [.githubToken (some "one"), .send "https://api.github.com/user" ⟨"GET", [], none, none⟩])
      ((OutboundState.start .individual).run userReader ⟨none, none, none, none⟩
        [.githubToken (some "two"), .send "https://api.github.com/user" ⟨"GET", [], none, none⟩]) :=
  credentials_confined userReader_lawful _ .github .individual _ _
    (.cons (.githubToken _ _) (.cons (.refl _ _) .nil))

end Maximal.Http
