import Maximal.Lib.Js.Equality
import Maximal.Lib.Js.Text
import Maximal.Messages.AnthropicPayload

/-!
# Web tools: execution

One call of `web_search` or `web_fetch`: the policy of the request, the executor, what the model
is told and what the client is shown. What the platform computes is a parameter.

## Main definitions

- `RequestState`, `checkSearchPolicy`, `checkFetchPolicy`
- `Executor` — answers calls, depending on the calls before
- `executeToolUse`
- `buildToolResultMessage`, `buildResultBlockForOutcome`
-/

namespace Maximal.WebTools

open Js

/-! ## Vocabulary -/

inductive ToolName where
  | webSearch | webFetch
  deriving DecidableEq, Repr

/-- `TOOL_NAME`. -/
def ToolName.text : ToolName → String
  | .webSearch => "web_search"
  | .webFetch => "web_fetch"

/-- The web tool of this name. -/
def toolName? (name : Val) : Option ToolName :=
  match name.asString with
  | some s =>
    if s = ToolName.webSearch.text then some .webSearch
    else if s = ToolName.webFetch.text then some .webFetch
    else none
  | none => none

def isWebToolName (name : Val) : Bool := (toolName? name).isSome

inductive WebSearchErrorCode where
  | invalidInput | tooManyRequests | maxUsesExceeded | queryTooLong | unavailable
  deriving DecidableEq, Repr

def WebSearchErrorCode.text : WebSearchErrorCode → String
  | .invalidInput => "invalid_input"
  | .tooManyRequests => "too_many_requests"
  | .maxUsesExceeded => "max_uses_exceeded"
  | .queryTooLong => "query_too_long"
  | .unavailable => "unavailable"

inductive WebFetchErrorCode where
  | invalidInput | urlTooLong | urlNotAllowed | urlNotAccessible | tooManyRequests
  | unsupportedContentType | maxUsesExceeded | unavailable
  deriving DecidableEq, Repr

def WebFetchErrorCode.text : WebFetchErrorCode → String
  | .invalidInput => "invalid_input"
  | .urlTooLong => "url_too_long"
  | .urlNotAllowed => "url_not_allowed"
  | .urlNotAccessible => "url_not_accessible"
  | .tooManyRequests => "too_many_requests"
  | .unsupportedContentType => "unsupported_content_type"
  | .maxUsesExceeded => "max_uses_exceeded"
  | .unavailable => "unavailable"

def MAX_URL_LENGTH : ℕ := 250

/-- `DEFAULT_MAX_USES`. -/
def ToolName.defaultMaxUses : ToolName → ℕ
  | .webSearch => 5
  | .webFetch => 10

def MAX_AGENT_TURNS : ℕ := 10

/-! ## Policy -/

structure DomainPolicy where
  maxUses : Option ℕ := none
  allowedDomains : Option (List String) := none
  blockedDomains : Option (List String) := none
  deriving DecidableEq

/-- `list?.length`, as a condition. -/
def isNonEmptyList (list : Option (List String)) : Bool := list.any (!·.isEmpty)

structure WebToolDecl where
  name : ToolName
  policy : DomainPolicy

structure RequestState where
  search : Option DomainPolicy
  fetch : Option DomainPolicy
  searchUses : ℕ
  fetchUses : ℕ
  deriving DecidableEq

/-- The last declaration of each name counts. -/
def newRequestState (declared : List WebToolDecl) : RequestState :=
  declared.foldl (fun state decl =>
    match decl.name with
    | .webSearch => { state with search := some decl.policy }
    | .webFetch => { state with fetch := some decl.policy }) ⟨none, none, 0, 0⟩

def recordUse (state : RequestState) : ToolName → RequestState
  | .webSearch => { state with searchUses := state.searchUses + 1 }
  | .webFetch => { state with fetchUses := state.fetchUses + 1 }

/-- Does a bare domain, possibly with a path, cover `host`? -/
def hostCoveredBy (host entry : String) : Bool :=
  let listedHost := toLowerCase (String.ofList (entry.toList.takeWhile (· ≠ '/')))
  let h := toLowerCase host
  h = listedHost || ("." ++ listedHost).toList.isSuffixOf h.toList

def isHostAllowed (host : String) (policy : DomainPolicy) : Bool :=
  if isNonEmptyList policy.blockedDomains then
    !(policy.blockedDomains.getD []).any (hostCoveredBy host)
  else if isNonEmptyList policy.allowedDomains then
    (policy.allowedDomains.getD []).any (hostCoveredBy host)
  else true

/-- The text an input has under a name. -/
def inputText (input : Json) (key : String) : Option String :=
  if input.isRecord then (input.get key).asString else none

/-- The query that may be searched for. -/
def checkSearchPolicy (state : RequestState) (input : Json) : Except WebSearchErrorCode String :=
  match state.search with
  | none => .error .unavailable
  | some decl =>
    match inputText input "query" with
    | none => .error .invalidInput
    | some query =>
      if decl.maxUses.getD ToolName.webSearch.defaultMaxUses ≤ state.searchUses then
        .error .maxUsesExceeded
      else if query = "" ∨ 2000 < Json.utf16Length query then .error .queryTooLong
      else .ok query

/-- What the program reads of a parsed address. -/
structure Url where
  protocol : String
  hostname : String

structure SearchHit where
  url : String
  title : String
  /-- The field can be missing or `null`. -/
  pageAge : Option (Option String)
  deriving DecidableEq

/-- What the platform computes: addresses, texts of values and the clock. -/
structure Platform where
  /-- `new URL(url)`, where it does not throw. -/
  parseUrl : String → Option Url
  /-- `JSON.parse`, where it does not throw. -/
  parse : String → Option Json
  /-- `JSON.stringify(items, null, 2)`. -/
  stringifyItems : List SearchHit → String
  /-- `encryptedContent`. -/
  encryptedContent : SearchHit → String
  /-- `new Date().toISOString()`. -/
  now : String

section

variable (platform : Platform)

def parseFetchUrl (input : Json) : Except WebFetchErrorCode (String × Url) :=
  match inputText input "url" with
  | none => .error .invalidInput
  | some url =>
    if MAX_URL_LENGTH < Json.utf16Length url then .error .urlTooLong
    else
      match platform.parseUrl url with
      | none => .error .invalidInput
      | some parsed =>
        if parsed.protocol ≠ "http:" ∧ parsed.protocol ≠ "https:" then .error .invalidInput
        else .ok (url, parsed)

/-- The address that may be fetched. -/
def checkFetchPolicy (state : RequestState) (input : Json) : Except WebFetchErrorCode String :=
  match state.fetch with
  | none => .error .unavailable
  | some decl => do
    let (url, parsed) ← parseFetchUrl platform input
    if decl.maxUses.getD ToolName.webFetch.defaultMaxUses ≤ state.fetchUses then
      .error .maxUsesExceeded
    else if !isHostAllowed parsed.hostname decl then .error .urlNotAllowed
    else .ok url

/-! ## Execution -/

inductive FetchResult where
  | ok (markdown : String) (title : Option String)
  | failed (code : WebFetchErrorCode)

inductive SearchResult where
  | ok (items : List SearchHit)
  | failed (code : WebSearchErrorCode)

structure SearchOpts where
  allowedDomains : Option (List String)
  blockedDomains : Option (List String)
  deriving DecidableEq

inductive ExecutorCall where
  | fetch (url : String)
  | search (query : String) (opts : SearchOpts)
  deriving DecidableEq

/-- An executor answers depending on the calls before, with one of the results of its interface. One
whose promise is rejected is none: it breaks off the request that awaits it. -/
structure Executor where
  fetch : List ExecutorCall → String → FetchResult
  search : List ExecutorCall → String → SearchOpts → SearchResult

inductive ExecOutcome where
  | fetched (url markdown : String) (title : Option String)
  | fetchFailed (code : WebFetchErrorCode)
  | searched (query : String) (items : List SearchHit)
  | searchFailed (code : WebSearchErrorCode)
  deriving DecidableEq

/-- The state of a request and the executor calls it has made. -/
structure Execution where
  state : RequestState
  calls : List ExecutorCall
  deriving DecidableEq

/-- A hit whose address does not parse is dropped. -/
def hostAllowedForHit (url : String) (policy : DomainPolicy) : Bool :=
  match platform.parseUrl url with
  | none => false
  | some parsed => isHostAllowed parsed.hostname policy

/-- The hits that the declaration allows. -/
def allowedHits (decl : Option DomainPolicy) (items : List SearchHit) : List SearchHit :=
  match decl with
  | none => items
  | some policy =>
    if isNonEmptyList policy.allowedDomains || isNonEmptyList policy.blockedDomains then
      items.filter fun hit => hostAllowedForHit platform hit.url policy
    else items

def executeToolUse (executor : Executor) (name : ToolName) (input : Json) (x : Execution) :
    ExecOutcome × Execution :=
  match name with
  | .webFetch =>
    match checkFetchPolicy platform x.state input with
    | .error code => (.fetchFailed code, x)
    | .ok url =>
      let calls := x.calls ++ [.fetch url]
      match executor.fetch x.calls url with
      | .failed code => (.fetchFailed code, ⟨x.state, calls⟩)
      | .ok markdown title =>
        (.fetched url markdown title, ⟨recordUse x.state .webFetch, calls⟩)
  | .webSearch =>
    match checkSearchPolicy x.state input with
    | .error code => (.searchFailed code, x)
    | .ok query =>
      let decl := x.state.search
      let opts : SearchOpts := ⟨decl.bind (·.allowedDomains), decl.bind (·.blockedDomains)⟩
      let calls := x.calls ++ [.search query opts]
      match executor.search x.calls query opts with
      | .failed code => (.searchFailed code, ⟨x.state, calls⟩)
      | .ok items =>
        (.searched query (allowedHits platform decl items),
          ⟨recordUse x.state .webSearch, calls⟩)

/-! ## Results -/

/-- A `tool_result` for the model. -/
structure ToolResult where
  toolUseId : Val
  content : String
  isError : Bool

def buildToolResultMessage (toolUseId : Val) : ExecOutcome → ToolResult
  | .fetched _ markdown _ => ⟨toolUseId, markdown, false⟩
  | .searched _ items => ⟨toolUseId, platform.stringifyItems items, false⟩
  | .fetchFailed code => ⟨toolUseId, "Error: " ++ code.text, true⟩
  | .searchFailed code => ⟨toolUseId, "Error: " ++ code.text, true⟩

structure SearchResultEntry where
  url : String
  title : String
  encryptedContent : String
  pageAge : Option (Option String)
  deriving DecidableEq

/-- The content of a result block for the client. -/
inductive ResultContent where
  | webFetchResult (url markdown : String) (title : Option String) (retrievedAt : String)
  | webFetchError (code : WebFetchErrorCode)
  | webSearchResult (entries : List SearchResultEntry)
  | webSearchError (code : WebSearchErrorCode)
  deriving DecidableEq

/-- A `web_*_tool_result` block. -/
structure ResultOutBlock where
  toolUseId : Val
  content : ResultContent
  deriving DecidableEq

def buildResultContent : ExecOutcome → ResultContent
  | .fetched url markdown title => .webFetchResult url markdown title platform.now
  | .fetchFailed code => .webFetchError code
  | .searched _ items =>
    .webSearchResult (items.map fun it => ⟨it.url, it.title, platform.encryptedContent it, it.pageAge⟩)
  | .searchFailed code => .webSearchError code

def buildResultBlockForOutcome (toolUseId : Val) (outcome : ExecOutcome) : ResultOutBlock :=
  ⟨toolUseId, buildResultContent platform outcome⟩

@[simp] theorem buildToolResultMessage_toolUseId (toolUseId : Val) (outcome : ExecOutcome) :
    (buildToolResultMessage platform toolUseId outcome).toolUseId = toolUseId := by
  cases outcome <;> rfl

end

end Maximal.WebTools
