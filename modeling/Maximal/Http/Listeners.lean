import Maximal.Auth.RequestAuth
import Maximal.Lib.Router
import Maximal.Update.UpdateCheck

/-!
# The two listeners

What forwards to the upstream is on the public listener, behind gates for the origin, the key, the
build and the account. What controls the sidecar is on the control listener, for pages of that
listener and peers on the same machine.

## Main definitions

- `isAllowedOrigin`, `isCsrfGuardedPath` — the origin guard
- `commonMiddleware`, `publicApp`, `controlApp` — the layers of the listeners in their order
- `respond` — the answer of a listener

## Main results

- `publicApp_upstream` — which requests reach the upstream
- `gates_only_upstream` — what a retired build still answers
- `control_guarded` — who reaches the control surface
-/

namespace Maximal.Http

open Js Router Auth Update

/-! ## Origins -/

structure Url where
  hostname : String
  port : String

def CSRF_GUARDED_PREFIXES : List String := ["/settings/api", "/_internal", "/_debug/state", "/control"]

def LOCALHOST_HOSTNAMES : List String := ["localhost", "127.0.0.1", "[::1]"]

/-- `new URL`; `none` when it throws. -/
abbrev UrlParser := String → Option Url

def isAllowedOrigin (parseUrl : UrlParser) (origin : Option String) (boundPort : ℕ) : Bool :=
  match origin with
  | none => true
  | some origin =>
    match parseUrl origin with
    | none => false
    | some url => LOCALHOST_HOSTNAMES.contains url.hostname && url.port = toString boundPort

def isCsrfGuardedPath (path : String) : Bool := CSRF_GUARDED_PREFIXES.any (pathMatchesPrefix path)

/-- The `origin` of `buildCorsOptions`. -/
def corsOrigin (parseUrl : UrlParser) (origin : String) (boundPort : ℕ) : Option String :=
  if origin ≠ "" ∧ isAllowedOrigin parseUrl (some origin) boundPort then some origin else none

/-! ## Answers -/

inductive Endpoint where
  | serverRunning
  | status
  | shutdown
  | setupStatus
  | openapi
  | chatCompletions
  | models
  | embeddings
  | responses
  | messages
  | countTokens
  | providerMessages
  | providerCountTokens
  | providerModels
  | usage
  | tokenUsage
  | tokenUsageSeries
  | tokenUsageEvents
  /-- A route of the control router. -/
  | control (method path : String)
  | debugState
  deriving DecidableEq

namespace Endpoint

/-- What forwards to the upstream. -/
def isUpstream : Endpoint → Bool
  | .chatCompletions | .models | .embeddings | .responses | .messages | .countTokens
  | .providerMessages | .providerCountTokens | .providerModels => true
  | _ => false

/-- What changes or shows the state of the sidecar. -/
def isControl : Endpoint → Bool
  | .control _ _ | .debugState | .shutdown => true
  | _ => false

end Endpoint

inductive Answer where
  /-- 204, with `Access-Control-Allow-Origin` if there is one. -/
  | preflight (allowOrigin : Option String)
  /-- 403 -/
  | csrfError
  /-- 401 for want of a key. -/
  | unauthorized
  /-- 426 -/
  | buildRetired (current : String) (minSupported : String)
  /-- 401 for want of an account. -/
  | notAuthenticated
  /-- 404 -/
  | notFound
  | handled (endpoint : Endpoint)
  deriving DecidableEq

/-- What a request does before it is answered. -/
inductive Effect where
  | recordClient (client : RecordedClient)
  | refreshIfStale
  deriving DecidableEq

structure Server where
  controlPort : ℕ
  verbose : Bool
  config : AppConfig
  shellApiKey : Option String
  hasGithubToken : Bool
  /-- `checkVersionFloor()`. -/
  verdict : VersionFloorVerdict

/-- A route for `GET` answers `HEAD` too. -/
def shape : Shape HttpRequest where
  method request := if request.method = "HEAD" then "GET" else request.method
  path request := segmentsOf request.path.toList

abbrev AppLayer := Layer HttpRequest Effect Answer

/-! ## Middleware -/

section Apps

variable (parseUrl : UrlParser) (server : Server)

def anyPath : Pattern := patternOf "*"

def cors (request : HttpRequest) : Option Answer :=
  if request.method = "OPTIONS" then
    some (.preflight ((corsOrigin parseUrl ((request.header "origin").getD "") server.controlPort)))
  else none

def originGuard (request : HttpRequest) : Option Answer :=
  if isCsrfGuardedPath request.path ∧
      ¬ isAllowedOrigin parseUrl (request.header "origin") server.controlPort then
    some .csrfError
  else none

/-- The options that `server.ts` passes. -/
def authOptions : AuthMiddlewareOptions where
  allowUnauthenticatedPaths := ["/", "/status", "/_debug/state", "/setup-status", "/openapi.json"]
  allowUnauthenticatedPrefixes := ["/control"]
  loopbackOnlyPaths := ["/usage", "/token-usage", "/token-usage/events", "/_internal/shutdown"]

/-- A client without a user agent is not recorded. -/
def recordedClient (client : RecordedClient) : List Effect :=
  let userAgent := trim client.userAgent
  if userAgent = "" then [] else [.recordClient { client with userAgent }]

def auth (request : HttpRequest) : Verdict Effect Answer :=
  match createAuthMiddleware authOptions server.config server.shellApiKey request with
  | .unauthorized _ _ _ => .answer .unauthorized
  | .next client => .next (client.elim [] recordedClient)

/-- What only adds headers or writes a log is left out. -/
def commonMiddleware : List AppLayer :=
  [gate anyPath (cors parseUrl server), gate anyPath (originGuard parseUrl server),
    .use anyPath (auth server), .use anyPath fun _ => .next [.refreshIfStale]]

def requireSupportedBuild (_ : HttpRequest) : Option Answer :=
  match server.verdict.retired, server.verdict.minSupported with
  | true, some minSupported => some (.buildRetired server.verdict.current minSupported)
  | _, _ => none

def requireGithubAuth (_ : HttpRequest) : Option Answer :=
  if server.hasGithubToken then none else some .notAuthenticated

/-! ## Routes -/

def row (method path : String) (endpoint : Endpoint) : Row Answer :=
  ⟨method, patternOf path, .handled endpoint⟩

def identityRows : List (Row Answer) :=
  [row "GET" "/" .serverRunning, row "GET" "/status" .status]

/-- Only a peer on the same machine shuts the sidecar down. -/
def shutdown : AppLayer :=
  .on "POST" (patternOf "/_internal/shutdown") fun request =>
    if isLoopbackAddress request.ip then .handled .shutdown else .notFound

def productApiRows : List (Row Answer) :=
  [row "GET" "/setup-status" .setupStatus, row "GET" "/openapi.json" .openapi]

def UPSTREAM_ROUTES : List String :=
  ["/chat/completions", "/chat/completions/*", "/models", "/models/*", "/embeddings",
    "/embeddings/*", "/responses", "/responses/*", "/v1/*", "/:provider/v1/*"]

def proxyRows : List (Row Answer) :=
  [row "POST" "/chat/completions" .chatCompletions, row "GET" "/models" .models,
    row "POST" "/embeddings" .embeddings, row "GET" "/usage" .usage,
    row "GET" "/token-usage" .tokenUsage, row "GET" "/token-usage/series" .tokenUsageSeries,
    row "GET" "/token-usage/events" .tokenUsageEvents, row "POST" "/responses" .responses,
    row "POST" "/v1/chat/completions" .chatCompletions, row "GET" "/v1/models" .models,
    row "POST" "/v1/embeddings" .embeddings, row "POST" "/v1/responses" .responses,
    row "POST" "/v1/messages" .messages, row "POST" "/v1/messages/count_tokens" .countTokens,
    row "POST" "/:provider/v1/messages" .providerMessages,
    row "POST" "/:provider/v1/messages/count_tokens" .providerCountTokens,
    row "GET" "/:provider/v1/models" .providerModels]

/-- The routes of the control router, without its mount path. -/
def CONTROL_ROUTES : List (String × String) :=
  [("GET", "/events"), ("GET", "/auth"), ("GET", "/accounts"), ("GET", "/apps"),
    ("GET", "/models"), ("GET", "/usage"), ("GET", "/config"), ("GET", "/clients"),
    ("GET", "/update-status"), ("POST", "/auth/start"), ("POST", "/auth/cancel"),
    ("POST", "/auth/rearm"), ("POST", "/auth/sign-out"), ("POST", "/models/refresh"),
    ("GET", "/api-keys"), ("POST", "/api-keys"), ("PATCH", "/api-keys/enforce"),
    ("PATCH", "/api-keys/:id"), ("DELETE", "/api-keys/:id"), ("GET", "/gh/status"),
    ("POST", "/gh/use"), ("POST", "/apps/claude-code/toggle"),
    ("POST", "/apps/claude-desktop/toggle"), ("GET", "/diagnostics"), ("POST", "/quit"),
    ("POST", "/upgrade"), ("POST", "/accounts/switch"), ("POST", "/accounts/remove"),
    ("POST", "/rpc"), ("GET", "/rpc"), ("DELETE", "/rpc")]

def controlRows : List (Row Answer) :=
  CONTROL_ROUTES.map fun (method, path) =>
    row method ("/control" ++ path) (.control method path)

/-- The control router hides from other machines. -/
def loopbackGate (request : HttpRequest) : Option Answer :=
  if isLoopbackAddress request.ip then none else some .notFound

def debugState : AppLayer :=
  .on "GET" (patternOf "/_debug/state") fun _ =>
    if server.verbose then .handled .debugState else .notFound

def upstreamGates : List AppLayer :=
  (UPSTREAM_ROUTES.map patternOf).flatMap fun pattern =>
    [gate pattern (requireSupportedBuild server), gate pattern (requireGithubAuth server)]

/-- What the public listener answers before any gate. -/
def openLayers : List AppLayer :=
  identityRows.map Row.layer ++ shutdown :: productApiRows.map Row.layer

def publicApp : List AppLayer :=
  commonMiddleware parseUrl server ++
    (openLayers ++ (upstreamGates server ++ proxyRows.map Row.layer))

def controlApp : List AppLayer :=
  commonMiddleware parseUrl server ++
    (gate (patternOf "/control/*") loopbackGate :: (controlRows.map Row.layer ++
      [debugState server]))

/-- What a listener does; a request that no layer answers is not found. -/
def respond (app : List AppLayer) (request : HttpRequest) : List Effect × Answer :=
  ((serve shape request app).1, (serve shape request app).2.getD .notFound)

/-- The endpoint that a table has for a request. -/
def routeRows (rows : List (Row Answer)) (request : HttpRequest) : Option Answer :=
  (rows.find? (·.fits shape request)).map Row.answer

/-! ## The middleware of a request -/

section

variable {parseUrl : UrlParser} {server : Server} {request : HttpRequest}

theorem anyPath_fits (path : List (List Char)) : anyPath.fits path = true := by
  have hany : anyPath = ⟨[], true⟩ := by decide +kernel
  rw [hany]
  rfl

theorem serve_commonMiddleware :
    serve shape request (commonMiddleware parseUrl server) =
      match (cors parseUrl server request).or (originGuard parseUrl server request) with
      | some answer => ([], some answer)
      | none =>
        match auth server request with
        | .answer answer => ([], some answer)
        | .next effects => (effects ++ [.refreshIfStale], none) := by
  rw [commonMiddleware, serve_gate_cons, if_pos (anyPath_fits _)]
  cases cors parseUrl server request with
  | some answer => rfl
  | none =>
    rw [Option.none_or]
    dsimp only
    rw [serve_gate_cons, if_pos (anyPath_fits _)]
    cases originGuard parseUrl server request with
    | some answer => rfl
    | none =>
      dsimp only
      cases hauth : auth server request with
      | answer answer =>
        have hrun : (Layer.use anyPath (auth server)).run shape request = .answer answer := by
          rw [Layer.run, if_pos (anyPath_fits _), hauth]
        exact serve_cons_of_answer hrun _
      | next effects =>
        have hrun : (Layer.use anyPath (auth server)).run shape request = .next effects := by
          rw [Layer.run, if_pos (anyPath_fits _), hauth]
        rw [serve_cons_of_next hrun]
        have hrefresh :
            (Layer.use anyPath fun _ => .next [.refreshIfStale] : AppLayer).run shape request =
              .next [.refreshIfStale] := by
          rw [Layer.run, if_pos (anyPath_fits _)]
        rw [serve_cons_of_next hrefresh]
        rfl

/-! ## What passes the middleware -/

variable (parseUrl server request) in
/-- A request that the middleware lets through. -/
structure Passes : Prop where
  method : request.method ≠ "OPTIONS"
  origin : isCsrfGuardedPath request.path = true →
    isAllowedOrigin parseUrl (request.header "origin") server.controlPort = true
  key : (createAuthMiddleware authOptions server.config server.shellApiKey request).admits = true

theorem cors_eq_none_iff : cors parseUrl server request = none ↔ request.method ≠ "OPTIONS" := by
  rw [cors, ite_eq_right_iff]
  constructor
  · intro h hmethod
    cases h hmethod
  · exact fun h hmethod => absurd hmethod h

theorem originGuard_eq_none_iff :
    originGuard parseUrl server request = none ↔
      (isCsrfGuardedPath request.path = true →
        isAllowedOrigin parseUrl (request.header "origin") server.controlPort = true) := by
  rw [originGuard, ite_eq_right_iff]
  constructor
  · intro h hguarded
    by_contra horigin
    cases h ⟨hguarded, horigin⟩
  · exact fun h hrefused => absurd (h hrefused.1) hrefused.2

theorem auth_eq_next_iff :
    (∃ effects, auth server request = .next effects) ↔
      (createAuthMiddleware authOptions server.config server.shellApiKey request).admits =
        true := by
  rw [auth]
  cases createAuthMiddleware authOptions server.config server.shellApiKey request with
  | next client => exact iff_of_true ⟨_, rfl⟩ rfl
  | unauthorized status wwwAuthenticate body => exact iff_of_false nofun Bool.false_ne_true

theorem auth_answer {answer : Answer} (h : auth server request = .answer answer) :
    answer = .unauthorized := by
  rw [auth] at h
  split at h
  · cases h
    rfl
  · cases h

theorem commonMiddleware_eq_none_iff :
    (serve shape request (commonMiddleware parseUrl server)).2 = none ↔
      Passes parseUrl server request := by
  rw [serve_commonMiddleware]
  have hpasses : Passes parseUrl server request ↔
      (cors parseUrl server request).or (originGuard parseUrl server request) = none ∧
        ∃ effects, auth server request = .next effects := by
    rw [Option.or_eq_none_iff, cors_eq_none_iff, originGuard_eq_none_iff, auth_eq_next_iff]
    exact ⟨fun h => ⟨⟨h.method, h.origin⟩, h.key⟩, fun h => ⟨h.1.1, h.1.2, h.2⟩⟩
  rw [hpasses]
  cases (cors parseUrl server request).or (originGuard parseUrl server request) with
  | some answer => exact iff_of_false nofun nofun
  | none =>
    rw [eq_self, true_and]
    cases auth server request with
    | answer answer => exact iff_of_false nofun nofun
    | next effects => exact iff_of_true rfl ⟨effects, rfl⟩

/-- The middleware handles nothing itself. -/
theorem commonMiddleware_ne_handled (endpoint : Endpoint) :
    (serve shape request (commonMiddleware parseUrl server)).2 ≠ some (.handled endpoint) := by
  rw [serve_commonMiddleware]
  rcases h : (cors parseUrl server request).or (originGuard parseUrl server request) with
    _ | answer
  · dsimp only
    cases hauth : auth server request with
    | next effects => exact nofun
    | answer answer =>
      rw [auth_answer hauth]
      exact nofun
  · dsimp only
    rw [Option.or_eq_some_iff] at h
    rintro ⟨⟩
    obtain hcors | ⟨-, horigin⟩ := h
    · rw [cors, Option.ite_none_right_eq_some] at hcors
      cases hcors.2
    · rw [originGuard, Option.ite_none_right_eq_some] at horigin
      cases horigin.2

theorem respond_eq_handled_iff {layers : List AppLayer} {endpoint : Endpoint} :
    (respond (commonMiddleware parseUrl server ++ layers) request).2 = .handled endpoint ↔
      Passes parseUrl server request ∧
        (serve shape request layers).2 = some (.handled endpoint) := by
  rw [respond, answer_append, ← commonMiddleware_eq_none_iff]
  cases h : (serve shape request (commonMiddleware parseUrl server)).2 with
  | none =>
    rw [Option.none_or, eq_self, true_and]
    cases (serve shape request layers).2 with
    | none => exact iff_of_false nofun nofun
    | some answer => rw [Option.getD_some, Option.some.injEq]
  | some answer =>
    refine iff_of_false (fun heq => ?_) nofun
    obtain rfl : answer = .handled endpoint := heq
    exact commonMiddleware_ne_handled endpoint h

/-! ## The route tables -/

def Answer.isUpstream : Answer → Bool
  | .handled endpoint => endpoint.isUpstream
  | _ => false

def Answer.isControl : Answer → Bool
  | .handled endpoint => endpoint.isControl
  | _ => false

theorem answer_rows_append {rows : List (Row Answer)} {layers : List AppLayer} :
    (serve shape request (rows.map Row.layer ++ layers)).2 =
      (routeRows rows request).or (serve shape request layers).2 := by
  rw [answer_append, serve_rows]
  rfl

theorem answer_rows {rows : List (Row Answer)} :
    (serve shape request (rows.map (Row.layer : Row Answer → AppLayer))).2 =
      routeRows rows request := by
  rw [serve_rows]
  rfl

theorem dispatch_eq_some {rows : List (Row Answer)} {answer : Answer}
    (h : routeRows rows request = some answer) :
    ∃ row ∈ rows, row.answer = answer ∧ shape.method request = row.method ∧
      row.pattern.fits (shape.path request) = true := by
  obtain ⟨row, hfind, hanswer⟩ := Option.map_eq_some_iff.1 h
  have hfits := List.find?_some hfind
  rw [Row.fits, Bool.and_eq_true, decide_eq_true_iff] at hfits
  exact ⟨row, List.mem_of_find?_eq_some hfind, hanswer, hfits⟩

theorem dispatch_forall {rows : List (Row Answer)} {p : Answer → Prop} {answer : Answer}
    (hrows : ∀ row ∈ rows, p row.answer) (h : routeRows rows request = some answer) : p answer := by
  obtain ⟨row, hrow, rfl, -⟩ := dispatch_eq_some h
  exact hrows row hrow

theorem dispatch_eq_none {rows : List (Row Answer)}
    (h : ∀ row ∈ rows, row.pattern.fits (shape.path request) = false) :
    routeRows rows request = none := by
  rw [routeRows, Option.map_eq_none_iff, List.find?_eq_none]
  intro row hrow
  rw [Row.fits, h row hrow, Bool.and_false]
  exact Bool.false_ne_true

/-- No path of the proxy is one that is answered before the gates. -/
theorem proxyRows_apart :
    ∀ row ∈ proxyRows,
      (∀ row' ∈ identityRows ++ productApiRows, row.pattern.apart row'.pattern = true) ∧
        row.pattern.apart (patternOf "/_internal/shutdown") = true := by
  decide +kernel

theorem proxyRows_gated :
    ∀ row ∈ proxyRows,
      if row.answer.isUpstream then
        ∃ path ∈ UPSTREAM_ROUTES, (patternOf path).covers row.pattern = true
      else ∀ path ∈ UPSTREAM_ROUTES, row.pattern.apart (patternOf path) = true := by
  decide +kernel

theorem proxyRows_method : ∀ row ∈ proxyRows, row.method ≠ "OPTIONS" := by decide

/-- The key of a request for the upstream is looked at, unless its provider is called `control`. -/
theorem proxyRows_authenticated :
    ∀ row ∈ proxyRows, row.answer.isUpstream = true →
      (∀ path ∈ authOptions.allowUnauthenticatedPaths,
        row.pattern.fits (segmentsOf path.toList) = false) ∧
      ∀ path ∈ authOptions.loopbackOnlyPaths,
        row.pattern.fits (segmentsOf path.toList) = false := by
  decide +kernel

theorem controlRows_guarded :
    ∀ row ∈ controlRows, (under "/control").covers row.pattern = true ∧
      (patternOf "/control/*").covers row.pattern = true ∧ row.method ≠ "OPTIONS" := by
  decide +kernel

theorem shutdown_handled {endpoint : Endpoint}
    (h : shutdown.run shape request = .answer (.handled endpoint)) :
    (patternOf "/_internal/shutdown").fits (shape.path request) = true ∧
      isLoopbackAddress request.ip = true ∧ endpoint = .shutdown := by
  rw [shutdown, Layer.run] at h
  split at h
  · next hfits =>
    split at h
    · next hloopback =>
      cases h
      exact ⟨(Bool.and_eq_true_iff.1 hfits).2, hloopback, rfl⟩
    · cases h
  · cases h

theorem pathMatchesPrefix_iff {path base : String} :
    pathMatchesPrefix path base = true ↔ (under base).fits (segmentsOf path.toList) = true := by
  rw [under_fits_iff, pathMatchesPrefix, Bool.or_eq_true, decide_eq_true_iff, startsWith,
    List.isPrefixOf_iff_prefix, String.toList_append, String.toList_inj]
  rfl

/-! ## Requests for the upstream -/

/-- The key that a request needs: one that is known, while keys are enforced. -/
def Admitted (server : Server) (request : HttpRequest) : Prop :=
  server.config.isEnforcing = true →
    ∃ key, Auth.Carries request.header key ∧ Known server.config server.shellApiKey key

theorem method_ne_options {answer : Answer} (h : routeRows proxyRows request = some answer) :
    request.method ≠ "OPTIONS" := by
  obtain ⟨row, hrow, -, hmethod, -⟩ := dispatch_eq_some h
  intro heq
  refine proxyRows_method row hrow (hmethod.symm.trans ?_)
  show (if request.method = "HEAD" then "GET" else request.method) = "OPTIONS"
  rw [heq]
  rfl

theorem shouldBypass_upstream {answer : Answer} (hanswer : answer.isUpstream = true)
    (h : routeRows proxyRows request = some answer) :
    shouldBypass authOptions request = pathMatchesPrefix request.path "/control" := by
  obtain ⟨row, hrow, rfl, -, hfits⟩ := dispatch_eq_some h
  obtain ⟨hopen, hloopback⟩ := proxyRows_authenticated row hrow hanswer
  have hnot : ∀ paths : List String,
      (∀ path ∈ paths, row.pattern.fits (segmentsOf path.toList) = false) →
        paths.contains request.path = false := by
    intro paths hpaths
    rw [Bool.eq_false_iff, Ne, List.contains_iff_mem]
    intro hmem
    rw [show shape.path request = segmentsOf request.path.toList from rfl,
      hpaths request.path hmem] at hfits
    cases hfits
  have hoptions : decide (request.method = "OPTIONS") = false :=
    decide_eq_false (method_ne_options h)
  have hprefixes : authOptions.allowUnauthenticatedPrefixes.any (pathMatchesPrefix request.path) =
      pathMatchesPrefix request.path "/control" := by
    rw [authOptions, List.any_cons, List.any_nil, Bool.or_false]
  rw [shouldBypass, hnot _ hopen, hnot _ hloopback, hoptions, hprefixes, Bool.and_false,
    Bool.false_and, Bool.or_false, Bool.or_false, Bool.false_or]

theorem admits_upstream_iff {answer : Answer} (hanswer : answer.isUpstream = true)
    (h : routeRows proxyRows request = some answer) :
    (createAuthMiddleware authOptions server.config server.shellApiKey request).admits = true ↔
      pathMatchesPrefix request.path "/control" = true ∨ Admitted server request := by
  have hbypass := shouldBypass_upstream hanswer h
  cases hcontrol : pathMatchesPrefix request.path "/control" with
  | true =>
    rw [hcontrol] at hbypass
    exact iff_of_true (by rw [createAuthMiddleware, if_pos hbypass, Gate.admits]) (.inl rfl)
  | false =>
    rw [hcontrol] at hbypass
    rw [or_iff_right Bool.false_ne_true, Admitted]
    cases henforce : server.config.isEnforcing with
    | false =>
      exact iff_of_true (admits_of_not_enforcing henforce) fun henforced =>
        absurd henforced Bool.false_ne_true
    | true => rw [admits_iff hbypass henforce, eq_self, forall_const]

theorem openLayers_not_upstream {endpoint : Endpoint}
    (h : (serve shape request openLayers).2 = some (.handled endpoint)) :
    endpoint.isUpstream = false := by
  have hrows : ∀ rows : List (Row Answer), (∀ row ∈ rows, row.answer.isUpstream = false) →
      routeRows rows request = some (.handled endpoint) → endpoint.isUpstream = false :=
    fun _ hrows => dispatch_forall (p := fun a => a.isUpstream = false) hrows
  rw [openLayers, answer_rows_append, Option.or_eq_some_iff] at h
  obtain hidentity | ⟨-, h⟩ := h
  · exact hrows identityRows (by decide) hidentity
  · cases hshutdown : shutdown.run shape request with
    | answer answer =>
      rw [serve_cons_of_answer hshutdown] at h
      obtain rfl := Option.some.inj h
      obtain ⟨-, -, rfl⟩ := shutdown_handled hshutdown
      rfl
    | next effects =>
      rw [serve_cons_of_next hshutdown, answer_rows] at h
      exact hrows productApiRows (by decide) h

/-- The gates, for the paths that they stand in front of. -/
theorem serve_upstreamGates :
    (serve shape request (upstreamGates server)).2 =
      if (UPSTREAM_ROUTES.map patternOf).any (·.fits (shape.path request)) then
        (requireSupportedBuild server request).or (requireGithubAuth server request)
      else none := by
  rw [upstreamGates, serve_gates]

theorem openLayers_eq_none {answer : Answer} (h : routeRows proxyRows request = some answer) :
    (serve shape request openLayers).2 = none := by
  obtain ⟨row, hrow, -, -, hfits⟩ := dispatch_eq_some h
  obtain ⟨hopen, hinternal⟩ := proxyRows_apart row hrow
  have hnone : ∀ rows : List (Row Answer), (∀ row ∈ rows, row ∈ identityRows ++ productApiRows) →
      routeRows rows request = none := fun rows hrows =>
    dispatch_eq_none fun row' hrow' =>
      Pattern.not_fits_of_apart (hopen row' (hrows row' hrow')) hfits
  have hshutdown : shutdown.run shape request = .next [] := by
    rw [shutdown, Layer.run, Pattern.not_fits_of_apart hinternal hfits, Bool.and_false,
      if_neg Bool.false_ne_true]
  rw [openLayers, answer_rows_append, hnone _ fun _ => List.mem_append_left _, Option.none_or,
    serve_cons_of_next hshutdown, answer_rows, hnone _ fun _ => List.mem_append_right _]

theorem gated_iff {answer : Answer} (h : routeRows proxyRows request = some answer) :
    (UPSTREAM_ROUTES.map patternOf).any (·.fits (shape.path request)) = answer.isUpstream := by
  obtain ⟨row, hrow, rfl, -, hfits⟩ := dispatch_eq_some h
  have hgated := proxyRows_gated row hrow
  cases hupstream : row.answer.isUpstream with
  | true =>
    rw [if_pos hupstream] at hgated
    obtain ⟨path, hpath, hcovers⟩ := hgated
    exact List.any_eq_true.2
      ⟨_, List.mem_map_of_mem hpath, Pattern.fits_of_covers hcovers hfits⟩
  | false =>
    rw [if_neg (by rw [hupstream]; exact Bool.false_ne_true)] at hgated
    rw [List.any_eq_false]
    intro pattern hpattern
    obtain ⟨path, hpath, rfl⟩ := List.mem_map.1 hpattern
    rw [Pattern.not_fits_of_apart (hgated path hpath) hfits]
    exact Bool.false_ne_true

/-- What the public listener says of a request that its middleware let through to the proxy. -/
theorem respond_proxy {answer : Answer} (h : routeRows proxyRows request = some answer)
    (hpasses : Passes parseUrl server request) :
    (respond (publicApp parseUrl server) request).2 =
      if answer.isUpstream then
        ((requireSupportedBuild server request).or (requireGithubAuth server request)).getD answer
      else answer := by
  have hcommon := commonMiddleware_eq_none_iff.2 hpasses
  rw [respond, publicApp, answer_append, hcommon, Option.none_or, answer_append,
    openLayers_eq_none h, Option.none_or, answer_append, serve_upstreamGates, gated_iff h,
    answer_rows, h]
  cases answer.isUpstream with
  | true =>
    rw [if_pos rfl, if_pos rfl]
    cases (requireSupportedBuild server request).or (requireGithubAuth server request) <;> rfl
  | false => rfl

theorem gates_ne_handled (endpoint : Endpoint) :
    (requireSupportedBuild server request).or (requireGithubAuth server request) ≠
      some (.handled endpoint) := by
  rw [requireSupportedBuild, requireGithubAuth]
  split
  · exact nofun
  · rw [Option.none_or]
    split <;> exact nofun

/-- An endpoint of the proxy answers unless it is one for the upstream and a gate refuses. -/
theorem proxy_handled_iff {endpoint : Endpoint} :
    (serve shape request (upstreamGates server ++ proxyRows.map Row.layer)).2 =
        some (.handled endpoint) ↔
      routeRows proxyRows request = some (.handled endpoint) ∧
        (endpoint.isUpstream = true →
          (requireSupportedBuild server request).or (requireGithubAuth server request) = none) := by
  rw [answer_append, serve_upstreamGates, answer_rows]
  constructor
  · intro h
    rw [Option.or_eq_some_iff] at h
    obtain hgate | ⟨hnone, hdispatch⟩ := h
    · rw [Option.ite_none_right_eq_some] at hgate
      exact absurd hgate.2 (gates_ne_handled endpoint)
    · refine ⟨hdispatch, fun hupstream => ?_⟩
      rwa [gated_iff hdispatch, Answer.isUpstream, if_pos hupstream] at hnone
  · rintro ⟨hdispatch, hgates⟩
    rw [gated_iff hdispatch, hdispatch, Answer.isUpstream]
    cases hupstream : endpoint.isUpstream with
    | true => rw [if_pos rfl, hgates hupstream, Option.none_or]
    | false => rfl

theorem gates_eq_none_iff :
    (requireSupportedBuild server request).or (requireGithubAuth server request) = none ↔
      (server.verdict.retired = true → server.verdict.minSupported = none) ∧
        server.hasGithubToken = true := by
  rw [Option.or_eq_none_iff, requireSupportedBuild, requireGithubAuth]
  cases server.hasGithubToken <;> cases server.verdict.retired <;>
    cases server.verdict.minSupported <;> simp

/-- A request reaches the upstream exactly if the proxy has an endpoint for it, its origin and its
key are fine, the build is not retired and there is an account. A retired build is refused as such,
with an account and without one. -/
theorem publicApp_upstream (parseUrl : UrlParser) (server : Server) (request : HttpRequest)
    {endpoint : Endpoint} (hupstream : endpoint.isUpstream = true) :
    ((respond (publicApp parseUrl server) request).2 = .handled endpoint ↔
      routeRows proxyRows request = some (.handled endpoint) ∧
        (isCsrfGuardedPath request.path = true →
          isAllowedOrigin parseUrl (request.header "origin") server.controlPort = true) ∧
        (pathMatchesPrefix request.path "/control" = true ∨ Admitted server request) ∧
        (server.verdict.retired = true → server.verdict.minSupported = none) ∧
        server.hasGithubToken = true) ∧
    (routeRows proxyRows request = some (.handled endpoint) → Passes parseUrl server request →
      ∀ minSupported, server.verdict.retired = true →
        server.verdict.minSupported = some minSupported →
          (respond (publicApp parseUrl server) request).2 =
            .buildRetired server.verdict.current minSupported) := by
  refine ⟨?_, fun hdispatch hpasses minSupported hretired hmin => ?_⟩
  · have hanswer : (Answer.handled endpoint).isUpstream = true := hupstream
    rw [publicApp, respond_eq_handled_iff, ← @gates_eq_none_iff server request]
    constructor
    · rintro ⟨hpasses, hserve⟩
      rw [answer_append, Option.or_eq_some_iff] at hserve
      obtain hopen | ⟨-, hproxy⟩ := hserve
      · rw [openLayers_not_upstream hopen] at hupstream
        cases hupstream
      obtain ⟨hdispatch, hgates⟩ := proxy_handled_iff.1 hproxy
      have hkey := (admits_upstream_iff hanswer hdispatch).1 hpasses.key
      exact ⟨hdispatch, hpasses.origin, hkey, hgates hupstream⟩
    · rintro ⟨hdispatch, horigin, hkey, hgates⟩
      refine ⟨⟨method_ne_options hdispatch, horigin, (admits_upstream_iff hanswer hdispatch).2 hkey⟩, ?_⟩
      rw [answer_append, openLayers_eq_none hdispatch, Option.none_or]
      exact proxy_handled_iff.2 ⟨hdispatch, fun _ => hgates⟩
  · have hbuild : requireSupportedBuild server request =
        some (.buildRetired server.verdict.current minSupported) := by
      rw [requireSupportedBuild, hretired, hmin]
    rw [respond_proxy hdispatch hpasses, Answer.isUpstream, if_pos hupstream, hbuild,
      Option.some_or, Option.getD_some]

/-- A server with an account that enforces a key. -/
def enforcingServer (key : String) : Server where
  controlPort := 50000
  verbose := false
  config := enforcing key
  shellApiKey := none
  hasGithubToken := true
  verdict := ⟨"1.0.0", none, false⟩

theorem publicApp_upstream_messages :
    (respond (publicApp (fun _ => none) (enforcingServer "client-key"))
      (requestWith "client-key")).2 = .handled .messages := by
  have hcarries : Auth.Carries (requestWith "client-key").header "client-key" :=
    ⟨by decide, .inl ⟨"client-key", by decide +kernel, by decide +kernel⟩⟩
  have hknown : Known (enforcingServer "client-key").config none "client-key" :=
    .inr (.inr ⟨_, List.mem_singleton_self _, rfl, by decide +kernel⟩)
  have hupstream : Endpoint.messages.isUpstream = true := rfl
  exact (publicApp_upstream _ _ _ hupstream).1.2
    ⟨by decide +kernel, fun _ => rfl, .inr fun _ => ⟨_, hcarries, hknown⟩, nofun, rfl⟩

/-- What is not for the upstream answers for a retired build and without an account as it does
else. -/
theorem gates_only_upstream (parseUrl : UrlParser) (server : Server) (request : HttpRequest)
    {endpoint : Endpoint} (hrest : endpoint.isUpstream = false) (verdict : VersionFloorVerdict)
    (hasGithubToken : Bool) :
    (respond (publicApp parseUrl { server with verdict, hasGithubToken }) request).2 =
        .handled endpoint ↔
      (respond (publicApp parseUrl server) request).2 = .handled endpoint := by
  have hproxy : ∀ server : Server,
      (serve shape request (upstreamGates server ++ proxyRows.map Row.layer)).2 =
          some (.handled endpoint) ↔
        routeRows proxyRows request = some (.handled endpoint) := by
    intro server
    rw [proxy_handled_iff, hrest]
    exact and_iff_left nofun
  have hpasses : Passes parseUrl { server with verdict, hasGithubToken } request ↔
      Passes parseUrl server request :=
    ⟨fun h => ⟨h.method, h.origin, h.key⟩, fun h => ⟨h.method, h.origin, h.key⟩⟩
  rw [publicApp, publicApp, respond_eq_handled_iff, respond_eq_handled_iff, hpasses]
  refine and_congr_right fun _ => ?_
  rw [answer_append openLayers, answer_append openLayers, Option.or_eq_some_iff,
    Option.or_eq_some_iff, hproxy, hproxy]

theorem gates_only_upstream_usage :
    (respond (publicApp (fun _ => none)
      { enforcingServer "client-key" with
        verdict := ⟨"1.0.0", some "2.0.0", true⟩, hasGithubToken := false })
      { requestWith "client-key" with method := "GET", path := "/usage" }).2 =
        .handled .usage :=
  (gates_only_upstream (fun _ => none) (enforcingServer "client-key") _ rfl _ _).2
    (by decide +kernel)

/-! ## The control surface -/

theorem debugState_handled {endpoint : Endpoint}
    (h : (serve shape request [debugState server]).2 = some (.handled endpoint)) :
    endpoint = .debugState ∧ (patternOf "/_debug/state").fits (shape.path request) = true := by
  cases hrun : (debugState server).run shape request with
  | next effects =>
    rw [serve_cons_of_next hrun] at h
    cases h
  | answer answer =>
    rw [serve_cons_of_answer hrun] at h
    obtain rfl := Option.some.inj h
    rw [debugState, Layer.run] at hrun
    split at hrun
    · next hfits =>
      split at hrun
      · cases hrun
        exact ⟨rfl, (Bool.and_eq_true_iff.1 hfits).2⟩
      · cases hrun
    · cases hrun

theorem isCsrfGuardedPath_of_fits {base : String} (hbase : base ∈ CSRF_GUARDED_PREFIXES)
    (h : (under base).fits (shape.path request) = true) :
    isCsrfGuardedPath request.path = true :=
  List.any_eq_true.2 ⟨base, hbase, pathMatchesPrefix_iff.2 h⟩

theorem isCsrfGuardedPath_debugState
    (h : (patternOf "/_debug/state").fits (shape.path request) = true) :
    isCsrfGuardedPath request.path = true := by
  have hcovers : (under "/_debug/state").covers (patternOf "/_debug/state") = true := by
    decide +kernel
  exact isCsrfGuardedPath_of_fits (by decide) (Pattern.fits_of_covers hcovers h)

theorem isCsrfGuardedPath_shutdown
    (h : (patternOf "/_internal/shutdown").fits (shape.path request) = true) :
    isCsrfGuardedPath request.path = true := by
  have hcovers : (under "/_internal").covers (patternOf "/_internal/shutdown") = true := by
    decide +kernel
  exact isCsrfGuardedPath_of_fits (by decide) (Pattern.fits_of_covers hcovers h)

/-- A request from an origin that is not allowed is refused where the guard stands, and nothing
happens. -/
theorem respond_foreign {layers : List AppLayer} (hguarded : isCsrfGuardedPath request.path = true)
    (horigin : isAllowedOrigin parseUrl (request.header "origin") server.controlPort = false) :
    respond (commonMiddleware parseUrl server ++ layers) request =
      ([], if request.method = "OPTIONS" then .preflight none else .csrfError) := by
  have hanswer : (cors parseUrl server request).or (originGuard parseUrl server request) =
      some (if request.method = "OPTIONS" then .preflight none else .csrfError) := by
    have hguard : originGuard parseUrl server request = some .csrfError := by
      rw [originGuard, if_pos ⟨hguarded, by rw [horigin]; exact Bool.false_ne_true⟩]
    rw [hguard, cors]
    by_cases hmethod : request.method = "OPTIONS"
    · rw [if_pos hmethod, if_pos hmethod, Option.some_or, corsOrigin]
      cases hheader : request.header "origin" with
      | none =>
        rw [hheader] at horigin
        cases horigin
      | some origin =>
        rw [hheader] at horigin
        rw [Option.getD_some, if_neg fun h => Bool.false_ne_true (horigin.symm.trans h.2)]
    · rw [if_neg hmethod, if_neg hmethod, Option.none_or]
  have hserve : serve shape request (commonMiddleware parseUrl server) =
      ([], some (if request.method = "OPTIONS" then .preflight none else .csrfError)) := by
    rw [serve_commonMiddleware, hanswer]
  have hsome : (serve shape request (commonMiddleware parseUrl server)).2 =
      some (if request.method = "OPTIONS" then .preflight none else .csrfError) := by
    rw [hserve]
  rw [respond, serve_append_of_answer hsome, hserve, Option.getD_some]

theorem controlApp_handled {endpoint : Endpoint}
    (h : (respond (controlApp parseUrl server) request).2 = .handled endpoint) :
    Passes parseUrl server request ∧ isCsrfGuardedPath request.path = true ∧
      (endpoint = .debugState ∨
        (∃ method path, endpoint = .control method path) ∧ isLoopbackAddress request.ip = true) := by
  rw [controlApp, respond_eq_handled_iff, answer_gate_cons, Option.or_eq_some_iff] at h
  obtain ⟨hpasses, hgate | ⟨hgate, h⟩⟩ := h
  · rw [Option.ite_none_right_eq_some] at hgate
    obtain ⟨-, hgate⟩ := hgate
    unfold loopbackGate at hgate
    split at hgate <;> cases hgate
  rw [answer_rows_append, Option.or_eq_some_iff] at h
  obtain hcontrol | ⟨-, hdebug⟩ := h
  · obtain ⟨row, hrow, hanswer, -, hfits⟩ := dispatch_eq_some hcontrol
    obtain ⟨hguarded, hloopback, -⟩ := controlRows_guarded row hrow
    rw [if_pos (Pattern.fits_of_covers hloopback hfits)] at hgate
    obtain ⟨⟨method, path⟩, -, rfl⟩ := List.mem_map.1 hrow
    refine ⟨hpasses, isCsrfGuardedPath_of_fits (by decide)
      (Pattern.fits_of_covers hguarded hfits), .inr ⟨⟨method, path, ?_⟩, ?_⟩⟩
    · cases hanswer
      rfl
    · unfold loopbackGate at hgate
      split at hgate
      · assumption
      · cases hgate
  · obtain ⟨hendpoint, hfits⟩ := debugState_handled hdebug
    exact ⟨hpasses, isCsrfGuardedPath_debugState hfits, .inl hendpoint⟩

theorem publicApp_handled {endpoint : Endpoint}
    (h : (respond (publicApp parseUrl server) request).2 = .handled endpoint) :
    Passes parseUrl server request ∧
      (endpoint.isControl = true →
        endpoint = .shutdown ∧ isCsrfGuardedPath request.path = true ∧
          isLoopbackAddress request.ip = true) := by
  rw [publicApp, respond_eq_handled_iff, answer_append, Option.or_eq_some_iff, openLayers,
    answer_rows_append, Option.or_eq_some_iff, proxy_handled_iff] at h
  obtain ⟨hpasses, h⟩ := h
  refine ⟨hpasses, fun hcontrol => ?_⟩
  have hrows : ∀ rows : List (Row Answer), (∀ row ∈ rows, row.answer.isControl = false) →
      routeRows rows request ≠ some (.handled endpoint) := by
    intro rows hrows hdispatch
    have hclosed : endpoint.isControl = false :=
      dispatch_forall (p := fun a => a.isControl = false) hrows hdispatch
    rw [hcontrol] at hclosed
    cases hclosed
  obtain (hidentity | ⟨-, hopen⟩) | ⟨-, hproxy, -⟩ := h
  · exact absurd hidentity (hrows _ (by decide))
  · cases hshutdown : shutdown.run shape request with
    | answer answer =>
      rw [serve_cons_of_answer hshutdown] at hopen
      obtain rfl := Option.some.inj hopen
      obtain ⟨hfits, hloopback, hendpoint⟩ := shutdown_handled hshutdown
      exact ⟨hendpoint, isCsrfGuardedPath_shutdown hfits, hloopback⟩
    | next effects =>
      rw [serve_cons_of_next hshutdown, answer_rows] at hopen
      exact absurd hopen (hrows _ (by decide))
  · exact absurd hproxy (hrows _ (by decide))

/-- The control surface is on the control listener, except for the shutdown, and answers peers of
this machine that come from no foreign page; a foreign page has no effect there on either
listener. -/
theorem control_guarded (parseUrl : UrlParser) (server : Server) (request : HttpRequest) :
    (∀ endpoint, (respond (controlApp parseUrl server) request).2 = .handled endpoint →
      endpoint.isControl = true ∧ endpoint ≠ .shutdown ∧
        isAllowedOrigin parseUrl (request.header "origin") server.controlPort = true ∧
        (endpoint ≠ .debugState → isLoopbackAddress request.ip = true)) ∧
    (∀ endpoint, (respond (publicApp parseUrl server) request).2 = .handled endpoint →
      endpoint.isControl = true →
        endpoint = .shutdown ∧
          isAllowedOrigin parseUrl (request.header "origin") server.controlPort = true ∧
          isLoopbackAddress request.ip = true) ∧
    (isCsrfGuardedPath request.path = true →
      isAllowedOrigin parseUrl (request.header "origin") server.controlPort = false →
        ∀ app ∈ [publicApp parseUrl server, controlApp parseUrl server],
          respond app request =
            ([], if request.method = "OPTIONS" then .preflight none else .csrfError)) := by
  refine ⟨fun endpoint h => ?_, fun endpoint h hcontrol => ?_, fun hguarded horigin app happ => ?_⟩
  · obtain ⟨hpasses, hguarded, rfl | ⟨⟨method, path, rfl⟩, hloopback⟩⟩ := controlApp_handled h
    · exact ⟨rfl, nofun, hpasses.origin hguarded, fun hne => absurd rfl hne⟩
    · exact ⟨rfl, nofun, hpasses.origin hguarded, fun _ => hloopback⟩
  · obtain ⟨hpasses, hshutdown⟩ := publicApp_handled h
    obtain ⟨hendpoint, hguarded, hloopback⟩ := hshutdown hcontrol
    exact ⟨hendpoint, hpasses.origin hguarded, hloopback⟩
  · obtain rfl | rfl := List.mem_pair.1 happ <;> exact respond_foreign hguarded horigin

/-- A page of another origin asks for a switch of the account. -/
def foreignSwitch : HttpRequest where
  method := "POST"
  path := "/control/accounts/switch"
  header name := if name = "origin" then some "https://page.example" else none
  ip := some "127.0.0.1"

theorem control_guarded_foreign :
    respond (controlApp (fun _ => none) (enforcingServer "client-key")) foreignSwitch =
      ([], .csrfError) := by
  obtain ⟨-, -, hforeign⟩ := control_guarded (fun _ => none) (enforcingServer "client-key")
    foreignSwitch
  exact hforeign (by decide +kernel) rfl _ (List.mem_pair.2 (.inr rfl))

end

end Apps

end Maximal.Http
