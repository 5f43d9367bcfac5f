import Maximal.Lib.Js.Equality
import Maximal.Lib.Js.Map

/-!
# RPC dispatch

One endpoint reads a JSON-RPC message and looks up its method in an object of handlers. An object has
the properties of `Object.prototype` too, so that the lookup finds them for methods of these names.

## Main definitions

- `parseEnvelope` — a request, a notification, or an error
- `toJsonRpcError` — the error object for what a handler throws
- `lookupMethod` — `registry[method]`
- `createRpcHandler` — what a body runs and how it is answered

## Main results

- `parseEnvelope_request_iff`, `parseEnvelope_notification_iff` — the messages that are valid
- `dispatch_request`, `dispatch_notification` — the exchange for a valid message
-/

namespace Maximal.Control

open Js Json

/-! ## Errors -/

def JSON_RPC_PARSE_ERROR : ℤ := -32700
def JSON_RPC_INVALID_REQUEST : ℤ := -32600
def JSON_RPC_METHOD_NOT_FOUND : ℤ := -32601
def JSON_RPC_INVALID_PARAMS : ℤ := -32602
def JSON_RPC_INTERNAL_ERROR : ℤ := -32603

def CONTROL_UPSTREAM_ERROR : ℤ := 1001
def CONTROL_AUTH_FATAL : ℤ := 1002
def CONTROL_AUTH_RETRY : ℤ := 1003
def CONTROL_UNSUPPORTED_VERSION : ℤ := 1004

inductive ControlErrorReason where
  | upstream_error
  | auth_fatal
  | auth_retry
  | unsupported_version
  | internal
  deriving DecidableEq

def codeForReason : ControlErrorReason → ℤ
  | .upstream_error => CONTROL_UPSTREAM_ERROR
  | .auth_fatal => CONTROL_AUTH_FATAL
  | .auth_retry => CONTROL_AUTH_RETRY
  | .unsupported_version => CONTROL_UNSUPPORTED_VERSION
  | .internal => JSON_RPC_INTERNAL_ERROR

def ControlErrorReason.text : ControlErrorReason → String
  | .upstream_error => "upstream_error"
  | .auth_fatal => "auth_fatal"
  | .auth_retry => "auth_retry"
  | .unsupported_version => "unsupported_version"
  | .internal => "internal"

def controlErrorData (reason : ControlErrorReason) (retryable : Bool)
    (remediationUrl : Option String) : Json :=
  .object ([("reason", .string reason.text), ("retryable", .bool retryable)] ++
    (remediationUrl.map fun url => ("remediationUrl", Json.string url)).toList)

structure JsonRpcErrorObject where
  code : ℤ
  message : String
  data : Val

def jsonRpcError (code : ℤ) (message : String) (data : Val := none) : JsonRpcErrorObject :=
  ⟨code, message, data⟩

def controlError (reason : ControlErrorReason) (message : String) (remediationUrl : Option String) :
    JsonRpcErrorObject :=
  jsonRpcError (codeForReason reason) message
    (some (controlErrorData reason (reason = .auth_retry) remediationUrl))

def reasonForErrorType (type : Val) (status : ℕ) : ControlErrorReason :=
  if type = some (.string "auth_fatal") then .auth_fatal
  else if type = some (.string "server_error") ∧ status = 503 then .auth_retry
  else .upstream_error

/-- What a handler may throw. -/
inductive Thrown where
  /-- An `RpcParamsError`. -/
  | params (message : String)
  | error (message : String)
  | notAnError

/-- `forwardError`: the status of its response and the body as it parses; it may itself throw. -/
abbrev ForwardError := Thrown → Option (ℕ × Val)

def internalError (code : ℤ) (message : String) : JsonRpcErrorObject :=
  jsonRpcError code message (some (controlErrorData .internal false none))

/-- The error for the response of `forwardError`, whose body may not parse or be `null`. -/
def errorOfResponse (status : ℕ) (body : Val) : JsonRpcErrorObject :=
  match body.prop "error" with
  | .error _ => internalError JSON_RPC_INTERNAL_ERROR "Internal error"
  | .ok error =>
    controlError (reasonForErrorType (error.optProp "type") status)
      ((error.optProp "message").asString.getD "Internal error")
      (error.optProp "remediation_url").asString

/-- `none` when `forwardError` throws. -/
def toJsonRpcError (forwardError : ForwardError) : Thrown → Option JsonRpcErrorObject
  | .params message => some (internalError JSON_RPC_INVALID_PARAMS message)
  | .error message => (forwardError (.error message)).map fun (status, body) =>
    errorOfResponse status body
  | .notAnError => (forwardError .notAnError).map fun (status, body) => errorOfResponse status body

/-! ## Messages -/

inductive ParsedMessage where
  | request (id : Json) (method : String) (params : Val)
  | notification (method : String) (params : Val)

def ParsedMessage.method : ParsedMessage → String
  | .request _ method _ => method
  | .notification method _ => method

/-- `{ jsonrpc, id, error }`, without an id that could not be read. -/
def errorResponse (id : Val) (error : JsonRpcErrorObject) : Json :=
  .object ([("jsonrpc", .string "2.0")] ++ (id.map fun id => ("id", id)).toList ++
    [("error", .object ([("code", .number (.ofInt error.code)), ("message", .string error.message)] ++
      (error.data.map fun data => ("data", data)).toList))])

/-- `{ jsonrpc, id, result }`; a result that has no JSON text is left out. -/
def successResponse (id : Json) (result : Val) : Json :=
  .object ([("jsonrpc", .string "2.0"), ("id", id)] ++
    (result.map fun result => ("result", result)).toList)

/-- A number that `z.number().int()` takes. -/
def isSafeInteger : Number → Bool
  | .finite m e =>
    if 0 ≤ e then (m * 10 ^ e.toNat).natAbs ≤ 9007199254740991
    else m % 10 ^ (-e).toNat = 0 ∧ (m / 10 ^ (-e).toNat).natAbs ≤ 9007199254740991
  | _ => false

/-- `idSchema` -/
def isId : Json → Bool
  | .string _ => true
  | .number n => isSafeInteger n
  | _ => false

/-- The messages of `jsonRpcRequestSchema.safeParse` for an envelope it refuses. -/
abbrev Issues := Json → List String

def parseEnvelope (issues : Issues) (raw : Json) : Except (JsonRpcErrorObject × Val) ParsedMessage :=
  match raw with
  | .array _ =>
    .error (jsonRpcError JSON_RPC_INVALID_REQUEST "Batch requests are not supported", none)
  | .object _ =>
    if (raw.get "result").isSome ∨ (raw.get "error").isSome then
      .error (jsonRpcError JSON_RPC_INVALID_REQUEST "Clients must not send JSON-RPC responses", none)
    else
      match raw.get "id" with
      | none =>
        match raw.get "jsonrpc", raw.get "method" with
        | some (.string "2.0"), some (.string method) => .ok (.notification method (raw.get "params"))
        | _, _ =>
          .error (jsonRpcError JSON_RPC_INVALID_REQUEST "Invalid JSON-RPC 2.0 notification", none)
      | some id =>
        let invalid : JsonRpcErrorObject × Val :=
          (jsonRpcError JSON_RPC_INVALID_REQUEST "Invalid JSON-RPC 2.0 request"
            (some (.object [("issues", .array ((issues raw).map .string))])),
            match id with
            | .string s => some (.string s)
            | .number n => some (.number n)
            | _ => none)
        match raw.get "jsonrpc", raw.get "method" with
        | some (.string "2.0"), some (.string method) =>
          if isId id ∧ method ≠ "" then .ok (.request id method (raw.get "params"))
          else .error invalid
        | _, _ => .error invalid
  | _ => .error (jsonRpcError JSON_RPC_INVALID_REQUEST "Request must be a JSON object", none)

/-! ## Handlers -/

/-- What a handler settles with. -/
inductive Settled where
  | value (v : Val)
  /-- A value that `JSON.stringify` leaves out, such as a function. -/
  | omitted
  /-- A value on which `JSON.stringify` throws. -/
  | unserialisable (thrown : Thrown)
  | throws (thrown : Thrown)
  /-- A `Response`, which takes the place of the reply. -/
  | response

abbrev RpcHandler := Val → Settled

/-- The own properties of the registry. -/
abbrev RpcRegistry := Entries String RpcHandler

def notBound : Settled := .throws (.error "undefined is not an object")

/-- The functions that every object inherits, called without a receiver. -/
def objectPrototype : RpcRegistry :=
  [("constructor", fun params => .value (some (params.orElse (.object [])))),
    ("toString", fun _ => .value (some (.string "[object Undefined]"))),
    ("isPrototypeOf", fun params =>
      if params.asRecord.isSome then notBound else .value (some (.bool false))),
    ("toLocaleString", fun _ => notBound),
    ("valueOf", fun _ => notBound),
    ("hasOwnProperty", fun _ => notBound),
    ("propertyIsEnumerable", fun _ => notBound),
    ("__defineGetter__", fun _ => notBound),
    ("__defineSetter__", fun _ => notBound),
    ("__lookupGetter__", fun _ => notBound),
    ("__lookupSetter__", fun _ => notBound)]

/-- A property that is truthy. -/
inductive Found where
  | function (handler : RpcHandler)
  | object

/-- `registry[method]` -/
def lookupMethod (registry : RpcRegistry) (method : String) : Option Found :=
  match registry.get method with
  | some handler => some (.function handler)
  | none =>
    match objectPrototype.get method with
    | some handler => some (.function handler)
    | none => if method = "__proto__" then some .object else none

/-! ## Dispatch -/

inductive Reply where
  | json (status : ℕ) (body : Json)
  | empty (status : ℕ)
  | response

/-- The functions called for a message, by method, and the reply. -/
structure Exchange where
  calls : List String
  reply : Reply

def Thrown.message : Thrown → String
  | .params message => message
  | .error message => message
  | .notAnError => "Internal error"

def rpcError (forwardError : ForwardError) (thrown : Thrown) : JsonRpcErrorObject :=
  (toJsonRpcError forwardError thrown).getD (jsonRpcError JSON_RPC_INTERNAL_ERROR thrown.message)

/-- The reply to a request whose handler, or whose lack of one, threw. -/
def replyThrown (forwardError : ForwardError) (id : Json) (thrown : Thrown) : Reply :=
  .json 200 (errorResponse (some id) (rpcError forwardError thrown))

def replySettled (forwardError : ForwardError) (id : Json) : Settled → Reply
  | .value v => .json 200 (successResponse id (some (v.getD .null)))
  | .omitted => .json 200 (successResponse id none)
  | .unserialisable thrown => replyThrown forwardError id thrown
  | .throws thrown => replyThrown forwardError id thrown
  | .response => .response

def createRpcHandler (issues : Issues) (forwardError : ForwardError) (registry : RpcRegistry) :
    Option Json → Exchange
  | none =>
    ⟨[], .json 400 (errorResponse none
      (jsonRpcError JSON_RPC_PARSE_ERROR "Request body is not valid JSON"))⟩
  | some raw =>
    match parseEnvelope issues raw with
    | .error (error, id) => ⟨[], .json 400 (errorResponse id error)⟩
    | .ok (.notification method _) =>
      match lookupMethod registry method with
      -- what the handler settles with has nowhere to go
      | some (.function _) => ⟨[method], .empty 202⟩
      | _ => ⟨[], .empty 202⟩
    | .ok (.request id method params) =>
      match lookupMethod registry method with
      | none =>
        ⟨[], .json 200 (errorResponse (some id)
          (jsonRpcError JSON_RPC_METHOD_NOT_FOUND ("Unknown method: " ++ method)))⟩
      | some (.function handler) => ⟨[method], replySettled forwardError id (handler params)⟩
      | some .object =>
        ⟨[], replyThrown forwardError id (.error "handler is not a function")⟩

/-! ## Valid messages -/

/-- A request: not a response, and with an id that can be echoed. -/
def IsRequest (raw id : Json) (method : String) (params : Val) : Prop :=
  raw.get "result" = none ∧ raw.get "error" = none ∧ raw.get "jsonrpc" = some (.string "2.0") ∧
    raw.get "id" = some id ∧ isId id = true ∧ raw.get "method" = some (.string method) ∧
    method ≠ "" ∧ raw.get "params" = params

def IsNotification (raw : Json) (method : String) (params : Val) : Prop :=
  raw.get "result" = none ∧ raw.get "error" = none ∧ raw.get "jsonrpc" = some (.string "2.0") ∧
    raw.get "id" = none ∧ raw.get "method" = some (.string method) ∧ raw.get "params" = params

/-- Only an object has a field that is not a length. -/
theorem object_of_get {raw v : Json} {k : String} (h : raw.get k = some v) (hk : k ≠ "length") :
    ∃ fields, raw = .object fields := by
  cases raw with
  | object fields => exact ⟨fields, rfl⟩
  | array items => rw [Json.get, if_neg hk] at h; cases h
  | string s => rw [Json.get, if_neg hk] at h; cases h
  | _ => cases h

section Parse

variable {issues : Issues} {raw id : Json} {method : String} {params : Val}

theorem parseEnvelope_request_iff :
    parseEnvelope issues raw = .ok (.request id method params) ↔ IsRequest raw id method params := by
  constructor
  · intro h
    cases raw with
    | object fields =>
      rw [parseEnvelope] at h
      split at h
      · cases h
      · next hresponse =>
        obtain ⟨hresult, herror⟩ := not_or.1 hresponse
        split at h
        · split at h <;> cases h
        · next id' hid =>
          dsimp only at h
          split at h
          · next hjsonrpc hmethod =>
            split at h
            · next hvalid =>
              cases h
              exact ⟨by simpa using hresult, by simpa using herror, hjsonrpc, hid, hvalid.1, hmethod,
                hvalid.2, rfl⟩
            · cases h
          · cases h
    | _ => cases h
  · rintro ⟨hresult, herror, hjsonrpc, hid, hvalid, hmethod, hne, rfl⟩
    obtain ⟨fields, rfl⟩ := object_of_get hid (by decide)
    rw [parseEnvelope, if_neg (by simp [hresult, herror]), hid]
    simp only [hjsonrpc, hmethod, hvalid, ne_eq, hne, not_false_eq_true, and_self, if_true]

theorem parseEnvelope_notification_iff :
    parseEnvelope issues raw = .ok (.notification method params) ↔
      IsNotification raw method params := by
  constructor
  · intro h
    cases raw with
    | object fields =>
      rw [parseEnvelope] at h
      split at h
      · cases h
      · next hresponse =>
        obtain ⟨hresult, herror⟩ := not_or.1 hresponse
        split at h
        · next hid =>
          split at h
          · next hjsonrpc hmethod =>
            cases h
            exact ⟨by simpa using hresult, by simpa using herror, hjsonrpc, hid, hmethod, rfl⟩
          · cases h
        · dsimp only at h
          split at h
          · split at h <;> cases h
          · cases h
    | _ => cases h
  · rintro ⟨hresult, herror, hjsonrpc, hid, hmethod, rfl⟩
    obtain ⟨fields, rfl⟩ := object_of_get hjsonrpc (by decide)
    rw [parseEnvelope, if_neg (by simp [hresult, herror]), hid]
    simp only [hjsonrpc, hmethod]

end Parse

/-! ## Exchanges -/

section Exchanges

variable {issues : Issues} {forwardError : ForwardError} {registry : RpcRegistry}
  {raw id : Json} {method : String} {params : Val}

theorem dispatch_notification (h : IsNotification raw method params) :
    createRpcHandler issues forwardError registry (some raw) =
      match lookupMethod registry method with
      | some (.function _) => ⟨[method], .empty 202⟩
      | _ => ⟨[], .empty 202⟩ := by
  rw [createRpcHandler, parseEnvelope_notification_iff.2 h]

theorem dispatch_request (h : IsRequest raw id method params) :
    createRpcHandler issues forwardError registry (some raw) =
      match lookupMethod registry method with
      | none =>
        ⟨[], .json 200 (errorResponse (some id)
          (jsonRpcError JSON_RPC_METHOD_NOT_FOUND ("Unknown method: " ++ method)))⟩
      | some (.function handler) => ⟨[method], replySettled forwardError id (handler params)⟩
      | some .object => ⟨[], replyThrown forwardError id (.error "handler is not a function")⟩ := by
  rw [createRpcHandler, parseEnvelope_request_iff.2 h]

/-- What is not a valid message runs nothing. -/
theorem dispatch_calls
    (h : (createRpcHandler issues forwardError registry (some raw)).calls ≠ []) :
    ∃ method params handler, (IsNotification raw method params ∨ ∃ id, IsRequest raw id method params) ∧
      lookupMethod registry method = some (.function handler) ∧
      (createRpcHandler issues forwardError registry (some raw)).calls = [method] := by
  cases hparse : parseEnvelope issues raw with
  | error e =>
    rw [createRpcHandler, hparse] at h
    exact absurd rfl h
  | ok message =>
    cases message with
    | notification method params =>
      have hvalid := parseEnvelope_notification_iff.1 hparse
      rw [dispatch_notification hvalid] at h ⊢
      split at h
      · next handler hfound => exact ⟨method, params, handler, .inl hvalid, hfound, rfl⟩
      · exact absurd rfl h
    | request id method params =>
      have hvalid := parseEnvelope_request_iff.1 hparse
      rw [dispatch_request hvalid] at h ⊢
      split at h
      · exact absurd rfl h
      · next handler hfound =>
        exact ⟨method, params, handler, .inr ⟨id, hvalid⟩, hfound, rfl⟩
      · exact absurd rfl h

/-! ### Replies -/

/-- The reply echoes the id with a result or an error, but not both. -/
def Answers (id : Json) (reply : Reply) : Prop :=
  ∃ status body, reply = .json status body ∧ body.get "id" = some id ∧
    ((body.get "result").isSome = true ↔ body.get "error" = none)

theorem answers_errorResponse (status : ℕ) (error : JsonRpcErrorObject) :
    Answers id (.json status (errorResponse (some id) error)) :=
  ⟨status, _, rfl, rfl, iff_of_false Bool.false_ne_true (Option.some_ne_none _)⟩

theorem answers_successResponse (status : ℕ) (result : Val) :
    Answers id (.json status (successResponse id result)) ↔ result.isSome = true := by
  constructor
  · rintro ⟨status, body, heq, -, hone⟩
    cases heq
    cases result with
    | none => exact absurd (hone.2 rfl) Bool.false_ne_true
    | some v => rfl
  · intro h
    obtain ⟨v, rfl⟩ := Option.isSome_iff_exists.1 h
    exact ⟨status, _, rfl, rfl, ⟨fun _ => rfl, fun _ => rfl⟩⟩

theorem answers_replySettled {settled : Settled} (hresponse : settled ≠ .response) :
    Answers id (replySettled forwardError id settled) ↔ settled ≠ .omitted := by
  cases settled with
  | value v => exact iff_of_true ((answers_successResponse _ _).2 rfl) fun h => by cases h
  | omitted =>
    refine iff_of_false (fun h => ?_) (not_not.2 rfl)
    exact Bool.false_ne_true ((answers_successResponse _ _).1 h)
  | unserialisable thrown => exact iff_of_true (answers_errorResponse _ _) fun h => by cases h
  | throws thrown => exact iff_of_true (answers_errorResponse _ _) fun h => by cases h
  | response => exact absurd rfl hresponse

/-- The code of the error that a reply carries. -/
def errorCode : Reply → Val
  | .json _ body => (body.get "error").optProp "code"
  | _ => none

theorem errorCode_errorResponse (status : ℕ) (error : JsonRpcErrorObject) :
    errorCode (.json status (errorResponse (some id) error)) =
      some (.number (.ofInt error.code)) := rfl

theorem codeForReason_ne (reason : ControlErrorReason) :
    codeForReason reason ≠ JSON_RPC_METHOD_NOT_FOUND := by
  cases reason <;> decide

theorem errorOfResponse_code (status : ℕ) (body : Val) :
    (errorOfResponse status body).code ≠ JSON_RPC_METHOD_NOT_FOUND := by
  rw [errorOfResponse]
  cases body.prop "error" with
  | error _ => exact codeForReason_ne .internal
  | ok error => exact codeForReason_ne _

theorem rpcError_code (thrown : Thrown) :
    (rpcError forwardError thrown).code ≠ JSON_RPC_METHOD_NOT_FOUND := by
  have hparams : JSON_RPC_INVALID_PARAMS ≠ JSON_RPC_METHOD_NOT_FOUND := by decide
  have hforward : ∀ (response : Option (ℕ × Val)) (message : String),
      ((response.map fun r => errorOfResponse r.1 r.2).getD
        (jsonRpcError JSON_RPC_INTERNAL_ERROR message)).code ≠ JSON_RPC_METHOD_NOT_FOUND := by
    intro response message
    cases response with
    | none => exact codeForReason_ne .internal
    | some response => exact errorOfResponse_code response.1 response.2
  cases thrown with
  | params message => exact hparams
  | error message => exact hforward _ _
  | notAnError => exact hforward _ _

/-- Nothing that is thrown is answered like an unknown method. -/
theorem errorCode_replyThrown (id : Json) (thrown : Thrown) :
    errorCode (replyThrown forwardError id thrown) ≠
      some (.number (.ofInt JSON_RPC_METHOD_NOT_FOUND)) := by
  rw [replyThrown, errorCode_errorResponse]
  intro h
  rw [Option.some.injEq, number.injEq, Number.ofInt, Number.ofInt, Number.finite.injEq] at h
  exact rpcError_code thrown h.1

end Exchanges

end Maximal.Control
