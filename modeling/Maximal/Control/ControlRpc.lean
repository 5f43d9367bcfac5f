import Maximal.Control.RpcDispatch
import Mathlib.Data.List.Sort

/-!
# The methods of the control endpoint

`server/discover` advertises the methods of the registry. The dispatcher also finds what the registry
inherits.

## Main definitions

- `createControlRpcMethods`, `discoverMethods` — the registry and what it advertises
- `Closed` — only advertised methods run, and every message is answered as it should be
- `Answerable` — the method is no inherited name, and its result has a JSON text

## Main results

- `closed_iff` — when an exchange is closed
-/

namespace Maximal.Control

open Js Json

/-- The own methods, in the order of the source. -/
def controlMethods : List String :=
  ["health", "auth/status", "accounts/list", "apps/list", "models/list", "usage/get", "config/get",
    "clients/list", "update/status", "auth/start", "auth/cancel", "auth/rearm", "auth/signOut",
    "models/refresh", "accounts/switch", "accounts/remove", "subscriptions/listen", "app/quit",
    "app/upgrade"]

/-- What a method other than the subscription settles with. -/
inductive Outcome where
  | value (v : Val)
  | omitted
  | unserialisable (thrown : Thrown)
  | throws (thrown : Thrown)
  deriving Inhabited

def Outcome.settled : Outcome → Settled
  | .value v => .value v
  | .omitted => .omitted
  | .unserialisable thrown => .unserialisable thrown
  | .throws thrown => .throws thrown

/-- What the operations behind the methods do, and what `server/discover` reports. -/
structure ControlRpcDeps where
  operation : String → Val → Outcome
  protocolVersion : Json
  buildVersion : Json
  controlPort : Json
  proxyPort : Json

/-- The methods that `server/discover` advertises. -/
def discoverMethods : List String :=
  (controlMethods ++ ["server/discover"]).mergeSort fun a b => a ≤ b

def serverDiscover (deps : ControlRpcDeps) : Json :=
  .object [("protocolVersion", deps.protocolVersion),
    ("capabilities", .object [("methods", .array (discoverMethods.map .string)),
      ("feed", .bool true)]),
    ("identity", .object [("name", .string "maximal-core"), ("version", deps.buildVersion)]),
    ("ports", .object [("control", deps.controlPort), ("proxy", deps.proxyPort)])]

def createControlRpcMethods (deps : ControlRpcDeps) : RpcRegistry :=
  controlMethods.map (fun method =>
      (method, fun params =>
        if method = "subscriptions/listen" then .response
        else (deps.operation method params).settled)) ++
    [("server/discover", fun _ => .value (some (serverDiscover deps)))]

/-! ## Lookups -/

def objectPrototypeNames : List String := objectPrototype.map Prod.fst

section Lookups

variable (deps : ControlRpcDeps) {method : String}

/-- The handler of an advertised method. -/
def handlerOf (method : String) (params : Val) : Settled :=
  if method = "server/discover" then .value (some (serverDiscover deps))
  else if method = "subscriptions/listen" then .response
  else (deps.operation method params).settled

theorem mem_discoverMethods :
    method ∈ discoverMethods ↔ method ∈ controlMethods ∨ method = "server/discover" := by
  rw [discoverMethods, List.mem_mergeSort, List.mem_append, List.mem_singleton]

theorem get_createControlRpcMethods :
    (createControlRpcMethods deps).get method =
      if method ∈ discoverMethods then some (handlerOf deps method) else none := by
  have hdiscover : "server/discover" ∉ controlMethods := by decide
  rw [createControlRpcMethods, Entries.get_append, Entries.get_map, Entries.get_cons]
  by_cases hcontrol : method ∈ controlMethods
  · have hne : method ≠ "server/discover" := fun heq => hdiscover (heq ▸ hcontrol)
    rw [if_pos hcontrol, if_pos (mem_discoverMethods.2 (.inl hcontrol)), Option.some_or]
    congr 1
    funext params
    rw [handlerOf, if_neg hne]
  · rw [if_neg hcontrol, Option.none_or]
    by_cases heq : method = "server/discover"
    · rw [if_pos heq, if_pos (mem_discoverMethods.2 (.inr heq))]
      congr 1
      funext params
      rw [handlerOf, if_pos heq]
    · rw [if_neg heq, if_neg fun h => (mem_discoverMethods.1 h).elim hcontrol heq, Entries.get_nil]

theorem lookupMethod_advertised (h : method ∈ discoverMethods) :
    lookupMethod (createControlRpcMethods deps) method = some (.function (handlerOf deps method)) := by
  rw [lookupMethod, get_createControlRpcMethods, if_pos h]

theorem inherited_not_advertised (h : method ∈ objectPrototypeNames) : method ∉ discoverMethods := by
  have hapart : ∀ name ∈ objectPrototypeNames, name ∉ discoverMethods := by
    simp only [mem_discoverMethods]
    decide
  exact hapart method h

theorem lookupMethod_inherited (h : method ∈ objectPrototypeNames) :
    ∃ handler, lookupMethod (createControlRpcMethods deps) method = some (.function handler) := by
  have hfound : ∀ name ∈ objectPrototypeNames, (objectPrototype.get name).isSome = true := by decide
  obtain ⟨handler, hhandler⟩ := Option.isSome_iff_exists.1 (hfound method h)
  refine ⟨handler, ?_⟩
  rw [lookupMethod, get_createControlRpcMethods, if_neg (inherited_not_advertised h), hhandler]

theorem lookupMethod_proto :
    lookupMethod (createControlRpcMethods deps) "__proto__" = some .object := by
  have hproto : "__proto__" ∉ discoverMethods := by
    rw [mem_discoverMethods]
    decide
  rw [lookupMethod, get_createControlRpcMethods, if_neg hproto]
  rfl

theorem lookupMethod_unknown (h : method ∉ discoverMethods) (hname : method ∉ objectPrototypeNames)
    (hproto : method ≠ "__proto__") :
    lookupMethod (createControlRpcMethods deps) method = none := by
  rw [lookupMethod, get_createControlRpcMethods, if_neg h, Entries.get_eq_none hname]
  exact if_neg hproto

end Lookups

/-! ## Closed exchanges -/

/-- Only advertised methods run; another one is unknown; a request is answered, and a notification is
not. -/
structure Closed (raw : Json) (exchange : Exchange) : Prop where
  runs : exchange.calls ≠ [] → ∃ method params,
    (IsNotification raw method params ∨ ∃ id, IsRequest raw id method params) ∧
      method ∈ discoverMethods
  quiet : ∀ method params, IsNotification raw method params → method ∉ discoverMethods →
    exchange.calls = []
  unknown : ∀ id method params, IsRequest raw id method params → method ∉ discoverMethods →
    exchange.calls = [] ∧
      errorCode exchange.reply = some (.number (.ofInt JSON_RPC_METHOD_NOT_FOUND))
  answers : ∀ id method params, IsRequest raw id method params → method ≠ "subscriptions/listen" →
    Answers id exchange.reply
  silent : ∀ method params, IsNotification raw method params → ∃ status, exchange.reply = .empty status

/-- The method is no name that every object inherits, and what an advertised one settles with has a
JSON text. -/
structure Answerable (deps : ControlRpcDeps) (raw : Json) : Prop where
  notification : ∀ method params, IsNotification raw method params → method ∉ objectPrototypeNames
  request : ∀ id method params, IsRequest raw id method params →
    method ∉ objectPrototypeNames ∧ method ≠ "__proto__" ∧
      (method ∈ discoverMethods → handlerOf deps method params ≠ .omitted)

section Closed

variable {issues : Issues} {forwardError : ForwardError} {deps : ControlRpcDeps} {raw id : Json}
  {method : String} {params : Val}

/-- A function that is found is advertised or inherited. -/
theorem advertised_of_function {handler : RpcHandler} (hname : method ∉ objectPrototypeNames)
    (h : lookupMethod (createControlRpcMethods deps) method = some (.function handler)) :
    method ∈ discoverMethods := by
  by_contra hunknown
  by_cases hproto : method = "__proto__"
  · rw [hproto, lookupMethod_proto] at h
    cases h
  · rw [lookupMethod_unknown deps hunknown hname hproto] at h
    cases h

theorem handlerOf_ne_response (h : method ≠ "subscriptions/listen") :
    handlerOf deps method params ≠ .response := by
  rw [handlerOf, if_neg h]
  split
  · intro heq
    cases heq
  · cases deps.operation method params <;> exact fun heq => by cases heq

theorem answerable_of_closed
    (h : Closed raw (createRpcHandler issues forwardError (createControlRpcMethods deps) (some raw))) :
    Answerable deps raw where
  notification method params hvalid hname := by
    obtain ⟨handler, hfound⟩ := lookupMethod_inherited deps hname
    have hquiet := h.quiet method params hvalid (inherited_not_advertised hname)
    rw [dispatch_notification hvalid, hfound] at hquiet
    cases hquiet
  request id method params hvalid := by
    refine ⟨fun hname => ?_, ?_, fun hadvertised homitted => ?_⟩
    · obtain ⟨handler, hfound⟩ := lookupMethod_inherited deps hname
      have hquiet := (h.unknown id method params hvalid (inherited_not_advertised hname)).1
      rw [dispatch_request hvalid, hfound] at hquiet
      cases hquiet
    · rintro rfl
      have hproto : "__proto__" ∉ discoverMethods := by
        rw [mem_discoverMethods]
        decide
      have hcode := (h.unknown id _ params hvalid hproto).2
      rw [dispatch_request hvalid, lookupMethod_proto] at hcode
      exact errorCode_replyThrown id _ hcode
    · have hlisten : method ≠ "subscriptions/listen" := by
        rintro rfl
        cases homitted
      have hanswers := h.answers id method params hvalid hlisten
      rw [dispatch_request hvalid, lookupMethod_advertised deps hadvertised] at hanswers
      exact (answers_replySettled (handlerOf_ne_response hlisten)).1 hanswers homitted

theorem closed_of_answerable (h : Answerable deps raw) :
    Closed raw
      (createRpcHandler issues forwardError (createControlRpcMethods deps) (some raw)) where
  runs hcalls := by
    obtain ⟨method, params, handler, hvalid, hfound, -⟩ := dispatch_calls hcalls
    have hname : method ∉ objectPrototypeNames := by
      obtain hnotification | ⟨id, hrequest⟩ := hvalid
      · exact h.notification method params hnotification
      · exact (h.request id method params hrequest).1
    exact ⟨method, params, hvalid, advertised_of_function hname hfound⟩
  quiet method params hvalid hunknown := by
    rw [dispatch_notification hvalid]
    split
    · next handler hfound =>
      exact absurd (advertised_of_function (h.notification method params hvalid) hfound) hunknown
    · rfl
  unknown id method params hvalid hunknown := by
    obtain ⟨hname, hproto, -⟩ := h.request id method params hvalid
    rw [dispatch_request hvalid, lookupMethod_unknown deps hunknown hname hproto]
    exact ⟨rfl, errorCode_errorResponse _ _⟩
  answers id method params hvalid hlisten := by
    obtain ⟨hname, hproto, hresult⟩ := h.request id method params hvalid
    by_cases hadvertised : method ∈ discoverMethods
    · rw [dispatch_request hvalid, lookupMethod_advertised deps hadvertised]
      exact (answers_replySettled (handlerOf_ne_response hlisten)).2 (hresult hadvertised)
    · rw [dispatch_request hvalid, lookupMethod_unknown deps hadvertised hname hproto]
      exact answers_errorResponse _ _
  silent method params hvalid := by
    rw [dispatch_notification hvalid]
    split
    · exact ⟨202, rfl⟩
    · exact ⟨202, rfl⟩

/-- Every exchange is closed but for the messages whose method is inherited by every object, and the
requests whose handler settles with a value that has no JSON text. -/
theorem closed_iff (issues : Issues) (forwardError : ForwardError) (deps : ControlRpcDeps)
    (raw : Json) :
    Closed raw (createRpcHandler issues forwardError (createControlRpcMethods deps) (some raw)) ↔
      Answerable deps raw :=
  ⟨answerable_of_closed, closed_of_answerable⟩

def requestOf (method : String) : Json :=
  .object [("jsonrpc", .string "2.0"), ("id", .number (.ofNat 1)), ("method", .string method)]

/-- `toString` is found, called, and its text returned. -/
theorem not_closed :
    ¬ ∀ (issues : Issues) (forwardError : ForwardError) (deps : ControlRpcDeps) (raw : Json),
      Closed raw
        (createRpcHandler issues forwardError (createControlRpcMethods deps) (some raw)) := by
  intro h
  have hvalid : IsRequest (requestOf "toString") (.number (.ofNat 1)) "toString" none :=
    ⟨rfl, rfl, rfl, rfl, by decide, rfl, by decide, rfl⟩
  have hname : "toString" ∈ objectPrototypeNames := by decide
  have hclosed := h (fun _ => []) (fun _ => none) ⟨fun _ _ => .value none, .null, .null, .null, .null⟩
    (requestOf "toString")
  exact ((answerable_of_closed hclosed).request _ _ _ hvalid).1 hname

end Closed

end Maximal.Control
