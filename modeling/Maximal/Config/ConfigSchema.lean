import Maximal.Lib.Js.Schema

/-!
# The shape of the configuration

What `config.json` has to look like. Keys that are not known are kept at the top level only: the
objects below it are not loose.

## Main definitions

- `API_KEY_VALUE_PATTERN`, `ApiKeyEntrySchema`, `AppConfigSchema`
- `validateAppConfig` — the configuration, if the value has its shape
-/

namespace Maximal.Config

open Js

abbrev Fields := List (String × Json)

/-! ## Checks -/

def isFinite : Number → Bool
  | .finite _ _ => true
  | _ => false

/-- `z.number().int().min(lo).max(hi)`. -/
def isIntBetween (lo hi : ℤ) : Number → Bool
  | .finite m e =>
    let ten : ℤ := 10 ^ (-e).toNat
    let n := m * 10 ^ e.toNat / ten
    m * 10 ^ e.toNat % ten = 0 && lo ≤ n && n ≤ hi
  | _ => false

/-- `z.string().min(lo).max(hi)`. -/
def hasLength (lo hi : ℕ) (s : String) : Bool :=
  lo ≤ Json.utf16Length s && Json.utf16Length s ≤ hi

def isNonEmpty (s : String) : Bool := 1 ≤ Json.utf16Length s

/-- `z.string()`. -/
def anyString : Schema := .string fun _ => true

def anyNumber : Schema := .number isFinite

def enum (values : List String) : Schema := .string fun s => s ∈ values

def isWord (c : Char) : Bool := c.isAlphanum || c = '_'

/-- `/^(?:\*|[\w-]{8,128})$/`. -/
def API_KEY_VALUE_PATTERN (key : String) : Bool :=
  let cs := key.toList
  cs = ['*'] || (cs.all fun c => isWord c || c = '-') && 8 ≤ cs.length && cs.length ≤ 128

/-! ## Schemas -/

def ProviderAuthTypeSchema : Schema := enum ["authorization", "x-api-key"]

def ModelConfigSchema : Schema :=
  .object false <|
    .cons "temperature" true anyNumber <|
    .cons "topP" true anyNumber <|
    .cons "topK" true anyNumber .nil

def ProviderConfigSchema : Schema :=
  .object false <|
    .cons "type" true anyString <|
    .cons "enabled" true .boolean <|
    .cons "baseUrl" true anyString <|
    .cons "apiKey" true anyString <|
    .cons "authType" true ProviderAuthTypeSchema <|
    .cons "models" true (.record ModelConfigSchema) <|
    .cons "adjustInputTokens" true .boolean .nil

def ReasoningEffortSchema : Schema :=
  enum ["none", "minimal", "low", "medium", "high", "xhigh", "max"]

def ApiKeyEntrySchema : Schema :=
  .object false <|
    .cons "id" false (.string isNonEmpty) <|
    .cons "label" false (.string (hasLength 1 64)) <|
    .cons "key" false (.string API_KEY_VALUE_PATTERN) <|
    .cons "enabled" false .boolean <|
    .cons "created_at" false anyString .nil

def AuthSchema : Schema :=
  .object false <|
    .cons "apiKeys" true (.array anyString) <|
    .cons "apiKeyEntries" true (.array ApiKeyEntrySchema) <|
    .cons "enforce" true .boolean .nil

/-- The switch of an app. -/
def AppSchema : Schema := .object false (.cons "enabled" true .boolean .nil)

def AppsSchema : Schema :=
  .object false <|
    .cons "claudeCode" true AppSchema <|
    .cons "claudeDesktop" true AppSchema .nil

def ServerSchema : Schema :=
  .object false (.cons "portPolicy" true (enum ["next", "fail", "replace"]) .nil)

def UiSchema : Schema := .object false (.cons "menuBarOnly" true .boolean .nil)

def AppConfigShape : Shape :=
  .cons "auth" true AuthSchema <|
  .cons "providers" true (.record ProviderConfigSchema) <|
  .cons "extraPrompts" true (.record anyString) <|
  .cons "smallModel" true anyString <|
  .cons "responsesApiContextManagementModels" true (.array anyString) <|
  .cons "promptCacheRetention" true (enum ["in_memory", "24h"]) <|
  .cons "modelReasoningEfforts" true (.record ReasoningEffortSchema) <|
  .cons "useFunctionApplyPatch" true .boolean <|
  .cons "useMessagesApi" true .boolean <|
  .cons "anthropicApiKey" true anyString <|
  .cons "useResponsesApiWebSearch" true .boolean <|
  .cons "claudeTokenMultiplier" true anyNumber <|
  .cons "logRetentionDays" true (.number (isIntBetween 0 3650)) <|
  .cons "tokenUsageRetentionDays" true (.number (isIntBetween 0 3650)) <|
  .cons "autoRecoverAccount" true .boolean <|
  .cons "checkUpdates" true .boolean <|
  .cons "enforceVersionFloor" true .boolean <|
  .cons "editorVersion" true anyString <|
  .cons "apps" true AppsSchema <|
  .cons "server" true ServerSchema <|
  .cons "ui" true UiSchema .nil

def AppConfigSchema : Schema := .object true AppConfigShape

/-- An object with the shape of a configuration; where there is none, this throws. -/
def validateAppConfig (raw : Json) : Option Fields :=
  match AppConfigSchema.parse raw with
  | some (.object config) => some config
  | _ => none

theorem parse_of_validate {raw : Json} {config : Fields} (h : validateAppConfig raw = some config) :
    AppConfigSchema.parse raw = some (.object config) := by
  rw [validateAppConfig] at h
  split at h
  · next hparse => rw [hparse, Option.some.inj h]
  · cases h

end Maximal.Config
