import Maximal.Auth.ApiKeyHelper
import Maximal.Lib.Js.Equality
import Maximal.Lib.Js.Map

/-!
# The settings of Claude Code

`applyProxyBaseUrl` points Claude Code at the proxy by two fields of its settings file and keeps what
they held in a third one; `revertProxyBaseUrl` puts the two fields back.

## Main definitions

- `SettingsFile`, `readClaudeCodeSettings` — a file that cannot be read as settings reads as `{}`
- `getBaseUrlOwnership`, `getApiKeyHelperOwnership`
- `mergeBaseUrl`, `stripBaseUrl`
- `applyProxyBaseUrl`, `revertProxyBaseUrl`

## Main results

- `get_mergeBaseUrl`, `readEnv_mergeBaseUrl`, `get_stripBaseUrl` — the settings that are written
- `applyProxyBaseUrl_takesOver`, `applyProxyBaseUrl_skips`, `readClaudeCodeSettings_revert` — what a
  call does to the file
-/

namespace Maximal.Apps

open Js Auth

def HELPER_LABEL : String := "claude-code"

def PROXY_BASE_URL : String := "http://127.0.0.1:4141"

def API_KEY_HELPER_COMMAND (binary : Binary) : String :=
  apiKeyHelperCommand (some HELPER_LABEL) binary

def API_KEY_HELPER_KEY : String := "apiKeyHelper"
def BASE_URL_KEY : String := "ANTHROPIC_BASE_URL"
def ENV_KEY : String := "env"
def PRIOR_KEY : String := "_maximalPrior"

/-- What a snapshot holds for a field that was absent. -/
def UNSET : Json := .string "__UNSET__"

/-- The fields of the object that the file holds. -/
abbrev Settings := Entries String Json

/-- The file as `readFileSync` and `JSON.parse` find it. -/
inductive SettingsFile where
  | absent
  | unreadable
  | blank
  | malformed
  | json (value : Json)

def readClaudeCodeSettings : SettingsFile → Settings
  | .json (.object settings) => settings
  | _ => []

/-- What is written reads as it was; a write that fails leaves the file and throws. -/
def writeClaudeCodeSettings (settings : Settings) : SettingsFile := .json (.object settings)

/-! ## Ownership -/

structure PriorSnapshot where
  baseUrl : Json
  apiKeyHelper : Json

def readPriorSnapshot (settings : Settings) : Option PriorSnapshot :=
  match settings.get PRIOR_KEY with
  | some (.object snap) =>
    some ⟨(Entries.get snap BASE_URL_KEY).getD UNSET, (Entries.get snap API_KEY_HELPER_KEY).getD UNSET⟩
  | _ => none

def readEnv (settings : Settings) : Settings :=
  match settings.get ENV_KEY with
  | some (.object env) => env
  | _ => []

inductive Ownership where
  | ours
  | foreign
  | absent
  deriving DecidableEq

def getBaseUrlOwnership (settings : Settings) : Ownership :=
  match (readEnv settings).get BASE_URL_KEY with
  | none => .absent
  | some value => if value = .string PROXY_BASE_URL then .ours else .foreign

def getApiKeyHelperOwnership (settings : Settings) : Ownership :=
  match settings.get API_KEY_HELPER_KEY with
  | none => .absent
  | some value => if isOwnedApiKeyHelper (some value) (some HELPER_LABEL) then .ours else .foreign

/-! ## The settings that are written -/

/-- The snapshot of the first write. -/
def snapshot (existing : Settings) : Json :=
  .object [(BASE_URL_KEY, ((readEnv existing).get BASE_URL_KEY).getD UNSET),
    (API_KEY_HELPER_KEY, (existing.get API_KEY_HELPER_KEY).getD UNSET)]

def mergeBaseUrl (binary : Binary) (existing : Settings) : Settings :=
  let env := Json.set (readEnv existing) BASE_URL_KEY (.string PROXY_BASE_URL)
  let prior := (existing.get PRIOR_KEY).getD (snapshot existing)
  Json.set (Json.set (Json.set existing ENV_KEY (.object env))
    API_KEY_HELPER_KEY (.string (API_KEY_HELPER_COMMAND binary))) PRIOR_KEY prior

def withRestoredField (target : Settings) (key : String) (prior : Json) : Settings :=
  if prior = UNSET then target.delete key else Json.set target key prior

/-- `base` with the variables, unless there are none. -/
def withEnv (base env : Settings) : Settings :=
  if env = [] then base else Json.set base ENV_KEY (.object env)

def stripBaseUrl (existing : Settings) : Settings :=
  let rest := (existing.delete PRIOR_KEY).delete ENV_KEY
  let currentEnv := readEnv existing
  let envWithoutBaseUrl := currentEnv.delete BASE_URL_KEY
  let withoutHelper := rest.delete API_KEY_HELPER_KEY
  match readPriorSnapshot existing with
  | some snapshot =>
    withEnv (withRestoredField withoutHelper API_KEY_HELPER_KEY snapshot.apiKeyHelper)
      (withRestoredField envWithoutBaseUrl BASE_URL_KEY snapshot.baseUrl)
  | none =>
    let env :=
      if currentEnv.get BASE_URL_KEY = some (.string PROXY_BASE_URL) then envWithoutBaseUrl
      else currentEnv
    let baseRest :=
      if isOwnedApiKeyHelper (existing.get API_KEY_HELPER_KEY) (some HELPER_LABEL) then withoutHelper
      else rest
    withEnv baseRest env

/-! ### Their fields -/

theorem get_set (fields : Settings) (k k' : String) (v : Json) :
    Entries.get (Json.set fields k v) k' = if k' = k then some v else fields.get k' := by
  by_cases h : k' = k
  · rw [if_pos h, h]
    exact Json.lookup_set_self fields k v
  · rw [if_neg h]
    exact Json.lookup_set_of_ne fields v h

theorem get_withRestoredField (target : Settings) (key : String) (prior : Json) (k : String) :
    (withRestoredField target key prior).get k =
      if k = key then (if prior = UNSET then none else some prior) else target.get k := by
  rw [withRestoredField]
  by_cases hunset : prior = UNSET
  · rw [if_pos hunset, if_pos hunset, Entries.get_delete]
  · rw [if_neg hunset, if_neg hunset, get_set]

section WithEnv

variable {base env : Settings} {k : String}

theorem get_withEnv (hk : k ≠ ENV_KEY) : (withEnv base env).get k = base.get k := by
  rw [withEnv]
  by_cases henv : env = []
  · rw [if_pos henv]
  · rw [if_neg henv, get_set, if_neg hk]

theorem get_withEnv_env (hbase : base.get ENV_KEY = none) :
    (withEnv base env).get ENV_KEY = if env = [] then none else some (.object env) := by
  rw [withEnv]
  by_cases henv : env = []
  · rw [if_pos henv, if_pos henv, hbase]
  · rw [if_neg henv, if_neg henv, get_set, if_pos rfl]

theorem readEnv_withEnv (hbase : base.get ENV_KEY = none) : readEnv (withEnv base env) = env := by
  rw [readEnv, get_withEnv_env hbase]
  by_cases henv : env = []
  · rw [if_pos henv, henv]
  · rw [if_neg henv]

end WithEnv

/-- The fields that a call may write. -/
def owned (k : String) : Prop := k = ENV_KEY ∨ k = API_KEY_HELPER_KEY ∨ k = PRIOR_KEY

section Merge

variable (binary : Binary) (existing : Settings)

theorem get_mergeBaseUrl {k : String} (hk : ¬ owned k) :
    (mergeBaseUrl binary existing).get k = existing.get k := by
  obtain ⟨henv, hhelper, hprior⟩ := by simpa only [owned, not_or] using hk
  rw [mergeBaseUrl, get_set, if_neg hprior, get_set, if_neg hhelper, get_set, if_neg henv]

theorem get_mergeBaseUrl_prior :
    (mergeBaseUrl binary existing).get PRIOR_KEY =
      some ((existing.get PRIOR_KEY).getD (snapshot existing)) := by
  rw [mergeBaseUrl, get_set, if_pos rfl]

theorem readEnv_mergeBaseUrl :
    readEnv (mergeBaseUrl binary existing) =
      Json.set (readEnv existing) BASE_URL_KEY (.string PROXY_BASE_URL) := by
  have henv : (mergeBaseUrl binary existing).get ENV_KEY =
      some (.object (Json.set (readEnv existing) BASE_URL_KEY (.string PROXY_BASE_URL))) := by
    rw [mergeBaseUrl, get_set, if_neg (by decide), get_set, if_neg (by decide), get_set, if_pos rfl]
  rw [readEnv, henv]

end Merge

section Strip

variable (existing : Settings)

/-- What is put back for a field of a snapshot. -/
def restored (prior : Json) : Val := if prior = UNSET then none else some prior

/-- The helper after a revert. -/
def revertedHelper : Val :=
  match readPriorSnapshot existing with
  | some prior => restored prior.apiKeyHelper
  | none =>
    if getApiKeyHelperOwnership existing = .ours then none else existing.get API_KEY_HELPER_KEY

/-- The base URL after a revert. -/
def revertedBaseUrl : Val :=
  match readPriorSnapshot existing with
  | some prior => restored prior.baseUrl
  | none =>
    if getBaseUrlOwnership existing = .ours then none else (readEnv existing).get BASE_URL_KEY

theorem getBaseUrlOwnership_eq_ours :
    getBaseUrlOwnership existing = .ours ↔
      (readEnv existing).get BASE_URL_KEY = some (.string PROXY_BASE_URL) := by
  rw [getBaseUrlOwnership]
  cases (readEnv existing).get BASE_URL_KEY with
  | none => simp
  | some value => by_cases h : value = .string PROXY_BASE_URL <;> simp [h]

theorem getApiKeyHelperOwnership_eq_ours :
    getApiKeyHelperOwnership existing = .ours ↔
      isOwnedApiKeyHelper (existing.get API_KEY_HELPER_KEY) (some HELPER_LABEL) = true := by
  rw [getApiKeyHelperOwnership]
  cases existing.get API_KEY_HELPER_KEY with
  | none => simp [isOwnedApiKeyHelper, Val.asString]
  | some value => by_cases h : isOwnedApiKeyHelper (some value) (some HELPER_LABEL) <;> simp [h]

/-- The settings that a revert starts from, with the helper it leaves. -/
def strippedRest : Settings :=
  let rest := (existing.delete PRIOR_KEY).delete ENV_KEY
  let withoutHelper := rest.delete API_KEY_HELPER_KEY
  match readPriorSnapshot existing with
  | some prior => withRestoredField withoutHelper API_KEY_HELPER_KEY prior.apiKeyHelper
  | none =>
    if isOwnedApiKeyHelper (existing.get API_KEY_HELPER_KEY) (some HELPER_LABEL) then withoutHelper
    else rest

/-- The variables that a revert leaves. -/
def strippedEnv : Settings :=
  let env := readEnv existing
  match readPriorSnapshot existing with
  | some prior => withRestoredField (env.delete BASE_URL_KEY) BASE_URL_KEY prior.baseUrl
  | none =>
    if env.get BASE_URL_KEY = some (.string PROXY_BASE_URL) then env.delete BASE_URL_KEY else env

theorem stripBaseUrl_eq :
    stripBaseUrl existing = withEnv (strippedRest existing) (strippedEnv existing) := by
  rw [stripBaseUrl, strippedRest, strippedEnv]
  cases readPriorSnapshot existing <;> rfl

theorem get_strippedRest (k : String) :
    (strippedRest existing).get k =
      if k = API_KEY_HELPER_KEY then revertedHelper existing
      else if k = ENV_KEY ∨ k = PRIOR_KEY then none else existing.get k := by
  have hrest : ((existing.delete PRIOR_KEY).delete ENV_KEY).get k =
      if k = ENV_KEY ∨ k = PRIOR_KEY then none else existing.get k := by
    rw [Entries.get_delete, Entries.get_delete, ← ite_or]
  rw [strippedRest, revertedHelper]
  cases readPriorSnapshot existing with
  | some prior =>
    dsimp only
    rw [get_withRestoredField, Entries.get_delete, hrest, restored]
    by_cases hk : k = API_KEY_HELPER_KEY
    · rw [if_pos hk, if_pos hk]
    · rw [if_neg hk, if_neg hk, if_neg hk]
  | none =>
    dsimp only
    by_cases hours : getApiKeyHelperOwnership existing = .ours
    · rw [if_pos ((getApiKeyHelperOwnership_eq_ours existing).1 hours), if_pos hours,
        Entries.get_delete, hrest]
    · rw [if_neg (mt (getApiKeyHelperOwnership_eq_ours existing).2 hours), if_neg hours, hrest]
      by_cases hk : k = API_KEY_HELPER_KEY
      · rw [if_pos hk, hk, if_neg (by decide)]
      · rw [if_neg hk]

theorem get_strippedEnv (k : String) :
    (strippedEnv existing).get k =
      if k = BASE_URL_KEY then revertedBaseUrl existing else (readEnv existing).get k := by
  rw [strippedEnv, revertedBaseUrl]
  cases readPriorSnapshot existing with
  | some prior =>
    dsimp only
    rw [get_withRestoredField, Entries.get_delete, restored]
    by_cases hk : k = BASE_URL_KEY
    · rw [if_pos hk, if_pos hk]
    · rw [if_neg hk, if_neg hk, if_neg hk]
  | none =>
    dsimp only
    by_cases hours : getBaseUrlOwnership existing = .ours
    · rw [if_pos ((getBaseUrlOwnership_eq_ours existing).1 hours), if_pos hours, Entries.get_delete]
    · rw [if_neg (mt (getBaseUrlOwnership_eq_ours existing).2 hours), if_neg hours]
      by_cases hk : k = BASE_URL_KEY
      · rw [if_pos hk, hk]
      · rw [if_neg hk]

theorem get_strippedRest_env : (strippedRest existing).get ENV_KEY = none := by
  rw [get_strippedRest, if_neg (by decide), if_pos (.inl rfl)]

theorem get_stripBaseUrl {k : String} (hk : ¬ owned k) :
    (stripBaseUrl existing).get k = existing.get k := by
  obtain ⟨henv, hhelper, hprior⟩ := by simpa only [owned, not_or] using hk
  rw [stripBaseUrl_eq, get_withEnv henv, get_strippedRest, if_neg hhelper,
    if_neg (not_or.2 ⟨henv, hprior⟩)]

theorem get_stripBaseUrl_helper :
    (stripBaseUrl existing).get API_KEY_HELPER_KEY = revertedHelper existing := by
  rw [stripBaseUrl_eq, get_withEnv (by decide), get_strippedRest, if_pos rfl]

theorem get_stripBaseUrl_prior : (stripBaseUrl existing).get PRIOR_KEY = none := by
  rw [stripBaseUrl_eq, get_withEnv (by decide), get_strippedRest, if_neg (by decide),
    if_pos (.inr rfl)]

theorem readEnv_stripBaseUrl : readEnv (stripBaseUrl existing) = strippedEnv existing := by
  rw [stripBaseUrl_eq, readEnv_withEnv (get_strippedRest_env existing)]

end Strip

/-! ## Calls -/

inductive SkipReason where
  | already_ours
  | foreign_base_url
  | foreign_api_key_helper
  deriving DecidableEq

structure ApplyResult where
  wrote : Bool
  skippedReason : Option SkipReason := none

def applyProxyBaseUrl (binary : Binary) (file : SettingsFile) : SettingsFile × ApplyResult :=
  let existing := readClaudeCodeSettings file
  let baseUrlOwnership := getBaseUrlOwnership existing
  let helperOwnership := getApiKeyHelperOwnership existing
  if baseUrlOwnership = .ours ∧ helperOwnership = .ours then
    if existing.get API_KEY_HELPER_KEY = some (.string (API_KEY_HELPER_COMMAND binary)) then
      (file, { wrote := false, skippedReason := some .already_ours })
    else
      -- the command of another place or version is healed
      (writeClaudeCodeSettings (mergeBaseUrl binary existing), { wrote := true })
  else if baseUrlOwnership = .foreign then
    (file, { wrote := false, skippedReason := some .foreign_base_url })
  else if helperOwnership = .foreign then
    (file, { wrote := false, skippedReason := some .foreign_api_key_helper })
  else (writeClaudeCodeSettings (mergeBaseUrl binary existing), { wrote := true })

structure RevertResult where
  wrote : Bool
  remainingKeys : List String

def revertProxyBaseUrl (file : SettingsFile) : SettingsFile × RevertResult :=
  let existing := readClaudeCodeSettings file
  if getBaseUrlOwnership existing ≠ .ours ∧ getApiKeyHelperOwnership existing ≠ .ours then
    (file, { wrote := false, remainingKeys := existing.map Prod.fst })
  else
    let stripped := stripBaseUrl existing
    if stripped = [] then (.absent, { wrote := true, remainingKeys := [] })
    else
      (writeClaudeCodeSettings stripped, { wrote := true, remainingKeys := stripped.map Prod.fst })

/-! ### What a call does to the file -/

section Calls

variable {binary : Binary} {file : SettingsFile}

/-- Neither field holds a value of the user's, and they are not both as the binary writes them. -/
def takesOver (binary : Binary) (existing : Settings) : Prop :=
  getBaseUrlOwnership existing ≠ .foreign ∧ getApiKeyHelperOwnership existing ≠ .foreign ∧
    ¬ (getBaseUrlOwnership existing = .ours ∧ getApiKeyHelperOwnership existing = .ours ∧
      existing.get API_KEY_HELPER_KEY = some (.string (API_KEY_HELPER_COMMAND binary)))

instance (binary : Binary) (existing : Settings) : Decidable (takesOver binary existing) :=
  inferInstanceAs (Decidable (_ ∧ _))

theorem applyProxyBaseUrl_takesOver (h : takesOver binary (readClaudeCodeSettings file)) :
    applyProxyBaseUrl binary file =
      (writeClaudeCodeSettings (mergeBaseUrl binary (readClaudeCodeSettings file)),
        { wrote := true }) := by
  obtain ⟨hurl, hhelper, hstale⟩ := h
  rw [applyProxyBaseUrl]
  by_cases hours : getBaseUrlOwnership (readClaudeCodeSettings file) = .ours ∧
      getApiKeyHelperOwnership (readClaudeCodeSettings file) = .ours
  · rw [if_pos hours, if_neg fun hsame => hstale ⟨hours.1, hours.2, hsame⟩]
  · rw [if_neg hours, if_neg hurl, if_neg hhelper]

theorem applyProxyBaseUrl_skips (h : ¬ takesOver binary (readClaudeCodeSettings file)) :
    (applyProxyBaseUrl binary file).1 = file ∧ (applyProxyBaseUrl binary file).2.wrote = false := by
  rw [applyProxyBaseUrl]
  by_cases hours : getBaseUrlOwnership (readClaudeCodeSettings file) = .ours ∧
      getApiKeyHelperOwnership (readClaudeCodeSettings file) = .ours
  · rw [if_pos hours]
    by_cases hsame : (readClaudeCodeSettings file).get API_KEY_HELPER_KEY =
        some (.string (API_KEY_HELPER_COMMAND binary))
    · rw [if_pos hsame]
      exact ⟨rfl, rfl⟩
    · exact absurd ⟨by rw [hours.1]; decide, by rw [hours.2]; decide, fun hs => hsame hs.2.2⟩ h
  · rw [if_neg hours]
    by_cases hurl : getBaseUrlOwnership (readClaudeCodeSettings file) = .foreign
    · rw [if_pos hurl]
      exact ⟨rfl, rfl⟩
    · rw [if_neg hurl]
      by_cases hhelper : getApiKeyHelperOwnership (readClaudeCodeSettings file) = .foreign
      · rw [if_pos hhelper]
        exact ⟨rfl, rfl⟩
      · exact absurd ⟨hurl, hhelper, fun hs => hours ⟨hs.1, hs.2.1⟩⟩ h

theorem takesOver_of_wrote (h : (applyProxyBaseUrl binary file).2.wrote = true) :
    takesOver binary (readClaudeCodeSettings file) := by
  by_contra hskips
  rw [(applyProxyBaseUrl_skips hskips).2] at h
  cases h

/-- One of the fields holds a value of ours. -/
def holdsOurs (existing : Settings) : Prop :=
  getBaseUrlOwnership existing = .ours ∨ getApiKeyHelperOwnership existing = .ours

theorem revertProxyBaseUrl_of_not (h : ¬ holdsOurs (readClaudeCodeSettings file)) :
    (revertProxyBaseUrl file).1 = file := by
  rw [revertProxyBaseUrl, if_pos (not_or.1 h)]

theorem readClaudeCodeSettings_revert (h : holdsOurs (readClaudeCodeSettings file)) :
    readClaudeCodeSettings (revertProxyBaseUrl file).1 =
      stripBaseUrl (readClaudeCodeSettings file) := by
  rw [revertProxyBaseUrl, if_neg (mt not_or.2 (not_not.2 h))]
  by_cases hempty : stripBaseUrl (readClaudeCodeSettings file) = []
  · rw [if_pos hempty, hempty]
    rfl
  · rw [if_neg hempty]
    rfl

end Calls

end Maximal.Apps
