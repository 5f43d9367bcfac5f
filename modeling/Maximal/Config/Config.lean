import Maximal.Config.ConfigSchema

/-!
# The configuration and its file

A configuration is read from `config.json` once and kept; a change validates it again and replaces
the file.

## Main definitions

- `Content` — what is in the file
- `readConfigFromDisk`, `mergeConfigWithDefaults` — the two ways to load the configuration
- `Store` — a process that has loaded it
- `writeConfig`

## Main results

- `writeConfig_spec` — the configuration that is kept is the one in the file
-/

namespace Maximal.Config

open Js

/-! ## Defaults -/

def gpt5ExplorationPrompt : String :=
  String.intercalate "\n" [
    "## Exploration and reading files",
    "- **Think first.** Before any tool call, decide ALL files/resources you will need.",
    "- **Batch everything.** If you need multiple files (even from different places), read " ++
      "them together.",
    "- **multi_tool_use.parallel** Use multi_tool_use.parallel to parallelize tool calls and " ++
      "only this.",
    "- **Only make sequential calls if you truly cannot know the next file without seeing a " ++
      "result first.**",
    "- **Workflow:** (a) plan all needed reads → (b) issue one parallel batch → (c) analyze " ++
      "results → (d) repeat if new, unpredictable reads arise."]

def gpt5CommentaryPrompt : String :=
  String.intercalate "\n" [
    "# Working with the user",
    "",
    "You interact with the user through a terminal. You have 2 ways of communicating with " ++
      "the users:  ",
    "- Share intermediary updates in `commentary` channel.  ",
    "- After you have completed all your work, send a message to the `final` channel.  ",
    "",
    "## Intermediary updates",
    "",
    "- Intermediary updates go to the `commentary` channel.",
    "- User updates are short updates while you are working, they are NOT final answers.",
    "- You use 1-2 sentence user updates to communicate progress and new information to the " ++
      "user as you are doing work.",
    "- Do not begin responses with conversational interjections or meta commentary. Avoid " ++
      "openers such as acknowledgements (“Done —”, “Got it”, “Great question, ”) or framing " ++
      "phrases.",
    "- You provide user updates frequently, every 20s.",
    "- Before exploring or doing substantial work, you start with a user update " ++
      "acknowledging the request and explaining your first step. You should include your " ++
      "understanding of the user request and explain what you will do. Avoid commenting on the " ++
      "request or using starters such as \"Got it -\" or \"Understood -\" etc.",
    "- When exploring, e.g. searching, reading files, you provide user updates as you go, " ++
      "every 20s, explaining what context you are gathering and what you've learned. Vary your " ++
      "sentence structure when providing these updates to avoid sounding repetitive - in " ++
      "particular, don't start each sentence the same way.",
    "- After you have sufficient context, and the work is substantial, you provide a longer " ++
      "plan (this is the only user update that may be longer than 2 sentences and can contain " ++
      "formatting).",
    "- Before performing file edits of any kind, you provide updates explaining what edits " ++
      "you are making.",
    "- As you are thinking, you very frequently provide updates even if not taking any " ++
      "actions, informing the user of your progress. You interrupt your thinking and send " ++
      "multiple updates in a row if thinking for more than 100 words.",
    "- Tone of your updates MUST match your personality."]

def defaultExtraPrompts : List (String × String) :=
  [("gpt-5-mini", gpt5ExplorationPrompt),
    ("gpt-5.3-codex", gpt5CommentaryPrompt),
    ("gpt-5.4-mini", gpt5CommentaryPrompt),
    ("gpt-5.4", gpt5CommentaryPrompt),
    ("gpt-5.5", gpt5CommentaryPrompt),
    ("gpt-5.6-sol", gpt5CommentaryPrompt),
    ("gpt-5.6-terra", gpt5CommentaryPrompt),
    ("gpt-5.6-luna", gpt5CommentaryPrompt)]

def defaultModelReasoningEfforts : List (String × String) :=
  [("gpt-5-mini", "low"),
    ("gpt-5.3-codex", "xhigh"),
    ("gpt-5.4-mini", "xhigh"),
    ("gpt-5.4", "xhigh"),
    ("gpt-5.5", "xhigh"),
    ("gpt-5.6-sol", "medium"),
    ("gpt-5.6-terra", "medium"),
    ("gpt-5.6-luna", "medium")]

/-- An object of texts. -/
def textFields (texts : List (String × String)) : Fields := texts.map fun e => (e.1, .string e.2)

def DEFAULT_PORT_POLICY : String := "next"

def defaultConfig : Fields :=
  [("auth", .object [("apiKeys", .array [])]),
    ("providers", .object []),
    ("extraPrompts", .object (textFields defaultExtraPrompts)),
    ("smallModel", .string "gpt-5-mini"),
    ("responsesApiContextManagementModels", .array []),
    ("server", .object [("portPolicy", .string DEFAULT_PORT_POLICY)]),
    ("modelReasoningEfforts", .object (textFields defaultModelReasoningEfforts)),
    ("useFunctionApplyPatch", .bool true),
    ("useMessagesApi", .bool true),
    ("useResponsesApiWebSearch", .bool true)]

/-! ## Loading -/

/-- What is in `config.json`. -/
inductive Content where
  | missing
  | blank
  /-- A text that is no JSON. -/
  | malformed
  | json (value : Json)

/-- What the calls of the file system do: `accessSync` and `readFileSync` of a file that is there,
`writeFileSync` in place, and the replacement of the file by another. -/
structure FileSystem where
  accessible : Bool
  readable : Bool
  writable : Bool
  replaceable : Bool

def ensureConfigFile (fs : FileSystem) (content : Content) : Content :=
  match content, fs.accessible with
  | .missing, _ => if fs.writable then .json (.object defaultConfig) else .missing
  | content, true => content
  | content, false => if fs.writable then .json (.object defaultConfig) else content

/-- The process exits where the file does not have the shape of a configuration. -/
def readConfigFromDisk (fs : FileSystem) (content : Content) : Option (Content × Fields) :=
  match ensureConfigFile fs content, fs.readable with
  | .missing, _ => some (.missing, defaultConfig)
  | content, false => some (content, defaultConfig)
  | .blank, true =>
    some (if fs.writable then .json (.object defaultConfig) else .blank, defaultConfig)
  | .malformed, true => some (.malformed, defaultConfig)
  | .json value, true => (validateAppConfig value).map fun config => (.json value, config)

/-- The object in a field; `{}` where there is none. -/
def recordAt (config : Fields) (k : String) : Fields :=
  match config.lookup k with
  | some (.object fields) => fields
  | _ => []

/-- `{ ...base, ...fields }`. -/
def spreadOver (base fields : Fields) : Fields :=
  base.map (fun e => (e.1, (fields.lookup e.1).getD e.2)) ++
    fields.filter fun e => (base.lookup e.1).isNone

/-- Fields of the defaults that are missing. -/
def isMissing (defaults fields : Fields) : Bool :=
  defaults.any fun e => (fields.lookup e.1).isNone

/-- The configuration with the defaults, and whether any have been added. -/
def mergeDefaultConfig (config : Fields) : Fields × Bool :=
  let extraPrompts := recordAt config "extraPrompts"
  let defaultPrompts := recordAt defaultConfig "extraPrompts"
  let modelReasoningEfforts := recordAt config "modelReasoningEfforts"
  let defaultEfforts := recordAt defaultConfig "modelReasoningEfforts"
  if isMissing defaultPrompts extraPrompts || isMissing defaultEfforts modelReasoningEfforts then
    (Json.set (Json.set config "extraPrompts" (.object (spreadOver defaultPrompts extraPrompts)))
      "modelReasoningEfforts" (.object (spreadOver defaultEfforts modelReasoningEfforts)), true)
  else (config, false)

/-- A process that has loaded its configuration; `config` is the one that is cached. -/
structure Store where
  content : Content
  config : Fields

/-- `getConfig` of a process that has not loaded its configuration. -/
def getConfig (fs : FileSystem) (content : Content) : Option Store :=
  (readConfigFromDisk fs content).map fun (content, config) => ⟨content, config⟩

def mergeConfigWithDefaults (fs : FileSystem) (content : Content) : Option Store :=
  (readConfigFromDisk fs content).map fun (content, config) =>
    match mergeDefaultConfig config with
    | (mergedConfig, changed) =>
      ⟨if changed && fs.writable then .json (.object mergedConfig) else content, mergedConfig⟩

/-! ## Writing -/

/-- Where the value is no configuration, or the file cannot be replaced, this throws. -/
def writeConfig (fs : FileSystem) (next : Fields) : Option Store :=
  match validateAppConfig (.object next) with
  | none => none
  | some validated =>
    if fs.replaceable then some ⟨.json (.object validated), validated⟩ else none

theorem writeConfig_spec {fs : FileSystem} {next : Fields} {s : Store}
    (h : writeConfig fs next = some s) :
    validateAppConfig (.object next) = some s.config ∧ s.content = .json (.object s.config) := by
  rw [writeConfig] at h
  split at h
  · cases h
  · next validated hvalidated =>
    split at h
    · obtain rfl := Option.some.inj h
      exact ⟨hvalidated, rfl⟩
    · cases h

end Maximal.Config
