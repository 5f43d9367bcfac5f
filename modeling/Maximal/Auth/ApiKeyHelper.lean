import Maximal.Lib.Js.Value

/-!
# The helper that prints an API key

A client of the proxy is given a command instead of a key. The command names the running binary, so
that another version or place of the proxy writes another one; it is recognised by what it invokes.

## Main definitions

- `apiKeyHelperCommand` — the command that a binary writes
- `isOwnedApiKeyHelper` — whether a value is a command that some version of the proxy wrote
-/

namespace Maximal.Auth

open Js

def HELPER_SUBCOMMAND : String := "api"

def LEGACY_HELPER_FLAG : String := "--apiKeyHelper"

/-- A running binary: `process.execPath` and `resolveMainScript()`. -/
structure Binary where
  execPath : String
  mainScript : Option String
  deriving DecidableEq

/-! ## Paths -/

def stripExe (cs : List Char) : List Char :=
  if ".exe".toList.isSuffixOf cs then cs.take (cs.length - 4) else cs

/-- The name after the last separator of either kind, in lower case and without `.exe`. The names
it is compared with are in ASCII. -/
def basename (p : String) : String :=
  let name := (p.toList.reverse.takeWhile fun c => !(c == '/' || c == '\\')).reverse
  String.ofList (stripExe (name.map Char.toLower))

def isRuntimeExecPath (execPath : String) : Bool :=
  let base := basename execPath
  base = "bun" || base = "node"

def isMaximalAnchor (token : String) : Bool :=
  let base := basename token
  base = "maximal" || startsWith base "maximal-" || base = "main.ts" || base = "main.js"

/-! ## The command -/

def doubleQuoted (s : String) : String := "\"" ++ (s ++ "\"")

def apiKeyHelperCommand (label : Option String) (binary : Binary) : String :=
  let trimmed := label.map trim
  let bin :=
    match binary.mainScript with
    | some mainScript =>
      if isRuntimeExecPath binary.execPath && mainScript ≠ "" then
        doubleQuoted binary.execPath ++ (" " ++ doubleQuoted mainScript)
      else doubleQuoted binary.execPath
    | none => doubleQuoted binary.execPath
  match trimmed with
  | some label =>
    if label ≠ "" then bin ++ (" " ++ (HELPER_SUBCOMMAND ++ (" " ++ label)))
    else bin ++ (" " ++ HELPER_SUBCOMMAND)
  | none => bin ++ (" " ++ HELPER_SUBCOMMAND)

/-! ## Recognition -/

def isQuote (c : Char) : Bool := c.toNat = 0x22

/-- The matches of `/"[^"]*"|\S+/` one after the other; the fuel bounds the characters. -/
def matchTokens : ℕ → List Char → List (List Char)
  | 0, _ => []
  | _, [] => []
  | fuel + 1, c :: cs =>
    if isWhite c then matchTokens fuel cs
    else if isQuote c && cs.any isQuote then
      -- a quote that is not closed starts a match of the second form
      let inner := cs.takeWhile fun d => !isQuote d
      let rest := (cs.dropWhile fun d => !isQuote d).drop 1
      (c :: inner ++ [c]) :: matchTokens fuel rest
    else
      let word := (c :: cs).takeWhile fun d => !isWhite d
      let rest := (c :: cs).dropWhile fun d => !isWhite d
      word :: matchTokens fuel rest

def unquote (token : List Char) : List Char :=
  if token.head?.any isQuote && token.getLast?.any isQuote then (token.drop 1).dropLast else token

def tokenizeCommand (command : String) : List String :=
  (matchTokens command.toList.length command.toList).map fun token => String.ofList (unquote token)

def matchTrailingSubcommand (tokens : List String) (subcommand : String) (label : Option String) :
    Option (List String) :=
  let n := tokens.length
  match label with
  | some label =>
    if label ≠ "" then
      if 2 ≤ n ∧ tokens[n - 2]? = some subcommand ∧ tokens[n - 1]? = some label then
        some (tokens.take (n - 2))
      else none
    else if tokens.getLast? = some subcommand then some tokens.dropLast else none
  | none => if tokens.getLast? = some subcommand then some tokens.dropLast else none

def invokesMaximal : List String → Bool
  | [] => false
  | first :: leading => (first :: leading).any isMaximalAnchor || isRuntimeExecPath first

def isOwnedApiKeyHelper (command : Val) (label : Option String) : Bool :=
  match command.asString with
  | none => false
  | some command =>
    let tokens := tokenizeCommand command
    if tokens = [] then false
    else
      let trimmed := label.map trim
      (matchTrailingSubcommand tokens LEGACY_HELPER_FLAG trimmed).isSome ||
        (matchTrailingSubcommand tokens HELPER_SUBCOMMAND trimmed).any invokesMaximal

example : apiKeyHelperCommand (some "claude-code") ⟨"/opt/Bun.EXE", some "/m/main.ts"⟩ =
    "\"/opt/Bun.EXE\" \"/m/main.ts\" api claude-code" := by decide

example : isOwnedApiKeyHelper (some (.string "\"/o p/maximal-x\" api claude-code"))
    (some "claude-code") := by decide

end Maximal.Auth
