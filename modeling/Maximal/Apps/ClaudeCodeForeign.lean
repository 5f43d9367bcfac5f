import Maximal.Apps.ClaudeCodeConfig
import Maximal.Lib.Runs

/-!
# Settings of Claude Code that are not ours

Calls and edits of the user follow each other in any order. A call that writes decides by what it
finds; a revert that finds a snapshot restores both fields from it, also one that the user has edited
since the snapshot was taken.

## Main definitions

- `step` — a call, or an edit of the user
- `KeepsForeign`, `KeepsOthers` — what calls leave alone
- `restoresOver` — a revert would put a value of the snapshot in the place of another one

## Main results

- `calls_keep` — what calls leave alone in every run
-/

namespace Maximal.Apps

open Js Auth

inductive Event where
  | apply (binary : Binary)
  | revert
  | edit (content : SettingsFile)

def step : Event → SettingsFile → Option SettingsFile
  | .apply binary, file => some (applyProxyBaseUrl binary file).1
  | .revert, file => some (revertProxyBaseUrl file).1
  | .edit content, _ => some content

/-- A field that holds a value of the user's holds it afterwards. -/
structure KeepsForeign (s t : Settings) : Prop where
  baseUrl : getBaseUrlOwnership s = .foreign →
    (readEnv t).get BASE_URL_KEY = (readEnv s).get BASE_URL_KEY
  apiKeyHelper : getApiKeyHelperOwnership s = .foreign →
    t.get API_KEY_HELPER_KEY = s.get API_KEY_HELPER_KEY

/-- Every other field is the same, and so is every other variable. -/
structure KeepsOthers (s t : Settings) : Prop where
  fields : ∀ k, ¬ owned k → t.get k = s.get k
  env : ∀ k, k ≠ BASE_URL_KEY → (readEnv t).get k = (readEnv s).get k

/-- The snapshot restores something else than the value of the user's that a field holds. -/
def restoresOver (s : Settings) : Prop :=
  holdsOurs s ∧ ∃ prior, readPriorSnapshot s = some prior ∧
    (getBaseUrlOwnership s = .foreign ∧ restored prior.baseUrl ≠ (readEnv s).get BASE_URL_KEY ∨
      getApiKeyHelperOwnership s = .foreign ∧
        restored prior.apiKeyHelper ≠ s.get API_KEY_HELPER_KEY)

/-! ## One call -/

section Calls

variable {s : Settings}

theorem KeepsForeign.refl (s : Settings) : KeepsForeign s s := ⟨fun _ => rfl, fun _ => rfl⟩

theorem KeepsOthers.refl (s : Settings) : KeepsOthers s s := ⟨fun _ _ => rfl, fun _ _ => rfl⟩

theorem keepsForeign_mergeBaseUrl {binary : Binary} (h : takesOver binary s) :
    KeepsForeign s (mergeBaseUrl binary s) :=
  ⟨fun hurl => absurd hurl h.1, fun hhelper => absurd hhelper h.2.1⟩

theorem keepsOthers_mergeBaseUrl (binary : Binary) : KeepsOthers s (mergeBaseUrl binary s) where
  fields _ hk := get_mergeBaseUrl binary s hk
  env k hk := by rw [readEnv_mergeBaseUrl, get_set, if_neg hk]

theorem keepsOthers_stripBaseUrl : KeepsOthers s (stripBaseUrl s) where
  fields _ hk := get_stripBaseUrl s hk
  env k hk := by rw [readEnv_stripBaseUrl, get_strippedEnv, if_neg hk]

theorem keepsForeign_stripBaseUrl (hours : holdsOurs s) (h : ¬ restoresOver s) :
    KeepsForeign s (stripBaseUrl s) where
  baseUrl hurl := by
    rw [readEnv_stripBaseUrl, get_strippedEnv, if_pos rfl, revertedBaseUrl]
    cases hprior : readPriorSnapshot s with
    | none => exact if_neg (by rw [hurl]; decide)
    | some prior =>
      by_contra hne
      exact h ⟨hours, prior, hprior, .inl ⟨hurl, hne⟩⟩
  apiKeyHelper hhelper := by
    rw [get_stripBaseUrl_helper, revertedHelper]
    cases hprior : readPriorSnapshot s with
    | none => exact if_neg (by rw [hhelper]; decide)
    | some prior =>
      by_contra hne
      exact h ⟨hours, prior, hprior, .inr ⟨hhelper, hne⟩⟩

theorem applyProxyBaseUrl_keeps (binary : Binary) (file : SettingsFile) :
    KeepsForeign (readClaudeCodeSettings file)
        (readClaudeCodeSettings (applyProxyBaseUrl binary file).1) ∧
      KeepsOthers (readClaudeCodeSettings file)
        (readClaudeCodeSettings (applyProxyBaseUrl binary file).1) := by
  by_cases htakes : takesOver binary (readClaudeCodeSettings file)
  · rw [applyProxyBaseUrl_takesOver htakes]
    exact ⟨keepsForeign_mergeBaseUrl htakes, keepsOthers_mergeBaseUrl binary⟩
  · rw [(applyProxyBaseUrl_skips htakes).1]
    exact ⟨.refl _, .refl _⟩

theorem revertProxyBaseUrl_keeps (file : SettingsFile) :
    (¬ restoresOver (readClaudeCodeSettings file) →
        KeepsForeign (readClaudeCodeSettings file)
          (readClaudeCodeSettings (revertProxyBaseUrl file).1)) ∧
      KeepsOthers (readClaudeCodeSettings file)
        (readClaudeCodeSettings (revertProxyBaseUrl file).1) := by
  by_cases hours : holdsOurs (readClaudeCodeSettings file)
  · rw [readClaudeCodeSettings_revert hours]
    exact ⟨keepsForeign_stripBaseUrl hours, keepsOthers_stripBaseUrl⟩
  · rw [revertProxyBaseUrl_of_not hours]
    exact ⟨fun _ => .refl _, .refl _⟩

theorem not_holdsOurs_nil : ¬ holdsOurs [] := by
  rintro (hurl | hhelper)
  · cases hurl
  · cases hhelper

end Calls

/-! ## Runs -/

/-- What a call leaves alone; a revert leaves alone also a file that holds no settings. -/
def Keeps : Event → SettingsFile → SettingsFile → Prop
  | .apply _, file, after =>
    KeepsForeign (readClaudeCodeSettings file) (readClaudeCodeSettings after) ∧
      KeepsOthers (readClaudeCodeSettings file) (readClaudeCodeSettings after)
  | .revert, file, after =>
    (¬ restoresOver (readClaudeCodeSettings file) →
        KeepsForeign (readClaudeCodeSettings file) (readClaudeCodeSettings after)) ∧
      KeepsOthers (readClaudeCodeSettings file) (readClaudeCodeSettings after) ∧
      (readClaudeCodeSettings file = [] → after = file)
  | .edit _, _, _ => True

theorem step_keeps {e : Event} {file after : SettingsFile} (h : step e file = some after) :
    Keeps e file after := by
  cases e with
  | apply binary =>
    obtain rfl := Option.some.inj h
    exact applyProxyBaseUrl_keeps binary file
  | revert =>
    obtain rfl := Option.some.inj h
    obtain ⟨hforeign, hothers⟩ := revertProxyBaseUrl_keeps file
    refine ⟨hforeign, hothers, fun hnil => revertProxyBaseUrl_of_not ?_⟩
    rw [hnil]
    exact not_holdsOurs_nil
  | edit content => trivial

/-- In every run, no call changes a setting that is not ours, but for a revert that restores an older
snapshot; an `env` that is not an object counts as none. -/
theorem calls_keep (file : SettingsFile) (events : List Event) :
    Runs.Meets step (fun e before => ∀ after ∈ step e before, Keeps e before after) events file := by
  refine Runs.Meets.of_invariant (I := fun _ => True) (fun e before _ _ => ?_)
    (Runs.meets_of_forall (p := fun _ => True) fun _ _ => trivial) trivial
  exact ⟨fun after hafter => step_keeps hafter, fun _ _ => trivial⟩

def unparsed : SettingsFile → Bool
  | .unreadable => true
  | .malformed => true
  | _ => false

/-- Enabling starts a malformed file afresh. -/
theorem not_calls_keep :
    ¬ ∀ (file : SettingsFile) (events : List Event),
      Runs.Meets step
        (fun e before => ∀ after ∈ step e before, (∀ content, e ≠ .edit content) →
          KeepsForeign (readClaudeCodeSettings before) (readClaudeCodeSettings after) ∧
            KeepsOthers (readClaudeCodeSettings before) (readClaudeCodeSettings after) ∧
            (unparsed before = true → after = before)) events file := by
  intro h
  have htakes : takesOver ⟨"/opt/maximal", none⟩ (readClaudeCodeSettings .malformed) := by decide
  obtain ⟨hcall, -⟩ := h .malformed [.apply ⟨"/opt/maximal", none⟩]
  obtain ⟨-, -, hsame⟩ := hcall _ rfl fun content heq => by cases heq
  have hkept := hsame rfl
  rw [applyProxyBaseUrl_takesOver htakes] at hkept
  cases hkept

end Maximal.Apps
