import Maximal.Apps.ClaudeCodeConfig

/-!
# Enabling and disabling Claude Code

The first write keeps what the two fields held, further writes keep the snapshot, and the revert puts
it back. Settings are compared as objects: the order of their fields, and of the variables in `env`,
changes.

## Main definitions

- `SameSettings` — the same fields
- `Applied` — settings that calls have written over others

## Main results

- `Applied.apply` — a further call keeps the snapshot
- `revert_applied` — what a revert restores
-/

namespace Maximal.Apps

open Js Auth

def SameEnv : Val → Val → Prop
  | some (.object env), some (.object env') => ∀ k, Entries.get env k = Entries.get env' k
  | v, w => v = w

/-- The settings have the same fields, in `env` too. -/
def SameSettings (s t : Settings) : Prop :=
  (∀ k, k ≠ ENV_KEY → s.get k = t.get k) ∧ SameEnv (s.get ENV_KEY) (t.get ENV_KEY)

/-- The settings without an `env` that is empty or not an object. -/
def dropBlankEnv (s : Settings) : Settings := if readEnv s = [] then s.delete ENV_KEY else s

/-- One call after the other, each of another binary. -/
def applyAll (binaries : List Binary) (file : SettingsFile) : SettingsFile :=
  binaries.foldl (fun file binary => (applyProxyBaseUrl binary file).1) file

/-! ## The snapshot -/

/-- The settings `t` are `s` with the two fields written, and hold the snapshot of `s`. -/
structure Applied (s t : Settings) : Prop where
  others : ∀ k, ¬ owned k → t.get k = s.get k
  env : ∀ k, k ≠ BASE_URL_KEY → (readEnv t).get k = (readEnv s).get k
  baseUrl : getBaseUrlOwnership t = .ours
  prior : t.get PRIOR_KEY = some (snapshot s)

section Applied

variable {s t : Settings} (binary : Binary)

theorem getBaseUrlOwnership_mergeBaseUrl : getBaseUrlOwnership (mergeBaseUrl binary s) = .ours := by
  rw [getBaseUrlOwnership_eq_ours, readEnv_mergeBaseUrl, get_set, if_pos rfl]

theorem Applied.of_merge (hprior : s.get PRIOR_KEY = none) : Applied s (mergeBaseUrl binary s) where
  others _ hk := get_mergeBaseUrl binary s hk
  env k hk := by rw [readEnv_mergeBaseUrl, get_set, if_neg hk]
  baseUrl := getBaseUrlOwnership_mergeBaseUrl binary
  prior := by rw [get_mergeBaseUrl_prior, hprior, Option.getD_none]

/-- A heal writes another command and leaves the snapshot. -/
theorem Applied.merge (h : Applied s t) : Applied s (mergeBaseUrl binary t) where
  others k hk := (get_mergeBaseUrl binary t hk).trans (h.others k hk)
  env k hk := by rw [readEnv_mergeBaseUrl, get_set, if_neg hk, h.env k hk]
  baseUrl := getBaseUrlOwnership_mergeBaseUrl binary
  prior := by rw [get_mergeBaseUrl_prior, h.prior, Option.getD_some]

theorem Applied.apply {file : SettingsFile} (h : Applied s (readClaudeCodeSettings file)) :
    Applied s (readClaudeCodeSettings (applyProxyBaseUrl binary file).1) := by
  by_cases htakes : takesOver binary (readClaudeCodeSettings file)
  · rw [applyProxyBaseUrl_takesOver htakes]
    exact h.merge binary
  · rw [(applyProxyBaseUrl_skips htakes).1]
    exact h

theorem Applied.applyAll (binaries : List Binary) {file : SettingsFile}
    (h : Applied s (readClaudeCodeSettings file)) :
    Applied s (readClaudeCodeSettings (applyAll binaries file)) := by
  induction binaries generalizing file with
  | nil => exact h
  | cons binary binaries ih => exact ih (h.apply binary)

end Applied

/-! ## The revert -/

section Revert

variable {s t : Settings}

theorem restored_getD {v : Val} (h : v ≠ some UNSET) : restored (v.getD UNSET) = v := by
  cases v with
  | none => rw [Option.getD_none, restored, if_pos rfl]
  | some value => rw [Option.getD_some, restored, if_neg fun heq => h (congrArg some heq)]

/-- A field that the user has not set otherwise does not hold the text that codes its absence. -/
theorem baseUrl_ne_unset (h : getBaseUrlOwnership s ≠ .foreign) :
    (readEnv s).get BASE_URL_KEY ≠ some UNSET := by
  intro heq
  rw [getBaseUrlOwnership, heq] at h
  exact h (by decide)

theorem helper_ne_unset (h : getApiKeyHelperOwnership s ≠ .foreign) :
    s.get API_KEY_HELPER_KEY ≠ some UNSET := by
  intro heq
  rw [getApiKeyHelperOwnership, heq] at h
  exact h (by decide)

namespace Applied

theorem readPriorSnapshot_eq (h : Applied s t) :
    readPriorSnapshot t =
      some ⟨((readEnv s).get BASE_URL_KEY).getD UNSET, (s.get API_KEY_HELPER_KEY).getD UNSET⟩ := by
  rw [readPriorSnapshot, h.prior]
  rfl

theorem strippedEnv_get (h : Applied s t) (hurl : getBaseUrlOwnership s ≠ .foreign) (k : String) :
    (strippedEnv t).get k = (readEnv s).get k := by
  rw [get_strippedEnv]
  by_cases hk : k = BASE_URL_KEY
  · rw [if_pos hk, hk, revertedBaseUrl, h.readPriorSnapshot_eq]
    exact restored_getD (baseUrl_ne_unset hurl)
  · rw [if_neg hk, h.env k hk]

theorem strippedEnv_eq_nil (h : Applied s t) (hurl : getBaseUrlOwnership s ≠ .foreign) :
    strippedEnv t = [] ↔ readEnv s = [] := by
  rw [Entries.eq_nil_iff, Entries.eq_nil_iff]
  simp only [h.strippedEnv_get hurl]

theorem stripBaseUrl_get (h : Applied s t) (hprior : s.get PRIOR_KEY = none)
    (hhelper : getApiKeyHelperOwnership s ≠ .foreign) {k : String} (hk : k ≠ ENV_KEY) :
    (stripBaseUrl t).get k = s.get k := by
  by_cases hkey : k = API_KEY_HELPER_KEY
  · rw [hkey, get_stripBaseUrl_helper, revertedHelper, h.readPriorSnapshot_eq]
    exact restored_getD (helper_ne_unset hhelper)
  by_cases hkept : k = PRIOR_KEY
  · rw [hkept, get_stripBaseUrl_prior, hprior]
  · have hfree : ¬ owned k := fun hown => hown.elim hk fun hown => hown.elim hkey hkept
    rw [get_stripBaseUrl t hfree, h.others k hfree]

/-- A revert puts back what the two fields held, whatever was written over it since. -/
theorem same_stripBaseUrl (h : Applied s t) (hprior : s.get PRIOR_KEY = none)
    (hurl : getBaseUrlOwnership s ≠ .foreign) (hhelper : getApiKeyHelperOwnership s ≠ .foreign) :
    SameSettings (stripBaseUrl t) (dropBlankEnv s) := by
  rw [dropBlankEnv]
  by_cases hblank : readEnv s = []
  · rw [if_pos hblank]
    refine ⟨fun k hk => ?_, ?_⟩
    · rw [h.stripBaseUrl_get hprior hhelper hk, Entries.get_delete_of_ne s hk]
    · rw [stripBaseUrl_eq, get_withEnv_env (get_strippedRest_env t),
        if_pos ((h.strippedEnv_eq_nil hurl).2 hblank), Entries.get_delete_self]
      rfl
  · rw [if_neg hblank]
    refine ⟨fun k hk => h.stripBaseUrl_get hprior hhelper hk, ?_⟩
    have henv : s.get ENV_KEY = some (.object (readEnv s)) := by
      rw [readEnv] at hblank ⊢
      split at hblank
      · assumption
      · contradiction
    rw [stripBaseUrl_eq, get_withEnv_env (get_strippedRest_env t),
      if_neg (mt (h.strippedEnv_eq_nil hurl).1 hblank), henv]
    exact h.strippedEnv_get hurl

end Applied

namespace SameSettings

theorem readEnv_get (h : SameSettings s t) (k : String) :
    (readEnv s).get k = (readEnv t).get k := by
  have henv := h.2
  rw [readEnv, readEnv]
  generalize s.get ENV_KEY = v at henv ⊢
  generalize t.get ENV_KEY = w at henv ⊢
  rw [SameEnv.eq_def] at henv
  split at henv
  · exact henv k
  · rw [henv]

theorem env_eq_none (h : SameSettings s t) (ht : t.get ENV_KEY = none) : s.get ENV_KEY = none := by
  have henv := h.2
  rw [ht] at henv
  cases hs : s.get ENV_KEY with
  | none => rfl
  | some v => rw [hs] at henv; cases v <;> cases henv

theorem congr {t' : Settings} (h : SameSettings s t) (heq : ∀ k, t'.get k = t.get k) :
    SameSettings s t' := by
  refine ⟨fun k hk => (h.1 k hk).trans (heq k).symm, ?_⟩
  rw [heq]
  exact h.2

end SameSettings

/-- A revert without a snapshot takes away what is ours. -/
theorem not_same_revert (hprior : s.get PRIOR_KEY = none) (hours : holdsOurs s)
    (hsame : SameSettings t (dropBlankEnv s)) : ¬ SameSettings t (stripBaseUrl s) := by
  intro hstrip
  have hnone : readPriorSnapshot s = none := by rw [readPriorSnapshot, hprior]
  have hkept : ∀ k, k ≠ ENV_KEY → (dropBlankEnv s).get k = s.get k := by
    intro k hk
    rw [dropBlankEnv]
    split
    · exact Entries.get_delete_of_ne s hk
    · rfl
  obtain hurl | hhelper := hours
  · have hleft : (readEnv t).get BASE_URL_KEY = none := by
      rw [hstrip.readEnv_get, readEnv_stripBaseUrl, get_strippedEnv, if_pos rfl, revertedBaseUrl,
        hnone]
      exact if_pos hurl
    have hfull : readEnv s ≠ [] := by
      intro hnil
      rw [getBaseUrlOwnership_eq_ours, hnil] at hurl
      cases hurl
    rw [hsame.readEnv_get, dropBlankEnv, if_neg hfull, (getBaseUrlOwnership_eq_ours s).1 hurl]
      at hleft
    cases hleft
  · have hleft : t.get API_KEY_HELPER_KEY = none := by
      rw [hstrip.1 _ (by decide), get_stripBaseUrl_helper, revertedHelper, hnone]
      exact if_pos hhelper
    rw [hsame.1 _ (by decide), hkept _ (by decide)] at hleft
    rw [getApiKeyHelperOwnership, hleft] at hhelper
    cases hhelper

/-- The call writes, and not only to heal a command beside a base URL that is ours. -/
def enables (binary : Binary) (file : SettingsFile) : Prop :=
  (applyProxyBaseUrl binary file).2.wrote = true ∧
    ¬ (getBaseUrlOwnership (readClaudeCodeSettings file) = .ours ∧
      getApiKeyHelperOwnership (readClaudeCodeSettings file) = .ours)

instance (binary : Binary) (file : SettingsFile) : Decidable (enables binary file) :=
  inferInstanceAs (Decidable (_ ∧ _))

/-- Disabling restores the settings that were found by the first write, values that equal ours
included, but for an `env` that was empty or not an object. -/
theorem revert_applied (file : SettingsFile) (binary : Binary) (binaries : List Binary)
    (hprior : (readClaudeCodeSettings file).get PRIOR_KEY = none)
    (henables : enables binary file) :
    SameSettings
        (readClaudeCodeSettings (revertProxyBaseUrl (applyAll (binary :: binaries) file)).1)
        (dropBlankEnv (readClaudeCodeSettings file)) ∧
      (SameSettings
          (readClaudeCodeSettings (revertProxyBaseUrl (applyAll (binary :: binaries) file)).1)
          (readClaudeCodeSettings (revertProxyBaseUrl file).1) ↔
        ¬ holdsOurs (readClaudeCodeSettings file) ∧
          ((readClaudeCodeSettings file).get ENV_KEY = none ∨
            readEnv (readClaudeCodeSettings file) ≠ [])) := by
  have htakes := takesOver_of_wrote henables.1
  have hfirst : Applied (readClaudeCodeSettings file)
      (readClaudeCodeSettings (applyProxyBaseUrl binary file).1) := by
    rw [applyProxyBaseUrl_takesOver htakes]
    exact .of_merge binary hprior
  have happlied : Applied (readClaudeCodeSettings file)
      (readClaudeCodeSettings (applyAll (binary :: binaries) file)) :=
    hfirst.applyAll binaries
  have hsame : SameSettings
      (readClaudeCodeSettings (revertProxyBaseUrl (applyAll (binary :: binaries) file)).1)
      (dropBlankEnv (readClaudeCodeSettings file)) := by
    rw [readClaudeCodeSettings_revert (.inl happlied.baseUrl)]
    exact happlied.same_stripBaseUrl hprior htakes.1 htakes.2.1
  refine ⟨hsame, fun hreverted => ?_, fun h => ?_⟩
  · by_cases hours : holdsOurs (readClaudeCodeSettings file)
    · rw [readClaudeCodeSettings_revert hours] at hreverted
      exact absurd hreverted (not_same_revert hprior hours hsame)
    · refine ⟨hours, or_iff_not_imp_right.2 fun hblank => ?_⟩
      rw [not_not] at hblank
      rw [dropBlankEnv, if_pos hblank] at hsame
      rw [revertProxyBaseUrl_of_not hours] at hreverted
      have hdropped := hsame.env_eq_none (Entries.get_delete_self _ _)
      have henv := hreverted.2
      rw [hdropped] at henv
      cases hfound : (readClaudeCodeSettings file).get ENV_KEY with
      | none => rfl
      | some v => rw [hfound] at henv; cases v <;> cases henv
  · rw [revertProxyBaseUrl_of_not h.1]
    refine hsame.congr fun k => ?_
    rw [dropBlankEnv]
    split
    · next hblank =>
      have hnone := h.2.resolve_right (not_not.2 hblank)
      by_cases hk : k = ENV_KEY
      · rw [hk, hnone, Entries.get_delete_self]
      · rw [Entries.get_delete_of_ne _ hk]
    · rfl

def maximal : Binary := ⟨"/opt/maximal", none⟩
def moved : Binary := ⟨"/home/maximal", none⟩

theorem revert_applied_theme :
    SameSettings
        (readClaudeCodeSettings (revertProxyBaseUrl
          (applyAll [maximal, moved] (.json (.object [("theme", .string "dark")])))).1)
        (dropBlankEnv [("theme", .string "dark")]) ∧
      (SameSettings
          (readClaudeCodeSettings (revertProxyBaseUrl
            (applyAll [maximal, moved] (.json (.object [("theme", .string "dark")])))).1)
          (readClaudeCodeSettings
            (revertProxyBaseUrl (.json (.object [("theme", .string "dark")]))).1) ↔
        ¬ holdsOurs [("theme", .string "dark")] ∧
          (Entries.get [("theme", Json.string "dark")] ENV_KEY = none ∨
            readEnv [("theme", .string "dark")] ≠ [])) :=
  revert_applied (.json (.object [("theme", .string "dark")])) maximal [moved] rfl (by decide)

/-- A user may have set the base URL of the proxy before: the snapshot restores it, and reverting at
once takes it away. -/
theorem not_revert_applied :
    ¬ ∀ (file : SettingsFile) (binary : Binary) (binaries : List Binary),
      (readClaudeCodeSettings file).get PRIOR_KEY = none →
      (applyProxyBaseUrl binary file).2.wrote = true →
      SameSettings
          (readClaudeCodeSettings (revertProxyBaseUrl (applyAll (binary :: binaries) file)).1)
          (readClaudeCodeSettings (revertProxyBaseUrl file).1) ∧
        (¬ holdsOurs (readClaudeCodeSettings file) →
          SameSettings
            (readClaudeCodeSettings (revertProxyBaseUrl (applyAll (binary :: binaries) file)).1)
            (readClaudeCodeSettings file)) := by
  intro h
  have hsame := (h (.json (.object [(ENV_KEY, .object [(BASE_URL_KEY, .string PROXY_BASE_URL)])]))
    maximal [] rfl (by decide)).1.readEnv_get BASE_URL_KEY
  revert hsame
  decide

end Revert

end Maximal.Apps
