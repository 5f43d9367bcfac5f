import Maximal.Lib.Js.Equality

/-!
# Reading and rewriting the registry file

`readRegistry` folds a missing file, a file that cannot be read, and a content that is no registry
into the empty registry, and the helpers build what they write from what it returns. The records
are passed through as they stand in the file.

## Main definitions

- `RegistryFile`, `readRegistry`
- `JsonRegistry` and the pure operations on it
- `RegistryHelper.write` — what a helper writes over a file

## Main results

- `keeps_iff` — the helpers that keep what they cannot read
-/

namespace Maximal.Auth

open Js

/-- The file at the path of the registry. -/
inductive RegistryFile where
  | absent
  /-- The file is there, but `readFile` rejects. -/
  | unreadable
  /-- Nothing but white space. -/
  | blank
  /-- `JSON.parse` throws. -/
  | malformed
  | parsed (value : Json)
  deriving DecidableEq

structure JsonRegistry where
  activeKey : Json
  /-- The own entries of `accounts`, which holds a key of the form `login@host` for each. -/
  accounts : List (String × Json)
  deriving DecidableEq

/-- `value === 2`. -/
def isTwo : Val → Bool
  | some (.number n) => n.text = "2"
  | _ => false

/-- The own entries of an object, an array or a text; other values have none. -/
def ownEntries : Json → List (String × Json)
  | .object fields => fields
  | .array items => items.zipIdx.map fun (item, i) => (toString i, item)
  | .string s => s.toList.zipIdx.map fun (c, i) => (toString i, .string c.toString)
  | _ => []

/-- A value that `readRegistry` takes for a registry. -/
def asRegistry (value : Json) : Option JsonRegistry :=
  if isTwo (value.get "schemaVersion") then
    match value.get "accounts" with
    | some (.object fields) => some ⟨(value.get "activeKey").orElse .null, fields⟩
    | some (.array items) => some ⟨(value.get "activeKey").orElse .null, ownEntries (.array items)⟩
    | _ => none
  else none

def RegistryFile.registry? : RegistryFile → Option JsonRegistry
  | .parsed value => asRegistry value
  | _ => none

namespace JsonRegistry

def emptyRegistry : JsonRegistry := ⟨.null, []⟩

end JsonRegistry

def readRegistry (file : RegistryFile) : JsonRegistry :=
  file.registry?.getD JsonRegistry.emptyRegistry

/-! ## Pure operations -/

namespace JsonRegistry

variable (reg : JsonRegistry) (key : String)

def addAndActivate (rec : Json) : JsonRegistry := ⟨.string key, Json.set reg.accounts key rec⟩

/-- An inherited name holds no `@`, so that `key in accounts` asks for an own entry. -/
def setActive : JsonRegistry :=
  if (reg.accounts.lookup key).isSome then { reg with activeKey := .string key } else reg

def deactivate : JsonRegistry := { reg with activeKey := .null }

/-- `{ ...rec, needsReauth, lastError }`. -/
def flagged (rec : Json) (needsReauth : Bool) (lastError : Json) : Json :=
  .object (Json.set (Json.set (ownEntries rec) "needsReauth" (.bool needsReauth)) "lastError"
    lastError)

def markNeedsReauth (error : Json) : JsonRegistry :=
  match reg.accounts.lookup key with
  | none => reg
  | some rec => { reg with accounts := Json.set reg.accounts key (flagged rec true error) }

/-- The registry with the flag cleared; `none` where the same object is returned. -/
def clearNeedsReauth : Except TypeError (Option JsonRegistry) :=
  match reg.accounts.lookup key with
  | none => .ok none
  | some rec => do
    let needsReauth ← Val.prop (some rec) "needsReauth"
    let lastError ← Val.prop (some rec) "lastError"
    if !needsReauth.truthy && !lastError.truthy then return none
    return some { reg with accounts := Json.set reg.accounts key (flagged rec false .null) }

end JsonRegistry

/-! ## The helpers -/

/-- The helpers that write the registry, but for the removal of an account. -/
inductive RegistryHelper where
  | addAccount (key : String) (rec : Json)
  | deactivateActive
  | markActiveNeedsReauth (error : Json)
  | clearActiveNeedsReauth
  | markNeedsReauth (key : String) (error : Json)
  | activateAndClearNeedsReauth (key : String)
  /-- With the record made from the legacy token, where there is one. -/
  | migrateLegacyRecord (legacy : Option (String × Json))

namespace RegistryHelper

/-- What a helper writes, given what `readRegistry` returned; `none` where it returns without a
write. -/
def next (reg : JsonRegistry) : RegistryHelper → Except TypeError (Option JsonRegistry)
  | .addAccount key rec => .ok (some (reg.addAndActivate key rec))
  | .deactivateActive => .ok (if reg.activeKey.truthy then some reg.deactivate else none)
  | .markActiveNeedsReauth error =>
    if reg.activeKey.truthy then do
      let key ← reg.activeKey.text
      return some (reg.markNeedsReauth key error)
    else .ok none
  | .clearActiveNeedsReauth =>
    if reg.activeKey.truthy then do
      let key ← reg.activeKey.text
      reg.clearNeedsReauth key
    else .ok none
  | .markNeedsReauth key error => .ok (some (reg.markNeedsReauth key error))
  | .activateAndClearNeedsReauth key => do
    let cleared ← (reg.setActive key).clearNeedsReauth key
    return some (cleared.getD (reg.setActive key))
  | .migrateLegacyRecord legacy =>
    if reg.accounts ≠ [] then .ok none
    else .ok (legacy.map fun (key, rec) => JsonRegistry.emptyRegistry.addAndActivate key rec)

def write (file : RegistryFile) (helper : RegistryHelper) :
    Except TypeError (Option JsonRegistry) :=
  helper.next (readRegistry file)

/-- A helper that writes nothing when there is no account. -/
def idleWithoutAccounts : RegistryHelper → Bool
  | .deactivateActive | .markActiveNeedsReauth _ | .clearActiveNeedsReauth => true
  | .migrateLegacyRecord legacy => legacy.isNone
  | .addAccount _ _ | .markNeedsReauth _ _ | .activateAndClearNeedsReauth _ => false

/-- The record is as it was but for its flags. -/
def SameButFlags (rec rec' : Json) : Prop :=
  ∀ field, field ≠ "needsReauth" → field ≠ "lastError" →
    (ownEntries rec').lookup field = (ownEntries rec).lookup field

/-- The record of an account is still there, or the account was added again. -/
def Retains (helper : RegistryHelper) (key : String) (rec rec' : Json) : Prop :=
  helper = .addAccount key rec' ∨ SameButFlags rec rec'

/-- A helper does not replace what it cannot read, and loses no account of what it can. -/
def Keeps (helper : RegistryHelper) (file : RegistryFile) : Prop :=
  (file ≠ .absent → file.registry? = none → ∀ next, helper.write file ≠ .ok (some next)) ∧
  ∀ reg next, file.registry? = some reg → helper.write file = .ok (some next) →
    ∀ key rec, reg.accounts.lookup key = some rec →
      ∃ rec', next.accounts.lookup key = some rec' ∧ helper.Retains key rec rec'

/-! ## Accounts that stay -/

variable {helper : RegistryHelper} {file : RegistryFile} {reg next : JsonRegistry}
  {key : String} {rec error : Json}

/-- Every record of the registry is in the next one. -/
def Stays (reg next : JsonRegistry) : Prop :=
  ∀ key rec, reg.accounts.lookup key = some rec →
    ∃ rec', next.accounts.lookup key = some rec' ∧ SameButFlags rec rec'

theorem SameButFlags.refl (rec : Json) : SameButFlags rec rec := fun _ _ _ => rfl

theorem stays_of_accounts_eq (h : next.accounts = reg.accounts) : Stays reg next := by
  intro key rec hrec
  exact ⟨rec, h ▸ hrec, SameButFlags.refl rec⟩

theorem sameButFlags_flagged (needsReauth : Bool) :
    SameButFlags rec (JsonRegistry.flagged rec needsReauth error) := by
  intro field hneeds herror
  show (Json.set (Json.set (ownEntries rec) _ _) _ _).lookup field = _
  rw [Json.lookup_set_of_ne _ _ herror, Json.lookup_set_of_ne _ _ hneeds]

theorem stays_set_flagged (hrec : reg.accounts.lookup key = some rec) (needsReauth : Bool)
    (activeKey : Json) :
    Stays reg ⟨activeKey,
      Json.set reg.accounts key (JsonRegistry.flagged rec needsReauth error)⟩ := by
  intro key' rec' hrec'
  by_cases hkey : key' = key
  · subst hkey
    obtain rfl := Option.some.inj (hrec.symm.trans hrec')
    exact ⟨_, Json.lookup_set_self _ _ _, sameButFlags_flagged needsReauth⟩
  · exact ⟨rec', (Json.lookup_set_of_ne _ _ hkey).trans hrec', SameButFlags.refl rec'⟩

theorem stays_markNeedsReauth : Stays reg (reg.markNeedsReauth key error) := by
  rw [JsonRegistry.markNeedsReauth]
  cases hrec : reg.accounts.lookup key with
  | none => exact stays_of_accounts_eq rfl
  | some rec => exact stays_set_flagged hrec true reg.activeKey

theorem stays_clearNeedsReauth (h : reg.clearNeedsReauth key = .ok (some next)) :
    Stays reg next := by
  rw [JsonRegistry.clearNeedsReauth] at h
  cases hrec : reg.accounts.lookup key with
  | none =>
    rw [hrec] at h
    cases h
  | some rec =>
    rw [hrec] at h
    cases hneeds : Val.prop (some rec) "needsReauth" with
    | error e =>
      simp [hneeds, bind, Except.bind] at h
    | ok needsReauth =>
      cases herror : Val.prop (some rec) "lastError" with
      | error e => simp [hneeds, herror, bind, Except.bind] at h
      | ok lastError =>
        simp only [hneeds, herror, bind, Except.bind] at h
        split at h
        · cases h
        · obtain rfl : _ = next := Option.some.inj (Except.ok.inj h)
          exact stays_set_flagged hrec false reg.activeKey

theorem setActive_accounts (reg : JsonRegistry) (key : String) :
    (reg.setActive key).accounts = reg.accounts := by
  rw [JsonRegistry.setActive]
  split <;> rfl

theorem addAndActivate_retains {key' : String} {rec' : Json}
    (hrec : reg.accounts.lookup key' = some rec') :
    ∃ rec'', (reg.addAndActivate key rec).accounts.lookup key' = some rec'' ∧
      (RegistryHelper.addAccount key rec).Retains key' rec' rec'' := by
  by_cases hkey : key' = key
  · subst hkey
    exact ⟨rec, Json.lookup_set_self _ _ _, Or.inl rfl⟩
  · exact ⟨rec', (Json.lookup_set_of_ne _ _ hkey).trans hrec, Or.inr (SameButFlags.refl rec')⟩

theorem Stays.retains (h : Stays reg next) (hrec : reg.accounts.lookup key = some rec) :
    ∃ rec', next.accounts.lookup key = some rec' ∧ helper.Retains key rec rec' := by
  obtain ⟨rec', hrec', hsame⟩ := h key rec hrec
  exact ⟨rec', hrec', Or.inr hsame⟩

/-- What a helper writes holds every account of what it has read. -/
theorem next_retains (h : helper.next reg = .ok (some next))
    (hrec : reg.accounts.lookup key = some rec) :
    ∃ rec', next.accounts.lookup key = some rec' ∧ helper.Retains key rec rec' := by
  cases helper with
  | addAccount key' added =>
    obtain rfl := Option.some.inj (Except.ok.inj h)
    exact addAndActivate_retains hrec
  | deactivateActive =>
    simp only [RegistryHelper.next] at h
    split at h
    · obtain rfl := Option.some.inj (Except.ok.inj h)
      exact (stays_of_accounts_eq rfl).retains hrec
    · cases h
  | markActiveNeedsReauth error =>
    simp only [RegistryHelper.next] at h
    split at h
    · cases hkey : reg.activeKey.text with
      | error e =>
        rw [hkey] at h
        cases h
      | ok active =>
        rw [hkey] at h
        obtain rfl := Option.some.inj (Except.ok.inj h)
        exact stays_markNeedsReauth.retains hrec
    · cases h
  | clearActiveNeedsReauth =>
    simp only [RegistryHelper.next] at h
    split at h
    · cases hkey : reg.activeKey.text with
      | error e =>
        rw [hkey] at h
        cases h
      | ok active =>
        rw [hkey] at h
        exact (stays_clearNeedsReauth h).retains hrec
    · cases h
  | markNeedsReauth key' error =>
    obtain rfl := Option.some.inj (Except.ok.inj h)
    exact stays_markNeedsReauth.retains hrec
  | activateAndClearNeedsReauth key' =>
    simp only [RegistryHelper.next] at h
    rw [← setActive_accounts reg key'] at hrec
    cases hclear : (reg.setActive key').clearNeedsReauth key' with
    | error e =>
      rw [hclear] at h
      cases h
    | ok cleared =>
      rw [hclear] at h
      obtain rfl := Option.some.inj (Except.ok.inj h)
      cases cleared with
      | none => exact (stays_of_accounts_eq rfl).retains hrec
      | some cleared => exact (stays_clearNeedsReauth hclear).retains hrec
  | migrateLegacyRecord legacy =>
    simp only [RegistryHelper.next] at h
    split at h
    · cases h
    · next hempty =>
      rw [not_not.1 hempty] at hrec
      cases hrec

/-- Of what it cannot read, a helper makes the empty registry. -/
theorem write_of_unread (h : file.registry? = none) :
    helper.write file = helper.next JsonRegistry.emptyRegistry := by
  rw [write, readRegistry, h, Option.getD_none]

/-- Without accounts, the helpers but the idle ones write. -/
theorem next_empty :
    (∃ next, helper.next JsonRegistry.emptyRegistry = .ok (some next)) ↔
      helper.idleWithoutAccounts = false := by
  cases helper with
  | addAccount key rec => exact iff_of_true ⟨_, rfl⟩ rfl
  | deactivateActive => exact iff_of_false (by rintro ⟨_, h⟩; cases h) (by decide)
  | markActiveNeedsReauth error =>
    exact iff_of_false (by rintro ⟨_, h⟩; cases h) (by simp [idleWithoutAccounts])
  | clearActiveNeedsReauth => exact iff_of_false (by rintro ⟨_, h⟩; cases h) (by decide)
  | markNeedsReauth key error => exact iff_of_true ⟨_, rfl⟩ rfl
  | activateAndClearNeedsReauth key => exact iff_of_true ⟨_, rfl⟩ rfl
  | migrateLegacyRecord legacy =>
    cases legacy with
    | none => exact iff_of_false (by rintro ⟨_, h⟩; cases h) (by decide)
    | some entry => exact iff_of_true ⟨_, rfl⟩ rfl

/-- A helper keeps the file unless it is there, is not read as a registry, and the helper writes
without an account. -/
theorem keeps_iff (helper : RegistryHelper) (file : RegistryFile) :
    helper.Keeps file ↔
      file = .absent ∨ file.registry?.isSome ∨ helper.idleWithoutAccounts = true := by
  have hread : ∀ reg next, file.registry? = some reg → helper.write file = .ok (some next) →
      ∀ key rec, reg.accounts.lookup key = some rec →
        ∃ rec', next.accounts.lookup key = some rec' ∧ helper.Retains key rec rec' := by
    intro reg next hreg hwrite key rec hrec
    rw [write, readRegistry, hreg, Option.getD_some] at hwrite
    exact next_retains hwrite hrec
  constructor
  · rintro ⟨hunread, -⟩
    by_contra hnot
    simp only [not_or, Bool.not_eq_true, Option.isSome_eq_false_iff, Option.isNone_iff_eq_none]
      at hnot
    obtain ⟨hpresent, hreg, hidle⟩ := hnot
    obtain ⟨next, hnext⟩ := next_empty.2 hidle
    exact hunread hpresent hreg next ((write_of_unread hreg).trans hnext)
  · intro hcase
    refine ⟨fun hpresent hreg next hwrite => ?_, hread⟩
    rcases hcase with habsent | hsome | hidle
    · exact hpresent habsent
    · rw [hreg] at hsome
      cases hsome
    · rw [write_of_unread hreg] at hwrite
      simp [next_empty.1 ⟨next, hwrite⟩] at hidle

/-- A registry that a newer version has written. -/
def newerSchema : RegistryFile :=
  .parsed (.object [("schemaVersion", .number (.ofNat 3)), ("activeKey", .string "alice@github.com"),
    ("accounts", .object [("alice@github.com", .object [("token", .string "ghu_alice")])])])

/-- Signing in over it loses the account of `alice`. -/
theorem newer_schema_overwritten :
    ¬ (RegistryHelper.addAccount "bob@github.com" (.object [])).Keeps newerSchema := by
  intro hkeeps
  exact hkeeps.1 (by decide) (by decide +kernel) _ rfl

end RegistryHelper

end Maximal.Auth
