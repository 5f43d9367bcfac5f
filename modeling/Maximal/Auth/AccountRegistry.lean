import Maximal.Lib.Js.Text
import Mathlib.Data.Int.Basic
import Mathlib.Data.List.Basic

/-!
# The account registry

The identities stored on disk, keyed by `login@host`, with a pointer at the active one. The
helpers that rewrite the file read it first; what they write is a function of what they read.

## Main definitions

- `AccountRecord`, `StoredRecord`, `AccountRegistry`
- `inheritedNames` — `key in reg.accounts` holds of these as well
- `addAndActivate`, `setActive`, `removeAccount`, `deactivate`, `markNeedsReauth`,
  `clearNeedsReauth`
- `RegistryUpdate.apply` — what each helper writes, given what it has read
-/

namespace Maximal.Auth

open Js

inductive TokenType where
  | ghu | gho | unknown
  deriving DecidableEq, Repr

def inferTokenType (token : String) : TokenType :=
  if startsWith token "ghu_" then .ghu
  else if startsWith token "gho_" then .gho
  else .unknown

inductive AddedVia where
  | deviceCode | ghCli | migration
  deriving DecidableEq, Repr

structure AccountAuthError where
  status : Option ℕ
  message : String
  /-- The field `at`. -/
  time : ℤ
  deriving DecidableEq, Repr

structure AccountRecord where
  login : String
  host : String
  token : String
  tokenType : TokenType
  addedVia : AddedVia
  obtainedAt : ℤ
  needsReauth : Bool := false
  lastError : Option AccountAuthError := none
  refreshToken : Option String
  accessTokenExpiresAt : Option ℤ
  refreshTokenExpiresAt : Option ℤ
  deriving DecidableEq, Repr

abbrev AccountKey := String

/-- The names that every object inherits. -/
def inheritedNames : List AccountKey :=
  ["__proto__", "constructor", "toString", "toLocaleString", "valueOf", "hasOwnProperty",
    "isPrototypeOf", "propertyIsEnumerable", "__defineGetter__", "__defineSetter__",
    "__lookupGetter__", "__lookupSetter__"]

/-- A record, or an object with nothing but the flags. -/
inductive StoredRecord where
  | account (rec : AccountRecord)
  | bare (needsReauth : Bool) (lastError : Option AccountAuthError)
  deriving DecidableEq, Repr

namespace StoredRecord

def needsReauth : StoredRecord → Bool
  | account rec => rec.needsReauth
  | bare needsReauth _ => needsReauth

def lastError : StoredRecord → Option AccountAuthError
  | account rec => rec.lastError
  | bare _ lastError => lastError

def account? : StoredRecord → Option AccountRecord
  | account rec => some rec
  | bare _ _ => none

/-- `rec.token`, which may be undefined. -/
def token (rec : StoredRecord) : Option String := rec.account?.map (·.token)

/-- `rec.login`, which may be undefined. -/
def login (rec : StoredRecord) : Option String := rec.account?.map (·.login)

def isBare (rec : StoredRecord) : Bool := rec.account?.isNone

/-- `{ ...rec, needsReauth, lastError }`. -/
def withFlags (rec : StoredRecord) (needsReauth : Bool) (lastError : Option AccountAuthError) :
    StoredRecord :=
  match rec with
  | account rec => account { rec with needsReauth := needsReauth, lastError := lastError }
  | bare _ _ => bare needsReauth lastError

@[simp] theorem token_account (rec : AccountRecord) : (account rec).token = some rec.token := rfl

@[simp] theorem login_account (rec : AccountRecord) : (account rec).login = some rec.login := rfl

@[simp] theorem isBare_withFlags (rec : StoredRecord) (needsReauth : Bool)
    (lastError : Option AccountAuthError) :
    (rec.withFlags needsReauth lastError).isBare = rec.isBare := by
  cases rec <;> rfl

@[simp] theorem needsReauth_withFlags (rec : StoredRecord) (needsReauth : Bool)
    (lastError : Option AccountAuthError) :
    (rec.withFlags needsReauth lastError).needsReauth = needsReauth := by
  cases rec <;> rfl

@[simp] theorem lastError_withFlags (rec : StoredRecord) (needsReauth : Bool)
    (lastError : Option AccountAuthError) :
    (rec.withFlags needsReauth lastError).lastError = lastError := by
  cases rec <;> rfl

/-- Flags that are there already. -/
theorem withFlags_self (rec : StoredRecord) :
    rec.withFlags rec.needsReauth rec.lastError = rec := by
  cases rec <;> rfl

end StoredRecord

/-- Accounts are added under `login@host`, and only what is inherited has no record of its own. -/
structure AccountRegistry where
  /-- Never the empty string, which would count as none. -/
  activeKey : Option AccountKey
  /-- The own properties, in the order of `Object.entries`: no key is an index. -/
  accounts : List (AccountKey × StoredRecord)
  sorted : ∀ e ∈ accounts, e.2.isBare = decide (e.1 ∈ inheritedNames) := by decide
  deriving DecidableEq, Repr

def accountKey (login host : String) : AccountKey := login ++ "@" ++ host

def emptyRegistry : AccountRegistry := { activeKey := none, accounts := [] }

/-- The tokens that a device-code grant or a refresh grant hands out. -/
structure DeviceTokenResult where
  accessToken : String
  refreshToken : Option String
  accessTokenExpiresAt : Option ℤ
  refreshTokenExpiresAt : Option ℤ
  deriving DecidableEq, Repr

def makeAccountRecord (login host : String) (addedVia : AddedVia) (tokens : DeviceTokenResult)
    (now : ℤ) : AccountRecord where
  login := login
  host := host
  token := tokens.accessToken
  tokenType := inferTokenType tokens.accessToken
  addedVia := addedVia
  obtainedAt := now
  refreshToken := tokens.refreshToken
  accessTokenExpiresAt := tokens.accessTokenExpiresAt
  refreshTokenExpiresAt := tokens.refreshTokenExpiresAt

theorem at_notMem_inheritedNames : ∀ name ∈ inheritedNames, '@' ∉ name.toList := by decide

theorem accountKey_notInherited (login host : String) : accountKey login host ∉ inheritedNames := by
  intro h
  refine at_notMem_inheritedNames _ h ?_
  simp [accountKey]

/-! ## Pure operations -/

namespace AccountRegistry

variable {reg : AccountRegistry} {key other : AccountKey} {rec : StoredRecord}

/-- `reg.accounts[key]`, or `none` where `key in reg.accounts` is false. What is inherited has no
fields of its own. -/
def find? (reg : AccountRegistry) (key : AccountKey) : Option StoredRecord :=
  (reg.accounts.lookup key).or (if key ∈ inheritedNames then some (.bare false none) else none)

theorem mem_of_lookup (h : reg.accounts.lookup key = some rec) : (key, rec) ∈ reg.accounts := by
  obtain ⟨l₁, l₂, hsplit, -⟩ := List.lookup_eq_some_iff.1 h
  rw [hsplit]
  exact List.mem_append_right _ List.mem_cons_self

/-- What is bare is inherited. -/
theorem isBare_of_find? (h : reg.find? key = some rec) :
    rec.isBare = decide (key ∈ inheritedNames) := by
  unfold find? at h
  cases hlookup : reg.accounts.lookup key with
  | some own =>
    rw [hlookup, Option.some_or] at h
    obtain rfl := Option.some.inj h
    exact reg.sorted _ (mem_of_lookup hlookup)
  | none =>
    rw [hlookup, Option.none_or] at h
    split at h <;> cases h
    next hkey => exact (decide_eq_true hkey).symm

theorem isBare_withFlags (h : reg.find? key = some rec) (needsReauth : Bool)
    (lastError : Option AccountAuthError) :
    (rec.withFlags needsReauth lastError).isBare = decide (key ∈ inheritedNames) :=
  (rec.isBare_withFlags _ _).trans (isBare_of_find? h)

/-- `{ ...reg, accounts: { ...reg.accounts, [key]: rec } }`: a known key keeps its place. -/
def withAccount (reg : AccountRegistry) (key : AccountKey) (rec : StoredRecord)
    (h : rec.isBare = decide (key ∈ inheritedNames)) : AccountRegistry where
  activeKey := reg.activeKey
  accounts :=
    if (reg.accounts.lookup key).isSome then
      reg.accounts.map fun e => if e.1 = key then (key, rec) else e
    else reg.accounts ++ [(key, rec)]
  sorted e hmem := by
    split at hmem
    · obtain ⟨old, hold, rfl⟩ := List.mem_map.1 hmem
      split
      · exact h
      · exact reg.sorted old hold
    · rcases List.mem_append.1 hmem with hold | hnew
      · exact reg.sorted e hold
      · exact List.mem_singleton.1 hnew ▸ h

theorem lookup_replace (accounts : List (AccountKey × StoredRecord)) (key other : AccountKey)
    (rec : StoredRecord) :
    (accounts.map fun e => if e.1 = key then (key, rec) else e).lookup other =
      if other = key then (accounts.lookup key).map fun _ => rec else accounts.lookup other := by
  induction accounts with
  | nil => simp
  | cons e accounts ih =>
    obtain ⟨known, old⟩ := e
    rw [List.map_cons]
    by_cases hknown : known = key
    · subst hknown
      by_cases hother : other = known
      · simp [hother]
      · simpa [List.lookup_cons, hother, beq_false_of_ne hother] using ih
    · by_cases hother : other = key
      · subst hother
        simpa [List.lookup_cons, hknown, beq_false_of_ne (Ne.symm hknown)] using ih
      · simp only [hknown, if_false, List.lookup_cons, ih, hother]

/-- The account is the one that was put there; the others stay. -/
theorem lookup_withAccount (h : rec.isBare = decide (key ∈ inheritedNames)) :
    (reg.withAccount key rec h).accounts.lookup other =
      if other = key then some rec else reg.accounts.lookup other := by
  unfold withAccount
  dsimp only
  split
  · next hfound =>
    obtain ⟨old, hold⟩ := Option.isSome_iff_exists.1 hfound
    rw [lookup_replace, hold]
    rfl
  · next hfound =>
    rw [List.lookup_append]
    by_cases hother : other = key
    · subst hother
      have hnone : reg.accounts.lookup other = none := Option.not_isSome_iff_eq_none.1 hfound
      simp [hnone]
    · simp [List.lookup_cons, beq_false_of_ne hother, hother]

theorem find?_withAccount (reg : AccountRegistry)
    (h : rec.isBare = decide (key ∈ inheritedNames)) :
    (reg.withAccount key rec h).find? other =
      if other = key then some rec else reg.find? other := by
  unfold find?
  rw [lookup_withAccount]
  split <;> rfl

end AccountRegistry

def addAndActivate (reg : AccountRegistry) (rec : AccountRecord) : AccountRegistry :=
  let key := accountKey rec.login rec.host
  { reg.withAccount key (.account rec) (decide_eq_false (accountKey_notInherited _ _)).symm with
    activeKey := some key }

def setActive (reg : AccountRegistry) (key : AccountKey) : AccountRegistry :=
  if (reg.find? key).isNone then reg else { reg with activeKey := some key }

def removeAccount (reg : AccountRegistry) (key : AccountKey) : AccountRegistry :=
  if (reg.find? key).isNone then reg
  else
    { activeKey := if reg.activeKey = some key then none else reg.activeKey
      accounts := reg.accounts.filter fun e => e.1 ≠ key
      sorted := fun e hmem => reg.sorted e (List.mem_of_mem_filter hmem) }

def deactivate (reg : AccountRegistry) : AccountRegistry := { reg with activeKey := none }

def markNeedsReauth (reg : AccountRegistry) (key : AccountKey) (error : AccountAuthError) :
    AccountRegistry :=
  match h : reg.find? key with
  | none => reg
  | some rec =>
    reg.withAccount key (rec.withFlags true (some error)) (AccountRegistry.isBare_withFlags h _ _)

def clearNeedsReauth (reg : AccountRegistry) (key : AccountKey) : AccountRegistry :=
  match h : reg.find? key with
  | none => reg
  | some rec =>
    if !rec.needsReauth && rec.lastError.isNone then reg
    else
      reg.withAccount key (rec.withFlags false none) (AccountRegistry.isBare_withFlags h _ _)

section Known

variable {reg : AccountRegistry} {key : AccountKey} {rec : StoredRecord}

theorem markNeedsReauth_of_none (h : reg.find? key = none) (error : AccountAuthError) :
    markNeedsReauth reg key error = reg := by
  unfold markNeedsReauth
  split
  · rfl
  · next hfound => cases h.symm.trans hfound

theorem markNeedsReauth_of_some (h : reg.find? key = some rec) (error : AccountAuthError) :
    markNeedsReauth reg key error =
      reg.withAccount key (rec.withFlags true (some error))
        (AccountRegistry.isBare_withFlags h _ _) := by
  unfold markNeedsReauth
  split
  · next hnone => cases h.symm.trans hnone
  · next found hfound =>
    obtain rfl := Option.some.inj (h.symm.trans hfound)
    rfl

theorem clearNeedsReauth_of_none (h : reg.find? key = none) : clearNeedsReauth reg key = reg := by
  unfold clearNeedsReauth
  split
  · rfl
  · next hfound => cases h.symm.trans hfound

theorem clearNeedsReauth_of_some (h : reg.find? key = some rec) :
    clearNeedsReauth reg key =
      if !rec.needsReauth && rec.lastError.isNone then reg
      else
        reg.withAccount key (rec.withFlags false none) (AccountRegistry.isBare_withFlags h _ _) := by
  unfold clearNeedsReauth
  split
  · next hnone => cases h.symm.trans hnone
  · next found hfound =>
    obtain rfl := Option.some.inj (h.symm.trans hfound)
    rfl

end Known

/-! ## What the accounts become -/

theorem find?_addAndActivate (reg : AccountRegistry) (rec : AccountRecord) (key : AccountKey) :
    (addAndActivate reg rec).find? key =
      if key = accountKey rec.login rec.host then some (.account rec) else reg.find? key := by
  refine Eq.trans ?_ (reg.find?_withAccount ?_)
  · rfl
  · exact (decide_eq_false (accountKey_notInherited _ _)).symm

@[simp] theorem find?_setActive (reg : AccountRegistry) (active key : AccountKey) :
    (setActive reg active).find? key = reg.find? key := by
  unfold setActive
  split <;> rfl

@[simp] theorem find?_deactivate (reg : AccountRegistry) (key : AccountKey) :
    (deactivate reg).find? key = reg.find? key := rfl

theorem find?_markNeedsReauth (reg : AccountRegistry) (marked key : AccountKey)
    (error : AccountAuthError) :
    (markNeedsReauth reg marked error).find? key =
      if key = marked then (reg.find? key).map (·.withFlags true (some error))
      else reg.find? key := by
  cases hfound : reg.find? marked with
  | none =>
    rw [markNeedsReauth_of_none hfound]
    split
    · next hkey => rw [hkey, hfound, Option.map_none]
    · rfl
  | some rec =>
    rw [markNeedsReauth_of_some hfound, AccountRegistry.find?_withAccount]
    split
    · next hkey => rw [hkey, hfound, Option.map_some]
    · rfl

theorem find?_clearNeedsReauth (reg : AccountRegistry) (cleared key : AccountKey) :
    (clearNeedsReauth reg cleared).find? key =
      if key = cleared then (reg.find? key).map (·.withFlags false none)
      else reg.find? key := by
  cases hfound : reg.find? cleared with
  | none =>
    rw [clearNeedsReauth_of_none hfound]
    split
    · next hkey => rw [hkey, hfound, Option.map_none]
    · rfl
  | some rec =>
    rw [clearNeedsReauth_of_some hfound]
    split
    · next hhealthy =>
      -- The record is what it would be rewritten to.
      obtain ⟨hflag, herror⟩ : rec.needsReauth = false ∧ rec.lastError = none := by
        simpa using hhealthy
      have hsame : rec.withFlags false none = rec := by
        rw [← hflag, ← herror]
        exact rec.withFlags_self
      split
      · next hkey => rw [hkey, hfound, Option.map_some, hsame]
      · rfl
    · rw [AccountRegistry.find?_withAccount]
      split
      · next hkey => rw [hkey, hfound, Option.map_some]
      · rfl

theorem activeKey_clearNeedsReauth (reg : AccountRegistry) (key : AccountKey) :
    (clearNeedsReauth reg key).activeKey = reg.activeKey := by
  unfold clearNeedsReauth
  split
  · rfl
  · split <;> rfl

/-- A second time there is nothing to clear. -/
theorem clearNeedsReauth_idem (reg : AccountRegistry) (key : AccountKey) :
    clearNeedsReauth (clearNeedsReauth reg key) key = clearNeedsReauth reg key := by
  have hfound := find?_clearNeedsReauth reg key key
  rw [if_pos rfl] at hfound
  cases hrec : reg.find? key with
  | none =>
    rw [hrec, Option.map_none] at hfound
    exact clearNeedsReauth_of_none hfound
  | some rec =>
    rw [hrec, Option.map_some] at hfound
    rw [clearNeedsReauth_of_some hfound]
    exact if_pos (by simp)

def getActiveRecord (reg : AccountRegistry) : Option StoredRecord :=
  reg.activeKey.bind reg.find?

/-! ## Read-modify-write helpers -/

/-- The helpers that rewrite the registry, each under its name without `InDefaultRegistry`. -/
inductive RegistryUpdate where
  | addAccount (rec : AccountRecord)
  | deactivateActive
  | markActiveNeedsReauth (error : AccountAuthError)
  | clearActiveNeedsReauth
  | markNeedsReauth (key : AccountKey) (error : AccountAuthError)
  | activateAndClearNeedsReauth (key : AccountKey)
  deriving DecidableEq, Repr

/-- What the helper writes; `none` where it returns without a write. -/
def RegistryUpdate.apply (reg : AccountRegistry) : RegistryUpdate → Option AccountRegistry
  | .addAccount rec => some (addAndActivate reg rec)
  | .deactivateActive => if reg.activeKey.isNone then none else some (deactivate reg)
  | .markActiveNeedsReauth error => reg.activeKey.map (Auth.markNeedsReauth reg · error)
  | .clearActiveNeedsReauth =>
    reg.activeKey.bind fun key =>
      let cleared := clearNeedsReauth reg key
      if cleared = reg then none else some cleared
  | .markNeedsReauth key error => some (Auth.markNeedsReauth reg key error)
  | .activateAndClearNeedsReauth key => some (clearNeedsReauth (setActive reg key) key)

end Maximal.Auth
