import Maximal.Auth.AccountRegistry
import Maximal.Lib.Js.Map
import Maximal.Lib.Runs

/-!
# The registry as a plain object

The accounts are the own properties of an object, but `key in reg.accounts` also holds of the names
that every object inherits. Such a name is taken for an account that is known.

## Main definitions

- `RegistryObject` — the registry with everything that its operations can make of it
- `RegistryOp` — the operations
- `RegistryObject.Sound` — the active account is known, and every account has the key of its record
- `RegistryOp.Keeps` — what an operation owes the registry
- `RegistryObject.Agrees` — the properties are those of the registry that the sign-in works with

## Main results

- `registryOps_agree` — the two agree after every sequence of operations
- `registry_kept_iff` — exactly the inherited names break the registry
-/

namespace Maximal.Auth

open Js

structure RegistryObject where
  activeKey : Option AccountKey
  /-- The own properties. Their order is not used. -/
  accounts : Entries AccountKey StoredRecord

namespace RegistryObject

def empty : RegistryObject := ⟨none, []⟩

/-- `reg.accounts[key]`, or `none` where `key in reg.accounts` is false. What is inherited has no
fields of its own. -/
def property (reg : RegistryObject) (key : AccountKey) : Option StoredRecord :=
  match reg.accounts.get key with
  | some rec => some rec
  | none => if key ∈ inheritedNames then some (.bare false none) else none

def addAndActivate (reg : RegistryObject) (rec : AccountRecord) : RegistryObject :=
  let key := accountKey rec.login rec.host
  ⟨some key, reg.accounts.set key (.account rec)⟩

def setActive (reg : RegistryObject) (key : AccountKey) : RegistryObject :=
  if (reg.property key).isNone then reg else { reg with activeKey := some key }

def removeAccount (reg : RegistryObject) (key : AccountKey) : RegistryObject :=
  if (reg.property key).isNone then reg
  else ⟨if reg.activeKey = some key then none else reg.activeKey, reg.accounts.delete key⟩

/-- An empty key counts as none. -/
def deactivate (reg : RegistryObject) : RegistryObject :=
  if reg.activeKey.getD "" = "" then reg else { reg with activeKey := none }

def markNeedsReauth (reg : RegistryObject) (key : AccountKey) (error : AccountAuthError) :
    RegistryObject :=
  match reg.property key with
  | none => reg
  | some rec => { reg with accounts := reg.accounts.set key (rec.withFlags true (some error)) }

def clearNeedsReauth (reg : RegistryObject) (key : AccountKey) : RegistryObject :=
  match reg.property key with
  | none => reg
  | some rec =>
    if !rec.needsReauth && rec.lastError.isNone then reg
    else { reg with accounts := reg.accounts.set key (rec.withFlags false none) }

end RegistryObject

inductive RegistryOp where
  | addAndActivate (rec : AccountRecord)
  | setActive (key : AccountKey)
  | removeAccount (key : AccountKey)
  | deactivate
  | markNeedsReauth (key : AccountKey) (error : AccountAuthError)
  | clearNeedsReauth (key : AccountKey)
  deriving DecidableEq

namespace RegistryOp

def apply (op : RegistryOp) (reg : RegistryObject) : RegistryObject :=
  match op with
  | addAndActivate rec => reg.addAndActivate rec
  | setActive key => reg.setActive key
  | removeAccount key => reg.removeAccount key
  | deactivate => reg.deactivate
  | markNeedsReauth key error => reg.markNeedsReauth key error
  | clearNeedsReauth key => reg.clearNeedsReauth key

/-- The account that an operation names. -/
def named : RegistryOp → Option AccountKey
  | addAndActivate rec => some (accountKey rec.login rec.host)
  | setActive key | removeAccount key | markNeedsReauth key _ | clearNeedsReauth key => some key
  | deactivate => none

def isRemove : RegistryOp → Bool
  | removeAccount _ => true
  | _ => false

/-- A switch to, or a flag on, something that every object inherits. -/
def isMisled : RegistryOp → Bool
  | setActive key | markNeedsReauth key _ => key ∈ inheritedNames
  | _ => false

end RegistryOp

namespace RegistryObject

variable {reg : RegistryObject} {key other : AccountKey}

/-- A property that is not inherited is an own one. -/
theorem property_of_notInherited (h : key ∉ inheritedNames) :
    reg.property key = reg.accounts.get key := by
  unfold property
  split
  · next rec hget => exact hget.symm
  · next hget => rw [if_neg h, hget]

/-- The active account is known, and every account has the key of its record. -/
structure Sound (reg : RegistryObject) : Prop where
  active : ∀ key, reg.activeKey = some key → (reg.accounts.get key).isSome
  keyed : ∀ key rec, reg.accounts.get key = some rec →
    ∃ account, rec = .account account ∧ key = accountKey account.login account.host

theorem sound_empty : empty.Sound where
  active key hactive := by cases hactive
  keyed key rec hget := by
    have hnone : empty.accounts.get key = none := Entries.get_nil key
    rw [hnone] at hget
    cases hget

/-- No account has an inherited name. -/
theorem Sound.get_of_inherited (h : reg.Sound) (hkey : key ∈ inheritedNames) :
    reg.accounts.get key = none := by
  cases hget : reg.accounts.get key with
  | none => rfl
  | some rec =>
    obtain ⟨account, -, rfl⟩ := h.keyed key rec hget
    exact absurd hkey (accountKey_notInherited _ _)

theorem Sound.set_account {account : AccountRecord} (h : reg.Sound)
    (hkey : key = accountKey account.login account.host) :
    Sound { reg with accounts := reg.accounts.set key (.account account) } where
  active other hother := by
    have hknown := h.active other hother
    by_cases hne : other = key
    · rw [hne]
      exact Option.isSome_of_eq_some (Entries.get_set_self _ _ _)
    · rwa [Entries.get_set_of_ne _ _ hne]
  keyed other rec hget := by
    by_cases hne : other = key
    · rw [hne, Entries.get_set_self] at hget
      exact ⟨account, (Option.some.inj hget).symm, hne.trans hkey⟩
    · rw [Entries.get_set_of_ne _ _ hne] at hget
      exact h.keyed other rec hget

/-- Flags do not move an account. -/
theorem Sound.withFlags {rec : StoredRecord} (h : reg.Sound)
    (hget : reg.accounts.get key = some rec) (needsReauth : Bool)
    (lastError : Option AccountAuthError) :
    Sound { reg with accounts := reg.accounts.set key (rec.withFlags needsReauth lastError) } := by
  obtain ⟨account, rfl, hkey⟩ := h.keyed key rec hget
  exact h.set_account hkey

theorem Sound.activate (h : reg.Sound) (hget : (reg.accounts.get key).isSome) :
    Sound { reg with activeKey := some key } where
  active _ hother := Option.some.inj hother ▸ hget
  keyed := h.keyed

/-! ## The operations -/

theorem Sound.addAndActivate (h : reg.Sound) (rec : AccountRecord) :
    (reg.addAndActivate rec).Sound :=
  (h.set_account rfl).activate (Option.isSome_of_eq_some (Entries.get_set_self _ _ _))

theorem Sound.setActive_iff (h : reg.Sound) :
    (reg.setActive key).Sound ↔ key ∉ inheritedNames := by
  constructor
  · -- the active account would be unknown
    intro hsound hkey
    have hget := h.get_of_inherited hkey
    have hproperty : reg.property key = some (.bare false none) := by
      rw [property, hget, if_pos hkey]
    have hset : reg.setActive key = { reg with activeKey := some key } := by
      rw [setActive, hproperty]
      rfl
    have hactive := hsound.active key (by rw [hset])
    rw [hset, hget] at hactive
    cases hactive
  · intro hkey
    rw [setActive, property_of_notInherited hkey]
    split
    · exact h
    · next hknown =>
      exact h.activate (Option.isSome_iff_ne_none.2 (mt Option.isNone_iff_eq_none.2 hknown))

theorem Sound.removeAccount (h : reg.Sound) (key : AccountKey) : (reg.removeAccount key).Sound := by
  unfold RegistryObject.removeAccount
  split
  · exact h
  · refine ⟨fun other hother => ?_, fun other rec hget => ?_⟩
    · dsimp only at hother
      split at hother
      · cases hother
      · next hactive =>
        have hne : other ≠ key := fun heq => hactive (heq ▸ hother)
        rw [Entries.get_delete_of_ne _ hne]
        exact h.active other hother
    · by_cases hne : other = key
      · rw [hne, Entries.get_delete_self] at hget
        cases hget
      · rw [Entries.get_delete_of_ne _ hne] at hget
        exact h.keyed other rec hget

theorem Sound.deactivate (h : reg.Sound) : reg.deactivate.Sound := by
  unfold RegistryObject.deactivate
  split
  · exact h
  · exact ⟨nofun, h.keyed⟩

theorem Sound.markNeedsReauth_iff (h : reg.Sound) (error : AccountAuthError) :
    (reg.markNeedsReauth key error).Sound ↔ key ∉ inheritedNames := by
  constructor
  · -- the account would have no login
    intro hsound hkey
    have hproperty : reg.property key = some (.bare false none) := by
      rw [property, h.get_of_inherited hkey, if_pos hkey]
    have hget : (reg.markNeedsReauth key error).accounts.get key =
        some (.bare true (some error)) := by
      rw [markNeedsReauth, hproperty]
      exact Entries.get_set_self _ _ _
    obtain ⟨account, heq, -⟩ := hsound.keyed key _ hget
    cases heq
  · intro hkey
    unfold markNeedsReauth
    rw [property_of_notInherited hkey]
    split
    · exact h
    · next rec hget => exact h.withFlags hget true (some error)

/-- What is inherited has no flag to clear. -/
theorem Sound.clearNeedsReauth (h : reg.Sound) (key : AccountKey) :
    (reg.clearNeedsReauth key).Sound := by
  unfold RegistryObject.clearNeedsReauth
  split
  · exact h
  · next rec hproperty =>
    split
    · exact h
    · next hflagged =>
      refine h.withFlags ?_ false none
      unfold property at hproperty
      split at hproperty
      · next hget => rw [hget, hproperty]
      · split at hproperty
        · obtain rfl := Option.some.inj hproperty
          exact absurd rfl hflagged
        · cases hproperty

end RegistryObject

namespace RegistryOp

variable {reg : RegistryObject}

/-- An operation leaves the accounts alone, puts one where it says, or takes that one away. -/
theorem accounts_apply (op : RegistryOp) (reg : RegistryObject) :
    (op.apply reg).accounts = reg.accounts ∨
      (∃ key rec, op.named = some key ∧ (op.apply reg).accounts = reg.accounts.set key rec) ∨
      ∃ key, op = removeAccount key ∧ (op.apply reg).accounts = reg.accounts.delete key := by
  cases op with
  | addAndActivate rec => exact .inr (.inl ⟨_, _, rfl, rfl⟩)
  | setActive key =>
    left
    rw [apply, RegistryObject.setActive]
    split <;> rfl
  | removeAccount key =>
    rw [apply, RegistryObject.removeAccount]
    split
    · exact .inl rfl
    · exact .inr (.inr ⟨key, rfl, rfl⟩)
  | deactivate =>
    left
    rw [apply, RegistryObject.deactivate]
    split <;> rfl
  | markNeedsReauth key error =>
    rw [apply, RegistryObject.markNeedsReauth]
    split
    · exact .inl rfl
    · exact .inr (.inl ⟨key, _, rfl, rfl⟩)
  | clearNeedsReauth key =>
    rw [apply, RegistryObject.clearNeedsReauth]
    split
    · exact .inl rfl
    · split
      · exact .inl rfl
      · exact .inr (.inl ⟨key, _, rfl, rfl⟩)

/-- What an operation owes the registry. -/
structure Keeps (op : RegistryOp) (reg : RegistryObject) : Prop where
  sound : (op.apply reg).Sound
  /-- Accounts that are not named keep their record. -/
  others : ∀ key, op.named ≠ some key → (op.apply reg).accounts.get key = reg.accounts.get key
  /-- Only `removeAccount` deletes. -/
  kept : op.isRemove = false →
    ∀ key, (reg.accounts.get key).isSome → ((op.apply reg).accounts.get key).isSome

theorem others (op : RegistryOp) (reg : RegistryObject) (key : AccountKey)
    (h : op.named ≠ some key) : (op.apply reg).accounts.get key = reg.accounts.get key := by
  obtain hsame | ⟨named, rec, hnamed, hset⟩ | ⟨named, rfl, hdelete⟩ := accounts_apply op reg
  · rw [hsame]
  · have hne : key ≠ named := fun heq => h (heq ▸ hnamed)
    rw [hset, Entries.get_set_of_ne _ _ hne]
  · have hne : key ≠ named := fun heq => h (heq ▸ rfl)
    rw [hdelete, Entries.get_delete_of_ne _ hne]

theorem kept (op : RegistryOp) (reg : RegistryObject) (hop : op.isRemove = false)
    (key : AccountKey) (h : (reg.accounts.get key).isSome) :
    ((op.apply reg).accounts.get key).isSome := by
  obtain hsame | ⟨named, rec, -, hset⟩ | ⟨named, rfl, -⟩ := accounts_apply op reg
  · rwa [hsame]
  · rw [hset]
    by_cases hne : key = named
    · rw [hne]
      exact Option.isSome_of_eq_some (Entries.get_set_self _ _ _)
    · rwa [Entries.get_set_of_ne _ _ hne]
  · cases hop

theorem sound_apply_iff (h : reg.Sound) (op : RegistryOp) :
    (op.apply reg).Sound ↔ op.isMisled = false := by
  cases op with
  | addAndActivate rec => exact iff_of_true (h.addAndActivate rec) rfl
  | setActive key => exact h.setActive_iff.trans (by simp [isMisled])
  | removeAccount key => exact iff_of_true (h.removeAccount key) rfl
  | deactivate => exact iff_of_true h.deactivate rfl
  | markNeedsReauth key error => exact (h.markNeedsReauth_iff error).trans (by simp [isMisled])
  | clearNeedsReauth key => exact iff_of_true (h.clearNeedsReauth key) rfl

theorem keeps_iff_not_misled (h : reg.Sound) (op : RegistryOp) :
    op.Keeps reg ↔ op.isMisled = false :=
  ⟨fun hkeeps => (sound_apply_iff h op).1 hkeeps.sound,
    fun hop => ⟨(sound_apply_iff h op).2 hop, op.others reg, op.kept reg⟩⟩

end RegistryOp

/-! ## The registry of accounts -/

namespace RegistryObject

/-- The same properties, and the same account active. No key is empty: an active one would count as
none. -/
structure Agrees (reg : RegistryObject) (plain : AccountRegistry) : Prop where
  activeKey : reg.activeKey = plain.activeKey
  accounts : ∀ key, reg.accounts.get key = plain.accounts.lookup key
  active : reg.activeKey ≠ some ""
  named : reg.accounts.get "" = none

theorem agrees_empty : empty.Agrees emptyRegistry := ⟨rfl, fun _ => rfl, by decide, rfl⟩

variable {reg : RegistryObject} {plain : AccountRegistry}

theorem Agrees.property (h : reg.Agrees plain) (key : AccountKey) :
    reg.property key = plain.find? key := by
  unfold RegistryObject.property AccountRegistry.find?
  rw [h.accounts]
  cases plain.accounts.lookup key <;> rfl

theorem Agrees.ne_empty (h : reg.Agrees plain) {key : AccountKey}
    (hkey : (reg.property key).isSome = true) : key ≠ "" := by
  rintro rfl
  have hnone : reg.property "" = none := by
    rw [RegistryObject.property, h.named]
    exact if_neg (by decide)
  rw [hnone] at hkey
  cases hkey

/-- A record that is put in both. -/
theorem Agrees.withAccount (h : reg.Agrees plain) {key : AccountKey} {rec : StoredRecord}
    (hrec : rec.isBare = decide (key ∈ inheritedNames)) (hkey : key ≠ "") :
    Agrees { reg with accounts := reg.accounts.set key rec } (plain.withAccount key rec hrec) where
  activeKey := h.activeKey
  accounts other := by
    rw [AccountRegistry.lookup_withAccount]
    by_cases hne : other = key
    · rw [if_pos hne, hne]
      exact Entries.get_set_self _ _ _
    · rw [if_neg hne, ← h.accounts]
      exact Entries.get_set_of_ne _ _ hne
  active := h.active
  named := (Entries.get_set_of_ne _ _ hkey.symm).trans h.named

theorem accountKey_ne_empty (login host : String) : accountKey login host ≠ "" := by
  intro hempty
  have hat : '@' ∈ (accountKey login host).toList := by simp [accountKey]
  rw [hempty] at hat
  cases hat

theorem Agrees.addAndActivate (h : reg.Agrees plain) (rec : AccountRecord) :
    (reg.addAndActivate rec).Agrees (Auth.addAndActivate plain rec) := by
  have hne := accountKey_ne_empty rec.login rec.host
  have hown : (StoredRecord.account rec).isBare =
      decide (accountKey rec.login rec.host ∈ inheritedNames) :=
    (decide_eq_false (accountKey_notInherited rec.login rec.host)).symm
  have hset := h.withAccount hown hne
  exact ⟨rfl, hset.accounts, fun hactive => hne (Option.some.inj hactive), hset.named⟩

theorem Agrees.setActive (h : reg.Agrees plain) (key : AccountKey) :
    (reg.setActive key).Agrees (Auth.setActive plain key) := by
  rw [RegistryObject.setActive, Auth.setActive, ← h.property key]
  split
  · exact h
  · next hknown =>
    have hne : key ≠ "" := h.ne_empty (by simpa [Option.isSome_iff_ne_none] using hknown)
    exact ⟨rfl, h.accounts, fun hactive => hne (Option.some.inj hactive), h.named⟩

theorem Agrees.removeAccount (h : reg.Agrees plain) (key : AccountKey) :
    (reg.removeAccount key).Agrees (Auth.removeAccount plain key) := by
  rw [RegistryObject.removeAccount, Auth.removeAccount, ← h.property key]
  split
  · exact h
  · refine ⟨?_, fun other => ?_, ?_, ?_⟩
    · dsimp only
      rw [h.activeKey]
    · have hsame : reg.accounts.get other = Entries.get plain.accounts other := h.accounts other
      show (reg.accounts.delete key).get other = (Entries.delete plain.accounts key).get other
      rw [Entries.get_delete, Entries.get_delete, hsame]
    · dsimp only
      split
      · simp
      · exact h.active
    · show (reg.accounts.delete key).get "" = none
      rw [Entries.get_delete, h.named, ite_self]

theorem Agrees.deactivate (h : reg.Agrees plain) :
    reg.deactivate.Agrees (Auth.deactivate plain) := by
  unfold RegistryObject.deactivate
  split
  · next hempty =>
    cases hactive : reg.activeKey with
    | none => exact ⟨hactive, h.accounts, h.active, h.named⟩
    | some key =>
      rw [hactive, Option.getD_some] at hempty
      exact absurd (hempty ▸ hactive) h.active
  · exact ⟨rfl, h.accounts, by simp, h.named⟩

theorem Agrees.markNeedsReauth (h : reg.Agrees plain) (key : AccountKey)
    (error : AccountAuthError) :
    (reg.markNeedsReauth key error).Agrees (Auth.markNeedsReauth plain key error) := by
  rw [RegistryObject.markNeedsReauth, h.property]
  cases hfound : plain.find? key with
  | none =>
    rw [markNeedsReauth_of_none hfound]
    exact h
  | some rec =>
    rw [markNeedsReauth_of_some hfound]
    exact h.withAccount _ (h.ne_empty (h.property key ▸ Option.isSome_of_eq_some hfound))

theorem Agrees.clearNeedsReauth (h : reg.Agrees plain) (key : AccountKey) :
    (reg.clearNeedsReauth key).Agrees (Auth.clearNeedsReauth plain key) := by
  rw [RegistryObject.clearNeedsReauth, h.property]
  cases hfound : plain.find? key with
  | none =>
    rw [clearNeedsReauth_of_none hfound]
    exact h
  | some rec =>
    rw [clearNeedsReauth_of_some hfound]
    dsimp only
    split
    · exact h
    · exact h.withAccount _ (h.ne_empty (h.property key ▸ Option.isSome_of_eq_some hfound))

end RegistryObject

/-- The operation on the registry that the sign-in works with. -/
def RegistryOp.update (op : RegistryOp) (reg : AccountRegistry) : AccountRegistry :=
  match op with
  | addAndActivate rec => Auth.addAndActivate reg rec
  | setActive key => Auth.setActive reg key
  | removeAccount key => Auth.removeAccount reg key
  | deactivate => Auth.deactivate reg
  | markNeedsReauth key error => Auth.markNeedsReauth reg key error
  | clearNeedsReauth key => Auth.clearNeedsReauth reg key

theorem RegistryOp.agrees {reg : RegistryObject} {plain : AccountRegistry}
    (h : reg.Agrees plain) (op : RegistryOp) : (op.apply reg).Agrees (op.update plain) := by
  cases op with
  | addAndActivate rec => exact h.addAndActivate rec
  | setActive key => exact h.setActive key
  | removeAccount key => exact h.removeAccount key
  | deactivate => exact h.deactivate
  | markNeedsReauth key error => exact h.markNeedsReauth key error
  | clearNeedsReauth key => exact h.clearNeedsReauth key

/-- The object and the registry of accounts agree after every sequence of operations. -/
theorem registryOps_agree (ops : List RegistryOp) :
    (ops.foldl (fun reg op => op.apply reg) RegistryObject.empty).Agrees
      (ops.foldl (fun reg op => op.update reg) emptyRegistry) := by
  have hfold : ∀ (ops : List RegistryOp) {reg : RegistryObject} {plain : AccountRegistry},
      reg.Agrees plain → (ops.foldl (fun reg op => op.apply reg) reg).Agrees
        (ops.foldl (fun reg op => op.update reg) plain) := by
    intro ops
    induction ops with
    | nil => exact fun h => h
    | cons op ops ih => exact fun h => ih (op.agrees h)
  exact hfold ops RegistryObject.agrees_empty

/-! ## Runs -/

/-- Every operation of a sequence, one after the other, keeps what it owes the registry. -/
def KeptThroughout (ops : List RegistryOp) (reg : RegistryObject) : Prop :=
  Runs.Meets (fun op reg => some (op.apply reg)) RegistryOp.Keeps ops reg

theorem keptThroughout_iff {reg : RegistryObject} (h : reg.Sound) (ops : List RegistryOp) :
    KeptThroughout ops reg ↔ ∀ op ∈ ops, op.isMisled = false := by
  induction ops generalizing reg with
  | nil => exact iff_of_true trivial (by simp)
  | cons op ops ih =>
    rw [List.forall_mem_cons]
    constructor
    · intro hkept
      have hop := (RegistryOp.keeps_iff_not_misled h op).1 hkept.1
      exact ⟨hop, (ih hkept.1.sound).1 (hkept.2 _ rfl)⟩
    · rintro ⟨hop, hops⟩
      have hkeeps := (RegistryOp.keeps_iff_not_misled h op).2 hop
      refine ⟨hkeeps, fun reg' hreg' => ?_⟩
      obtain rfl : op.apply reg = reg' := Option.some.inj hreg'
      exact (ih hkeeps.sound).2 hops

/-- From the empty registry every sequence of operations keeps the registry in order, unless it
switches to a name that every object inherits or flags one. -/
theorem registry_kept_iff (ops : List RegistryOp) :
    KeptThroughout ops .empty ↔ ∀ op ∈ ops, op.isMisled = false :=
  keptThroughout_iff RegistryObject.sound_empty ops

/-- A switch to `toString` leaves a pointer at an account that does not exist. -/
theorem registry_not_always_kept :
    ¬ ∀ ops : List RegistryOp, KeptThroughout ops .empty := by
  intro h
  have hactive := (h [.setActive "toString"]).1.sound.active "toString" (by decide)
  revert hactive
  decide

end Maximal.Auth
