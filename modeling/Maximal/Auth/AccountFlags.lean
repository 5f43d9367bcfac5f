import Maximal.Auth.AccountRegistry

/-!
# The flags of the accounts

An account is flagged when it needs to be signed in again. What each helper of the registry does to
the flags is said once.

## Main definitions

- `AccountRegistry.isFlagged`, `AccountRegistry.isHealthy`
- `RegistryUpdate.flags?`, `RegistryUpdate.clears?` — the account that a helper is about

## Main results

- `RegistryUpdate.healthy_of_apply`, `RegistryUpdate.flagged_of_apply`
-/

namespace Maximal.Auth

namespace AccountRegistry

variable {reg : AccountRegistry} {key : AccountKey}

/-- The account, where the key has one. -/
def account? (reg : AccountRegistry) (key : AccountKey) : Option AccountRecord :=
  (reg.find? key).bind (·.account?)

/-- Does the account need to be signed in again? -/
def isFlagged (reg : AccountRegistry) (key : AccountKey) : Bool :=
  (reg.account? key).any (·.needsReauth)

/-- Is there an account that is not flagged? -/
def isHealthy (reg : AccountRegistry) (key : AccountKey) : Bool :=
  (reg.account? key).any (!·.needsReauth)

/-- What every object inherits is no account. -/
theorem account?_of_inherited (h : key ∈ inheritedNames) : reg.account? key = none := by
  unfold account?
  cases hfound : reg.find? key with
  | none => rfl
  | some rec =>
    have hbare : rec.isBare = true := (isBare_of_find? hfound).trans (decide_eq_true h)
    exact Option.isNone_iff_eq_none.1 hbare

theorem not_healthy_of_inherited (h : key ∈ inheritedNames) : reg.isHealthy key = false := by
  rw [isHealthy, account?_of_inherited h]
  rfl

theorem not_flagged_of_inherited (h : key ∈ inheritedNames) : reg.isFlagged key = false := by
  rw [isFlagged, account?_of_inherited h]
  rfl

theorem not_healthy_of_flagged (h : reg.isFlagged key = true) : reg.isHealthy key = false := by
  unfold isFlagged at h
  unfold isHealthy
  cases hfound : reg.account? key with
  | none => rfl
  | some rec =>
    rw [hfound] at h
    simpa using h

theorem not_flagged_of_healthy (h : reg.isHealthy key = true) : reg.isFlagged key = false := by
  by_contra hflagged
  rw [Bool.not_eq_false] at hflagged
  rw [not_healthy_of_flagged hflagged] at h
  cases h

theorem account?_congr {other : AccountRegistry} (h : reg.find? key = other.find? key) :
    reg.account? key = other.account? key := congrArg (Option.bind · _) h

theorem isHealthy_congr {other : AccountRegistry} (h : reg.find? key = other.find? key) :
    reg.isHealthy key = other.isHealthy key := congrArg (Option.any _) (account?_congr h)

theorem isFlagged_congr {other : AccountRegistry} (h : reg.find? key = other.find? key) :
    reg.isFlagged key = other.isFlagged key := congrArg (Option.any _) (account?_congr h)

theorem exists_mem_of_account? {rec : AccountRecord} (h : reg.account? key = some rec) :
    ∃ a ∈ reg.accounts, a.1 = key := by
  obtain ⟨stored, hfound, hrec⟩ := Option.bind_eq_some_iff.1 h
  unfold find? at hfound
  rcases Option.or_eq_some_iff.1 hfound with hlookup | ⟨-, hinherited⟩
  · exact ⟨(key, stored), mem_of_lookup hlookup, rfl⟩
  · split at hinherited <;> cases hinherited
    cases hrec

/-- A flagged account is listed. -/
theorem exists_mem_of_flagged (h : reg.isFlagged key = true) : ∃ a ∈ reg.accounts, a.1 = key := by
  obtain ⟨rec, hfound, -⟩ := (Option.any_eq_true _ _).1 h
  exact exists_mem_of_account? hfound

theorem exists_mem_of_healthy (h : reg.isHealthy key = true) : ∃ a ∈ reg.accounts, a.1 = key := by
  obtain ⟨rec, hfound, -⟩ := (Option.any_eq_true _ _).1 h
  exact exists_mem_of_account? hfound

theorem not_healthy_empty (key : AccountKey) : emptyRegistry.isHealthy key = false := by
  refine Bool.eq_false_iff.2 fun h => ?_
  obtain ⟨a, ha, -⟩ := exists_mem_of_healthy h
  cases ha

theorem not_flagged_empty (key : AccountKey) : emptyRegistry.isFlagged key = false := by
  refine Bool.eq_false_iff.2 fun h => ?_
  obtain ⟨a, ha, -⟩ := exists_mem_of_flagged h
  cases ha

end AccountRegistry

/-! ## The helpers -/

/-- The account that the helper flags. -/
def RegistryUpdate.flags? (reg : AccountRegistry) : RegistryUpdate → Option AccountKey
  | .markActiveNeedsReauth _ => reg.activeKey
  | .markNeedsReauth key _ => some key
  | _ => none

/-- The account whose flag the helper clears. -/
def RegistryUpdate.clears? (reg : AccountRegistry) : RegistryUpdate → Option AccountKey
  | .addAccount rec => some (accountKey rec.login rec.host)
  | .clearActiveNeedsReauth => reg.activeKey
  | .activateAndClearNeedsReauth key => some key
  | _ => none

/-- What a helper does to an account. -/
inductive FlagChange (reg next : AccountRegistry) (key : AccountKey) : RegistryUpdate → Prop
  | other (update : RegistryUpdate) : next.find? key = reg.find? key →
      FlagChange reg next key update
  | added (rec : AccountRecord) : accountKey rec.login rec.host = key →
      next.find? key = some (.account rec) → FlagChange reg next key (.addAccount rec)
  | flagged (update : RegistryUpdate) : update.flags? reg = some key →
      next.isHealthy key = false → FlagChange reg next key update
  | cleared (update : RegistryUpdate) : update.clears? reg = some key →
      next.isFlagged key = false → FlagChange reg next key update

theorem RegistryUpdate.flagChange {update : RegistryUpdate} {reg next : AccountRegistry}
    (h : update.apply reg = some next) (key : AccountKey) : FlagChange reg next key update := by
  have hmarked : ∀ marked error, update.flags? reg = some marked →
      next = Auth.markNeedsReauth reg marked error → FlagChange reg next key update := by
    rintro marked error hflags rfl
    by_cases hkey : key = marked
    · subst hkey
      refine .flagged _ hflags ?_
      unfold AccountRegistry.isHealthy AccountRegistry.account?
      rw [find?_markNeedsReauth, if_pos rfl]
      rcases reg.find? key with _ | _ | _ <;> rfl
    · refine .other _ ?_
      rw [find?_markNeedsReauth, if_neg hkey]
  have hcleared : ∀ cleared, update.clears? reg = some cleared →
      next.find? key = (clearNeedsReauth reg cleared).find? key →
      FlagChange reg next key update := by
    intro cleared hclears hfound
    rw [find?_clearNeedsReauth] at hfound
    by_cases hkey : key = cleared
    · subst hkey
      refine .cleared _ hclears ?_
      unfold AccountRegistry.isFlagged AccountRegistry.account?
      rw [hfound, if_pos rfl]
      rcases reg.find? key with _ | _ | _ <;> rfl
    · rw [if_neg hkey] at hfound
      exact .other _ hfound
  cases update with
  | addAccount rec =>
    cases h
    by_cases hkey : key = accountKey rec.login rec.host
    · refine .added rec hkey.symm ?_
      rw [find?_addAndActivate, if_pos hkey]
    · refine .other _ ?_
      rw [find?_addAndActivate, if_neg hkey]
  | deactivateActive =>
    simp only [RegistryUpdate.apply] at h
    split at h <;> cases h
    exact .other _ rfl
  | markActiveNeedsReauth error =>
    obtain ⟨active, hactive, rfl⟩ := Option.map_eq_some_iff.1 h
    exact hmarked active error hactive rfl
  | clearActiveNeedsReauth =>
    obtain ⟨active, hactive, hclear⟩ := Option.bind_eq_some_iff.1 h
    dsimp only at hclear
    split at hclear <;> cases hclear
    exact hcleared active hactive rfl
  | markNeedsReauth marked error =>
    cases h
    exact hmarked marked error rfl rfl
  | activateAndClearNeedsReauth active =>
    cases h
    refine hcleared active rfl ?_
    rw [find?_clearNeedsReauth, find?_clearNeedsReauth, find?_setActive]

/-- The helpers clear no other flag. -/
theorem RegistryUpdate.healthy_of_apply {update : RegistryUpdate} {reg next : AccountRegistry}
    {key : AccountKey} (h : update.apply reg = some next) (hhealthy : next.isHealthy key = true) :
    reg.isHealthy key = true ∨ update.clears? reg = some key := by
  cases RegistryUpdate.flagChange h key with
  | other _ hsame => exact .inl (AccountRegistry.isHealthy_congr hsame ▸ hhealthy)
  | added rec hkey => exact .inr (congrArg some hkey)
  | flagged _ _ hflagged => cases hflagged.symm.trans hhealthy
  | cleared _ hclears => exact .inr hclears

/-- The helpers flag no other account; one that is added is not flagged. -/
theorem RegistryUpdate.flagged_of_apply {update : RegistryUpdate} {reg next : AccountRegistry}
    {key : AccountKey} (h : update.apply reg = some next)
    (hadded : ∀ rec, update = .addAccount rec → rec.needsReauth = false)
    (hflagged : next.isFlagged key = true) :
    reg.isFlagged key = true ∨ update.flags? reg = some key := by
  cases RegistryUpdate.flagChange h key with
  | other _ hsame => exact .inl (AccountRegistry.isFlagged_congr hsame ▸ hflagged)
  | added rec _ hfound =>
    have haccount : next.account? key = some rec := by rw [AccountRegistry.account?, hfound]; rfl
    rw [AccountRegistry.isFlagged, haccount, Option.any_some, hadded rec rfl] at hflagged
    cases hflagged
  | flagged _ hflags => exact .inr hflags
  | cleared _ _ hcleared => cases hcleared.symm.trans hflagged

end Maximal.Auth
