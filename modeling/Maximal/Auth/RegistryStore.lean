import Maximal.Auth.AccountRegistry
import Maximal.Lib.Rewrite
import Mathlib.Data.List.Permutation

/-!
# Concurrent updates of the registry file

The helpers that rewrite the registry take no lock, and write by way of one temporary file named
after the process. The event loop runs another handler wherever one of them awaits.

## Main definitions

- `RegistryCall` — a helper that rewrites the registry, or the removal of an account
- `RegistryStore.settle` — one await of one call settles

## Main results

- `registryCalls_serial` — undisturbed calls lose no update
- `concurrent_adds_lose` — two sign-ins that overlap lose one
-/

namespace Maximal.Auth

inductive RegistryCall where
  | helper (update : RegistryUpdate)
  /-- The routes that remove an account compose the read and the write themselves. -/
  | remove (key : AccountKey)
  deriving DecidableEq, Repr

/-- What a call writes, given what it has read; `none` where it returns without a write. -/
def RegistryCall.apply (reg : AccountRegistry) : RegistryCall → Option AccountRegistry
  | .helper update => update.apply reg
  | .remove key => if (reg.find? key).isNone then none else some (removeAccount reg key)

/-- An absent file reads as the empty registry. -/
abbrev RegistryStore := Rewrite.Store AccountRegistry RegistryCall

namespace RegistryStore

def settle (i : ℕ) (s : RegistryStore) : Option RegistryStore :=
  Rewrite.settle RegistryCall.apply i s

/-- The registry after calls that are made one after another. -/
def sequentially (reg : AccountRegistry) (calls : List RegistryCall) : AccountRegistry :=
  calls.foldl (Rewrite.update RegistryCall.apply) reg

end RegistryStore

open RegistryStore (sequentially)

/-- Where every call replaces the registry that it has read by the one that it has written, the
registry is at any time that of the calls that have returned, made in some order. -/
theorem registryCalls_serial {reg : AccountRegistry} {calls : List RegistryCall} {run : List ℕ}
    {s : RegistryStore}
    (hmeets : Runs.Meets RegistryStore.settle Rewrite.Undisturbed run (Rewrite.start reg calls))
    (h : Runs.exec RegistryStore.settle run (Rewrite.start reg calls) = some s) :
    (∃ order : List RegistryCall, order.Perm s.returned ∧ s.file = sequentially reg order) ∧
      (s.settled = true →
        ∃ order : List RegistryCall, order.Perm calls ∧ s.file = sequentially reg order) := by
  have hserial : Rewrite.Serial RegistryCall.apply reg calls s := Rewrite.serial_of_exec hmeets h
  refine ⟨hserial.order, fun hsettled => ?_⟩
  obtain ⟨order, hperm, hfile⟩ := hserial.order
  rw [hserial.returned_eq hsettled] at hperm
  exact ⟨order, hperm, hfile⟩

/-! ## Two sign-ins -/

def signedInAs (login : String) : AccountRecord :=
  makeAccountRecord login "github.com" .deviceCode ⟨"ghu_" ++ login, none, none, none⟩ 0

/-- `alice` signs in by device code while the `gh` account `bob` is adopted. -/
def twoSignIns : List RegistryCall :=
  [.helper (.addAccount (signedInAs "alice")), .helper (.addAccount (signedInAs "bob"))]

theorem registryCalls_serial_adds :
    ∃ s, Runs.exec RegistryStore.settle [0, 0, 0, 1, 1, 1]
      (Rewrite.start emptyRegistry twoSignIns) = some s ∧
      ∃ order : List RegistryCall,
        order.Perm twoSignIns ∧ s.file = sequentially emptyRegistry order := by
  have hrun : (Runs.exec RegistryStore.settle [0, 0, 0, 1, 1, 1]
      (Rewrite.start emptyRegistry twoSignIns)).any (·.settled) = true := by
    decide +kernel
  obtain ⟨s, hs, hsettled⟩ := (Option.any_eq_true _ _).1 hrun
  exact ⟨s, hs, (registryCalls_serial (by decide +kernel) hs).2 hsettled⟩

/-- Both read the empty registry; the second write drops the account of the first. -/
theorem concurrent_adds_lose :
    ¬ ∀ (reg : AccountRegistry) (calls : List RegistryCall) (run : List ℕ) (s : RegistryStore),
      Runs.exec RegistryStore.settle run (Rewrite.start reg calls) = some s → s.settled = true →
      ∃ order : List RegistryCall, order.Perm calls ∧ s.file = sequentially reg order := by
  intro hclaim
  have hrun : (Runs.exec RegistryStore.settle [0, 1, 0, 0, 1, 1]
      (Rewrite.start emptyRegistry twoSignIns)).any (fun s =>
        s.settled && (s.file.find? "alice@github.com").isNone) = true := by
    decide +kernel
  obtain ⟨s, hs, hdone⟩ := (Option.any_eq_true _ _).1 hrun
  obtain ⟨hsettled, hlost⟩ := Bool.and_eq_true_iff.1 hdone
  obtain ⟨order, hperm, hfile⟩ := hclaim _ _ _ s hs hsettled
  have hkept : ∀ order ∈ [twoSignIns, twoSignIns.reverse],
      ((sequentially emptyRegistry order).find? "alice@github.com").isNone = false := by
    decide +kernel
  have horder : order ∈ [twoSignIns, twoSignIns.reverse] := by
    rcases List.perm_pair.1 hperm with rfl | rfl
    · exact List.mem_cons_self
    · exact List.mem_cons_of_mem _ List.mem_cons_self
  rw [hfile, hkept order horder] at hlost
  cases hlost

end Maximal.Auth
