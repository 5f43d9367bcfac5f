import Mathlib.Data.Int.Order.Basic
import Mathlib.Data.Option.Basic

/-!
# When an outage is shown

A failure is shown once failures have gone on for a while, and a recovery is told if the outage was
long. `δ` stands for the diagnosis of a failure. Times are in milliseconds.

## Main definitions

- `HysteresisState` — when the outage began, if there is one
- `step`
-/

namespace Maximal.Net

def NETWORK_BANNER_ONSET_MS : ℤ := 20000

def NOTIFY_ON_RECONNECT_MS : ℤ := 30000

structure HysteresisState where
  firstFailureAt : Option ℤ
  /-- Was the outage ever shown? -/
  active : Bool
  deriving DecidableEq

def initialHysteresisState : HysteresisState := ⟨none, false⟩

structure HysteresisStep (δ : Type) where
  state : HysteresisState
  bannerDiagnosis : Option δ
  notifyReconnect : Bool

variable {δ : Type}

def step (prevState : HysteresisState) (rawDiagnosis : Option δ) (now : ℤ) : HysteresisStep δ :=
  match rawDiagnosis with
  | none =>
    { state := initialHysteresisState
      bannerDiagnosis := none
      notifyReconnect := prevState.firstFailureAt.any fun first =>
        NOTIFY_ON_RECONNECT_MS < now - first }
  | some diagnosis =>
    -- the later failures of an outage leave its beginning as it is
    let firstFailureAt := prevState.firstFailureAt.getD now
    let shouldShow := NETWORK_BANNER_ONSET_MS ≤ now - firstFailureAt
    { state := ⟨some firstFailureAt, prevState.active || shouldShow⟩
      bannerDiagnosis := if shouldShow then some diagnosis else none
      notifyReconnect := false }

variable {s : HysteresisState} {diagnosis : δ} {now : ℤ}

/-- A banner: the outage began long enough ago. -/
theorem onset_of_banner {shown : δ} (h : (step s (some diagnosis) now).bannerDiagnosis = some shown) :
    NETWORK_BANNER_ONSET_MS ≤ now - s.firstFailureAt.getD now ∧ shown = diagnosis := by
  rw [step] at h
  dsimp only at h
  split at h
  · next hshow => exact ⟨hshow, (Option.some.inj h).symm⟩
  · cases h

end Maximal.Net
