import Maximal.Lib.Runs
import Mathlib.Data.Int.Order.Basic

/-!
# The refresh of the catalog

A request that finds the catalog stale lets it be fetched anew in the background; one that finds
none lets it be fetched for the first time. Neither waits for the fetch.

## Main definitions

- `jitterFor`, `isStale`, `refreshIfStale`
- `Keeper.step` — requests, catalogs that arrive and fetches that end, in any order
- `Due` — what a fetch comes after

## Main results

- `refreshes_due`
-/

namespace Maximal.Models

open Runs

/-! ## The decision -/

def STALE_AFTER_MS : ℤ := 6 * 60 * 60 * 1000

def JITTER_MS : ℤ := 2 * 60 * 60 * 1000

def PRIME_COOLDOWN_MS : ℤ := 60000

/-- The first four bytes of the hash of a machine id; `hash` stands for SHA-256. -/
def jitterFor (hash : String → UInt32) (machineId : Option String) : ℤ :=
  match machineId with
  | none => 0
  | some machineId =>
    if machineId = "" then 0 else (hash machineId).toNat % JITTER_MS - JITTER_MS / 2

def isStale (now : ℤ) (loadedAtMs : Option ℤ) (staleAfterMs jitterMs : ℤ) : Bool :=
  loadedAtMs.any fun loadedAtMs => loadedAtMs + staleAfterMs + jitterMs < now

inductive Refreshed where
  | fired
  | fresh
  | inFlight
  | priming
  | primeInFlight
  | primeCooldown
  deriving DecidableEq

/-- The guards of the two fetches. -/
structure Guards where
  refreshInFlight : Bool
  primeInFlight : Bool
  lastPrimeAttemptMs : Option ℤ
  deriving DecidableEq

def refreshIfStale (g : Guards) (now : ℤ) (loadedAtMs : Option ℤ) (jitterMs : ℤ) :
    Refreshed × Guards :=
  match loadedAtMs with
  | none =>
    if g.primeInFlight then (.primeInFlight, g)
    else if g.lastPrimeAttemptMs.any fun last => now < last + PRIME_COOLDOWN_MS then
      (.primeCooldown, g)
    else (.priming, { g with primeInFlight := true, lastPrimeAttemptMs := some now })
  | some loadedAtMs =>
    if g.refreshInFlight then (.inFlight, g)
    else if isStale now (some loadedAtMs) STALE_AFTER_MS jitterMs then
      (.fired, { g with refreshInFlight := true })
    else (.fresh, g)

/-! ## Requests and fetches -/

inductive Happened where
  | primed (now : ℤ)
  | refreshed (now : ℤ)
  | loaded (now : ℤ)
  deriving DecidableEq

structure Keeper where
  guards : Guards
  loadedAtMs : Option ℤ
  /-- The fetches that go on. -/
  primes : ℕ
  refreshes : ℕ
  history : List Happened
  deriving DecidableEq

inductive Event where
  | request (machineId : Option String) (now : ℤ)
  /-- A catalog is stored, whoever fetched it. -/
  | load (now : ℤ)
  /-- A fetch ends, with a catalog or without. -/
  | primeEnds
  | refreshEnds
  deriving DecidableEq

namespace Keeper

def start : Keeper := ⟨⟨false, false, none⟩, none, 0, 0, []⟩

def request (k : Keeper) (now jitterMs : ℤ) : Keeper :=
  match refreshIfStale k.guards now k.loadedAtMs jitterMs with
  | (.priming, guards) =>
    { k with guards, primes := k.primes + 1, history := k.history ++ [.primed now] }
  | (.fired, guards) =>
    { k with guards, refreshes := k.refreshes + 1, history := k.history ++ [.refreshed now] }
  | (_, guards) => { k with guards }

def step (hash : String → UInt32) : Event → Keeper → Option Keeper
  | .request machineId now, k => some (k.request now (jitterFor hash machineId))
  | .load now, k => some { k with loadedAtMs := some now, history := k.history ++ [.loaded now] }
  | .primeEnds, k =>
    if k.primes = 0 then none
    else
      some { k with primes := k.primes - 1, guards := { k.guards with primeInFlight := false } }
  | .refreshEnds, k =>
    if k.refreshes = 0 then none
    else
      some { k with
        refreshes := k.refreshes - 1, guards := { k.guards with refreshInFlight := false } }

end Keeper

/-! ## What a fetch comes after -/

def Happened.loadedAt : Happened → Option ℤ
  | .loaded now => some now
  | .primed _ | .refreshed _ => none

/-- The time of the last load. -/
def lastLoad (history : List Happened) : Option ℤ := (history.filterMap Happened.loadedAt).getLast?

/-- The first fetches are a minute apart and stop with the first catalog; later ones come more than
five hours after the catalog they replace. -/
def Due (before : List Happened) : Happened → Prop
  | .primed now =>
    lastLoad before = none ∧ ∀ earlier, .primed earlier ∈ before → earlier + 60000 ≤ now
  | .refreshed now => ∃ loaded, lastLoad before = some loaded ∧ loaded + 5 * 3600000 < now
  | .loaded _ => True

def AllDue (history : List Happened) : Prop :=
  ∀ i happened, history[i]? = some happened → Due (history.take i) happened

theorem AllDue.concat {history : List Happened} {happened : Happened} (h : AllDue history)
    (hdue : Due history happened) : AllDue (history ++ [happened]) := by
  intro i happened' hi
  by_cases hlt : i < history.length
  · rw [List.getElem?_append_left hlt] at hi
    rw [List.take_append_of_le_length (Nat.le_of_lt hlt)]
    exact h i happened' hi
  · obtain rfl : i = history.length := by
      have hle := (List.getElem?_eq_some_iff.1 hi).1
      rw [List.length_append, List.length_singleton] at hle
      omega
    rw [List.getElem?_concat_length] at hi
    obtain rfl := Option.some.inj hi
    rwa [List.take_left]

theorem lastLoad_concat (history : List Happened) (happened : Happened) :
    lastLoad (history ++ [happened]) = happened.loadedAt.or (lastLoad history) := by
  rw [lastLoad, List.filterMap_append, List.getLast?_append]
  cases happened <;> rfl

theorem jitterFor_range (hash : String → UInt32) (machineId : Option String) :
    -3600000 ≤ jitterFor hash machineId ∧ jitterFor hash machineId < 3600000 := by
  unfold jitterFor JITTER_MS
  split
  · omega
  · split <;> omega

/-! ## Runs -/

namespace Keeper

structure Kept (k : Keeper) : Prop where
  primes : k.primes = if k.guards.primeInFlight then 1 else 0
  refreshes : k.refreshes = if k.guards.refreshInFlight then 1 else 0
  loaded : k.loadedAtMs = lastLoad k.history
  attempt : ∀ last, k.guards.lastPrimeAttemptMs = some last → .primed last ∈ k.history
  attempts : ∀ earlier, .primed earlier ∈ k.history →
    ∃ last, k.guards.lastPrimeAttemptMs = some last ∧ earlier ≤ last
  due : AllDue k.history

/-- A request that finds no catalog. -/
theorem request_none {k : Keeper} (h : k.loadedAtMs = none) (now jitterMs : ℤ) :
    k.request now jitterMs =
      if k.guards.primeInFlight = false ∧
          k.guards.lastPrimeAttemptMs.all fun last => last + 60000 ≤ now then
        { k with
          guards := { k.guards with primeInFlight := true, lastPrimeAttemptMs := some now }
          primes := k.primes + 1
          history := k.history ++ [.primed now] }
      else k := by
  obtain ⟨⟨refreshing, priming, attempt⟩, loadedAtMs, primes, refreshes, history⟩ := k
  obtain rfl : loadedAtMs = none := h
  have hcooldown : (attempt.any fun last => now < last + PRIME_COOLDOWN_MS) =
      !attempt.all fun last => last + 60000 ≤ now := by
    cases attempt with
    | none => rfl
    | some last =>
      rw [Option.any_some, Option.all_some, PRIME_COOLDOWN_MS, ← decide_not]
      exact decide_eq_decide.2 not_le.symm
  unfold request refreshIfStale
  dsimp only
  rw [hcooldown]
  cases priming with
  | true => rw [if_pos rfl, if_neg fun h => nomatch h.1]
  | false =>
    rw [if_neg Bool.false_ne_true]
    cases attempt.all fun last => last + 60000 ≤ now with
    | true => rfl
    | false => rw [Bool.not_false, if_pos rfl, if_neg (Bool.false_ne_true ·.2)]

/-- A request that finds a catalog. -/
theorem request_some {k : Keeper} {loaded : ℤ} (h : k.loadedAtMs = some loaded)
    (now jitterMs : ℤ) :
    k.request now jitterMs =
      if k.guards.refreshInFlight = false ∧ loaded + 21600000 + jitterMs < now then
        { k with
          guards := { k.guards with refreshInFlight := true }
          refreshes := k.refreshes + 1
          history := k.history ++ [.refreshed now] }
      else k := by
  obtain ⟨⟨refreshing, priming, attempt⟩, loadedAtMs, primes, refreshes, history⟩ := k
  obtain rfl : loadedAtMs = some loaded := h
  have hstale : isStale now (some loaded) STALE_AFTER_MS jitterMs =
      decide (loaded + 21600000 + jitterMs < now) := rfl
  unfold request refreshIfStale
  dsimp only
  rw [hstale]
  cases refreshing with
  | true => rw [if_pos rfl, if_neg fun h => nomatch h.1]
  | false =>
    rw [if_neg Bool.false_ne_true]
    by_cases hlate : loaded + 21600000 + jitterMs < now
    · rw [decide_eq_true hlate, if_pos rfl, if_pos ⟨rfl, hlate⟩]
    · rw [decide_eq_false hlate, if_neg Bool.false_ne_true, if_neg (hlate ·.2)]

namespace Kept

variable {k : Keeper}

/-- The first fetch is started when it is due. -/
theorem prime (h : Kept k) (hloaded : k.loadedAtMs = none) {now : ℤ}
    (hfree : k.guards.primeInFlight = false)
    (hlate : (k.guards.lastPrimeAttemptMs.all fun last => last + 60000 ≤ now) = true) :
    Kept { k with
      guards := { k.guards with primeInFlight := true, lastPrimeAttemptMs := some now }
      primes := k.primes + 1
      history := k.history ++ [.primed now] } where
  primes := by
    have hprimes := h.primes
    rw [hfree] at hprimes
    show k.primes + 1 = 1
    rw [hprimes]
    rfl
  refreshes := h.refreshes
  loaded := by rw [lastLoad_concat, ← h.loaded]; rfl
  attempt last hlast := by
    obtain rfl := Option.some.inj hlast
    exact List.mem_append_right _ (List.mem_singleton_self _)
  attempts earlier hearlier := by
    refine ⟨now, rfl, ?_⟩
    obtain hmem | hnew := List.mem_append.1 hearlier
    · obtain ⟨last, hlast, hle⟩ := h.attempts earlier hmem
      rw [hlast, Option.all_some, decide_eq_true_iff] at hlate
      omega
    · cases List.mem_singleton.1 hnew
      exact le_rfl
  due := by
    refine h.due.concat ⟨h.loaded.symm.trans hloaded, fun earlier hmem => ?_⟩
    obtain ⟨last, hlast, hle⟩ := h.attempts earlier hmem
    rw [hlast, Option.all_some, decide_eq_true_iff] at hlate
    omega

/-- A later fetch is started when it is due. -/
theorem refresh (h : Kept k) {loaded : ℤ} (hloaded : k.loadedAtMs = some loaded) {now jitterMs : ℤ}
    (hjitter : -3600000 ≤ jitterMs) (hfree : k.guards.refreshInFlight = false)
    (hlate : loaded + 21600000 + jitterMs < now) :
    Kept { k with
      guards := { k.guards with refreshInFlight := true }
      refreshes := k.refreshes + 1
      history := k.history ++ [.refreshed now] } where
  primes := h.primes
  refreshes := by
    have hrefreshes := h.refreshes
    rw [hfree] at hrefreshes
    show k.refreshes + 1 = 1
    rw [hrefreshes]
    rfl
  loaded := by rw [lastLoad_concat, ← h.loaded]; rfl
  attempt last hlast := List.mem_append_left _ (h.attempt last hlast)
  attempts earlier hearlier := by
    obtain hmem | hnew := List.mem_append.1 hearlier
    · exact h.attempts earlier hmem
    · cases List.mem_singleton.1 hnew
  due := h.due.concat ⟨loaded, h.loaded.symm.trans hloaded, by omega⟩

theorem request (h : Kept k) (now : ℤ) {jitterMs : ℤ} (hjitter : -3600000 ≤ jitterMs) :
    Kept (k.request now jitterMs) := by
  cases hloaded : k.loadedAtMs with
  | none =>
    rw [request_none hloaded]
    split
    · next hdue => exact h.prime hloaded hdue.1 hdue.2
    · exact h
  | some loaded =>
    rw [request_some hloaded]
    split
    · next hdue => exact h.refresh hloaded hjitter hdue.1 hdue.2
    · exact h

theorem load (h : Kept k) (now : ℤ) :
    Kept { k with loadedAtMs := some now, history := k.history ++ [.loaded now] } where
  primes := h.primes
  refreshes := h.refreshes
  loaded := by rw [lastLoad_concat]; rfl
  attempt last hlast := List.mem_append_left _ (h.attempt last hlast)
  attempts earlier hearlier := by
    obtain hmem | hnew := List.mem_append.1 hearlier
    · exact h.attempts earlier hmem
    · cases List.mem_singleton.1 hnew
  due := h.due.concat trivial

theorem step {hash : String → UInt32} {e : Event} {k' : Keeper} (h : Kept k)
    (hstep : Keeper.step hash e k = some k') : Kept k' := by
  cases e with
  | request machineId now =>
    obtain rfl := Option.some.inj hstep
    exact h.request now (jitterFor_range hash machineId).1
  | load now =>
    obtain rfl := Option.some.inj hstep
    exact h.load now
  | primeEnds =>
    rw [Keeper.step, Option.ite_none_left_eq_some] at hstep
    obtain ⟨hgoing, hstep⟩ := hstep
    obtain rfl := Option.some.inj hstep
    have hprimes : k.primes ≤ 1 := by
      rw [h.primes]
      split <;> omega
    have hnone : k.primes - 1 = 0 := by omega
    exact ⟨hnone, h.refreshes, h.loaded, h.attempt, h.attempts, h.due⟩
  | refreshEnds =>
    rw [Keeper.step, Option.ite_none_left_eq_some] at hstep
    obtain ⟨hgoing, hstep⟩ := hstep
    obtain rfl := Option.some.inj hstep
    have hrefreshes : k.refreshes ≤ 1 := by
      rw [h.refreshes]
      split <;> omega
    have hnone : k.refreshes - 1 = 0 := by omega
    exact ⟨h.primes, hnone, h.loaded, h.attempt, h.attempts, h.due⟩

theorem start : Kept Keeper.start where
  primes := rfl
  refreshes := rfl
  loaded := rfl
  attempt _ hlast := nomatch hlast
  attempts _ hearlier := nomatch hearlier
  due _ _ hi := nomatch hi

theorem primeInFlight_iff (h : Kept k) : k.guards.primeInFlight = false ↔ k.primes = 0 := by
  rw [h.primes]
  cases k.guards.primeInFlight <;> simp

theorem refreshInFlight_iff (h : Kept k) : k.guards.refreshInFlight = false ↔ k.refreshes = 0 := by
  rw [h.refreshes]
  cases k.guards.refreshInFlight <;> simp

end Kept

end Keeper

/-- In every run one fetch of a kind goes on at most, and each is due when it starts; a request
starts one that is due, once seven hours have passed since the last catalog. -/
theorem refreshes_due (hash : String → UInt32) {events : List Event} {k : Keeper}
    (h : exec (Keeper.step hash) events Keeper.start = some k) :
    (k.primes ≤ 1 ∧ k.refreshes ≤ 1 ∧ AllDue k.history) ∧
    (∀ machineId now, lastLoad k.history = none → k.primes = 0 → Due k.history (.primed now) →
      (k.request now (jitterFor hash machineId)).history = k.history ++ [.primed now]) ∧
    (∀ machineId now loaded, lastLoad k.history = some loaded → k.refreshes = 0 →
      loaded + 7 * 3600000 ≤ now →
        (k.request now (jitterFor hash machineId)).history = k.history ++ [.refreshed now]) := by
  have hkept : k.Kept := exec_preserves (fun _ _ _ hkept => hkept.step) Keeper.Kept.start h
  refine ⟨⟨?_, ?_, hkept.due⟩, fun machineId now hnone hprimes hdue => ?_,
    fun machineId now loaded hloaded hrefreshes hlate => ?_⟩
  · rw [hkept.primes]
    split <;> omega
  · rw [hkept.refreshes]
    split <;> omega
  · have hcooldown : (k.guards.lastPrimeAttemptMs.all fun last => last + 60000 ≤ now) = true := by
      cases hattempt : k.guards.lastPrimeAttemptMs with
      | none => rfl
      | some last => exact decide_eq_true (hdue.2 last (hkept.attempt last hattempt))
    rw [Keeper.request_none (hkept.loaded.trans hnone),
      if_pos ⟨hkept.primeInFlight_iff.2 hprimes, hcooldown⟩]
  · have hjitter := (jitterFor_range hash machineId).2
    rw [Keeper.request_some (hkept.loaded.trans hloaded),
      if_pos ⟨hkept.refreshInFlight_iff.2 hrefreshes, by omega⟩]

/-- A first fetch that fails, another one a minute later, and a later fetch. -/
theorem refreshes_due_run :
    AllDue [.primed 0, .primed 60000, .loaded 61000, .refreshed 21661001] := by
  have hrun : exec (Keeper.step fun _ => 0)
      [.request none 0, .primeEnds, .request none 60000, .load 61000, .primeEnds,
        .request none 21661001] Keeper.start =
      some ⟨⟨true, false, some 60000⟩, some 61000, 0, 1,
        [.primed 0, .primed 60000, .loaded 61000, .refreshed 21661001]⟩ := by
    decide +kernel
  exact (refreshes_due (fun _ => 0) hrun).1.2.2

end Maximal.Models
