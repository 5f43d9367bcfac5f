import Maximal.Lib.Runs
import Mathlib.Data.List.Basic

/-!
# Account actions of the control surface

The REST routes and the JSON-RPC methods switch and remove accounts under a mutex, each transport
under one of its own: `createControlRoutes` makes two. Signing out and adopting a `gh` account take
none. The mint of a switch clears a flag of the registry without being awaited.

## Main definitions

- `lock` — the mutex that an action runs under
- `Surface.step` — requests, and the updates that their actions make
- `NoOverlap` — every update of one action comes before those of the other

## Main results

- `actions_noOverlap` — what the mutexes leave to the requests
- `transports_overlap`
-/

namespace Maximal.Control

inductive Transport where
  | rest | rpc
  deriving DecidableEq, Repr

inductive ActionKind where
  | switch | remove | signOut | ghUse
  deriving DecidableEq, Repr

/-- Is there a route or a method for the action? -/
def serves : Transport → ActionKind → Bool
  | .rpc, .ghUse => false
  | _, _ => true

/-- The mutex of an action: `registerAccountActions` and `registerRpc` are given two. -/
def lock (transport : Transport) : ActionKind → Option Transport
  | .switch | .remove => some transport
  | .signOut | .ghUse => none

inductive Update where
  | live
  /-- The Copilot token, with the flag of the active account to be cleared unawaited. -/
  | mint
  | registry
  deriving DecidableEq, Repr

/-- What an action updates, in order; it may fail between two updates. -/
def ActionKind.updates : ActionKind → List Update
  | .switch => [.live, .mint, .registry]
  | .remove => [.registry]
  | .signOut => [.live, .registry]
  | .ghUse => [.registry]

structure Action where
  lock : Option Transport
  /-- The action at the tail of the mutex when this one was queued. -/
  behind : Option ℕ
  todo : List Update
  begun : Bool := false
  /-- The flag is still to be cleared. -/
  clearing : Bool := false
  settled : Bool := false
  deriving DecidableEq, Repr

/-- Every action so far, the tails of the mutexes, and which action made each update. -/
structure Surface where
  actions : List Action := []
  tails : Transport → Option ℕ := fun _ => none
  log : List ℕ := []

inductive Event where
  | request (transport : Transport) (kind : ActionKind)
  | update (i : ℕ)
  /-- The unawaited helper returns; it writes where the active account was flagged. -/
  | cleared (i : ℕ) (writes : Bool)
  /-- The action returns or throws. -/
  | settle (i : ℕ)
  deriving DecidableEq, Repr

namespace Surface

/-- `runExclusive` goes on once the action before it has settled. -/
def runs (c : Surface) (a : Action) : Bool :=
  !a.settled && a.behind.all fun j => (c.actions[j]?).any (·.settled)

def request (c : Surface) (transport : Transport) (kind : ActionKind) : Surface :=
  let l := lock transport kind
  { c with
    actions := c.actions ++ [{ lock := l, behind := l.bind c.tails, todo := kind.updates }]
    tails := fun t => if l = some t then some c.actions.length else c.tails t }

def step (e : Event) (c : Surface) : Option Surface :=
  match e with
  | .request transport kind =>
    if serves transport kind then some (c.request transport kind) else none
  | .update i => do
    let a ← c.actions[i]?
    match a.todo with
    | u :: todo =>
      if c.runs a then
        let a' := { a with todo, begun := true, clearing := a.clearing || u = .mint }
        return { c with actions := c.actions.set i a', log := c.log ++ [i] }
      else none
    | [] => none
  | .cleared i writes => do
    let a ← c.actions[i]?
    if a.clearing then
      return { c with
        actions := c.actions.set i { a with clearing := false }
        log := if writes then c.log ++ [i] else c.log }
    else none
  | .settle i => do
    let a ← c.actions[i]?
    if c.runs a then return { c with actions := c.actions.set i { a with settled := true } }
    else none

end Surface

/-! ## Overlaps -/

/-- Every update of `i` comes before every update of `j`. -/
def Before (log : List ℕ) (i j : ℕ) : Prop :=
  ∀ m n : ℕ, log[m]? = some i → log[n]? = some j → m < n

def NoOverlap (log : List ℕ) : Prop := ∀ i j, i ≠ j → Before log i j ∨ Before log j i

variable {log : List ℕ} {i j : ℕ}

theorem getElem?_concat {m : ℕ} (h : (log ++ [i])[m]? = some j) :
    log[m]? = some j ∨ m = log.length ∧ j = i := by
  rcases Nat.lt_or_ge m log.length with hlt | hge
  · rw [List.getElem?_append_left hlt] at h
    exact Or.inl h
  · rw [List.getElem?_append_right hge, List.getElem?_singleton] at h
    split at h
    · next hm =>
      obtain rfl := Option.some.inj h
      exact Or.inr ⟨by omega, rfl⟩
    · cases h

theorem before_of_not_mem (h : j ∉ log) : Before log i j := by
  intro m n _ hn
  exact absurd (List.mem_of_getElem? hn) h

/-- An update at the end comes after those of the others. -/
theorem Before.concat (h : Before log i j) (hne : i ≠ j) : Before (log ++ [j]) i j := by
  intro m n hm hn
  rcases getElem?_concat hm with hm | ⟨-, hij⟩
  · rcases getElem?_concat hn with hn | ⟨rfl, -⟩
    · exact h m n hm hn
    · exact (List.getElem?_eq_some_iff.1 hm).1
  · exact absurd hij hne

theorem Before.concat_other {k : ℕ} (h : Before log i j) (hi : i ≠ k) (hj : j ≠ k) :
    Before (log ++ [k]) i j := by
  intro m n hm hn
  rcases getElem?_concat hm with hm | ⟨-, hik⟩
  · rcases getElem?_concat hn with hn | ⟨-, hjk⟩
    · exact h m n hm hn
    · exact absurd hjk hj
  · exact absurd hik hi

/-- An action goes on where it has made no update yet, or the last one. -/
theorem NoOverlap.concat (h : NoOverlap log) (hi : i ∉ log ∨ log.getLast? = some i) :
    NoOverlap (log ++ [i]) := by
  have hall : ∀ j, j ≠ i → Before (log ++ [i]) j i := by
    intro j hne
    refine Before.concat ?_ hne
    rcases hi with hfresh | hlast
    · exact before_of_not_mem hfresh
    · rcases h j i hne with hbefore | hbefore
      · exact hbefore
      · -- The update of `i` at the end comes before none of `j`.
        intro m n hm _
        rw [List.getLast?_eq_getElem?] at hlast
        have hlt := hbefore _ m hlast hm
        have hbound := (List.getElem?_eq_some_iff.1 hm).1
        omega
  intro j k hne
  by_cases hj : j = i
  · subst hj
    exact Or.inr (hall k hne.symm)
  · by_cases hk : k = i
    · subst hk
      exact Or.inl (hall j hj)
    · exact (h j k hne).imp (fun hb => hb.concat_other hj hk) fun hb => hb.concat_other hk hj

/-! ## The queues of the mutexes -/

namespace Surface

variable {c c' : Surface} {a a' b : Action} {t : Transport} {e : Event}

/-- An action that was queued at a mutex is behind the last one queued before it. -/
structure Queued (c : Surface) : Prop where
  tail : ∀ t k, c.tails t = some k → ∃ a, c.actions[k]? = some a ∧ a.lock = some t
  last : ∀ t (i : ℕ) (a : Action), c.actions[i]? = some a → a.lock = some t →
    ∃ k, c.tails t = some k ∧ i ≤ k
  behind : ∀ t (i j : ℕ) (a b : Action), c.actions[i]? = some a → c.actions[j]? = some b →
    a.lock = some t → b.lock = some t → i < j →
    ∃ k d, b.behind = some k ∧ i ≤ k ∧ k < j ∧ c.actions[k]? = some d ∧ d.lock = some t
  /-- Nothing begins before what was queued earlier has settled. -/
  ordered : ∀ t (i j : ℕ) (a b : Action), c.actions[i]? = some a → c.actions[j]? = some b →
    a.lock = some t → b.lock = some t → i < j → b.begun = true ∨ b.settled = true →
    a.settled = true

theorem Queued.settled_before (h : c.Queued) {i j : ℕ} (ha : c.actions[i]? = some a)
    (hb : c.actions[j]? = some b) (hlock : a.lock = some t) (hlock' : b.lock = some t)
    (hij : i < j) (hruns : c.runs b = true) : a.settled = true := by
  obtain ⟨k, d, hbehind, hik, hkj, hd, hdlock⟩ := h.behind t i j a b ha hb hlock hlock' hij
  have hsettled : d.settled = true := by
    have hprev := (Bool.and_eq_true_iff.1 hruns).2
    simpa [hbehind, hd] using hprev
  rcases Nat.lt_or_ge i k with hlt | hge
  · exact h.ordered t i k a d ha hd hlock hdlock hlt (Or.inr hsettled)
  · obtain rfl : i = k := by omega
    obtain rfl := Option.some.inj (ha.symm.trans hd)
    exact hsettled

theorem getElem?_set_cases {i j : ℕ} (h : (c.actions.set i a')[j]? = some b) :
    j = i ∧ b = a' ∨ j ≠ i ∧ c.actions[j]? = some b := by
  by_cases hj : j = i
  · subst hj
    rw [List.getElem?_set_self'] at h
    obtain ⟨_, _, hb⟩ := Option.map_eq_some_iff.1 h
    exact Or.inl ⟨rfl, hb.symm⟩
  · rw [List.getElem?_set_ne (Ne.symm hj)] at h
    exact Or.inr ⟨hj, h⟩

/-- An action goes on at its place in the queue. -/
theorem Queued.set (h : c.Queued) {i : ℕ} (ha : c.actions[i]? = some a) (a' : Action)
    (log : List ℕ) (hlock : a'.lock = a.lock) (hbehind : a'.behind = a.behind)
    (hsettled : a.settled = true → a'.settled = true)
    (hruns : a'.begun = true ∨ a'.settled = true →
      (a.begun = true ∨ a.settled = true) ∨ c.runs a = true) :
    Queued { c with actions := c.actions.set i a', log := log } := by
  have hold : ∀ (j : ℕ) (b : Action), (c.actions.set i a')[j]? = some b →
      ∃ b₀, c.actions[j]? = some b₀ ∧ b.lock = b₀.lock ∧ b.behind = b₀.behind ∧
        (b₀.settled = true → b.settled = true) ∧
        (b.begun = true ∨ b.settled = true →
          (b₀.begun = true ∨ b₀.settled = true) ∨ c.runs b₀ = true) := by
    intro j b hb
    rcases getElem?_set_cases hb with ⟨rfl, rfl⟩ | ⟨-, hb⟩
    · exact ⟨a, ha, hlock, hbehind, hsettled, hruns⟩
    · exact ⟨b, hb, rfl, rfl, id, Or.inl⟩
  have hnew : ∀ (j : ℕ) (b : Action), c.actions[j]? = some b →
      ∃ b', (c.actions.set i a')[j]? = some b' ∧ b'.lock = b.lock := by
    intro j b hb
    by_cases hj : j = i
    · subst hj
      obtain rfl := Option.some.inj (ha.symm.trans hb)
      refine ⟨a', ?_, hlock⟩
      rw [List.getElem?_set_self', ha]
      rfl
    · exact ⟨b, (List.getElem?_set_ne (Ne.symm hj)).trans hb, rfl⟩
  refine ⟨?_, ?_, ?_, ?_⟩
  · intro t k hk
    obtain ⟨b, hb, hblock⟩ := h.tail t k hk
    obtain ⟨b', hb', hlock'⟩ := hnew k b hb
    exact ⟨b', hb', hlock'.trans hblock⟩
  · intro t j b hb hblock
    obtain ⟨b₀, hb₀, hlock₀, -⟩ := hold j b hb
    exact h.last t j b₀ hb₀ (hlock₀ ▸ hblock)
  · intro t j k b d hb hd hblock hdlock hjk
    obtain ⟨b₀, hb₀, hlock₀, -⟩ := hold j b hb
    obtain ⟨d₀, hd₀, hdlock₀, hdbehind, -⟩ := hold k d hd
    obtain ⟨m, f, hm, hjm, hmk, hf, hflock⟩ :=
      h.behind t j k b₀ d₀ hb₀ hd₀ (hlock₀ ▸ hblock) (hdlock₀ ▸ hdlock) hjk
    obtain ⟨f', hf', hflock'⟩ := hnew m f hf
    exact ⟨m, f', hdbehind.trans hm, hjm, hmk, hf', hflock'.trans hflock⟩
  · intro t j k b d hb hd hblock hdlock hjk hbegun
    obtain ⟨b₀, hb₀, hlock₀, -, hsettled₀, -⟩ := hold j b hb
    obtain ⟨d₀, hd₀, hdlock₀, -, -, hruns₀⟩ := hold k d hd
    refine hsettled₀ ?_
    rcases hruns₀ hbegun with hbegun₀ | hruns₀
    · exact h.ordered t j k b₀ d₀ hb₀ hd₀ (hlock₀ ▸ hblock) (hdlock₀ ▸ hdlock) hjk hbegun₀
    · exact h.settled_before hb₀ hd₀ (hlock₀ ▸ hblock) (hdlock₀ ▸ hdlock) hjk hruns₀

/-- The actions before a request are there after it. -/
theorem getElem?_request {j : ℕ} (transport : Transport) (kind : ActionKind)
    (hb : c.actions[j]? = some b) : (c.request transport kind).actions[j]? = some b :=
  (List.getElem?_append_left (List.getElem?_eq_some_iff.1 hb).1).trans hb

/-- An action after a request was there before it, or is the last one. -/
theorem getElem?_request_cases {transport : Transport} {kind : ActionKind} {j : ℕ}
    (hb : (c.request transport kind).actions[j]? = some b) :
    c.actions[j]? = some b ∨ j = c.actions.length ∧
      b = { lock := lock transport kind, behind := (lock transport kind).bind c.tails,
            todo := kind.updates } := by
  rcases Nat.lt_or_ge j c.actions.length with hlt | hge
  · exact Or.inl ((List.getElem?_append_left hlt).symm.trans hb)
  · rw [Surface.request, List.getElem?_append_right hge, List.getElem?_singleton] at hb
    split at hb
    · next hj => exact Or.inr ⟨by omega, (Option.some.inj hb).symm⟩
    · cases hb

theorem Queued.request (h : c.Queued) (transport : Transport) (kind : ActionKind) :
    (c.request transport kind).Queued := by
  have hlast : (c.request transport kind).actions[c.actions.length]? =
      some { lock := lock transport kind, behind := (lock transport kind).bind c.tails,
             todo := kind.updates } := by
    simp [Surface.request]
  refine ⟨?_, ?_, ?_, ?_⟩
  · intro t k hk
    simp only [Surface.request] at hk
    split at hk
    · next hlock =>
      obtain rfl := Option.some.inj hk
      exact ⟨_, hlast, hlock⟩
    · obtain ⟨b, hb, hblock⟩ := h.tail t k hk
      exact ⟨b, getElem?_request transport kind hb, hblock⟩
  · intro t j b hb hblock
    rcases getElem?_request_cases hb with hb | ⟨rfl, rfl⟩
    · obtain ⟨k, hk, hjk⟩ := h.last t j b hb hblock
      by_cases hlock : lock transport kind = some t
      · refine ⟨c.actions.length, if_pos hlock, ?_⟩
        have := (List.getElem?_eq_some_iff.1 hb).1
        omega
      · exact ⟨k, (if_neg hlock).trans hk, hjk⟩
    · exact ⟨c.actions.length, if_pos hblock, Nat.le_refl _⟩
  · intro t j k b d hb hd hblock hdlock hjk
    have hblt : j < c.actions.length := by
      rcases getElem?_request_cases hd with hd | ⟨rfl, -⟩
      · have := (List.getElem?_eq_some_iff.1 hd).1
        omega
      · exact hjk
    have hb : c.actions[j]? = some b := by
      rcases getElem?_request_cases hb with hb | ⟨rfl, -⟩
      · exact hb
      · omega
    rcases getElem?_request_cases hd with hd | ⟨rfl, rfl⟩
    · obtain ⟨m, f, hm, hjm, hmk, hf, hflock⟩ := h.behind t j k b d hb hd hblock hdlock hjk
      exact ⟨m, f, hm, hjm, hmk, getElem?_request transport kind hf, hflock⟩
    · obtain ⟨m, hm, hjm⟩ := h.last t j b hb hblock
      obtain ⟨f, hf, hflock⟩ := h.tail t m hm
      have hbehind : (lock transport kind).bind c.tails = some m := by
        rw [show lock transport kind = some t from hdlock]
        exact hm
      exact ⟨m, f, hbehind, hjm, (List.getElem?_eq_some_iff.1 hf).1,
        getElem?_request transport kind hf, hflock⟩
  · intro t j k b d hb hd hblock hdlock hjk hbegun
    rcases getElem?_request_cases hd with hd | ⟨rfl, rfl⟩
    · have hb : c.actions[j]? = some b := by
        have := (List.getElem?_eq_some_iff.1 hd).1
        rcases getElem?_request_cases hb with hb | ⟨rfl, -⟩
        · exact hb
        · omega
      exact h.ordered t j k b d hb hd hblock hdlock hjk hbegun
    · simp at hbegun

/-! ## Actions one after another -/

/-- The first update of an action while another is under way that the action does not queue
behind, or whose flag is still to be cleared. -/
def overtakes (e : Event) (c : Surface) : Bool :=
  match e with
  | .update i => (c.actions[i]?).any fun a => !a.begun && c.actions.any fun b =>
      b.begun && (b.clearing || (!b.settled && !(a.lock.isSome && a.lock == b.lock)))
  | _ => false

/-- Only the action of the last update may go on. -/
structure OneByOne (c : Surface) : Prop where
  queued : c.Queued
  begun : ∀ i ∈ c.log, ∃ a, c.actions[i]? = some a ∧ a.begun = true
  clearing : ∀ (i : ℕ) (a : Action), c.actions[i]? = some a → a.clearing = true → a.begun = true
  finished : ∀ (i : ℕ) (a : Action), c.actions[i]? = some a → a.begun = true →
    (a.settled = true ∧ a.clearing = false) ∨ c.log.getLast? = some i
  log : NoOverlap c.log

theorem OneByOne.request (h : c.OneByOne) (transport : Transport) (kind : ActionKind) :
    (c.request transport kind).OneByOne := by
  refine ⟨h.queued.request transport kind, ?_, ?_, ?_, h.log⟩
  · intro i hi
    obtain ⟨b, hb, hbegun⟩ := h.begun i hi
    exact ⟨b, getElem?_request transport kind hb, hbegun⟩
  · intro i b hb hclearing
    rcases getElem?_request_cases hb with hb | ⟨-, rfl⟩
    · exact h.clearing i b hb hclearing
    · cases hclearing
  · intro i b hb hbegun
    rcases getElem?_request_cases hb with hb | ⟨-, rfl⟩
    · exact h.finished i b hb hbegun
    · cases hbegun

/-- The action of the last update goes on. -/
theorem OneByOne.goesOn (h : c.OneByOne) {i : ℕ} {log : List ℕ} (ha : c.actions[i]? = some a)
    (hqueued : Queued { c with actions := c.actions.set i a', log := log })
    (hlog : log = c.log ∨ log = c.log ++ [i]) (hbegun : a'.begun = true)
    (hover : ∀ (j : ℕ) (b : Action), j ≠ i → c.actions[j]? = some b → b.begun = true →
      b.settled = true ∧ b.clearing = false)
    (hi : i ∉ c.log ∧ log = c.log ++ [i] ∨ c.log.getLast? = some i) :
    OneByOne { c with actions := c.actions.set i a', log := log } := by
  have hself : (c.actions.set i a')[i]? = some a' := by
    rw [List.getElem?_set_self', ha]
    rfl
  have hlast : log.getLast? = some i := by
    rcases hlog with rfl | rfl
    · rcases hi with ⟨-, hconcat⟩ | hlast
      · simp at hconcat
      · exact hlast
    · simp
  refine ⟨hqueued, ?_, ?_, ?_, ?_⟩
  · intro j hj
    by_cases hji : j = i
    · subst hji
      exact ⟨a', hself, hbegun⟩
    · have hj : j ∈ c.log := by
        rcases hlog with rfl | rfl
        · exact hj
        · simpa [hji] using hj
      obtain ⟨b, hb, hbbegun⟩ := h.begun j hj
      exact ⟨b, (List.getElem?_set_ne (Ne.symm hji)).trans hb, hbbegun⟩
  · intro j b hb hclearing
    rcases getElem?_set_cases hb with ⟨-, rfl⟩ | ⟨-, hb⟩
    · exact hbegun
    · exact h.clearing j b hb hclearing
  · intro j b hb hbbegun
    rcases getElem?_set_cases hb with ⟨rfl, -⟩ | ⟨hj, hb⟩
    · exact Or.inr hlast
    · exact Or.inl (hover j b hj hb hbbegun)
  · rcases hlog with rfl | rfl
    · exact h.log
    · exact h.log.concat (hi.imp And.left id)

/-- The action that made the last update is the only one that is not over. -/
theorem OneByOne.others_over (h : c.OneByOne) {i : ℕ} (hlast : c.log.getLast? = some i) :
    ∀ (j : ℕ) (b : Action), j ≠ i → c.actions[j]? = some b → b.begun = true →
      b.settled = true ∧ b.clearing = false := by
  intro j b hj hb hbegun
  rcases h.finished j b hb hbegun with hover | hlast'
  · exact hover
  · exact absurd (Option.some.inj (hlast'.symm.trans hlast)) hj

/-- An action that makes its first update overtakes nothing, and what it queues behind has
settled. -/
theorem OneByOne.first_over (h : c.OneByOne) {i : ℕ} (ha : c.actions[i]? = some a)
    (hruns : c.runs a = true) (hidle : a.begun = false)
    (hfirst : overtakes (.update i) c = false) :
    ∀ (j : ℕ) (b : Action), j ≠ i → c.actions[j]? = some b → b.begun = true →
      b.settled = true ∧ b.clearing = false := by
  intro j b hj hb hbegun
  have hopen : a.settled = false := by
    have hopen := (Bool.and_eq_true_iff.1 hruns).1
    simpa using hopen
  have hthis : (b.clearing || (!b.settled && !(a.lock.isSome && a.lock == b.lock))) = false := by
    have hnone : (!a.begun && c.actions.any fun b =>
        b.begun && (b.clearing || (!b.settled && !(a.lock.isSome && a.lock == b.lock)))) = false := by
      simpa only [overtakes, ha, Option.any_some] using hfirst
    rw [hidle, Bool.not_false, Bool.true_and] at hnone
    have hnot := List.any_eq_false.1 hnone b (List.mem_of_getElem? hb)
    rw [hbegun, Bool.true_and] at hnot
    exact Bool.eq_false_iff.2 hnot
  obtain ⟨hclear, hwaits⟩ := Bool.or_eq_false_iff.1 hthis
  refine ⟨?_, hclear⟩
  by_contra hunsettled
  have hbopen : b.settled = false := by simpa using hunsettled
  rw [hbopen, Bool.not_false, Bool.true_and, Bool.not_eq_false', Bool.and_eq_true] at hwaits
  obtain ⟨hlocked, hsame⟩ := hwaits
  obtain ⟨t, ht⟩ := Option.isSome_iff_exists.1 hlocked
  have ht' : b.lock = some t := (beq_iff_eq.1 hsame).symm.trans ht
  rcases Nat.lt_or_gt_of_ne hj with hlt | hgt
  · have hsettled := h.queued.settled_before hb ha ht' ht hlt hruns
    simp [hbopen] at hsettled
  · have hsettled := h.queued.ordered t i j a b ha hb ht ht' hgt (Or.inl hbegun)
    simp [hopen] at hsettled

theorem OneByOne.settles (h : c.OneByOne) {i : ℕ} (ha : c.actions[i]? = some a)
    (hqueued : Queued { c with actions := c.actions.set i { a with settled := true } }) :
    OneByOne { c with actions := c.actions.set i { a with settled := true } } := by
  refine ⟨hqueued, ?_, ?_, ?_, h.log⟩
  · intro j hj
    obtain ⟨b, hb, hbegun⟩ := h.begun j hj
    by_cases hji : j = i
    · subst hji
      obtain rfl := Option.some.inj (ha.symm.trans hb)
      refine ⟨{ a with settled := true }, ?_, hbegun⟩
      show (c.actions.set j _)[j]? = _
      rw [List.getElem?_set_self', ha]
      rfl
    · exact ⟨b, (List.getElem?_set_ne (Ne.symm hji)).trans hb, hbegun⟩
  · intro j b hb hclearing
    rcases getElem?_set_cases hb with ⟨-, rfl⟩ | ⟨-, hb⟩
    · exact h.clearing i a ha hclearing
    · exact h.clearing j b hb hclearing
  · intro j b hb hbegun
    rcases getElem?_set_cases hb with ⟨rfl, rfl⟩ | ⟨-, hb⟩
    · exact (h.finished j a ha hbegun).imp (fun hover => ⟨rfl, hover.2⟩) id
    · exact h.finished j b hb hbegun

theorem OneByOne.step (h : c.OneByOne) (hfirst : overtakes e c = false)
    (hstep : step e c = some c') : c'.OneByOne := by
  cases e with
  | request transport kind =>
    simp only [Surface.step] at hstep
    split at hstep
    · exact Option.some.inj hstep ▸ h.request transport kind
    · cases hstep
  | update i =>
    obtain ⟨a, ha, hstep⟩ := Option.bind_eq_some_iff.1 hstep
    split at hstep
    · next u todo htodo =>
      split at hstep
      · next hruns =>
        obtain rfl := Option.some.inj hstep
        have hqueued := h.queued.set ha
          { a with todo, begun := true, clearing := a.clearing || u = .mint } (c.log ++ [i])
          rfl rfl id (fun _ => Or.inr hruns)
        have hopen : a.settled = false := by
          have hopen := (Bool.and_eq_true_iff.1 hruns).1
          simpa using hopen
        cases hbegun : a.begun with
        | true =>
          have hlast : c.log.getLast? = some i := by
            rcases h.finished i a ha hbegun with ⟨hsettled, -⟩ | hlast
            · simp [hopen] at hsettled
            · exact hlast
          exact h.goesOn ha hqueued (Or.inr rfl) rfl (h.others_over hlast) (Or.inr hlast)
        | false =>
          have hfresh : i ∉ c.log := by
            intro hi
            obtain ⟨b, hb, hbbegun⟩ := h.begun i hi
            obtain rfl := Option.some.inj (ha.symm.trans hb)
            simp [hbegun] at hbbegun
          exact h.goesOn ha hqueued (Or.inr rfl) rfl (h.first_over ha hruns hbegun hfirst)
            (Or.inl ⟨hfresh, rfl⟩)
      · cases hstep
    · cases hstep
  | cleared i writes =>
    obtain ⟨a, ha, hstep⟩ := Option.bind_eq_some_iff.1 hstep
    split at hstep
    · next hclearing =>
      obtain rfl := Option.some.inj hstep
      have hbegun := h.clearing i a ha hclearing
      have hlast : c.log.getLast? = some i := by
        rcases h.finished i a ha hbegun with ⟨-, hcleared⟩ | hlast
        · simp [hclearing] at hcleared
        · exact hlast
      have hqueued := h.queued.set ha { a with clearing := false }
        (if writes then c.log ++ [i] else c.log) rfl rfl id Or.inl
      refine h.goesOn ha hqueued ?_ hbegun (h.others_over hlast) (Or.inr hlast)
      cases writes
      · exact Or.inl rfl
      · exact Or.inr rfl
    · cases hstep
  | settle i =>
    obtain ⟨a, ha, hstep⟩ := Option.bind_eq_some_iff.1 hstep
    split at hstep
    · next hruns =>
      obtain rfl := Option.some.inj hstep
      have hqueued := h.queued.set ha { a with settled := true } c.log rfl rfl
        (fun _ => rfl) (fun _ => Or.inr hruns)
      exact h.settles ha hqueued
    · cases hstep

theorem oneByOne_empty : OneByOne {} where
  queued := by
    refine ⟨?_, ?_, ?_, ?_⟩
    · intro t k hk
      cases hk
    · intro t i a ha
      cases ha
    · intro t i j a b ha
      cases ha
    · intro t i j a b ha
      cases ha
  begun i hi := by cases hi
  clearing i a ha := by cases ha
  finished i a ha := by cases ha
  log i j _ := by
    refine Or.inl fun m n hm => ?_
    cases hm

/-- No two actions overlap where none makes its first update ahead of one under way. -/
theorem actions_noOverlap {run : List Event}
    (hfirst : Runs.Meets step (fun e c => overtakes e c = false) run {})
    (h : Runs.exec step run {} = some c) : NoOverlap c.log := by
  have hone : c.OneByOne := by
    refine Runs.exec_invariant ?_ hfirst oneByOne_empty h
    intro e c c' hI hfirst hstep
    exact hI.step hfirst hstep
  exact hone.log

/-- Two switches over one transport queue; the account is signed out after them. -/
def oneTransport : List Event :=
  [.request .rest .switch, .request .rest .switch, .update 0, .update 0, .cleared 0 true, .update 0,
    .settle 0, .update 1, .settle 1, .request .rpc .signOut, .update 2, .update 2, .settle 2]

theorem actions_noOverlap_oneTransport :
    ∃ c, Runs.exec step oneTransport {} = some c ∧ NoOverlap c.log := by
  have hrun : (Runs.exec step oneTransport {}).isSome = true := by decide +kernel
  obtain ⟨c, hc⟩ := Option.isSome_iff_exists.1 hrun
  exact ⟨c, hc, actions_noOverlap (by decide +kernel) hc⟩

/-- A switch over each transport: the second sets its token between two updates of the first. -/
theorem transports_overlap :
    ¬ ∀ (run : List Event) (c : Surface), Runs.exec step run {} = some c → NoOverlap c.log := by
  intro hclaim
  have hrun : ((Runs.exec step [.request .rest .switch, .request .rpc .switch, .update 0, .update 1,
      .update 0] {}).map (·.log)) = some [0, 1, 0] := by
    decide +kernel
  obtain ⟨c, hc, hlog⟩ := Option.map_eq_some_iff.1 hrun
  have hoverlap := hclaim _ c hc 0 1 (by decide)
  rw [hlog] at hoverlap
  rcases hoverlap with hbefore | hbefore
  · exact absurd (hbefore 2 1 rfl rfl) (by decide)
  · exact absurd (hbefore 1 0 rfl rfl) (by decide)

end Surface

end Maximal.Control
