import Maximal.Lib.Js.Map
import Maximal.Lib.Js.OrderedMap
import Maximal.Lib.Runs
import Mathlib.Data.Set.Insert

/-!
# The event bus

A name has a set of handlers while it has handlers. What `subscribe` returns closes over the set:
it takes the handler out of this set, and the name out of the bus if the set is empty then. By that
time the name may have another set.

## Main definitions

- `EventBus`, `EventBus.publish`, `EventBus.subscribe`, `EventBus.unsubscribe`
- `EventBus.registered` — the pairs of a name and a handler that a publish would call
- `Session.step` — the bus and its callers; handlers may call the bus while they are called
- `Faithful` — a publish calls the handlers subscribed at its start once, and no handle ends
  another subscription

## Main results

- `EventBus.subscribe_subscribes`, `EventBus.unsubscribe_unsubscribes` — what a call does
- `Synced.step` — the bus holds the subscriptions that were not ended, in every run of such steps
- `eventBus_faithful_iff` — nothing is lost as long as no handle is called while its name has
  another set
-/

namespace Maximal.RuntimeState

open Js

variable {N H E : Type}

/-! ## The bus -/

abbrev HandlerSet (H : Type) : Type := OrderedMap H Unit

/-- The sets that were made are numbered; the map holds the numbers. -/
structure EventBus (N H : Type) where
  handlers : Entries N ℕ
  sets : ℕ → HandlerSet H
  made : ℕ

/-- What `subscribe` returns: the set, the handler and the name that it closes over. -/
structure Unsubscribe (N H : Type) where
  handlers : ℕ
  registeredHandler : H
  name : N
  deriving DecidableEq

namespace EventBus

def empty : EventBus N H := ⟨[], fun _ => .empty, 0⟩

variable [DecidableEq N]

/-- The handlers that are called, one after the other. -/
def publish (bus : EventBus N H) (name : N) : List H :=
  match bus.handlers.get name with
  | none => []
  | some handlers => (bus.sets handlers).keys

/-- The set of a name, which is made if there is none. -/
def handlersOf (bus : EventBus N H) (name : N) : EventBus N H × ℕ :=
  match bus.handlers.get name with
  | some handlers => (bus, handlers)
  | none =>
    ({ handlers := bus.handlers.set name bus.made
       sets := Function.update bus.sets bus.made .empty
       made := bus.made + 1 }, bus.made)

variable [DecidableEq H]

def subscribe (bus : EventBus N H) (name : N) (handler : H) : EventBus N H × Unsubscribe N H :=
  let (bus, handlers) := bus.handlersOf name
  ({ bus with
     sets := Function.update bus.sets handlers ((bus.sets handlers).set handler ()) },
    ⟨handlers, handler, name⟩)

def unsubscribe (bus : EventBus N H) (handle : Unsubscribe N H) : EventBus N H :=
  let handlers := (bus.sets handle.handlers).delete handle.registeredHandler
  let bus := { bus with sets := Function.update bus.sets handle.handlers handlers }
  -- whatever set the name has by now
  if handlers.size = 0 then { bus with handlers := bus.handlers.delete handle.name } else bus

end EventBus

/-! ## What the bus holds -/

namespace EventBus

variable [DecidableEq N]

def registered (bus : EventBus N H) : Set (N × H) := {p | p.2 ∈ bus.publish p.1}

/-- The sets of the map were made, none of them is empty, and no two names have one set. -/
structure Tidy (bus : EventBus N H) : Prop where
  made : ∀ name k, bus.handlers.get name = some k → k < bus.made
  nonempty : ∀ name k, bus.handlers.get name = some k → (bus.sets k).keys ≠ []
  apart : ∀ name name' k, bus.handlers.get name = some k → bus.handlers.get name' = some k →
    name = name'

variable {bus : EventBus N H} {name name' : N} {handler handler' : H}

theorem mem_publish : handler ∈ bus.publish name ↔
    ∃ k, bus.handlers.get name = some k ∧ handler ∈ (bus.sets k).keys := by
  rw [publish]
  cases bus.handlers.get name with
  | none => exact iff_of_false List.not_mem_nil fun ⟨k, hk, _⟩ => nomatch hk
  | some k =>
    constructor
    · exact fun h => ⟨k, rfl, h⟩
    · rintro ⟨k', hk', h⟩
      obtain rfl := Option.some.inj hk'
      exact h

theorem nodup_publish (bus : EventBus N H) (name : N) : (bus.publish name).Nodup := by
  rw [publish]
  split
  · exact List.nodup_nil
  · exact (bus.sets _).nodup

theorem tidy_empty : (empty : EventBus N H).Tidy where
  made := nofun
  nonempty := nofun
  apart := nofun

theorem registered_empty : (empty : EventBus N H).registered = ∅ := by
  ext p
  exact iff_of_false List.not_mem_nil (Set.notMem_empty p)

/-- What `subscribe` does: the set of the name holds the handler as well. -/
structure Subscribes (bus : EventBus N H) (name : N) (handler : H) (bus' : EventBus N H)
    (handle : Unsubscribe N H) : Prop where
  name_eq : handle.name = name
  handler_eq : handle.registeredHandler = handler
  get : ∀ n, bus'.handlers.get n = if n = name then some handle.handlers else bus.handlers.get n
  mem_keys : ∀ h, h ∈ (bus'.sets handle.handlers).keys ↔ h ∈ bus.publish name ∨ h = handler
  sets : ∀ k, k ≠ handle.handlers → bus'.sets k = bus.sets k
  made : handle.handlers < bus'.made ∧ bus.made ≤ bus'.made
  kept : ∀ k, bus.handlers.get name = some k → k = handle.handlers
  /-- The set is the one of the name, or a new one. -/
  old : handle.handlers < bus.made → bus.handlers.get name = some handle.handlers

namespace Subscribes

variable {bus' : EventBus N H} {handle : Unsubscribe N H}

/-- No other name has the set. -/
theorem own (h : bus.Subscribes name handler bus' handle) (htidy : bus.Tidy) {n : N}
    (hn : bus.handlers.get n = some handle.handlers) : n = name :=
  htidy.apart n name _ hn (h.old (htidy.made n _ hn))

theorem registered (h : bus.Subscribes name handler bus' handle) (htidy : bus.Tidy) :
    bus'.registered = insert (name, handler) bus.registered := by
  ext ⟨n, x⟩
  have hmem : x ∈ bus'.publish n ↔ x ∈ bus.publish n ∨ n = name ∧ x = handler := by
    rw [mem_publish, h.get]
    by_cases hn : n = name
    · subst hn
      rw [if_pos rfl, eq_self, true_and, ← h.mem_keys]
      constructor
      · rintro ⟨k, hk, hx⟩
        rwa [Option.some.inj hk]
      · exact fun hx => ⟨_, rfl, hx⟩
    · rw [if_neg hn, mem_publish]
      constructor
      · rintro ⟨k, hk, hx⟩
        refine .inl ⟨k, hk, ?_⟩
        rwa [h.sets k fun heq => hn (h.own htidy (heq ▸ hk))] at hx
      · rintro (⟨k, hk, hx⟩ | ⟨heq, -⟩)
        · refine ⟨k, hk, ?_⟩
          rwa [h.sets k fun heq => hn (h.own htidy (heq ▸ hk))]
        · exact absurd heq hn
  rw [Set.mem_insert_iff, Prod.mk.injEq]
  exact hmem.trans or_comm

theorem tidy (h : bus.Subscribes name handler bus' handle) (htidy : bus.Tidy) : bus'.Tidy where
  made n k hk := by
    rw [h.get] at hk
    split at hk
    · rw [← Option.some.inj hk]
      exact h.made.1
    · exact (htidy.made n k hk).trans_le h.made.2
  nonempty n k hk := by
    rw [h.get] at hk
    split at hk
    · obtain rfl := Option.some.inj hk
      exact List.ne_nil_of_mem ((h.mem_keys handler).2 (.inr rfl))
    · next hn =>
      rw [h.sets k fun heq => hn (h.own htidy (heq ▸ hk))]
      exact htidy.nonempty n k hk
  apart n n' k hk hk' := by
    rw [h.get] at hk hk'
    split at hk
    · next hn =>
      obtain rfl := Option.some.inj hk
      split at hk'
      · next hn' => exact hn.trans hn'.symm
      · exact hn.trans (h.own htidy hk').symm
    · split at hk'
      · next hn' =>
        obtain rfl := Option.some.inj hk'
        exact (h.own htidy hk).trans hn'.symm
      · exact htidy.apart n n' k hk hk'

end Subscribes

/-- What `unsubscribe` does: the set loses the handler, and the name its set if this set is
empty then. -/
structure Unsubscribes (bus : EventBus N H) (handle : Unsubscribe N H) (bus' : EventBus N H) :
    Prop where
  mem_keys : ∀ k h, h ∈ (bus'.sets k).keys ↔
    h ∈ (bus.sets k).keys ∧ (k = handle.handlers → h ≠ handle.registeredHandler)
  get : ∀ n, bus'.handlers.get n =
    if n = handle.name ∧ (bus'.sets handle.handlers).keys = [] then none else bus.handlers.get n
  made : bus'.made = bus.made

namespace Unsubscribes

variable {bus' : EventBus N H} {handle : Unsubscribe N H}

theorem get_of_get (h : bus.Unsubscribes handle bus') {n : N} {k : ℕ}
    (hk : bus'.handlers.get n = some k) : bus.handlers.get n = some k := by
  rw [h.get] at hk
  split at hk
  · exact nomatch hk
  · exact hk

theorem sets_eq_nil (h : bus.Unsubscribes handle bus') {k : ℕ} (hk : (bus.sets k).keys = []) :
    (bus'.sets k).keys = [] := by
  refine List.eq_nil_iff_forall_not_mem.2 fun x hx => ?_
  have hmem := ((h.mem_keys k x).1 hx).1
  rw [hk] at hmem
  exact List.not_mem_nil hmem

theorem tidy (h : bus.Unsubscribes handle bus') (htidy : bus.Tidy)
    (hown : ∀ n, bus.handlers.get n = some handle.handlers → n = handle.name) : bus'.Tidy where
  made n k hk := h.made ▸ htidy.made n k (h.get_of_get hk)
  nonempty n k hk hnil := by
    have hold := h.get_of_get hk
    by_cases heq : k = handle.handlers
    · subst heq
      rw [h.get, if_pos ⟨hown n hold, hnil⟩] at hk
      exact nomatch hk
    · obtain ⟨x, hx⟩ := List.exists_mem_of_ne_nil _ (htidy.nonempty n k hold)
      have hmem := (h.mem_keys k x).2 ⟨hx, fun hk => absurd hk heq⟩
      rw [hnil] at hmem
      exact List.not_mem_nil hmem
  apart n n' k hk hk' := htidy.apart n n' k (h.get_of_get hk) (h.get_of_get hk')

/-- Where the name has no other set, one handler of one name is taken out. -/
theorem registered (h : bus.Unsubscribes handle bus')
    (hown : ∀ n, bus.handlers.get n = some handle.handlers → n = handle.name)
    (hcurrent : ∀ k, bus.handlers.get handle.name = some k → k = handle.handlers) :
    bus'.registered = bus.registered \ {(handle.name, handle.registeredHandler)} := by
  ext ⟨n, x⟩
  have hmem : x ∈ bus'.publish n ↔
      x ∈ bus.publish n ∧ ¬(n = handle.name ∧ x = handle.registeredHandler) := by
    rw [mem_publish, mem_publish]
    constructor
    · rintro ⟨k, hk, hx⟩
      have hold := h.get_of_get hk
      rw [h.mem_keys] at hx
      exact ⟨⟨k, hold, hx.1⟩, fun ⟨hn, heq⟩ => hx.2 (hcurrent k (hn ▸ hold)) heq⟩
    · rintro ⟨⟨k, hold, hx⟩, hne⟩
      have hx' : x ∈ (bus'.sets k).keys :=
        (h.mem_keys k x).2 ⟨hx, fun hk heq => hne ⟨hown n (hk ▸ hold), heq⟩⟩
      refine ⟨k, ?_, hx'⟩
      rw [h.get, if_neg]
      · exact hold
      · rintro ⟨hn, hnil⟩
        rw [← hcurrent k (hn ▸ hold)] at hnil
        rw [hnil] at hx'
        exact List.not_mem_nil hx'
  rw [Set.mem_sdiff, Set.mem_singleton_iff, Prod.mk.injEq]
  exact hmem

/-- Where the set was empty already, the name loses the set that it has. -/
theorem publish_eq_nil (h : bus.Unsubscribes handle bus')
    (hnil : (bus.sets handle.handlers).keys = []) : bus'.publish handle.name = [] := by
  rw [publish, h.get, if_pos ⟨rfl, h.sets_eq_nil hnil⟩]

end Unsubscribes

variable [DecidableEq H]

theorem subscribe_of_get {k : ℕ} (hget : bus.handlers.get name = some k) (handler : H) :
    bus.subscribe name handler =
      ({ bus with sets := Function.update bus.sets k ((bus.sets k).set handler ()) },
        ⟨k, handler, name⟩) := by
  rw [subscribe, handlersOf, hget]

theorem subscribe_of_get_none (hget : bus.handlers.get name = none) (handler : H) :
    bus.subscribe name handler =
      ({ handlers := bus.handlers.set name bus.made
         sets := Function.update bus.sets bus.made (OrderedMap.empty.set handler ())
         made := bus.made + 1 },
        ⟨bus.made, handler, name⟩) := by
  rw [subscribe, handlersOf, hget]
  dsimp only
  rw [Function.update_self, Function.update_idem]

theorem subscribe_subscribes (htidy : bus.Tidy) (name : N) (handler : H) :
    bus.Subscribes name handler (bus.subscribe name handler).1 (bus.subscribe name handler).2 := by
  cases hget : bus.handlers.get name with
  | some k =>
    rw [subscribe_of_get hget]
    refine ⟨rfl, rfl, fun n => ?_, fun h => ?_, fun k' hk' => Function.update_of_ne hk' _ _,
      ⟨htidy.made name k hget, le_rfl⟩, fun k' hk' => Option.some.inj (hk'.symm.trans hget),
      fun _ => hget⟩
    · by_cases hn : n = name
      · rw [if_pos hn, hn, hget]
      · rw [if_neg hn]
    · dsimp only
      rw [Function.update_self, OrderedMap.mem_keys_set, publish, hget]
  | none =>
    rw [subscribe_of_get_none hget]
    refine ⟨rfl, rfl, fun n => ?_, fun h => ?_, fun k' hk' => Function.update_of_ne hk' _ _,
      ⟨Nat.lt_succ_self _, Nat.le_succ _⟩, fun k' hk' => ?_, fun h => absurd h (Nat.lt_irrefl _)⟩
    · by_cases hn : n = name
      · rw [if_pos hn, hn, Entries.get_set_self]
      · rw [if_neg hn, Entries.get_set_of_ne _ _ hn]
    · dsimp only
      rw [Function.update_self, OrderedMap.mem_keys_set, publish, hget]
      rfl
    · exact nomatch hget.symm.trans hk'

theorem unsubscribe_unsubscribes (bus : EventBus N H) (handle : Unsubscribe N H) :
    bus.Unsubscribes handle (bus.unsubscribe handle) := by
  have hsets : (bus.unsubscribe handle).sets = Function.update bus.sets handle.handlers
      ((bus.sets handle.handlers).delete handle.registeredHandler) := by
    rw [unsubscribe]
    dsimp only
    split <;> rfl
  refine ⟨fun k h => ?_, fun n => ?_, ?_⟩
  · rw [hsets]
    by_cases hk : k = handle.handlers
    · subst hk
      rw [Function.update_self, OrderedMap.mem_keys_delete]
      exact and_congr_right fun _ => ⟨fun hne _ => hne, fun hne => hne rfl⟩
    · rw [Function.update_of_ne hk]
      exact (and_iff_left fun heq => absurd heq hk).symm
  · rw [hsets, Function.update_self, unsubscribe]
    dsimp only
    split
    · next hsize =>
      rw [OrderedMap.size_eq_zero_iff] at hsize
      rw [Entries.get_delete]
      by_cases hn : n = handle.name
      · rw [if_pos hn, if_pos ⟨hn, hsize⟩]
      · rw [if_neg hn, if_neg fun h => hn h.1]
    · next hsize =>
      rw [OrderedMap.size_eq_zero_iff] at hsize
      rw [if_neg fun h => hsize h.2]
  · rw [unsubscribe]
    dsimp only
    split <;> rfl

/-! ### The set of a handle -/

/-- The set that a handle closes over: it is the set of no other name, and once its name has lost
it the set is empty for good. -/
structure Holds (bus : EventBus N H) (handle : Unsubscribe N H) : Prop where
  made : handle.handlers < bus.made
  own : ∀ n, bus.handlers.get n = some handle.handlers → n = handle.name
  emptied : bus.handlers.get handle.name ≠ some handle.handlers →
    (bus.sets handle.handlers).keys = []

omit [DecidableEq H] in
theorem Subscribes.holds_new {bus' : EventBus N H} {handle : Unsubscribe N H}
    (h : bus.Subscribes name handler bus' handle) (htidy : bus.Tidy) : bus'.Holds handle where
  made := h.made.1
  own n hn := by
    rw [h.name_eq]
    by_contra hne
    rw [h.get, if_neg hne] at hn
    exact hne (h.own htidy hn)
  emptied hne := by
    rw [h.get, if_pos h.name_eq] at hne
    exact absurd rfl hne

omit [DecidableEq H] in
theorem Subscribes.holds {bus' : EventBus N H} {handle other : Unsubscribe N H}
    (h : bus.Subscribes name handler bus' handle) (ho : bus.Holds other) : bus'.Holds other where
  made := ho.made.trans_le h.made.2
  own n hn := by
    rw [h.get] at hn
    split at hn
    · next hname =>
      have hset := Option.some.inj hn
      have hget := h.old (hset ▸ ho.made)
      exact hname.trans (ho.own name (hset ▸ hget))
    · exact ho.own n hn
  emptied hne := by
    have hset : other.handlers ≠ handle.handlers := by
      intro heq
      have hname := ho.own name (heq ▸ h.old (heq ▸ ho.made))
      exact hne (by rw [h.get, if_pos hname.symm, heq])
    rw [h.sets _ hset]
    refine ho.emptied fun hget => ?_
    rw [h.get] at hne
    split at hne
    · next hname => exact hset (h.kept _ (hname ▸ hget))
    · exact hne hget

omit [DecidableEq H] in
theorem Unsubscribes.holds {bus' : EventBus N H} {handle other : Unsubscribe N H}
    (h : bus.Unsubscribes handle bus')
    (hcurrent : ∀ k, bus.handlers.get handle.name = some k → k = handle.handlers)
    (ho : bus.Holds other) : bus'.Holds other where
  made := h.made ▸ ho.made
  own n hn := ho.own n (h.get_of_get hn)
  emptied hne := by
    by_cases hget : bus.handlers.get other.name = some other.handlers
    · rw [h.get] at hne
      split at hne
      · next hdrop =>
        -- The set that was dropped is the one that was emptied.
        have hset := hcurrent other.handlers (hdrop.1 ▸ hget)
        rw [hset]
        exact hdrop.2
      · exact absurd hget hne
    · exact h.sets_eq_nil (ho.emptied hget)

end EventBus

/-! ## The callers of the bus -/

/-- A publish that has not returned; `audience` is who was subscribed when it started. -/
structure Publication (H E : Type) where
  event : E
  audience : List H
  due : List H
  called : List (H × E)

/-- The handles that `subscribe` returned, those of them that were called, and the publishes that
have not returned, the innermost first. -/
structure Session (N H E : Type) where
  bus : EventBus N H
  handles : List (Unsubscribe N H)
  ended : List (Unsubscribe N H)
  publications : List (Publication H E)

namespace Session

/-- `unsubscribe i` calls the handle that the `i`-th subscription returned; `advance` is the next
step of the innermost publish, which calls a handler or returns. -/
inductive Label (N H E : Type) where
  | subscribe (name : N) (handler : H)
  | unsubscribe (i : ℕ)
  | publish (name : N) (event : E)
  | advance

def start : Session N H E := ⟨.empty, [], [], []⟩

variable [DecidableEq N] [DecidableEq H]

/-- The handlers of a name whose own handle was not called. -/
def subscribers (s : Session N H E) (name : N) : List H :=
  (s.handles.filter fun handle => handle.name = name ∧ handle ∉ s.ended).map
    Unsubscribe.registeredHandler

def step : Label N H E → Session N H E → Option (Session N H E)
  | .subscribe name handler, s =>
    let (bus, handle) := s.bus.subscribe name handler
    some { s with bus := bus, handles := s.handles ++ [handle] }
  | .unsubscribe i, s =>
    s.handles[i]?.map fun handle =>
      { s with bus := s.bus.unsubscribe handle, ended := handle :: s.ended }
  | .publish name event, s =>
    some { s with
      publications := ⟨event, s.subscribers name, s.bus.publish name, []⟩ :: s.publications }
  | .advance, s =>
    match s.publications with
    | [] => none
    | p :: ps =>
      match p.due with
      | [] => some { s with publications := ps }
      | handler :: due =>
        some { s with
          publications := { p with due, called := p.called ++ [(handler, p.event)] } :: ps }

end Session

/-! ## What is asked of a step -/

def Unsubscribe.pair (handle : Unsubscribe N H) : N × H := (handle.name, handle.registeredHandler)

/-- The next publish of the name would call the handler. -/
def Unsubscribe.Reached [DecidableEq N] (handle : Unsubscribe N H) (bus : EventBus N H) : Prop :=
  handle.registeredHandler ∈ bus.publish handle.name

/-- Every handler of the audience was called with the event, once, and no other. -/
def Publication.Complete (p : Publication H E) : Prop :=
  (p.called.map Prod.fst).Nodup ∧ p.called.Perm (p.audience.map fun handler => (handler, p.event))

variable [DecidableEq N] [DecidableEq H]

/-- A publish starts with its subscribers and has called them when it returns; a handle ends no
other subscription. -/
def Faithful : Session.Label N H E → Session N H E → Prop
  | .publish name _, s =>
    (s.bus.publish name).Nodup ∧ (s.bus.publish name).Perm (s.subscribers name)
  | .unsubscribe i, s => ∀ handle ∈ s.handles[i]?, ∀ other ∈ s.handles, other ≠ handle →
    other.Reached s.bus → other.Reached (s.bus.unsubscribe handle)
  | .advance, s => ∀ p ∈ s.publications.head?, p.due = [] → p.Complete
  | _, _ => True

/-- A handle is not called while its name has another set than the one that it closes over. -/
def Current : Session.Label N H E → Session N H E → Prop
  | .unsubscribe i, s => ∀ handle ∈ s.handles[i]?, ∀ k ∈ s.bus.handlers.get handle.name,
    k = handle.handlers
  | _, _ => True

instance (handle : Unsubscribe N H) (bus : EventBus N H) : Decidable (handle.Reached bus) :=
  inferInstanceAs (Decidable (_ ∈ bus.publish handle.name))

instance [DecidableEq E] (p : Publication H E) : Decidable p.Complete :=
  inferInstanceAs (Decidable ((p.called.map Prod.fst).Nodup ∧ _))

instance [DecidableEq E] :
    ∀ (l : Session.Label N H E) (s : Session N H E), Decidable (Faithful l s)
  | .subscribe _ _, _ => .isTrue trivial
  | .unsubscribe i, s => inferInstanceAs (Decidable (∀ handle ∈ s.handles[i]?,
      ∀ other ∈ s.handles, other ≠ handle → other.Reached s.bus →
        other.Reached (s.bus.unsubscribe handle)))
  | .publish name _, s => inferInstanceAs (Decidable ((s.bus.publish name).Nodup ∧ _))
  | .advance, s =>
    inferInstanceAs (Decidable (∀ p ∈ s.publications.head?, p.due = [] → p.Complete))

instance : ∀ (l : Session.Label N H E) (s : Session N H E), Decidable (Current l s)
  | .subscribe _ _, _ => .isTrue trivial
  | .unsubscribe i, s => inferInstanceAs (Decidable (∀ handle ∈ s.handles[i]?,
      ∀ k ∈ s.bus.handlers.get handle.name, k = handle.handlers))
  | .publish _ _, _ => .isTrue trivial
  | .advance, _ => .isTrue trivial

/-- The name and the handler of a subscription that the label makes. -/
def Session.Label.subscription : Session.Label N H E → Option (N × H)
  | .subscribe name handler => some (name, handler)
  | _ => none

/-- No subscription was made with this name and this handler. -/
def Fresh : Session.Label N H E → Session N H E → Prop
  | .subscribe name handler, s => (name, handler) ∉ s.handles.map Unsubscribe.pair
  | _, _ => True

/-! ## The bus in step with its callers -/

/-- Who was called and who is due are the audience. -/
structure Publication.Sound (p : Publication H E) : Prop where
  nodup : p.audience.Nodup
  perm : (p.called ++ p.due.map fun handler => (handler, p.event)).Perm
    (p.audience.map fun handler => (handler, p.event))

omit [DecidableEq H] in
theorem Publication.Sound.complete {p : Publication H E} (h : p.Sound) (hdue : p.due = []) :
    p.Complete := by
  have hperm := h.perm
  rw [hdue, List.map_nil, List.append_nil] at hperm
  refine ⟨?_, hperm⟩
  rw [(hperm.map Prod.fst).nodup_iff, List.map_map]
  exact (List.map_id _).symm ▸ h.nodup

/-- The bus holds the subscriptions whose handle was not called. -/
structure Synced (s : Session N H E) : Prop where
  distinct : (s.handles.map Unsubscribe.pair).Nodup
  ended : s.ended ⊆ s.handles
  tidy : s.bus.Tidy
  registered : ∀ p, p ∈ s.bus.registered ↔
    ∃ handle ∈ s.handles, handle ∉ s.ended ∧ handle.pair = p
  holds : ∀ handle ∈ s.handles, s.bus.Holds handle
  current : ∀ handle ∈ s.handles, handle ∉ s.ended →
    s.bus.handlers.get handle.name = some handle.handlers
  publications : ∀ p ∈ s.publications, p.Sound

omit [DecidableEq H] in
theorem synced_start : Synced (.start : Session N H E) where
  distinct := List.nodup_nil
  ended := List.nil_subset _
  tidy := EventBus.tidy_empty
  registered p := by
    rw [Session.start, EventBus.registered_empty]
    exact iff_of_false (Set.notMem_empty p) fun ⟨_, h, _⟩ => List.not_mem_nil h
  holds := nofun
  current := nofun
  publications := nofun

namespace Synced

variable {s s' : Session N H E} {name : N} {handler : H} {event : E} {i : ℕ}
  {handle other : Unsubscribe N H}

omit [DecidableEq H] in
theorem eq_of_pair (h : Synced s) (hhandle : handle ∈ s.handles) (hother : other ∈ s.handles)
    (hpair : other.pair = handle.pair) : other = handle :=
  List.inj_on_of_nodup_map h.distinct hother hhandle hpair

theorem subscribe (h : Synced s) (hfresh : Fresh (.subscribe name handler) s)
    (hstep : s.step (.subscribe name handler) = some s') : Synced s' := by
  have hsub := EventBus.subscribe_subscribes h.tidy name handler
  rw [Session.step] at hstep
  generalize s.bus.subscribe name handler = b at hsub hstep
  obtain ⟨bus, handle⟩ := b
  obtain rfl := Option.some.inj hstep
  have hpair : handle.pair = (name, handler) := Prod.ext hsub.name_eq hsub.handler_eq
  have hnew : handle ∉ s.handles := fun hmem => hfresh (hpair ▸ List.mem_map_of_mem hmem)
  constructor
  case distinct =>
    rw [List.map_append, List.map_singleton, hpair]
    exact h.distinct.append (List.nodup_singleton _) (List.disjoint_singleton.2 hfresh)
  case ended => exact List.subset_append_of_subset_left _ h.ended
  case tidy => exact hsub.tidy h.tidy
  case registered =>
    intro p
    rw [hsub.registered h.tidy, Set.mem_insert_iff, h.registered]
    constructor
    · rintro (rfl | ⟨other, hother, hlive, rfl⟩)
      · exact ⟨handle, List.mem_append_right _ (List.mem_singleton_self _),
          fun hended => hnew (h.ended hended), hpair⟩
      · exact ⟨other, List.mem_append_left _ hother, hlive, rfl⟩
    · rintro ⟨other, hother, hlive, rfl⟩
      obtain hother | hother := List.mem_append.1 hother
      · exact .inr ⟨other, hother, hlive, rfl⟩
      · exact .inl (List.mem_singleton.1 hother ▸ hpair)
  case holds =>
    intro other hother
    obtain hother | hother := List.mem_append.1 hother
    · exact hsub.holds (h.holds other hother)
    · exact List.mem_singleton.1 hother ▸ hsub.holds_new h.tidy
  case current =>
    intro other hother hlive
    rw [hsub.get]
    obtain hother | hother := List.mem_append.1 hother
    · have hget := h.current other hother hlive
      split
      · next hname =>
        have hset := hsub.kept other.handlers (hname ▸ hget)
        rw [hset]
      · exact hget
    · rw [List.mem_singleton.1 hother, if_pos hsub.name_eq]
  case publications => exact h.publications

theorem unsubscribe (h : Synced s) (hcurrent : Current (.unsubscribe i) s)
    (hstep : s.step (.unsubscribe i) = some s') : Synced s' := by
  obtain ⟨handle, hi, rfl⟩ := Option.map_eq_some_iff.1 hstep
  have hhandle := List.mem_of_getElem? hi
  have hun := EventBus.unsubscribe_unsubscribes s.bus handle
  have hown := (h.holds handle hhandle).own
  have hcurrent : ∀ k, s.bus.handlers.get handle.name = some k → k = handle.handlers :=
    hcurrent handle hi
  have hregistered := hun.registered hown hcurrent
  have hlive : ∀ p, p ∈ (s.bus.unsubscribe handle).registered ↔
      ∃ other ∈ s.handles, other ∉ handle :: s.ended ∧ other.pair = p := by
    intro p
    rw [hregistered, Set.mem_sdiff, h.registered, Set.mem_singleton_iff]
    constructor
    · rintro ⟨⟨other, hother, hlive, rfl⟩, hne⟩
      refine ⟨other, hother, fun hmem => ?_, rfl⟩
      exact (List.mem_cons.1 hmem).elim (fun heq => hne (heq ▸ rfl)) hlive
    · rintro ⟨other, hother, hlive, rfl⟩
      refine ⟨⟨other, hother, fun hmem => ?_, rfl⟩, fun hpair => ?_⟩
      · exact hlive (List.mem_cons_of_mem _ hmem)
      · exact hlive (List.mem_cons.2 (.inl (h.eq_of_pair hhandle hother hpair)))
  constructor
  case distinct => exact h.distinct
  case ended => exact List.cons_subset.2 ⟨hhandle, h.ended⟩
  case tidy => exact hun.tidy h.tidy hown
  case registered => exact hlive
  case holds => exact fun other hother => hun.holds hcurrent (h.holds other hother)
  case current =>
    intro other hother hother'
    have hget := h.current other hother fun hmem => hother' (List.mem_cons_of_mem _ hmem)
    obtain ⟨k, hk, -⟩ := EventBus.mem_publish.1 ((hlive other.pair).2 ⟨other, hother, hother', rfl⟩)
    obtain rfl := Option.some.inj ((hun.get_of_get hk).symm.trans hget)
    exact hk
  case publications => exact h.publications

theorem mem_subscribers (h : Synced s) :
    handler ∈ s.subscribers name ↔ handler ∈ s.bus.publish name := by
  change _ ↔ (name, handler) ∈ s.bus.registered
  rw [h.registered, Session.subscribers, List.mem_map]
  refine exists_congr fun handle => ?_
  rw [List.mem_filter, decide_eq_true_iff, Unsubscribe.pair, Prod.mk.injEq, and_assoc]
  tauto

theorem nodup_subscribers (h : Synced s) (name : N) : (s.subscribers name).Nodup := by
  refine List.Nodup.map_on ?_ (h.distinct.of_map _ |>.filter _)
  intro handle hhandle other hother heq
  rw [List.mem_filter, decide_eq_true_iff] at hhandle hother
  exact h.eq_of_pair hother.1 hhandle.1 (Prod.ext (hhandle.2.1.trans hother.2.1.symm) heq)

theorem perm_subscribers (h : Synced s) (name : N) :
    (s.bus.publish name).Perm (s.subscribers name) :=
  (List.perm_ext_iff_of_nodup (EventBus.nodup_publish _ _) (h.nodup_subscribers name)).2
    fun _ => h.mem_subscribers.symm

theorem publish (h : Synced s) (hstep : s.step (.publish name event) = some s') : Synced s' := by
  obtain rfl := Option.some.inj hstep
  have hsound : Publication.Sound ⟨event, s.subscribers name, s.bus.publish name, []⟩ :=
    ⟨h.nodup_subscribers name, (h.perm_subscribers name).map _⟩
  exact { h with publications := List.forall_mem_cons.2 ⟨hsound, h.publications⟩ }

theorem advance (h : Synced s) (hstep : s.step .advance = some s') : Synced s' := by
  rw [Session.step] at hstep
  cases hp : s.publications with
  | nil =>
    rw [hp] at hstep
    exact nomatch hstep
  | cons p ps =>
    obtain ⟨hsound, hrest⟩ := List.forall_mem_cons.1 (hp ▸ h.publications)
    rw [hp] at hstep
    dsimp only at hstep
    cases hdue : p.due with
    | nil =>
      rw [hdue] at hstep
      obtain rfl := Option.some.inj hstep
      exact { h with publications := hrest }
    | cons handler due =>
      rw [hdue] at hstep
      obtain rfl := Option.some.inj hstep
      have hperm := hsound.perm
      rw [hdue, List.map_cons, List.append_cons] at hperm
      exact { h with publications := List.forall_mem_cons.2 ⟨⟨hsound.nodup, hperm⟩, hrest⟩ }

theorem step (h : Synced s) (l : Session.Label N H E) (hfresh : Fresh l s) (hcurrent : Current l s)
    (hstep : s.step l = some s') : Synced s' := by
  cases l with
  | subscribe name handler => exact h.subscribe hfresh hstep
  | unsubscribe i => exact h.unsubscribe hcurrent hstep
  | publish name event => exact h.publish hstep
  | advance => exact h.advance hstep

/-- A handle whose name has another set takes this set from the name, with the handlers in it. -/
theorem faithful_iff (h : Synced s) (l : Session.Label N H E) : Faithful l s ↔ Current l s := by
  cases l with
  | subscribe name handler => exact Iff.rfl
  | publish name event =>
    exact iff_of_true ⟨EventBus.nodup_publish _ _, h.perm_subscribers name⟩ trivial
  | advance =>
    refine iff_of_true (fun p hp hdue => ?_) trivial
    exact (h.publications p (List.mem_of_head? hp)).complete hdue
  | unsubscribe i =>
    refine forall₂_congr fun handle hi => ?_
    have hhandle := List.mem_of_getElem? hi
    have hun := EventBus.unsubscribe_unsubscribes s.bus handle
    constructor
    · intro hkept k hk
      by_contra hne
      have hother : s.bus.handlers.get handle.name ≠ some handle.handlers :=
        fun hget => hne (Option.some.inj (hk.symm.trans hget))
      have hended : handle ∈ s.ended :=
        by_contra fun hlive => hother (h.current handle hhandle hlive)
      -- The other set has a handler, whose subscription is not ended and will be lost.
      obtain ⟨x, hx⟩ := List.exists_mem_of_ne_nil _ (h.tidy.nonempty _ k hk)
      obtain ⟨other, hmem, hlive, hpair⟩ :=
        (h.registered (handle.name, x)).1 (EventBus.mem_publish.2 ⟨k, hk, hx⟩)
      have hreached : other.Reached s.bus := by
        rw [Unsubscribe.Reached, EventBus.mem_publish, (Prod.mk.inj hpair).1, (Prod.mk.inj hpair).2]
        exact ⟨k, hk, hx⟩
      have hlost := hkept other hmem (fun heq => hlive (heq ▸ hended)) hreached
      rw [Unsubscribe.Reached, (Prod.mk.inj hpair).1,
        hun.publish_eq_nil ((h.holds handle hhandle).emptied hother)] at hlost
      exact List.not_mem_nil hlost
    · intro hcurrent other hother hne hreached
      change other.pair ∈ (s.bus.unsubscribe handle).registered
      rw [hun.registered (h.holds handle hhandle).own hcurrent]
      exact ⟨hreached, fun hpair => hne (h.eq_of_pair hhandle hother hpair)⟩

end Synced

/-! ## Runs -/

theorem pairs_step {s s' : Session N H E} {l : Session.Label N H E} (hstep : s.step l = some s') :
    s'.handles.map Unsubscribe.pair = s.handles.map Unsubscribe.pair ++ l.subscription.toList := by
  cases l with
  | subscribe name handler =>
    obtain rfl := Option.some.inj hstep
    exact List.map_append
  | unsubscribe i =>
    obtain ⟨handle, -, rfl⟩ := Option.map_eq_some_iff.1 hstep
    exact (List.append_nil _).symm
  | publish name event =>
    obtain rfl := Option.some.inj hstep
    exact (List.append_nil _).symm
  | advance =>
    rw [Session.step] at hstep
    split at hstep
    · exact nomatch hstep
    · split at hstep <;> obtain rfl := Option.some.inj hstep <;> exact (List.append_nil _).symm

theorem meets_fresh {s : Session N H E} {labels : List (Session.Label N H E)}
    (h : (s.handles.map Unsubscribe.pair ++
      labels.filterMap Session.Label.subscription).Nodup) :
    Runs.Meets Session.step Fresh labels s := by
  induction labels generalizing s with
  | nil => trivial
  | cons l ls ih =>
    have hsplit : (l :: ls).filterMap Session.Label.subscription =
        l.subscription.toList ++ ls.filterMap Session.Label.subscription := by
      rw [List.filterMap_eq_flatMap_toList, List.flatMap_cons, ← List.filterMap_eq_flatMap_toList]
    rw [hsplit, ← List.append_assoc] at h
    refine ⟨?_, fun s' hstep => ih (pairs_step hstep ▸ h)⟩
    cases l with
    | subscribe name handler =>
      have hdisjoint := (List.nodup_append'.1 (List.nodup_append'.1 h).1).2.2
      exact List.disjoint_singleton.1 hdisjoint
    | unsubscribe i => trivial
    | publish name event => trivial
    | advance => trivial

/-- Subscriptions are not lost and publishes are complete as long as no handle is called while its
name has another set. -/
theorem eventBus_faithful_iff (labels : List (Session.Label N H E))
    (hdistinct : (labels.filterMap Session.Label.subscription).Nodup) :
    Runs.Meets Session.step Faithful labels .start ↔
      Runs.Meets Session.step Current labels .start := by
  refine Runs.meets_congr (fun l s h _ => h.faithful_iff l) ?_ (meets_fresh hdistinct) synced_start
  exact fun l s s' h hfresh hcurrent hstep => h.step l hfresh hcurrent hstep

/-- One handle is called twice while its name has no set, another twice while the set that it
closes over is the one of the name, and a handler that is due is ended and is called. -/
theorem eventBus_faithful_repeated :
    Runs.Meets Session.step Faithful
      [.subscribe "auth.changed" 0, .unsubscribe 0, .unsubscribe 0, .subscribe "auth.changed" 1,
        .subscribe "auth.changed" 2, .publish "auth.changed" "signed-in", .advance, .unsubscribe 2,
        .subscribe "auth.changed" 3, .advance, .unsubscribe 2, .advance]
      (.start : Session String ℕ String) :=
  (eventBus_faithful_iff _ (by decide +kernel)).2 (by decide +kernel)

/-- The first subscription is ended, a second one is made and the first one's handle is called
again: the second subscription is lost, and the publish calls nobody. -/
theorem second_subscription_lost :
    ¬ Runs.Meets Session.step Faithful
        [.subscribe "auth.changed" 0, .unsubscribe 0, .subscribe "auth.changed" 1, .unsubscribe 0,
          .publish "auth.changed" "signed-in"]
        (.start : Session String ℕ String) ∧
      (Runs.exec Session.step
        [.subscribe "auth.changed" 0, .unsubscribe 0, .subscribe "auth.changed" 1, .unsubscribe 0]
        (.start : Session String ℕ String)).map
          (fun s => (s.bus.publish "auth.changed", s.subscribers "auth.changed")) =
        some ([], [1]) := by
  constructor <;> decide +kernel

end Maximal.RuntimeState
