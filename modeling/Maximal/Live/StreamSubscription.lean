import Maximal.Live.Delivery

/-!
# Serving a subscription as an event stream

The response of `streamSubscription` is held until its client aborts, or until `subscribe` throws.
The `close` of its sink does nothing, so a subscriber that the hub drops is not disconnected.

## Main definitions

- `Served`, `Served.step` — the hub with a response for every subscriber
- `Served.heldOpen` — a response that nothing writes to any more
-/

namespace Maximal.Live

open Js

/-- The callback of `streamSSE`. -/
inductive Response where
  /-- It awaits `hub().subscribe(sink)`. -/
  | subscribing
  /-- It awaits the abort, whose handler is registered. -/
  | waiting
  /-- The stream is over, by the callback or by its client. -/
  | ended
  deriving DecidableEq, Repr

/-- The responses are those of the subscribers, in their order. -/
structure Served where
  hub : ControlHub
  responses : List Response := []

namespace Served

inductive Event where
  | hub (e : ControlHub.Event)
  /-- `subscribe` has returned, and the abort handler is registered. -/
  | listen (i : ℕ)
  | abort (i : ℕ)

/-- What a call of the hub does to the responses. A `subscribe` that throws ends its stream. -/
def respond (e : ControlHub.Event) (responses : List Response) : List Response :=
  match e with
  | .subscribe => responses ++ [.subscribing]
  | .snapshotFailed i => responses.set i .ended
  | _ => responses

def step (e : Event) (served : Served) : Option Served :=
  match e with
  -- Only the abort handler unsubscribes.
  | .hub (.unsubscribe _) => none
  | .hub e => do
    let hub ← served.hub.step e
    return { hub, responses := respond e served.responses }
  | .listen i => do
    let s ← served.hub.subscribers[i]?
    if s.snapshot.isSome ∧ served.responses[i]? = some .subscribing then
      return { served with responses := served.responses.set i .waiting }
    else none
  | .abort i =>
    match served.responses[i]? with
    | some .subscribing => some { served with responses := served.responses.set i .ended }
    | some .waiting => do
      let hub ← served.hub.step (.unsubscribe i)
      return { hub, responses := served.responses.set i .ended }
    | _ => none

/-- The hub has removed the subscriber and its drain is over, but its response is not. -/
def heldOpen (served : Served) (i : ℕ) : Bool :=
  match served.hub.subscribers[i]?, served.responses[i]? with
  | some s, some r => !s.alive && s.drain matches .ended && r ≠ .ended
  | _, _ => false

/-! ## The drops that disconnect nobody -/

/-- A push is refused for want of room. -/
def overflows (s : Subscriber) : Bool :=
  s.alive && !s.queue.waiter && decide (s.queue.capacity ≤ s.queue.items.length)

/-- A subscriber whose response is open has no room for a frame. -/
def overflowsOpen (served : Served) : Bool :=
  (served.hub.subscribers.zip served.responses).any fun sr => sr.2 ≠ .ended && overflows sr.1

/-- A step drops a subscriber whose response is open: its queue overflows, or a write to its sink
fails. -/
def dropsOpen (e : Event) (served : Served) : Bool :=
  match e with
  | .hub (.emit _ _) | .hub .heartbeat => served.overflowsOpen
  | .hub .flushUsage => served.hub.usageDirty && served.overflowsOpen
  | .hub (.writeFailed i) => served.responses[i]? ≠ some .ended
  | _ => false

/-! ## Every run -/

variable {served served' : Served} {e : Event} {s s' : Subscriber} {frame : Frame}
  {fanned : List Frame}

/-- An open response is that of a subscriber of the hub. -/
structure Attached (served : Served) : Prop where
  delivers : served.hub.Delivers
  length : served.responses.length = served.hub.subscribers.length
  alive : ∀ (i : ℕ) (s : Subscriber) (r : Response), served.hub.subscribers[i]? = some s →
    served.responses[i]? = some r → r ≠ .ended → s.alive = true

theorem offer_alive (h : s.Delivers fanned) (halive : s.alive = true)
    (hroom : overflows s = false) : (s.offer frame).alive = true := by
  rw [Subscriber.offer, BoundedQueue.push, h.queue_open halive]
  cases hwaiter : s.queue.waiter with
  | true => exact halive
  | false =>
    have hroom : ¬ s.queue.capacity ≤ s.queue.items.length := by
      simpa [overflows, halive, hwaiter] using hroom
    simp [hroom, halive]

theorem drainLoop_alive : s.drainLoop.alive = s.alive := by
  cases halive : s.alive <;> simp [Subscriber.drainLoop, Subscriber.drainEnd, halive]

/-- The drain goes on, and the subscriber stays. -/
theorem subscriberStep_alive {e : ControlHub.Event} (h : s.Delivers fanned)
    (hstep : ControlHub.subscriberStep e s = some s')
    (hfail : ∀ i, e ≠ .snapshotFailed i ∧ e ≠ .writeFailed i ∧ e ≠ .unsubscribe i) :
    s'.alive = s.alive := by
  unfold ControlHub.subscriberStep at hstep
  split at hstep
  · exact Option.some.inj hstep ▸ drainLoop_alive
  · exact absurd rfl (hfail _).1
  · next taken hdrain =>
    obtain rfl := Option.some.inj hstep
    cases taken with
    | item frame => rfl
    | closed =>
      have hdead := h.ended (Or.inr hdrain)
      simp [Subscriber.resume, Subscriber.drainEnd, hdead]
  · exact Option.some.inj hstep ▸ drainLoop_alive
  · exact absurd rfl (hfail _).2.1
  · exact absurd rfl (hfail _).2.2
  · cases hstep

theorem Attached.fanout (h : served.Attached) (hroom : served.overflowsOpen = false) :
    Attached { served with hub := served.hub.fanout frame } where
  delivers := h.delivers.fanout
  length := by simpa [ControlHub.fanout] using h.length
  alive i s' r hs' hr hopen := by
    obtain ⟨s, hs, rfl⟩ : ∃ s, served.hub.subscribers[i]? = some s ∧
        (if s.alive then s.offer frame else s) = s' := by
      simpa [ControlHub.fanout, Option.map_eq_some_iff] using hs'
    have halive := h.alive i s r hs hr hopen
    have hmem : (s, r) ∈ served.hub.subscribers.zip served.responses := by
      refine List.mem_of_getElem? (i := i) ?_
      rw [List.getElem?_zip_eq_some]
      exact ⟨hs, hr⟩
    have hfits : overflows s = false := by
      have := (List.any_eq_false.1 hroom) (s, r) hmem
      simpa [hopen] using this
    rw [if_pos halive]
    exact offer_alive (h.delivers s (List.mem_of_getElem? hs)).1 halive hfits

/-- One subscriber goes on; its response is open only if it stays. -/
theorem Attached.set (h : served.Attached) {i : ℕ} {hub : ControlHub} {responses : List Response}
    (hdelivers : hub.Delivers) (hlength : responses.length = served.responses.length)
    (hsubscribers : hub.subscribers = served.hub.subscribers.set i s')
    (hother : ∀ j, j ≠ i → responses[j]? = served.responses[j]?)
    (halive : ∀ r, responses[i]? = some r → r ≠ .ended → s'.alive = true) :
    Attached { hub, responses } where
  delivers := hdelivers
  length := by
    show responses.length = hub.subscribers.length
    rw [hlength, hsubscribers, List.length_set, h.length]
  alive j t r ht hr hopen := by
    have ht : (served.hub.subscribers.set i s')[j]? = some t := hsubscribers ▸ ht
    by_cases hj : j = i
    · subst hj
      rw [List.getElem?_set_self'] at ht
      obtain ⟨-, -, rfl⟩ := Option.map_eq_some_iff.1 ht
      exact halive r hr hopen
    · rw [List.getElem?_set_ne (Ne.symm hj)] at ht
      exact h.alive j t r ht (hother j hj ▸ hr) hopen

/-- An event of a subscriber changes that subscriber alone. -/
theorem step_subscriber {e : ControlHub.Event} {hub hub' : ControlHub}
    (hstep : hub.step e = some hub') {i : ℕ} (he : e.subscriber = some i) :
    ∃ s s', hub.subscribers[i]? = some s ∧ ControlHub.subscriberStep e s = some s' ∧
      hub'.subscribers = hub.subscribers.set i s' := by
  unfold ControlHub.step at hstep
  split at hstep <;> try cases he
  obtain ⟨j, hj, hstep⟩ := Option.bind_eq_some_iff.1 hstep
  obtain rfl : j = i := Option.some.inj (hj.symm.trans he)
  obtain ⟨s, hs, hstep⟩ := Option.bind_eq_some_iff.1 hstep
  obtain ⟨s', hs', hstep⟩ := Option.bind_eq_some_iff.1 hstep
  obtain rfl := Option.some.inj hstep
  exact ⟨s, s', hs, hs', rfl⟩

theorem Attached.goesOn (h : served.Attached) {e : ControlHub.Event} {hub : ControlHub} {i : ℕ}
    (hstep : served.hub.step e = some hub) (he : e.subscriber = some i)
    (hfail : ∀ i, e ≠ .snapshotFailed i ∧ e ≠ .writeFailed i ∧ e ≠ .unsubscribe i) :
    Attached { served with hub } := by
  obtain ⟨s, s', hs, hs', hsubscribers⟩ := step_subscriber hstep he
  refine h.set (h.delivers.step hstep) rfl hsubscribers (fun _ _ => rfl) fun r hr hopen => ?_
  rw [subscriberStep_alive (h.delivers s (List.mem_of_getElem? hs)).1 hs' hfail]
  exact h.alive i s r hs hr hopen

theorem ended_of_set {responses : List Response} {i : ℕ} {r : Response}
    (h : (responses.set i .ended)[i]? = some r) : r = .ended := by
  rw [List.getElem?_set_self'] at h
  obtain ⟨_, _, hr⟩ := Option.map_eq_some_iff.1 h
  exact hr.symm

theorem set_of_getElem? {subscribers : List Subscriber} {i : ℕ}
    (h : subscribers[i]? = some s) : subscribers.set i s = subscribers := by
  obtain ⟨hlt, rfl⟩ := List.getElem?_eq_some_iff.1 h
  exact List.set_getElem_self hlt

/-- A call of the hub keeps the open responses attached, unless it drops their subscribers. -/
theorem Attached.hubStep (h : served.Attached) {e : ControlHub.Event} {hub : ControlHub}
    (hkept : dropsOpen (.hub e) served = false) (he : ∀ i, e ≠ .unsubscribe i)
    (hstep : served.hub.step e = some hub) :
    Attached { hub, responses := respond e served.responses } := by
  cases e with
  | emit topic data =>
    obtain rfl := Option.some.inj hstep
    exact h.fanout hkept
  | heartbeat =>
    obtain rfl := Option.some.inj hstep
    exact h.fanout hkept
  | recordUsage data =>
    obtain rfl := Option.some.inj hstep
    exact ⟨h.delivers, h.length, h.alive⟩
  | flushUsage =>
    obtain rfl := Option.some.inj hstep
    rw [ControlHub.flushUsage]
    cases hdirty : served.hub.usageDirty with
    | false => exact h
    | true =>
      have hroom : served.overflowsOpen = false := by
        have hkept : (served.hub.usageDirty && served.overflowsOpen) = false := hkept
        simpa [hdirty] using hkept
      have hclean : Attached { served with hub := { served.hub with usageDirty := false } } :=
        ⟨h.delivers, h.length, h.alive⟩
      exact hclean.fanout hroom
  | subscribe =>
    obtain rfl := Option.some.inj hstep
    refine ⟨h.delivers.subscribe, ?_, fun i s r hs hr hopen => ?_⟩
    · simpa [ControlHub.subscribe, respond] using h.length
    · rcases lt_or_ge i served.hub.subscribers.length with hlt | hge
      · rw [ControlHub.subscribe, List.getElem?_append_left hlt] at hs
        rw [respond, List.getElem?_append_left (h.length ▸ hlt)] at hr
        exact h.alive i s r hs hr hopen
      · rw [ControlHub.subscribe, List.getElem?_append_right hge] at hs
        obtain rfl := List.mem_singleton.1 (List.mem_of_getElem? hs)
        rfl
  | snapshotBuilt i snapshot => exact h.goesOn hstep rfl (by simp)
  | resume i => exact h.goesOn hstep rfl (by simp)
  | writeDone i => exact h.goesOn hstep rfl (by simp)
  | unsubscribe i => exact absurd rfl (he i)
  | snapshotFailed i =>
    obtain ⟨s, s', hs, hs', hsubscribers⟩ := step_subscriber hstep rfl
    refine h.set (i := i) (h.delivers.step hstep) (by simp [respond]) hsubscribers ?_ ?_
    · intro j hj
      exact List.getElem?_set_ne (Ne.symm hj)
    · intro r hr hopen
      exact absurd (ended_of_set hr) hopen
  | writeFailed i =>
    obtain ⟨s, s', hs, hs', hsubscribers⟩ := step_subscriber hstep rfl
    have hended : served.responses[i]? = some .ended := by simpa [dropsOpen] using hkept
    refine h.set (h.delivers.step hstep) rfl hsubscribers (fun _ _ => rfl) fun r hr hopen => ?_
    exact absurd (Option.some.inj (hr.symm.trans hended)) hopen

/-- The response of a client that aborts is over, whatever becomes of its subscriber. -/
theorem Attached.abort (h : served.Attached) {i : ℕ} {hub : ControlHub}
    (hdelivers : hub.Delivers) (hsubscribers : hub.subscribers = served.hub.subscribers.set i s') :
    Attached { hub, responses := served.responses.set i .ended } := by
  refine h.set hdelivers (by simp) hsubscribers ?_ ?_
  · intro j hj
    exact List.getElem?_set_ne (Ne.symm hj)
  · intro r hr hopen
    exact absurd (ended_of_set hr) hopen

theorem Attached.step (h : served.Attached) (hkept : dropsOpen e served = false)
    (hstep : step e served = some served') : served'.Attached := by
  cases e with
  | hub e =>
    by_cases he : ∃ i, e = .unsubscribe i
    · obtain ⟨i, rfl⟩ := he
      cases hstep
    · have hstep : (do
          let hub ← served.hub.step e
          return { hub, responses := respond e served.responses } : Option Served) =
            some served' := by
        cases e <;> first | exact absurd ⟨_, rfl⟩ he | exact hstep
      obtain ⟨hub, hhub, hstep⟩ := Option.bind_eq_some_iff.1 hstep
      obtain rfl := Option.some.inj hstep
      exact h.hubStep hkept (fun i hi => he ⟨i, hi⟩) hhub
  | listen i =>
    obtain ⟨s, hs, hstep⟩ := Option.bind_eq_some_iff.1 hstep
    split at hstep
    · next hwaits =>
      obtain rfl := Option.some.inj hstep
      refine h.set h.delivers (by simp) (set_of_getElem? hs).symm ?_ fun r _ _ => ?_
      · intro j hj
        exact List.getElem?_set_ne (Ne.symm hj)
      · exact h.alive i s .subscribing hs hwaits.2 (by decide)
    · cases hstep
  | abort i =>
    unfold Served.step at hstep
    dsimp only at hstep
    split at hstep
    · next hsubscribing =>
      obtain rfl := Option.some.inj hstep
      obtain ⟨hlt, -⟩ := List.getElem?_eq_some_iff.1 hsubscribing
      have hs := List.getElem?_eq_getElem (h.length ▸ hlt : i < served.hub.subscribers.length)
      exact h.abort h.delivers (set_of_getElem? hs).symm
    · obtain ⟨hub, hhub, hstep⟩ := Option.bind_eq_some_iff.1 hstep
      obtain rfl := Option.some.inj hstep
      obtain ⟨s, s', hs, hs', hsubscribers⟩ := step_subscriber hhub rfl
      exact h.abort (h.delivers.step hhub) hsubscribers
    · cases hstep

/-- Where no queue overflows and no write fails under an open response, the response of every
subscriber that the hub has removed is over. -/
theorem response_ends {queueCapacity : ℕ} {events : List Event}
    (hkept : Runs.Meets step (fun e served => dropsOpen e served = false) events
      { hub := { queueCapacity } })
    (h : Runs.exec step events { hub := { queueCapacity } } = some served) :
    (∀ (i : ℕ) (s : Subscriber) (r : Response), served.hub.subscribers[i]? = some s →
      served.responses[i]? = some r → s.alive = false → r = .ended) ∧
    ∀ i, served.heldOpen i = false := by
  have hattached : served.Attached := by
    refine Runs.exec_invariant (I := Attached) ?_ hkept ?_ h
    · intro e served served' hI hkept hstep
      exact hI.step hkept hstep
    · refine ⟨fun s hs => ?_, rfl, fun i s r hs => ?_⟩
      · cases hs
      · cases hs
  have hends : ∀ (i : ℕ) (s : Subscriber) (r : Response), served.hub.subscribers[i]? = some s →
      served.responses[i]? = some r → s.alive = false → r = .ended := by
    intro i s r hs hr hdead
    by_contra hopen
    simpa [hdead] using hattached.alive i s r hs hr hopen
  refine ⟨hends, ?_⟩
  intro i
  rw [heldOpen]
  split
  · next s r hs hr =>
    cases hdead : s.alive with
    | true => rfl
    | false => simp [hends i s r hs hr hdead]
  · rfl

/-! ## A slow client -/

/-- A client reads its snapshot and nothing more; the hub beats until its queue is full. -/
def slowClient (beats : ℕ) : List Event :=
  [.hub .subscribe, .hub (.snapshotBuilt 0 .null), .listen 0, .hub (.resume 0)] ++
    List.replicate beats (.hub .heartbeat)

theorem response_ends_aborted :
    ∃ served, Runs.exec step (slowClient 256 ++ [.abort 0, .hub (.writeDone 0)])
      { hub := { queueCapacity := DEFAULT_QUEUE_CAPACITY } } = some served ∧
      ∀ i, served.heldOpen i = false := by
  have hrun : (Runs.exec step (slowClient 256 ++ [.abort 0, .hub (.writeDone 0)])
      { hub := { queueCapacity := DEFAULT_QUEUE_CAPACITY } }).isSome = true := by
    decide +kernel
  obtain ⟨served, hserved⟩ := Option.isSome_iff_exists.1 hrun
  exact ⟨served, hserved, (response_ends (by decide +kernel) hserved).2⟩

/-- One heartbeat more, and the hub drops the subscriber; nothing ends its response. -/
theorem slow_client_held_open :
    ∃ served, Runs.exec step (slowClient 257 ++ [.hub (.writeDone 0)])
      { hub := { queueCapacity := DEFAULT_QUEUE_CAPACITY } } = some served ∧
      served.heldOpen 0 = true := by
  have hrun : (Runs.exec step (slowClient 257 ++ [.hub (.writeDone 0)])
      { hub := { queueCapacity := DEFAULT_QUEUE_CAPACITY } }).any (·.heldOpen 0) = true := by
    decide +kernel
  obtain ⟨served, hserved, hopen⟩ := (Option.any_eq_true _ _).1 hrun
  exact ⟨served, hserved, hopen⟩

end Served

end Maximal.Live
