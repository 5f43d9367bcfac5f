import Maximal.Lib.Runs
import Maximal.Live.Client

/-!
# Delivery by the live hub

What a subscriber owes its sink is the snapshot followed by every frame fanned out since the
registration. What was written, what the drain holds and what is queued make it up while the
subscriber is registered; once it was removed nothing is added.
-/

namespace Maximal.Live

open Js

variable {s : Subscriber} {fanned : List Frame} {frame : Frame} {reason : String}

namespace Subscriber

/-- What a `take` of the drain resolved to before the drain went on. -/
def inHand (s : Subscriber) : List Frame :=
  match s.drain with
  | .taking (some (.item frame)) => [frame]
  | _ => []

/-- The snapshot frame followed by the frames fanned out since the registration. -/
def owed (s : Subscriber) (fanned : List Frame) : List Frame :=
  (s.snapshot.map snapshotFrame).toList ++ fanned.drop s.since

/-- Where the frames of a subscriber are. -/
structure Delivers (fanned : List Frame) (s : Subscriber) : Prop where
  since_le : s.since ≤ fanned.length
  waiter : s.queue.waiter = true ↔ s.drain = .taking none
  idle : s.drain = .taking none → s.alive = true ∧ s.queue.items = []
  closed : s.queue.closed = !s.alive
  closes : s.closes.length = if s.alive then 0 else 1
  ended : s.drain = .ended ∨ s.drain = .taking (some .closed) → s.alive = false
  prefix_owed : s.written ++ s.inHand <+: s.owed fanned
  owed : s.alive = true → s.written ++ s.inHand ++ s.queue.items = s.owed fanned

/-- Before its snapshot is built, a subscriber was written nothing. -/
def Awaits (s : Subscriber) : Prop :=
  s.drain = .building → s.snapshot = none ∧ s.written = []

/-! ## Leaving -/

@[simp] theorem remove_of_dead (h : s.alive = false) : s.remove reason = s := by
  simp [remove, h]

@[simp] theorem remove_alive : (s.remove reason).alive = false := by
  rw [remove]
  split
  · rfl
  · next h => simpa using h

namespace Delivers

theorem queue_open (h : s.Delivers fanned) (halive : s.alive = true) : s.queue.closed = false := by
  rw [h.closed, halive]
  rfl

/-- A subscriber that leaves is called back once, and its drain is woken. -/
theorem remove_eq (h : s.Delivers fanned) (halive : s.alive = true) :
    s.remove reason =
      { s with
        alive := false
        queue := { s.queue with closed := true, waiter := false }
        drain := if s.queue.waiter then .taking (some .closed) else s.drain
        closes := [reason] } := by
  have hcloses : s.closes = [] := by
    have := h.closes
    rw [halive] at this
    exact List.eq_nil_of_length_eq_zero this
  simp [Subscriber.remove, halive, BoundedQueue.close, h.queue_open halive, hcloses]

theorem remove (h : s.Delivers fanned) : (s.remove reason).Delivers fanned := by
  cases halive : s.alive with
  | false => rwa [remove_of_dead halive]
  | true =>
    rw [h.remove_eq halive]
    cases hwaiter : s.queue.waiter with
    | true =>
      have hdrain := h.waiter.1 hwaiter
      have hinHand : s.inHand = [] := by simp [inHand, hdrain]
      have hsofar := h.prefix_owed
      rw [hinHand] at hsofar
      exact ⟨h.since_le, by simp, by simp, by simp, by simp, by simp, hsofar, by simp⟩
    | false =>
      have hdrain : s.drain ≠ .taking none := fun hd => by simp [h.waiter.2 hd] at hwaiter
      exact ⟨h.since_le, by simpa using hdrain, fun hd => absurd hd hdrain, by simp, by simp,
        fun _ => rfl, h.prefix_owed, by simp⟩

/-- The drain of a subscriber that left may end. -/
theorem of_ended (h : s.Delivers fanned) (hdead : s.alive = false) :
    ({ s with drain := .ended } : Subscriber).Delivers fanned := by
  have hwaiter : s.queue.waiter = false := by
    cases hw : s.queue.waiter with
    | false => rfl
    | true => simpa [hdead] using (h.idle (h.waiter.1 hw)).1
  have hsofar : s.written ++ [] <+: s.owed fanned := by
    rw [List.append_nil]
    exact (List.prefix_append _ _).trans h.prefix_owed
  exact ⟨h.since_le, by simp [hwaiter], by simp, h.closed, h.closes, fun _ => hdead,
    hsofar, fun ha => by simp [hdead] at ha⟩

theorem drainEnd (h : s.Delivers fanned) : s.drainEnd.Delivers fanned :=
  h.remove.of_ended remove_alive

theorem snapshotFailed (h : s.Delivers fanned) : s.snapshotFailed.Delivers fanned :=
  h.remove.of_ended remove_alive

/-! ## The drain -/

/-- The drain goes round its loop with nothing in hand. -/
theorem drainLoop (h : s.Delivers fanned) (hinHand : s.inHand = [])
    (hdrain : s.drain ≠ .taking none) : s.drainLoop.Delivers fanned := by
  rw [Subscriber.drainLoop]
  cases halive : s.alive with
  | false => exact h.drainEnd
  | true =>
    have hopen := h.queue_open halive
    have howed := h.owed halive
    have hcloses := h.closes
    have hwaiter : s.queue.waiter = false := by
      cases hw : s.queue.waiter with
      | false => rfl
      | true => exact absurd (h.waiter.1 hw) hdrain
    rw [if_pos rfl]
    rw [hinHand, List.append_nil] at howed
    obtain ⟨item, items, hitems, htake⟩ | ⟨-, hclosed, -⟩ | ⟨hitems, -, htake⟩ := s.queue.take_cases
    · rw [hitems] at howed
      have hheld : s.written ++ [item] ++ items = s.owed fanned := by simpa using howed
      rw [htake]
      exact ⟨h.since_le, by simp [hwaiter], by simp, by simpa [halive] using hopen,
        by simpa [halive] using hcloses, by simp, ⟨items, hheld⟩, fun _ => hheld⟩
    · exact nomatch hopen.symm.trans hclosed
    · rw [hitems, List.append_nil] at howed
      have hsofar : s.written ++ [] = s.owed fanned := by rw [List.append_nil, howed]
      rw [htake]
      refine ⟨h.since_le, by simp, fun _ => ⟨rfl, hitems⟩, by simpa [halive] using hopen,
        by simpa [halive] using hcloses, by simp, ?_, fun _ => ?_⟩
      · exact hsofar ▸ List.prefix_refl _
      · show s.written ++ [] ++ s.queue.items = _
        rw [hitems, List.append_nil]
        exact hsofar

/-- The frame that the drain goes on with is handed to the sink. -/
theorem resume {taken : Taken Frame} (h : s.Delivers fanned)
    (hdrain : s.drain = .taking (some taken)) : (s.resume taken).Delivers fanned := by
  cases taken with
  | closed => exact h.drainEnd
  | item frame =>
    have hinHand : s.inHand = [frame] := by simp [inHand, hdrain]
    have hwaiter : s.queue.waiter = false := by
      cases hw : s.queue.waiter with
      | false => rfl
      | true => simpa [hdrain] using h.waiter.1 hw
    have hsofar := h.prefix_owed
    have howed := h.owed
    rw [hinHand] at hsofar howed
    refine ⟨h.since_le, by simp [Subscriber.resume, hwaiter], by simp [Subscriber.resume],
      h.closed, h.closes, by simp [Subscriber.resume], ?_, fun halive => ?_⟩
    · show s.written ++ [frame] ++ [] <+: _
      rw [List.append_nil]
      exact hsofar
    · show s.written ++ [frame] ++ [] ++ s.queue.items = _
      rw [List.append_nil]
      exact howed halive

/-! ## Fan-out -/

/-- What is owed grows at its end. -/
theorem owed_append (hsince : s.since ≤ fanned.length) :
    s.owed (fanned ++ [frame]) = s.owed fanned ++ [frame] := by
  rw [Subscriber.owed, Subscriber.owed, List.drop_append_of_le_length hsince, List.append_assoc]

theorem prefix_append (h : s.Delivers fanned) :
    s.written ++ s.inHand <+: s.owed (fanned ++ [frame]) := by
  rw [owed_append h.since_le]
  exact h.prefix_owed.trans (List.prefix_append _ _)

/-- A subscriber that left is not offered the frame. -/
theorem of_dead (h : s.Delivers fanned) (hdead : s.alive = false) :
    s.Delivers (fanned ++ [frame]) :=
  ⟨by simpa using Nat.le_succ_of_le h.since_le, h.waiter, h.idle, h.closed, h.closes, h.ended,
    h.prefix_append, fun ha => by simp [hdead] at ha⟩

theorem offer (h : s.Delivers fanned) (halive : s.alive = true) :
    (s.offer frame).Delivers (fanned ++ [frame]) := by
  have hopen := h.queue_open halive
  have howed := h.owed halive
  have hcloses := h.closes
  have hsince : s.since ≤ (fanned ++ [frame]).length := by simpa using Nat.le_succ_of_le h.since_le
  obtain ⟨hclosed, -⟩ | ⟨-, hwaiter, hpush⟩ | ⟨-, -, -, hpush⟩ | ⟨-, hidle, -, hpush⟩ :=
    s.queue.push_cases frame
  · exact nomatch hopen.symm.trans hclosed
  · -- The drain waits: nothing is in hand and nothing is queued.
    have hdrain := h.waiter.1 hwaiter
    have hitems := (h.idle hdrain).2
    have hinHand : s.inHand = [] := by simp [inHand, hdrain]
    have hwritten : s.written ++ [frame] = s.owed (fanned ++ [frame]) := by
      rw [owed_append h.since_le, ← howed, hinHand, hitems, List.append_nil, List.append_nil]
    rw [Subscriber.offer, hpush]
    refine ⟨hsince, by simp, by simp, by simp [hopen, halive], h.closes, by simp, ?_, fun _ => ?_⟩
    · exact hwritten ▸ List.prefix_refl _
    · show s.written ++ [frame] ++ s.queue.items = _
      rw [hitems, List.append_nil]
      exact hwritten
  · rw [Subscriber.offer, hpush]
    exact h.remove.of_dead remove_alive
  · have hdrain : s.drain ≠ .taking none := fun hd => by simp [h.waiter.2 hd] at hidle
    rw [Subscriber.offer, hpush]
    refine ⟨hsince, by simpa [hidle] using hdrain, fun hd => absurd hd hdrain, h.closed, h.closes,
      h.ended, h.prefix_append, fun _ => ?_⟩
    show s.written ++ s.inHand ++ (s.queue.items ++ [frame]) = s.owed (fanned ++ [frame])
    rw [owed_append h.since_le, ← List.append_assoc, howed]

/-! ## The snapshot -/

theorem snapshotBuilt {snapshot : Json} (h : s.Delivers fanned) (hdrain : s.drain = .building)
    (hawaits : s.snapshot = none ∧ s.written = []) :
    (s.snapshotBuilt snapshot).Delivers fanned := by
  have hwaiter : s.queue.waiter = false := by
    cases hw : s.queue.waiter with
    | false => rfl
    | true => simpa [hdrain] using h.waiter.1 hw
  have hinHand : s.inHand = [] := by simp [inHand, hdrain]
  have hpushed : ({ s with
      queue := (s.queue.pushFront (snapshotFrame snapshot)).1
      snapshot := some snapshot } : Subscriber).Delivers fanned := by
    have hclosed := h.closed
    obtain ⟨hshut, hpush⟩ | ⟨-, hwaits, -⟩ | ⟨hopen, -, hpush⟩ :=
      s.queue.pushFront_cases (snapshotFrame snapshot)
    · have halive : s.alive = false := by simpa [hshut] using hclosed.symm
      rw [hpush]
      refine ⟨h.since_le, h.waiter, by simp [hdrain], hclosed,
        by simpa [halive] using h.closes, fun _ => halive, ?_, by simp [halive]⟩
      show s.written ++ s.inHand <+: _
      rw [hawaits.2, hinHand]
      exact List.nil_prefix
    · exact nomatch hwaiter.symm.trans hwaits
    · have halive : s.alive = true := by simpa [hopen] using hclosed.symm
      have howed := h.owed halive
      rw [hpush]
      refine ⟨h.since_le, by simp [hdrain, hwaiter], by simp [hdrain], hclosed, h.closes,
        by simp [hdrain], ?_, fun _ => ?_⟩
      · show s.written ++ s.inHand <+: _
        rw [hawaits.2, hinHand]
        exact List.nil_prefix
      · show s.written ++ s.inHand ++ (snapshotFrame snapshot :: s.queue.items) = _
        rw [hawaits.2, hinHand] at howed ⊢
        rw [Subscriber.owed, hawaits.1] at howed
        exact congrArg (snapshotFrame snapshot :: ·) howed
  refine hpushed.drainLoop hinHand ?_
  rw [hdrain]
  simp

end Delivers

theorem Awaits.remove (h : s.Awaits) : (s.remove reason).Awaits := by
  rw [Subscriber.remove]
  split
  · intro hdrain
    split at hdrain
    · cases hdrain
    · exact h hdrain
  · exact h

theorem Awaits.offer (h : s.Awaits) : (s.offer frame).Awaits := by
  rw [Subscriber.offer]
  split
  · exact h.remove
  · intro hdrain
    cases hdrain
  · exact h

theorem awaits_of_ne (h : s.drain ≠ .building) : s.Awaits := fun hdrain => absurd hdrain h

theorem drainLoop_ne_building : s.drainLoop.drain ≠ .building := by
  rw [Subscriber.drainLoop]
  split <;> simp [Subscriber.drainEnd]

end Subscriber

namespace ControlHub

variable {hub hub' : ControlHub} {e : Event}

/-- Every subscriber so far is served as it should be. -/
def Delivers (hub : ControlHub) : Prop :=
  ∀ s ∈ hub.subscribers, s.Delivers hub.fanned ∧ s.Awaits

theorem Delivers.fanout (h : hub.Delivers) : (hub.fanout frame).Delivers := by
  intro s' hs'
  obtain ⟨s, hs, rfl⟩ := List.mem_map.1 hs'
  obtain ⟨hdelivers, hawaits⟩ := h s hs
  cases halive : s.alive with
  | false => exact ⟨hdelivers.of_dead halive, hawaits⟩
  | true => exact ⟨hdelivers.offer halive, hawaits.offer⟩

theorem Delivers.flushUsage (h : hub.Delivers) : hub.flushUsage.Delivers := by
  rw [ControlHub.flushUsage]
  split
  · have hclean : Delivers { hub with usageDirty := false } := h
    exact hclean.fanout
  · exact h

theorem Delivers.subscribe (h : hub.Delivers) : hub.subscribe.Delivers := by
  intro s hs
  rcases List.mem_append.1 hs with hold | hnew
  · exact h s hold
  · obtain rfl := List.mem_singleton.1 hnew
    exact ⟨⟨le_refl _, by simp, by simp, rfl, rfl, by simp, List.nil_prefix,
      fun _ => by simp [Subscriber.inHand, Subscriber.owed, ControlHub.subscribe]⟩, fun _ => ⟨rfl, rfl⟩⟩

theorem subscriberStep_delivers {s' : Subscriber} (h : s.Delivers fanned) (hawaits : s.Awaits)
    (hstep : subscriberStep e s = some s') : s'.Delivers fanned ∧ s'.Awaits := by
  unfold subscriberStep at hstep
  split at hstep
  · next hdrain =>
    obtain rfl := Option.some.inj hstep
    exact ⟨h.snapshotBuilt hdrain (hawaits hdrain),
      Subscriber.awaits_of_ne Subscriber.drainLoop_ne_building⟩
  · obtain rfl := Option.some.inj hstep
    exact ⟨h.snapshotFailed, Subscriber.awaits_of_ne (by simp [Subscriber.snapshotFailed])⟩
  · next taken hdrain =>
    obtain rfl := Option.some.inj hstep
    refine ⟨h.resume hdrain, Subscriber.awaits_of_ne ?_⟩
    cases taken <;> simp [Subscriber.resume, Subscriber.drainEnd]
  · next hdrain =>
    obtain rfl := Option.some.inj hstep
    exact ⟨h.drainLoop (by simp [Subscriber.inHand, hdrain]) (by simp [hdrain]),
      Subscriber.awaits_of_ne Subscriber.drainLoop_ne_building⟩
  · obtain rfl := Option.some.inj hstep
    exact ⟨h.drainEnd, Subscriber.awaits_of_ne (by simp [Subscriber.drainEnd])⟩
  · split at hstep
    · obtain rfl := Option.some.inj hstep
      exact ⟨h.remove, hawaits.remove⟩
    · cases hstep
  · cases hstep

theorem Delivers.step (h : hub.Delivers) (hstep : step e hub = some hub') : hub'.Delivers := by
  unfold ControlHub.step at hstep
  split at hstep
  · exact Option.some.inj hstep ▸ h.fanout
  · exact Option.some.inj hstep ▸ h.fanout
  · exact Option.some.inj hstep ▸ h
  · exact Option.some.inj hstep ▸ h.flushUsage
  · exact Option.some.inj hstep ▸ h.subscribe
  · obtain ⟨i, -, hstep⟩ := Option.bind_eq_some_iff.1 hstep
    obtain ⟨s, hs, hstep⟩ := Option.bind_eq_some_iff.1 hstep
    obtain ⟨s', hs', hstep⟩ := Option.bind_eq_some_iff.1 hstep
    obtain rfl := Option.some.inj hstep
    have hmem := List.mem_of_getElem? hs
    intro t ht
    rcases List.mem_or_eq_of_mem_set ht with hold | rfl
    · exact h t hold
    · exact subscriberStep_delivers (h s hmem).1 (h s hmem).2 hs'

/-- No schedule of the calls and of the drains breaks the delivery. -/
theorem delivers_of_exec {queueCapacity : ℕ} {events : List Event}
    (h : Runs.exec step events { queueCapacity } = some hub) : hub.Delivers := by
  refine Runs.exec_preserves (I := Delivers) ?_ ?_ h
  · intro e hub hub' hI hstep
    exact hI.step hstep
  · intro s hs
    cases hs

end ControlHub

/-! ## What a client holds -/

/-- The frames that are still on their way to the sink. -/
def Subscriber.pending (s : Subscriber) : List Frame := s.inHand ++ s.queue.items

/-- The snapshot of a subscriber, and every one emitted since its registration, is as recent as
what was fanned out before it. -/
structure SnapshotsRecent (recent : ControlTopic → Val → Val → Prop) (fanned : List Frame)
    (s : Subscriber) (snapshot : Json) : Prop where
  connect : Covers recent (fanned.take s.since) (snapshotPayload snapshot)
  emitted : ∀ pre data, s.since ≤ pre.length → pre ++ [.notification .snapshot data] <+: fanned →
    Covers recent pre data

theorem SnapshotsRecent.since {recent : ControlTopic → Val → Val → Prop} {snapshot : Json}
    (h : SnapshotsRecent recent fanned s snapshot) (hsince : s.since ≤ fanned.length)
    {pre : List Frame} {data : Val}
    (hpre : pre ++ [.notification .snapshot data] <+: fanned.drop s.since) :
    Covers recent (fanned.take s.since ++ pre) data := by
  refine h.emitted _ data ?_ ?_
  · rw [List.length_append, List.length_take]
    omega
  · rw [List.append_assoc]
    obtain ⟨rest, hrest⟩ := hpre
    exact ⟨rest, by rw [List.append_assoc, hrest, List.take_append_drop]⟩

/-- The sink of a subscriber is written a prefix of what it is owed and closed once. A client that
applied everything holds what was emitted last under a topic since the last snapshot frame, and
else a value of that snapshot, at least as recent as what was emitted last. -/
theorem delivery (recent : ControlTopic → Val → Val → Prop)
    (hrefl : ∀ topic value, recent topic value value) {queueCapacity : ℕ}
    {events : List ControlHub.Event} {hub : ControlHub}
    (h : Runs.exec ControlHub.step events { queueCapacity } = some hub) {s : Subscriber}
    (hs : s ∈ hub.subscribers) :
    s.written <+: s.owed hub.fanned ∧
      s.closes.length = (if s.alive then 0 else 1) ∧
      ∀ snapshot state, s.alive = true → s.snapshot = some snapshot → s.pending = [] →
        SnapshotsRecent recent hub.fanned s snapshot →
        applyFrames (fun _ => none) s.written = .ok state →
        (∀ topic value, topic ≠ .snapshot → latest topic hub.fanned = some value →
          recent topic (state topic) value) ∧
        ∀ before after topic value, s.written = before ++ after → latest .snapshot after = none →
          latest topic after = some value → state topic = value := by
  obtain ⟨hdelivers, -⟩ := ControlHub.delivers_of_exec h s hs
  refine ⟨(List.prefix_append _ _).trans hdelivers.prefix_owed, hdelivers.closes, ?_⟩
  intro snapshot state halive hsnapshot hpending hrecent happly
  constructor
  · intro topic value htopic hlatest
    have hwritten : s.written = snapshotFrame snapshot :: hub.fanned.drop s.since := by
      have howed := hdelivers.owed halive
      have hinHand : s.inHand ++ s.queue.items = [] := hpending
      rw [List.append_assoc, hinHand, List.append_nil] at howed
      rw [howed, Subscriber.owed, hsnapshot]
      rfl
    rw [hwritten] at happly
    rw [← List.take_append_drop s.since hub.fanned] at hlatest
    exact applyFrames_recent hrefl hrecent.connect
      (fun _ _ hpre => hrecent.since hdelivers.since_le hpre) happly htopic hlatest
  · intro before after topic value hwritten hsnapshots hlatest
    rw [hwritten] at happly
    obtain ⟨mid, -, hafter⟩ := applyFrames_append happly
    exact applyFrames_latest hafter hsnapshots hlatest

/-! ## A run -/

/-- A client connects while `auth` is emitted, and reads everything. -/
def connected : List ControlHub.Event :=
  [.emit .auth (some (.string "out")), .subscribe, .emit .auth (some (.string "in")),
    .snapshotBuilt 0 (.object [("auth", .string "out")]), .resume 0, .writeDone 0, .resume 0,
    .writeDone 0]

/-- After it, a snapshot without `auth` is emitted. -/
def resnapshot : List ControlHub.Event :=
  connected ++ [.emit .snapshot (some (.object [("snapshot", .object [])])), .resume 0, .writeDone 0]

def connectedClient : Subscriber where
  queue := { capacity := 2, waiter := true }
  drain := .taking none
  written := [snapshotFrame (.object [("auth", .string "out")]),
    .notification .auth (some (.string "in"))]
  snapshot := some (.object [("auth", .string "out")])
  since := 1

def connectedHub : ControlHub where
  queueCapacity := 2
  subscribers := [connectedClient]
  fanned := [.notification .auth (some (.string "out")), .notification .auth (some (.string "in"))]

theorem exec_connected :
    Runs.exec ControlHub.step connected { queueCapacity := 2 } = some connectedHub := by
  rfl

theorem covers_connected :
    Covers (fun _ value latest => value = latest) [.notification .auth (some (.string "out"))]
      (snapshotPayload (.object [("auth", .string "out")])) := by
  intro state hstate topic value _ hlatest
  obtain rfl := Except.ok.inj hstate
  by_cases htopic : topic = .auth
  · subst htopic
    obtain rfl := Option.some.inj hlatest
    rfl
  · have hnone : latest topic [.notification .auth (some (.string "out"))] = none := by
      simp [latest, Frame.publishes, Ne.symm htopic]
    rw [hnone] at hlatest
    cases hlatest

theorem snapshotsRecent_connected :
    SnapshotsRecent (fun _ value latest => value = latest) connectedHub.fanned connectedClient
      (.object [("auth", .string "out")]) where
  connect := covers_connected
  emitted pre data _ hpre := by
    have hmem := hpre.subset (List.mem_append_right pre (List.mem_singleton_self _))
    simp [connectedHub] at hmem

theorem delivery_connected :
    connectedClient.written <+: connectedClient.owed connectedHub.fanned ∧
      ∀ state, applyFrames (fun _ => none) connectedClient.written = .ok state →
        state .auth = some (.string "in") := by
  obtain ⟨hsofar, -, hclient⟩ := delivery (fun _ value latest => value = latest)
    (fun _ _ => rfl) exec_connected (List.mem_singleton_self connectedClient)
  refine ⟨hsofar, fun state hstate => ?_⟩
  exact (hclient _ state rfl rfl rfl snapshotsRecent_connected hstate).1 .auth _ (by decide) rfl

/-- A client that applied everything does not hold the last `auth` after a snapshot without it is
emitted, though the snapshot of its connection was recent. -/
theorem emitted_snapshot_forgets :
    ¬ ∀ (events : List ControlHub.Event) (hub : ControlHub) (s : Subscriber),
      Runs.exec ControlHub.step events { queueCapacity := 2 } = some hub → s ∈ hub.subscribers →
      ∀ snapshot state, s.alive = true → s.snapshot = some snapshot → s.pending = [] →
        Covers (fun _ value latest => value = latest) (hub.fanned.take s.since)
          (snapshotPayload snapshot) →
        applyFrames (fun _ => none) s.written = .ok state →
        ∀ topic value, topic ≠ .snapshot → latest topic hub.fanned = some value →
          state topic = value := by
  intro hclaim
  have hauth := hclaim resnapshot _ _ rfl (List.mem_singleton_self _) _ _ rfl rfl rfl
    covers_connected rfl .auth _ (by decide) rfl
  cases hauth

end Maximal.Live
