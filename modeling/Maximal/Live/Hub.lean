import Maximal.Lib.Js.Value
import Maximal.Live.Queue

/-!
# The live hub

The hub fans the frames of the control feed out to its subscribers. A subscriber is registered
before its snapshot is built; the one drain of its queue starts afterwards. Other calls run
wherever the drain or the snapshot awaits.

## Main definitions

- `ControlTopic`, `Frame`
- `Subscriber`, `ControlHub`, `ControlHub.step`
-/

namespace Maximal.Live

open Js

/-! ## Frames -/

inductive ControlTopic where
  | snapshot | auth | accounts | apps | models | clients | usage | config | boot
  deriving DecidableEq, Repr

def ControlTopic.name : ControlTopic → String
  | .snapshot => "snapshot"
  | .auth => "auth"
  | .accounts => "accounts"
  | .apps => "apps"
  | .models => "models"
  | .clients => "clients"
  | .usage => "usage"
  | .config => "config"
  | .boot => "boot"

/-- A serialized frame: the heartbeat comment, or a notification under the method of its topic. -/
inductive Frame where
  | heartbeat
  | notification (topic : ControlTopic) (params : Val)

def CONTROL_PROTOCOL_VERSION : ℕ := 2

def snapshotPayload (snapshot : Json) : Val :=
  some (.object [("protocolVersion", .number (.ofNat CONTROL_PROTOCOL_VERSION)),
    ("snapshot", snapshot)])

def snapshotFrame (snapshot : Json) : Frame := .notification .snapshot (snapshotPayload snapshot)

/-! ## Subscribers -/

/-- Where `subscribe` and the drain that it starts await. -/
inductive DrainPoint where
  /-- `buildSnapshot` -/
  | building
  /-- `queue.take()`; once its promise is resolved, the drain is about to go on. -/
  | taking (promise : Option (Taken Frame))
  /-- `sink.write(item)` -/
  | writing
  | ended

structure Subscriber where
  queue : BoundedQueue Frame
  alive : Bool := true
  drain : DrainPoint := .building
  /-- What the sink was called with. -/
  written : List Frame := []
  closes : List String := []
  /-- The snapshot that was built, and how many frames had been fanned out at registration. -/
  snapshot : Option Json := none
  since : ℕ

namespace Subscriber

/-- The subscriber leaves the set of the hub with its `alive`. -/
def remove (s : Subscriber) (reason : String) : Subscriber :=
  if s.alive then
    { s with
      alive := false
      queue := s.queue.close.1
      drain := if s.queue.close.2 then .taking (some .closed) else s.drain
      closes := s.closes ++ [reason] }
  else s

/-- What `fanout` does for one subscriber. -/
def offer (s : Subscriber) (frame : Frame) : Subscriber :=
  match s.queue.push frame with
  | (_, .refused) => s.remove "overflow"
  | (queue, .handed) => { s with queue, drain := .taking (some (.item frame)) }
  | (queue, .queued) => { s with queue }

def drainEnd (s : Subscriber) : Subscriber := { s.remove "drain_end" with drain := .ended }

/-- The loop of the drain from its condition to the next `take`. -/
def drainLoop (s : Subscriber) : Subscriber :=
  if s.alive then { s with queue := s.queue.take.1, drain := .taking s.queue.take.2 }
  else s.drainEnd

/-- `subscribe` goes on with a snapshot. -/
def snapshotBuilt (s : Subscriber) (snapshot : Json) : Subscriber :=
  drainLoop
    { s with queue := (s.queue.pushFront (snapshotFrame snapshot)).1, snapshot := some snapshot }

def snapshotFailed (s : Subscriber) : Subscriber :=
  { s.remove "snapshot_failed" with drain := .ended }

/-- The drain goes on with what `take` resolved to. -/
def resume (s : Subscriber) : Taken Frame → Subscriber
  | .item frame => { s with written := s.written ++ [frame], drain := .writing }
  | .closed => s.drainEnd

/-- What `subscribe` returns, once it does. -/
def unsubscribe (s : Subscriber) : Subscriber := s.remove "client_close"

end Subscriber

/-! ## The hub -/

def DEFAULT_QUEUE_CAPACITY : ℕ := 256

structure ControlHub where
  queueCapacity : ℕ
  /-- Every subscriber so far, in order; those that are alive make up the set of the hub. -/
  subscribers : List Subscriber := []
  latestUsage : Val := none
  usageDirty : Bool := false
  /-- Every frame fanned out so far. -/
  fanned : List Frame := []

namespace ControlHub

def fanout (hub : ControlHub) (frame : Frame) : ControlHub :=
  { hub with
    subscribers := hub.subscribers.map fun s => if s.alive then s.offer frame else s
    fanned := hub.fanned ++ [frame] }

def emit (hub : ControlHub) (topic : ControlTopic) (data : Val) : ControlHub :=
  hub.fanout (.notification topic data)

def recordUsage (hub : ControlHub) (data : Val) : ControlHub :=
  { hub with latestUsage := data, usageDirty := true }

def flushUsage (hub : ControlHub) : ControlHub :=
  if hub.usageDirty then { hub with usageDirty := false }.emit .usage hub.latestUsage else hub

/-- `subscribe` up to `buildSnapshot`. -/
def subscribe (hub : ControlHub) : ControlHub :=
  { hub with
    subscribers := hub.subscribers ++
      [{ queue := { capacity := hub.queueCapacity }, since := hub.fanned.length }] }

inductive Event where
  | emit (topic : ControlTopic) (data : Val)
  | heartbeat
  | recordUsage (data : Val)
  | flushUsage
  | subscribe
  | snapshotBuilt (i : ℕ) (snapshot : Json)
  | snapshotFailed (i : ℕ)
  /-- The drain of a subscriber goes on after a `take`. -/
  | resume (i : ℕ)
  | writeDone (i : ℕ)
  | writeFailed (i : ℕ)
  | unsubscribe (i : ℕ)

/-- What one subscriber does; none where it does not await the event. -/
def subscriberStep (e : Event) (s : Subscriber) : Option Subscriber :=
  match e, s.drain with
  | .snapshotBuilt _ snapshot, .building => some (s.snapshotBuilt snapshot)
  | .snapshotFailed _, .building => some s.snapshotFailed
  | .resume _, .taking (some taken) => some (s.resume taken)
  | .writeDone _, .writing => some s.drainLoop
  | .writeFailed _, .writing => some s.drainEnd
  | .unsubscribe _, _ => if s.snapshot.isSome then some s.unsubscribe else none
  | _, _ => none

/-- The subscriber that an event is for. -/
def Event.subscriber : Event → Option ℕ
  | .snapshotBuilt i _ | .snapshotFailed i | .resume i | .writeDone i | .writeFailed i
  | .unsubscribe i => some i
  | _ => none

def step (e : Event) (hub : ControlHub) : Option ControlHub :=
  match e with
  | .emit topic data => some (hub.emit topic data)
  | .heartbeat => some (hub.fanout .heartbeat)
  | .recordUsage data => some (hub.recordUsage data)
  | .flushUsage => some hub.flushUsage
  | .subscribe => some hub.subscribe
  | e => do
    let i ← e.subscriber
    let s ← hub.subscribers[i]?
    let s' ← subscriberStep e s
    return { hub with subscribers := hub.subscribers.set i s' }

end ControlHub

end Maximal.Live
