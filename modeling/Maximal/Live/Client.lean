import Maximal.Live.Hub
import Mathlib.Logic.Function.Basic

/-!
# The client of the live feed

A client folds the frames of a feed into one value a topic: a snapshot replaces the state, and
every other notification replaces the value of its topic.

## Main definitions

- `ControlState`, `handleBlock`, `applyFrames`
- `latest` — the value that was last published under a topic
- `Covers` — a snapshot is at least as recent as what was published before it

## Main results

- `applyFrames_recent`, `applyFrames_latest`
-/

namespace Maximal.Live

open Js

/-- What reading a topic of the state gives. -/
abbrev ControlState := ControlTopic → Val

/-- `{ ...value }`: only an object has topics among its keys. -/
def spread : Val → ControlState
  | some (.object fields) => fun topic => fields.lookup topic.name
  | _ => fun _ => none

def applyFrame (state : ControlState) (topic : ControlTopic) (data : Val) :
    Except TypeError ControlState :=
  match topic with
  | .snapshot => (data.prop "snapshot").map spread
  | topic => .ok (Function.update state topic data)

/-- A heartbeat is a comment. -/
def handleBlock (state : ControlState) : Frame → Except TypeError ControlState
  | .heartbeat => .ok state
  | .notification topic params => applyFrame state topic params

def applyFrames (state : ControlState) (frames : List Frame) : Except TypeError ControlState :=
  frames.foldlM handleBlock state

/-- The value that a frame publishes under a topic. -/
def Frame.publishes (topic : ControlTopic) : Frame → Option Val
  | .heartbeat => none
  | .notification t data => if t = topic then some data else none

/-- The value that was last published under a topic. -/
def latest (topic : ControlTopic) (frames : List Frame) : Option Val :=
  (frames.filterMap (Frame.publishes topic)).getLast?

variable {topic : ControlTopic} {frames published : List Frame} {frame : Frame}
  {state state' : ControlState} {data value : Val}

theorem latest_append_of_none (h : frame.publishes topic = none) :
    latest topic (frames ++ [frame]) = latest topic frames := by
  simp [latest, h]

theorem latest_append_of_some (h : frame.publishes topic = some value) :
    latest topic (frames ++ [frame]) = some value := by
  simp [latest, h]

theorem applyFrames_append {more : List Frame}
    (h : applyFrames state (frames ++ more) = .ok state') :
    ∃ mid, applyFrames state frames = .ok mid ∧ applyFrames mid more = .ok state' := by
  rw [applyFrames, List.foldlM_append] at h
  cases hmid : frames.foldlM handleBlock state with
  | error e =>
    rw [hmid] at h
    cases h
  | ok mid =>
    rw [hmid] at h
    exact ⟨mid, hmid, h⟩

theorem applyFrames_singleton : applyFrames state [frame] = handleBlock state frame := by
  rw [applyFrames, List.foldlM]
  cases handleBlock state frame <;> rfl

theorem applyFrames_concat (h : applyFrames state (frames ++ [frame]) = .ok state') :
    ∃ mid, applyFrames state frames = .ok mid ∧ handleBlock mid frame = .ok state' := by
  obtain ⟨mid, hmid, hblock⟩ := applyFrames_append h
  exact ⟨mid, hmid, applyFrames_singleton ▸ hblock⟩

/-- A notification under the topic leaves its value, one under another topic but `snapshot`
leaves the topic alone. -/
theorem handleBlock_topic (h : handleBlock state frame = .ok state')
    (hframe : frame.publishes .snapshot = none) :
    state' topic = (frame.publishes topic).getD (state topic) := by
  cases frame with
  | heartbeat =>
    cases h
    rfl
  | notification t data =>
    have ht : t ≠ .snapshot := by
      intro ht
      simp [Frame.publishes, ht] at hframe
    have hstate : Function.update state t data = state' := by
      cases t <;> first | exact absurd rfl ht | exact Except.ok.inj h
    rw [← hstate]
    by_cases heq : t = topic
    · subst heq
      simp [Frame.publishes]
    · simp [Frame.publishes, heq, Function.update_of_ne (Ne.symm heq)]

/-- Since the last snapshot that it applied, the client holds what was published last. -/
theorem applyFrames_latest (h : applyFrames state frames = .ok state')
    (hframes : latest .snapshot frames = none) (hlatest : latest topic frames = some value) :
    state' topic = value := by
  induction frames using List.reverseRecOn generalizing state' with
  | nil => cases hlatest
  | append_singleton frames frame ih =>
    obtain ⟨mid, hmid, hblock⟩ := applyFrames_concat h
    have hframe : frame.publishes .snapshot = none := by
      cases hsnap : frame.publishes .snapshot with
      | none => rfl
      | some data => simp [latest_append_of_some hsnap] at hframes
    rw [handleBlock_topic hblock hframe]
    cases hpub : frame.publishes topic with
    | none =>
      rw [latest_append_of_none hframe] at hframes
      rw [latest_append_of_none hpub] at hlatest
      exact ih hmid hframes hlatest
    | some data =>
      rw [latest_append_of_some hpub] at hlatest
      exact Option.some.inj hlatest

/-! ## Snapshots -/

/-- A snapshot holds, for every topic that was published before it, a value at least as recent. -/
def Covers (recent : ControlTopic → Val → Val → Prop) (published : List Frame) (data : Val) :
    Prop :=
  ∀ state, applyFrame (fun _ => none) .snapshot data = .ok state →
    ∀ topic value, topic ≠ .snapshot → latest topic published = some value →
      recent topic (state topic) value

variable {recent : ControlTopic → Val → Val → Prop} {snapshot : Json}

/-- A snapshot replaces whatever the state was. -/
theorem handleBlock_snapshot (h : handleBlock state (.notification .snapshot data) = .ok state')
    (hcovers : Covers recent published data) (htopic : topic ≠ .snapshot)
    (hlatest : latest topic published = some value) : recent topic (state' topic) value :=
  hcovers state' h topic value htopic hlatest

theorem applyFrames_recent (hrefl : ∀ topic value, recent topic value value)
    (hsnapshot : Covers recent published (snapshotPayload snapshot))
    (hemitted : ∀ pre data, pre ++ [.notification .snapshot data] <+: frames →
      Covers recent (published ++ pre) data)
    (h : applyFrames state (snapshotFrame snapshot :: frames) = .ok state')
    (htopic : topic ≠ .snapshot) (hlatest : latest topic (published ++ frames) = some value) :
    recent topic (state' topic) value := by
  induction frames using List.reverseRecOn generalizing state' value with
  | nil =>
    have hblock : handleBlock state (snapshotFrame snapshot) = .ok state' :=
      applyFrames_singleton ▸ h
    exact handleBlock_snapshot hblock hsnapshot htopic (by simpa using hlatest)
  | append_singleton frames frame ih =>
    rw [← List.cons_append] at h
    obtain ⟨mid, hmid, hblock⟩ := applyFrames_concat h
    have hih : ∀ value, latest topic (published ++ frames) = some value →
        recent topic (mid topic) value := fun value hvalue =>
      ih (fun pre data hpre => hemitted pre data (hpre.trans (List.prefix_append _ _))) hmid hvalue
    rw [← List.append_assoc] at hlatest
    cases hsnap : frame.publishes .snapshot with
    | none =>
      rw [handleBlock_topic hblock hsnap]
      cases hpub : frame.publishes topic with
      | none =>
        rw [latest_append_of_none hpub] at hlatest
        exact hih value hlatest
      | some data =>
        rw [latest_append_of_some hpub] at hlatest
        obtain rfl := Option.some.inj hlatest
        exact hrefl topic data
    | some data =>
      obtain rfl : frame = .notification .snapshot data := by
        cases frame with
        | heartbeat => cases hsnap
        | notification t params =>
          by_cases ht : t = .snapshot
          · simp_all [Frame.publishes]
          · simp [Frame.publishes, ht] at hsnap
      have hpub : (Frame.notification .snapshot data).publishes topic = none := by
        simp [Frame.publishes, htopic.symm]
      rw [latest_append_of_none hpub] at hlatest
      exact handleBlock_snapshot hblock (hemitted frames data (List.prefix_refl _)) htopic hlatest

end Maximal.Live
