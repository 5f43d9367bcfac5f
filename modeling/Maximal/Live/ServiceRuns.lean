import Maximal.Live.Service

/-!
# Runs of the live service

What the feed of every subscriber shows, kept by every step: the status of the variables, and the
summaries that were shown since its registration.

## Main definitions

- `Feeds`, `LiveService.Each`, `LiveService.ShowsAuth`
- `LiveService.Consistent` — what holds of every run
- `LiveService.Covered` — an event that was recorded is read, is being read or makes the timer due

## Main results

- `step_kept`, `fanout_kept` — what a step leaves of a feed
- `LiveService.step_sound`, `LiveService.exec_sound`
- `LiveService.covered_step`, `LiveService.exec_covered`
-/

namespace Maximal.Live

open Js Auth Net Runs

variable {toISOString : ℤ → String}

/-! ## What holds of every run -/

/-- What the feed of one subscriber shows; `frames` were fanned out since its registration. -/
structure Feeds (s : LiveService) (frames : List Frame) (snapshot : Option Json) (b : Build) :
    Prop where
  snapshot : ∀ j, snapshot = some j → ∃ usage accounts apps models clients,
    b.usage = some usage ∧ j = LiveService.snapshotOf b usage accounts apps models clients
  usage : frames.filterMap (Frame.publishes .usage) =
    (s.shown.drop b.shown).map fun r => some r.summary
  before : ∀ r ∈ s.shown.take b.shown, r.settled ≤ b.recorded
  shown_le : b.shown ≤ s.shown.length
  recorded_le : b.recorded ≤ s.recorded
  reading : ∀ r, b.usage = some r → b.recorded ≤ r.settled ∧ r ∈ s.readings

/-- A property of every feed of the hub. -/
def LiveService.Each (s : LiveService) (p : List Frame → Option Json → Build → Prop) : Prop :=
  ∀ hub, s.hub = some hub → ∀ (i : ℕ) (sub : Subscriber) b, hub.subscribers[i]? = some sub →
    s.builds[i]? = some b → p (hub.fanned.drop sub.since) sub.snapshot b

/-- The status that a feed shows is that of the variables. -/
def LiveService.ShowsAuth (toISOString : ℤ → String) (s : LiveService) : Prop :=
  s.Each fun frames _ b =>
    ShowsStatus toISOString s.auth ((latest .auth frames).getD (some b.auth))

structure LiveService.Consistent (s : LiveService) : Prop where
  delivers : ∀ hub, s.hub = some hub → hub.Delivers
  plain : ∀ hub, s.hub = some hub → ∀ frame ∈ hub.fanned, frame.publishes .snapshot = none
  length : ∀ hub, s.hub = some hub → s.builds.length = hub.subscribers.length
  feeds : s.Each (Feeds s)
  off : s.hub = none → s.builds = [] ∧ s.shown = [] ∧ s.answers = [] ∧ s.reading = [] ∧
    s.usageDirty = false
  settled : s.settled ≤ s.recorded
  sorted : (s.shown ++ s.answers).Pairwise fun r r' => r.settled ≤ r'.settled
  answered : ∀ r ∈ s.shown ++ s.answers, r ∈ s.readings
  read : ∀ r ∈ s.readings, r.settled ≤ s.settled

/-- Unless the timer is due, a query that will read all events is under way, or one has read them,
or none was recorded since the hub is there. -/
def LiveService.Covered (s : LiveService) : Prop :=
  s.usageDirty = false →
    (s.shown = [] ∧ s.answers = [] ∧ s.reading = [] ∧ ∀ b ∈ s.builds, b.recorded = s.recorded) ∨
      s.recorded ∈ s.reading ∨
      ∃ r ∈ s.shown ++ s.answers, s.recorded ≤ r.settled

/-! ## Feeds -/

theorem offer_kept (sub : Subscriber) (frame : Frame) :
    (sub.offer frame).since = sub.since ∧ (sub.offer frame).snapshot = sub.snapshot := by
  rw [Subscriber.offer]
  split
  · rw [Subscriber.remove]
    split <;> exact ⟨rfl, rfl⟩
  · exact ⟨rfl, rfl⟩
  · exact ⟨rfl, rfl⟩

theorem remove_kept (sub : Subscriber) (reason : String) :
    (sub.remove reason).since = sub.since ∧ (sub.remove reason).snapshot = sub.snapshot := by
  rw [Subscriber.remove]
  split <;> exact ⟨rfl, rfl⟩

theorem drainEnd_kept (sub : Subscriber) :
    sub.drainEnd.since = sub.since ∧ sub.drainEnd.snapshot = sub.snapshot :=
  remove_kept sub "drain_end"

theorem drainLoop_kept (sub : Subscriber) :
    sub.drainLoop.since = sub.since ∧ sub.drainLoop.snapshot = sub.snapshot := by
  rw [Subscriber.drainLoop]
  split
  · exact ⟨rfl, rfl⟩
  · exact drainEnd_kept sub

/-- Only its snapshot, once it is built, is new to a subscriber's feed. -/
theorem subscriberStep_kept {e : ControlHub.Event} {sub sub' : Subscriber}
    (h : ControlHub.subscriberStep e sub = some sub') :
    sub'.since = sub.since ∧
      (sub'.snapshot = sub.snapshot ∨
        ∃ i snapshot, e = .snapshotBuilt i snapshot ∧ sub'.snapshot = some snapshot) := by
  unfold ControlHub.subscriberStep at h
  split at h
  · next i snapshot hdrain =>
    obtain rfl := Option.some.inj h
    obtain ⟨hsince, hsnapshot⟩ := drainLoop_kept
      { sub with
        queue := (sub.queue.pushFront (snapshotFrame snapshot)).1, snapshot := some snapshot }
    exact ⟨hsince, .inr ⟨_, _, rfl, hsnapshot⟩⟩
  · obtain rfl := Option.some.inj h
    obtain ⟨hsince, hsnapshot⟩ := remove_kept sub "snapshot_failed"
    exact ⟨hsince, .inl hsnapshot⟩
  · next taken hdrain =>
    obtain rfl := Option.some.inj h
    cases taken with
    | item frame => exact ⟨rfl, .inl rfl⟩
    | closed => exact (drainEnd_kept sub).imp_right .inl
  · obtain rfl := Option.some.inj h
    exact (drainLoop_kept sub).imp_right .inl
  · obtain rfl := Option.some.inj h
    exact (drainEnd_kept sub).imp_right .inl
  · split at h
    · obtain rfl := Option.some.inj h
      exact (remove_kept sub "client_close").imp_right .inl
    · cases h
  · cases h

/-- A subscriber's step leaves the others alone. -/
theorem step_kept {e : ControlHub.Event} {hub hub' : ControlHub} {i : ℕ}
    (he : e.subscriber = some i) (h : ControlHub.step e hub = some hub') :
    hub'.fanned = hub.fanned ∧ hub'.subscribers.length = hub.subscribers.length ∧
      ∀ j sub', hub'.subscribers[j]? = some sub' → ∃ sub, hub.subscribers[j]? = some sub ∧
        sub'.since = sub.since ∧
          (sub'.snapshot = sub.snapshot ∨
            ∃ snapshot, e = .snapshotBuilt j snapshot ∧ sub'.snapshot = some snapshot) := by
  have hstep : (do
      let s ← hub.subscribers[i]?
      let s' ← ControlHub.subscriberStep e s
      return { hub with subscribers := hub.subscribers.set i s' }) = some hub' := by
    cases e with
    | emit | heartbeat | recordUsage | flushUsage | subscribe => cases he
    | snapshotBuilt k | snapshotFailed k | resume k | writeDone k | writeFailed k
    | unsubscribe k =>
      obtain rfl : k = i := Option.some.inj he
      exact h
  obtain ⟨sub, hsub, hstep⟩ := Option.bind_eq_some_iff.1 hstep
  obtain ⟨sub₁, hsub₁, hstep⟩ := Option.bind_eq_some_iff.1 hstep
  obtain rfl := Option.some.inj hstep
  refine ⟨rfl, List.length_set, fun j sub' hsub' => ?_⟩
  rw [List.getElem?_set] at hsub'
  split at hsub'
  · next heq =>
    subst heq
    split at hsub'
    · obtain rfl := Option.some.inj hsub'
      obtain ⟨hsince, hsnapshot⟩ := subscriberStep_kept hsub₁
      refine ⟨sub, hsub, hsince, hsnapshot.imp_right ?_⟩
      rintro ⟨k, snapshot, rfl, hbuilt⟩
      obtain rfl := Option.some.inj he
      exact ⟨snapshot, rfl, hbuilt⟩
    · cases hsub'
  · exact ⟨sub', hsub', rfl, .inl rfl⟩

theorem fanout_kept {hub : ControlHub} {frame : Frame} {i : ℕ} {sub' : Subscriber}
    (h : (hub.fanout frame).subscribers[i]? = some sub') :
    ∃ sub, hub.subscribers[i]? = some sub ∧ sub'.since = sub.since ∧
      sub'.snapshot = sub.snapshot := by
  rw [ControlHub.fanout, List.getElem?_map] at h
  obtain ⟨sub, hsub, rfl⟩ := Option.map_eq_some_iff.1 h
  refine ⟨sub, hsub, ?_⟩
  split
  · exact offer_kept sub frame
  · exact ⟨rfl, rfl⟩

theorem drop_fanned {hub : ControlHub} (hdelivers : hub.Delivers) {sub : Subscriber} {i : ℕ}
    (hsub : hub.subscribers[i]? = some sub) (frame : Frame) :
    (hub.fanned ++ [frame]).drop sub.since = hub.fanned.drop sub.since ++ [frame] :=
  List.drop_append_of_le_length (hdelivers sub (List.mem_of_getElem? hsub)).1.since_le

namespace LiveService

variable {s s' : LiveService} {hub hub' : ControlHub} {frame : Frame}
  {p q : List Frame → Option Json → Build → Prop}

theorem Each.imp (h : s.Each p) (hhub : s'.hub = s.hub) (hbuilds : s'.builds = s.builds)
    (hpq : ∀ frames snapshot b, p frames snapshot b → q frames snapshot b) : s'.Each q := by
  intro hub hs' i sub b hsub hb
  rw [hhub] at hs'
  rw [hbuilds] at hb
  exact hpq _ _ _ (h hub hs' i sub b hsub hb)

theorem Each.fanout (h : s.Each p) (hhub : s.hub = some hub) (hdelivers : hub.Delivers)
    (hs' : s'.hub = some (hub.fanout frame)) (hbuilds : s'.builds = s.builds)
    (hpq : ∀ frames snapshot b, p frames snapshot b → q (frames ++ [frame]) snapshot b) :
    s'.Each q := by
  intro hub' hhub' i sub' b hsub' hb
  obtain rfl := Option.some.inj (hs'.symm.trans hhub')
  obtain ⟨sub, hsub, hsince, hsnapshot⟩ := fanout_kept hsub'
  rw [hbuilds] at hb
  rw [hsince, hsnapshot]
  show q ((hub.fanned ++ [frame]).drop sub.since) sub.snapshot b
  rw [drop_fanned hdelivers hsub]
  exact hpq _ _ _ (h hub hhub i sub b hsub hb)

theorem Each.client (h : s.Each p) (hhub : s.hub = some hub) {e : ControlHub.Event} {i : ℕ}
    (he : e.subscriber = some i) (hstep : ControlHub.step e hub = some hub')
    (hpq : ∀ j snapshot, e = .snapshotBuilt j snapshot → ∀ b, s.builds[j]? = some b →
      ∀ frames before, p frames before b → p frames (some snapshot) b) :
    ({ s with hub := some hub' } : LiveService).Each p := by
  obtain ⟨hfanned, -, hkept⟩ := step_kept he hstep
  intro hub₁ hhub₁ j sub' b hsub' hb
  obtain rfl := Option.some.inj hhub₁
  obtain ⟨sub, hsub, hsince, hsnapshot⟩ := hkept j sub' hsub'
  have hold := h hub hhub j sub b hsub hb
  rw [hfanned, hsince]
  rcases hsnapshot with hsame | ⟨snapshot, heq, hbuilt⟩
  · rwa [hsame]
  · rw [hbuilt]
    exact hpq j snapshot heq b hb _ _ hold

theorem Each.subscribe (h : s.Each p) (hhub : s.hub = some hub) {b₀ : Build}
    (hlength : s.builds.length = hub.subscribers.length)
    (hs' : s'.hub = some hub.subscribe) (hbuilds : s'.builds = s.builds ++ [b₀])
    (hpq : ∀ frames snapshot b, p frames snapshot b → q frames snapshot b) (hnew : q [] none b₀) :
    s'.Each q := by
  intro hub' hhub' i sub b hsub hb
  obtain rfl := Option.some.inj (hs'.symm.trans hhub')
  rw [hbuilds] at hb
  rw [ControlHub.subscribe] at hsub ⊢
  by_cases hi : i < s.builds.length
  · rw [List.getElem?_append_left hi] at hb
    rw [List.getElem?_append_left (hlength ▸ hi)] at hsub
    exact hpq _ _ _ (h hub hhub i sub b hsub hb)
  · rw [List.getElem?_append_right (Nat.le_of_not_lt hi)] at hb
    rw [List.getElem?_append_right (hlength ▸ Nat.le_of_not_lt hi)] at hsub
    obtain rfl := List.mem_singleton.1 (List.mem_of_getElem? hb)
    obtain rfl := List.mem_singleton.1 (List.mem_of_getElem? hsub)
    show q (hub.fanned.drop hub.fanned.length) none b
    rw [List.drop_length]
    exact hnew

end LiveService

/-! ## Steps -/

section Steps

variable {s s' : LiveService} {hub hub' : ControlHub} {frame : Frame} {frames : List Frame}
  {snapshot : Option Json} {b : Build}

theorem Feeds.mono (h : Feeds s frames snapshot b) (hshown : s'.shown = s.shown)
    (hrecorded : s.recorded ≤ s'.recorded) (hreadings : s.readings ⊆ s'.readings) :
    Feeds s' frames snapshot b where
  snapshot := h.snapshot
  usage := by rw [hshown, h.usage]
  before := by rw [hshown]; exact h.before
  shown_le := by rw [hshown]; exact h.shown_le
  recorded_le := h.recorded_le.trans hrecorded
  reading r hr := (h.reading r hr).imp_right fun hmem => hreadings hmem

theorem Feeds.append (h : Feeds s frames snapshot b) (hframe : frame.publishes .usage = none) :
    Feeds s (frames ++ [frame]) snapshot b :=
  { h with usage := by rw [List.filterMap_append, h.usage]; simp [hframe] }

namespace LiveService

/-- A step that leaves the hub and the snapshots alone. -/
theorem Consistent.moved (h : s.Consistent) (hhub : s'.hub = s.hub) (hbuilds : s'.builds = s.builds)
    (hshown : s'.shown = s.shown) (hrecorded : s.recorded ≤ s'.recorded)
    (hreadings : s.readings ⊆ s'.readings)
    (hoff : s'.hub = none → s'.answers = [] ∧ s'.reading = [] ∧ s'.usageDirty = false)
    (hsettled : s'.settled ≤ s'.recorded)
    (hsorted : (s.shown ++ s'.answers).Pairwise fun r r' => r.settled ≤ r'.settled)
    (hanswered : ∀ r ∈ s'.answers, r ∈ s'.readings)
    (hread : ∀ r ∈ s'.readings, r.settled ≤ s'.settled) : s'.Consistent where
  delivers hub hs' := h.delivers hub (hhub ▸ hs')
  plain hub hs' := h.plain hub (hhub ▸ hs')
  length hub hs' := by rw [hbuilds]; exact h.length hub (hhub ▸ hs')
  feeds := h.feeds.imp hhub hbuilds fun _ _ _ hfeeds => hfeeds.mono hshown hrecorded hreadings
  off hs' := by
    obtain ⟨hnone, hempty, -⟩ := h.off (hhub ▸ hs')
    exact ⟨hbuilds.trans hnone, hshown.trans hempty, hoff hs'⟩
  settled := hsettled
  sorted := by rw [hshown]; exact hsorted
  answered r hr := by
    rw [hshown] at hr
    rcases List.mem_append.1 hr with hr | hr
    · exact hreadings (h.answered r (List.mem_append_left _ hr))
    · exact hanswered r hr
  read := hread

/-- A frame about something else than the usage is fanned out. -/
theorem Consistent.fanout (h : s.Consistent) (hhub : s.hub = some hub)
    (hsnapshot : frame.publishes .snapshot = none) (husage : frame.publishes .usage = none) :
    ({ s with hub := some (hub.fanout frame) } : LiveService).Consistent where
  delivers hub' hs' := Option.some.inj hs' ▸ (h.delivers hub hhub).fanout
  plain hub' hs' := by
    obtain rfl := Option.some.inj hs'
    intro f hf
    rcases List.mem_append.1 hf with hf | hf
    · exact h.plain hub hhub f hf
    · rwa [List.mem_singleton.1 hf]
  length hub' hs' := by
    obtain rfl := Option.some.inj hs'
    rw [ControlHub.fanout, List.length_map]
    exact h.length hub hhub
  feeds := h.feeds.fanout hhub (h.delivers hub hhub) rfl rfl fun _ _ _ hfeeds =>
    (hfeeds.append husage).mono rfl (le_refl _) (List.Subset.refl _)
  off hs' := by cases hs'
  settled := h.settled
  sorted := h.sorted
  answered := h.answered
  read := h.read

/-- What was shown is still shown, unless the frame is about the status; then it is that one. -/
theorem showsAuth_fanout (h : s.Consistent) (hhub : s.hub = some hub)
    (hauth : frame.publishes .auth = none → s.ShowsAuth toISOString)
    (hframe : ∀ value, frame.publishes .auth = some value →
      ShowsStatus toISOString s.auth value) :
    ({ s with hub := some (hub.fanout frame) } : LiveService).ShowsAuth toISOString := by
  cases hpub : frame.publishes .auth with
  | none =>
    refine (hauth hpub).fanout hhub (h.delivers hub hhub) rfl rfl fun frames _ b hshows => ?_
    rwa [latest_append_of_none hpub]
  | some value =>
    refine h.feeds.fanout hhub (h.delivers hub hhub) rfl rfl fun frames _ b _ => ?_
    rw [latest_append_of_some hpub]
    exact hframe value hpub

theorem publish_eq (hhub : s.hub = some hub) (payload : Json) :
    s.publish payload =
      { s with hub := some (hub.fanout (.notification .auth (some payload))) } := by
  rw [publish, hhub]
  rfl

/-- Once something is published, the status that is shown is that of the variables. -/
theorem publishAll (payloads : List Json)
    (hpayloads : ∀ payload ∈ payloads, ShowsStatus toISOString s.auth (some payload))
    (h : s.Consistent) (hauth : payloads = [] → s.ShowsAuth toISOString) :
    (payloads.foldl publish s).Consistent ∧
      (payloads.foldl publish s).ShowsAuth toISOString := by
  induction payloads generalizing s with
  | nil => exact ⟨h, hauth rfl⟩
  | cons payload payloads ih =>
    rw [List.foldl_cons]
    cases hhub : s.hub with
    | none =>
      have heq : s.publish payload = s := by
        rw [publish, hhub, Option.map_none, ← hhub]
      rw [heq]
      refine ih (fun p hp => hpayloads p (List.mem_cons_of_mem _ hp)) h fun _ => ?_
      intro hub hs
      cases hhub.symm.trans hs
    | some hub =>
      rw [publish_eq hhub]
      have hfirst := hpayloads payload List.mem_cons_self
      refine ih (fun p hp => hpayloads p (List.mem_cons_of_mem _ hp)) (h.fanout hhub rfl rfl)
        fun _ => showsAuth_fanout h hhub (fun hnone => ?_) fun value hvalue => ?_
      · cases hnone
      · obtain rfl := Option.some.inj hvalue
        exact hfirst

/-! ## One step -/

variable {e : Event}

theorem foldl_publish (payloads : List Json) :
    ∃ hub, payloads.foldl publish s = { s with hub } := by
  induction payloads generalizing s with
  | nil => exact ⟨s.hub, rfl⟩
  | cons payload payloads ih =>
    obtain ⟨hub, heq⟩ := @ih (s.publish payload)
    exact ⟨hub, heq⟩

theorem onHub_eq_some {e : ControlHub.Event} (h : s.onHub e = some s') :
    ∃ hub hub', s.hub = some hub ∧ ControlHub.step e hub = some hub' ∧
      s' = { s with hub := some hub' } := by
  obtain ⟨hub, hhub, h⟩ := Option.bind_eq_some_iff.1 h
  obtain ⟨hub', hstep, h⟩ := Option.bind_eq_some_iff.1 h
  exact ⟨hub, hub', hhub, hstep, (Option.some.inj h).symm⟩

/-- A snapshot is what was read for its subscriber. -/
def ReadFor (s : LiveService) (e : ControlHub.Event) : Prop :=
  ∀ j snapshot, e = .snapshotBuilt j snapshot → ∀ b, s.builds[j]? = some b →
    ∃ usage accounts apps models clients,
      b.usage = some usage ∧ snapshot = snapshotOf b usage accounts apps models clients

/-- A subscriber goes on. -/
theorem client_sound (h : s.Consistent) (hauth : s.ShowsAuth toISOString)
    {e : ControlHub.Event} {i : ℕ} (he : e.subscriber = some i) (hread : s.ReadFor e)
    (hs' : s.onHub e = some s') : s'.Consistent ∧ s'.ShowsAuth toISOString := by
  obtain ⟨hub, hub', hhub, hclient, rfl⟩ := onHub_eq_some hs'
  obtain ⟨hfanned, hlength, -⟩ := step_kept he hclient
  refine ⟨?_, hauth.client hhub he hclient fun _ _ _ _ _ _ _ hshows => hshows⟩
  have hfeeds := h.feeds.client hhub he hclient fun j snapshot heq b hb frames before hold => by
    have hbuilt := hread j snapshot heq b hb
    exact { hold with snapshot := fun _ hj => Option.some.inj hj ▸ hbuilt }
  exact {
    delivers := fun _ hs' => Option.some.inj hs' ▸ (h.delivers hub hhub).step hclient
    plain := fun _ hs' => by
      obtain rfl := Option.some.inj hs'
      rw [hfanned]
      exact h.plain hub hhub
    length := fun _ hs' => by
      obtain rfl := Option.some.inj hs'
      rw [hlength]
      exact h.length hub hhub
    feeds := hfeeds.imp rfl rfl fun _ _ _ hfeed =>
      hfeed.mono rfl (le_refl _) (List.Subset.refl _)
    off := fun hs' => by cases hs'
    settled := h.settled
    sorted := h.sorted
    answered := h.answered
    read := h.read }

theorem readFor_of_ne {e : ControlHub.Event} (h : ∀ j snapshot, e ≠ .snapshotBuilt j snapshot) :
    s.ReadFor e := fun j snapshot heq => absurd heq (h j snapshot)

theorem change_sound (h : s.Consistent) (hauth : s.ShowsAuth toISOString) (c : Change)
    (hstep : step toISOString (.change c) s = some s') :
    s'.Consistent ∧ s'.ShowsAuth toISOString := by
  obtain rfl := Option.some.inj hstep
  refine publishAll _ ?_ ?_ fun hnone => ?_
  · intro payload hpayload
    obtain ⟨emission, -, rfl⟩ := List.mem_map.1 hpayload
    exact showsStatus_emission emission
  · exact h.moved rfl rfl rfl (le_refl _) (List.Subset.refl _) (fun hoff => (h.off hoff).2.2)
      h.settled h.sorted (fun r hr => h.answered r (List.mem_append_right _ hr)) h.read
  · have hquiet := Change.apply_quiet (List.map_eq_nil_iff.1 hnone)
    exact hauth.imp rfl rfl fun _ _ _ hshows => hquiet.showsStatus hshows

/-- The callback of a query of the timer. -/
theorem summaryShown_sound (h : s.Consistent) (hauth : s.ShowsAuth toISOString)
    (hstep : step toISOString .summaryShown s = some s') :
    s'.Consistent ∧ s'.ShowsAuth toISOString := by
  rw [step.eq_def] at hstep
  dsimp only at hstep
  split at hstep
  · next hub r answers hhub hanswers =>
    obtain rfl := Option.some.inj hstep
    let hub₀ : ControlHub := { hub with latestUsage := some r.summary, usageDirty := false }
    let s₀ : LiveService := { s with hub := some hub₀ }
    have hdelivers : hub₀.Delivers := h.delivers hub hhub
    have hfeeds : s₀.Each (Feeds s) := fun hub₁ hhub₁ => by
      obtain rfl := Option.some.inj hhub₁
      exact h.feeds hub hhub
    have hshows : s₀.ShowsAuth toISOString := fun hub₁ hhub₁ => by
      obtain rfl := Option.some.inj hhub₁
      exact hauth hub hhub
    have hsorted := h.sorted
    have hanswered := h.answered
    rw [hanswers] at hsorted hanswered
    refine ⟨?_, ?_⟩
    · exact {
        delivers := fun _ hs' => Option.some.inj hs' ▸ hdelivers.fanout
        plain := fun _ hs' => by
          obtain rfl := Option.some.inj hs'
          intro f hf
          rcases List.mem_append.1 hf with hf | hf
          · exact h.plain hub hhub f hf
          · rw [List.mem_singleton.1 hf]
            rfl
        length := fun _ hs' => by
          obtain rfl := Option.some.inj hs'
          exact (h.length hub hhub).trans (List.length_map _).symm
        feeds := by
          refine hfeeds.fanout rfl hdelivers rfl rfl fun frames snapshot b hfeed => ?_
          exact { hfeed with
            usage := by
              rw [List.filterMap_append, hfeed.usage, List.drop_append_of_le_length hfeed.shown_le,
                List.map_append]
              rfl
            before := by
              rw [List.take_append_of_le_length hfeed.shown_le]
              exact hfeed.before
            shown_le := hfeed.shown_le.trans (by simp) }
        off := fun hs' => by cases hs'
        settled := h.settled
        sorted := by simpa using hsorted
        answered := by simpa using hanswered
        read := h.read }
    · exact hshows.fanout rfl hdelivers rfl rfl fun frames _ b hshow => by
        rwa [latest_append_of_none rfl]
  · cases hstep

theorem subscribe_sound (h : s.Consistent) (hauth : s.ShowsAuth toISOString)
    (hstep : step toISOString .subscribe s = some s') :
    s'.Consistent ∧ s'.ShowsAuth toISOString := by
  obtain ⟨hub, hhub, rfl⟩ := Option.map_eq_some_iff.1 hstep
  have hlength := h.length hub hhub
  refine ⟨?_, ?_⟩
  · exact {
      delivers := fun _ hs' => Option.some.inj hs' ▸ (h.delivers hub hhub).subscribe
      plain := fun _ hs' => by
        obtain rfl := Option.some.inj hs'
        exact h.plain hub hhub
      length := fun _ hs' => by
        obtain rfl := Option.some.inj hs'
        simp [ControlHub.subscribe, hlength]
      feeds := by
        refine h.feeds.subscribe hhub hlength rfl rfl
          (fun _ _ _ hfeed => hfeed.mono rfl (le_refl _) (List.Subset.refl _)) ?_
        refine ⟨by simp, by simp, fun r hr => ?_, le_refl _, le_refl _, by simp⟩
        have hmem := h.answered r (List.mem_append_left _ (List.mem_of_mem_take hr))
        exact (h.read r hmem).trans h.settled
      off := fun hs' => by cases hs'
      settled := h.settled
      sorted := h.sorted
      answered := h.answered
      read := h.read }
  · refine hauth.subscribe hhub hlength rfl rfl (fun _ _ _ hshows => hshows) ?_
    exact showsStatus_emission .authChanged

/-- A heartbeat and a list of accounts are about neither the status nor the usage. -/
theorem onHub_fanout_sound {e : ControlHub.Event} {frame : Frame} (h : s.Consistent)
    (hauth : s.ShowsAuth toISOString) (he : ∀ hub, ControlHub.step e hub = some (hub.fanout frame))
    (hframe : ∀ topic ∈ [ControlTopic.snapshot, .usage, .auth], frame.publishes topic = none)
    (hstep : s.onHub e = some s') : s'.Consistent ∧ s'.ShowsAuth toISOString := by
  obtain ⟨hub, hub', hhub, hclient, rfl⟩ := onHub_eq_some hstep
  obtain rfl := Option.some.inj ((he hub).symm.trans hclient)
  have hfanout := h.fanout hhub (hframe .snapshot (by simp)) (hframe .usage (by simp))
  refine ⟨hfanout, showsAuth_fanout h hhub (fun _ => hauth) fun value hvalue => ?_⟩
  rw [hframe .auth (by simp)] at hvalue
  cases hvalue

theorem getControlHub_sound (h : s.Consistent) (hauth : s.ShowsAuth toISOString)
    (hstep : step toISOString .getControlHub s = some s') :
    s'.Consistent ∧ s'.ShowsAuth toISOString := by
  obtain rfl := Option.some.inj hstep
  cases hhub : s.hub with
  | some hub =>
    have hsame : some ((some hub).getD DEFAULT_HUB) = s.hub := hhub.symm
    refine ⟨?_, hauth.imp hsame rfl fun _ _ _ hshows => hshows⟩
    exact h.moved hsame rfl rfl (le_refl _) (List.Subset.refl _) (fun hs' => by cases hs')
      h.settled h.sorted (fun r hr => h.answered r (List.mem_append_right _ hr)) h.read
  | none =>
    have hempty : ∀ p, ({ s with hub := some DEFAULT_HUB } : LiveService).Each p := by
      intro p hub' hs' i sub b hsub
      obtain rfl := Option.some.inj hs'
      cases hsub
    refine ⟨?_, hempty _⟩
    exact {
      delivers := fun _ hs' => by
        obtain rfl := Option.some.inj hs'
        intro sub hsub
        cases hsub
      plain := fun _ hs' => by
        obtain rfl := Option.some.inj hs'
        intro frame hframe
        cases hframe
      length := fun _ hs' => by
        obtain rfl := Option.some.inj hs'
        exact congrArg List.length (h.off hhub).1
      feeds := hempty _
      off := fun hs' => by cases hs'
      settled := h.settled
      sorted := h.sorted
      answered := h.answered
      read := h.read }

/-- The query of the timer reads what the write queue is done with so far. -/
theorem summaryRead_sound {j : ℕ} {summary : Json} (h : s.Consistent)
    (hauth : s.ShowsAuth toISOString)
    (hstep : step toISOString (.summaryRead j summary) s = some s') :
    s'.Consistent ∧ s'.ShowsAuth toISOString := by
  rw [step.eq_def] at hstep
  dsimp only at hstep
  split at hstep
  · next recorded hreading =>
    obtain ⟨-, hstep⟩ := Option.ite_none_right_eq_some.1 hstep
    obtain rfl := Option.some.inj hstep
    refine ⟨?_, hauth.imp rfl rfl fun _ _ _ hshows => hshows⟩
    refine h.moved rfl rfl rfl (le_refl _) (List.subset_append_left _ _) (fun hs' => ?_) h.settled
      ?_ (fun r hr => ?_) (fun r hr => ?_)
    · have hnone := (h.off hs').2.2.2.1
      rw [hnone] at hreading
      cases hreading
    · rw [← List.append_assoc, List.pairwise_append]
      refine ⟨h.sorted, List.pairwise_singleton _ _, fun r hr r' hr' => ?_⟩
      rw [List.mem_singleton.1 hr']
      exact h.read r (h.answered r hr)
    · rcases List.mem_append.1 hr with hr | hr
      · exact List.mem_append_left _ (h.answered r (List.mem_append_right _ hr))
      · exact List.mem_append_right _ hr
    · rcases List.mem_append.1 hr with hr | hr
      · exact h.read r hr
      · rw [List.mem_singleton.1 hr]
  · cases hstep

/-- The query of a snapshot reads what the write queue is done with so far. -/
theorem usageRead_sound {i : ℕ} {summary : Json} (h : s.Consistent)
    (hauth : s.ShowsAuth toISOString)
    (hstep : step toISOString (.usageRead i summary) s = some s') :
    s'.Consistent ∧ s'.ShowsAuth toISOString := by
  rw [step.eq_def] at hstep
  dsimp only at hstep
  split at hstep
  · next auth recorded shown hbuild =>
    obtain ⟨hwritten, hstep⟩ := Option.ite_none_right_eq_some.1 hstep
    obtain rfl := Option.some.inj hstep
    have hbuilds : ∀ {k : ℕ} {b : Build}, (s.builds.set i ⟨auth, recorded, shown,
        some ⟨summary, s.settled⟩⟩)[k]? = some b → s.builds[k]? = some b ∨
          k = i ∧ b = ⟨auth, recorded, shown, some ⟨summary, s.settled⟩⟩ := by
      intro k b hb
      rw [List.getElem?_set] at hb
      split at hb
      · next heq =>
        split at hb
        · exact .inr ⟨heq.symm, (Option.some.inj hb).symm⟩
        · cases hb
      · exact .inl hb
    refine ⟨?_, fun hub hhub k sub b hsub hb => ?_⟩
    · exact {
        delivers := h.delivers
        plain := h.plain
        length := fun hub hhub => (List.length_set).trans (h.length hub hhub)
        feeds := fun hub hhub k sub b hsub hb => by
          rcases hbuilds hb with hold | ⟨rfl, rfl⟩
          · exact (h.feeds hub hhub k sub b hsub hold).mono rfl (le_refl _)
              (List.subset_append_left _ _)
          · have hfeed := h.feeds hub hhub k sub _ hsub hbuild
            exact {
              snapshot := fun j hj => by
                obtain ⟨usage, _, _, _, _, hnone, -⟩ := hfeed.snapshot j hj
                cases hnone
              usage := hfeed.usage
              before := hfeed.before
              shown_le := hfeed.shown_le
              recorded_le := hfeed.recorded_le
              reading := fun r hr => by
                obtain rfl := Option.some.inj hr
                exact ⟨hwritten, List.mem_append_right _ List.mem_cons_self⟩ }
        off := fun hs' => by
          have hnone := (h.off hs').1
          rw [hnone] at hbuild
          cases hbuild
        settled := h.settled
        sorted := h.sorted
        answered := fun r hr => List.mem_append_left _ (h.answered r hr)
        read := fun r hr => by
          rcases List.mem_append.1 hr with hr | hr
          · exact h.read r hr
          · rw [List.mem_singleton.1 hr] }
    · rcases hbuilds hb with hold | ⟨rfl, rfl⟩
      · exact hauth hub hhub k sub b hsub hold
      · have hshows := hauth hub hhub k sub _ hsub hbuild
        exact hshows
  · cases hstep

/-- Every step keeps what holds of every run. -/
theorem step_sound (h : s.Consistent) (hauth : s.ShowsAuth toISOString)
    (hstep : step toISOString e s = some s') : s'.Consistent ∧ s'.ShowsAuth toISOString := by
  have hanswered : ∀ r ∈ s.answers, r ∈ s.readings := fun r hr =>
    h.answered r (List.mem_append_right _ hr)
  cases e with
  | change c => exact change_sound h hauth c hstep
  | elsewhere r =>
    obtain ⟨helsewhere, hstep⟩ := Option.ite_none_right_eq_some.1 hstep
    obtain rfl := Option.some.inj hstep
    refine ⟨?_, hauth.imp rfl rfl fun _ _ _ hshows => helsewhere.showsStatus hshows⟩
    exact h.moved rfl rfl rfl (le_refl _) (List.Subset.refl _) (fun hoff => (h.off hoff).2.2)
      h.settled h.sorted hanswered h.read
  | record =>
    obtain rfl := Option.some.inj hstep
    refine ⟨?_, hauth.imp rfl rfl fun _ _ _ hshows => hshows⟩
    refine h.moved rfl rfl rfl (Nat.le_succ _) (List.Subset.refl _) (fun hs' => ?_)
      (Nat.le_succ_of_le h.settled) h.sorted hanswered h.read
    have hoff : s.hub = none := hs'
    obtain ⟨-, -, hanswers, hreading, -⟩ := h.off hoff
    exact ⟨hanswers, hreading, by rw [hoff]; rfl⟩
  | settle =>
    obtain ⟨hlt, hstep⟩ := Option.ite_none_right_eq_some.1 hstep
    obtain rfl := Option.some.inj hstep
    refine ⟨?_, hauth.imp rfl rfl fun _ _ _ hshows => hshows⟩
    exact h.moved rfl rfl rfl (le_refl _) (List.Subset.refl _) (fun hoff => (h.off hoff).2.2)
      hlt h.sorted hanswered fun r hr => Nat.le_succ_of_le (h.read r hr)
  | getControlHub => exact getControlHub_sound h hauth hstep
  | tick =>
    obtain ⟨hdirty, hstep⟩ := Option.ite_none_right_eq_some.1 hstep
    obtain rfl := Option.some.inj hstep
    refine ⟨?_, hauth.imp rfl rfl fun _ _ _ hshows => hshows⟩
    refine h.moved rfl rfl rfl (le_refl _) (List.Subset.refl _) (fun hoff => ?_)
      h.settled h.sorted hanswered h.read
    cases hdirty.symm.trans (h.off hoff).2.2.2.2
  | summaryRead j summary => exact summaryRead_sound h hauth hstep
  | summaryFailed j =>
    obtain rfl := Option.some.inj hstep
    refine ⟨?_, hauth.imp rfl rfl fun _ _ _ hshows => hshows⟩
    refine h.moved rfl rfl rfl (le_refl _) (List.Subset.refl _) (fun hoff => ?_)
      h.settled h.sorted hanswered h.read
    obtain ⟨-, -, hanswers, hreading, hdirty⟩ := h.off hoff
    exact ⟨hanswers, by rw [hreading]; rfl, hdirty⟩
  | summaryShown => exact summaryShown_sound h hauth hstep
  | heartbeat =>
    have hheartbeat : ∀ topic ∈ [ControlTopic.snapshot, .usage, .auth],
        Frame.heartbeat.publishes topic = none := fun _ _ => rfl
    exact onHub_fanout_sound h hauth (fun _ => rfl) hheartbeat hstep
  | emitAccounts accounts =>
    have haccounts : ∀ topic ∈ [ControlTopic.snapshot, .usage, .auth],
        (Frame.notification .accounts (some accounts)).publishes topic = none := by
      simp [Frame.publishes]
    exact onHub_fanout_sound h hauth (fun _ => rfl) haccounts hstep
  | subscribe => exact subscribe_sound h hauth hstep
  | usageRead i summary => exact usageRead_sound h hauth hstep
  | snapshotBuilt i accounts apps models clients =>
    obtain ⟨b, hb, hstep⟩ := Option.bind_eq_some_iff.1 hstep
    obtain ⟨usage, husage, hstep⟩ := Option.bind_eq_some_iff.1 hstep
    refine client_sound h hauth rfl (fun j snapshot heq b' hb' => ?_) hstep
    injection heq with hij hsnapshot
    subst hij hsnapshot
    obtain rfl := Option.some.inj (hb.symm.trans hb')
    exact ⟨usage, accounts, apps, models, clients, husage, rfl⟩
  | snapshotFailed i | resume i | writeDone i | writeFailed i | unsubscribe i =>
    exact client_sound h hauth rfl (readFor_of_ne fun j snapshot heq => by cases heq) hstep

/-! ## What the timer still has to read -/

/-- A query of the timer reads the table. -/
theorem covered_summaryRead {j : ℕ} {summary : Json} (hc : s.Covered)
    (hstep : step toISOString (.summaryRead j summary) s = some s') : s'.Covered := by
  rw [step.eq_def] at hstep
  dsimp only at hstep
  split at hstep
  · next recorded hreading =>
    obtain ⟨hwritten, hstep⟩ := Option.ite_none_right_eq_some.1 hstep
    obtain rfl := Option.some.inj hstep
    intro hclean
    rcases hc hclean with ⟨-, -, hnone, -⟩ | hmem | ⟨r, hr, hle⟩
    · rw [hnone] at hreading
      cases hreading
    · obtain ⟨k, hk⟩ := List.mem_iff_getElem?.1 hmem
      by_cases hkj : k = j
      · -- the query that has read was the one that waited for all events
        subst hkj
        obtain rfl := Option.some.inj (hk.symm.trans hreading)
        exact .inr (.inr ⟨⟨summary, s.settled⟩, by simp, hwritten⟩)
      · exact .inr (.inl (List.mem_eraseIdx_iff_getElem?.2 ⟨k, hkj, hk⟩))
    · refine .inr (.inr ⟨r, ?_, hle⟩)
      rw [← List.append_assoc]
      exact List.mem_append_left _ hr
  · cases hstep

theorem covered_summaryShown (hc : s.Covered)
    (hstep : step toISOString .summaryShown s = some s') : s'.Covered := by
  rw [step.eq_def] at hstep
  dsimp only at hstep
  split at hstep
  · next hub r answers hhub hanswers =>
    obtain rfl := Option.some.inj hstep
    intro hclean
    rcases hc hclean with ⟨-, hnone, -⟩ | hmem | ⟨r', hr', hle⟩
    · cases hanswers.symm.trans hnone
    · exact .inr (.inl hmem)
    · refine .inr (.inr ⟨r', ?_, hle⟩)
      rw [hanswers] at hr'
      simpa using hr'
  · cases hstep

theorem covered_usageRead {i : ℕ} {summary : Json} (hc : s.Covered)
    (hstep : step toISOString (.usageRead i summary) s = some s') : s'.Covered := by
  rw [step.eq_def] at hstep
  dsimp only at hstep
  split at hstep
  · next auth recorded shown hbuild =>
    obtain ⟨-, hstep⟩ := Option.ite_none_right_eq_some.1 hstep
    obtain rfl := Option.some.inj hstep
    intro hclean
    refine (hc hclean).imp_left fun ⟨hshown, hanswers, hreading, hbuilds⟩ => ?_
    refine ⟨hshown, hanswers, hreading, fun b hb => ?_⟩
    rcases List.mem_or_eq_of_mem_set hb with hold | rfl
    · exact hbuilds b hold
    · have hrecorded := hbuilds _ (List.mem_of_getElem? hbuild)
      exact hrecorded
  · cases hstep

theorem covered_onHub {e : ControlHub.Event} (hc : s.Covered) (hstep : s.onHub e = some s') :
    s'.Covered := by
  obtain ⟨hub, hub', -, -, rfl⟩ := onHub_eq_some hstep
  exact hc

/-- Only a query that fails loses what the timer had been told. -/
theorem covered_step (h : s.Consistent) (hc : s.Covered) (hread : ∀ j, e ≠ .summaryFailed j)
    (hstep : step toISOString e s = some s') : s'.Covered := by
  cases e with
  | change c =>
    obtain rfl := Option.some.inj hstep
    obtain ⟨hub, heq⟩ := @foldl_publish { s with
      hysteresis := (c.apply s.hysteresis s.auth).1.1, auth := (c.apply s.hysteresis s.auth).1.2 }
      ((c.apply s.hysteresis s.auth).2.map
        (emissionJson toISOString (c.apply s.hysteresis s.auth).1.2))
    rw [heq]
    exact hc
  | elsewhere r =>
    obtain ⟨-, hstep⟩ := Option.ite_none_right_eq_some.1 hstep
    obtain rfl := Option.some.inj hstep
    exact hc
  | record =>
    obtain rfl := Option.some.inj hstep
    intro hclean
    have hoff : s.hub = none := Option.isSome_eq_false_iff.1 hclean |> Option.isNone_iff_eq_none.1
    obtain ⟨hbuilds, hshown, hanswers, hreading, -⟩ := h.off hoff
    exact .inl ⟨hshown, hanswers, hreading, fun b hb => by
      rw [hbuilds] at hb
      cases hb⟩
  | settle =>
    obtain ⟨-, hstep⟩ := Option.ite_none_right_eq_some.1 hstep
    obtain rfl := Option.some.inj hstep
    exact hc
  | getControlHub =>
    obtain rfl := Option.some.inj hstep
    exact hc
  | tick =>
    obtain ⟨-, hstep⟩ := Option.ite_none_right_eq_some.1 hstep
    obtain rfl := Option.some.inj hstep
    exact fun _ => .inr (.inl List.mem_cons_self)
  | summaryRead j summary => exact covered_summaryRead hc hstep
  | summaryFailed j => exact absurd rfl (hread j)
  | summaryShown => exact covered_summaryShown hc hstep
  | subscribe =>
    obtain ⟨hub, -, rfl⟩ := Option.map_eq_some_iff.1 hstep
    intro hclean
    refine (hc hclean).imp_left fun ⟨hshown, hanswers, hreading, hbuilds⟩ => ?_
    refine ⟨hshown, hanswers, hreading, fun b hb => ?_⟩
    rcases List.mem_append.1 hb with hold | hnew
    · exact hbuilds b hold
    · rw [List.mem_singleton.1 hnew]
  | usageRead i summary => exact covered_usageRead hc hstep
  | snapshotBuilt i accounts apps models clients =>
    obtain ⟨b, -, hstep⟩ := Option.bind_eq_some_iff.1 hstep
    obtain ⟨usage, -, hstep⟩ := Option.bind_eq_some_iff.1 hstep
    exact covered_onHub hc hstep
  | heartbeat | emitAccounts accounts | snapshotFailed i | resume i | writeDone i | writeFailed i
  | unsubscribe i =>
    exact covered_onHub hc hstep

/-! ## Runs -/

theorem consistent_start (r : Runtime) : ({ auth := r } : LiveService).Consistent where
  delivers _ hs := by cases hs
  plain _ hs := by cases hs
  length _ hs := by cases hs
  feeds _ hs := by cases hs
  off _ := ⟨rfl, rfl, rfl, rfl, rfl⟩
  settled := le_refl _
  sorted := List.Pairwise.nil
  answered _ hr := by cases hr
  read _ hr := by cases hr

theorem exec_sound {events : List Event} {r : Runtime}
    (h : exec (step toISOString) events { auth := r } = some s) :
    s.Consistent ∧ s.ShowsAuth toISOString := by
  refine exec_preserves (I := fun s => s.Consistent ∧ s.ShowsAuth toISOString)
    (fun e s s' hI hstep => step_sound hI.1 hI.2 hstep) ⟨consistent_start r, fun _ hs => ?_⟩ h
  cases hs

theorem exec_covered {events : List Event} {r : Runtime}
    (hread : ∀ e ∈ events, ∀ j, e ≠ .summaryFailed j)
    (h : exec (step toISOString) events { auth := r } = some s) : s.Covered := by
  have hmeets : Meets (step toISOString) (fun e _ => ∀ j, e ≠ .summaryFailed j) events
      { auth := r } := meets_of_forall hread
  have hfinal := exec_invariant
    (I := fun s : LiveService => (s.Consistent ∧ s.ShowsAuth toISOString) ∧ s.Covered)
    (fun e s s' hI hne hstep =>
      ⟨step_sound hI.1.1 hI.1.2 hstep, covered_step hI.1.1 hI.2 hne hstep⟩)
    hmeets ⟨⟨consistent_start r, fun _ hs => by cases hs⟩, fun _ => .inl ⟨rfl, rfl, rfl,
      fun _ hb => by cases hb⟩⟩ h
  exact hfinal.2

end LiveService

end Steps

end Maximal.Live
