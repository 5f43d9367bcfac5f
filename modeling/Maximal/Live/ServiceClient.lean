import Maximal.Live.ServiceRuns

/-!
# Clients of the live service

What a client shows that is still connected and has been written everything: the status there is,
and the usage of all events once the timer has nothing to do.

## Main results

- `LiveService.client_shows_status`
- `LiveService.client_shows_usage`
-/

namespace Maximal.Live

open Js Auth Runs

variable {toISOString : ℤ → String}

namespace LiveService

variable {s : LiveService} {hub : ControlHub} {sub : Subscriber} {snapshot : Json}
  {events : List Event} {r : Runtime}

/-- A client that has caught up was written its snapshot and everything fanned out since. -/
theorem Consistent.caughtUp (h : s.Consistent) (hhub : s.hub = some hub)
    (hsub : sub ∈ hub.subscribers) (halive : sub.alive = true)
    (hsnapshot : sub.snapshot = some snapshot) (hpending : sub.pending = []) :
    ∃ (i : ℕ) (b : Build) (usage : Reading) (state : ControlState),
      hub.subscribers[i]? = some sub ∧ s.builds[i]? = some b ∧ b.usage = some usage ∧
      applyFrames (fun _ => none) sub.written = .ok state ∧
      state .auth = (latest .auth (hub.fanned.drop sub.since)).getD (some b.auth) ∧
      state .usage = (latest .usage (hub.fanned.drop sub.since)).getD (some usage.summary) := by
  obtain ⟨i, hi⟩ := List.mem_iff_getElem?.1 hsub
  have hlt : i < s.builds.length := by
    rw [h.length hub hhub]
    exact (List.getElem?_eq_some_iff.1 hi).1
  have hb := List.getElem?_eq_getElem hlt
  obtain ⟨usage, accounts, apps, models, clients, husage, rfl⟩ :=
    (h.feeds hub hhub i sub _ hi hb).snapshot snapshot hsnapshot
  have hdelivers := (h.delivers hub hhub sub hsub).1
  have hwritten : sub.written = snapshotFrame
      (snapshotOf s.builds[i] usage accounts apps models clients) :: hub.fanned.drop sub.since := by
    have howed := hdelivers.owed halive
    have hinHand : sub.inHand ++ sub.queue.items = [] := hpending
    rw [List.append_assoc, hinHand, List.append_nil] at howed
    rw [howed, Subscriber.owed, hsnapshot]
    rfl
  have hplain : ∀ frame ∈ hub.fanned.drop sub.since, frame.publishes .snapshot = none :=
    fun frame hframe => h.plain hub hhub frame (List.mem_of_mem_drop hframe)
  obtain ⟨state, hstate, htopics⟩ := @applyFrames_getD _
    (spread (some (snapshotOf s.builds[i] usage accounts apps models clients))) hplain
  refine ⟨i, s.builds[i], usage, state, hi, hb, husage, ?_, htopics .auth, htopics .usage⟩
  rw [hwritten, applyFrames, List.foldlM_cons]
  exact hstate

/-- The client of any connection shows, once it has caught up, the status there is; a code may have
expired since it was sent. -/
theorem client_shows_status (h : exec (step toISOString) events { auth := r } = some s)
    (hhub : s.hub = some hub) (hsub : sub ∈ hub.subscribers) (halive : sub.alive = true)
    (hsnapshot : sub.snapshot = some snapshot) (hpending : sub.pending = []) :
    ∃ state status, applyFrames (fun _ => none) sub.written = .ok state ∧
      (state .auth = some (statusJson toISOString status) ∨
        state .auth = some (reconnectJson toISOString status)) ∧
      (status = getAuthStatus s.auth ∨
        ∃ flow, s.auth.currentFlow = some flow ∧ flow.expiresAt ≤ s.auth.now ∧
          IsCodeOf flow status) := by
  obtain ⟨hconsistent, hauth⟩ := exec_sound h
  obtain ⟨i, b, usage, state, hi, hb, -, hstate, hvalue, -⟩ :=
    hconsistent.caughtUp hhub hsub halive hsnapshot hpending
  obtain ⟨t, ht, emission, hshows⟩ := hauth hub hhub i sub b hi hb
  refine ⟨state, getAuthStatus { s.auth with now := t }, hstate, ?_, getAuthStatus_earlier ht⟩
  rw [hvalue, hshows]
  cases emission with
  | authChanged => exact .inl rfl
  | authChangedWithReconnect => exact .inr rfl

theorem getLast?_drop_map {l : List Reading} {n : ℕ} {last : Reading}
    (hlast : (l.drop n).getLast? = some last) :
    ((l.drop n).map fun r => some r.summary).getLast? = some (some last.summary) := by
  rw [List.getLast?_map, hlast]
  rfl

/-- Once the timer has nothing to do, a reading of all events was shown, or none was shown at all
and every snapshot was begun when all events were recorded. -/
theorem Covered.of_idle (hc : s.Covered) (hidle : s.Idle) :
    (s.shown = [] ∧ ∀ b ∈ s.builds, b.recorded = s.recorded) ∨
      ∃ r ∈ s.shown, s.recorded ≤ r.settled := by
  rcases hc hidle.usageDirty with ⟨hshown, -, -, hbuilds⟩ | hmem | hread
  · exact .inl ⟨hshown, hbuilds⟩
  · rw [hidle.reading] at hmem
    cases hmem
  · rw [hidle.answers, List.append_nil] at hread
    exact .inr hread

/-- The last summary that was shown is of all events, if any is. -/
theorem Consistent.last_shown (h : s.Consistent) {n : ℕ} {last : Reading}
    (hlast : (s.shown.drop n).getLast? = some last) {r : Reading} (hr : r ∈ s.shown) :
    r.settled ≤ last.settled := by
  have hwhole : s.shown.getLast? = some last := by
    rw [List.getLast?_drop] at hlast
    split at hlast
    · cases hlast
    · exact hlast
  obtain ⟨before, heq⟩ := List.getLast?_eq_some_iff.1 hwhole
  have hsorted := (List.pairwise_append.1 h.sorted).1
  rw [heq] at hsorted hr
  rcases List.mem_append.1 hr with hbefore | hlast
  · exact (List.pairwise_append.1 hsorted).2.2 r hbefore last List.mem_cons_self
  · rw [List.mem_singleton.1 hlast]

/-- While no query fails, the client of any connection shows, once it has caught up and the timer
has nothing to do, a summary that was read after every event. -/
theorem client_shows_usage (h : exec (step toISOString) events { auth := r } = some s)
    (hread : ∀ e ∈ events, ∀ j, e ≠ .summaryFailed j) (hidle : s.Idle)
    (hhub : s.hub = some hub) (hsub : sub ∈ hub.subscribers) (halive : sub.alive = true)
    (hsnapshot : sub.snapshot = some snapshot) (hpending : sub.pending = []) :
    ∃ state reading, applyFrames (fun _ => none) sub.written = .ok state ∧
      state .usage = some reading.summary ∧ reading ∈ s.readings ∧
      reading.settled = s.recorded := by
  obtain ⟨hconsistent, -⟩ := exec_sound h
  have hcovered := (exec_covered hread h).of_idle hidle
  obtain ⟨i, b, usage, state, hi, hb, husage, hstate, -, hvalue⟩ :=
    hconsistent.caughtUp hhub hsub halive hsnapshot hpending
  have hfeed := hconsistent.feeds hub hhub i sub b hi hb
  -- what was read was written before, and what was written was recorded
  have hle : ∀ r ∈ s.readings, r.settled ≤ s.recorded := fun r hr =>
    (hconsistent.read r hr).trans hconsistent.settled
  rw [latest, hfeed.usage] at hvalue
  cases hlast : (s.shown.drop b.shown).getLast? with
  | none =>
    -- nothing was shown since the registration: the snapshot's own reading counts
    obtain ⟨hafter, hmem⟩ := hfeed.reading usage husage
    have hnone := List.getLast?_eq_none_iff.1 hlast
    rw [hnone] at hvalue
    refine ⟨state, usage, hstate, hvalue, hmem, le_antisymm (hle usage hmem) ?_⟩
    rcases hcovered with ⟨-, hbuilds⟩ | ⟨r, hr, hall⟩
    · exact (hbuilds b (List.mem_of_getElem? hb)) ▸ hafter
    · have htake : s.shown.take b.shown = s.shown :=
        List.take_of_length_le (List.drop_eq_nil_iff.1 hnone)
      exact hall.trans ((hfeed.before r (htake.symm ▸ hr)).trans hafter)
  | some last =>
    rw [getLast?_drop_map hlast] at hvalue
    have hshown : last ∈ s.shown := List.mem_of_mem_drop (List.mem_of_getLast? hlast)
    have hmem := hconsistent.answered last (List.mem_append_left _ hshown)
    refine ⟨state, last, hstate, hvalue, hmem, le_antisymm (hle last hmem) ?_⟩
    rcases hcovered with ⟨hempty, -⟩ | ⟨r, hr, hall⟩
    · rw [hempty] at hshown
      cases hshown
    · exact hall.trans (hconsistent.last_shown hlast hr)

/-! ## A run -/

/-- While the snapshot of a client is being built, a sign-in fails and an event is recorded; the
client reads everything. -/
def served : List Event :=
  [.getControlHub, .subscribe, .record, .usageRead 0 (.string "none"), .settle,
    .change (.setAuthState (.error ⟨"denied", none⟩)), .tick, .summaryRead 0 (.string "one"),
    .snapshotBuilt 0 .null .null .null .null, .summaryShown, .resume 0, .writeDone 0, .resume 0,
    .writeDone 0, .resume 0, .writeDone 0]

theorem exec_served :
    ∃ s hub sub snapshot, exec (step fun _ => "then") served { auth := { now := 0 } } = some s ∧
      s.Idle ∧ s.hub = some hub ∧ hub.subscribers[0]? = some sub ∧ sub.alive = true ∧
      sub.snapshot = some snapshot ∧ sub.pending = [] ∧ s.recorded = 1 :=
  ⟨_, _, _, _, rfl, ⟨rfl, rfl, rfl⟩, rfl, rfl, rfl, rfl, rfl, rfl⟩

theorem client_shows_status_served :
    ∃ s sub state status, exec (step fun _ => "then") served { auth := { now := 0 } } = some s ∧
      applyFrames (fun _ => none) (Subscriber.written sub) = .ok state ∧
      (state .auth = some (statusJson (fun _ => "then") status) ∨
        state .auth = some (reconnectJson (fun _ => "then") status)) ∧
      (status = getAuthStatus s.auth ∨
        ∃ flow, s.auth.currentFlow = some flow ∧ flow.expiresAt ≤ s.auth.now ∧
          IsCodeOf flow status) := by
  obtain ⟨s, hub, sub, snapshot, hexec, -, hhub, hsub, halive, hsnapshot, hpending, -⟩ :=
    exec_served
  obtain ⟨state, status, hshows⟩ := client_shows_status hexec hhub (List.mem_of_getElem? hsub)
    halive hsnapshot hpending
  exact ⟨s, sub, state, status, hexec, hshows⟩

theorem client_shows_usage_served :
    ∃ s sub state reading, exec (step fun _ => "then") served { auth := { now := 0 } } = some s ∧
      applyFrames (fun _ => none) (Subscriber.written sub) = .ok state ∧
      state .usage = some (Reading.summary reading) ∧ reading ∈ s.readings ∧
      reading.settled = 1 := by
  obtain ⟨s, hub, sub, snapshot, hexec, hidle, hhub, hsub, halive, hsnapshot, hpending,
    hrecorded⟩ := exec_served
  obtain ⟨state, reading, hstate, hvalue, hmem, hsettled⟩ := client_shows_usage hexec
    (by simp [served]) hidle hhub (List.mem_of_getElem? hsub) halive hsnapshot hpending
  exact ⟨s, sub, state, reading, hexec, hstate, hvalue, hmem, hsettled.trans hrecorded⟩

end LiveService

end Maximal.Live
