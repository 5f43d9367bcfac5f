import Maximal.Lib.Runs
import Mathlib.Data.List.Infix

/-!
# The handle of the database

`getDb` opens the database for the first who asks and hands the same promise to all who ask until
`close`. Who awaits a promise goes on in the order in which they came; between two of them anything
may happen. An opening that fails after the handle exists closes it.

## Main definitions

- `Opening` — a call of `open`, with those who await it and the calls its handle has had
- `SqliteDbStore.step` — the calls of the store, and the promises that are settled meanwhile
- `Opening.Follows` — how far an opening has come

## Main results

- `Tidy.step` — every opening is the cached one, about to be closed, or over
- `sqliteDbStore_lifecycle` — no handle is called after it was closed, and none is left open
-/

namespace Maximal.Platform

/-! ## The store -/

inductive HandleCall where
  | initializeDb
  | use (user : ℕ)
  | beforeClose (threw : Bool)
  | close
  deriving DecidableEq, Repr

/-- What goes on when a promise is settled. -/
inductive Reaction where
  | user (user : ℕ)
  | closer
  deriving DecidableEq, Repr

inductive PromiseState where
  | pending | rejected | resolved
  deriving DecidableEq, Repr

/-- One call of `open`. -/
structure Opening where
  state : PromiseState
  reactions : List Reaction
  calls : List HandleCall
  /-- Who has had the promise from `getDb`. -/
  handed : List ℕ
  deriving DecidableEq, Repr

/-- What `open` meets. -/
inductive OpenResult where
  /-- `openImpl` rejects: there is no handle. -/
  | unopened
  | initializeThrew
  | initialized
  deriving DecidableEq, Repr

structure SqliteDbStore where
  openings : List Opening
  dbPromise : Option ℕ
  deriving DecidableEq, Repr

namespace Opening

def start : Opening := ⟨.pending, [], [], []⟩

def awaitUser (o : Opening) (user : ℕ) : Opening :=
  { o with reactions := o.reactions ++ [.user user], handed := o.handed ++ [user] }

def awaitCloser (o : Opening) : Opening := { o with reactions := o.reactions ++ [.closer] }

def settle (o : Opening) : OpenResult → Opening
  | .unopened => { o with state := .rejected }
  -- `db.close` may throw as well; `initializeDb`'s error is the one that is thrown
  | .initializeThrew =>
    { o with state := .rejected, calls := o.calls ++ [.initializeDb, .close] }
  | .initialized => { o with state := .resolved, calls := o.calls ++ [.initializeDb] }

/-- The first who awaits goes on. One to whom the promise is rejected calls nothing. -/
def resume (o : Opening) (threw : Bool) : Option Opening :=
  match o.reactions with
  | [] => none
  | reaction :: reactions =>
    match o.state, reaction with
    | .pending, _ => none
    | .rejected, _ => some { o with reactions }
    | .resolved, .user user => some { o with reactions, calls := o.calls ++ [.use user] }
    | .resolved, .closer =>
      if threw then some { o with reactions, calls := o.calls ++ [.beforeClose true] }
      else some { o with reactions, calls := o.calls ++ [.beforeClose false, .close] }

end Opening

namespace SqliteDbStore

def empty : SqliteDbStore := ⟨[], none⟩

def modify (s : SqliteDbStore) (k : ℕ) (f : Opening → Opening) : SqliteDbStore :=
  { s with openings := s.openings.modify k f }

/-- `this.dbPromise ??= this.open()`. -/
def promise (s : SqliteDbStore) : SqliteDbStore × ℕ :=
  match s.dbPromise with
  | some k => (s, k)
  | none => (⟨s.openings ++ [.start], some s.openings.length⟩, s.openings.length)

inductive Label where
  /-- A user calls `getDb` and awaits what it returns. -/
  | getDb (user : ℕ)
  | close
  | opened (k : ℕ) (result : OpenResult)
  | resume (k : ℕ) (beforeCloseThrows : Bool)
  deriving DecidableEq, Repr

def step : Label → SqliteDbStore → Option SqliteDbStore
  | .getDb user, s =>
    let (s, k) := s.promise
    some (s.modify k fun o => o.awaitUser user)
  | .close, s =>
    match s.dbPromise with
    | none => some s
    | some k => some { s.modify k .awaitCloser with dbPromise := none }
  | .opened k result, s =>
    match s.openings[k]? with
    | none => none
    | some o => if o.state = .pending then some (s.modify k fun o => o.settle result) else none
  | .resume k threw, s =>
    match s.openings[k]? with
    | none => none
    | some o => (o.resume threw).map fun o' => s.modify k fun _ => o'

end SqliteDbStore

/-! ## How far an opening has come -/

inductive Phase where
  | cached | closing | gone
  deriving DecidableEq

def Phase.reactions : Phase → List Reaction
  | .closing => [.closer]
  | .cached | .gone => []

/-- The last calls on a handle, those of the one who closes. -/
def Phase.Ends : Phase → List HandleCall → Prop
  | .gone, calls => calls = [.beforeClose true] ∨ calls = [.beforeClose false, .close]
  | .cached, calls | .closing, calls => calls = []

/-- The calls on the handle, when those in `served` have gone on. -/
def Opening.HasCalled (o : Opening) (served : List ℕ) (phase : Phase) : Prop :=
  match o.state with
  | .pending => o.calls = [] ∧ served = [] ∧ phase ≠ .gone
  | .rejected => o.calls = [] ∨ o.calls = [.initializeDb, .close]
  | .resolved =>
    ∃ ending, o.calls = .initializeDb :: (served.map .use ++ ending) ∧ phase.Ends ending

/-- Those in `served` have gone on; those in `waiting` await the promise, before the one who
closes. -/
structure Opening.Follows (o : Opening) (served waiting : List ℕ) (phase : Phase) : Prop where
  handed : o.handed = served ++ waiting
  reactions : o.reactions = waiting.map .user ++ phase.reactions
  gone : phase = .gone → waiting = []
  calls : o.HasCalled served phase

namespace Opening.Follows

variable {o o' : Opening} {served waiting : List ℕ} {phase : Phase}

theorem start : Opening.start.Follows [] [] .cached where
  handed := rfl
  reactions := rfl
  gone := nofun
  calls := ⟨rfl, rfl, nofun⟩

theorem awaitUser (h : o.Follows served waiting .cached) (user : ℕ) :
    (o.awaitUser user).Follows served (waiting ++ [user]) .cached where
  handed := by rw [Opening.awaitUser, h.handed, List.append_assoc]
  reactions := by simp [Opening.awaitUser, h.reactions, Phase.reactions]
  gone := nofun
  calls := h.calls

theorem awaitCloser (h : o.Follows served waiting .cached) :
    o.awaitCloser.Follows served waiting .closing where
  handed := h.handed
  reactions := by simp [Opening.awaitCloser, h.reactions, Phase.reactions]
  gone := nofun
  calls := by
    have hcalls := h.calls
    rw [HasCalled] at hcalls ⊢
    rw [Opening.awaitCloser]
    -- as long as nobody has closed, the phases ask for the same calls
    cases hstate : o.state with
    | pending =>
      rw [hstate] at hcalls
      exact ⟨hcalls.1, hcalls.2.1, nofun⟩
    | rejected | resolved =>
      rw [hstate] at hcalls
      exact hcalls

theorem settle (h : o.Follows served waiting phase) (hstate : o.state = .pending)
    (result : OpenResult) : (o.settle result).Follows served waiting phase := by
  obtain ⟨hcalls, rfl, hphase⟩ : o.calls = [] ∧ served = [] ∧ phase ≠ .gone := by
    have hcalls := h.calls
    rwa [HasCalled, hstate] at hcalls
  have hends : phase.Ends [] := by
    cases phase with
    | cached | closing => rfl
    | gone => exact absurd rfl hphase
  cases result with
  | unopened => exact ⟨h.handed, h.reactions, h.gone, .inl hcalls⟩
  | initializeThrew => exact ⟨h.handed, h.reactions, h.gone, .inr (by simp [Opening.settle, hcalls])⟩
  | initialized =>
    exact ⟨h.handed, h.reactions, h.gone, [], by simp [Opening.settle, hcalls], hends⟩

/-- Who goes on is the next of those who wait, or the one who closes if nobody waits. -/
theorem resume (h : o.Follows served waiting phase) {threw : Bool}
    (hresume : o.resume threw = some o') : ∃ served' waiting' phase',
      o'.Follows served' waiting' phase' ∧ (phase' = .cached ↔ phase = .cached) := by
  have hcalls := h.calls
  rw [HasCalled] at hcalls
  cases waiting with
  | nil =>
    have hreactions : o.reactions = phase.reactions := h.reactions
    rw [Opening.resume, hreactions] at hresume
    cases phase with
    | cached | gone => cases hresume
    | closing =>
      refine ⟨served, [], .gone, ?_, by simp⟩
      cases hstate : o.state with
      | pending => simp [hstate, Phase.reactions] at hresume
      | rejected =>
        rw [hstate] at hcalls hresume
        obtain rfl := Option.some.inj hresume
        exact ⟨h.handed, rfl, fun _ => rfl, by simpa only [HasCalled, hstate] using hcalls⟩
      | resolved =>
        rw [hstate] at hcalls hresume
        obtain ⟨_, hcalls, rfl⟩ := hcalls
        cases threw with
        | false | true =>
          obtain rfl := Option.some.inj hresume
          exact ⟨h.handed, rfl, fun _ => rfl, by simp [HasCalled, hcalls, Phase.Ends]⟩
  | cons user waiting =>
    have hphase : phase ≠ .gone := fun heq => nomatch h.gone heq
    have hreactions : o.reactions = .user user :: (waiting.map .user ++ phase.reactions) :=
      h.reactions
    rw [Opening.resume, hreactions] at hresume
    have hhanded : o.handed = served ++ [user] ++ waiting := by simp [h.handed]
    refine ⟨served ++ [user], waiting, phase, ?_, Iff.rfl⟩
    cases hstate : o.state with
    | pending => simp [hstate] at hresume
    | rejected =>
      rw [hstate] at hcalls hresume
      obtain rfl := Option.some.inj hresume
      exact ⟨hhanded, rfl, (absurd · hphase), by simpa only [HasCalled, hstate] using hcalls⟩
    | resolved =>
      rw [hstate] at hcalls hresume
      obtain ⟨ending, hcalls, hends⟩ := hcalls
      have hnil : ending = [] := by
        cases phase with
        | cached | closing => exact hends
        | gone => exact absurd rfl hphase
      obtain rfl := Option.some.inj hresume
      refine ⟨hhanded, rfl, (absurd · hphase), ?_⟩
      simp only [HasCalled]
      exact ⟨ending, by simp [hcalls, hnil], hends⟩

end Opening.Follows

/-! ## Runs -/

namespace SqliteDbStore

/-- Only the promise that is cached has nobody who will close its handle. -/
structure Tidy (s : SqliteDbStore) : Prop where
  made : ∀ k, s.dbPromise = some k → k < s.openings.length
  follows : ∀ k o, s.openings[k]? = some o → ∃ served waiting phase,
    o.Follows served waiting phase ∧ (phase = .cached ↔ s.dbPromise = some k)

variable {s s' : SqliteDbStore}

theorem Tidy.empty : Tidy .empty where
  made := nofun
  follows := nofun

theorem Tidy.promise (h : s.Tidy) :
    s.promise.1.Tidy ∧ s.promise.1.dbPromise = some s.promise.2 := by
  rw [SqliteDbStore.promise]
  cases hcached : s.dbPromise with
  | some k => exact ⟨h, hcached⟩
  | none =>
    refine ⟨⟨fun k hk => ?_, fun k o hk => ?_⟩, rfl⟩
    · obtain rfl := Option.some.inj hk
      simp
    · rw [List.getElem?_append] at hk
      split at hk
      · next hlt =>
        obtain ⟨served, waiting, phase, hfollows, hphase⟩ := h.follows k o hk
        refine ⟨served, waiting, phase, hfollows, ?_⟩
        rw [hphase, hcached, Option.some.injEq]
        exact iff_of_false nofun hlt.ne'
      · next hge =>
        obtain ⟨hlt, rfl⟩ := List.getElem?_eq_some_iff.1 hk
        obtain rfl : k = s.openings.length := by
          rw [List.length_singleton] at hlt
          omega
        exact ⟨[], [], .cached, by simpa using Opening.Follows.start, by simp⟩

/-- A change of one opening that keeps its phase. -/
theorem Tidy.modify (h : s.Tidy) {k : ℕ} {f : Opening → Opening} {cached : Option ℕ}
    (hmade : ∀ k, cached = some k → k < s.openings.length)
    (hcached : ∀ j, j ≠ k → (s.dbPromise = some j ↔ cached = some j))
    (hf : ∀ o served waiting phase, s.openings[k]? = some o → o.Follows served waiting phase →
      (phase = .cached ↔ s.dbPromise = some k) → ∃ served' waiting' phase',
        (f o).Follows served' waiting' phase' ∧ (phase' = .cached ↔ cached = some k)) :
    { s.modify k f with dbPromise := cached }.Tidy where
  made j hj := by
    rw [SqliteDbStore.modify, List.length_modify]
    exact hmade j hj
  follows j o hj := by
    rw [SqliteDbStore.modify, List.getElem?_modify] at hj
    obtain ⟨before, hbefore, rfl⟩ := Option.map_eq_some_iff.1 hj
    obtain ⟨served, waiting, phase, hfollows, hphase⟩ := h.follows j before hbefore
    by_cases hjk : k = j
    · subst hjk
      rw [if_pos rfl]
      exact hf before served waiting phase hbefore hfollows hphase
    · rw [if_neg hjk]
      exact ⟨served, waiting, phase, hfollows, hphase.trans (hcached j (Ne.symm hjk))⟩

theorem Tidy.step (h : s.Tidy) (label : Label) (hstep : step label s = some s') : s'.Tidy := by
  cases label with
  | getDb user =>
    obtain ⟨hpromise, hcached⟩ := h.promise
    obtain rfl := Option.some.inj hstep
    refine hpromise.modify hpromise.made (fun _ _ => Iff.rfl) ?_
    intro o served waiting phase _ hfollows hphase
    obtain rfl := hphase.2 hcached
    exact ⟨served, waiting ++ [user], .cached, hfollows.awaitUser user, hphase⟩
  | close =>
    rw [SqliteDbStore.step] at hstep
    cases hcached : s.dbPromise with
    | none =>
      rw [hcached] at hstep
      obtain rfl := Option.some.inj hstep
      exact h
    | some k =>
      rw [hcached] at hstep
      obtain rfl := Option.some.inj hstep
      refine h.modify nofun (fun j hj => ?_) ?_
      · rw [hcached, Option.some.injEq]
        exact iff_of_false hj.symm nofun
      · intro o served waiting phase _ hfollows hphase
        obtain rfl := hphase.2 hcached
        exact ⟨served, waiting, .closing, hfollows.awaitCloser, by simp⟩
  | opened k result =>
    rw [SqliteDbStore.step] at hstep
    cases hk : s.openings[k]? with
    | none => simp [hk] at hstep
    | some o =>
      rw [hk] at hstep
      simp only at hstep
      split at hstep
      · next hstate =>
        obtain rfl := Option.some.inj hstep
        refine h.modify h.made (fun _ _ => Iff.rfl) ?_
        intro o' served waiting phase ho' hfollows hphase
        obtain rfl := Option.some.inj (hk.symm.trans ho')
        exact ⟨served, waiting, phase, hfollows.settle hstate result, hphase⟩
      · cases hstep
  | resume k threw =>
    rw [SqliteDbStore.step] at hstep
    cases hk : s.openings[k]? with
    | none => simp [hk] at hstep
    | some o =>
      rw [hk] at hstep
      obtain ⟨o', hresume, rfl⟩ := Option.map_eq_some_iff.1 hstep
      refine h.modify h.made (fun _ _ => Iff.rfl) ?_
      intro before served waiting phase hbefore hfollows hphase
      obtain rfl := Option.some.inj (hk.symm.trans hbefore)
      obtain ⟨served', waiting', phase', hfollows', hphase'⟩ := hfollows.resume hresume
      exact ⟨served', waiting', phase', hfollows', hphase'.trans hphase⟩

theorem tidy_exec {labels : List Label} (h : Runs.exec step labels .empty = some s) : s.Tidy :=
  Runs.exec_preserves (fun label _ _ hs hstep => hs.step label hstep) .empty h

end SqliteDbStore

def HandleCall.user? : HandleCall → Option ℕ
  | .use name => some name
  | _ => none

def Reaction.user? : Reaction → Option ℕ
  | .user name => some name
  | .closer => none

theorem filterMap_use (served : List ℕ) :
    (served.map HandleCall.use).filterMap HandleCall.user? = served := by
  rw [List.filterMap_map]
  exact List.filterMap_some

theorem filterMap_user (waiting : List ℕ) :
    (waiting.map Reaction.user).filterMap Reaction.user? = waiting := by
  rw [List.filterMap_map]
  exact List.filterMap_some

namespace Opening.Follows

variable {o : Opening} {served waiting : List ℕ} {phase : Phase}

theorem pairwise_calls (h : o.Follows served waiting phase) :
    o.calls.Pairwise fun earlier _ => earlier ≠ .close := by
  have hcalls := h.calls
  rw [HasCalled] at hcalls
  cases hstate : o.state with
  | pending =>
    rw [hstate] at hcalls
    rw [hcalls.1]
    exact .nil
  | rejected =>
    rw [hstate] at hcalls
    rcases hcalls with hcalls | hcalls <;> simp [hcalls]
  | resolved =>
    rw [hstate] at hcalls
    obtain ⟨ending, hcalls, hends⟩ := hcalls
    have hending : ending.Pairwise fun earlier _ => earlier ≠ .close := by
      cases phase with
      | cached | closing =>
        obtain rfl : ending = [] := hends
        exact .nil
      | gone => rcases hends with rfl | rfl <;> simp
    rw [hcalls, List.pairwise_cons, List.pairwise_append]
    refine ⟨fun _ _ => nofun, ?_, hending, ?_⟩
    · rw [List.pairwise_map]
      exact List.pairwise_of_forall fun _ _ => nofun
    · rintro _ hcall _ _ rfl
      obtain ⟨_, _, heq⟩ := List.mem_map.1 hcall
      cases heq

theorem handed_eq (h : o.Follows served waiting phase) (hstate : o.state = .resolved) :
    o.handed = o.calls.filterMap HandleCall.user? ++ o.reactions.filterMap Reaction.user? := by
  obtain ⟨ending, hcalls, hends⟩ :
      ∃ ending, o.calls = .initializeDb :: (served.map .use ++ ending) ∧ phase.Ends ending := by
    have hcalls := h.calls
    rwa [HasCalled, hstate] at hcalls
  have hending : ending.filterMap HandleCall.user? = [] := by
    cases phase with
    | cached | closing =>
      obtain rfl : ending = [] := hends
      rfl
    | gone => rcases hends with rfl | rfl <;> rfl
  have hcalled : o.calls.filterMap HandleCall.user? = served := by
    have hcons : o.calls.filterMap HandleCall.user? =
        (served.map HandleCall.use ++ ending).filterMap HandleCall.user? := by rw [hcalls]; rfl
    rw [hcons, List.filterMap_append, filterMap_use, hending, List.append_nil]
  have hawaited : o.reactions.filterMap Reaction.user? = waiting := by
    have hrest : phase.reactions.filterMap Reaction.user? = [] := by cases phase <;> rfl
    rw [h.reactions, List.filterMap_append, filterMap_user, hrest, List.append_nil]
  rw [hcalled, hawaited, h.handed]

theorem released (h : o.Follows served waiting phase) (hmade : .initializeDb ∈ o.calls) :
    .close ∈ o.calls ∨ .beforeClose true ∈ o.calls ∨ phase = .cached ∨ .closer ∈ o.reactions := by
  have hcalls := h.calls
  rw [HasCalled] at hcalls
  cases phase with
  | cached => exact .inr (.inr (.inl rfl))
  | closing => exact .inr (.inr (.inr (by simp [h.reactions, Phase.reactions])))
  | gone =>
    cases hstate : o.state with
    | pending =>
      rw [hstate] at hcalls
      exact absurd rfl hcalls.2.2
    | rejected =>
      rw [hstate] at hcalls
      rcases hcalls with hcalls | hcalls
      · simp [hcalls] at hmade
      · exact .inl (by simp [hcalls])
    | resolved =>
      rw [hstate] at hcalls
      obtain ⟨ending, hcalls, rfl | rfl⟩ := hcalls
      · exact .inr (.inl (by simp [hcalls]))
      · exact .inl (by simp [hcalls])

end Opening.Follows

/-- In any order of calls and settlements: nothing is asked of a handle after it was closed, those
who were handed its promise use it once each and in their order, and a handle that was not closed is
cached, is about to be closed, or was kept open by a `beforeClose` that threw. -/
theorem sqliteDbStore_lifecycle {labels : List SqliteDbStore.Label} {s : SqliteDbStore} {k : ℕ}
    {o : Opening} (hrun : Runs.exec SqliteDbStore.step labels .empty = some s)
    (hk : s.openings[k]? = some o) :
    (o.calls.Pairwise fun earlier _ => earlier ≠ .close) ∧
      (o.state = .resolved → o.handed =
        o.calls.filterMap HandleCall.user? ++ o.reactions.filterMap Reaction.user?) ∧
      (.initializeDb ∈ o.calls → .close ∈ o.calls ∨ .beforeClose true ∈ o.calls ∨
        s.dbPromise = some k ∨ .closer ∈ o.reactions) := by
  obtain ⟨served, waiting, phase, hfollows, hphase⟩ :=
    (SqliteDbStore.tidy_exec hrun).follows k o hk
  refine ⟨hfollows.pairwise_calls, hfollows.handed_eq, fun hmade => ?_⟩
  rw [← hphase]
  exact hfollows.released hmade

/-- Both users go on after `close` was called, and before the handle is closed. -/
theorem sqliteDbStore_lifecycle_overtaken :
    (([.initializeDb, .use 1, .use 2, .beforeClose false, .close] : List HandleCall).Pairwise
      fun earlier _ => earlier ≠ .close) ∧
    (PromiseState.resolved = .resolved → [1, 2] =
      ([.initializeDb, .use 1, .use 2, .beforeClose false, .close] : List HandleCall).filterMap
        HandleCall.user? ++ ([] : List Reaction).filterMap Reaction.user?) := by
  have hrun : Runs.exec SqliteDbStore.step
      [.getDb 1, .getDb 2, .opened 0 .initialized, .close, .resume 0 false, .resume 0 false,
        .resume 0 false] .empty =
      some ⟨[⟨.resolved, [], [.initializeDb, .use 1, .use 2, .beforeClose false, .close], [1, 2]⟩],
        none⟩ := by decide +kernel
  have hlifecycle := sqliteDbStore_lifecycle (k := 0) hrun rfl
  exact ⟨hlifecycle.1, hlifecycle.2.1⟩

end Maximal.Platform
