import Maximal.Lib.Runs
import Mathlib.Algebra.Order.Floor.Semiring
import Mathlib.Data.Rat.Floor
import Mathlib.Tactic.Linarith

/-!
# Polling for the token of a device code

The loop sleeps, sends a request and reads the answer, until a token comes, the server refuses, the
code expires, the transport fails for good or the flow is aborted. Times are in milliseconds and
intervals in seconds; `abort` is the time at which the signal aborts.

## Main definitions

- `interpretPollBody`
- `Loop.round`, `Loop.run`, `pollAccessToken` — the loop, with what it meets in each round
- `Obeys` — it ends, keeps the intervals the server asks for and is silent after an abort
- `AsksEnough` — a fresh interval is not just above the one in force

## Main results

- `pollAccessToken_obeys_iff`
-/

namespace Maximal.Github

open Runs

/-! ## Answers -/

def SLOW_DOWN_BUMP_SECONDS : ℚ := 5

def MAX_CONSECUTIVE_TRANSPORT_ERRORS : ℕ := 12

/-- What is read of the answer to a poll. -/
structure PollResponseBody where
  access_token : Option String := none
  refresh_token : Option String := none
  expires_in : Option ℚ := none
  refresh_token_expires_in : Option ℚ := none
  error : Option String := none
  error_description : Option String := none
  interval : Option ℚ := none
  deriving DecidableEq

structure DeviceTokenResult where
  accessToken : String
  refreshToken : Option String
  accessTokenExpiresAt : Option ℚ
  refreshTokenExpiresAt : Option ℚ
  deriving DecidableEq

def toDeviceTokenResult (body : PollResponseBody) (nowMs : ℚ) : DeviceTokenResult where
  accessToken := body.access_token.getD ""
  refreshToken := body.refresh_token
  accessTokenExpiresAt := body.expires_in.map fun s => nowMs + s * 1000
  refreshTokenExpiresAt := body.refresh_token_expires_in.map fun s => nowMs + s * 1000

inductive PollOutcome where
  | token (result : DeviceTokenResult)
  | retry (nextInterval : Option ℚ)

/-- The interval after a `slow_down`. -/
def slowDown (fresh : Option ℚ) (intervalSeconds : ℚ) : ℚ :=
  match fresh with
  | some interval =>
    if intervalSeconds < interval then interval + 1 else intervalSeconds + SLOW_DOWN_BUMP_SECONDS
  | none => intervalSeconds + SLOW_DOWN_BUMP_SECONDS

def pollFailure (error : String) (description : Option String) : String :=
  "Device-code poll failed: " ++ error ++
    (match description with
      | some description => if description = "" then "" else " — " ++ description
      | none => "")

def interpretPollBody (body : PollResponseBody) (intervalSeconds nowMs : ℚ) :
    Except String PollOutcome :=
  if body.access_token.getD "" ≠ "" then .ok (.token (toDeviceTokenResult body nowMs))
  else
    match body.error with
    | none => .ok (.retry none)
    | some error =>
      if error = "authorization_pending" then .ok (.retry none)
      else if error = "slow_down" then .ok (.retry (some (slowDown body.interval intervalSeconds)))
      else if error = "expired_token" then
        .error "Device code expired before authorization. Re-run setup."
      else if error = "access_denied" then .error "Authorization denied by the user."
      else .error (pollFailure error body.error_description)

/-! ## Loop -/

/-- A device code; the schema of the response lets no other numbers through. -/
structure DeviceCode where
  interval : ℚ
  expires_in : ℚ
  interval_nonneg : 0 ≤ interval
  expires_in_nonneg : 0 ≤ expires_in

inductive Polled where
  | failed
  /-- No JSON, or not of the shape of an answer. -/
  | unparseable
  | body (body : PollResponseBody)

/-- What the loop meets in a round: how late the timer fires, how long the request takes and how
it comes out. -/
structure Round where
  late : ℚ
  took : ℚ
  polled : Polled
  late_nonneg : 0 ≤ late
  took_nonneg : 0 ≤ took

inductive Ending where
  | token (result : DeviceTokenResult)
  | aborted
  | failed (message : String)
  deriving DecidableEq

inductive Event where
  | sent (time : ℚ)
  | slowedDown (before : ℚ) (fresh : Option ℚ) (after : ℚ)
  deriving DecidableEq

/-- The variables of the loop, at its head. -/
structure Loop where
  now : ℚ
  intervalSeconds : ℚ
  deadlineMs : ℚ
  consecutiveTransportErrors : ℕ

def isAborted (abort : Option ℚ) (now : ℚ) : Bool := abort.any (· ≤ now)

namespace Loop

variable (abort : Option ℚ)

/-- Up to the request: the time at which it is sent. A sleep that the abort cuts short sends none. -/
def sendsAt (r : Round) (s : Loop) : Except Ending ℚ :=
  if isAborted abort s.now then .error .aborted
  else if s.deadlineMs ≤ s.now then .error (.failed "expired_token")
  else
    let wake := s.now + s.intervalSeconds * 1000 + r.late
    if isAborted abort wake then .error .aborted else .ok wake

/-- From the answer to the head of the loop. -/
def answer (answered : ℚ) (s : Loop) : Polled → List Event × (Ending ⊕ Loop)
  | .failed =>
    let consecutiveTransportErrors := s.consecutiveTransportErrors + 1
    if isAborted abort answered then ([], .inl .aborted)
    else if MAX_CONSECUTIVE_TRANSPORT_ERRORS ≤ consecutiveTransportErrors then
      ([], .inl (.failed ("Device-code poll: network unreachable after repeated attempts. " ++
        "Check your connection and re-run setup.")))
    else ([], .inr { s with now := answered, consecutiveTransportErrors })
  | .unparseable => ([], .inr { s with now := answered, consecutiveTransportErrors := 0 })
  | .body body =>
    let s := { s with now := answered, consecutiveTransportErrors := 0 }
    match interpretPollBody body s.intervalSeconds answered with
    | .error message => ([], .inl (.failed message))
    | .ok (.token result) => ([], .inl (.token result))
    | .ok (.retry none) => ([], .inr s)
    | .ok (.retry (some nextInterval)) =>
      ([.slowedDown s.intervalSeconds body.interval nextInterval],
        .inr { s with intervalSeconds := nextInterval })

def round (r : Round) (s : Loop) : List Event × (Ending ⊕ Loop) :=
  match s.sendsAt abort r with
  | .error ending => ([], .inl ending)
  | .ok wake =>
    let (events, next) := s.answer abort (wake + r.took) r.polled
    (.sent wake :: events, next)

/-- The loop over the rounds that are given; it goes on if they are used up. -/
def run : List Round → Loop → List Event × Option Ending
  | [], _ => ([], none)
  | r :: rs, s =>
    match s.round abort r with
    | (events, .inl ending) => (events, some ending)
    | (events, .inr s) =>
      let (events', ending) := run rs s
      (events ++ events', ending)

/-- The loop at its beginning. -/
def start (deviceCode : DeviceCode) (now : ℚ) : Loop where
  now := now
  -- a second more, for clocks that differ
  intervalSeconds := deviceCode.interval + 1
  deadlineMs := now + deviceCode.expires_in * 1000
  consecutiveTransportErrors := 0

end Loop

/-- Polling from a time on. -/
def pollAccessToken (deviceCode : DeviceCode) (abort : Option ℚ) (now : ℚ) (rounds : List Round) :
    List Event × Option Ending :=
  Loop.run abort rounds (Loop.start deviceCode now)

/-! ## Obedience -/

/-- No poll comes earlier after the last one than the interval that was last required. -/
def Spaced : ℚ → Option ℚ → List Event → Prop
  | _, _, [] => True
  | interval, last, .sent time :: events =>
    (∀ t ∈ last, t + interval * 1000 ≤ time) ∧ Spaced interval (some time) events
  | interval, last, .slowedDown before _ after :: events =>
    before = interval ∧ Spaced after last events

/-- The answer asks for a longer interval. -/
def PollResponseBody.isSlowDown (body : PollResponseBody) : Bool :=
  body.access_token.getD "" = "" && body.error = some "slow_down"

/-- The interval that a `slow_down` of the round sends, if it brings one. -/
def Round.asked (r : Round) : Option (Option ℚ) :=
  match r.polled with
  | .body body => if body.isSlowDown then some body.interval else none
  | _ => none

/-- Every request belongs to the next round, and the interval changes just where the answer is a
`slow_down`. -/
inductive Logged : List Round → List Event → Prop
  | nil (rounds : List Round) : Logged rounds []
  | sent (r : Round) (rounds : List Round) (time : ℚ) (events : List Event) : r.asked = none →
      Logged rounds events → Logged (r :: rounds) (.sent time :: events)
  | slowed (r : Round) (rounds : List Round) (time before after : ℚ) (fresh : Option ℚ)
      (events : List Event) : r.asked = some fresh → Logged rounds events →
      Logged (r :: rounds) (.sent time :: .slowedDown before fresh after :: events)

/-- Polling that ends within its rounds, keeps its distance, follows every `slow_down`, raises the
interval by five seconds and to what the server sends, returns tokens that came and sends nothing
after the abort. -/
structure Obeys (deviceCode : DeviceCode) (abort : Option ℚ) (rounds : List Round)
    (events : List Event) (ending : Option Ending) : Prop where
  ends : ⌈deviceCode.expires_in⌉₊ + 1 ≤ rounds.length → ending.isSome
  logged : Logged rounds events
  spaced : Spaced (deviceCode.interval + 1) none events
  raised : ∀ before fresh after, .slowedDown before fresh after ∈ events →
    before + 5 ≤ after ∧ ∀ interval ∈ fresh, interval ≤ after
  token : ∀ result, ending = some (.token result) →
    ∃ r ∈ rounds, ∃ body token, r.polled = .body body ∧ body.access_token = some token ∧
      token ≠ "" ∧ result.accessToken = token
  silent : ∀ time, .sent time ∈ events → ∀ t ∈ abort, time < t

/-- A `slow_down` that is read in the round sends no interval that is above the one in force and by
less than four seconds. -/
def AsksEnough (abort : Option ℚ) (r : Round) (s : Loop) : Prop :=
  ∀ time body, s.sendsAt abort r = .ok time → r.polled = .body body → body.isSlowDown = true →
    ∀ interval ∈ body.interval,
      interval ≤ s.intervalSeconds ∨ s.intervalSeconds + 4 ≤ interval

/-! ## One round -/

section Rounds

variable {abort : Option ℚ} {r : Round} {s s' : Loop} {events : List Event} {ending : Ending}

/-- What comes after the round, if the loop goes on. -/
def Loop.next (abort : Option ℚ) (r : Round) (s : Loop) : Option Loop :=
  (s.round abort r).2.getRight?

theorem Loop.sendsAt_ok {time : ℚ} (h : s.sendsAt abort r = .ok time) :
    s.now < s.deadlineMs ∧ time = s.now + s.intervalSeconds * 1000 + r.late ∧
      ∀ t ∈ abort, time < t := by
  rw [sendsAt] at h
  split at h
  · cases h
  · split at h
    · cases h
    · next hdeadline =>
      dsimp only at h
      split at h
      · cases h
      · next hawake =>
        obtain rfl := Except.ok.inj h
        refine ⟨not_le.1 hdeadline, rfl, fun t ht => ?_⟩
        rw [Option.mem_def.1 ht, isAborted, Option.any_some, decide_eq_true_iff, not_le] at hawake
        exact hawake

/-- Nothing is sent in a round without its request. -/
theorem Loop.sendsAt_error (h : s.sendsAt abort r = .error ending) :
    ∀ result, ending ≠ .token result := by
  rintro result rfl
  rw [sendsAt] at h
  split at h
  · cases h
  · split at h
    · cases h
    · dsimp only at h
      split at h <;> cases h

/-- What a round can do. -/
inductive Does (abort : Option ℚ) (r : Round) (s : Loop) : List Event → Ending ⊕ Loop → Prop
  | stopped (ending : Ending) : s.sendsAt abort r = .error ending →
      Does abort r s [] (.inl ending)
  | ended (time : ℚ) (ending : Ending) : s.sendsAt abort r = .ok time →
      (∀ result, ending ≠ .token result) →
      (∀ body, r.polled = .body body → body.isSlowDown = false) →
      Does abort r s [.sent time] (.inl ending)
  | token (time : ℚ) (body : PollResponseBody) : s.sendsAt abort r = .ok time →
      r.polled = .body body → body.access_token.getD "" ≠ "" →
      Does abort r s [.sent time] (.inl (.token (toDeviceTokenResult body (time + r.took))))
  | waited (time : ℚ) (errors : ℕ) : s.sendsAt abort r = .ok time →
      (∀ body, r.polled = .body body → body.isSlowDown = false) →
      Does abort r s [.sent time]
        (.inr { s with now := time + r.took, consecutiveTransportErrors := errors })
  | slowed (time : ℚ) (body : PollResponseBody) : s.sendsAt abort r = .ok time →
      r.polled = .body body → body.isSlowDown = true →
      Does abort r s
        [.sent time, .slowedDown s.intervalSeconds body.interval
          (slowDown body.interval s.intervalSeconds)]
        (.inr
          { s with
            now := time + r.took
            intervalSeconds := slowDown body.interval s.intervalSeconds
            consecutiveTransportErrors := 0 })

/-- How an answer is read. -/
inductive Reads (body : PollResponseBody) (interval now : ℚ) : Except String PollOutcome → Prop
  | refused (message : String) : body.isSlowDown = false → Reads body interval now (.error message)
  | token : body.access_token.getD "" ≠ "" →
      Reads body interval now (.ok (.token (toDeviceTokenResult body now)))
  | pending : body.isSlowDown = false → Reads body interval now (.ok (.retry none))
  | slowed : body.isSlowDown = true →
      Reads body interval now (.ok (.retry (some (slowDown body.interval interval))))

theorem interpretPollBody_reads (body : PollResponseBody) (interval now : ℚ) :
    Reads body interval now (interpretPollBody body interval now) := by
  rw [interpretPollBody]
  by_cases htoken : body.access_token.getD "" = ""
  · have hslow : body.isSlowDown = decide (body.error = some "slow_down") := by
      rw [PollResponseBody.isSlowDown, htoken]
      rfl
    have hnot : body.error ≠ some "slow_down" → body.isSlowDown = false := fun hne =>
      hslow.trans (decide_eq_false hne)
    rw [if_neg (not_not.2 htoken)]
    cases herror : body.error with
    | none =>
      refine .pending (hnot ?_)
      rw [herror]
      exact (Option.some_ne_none _).symm
    | some error =>
      rw [herror] at hnot hslow
      have hother : error ≠ "slow_down" → body.isSlowDown = false := fun hne =>
        hnot fun hsome => hne (Option.some.inj hsome)
      dsimp only
      by_cases hpending : error = "authorization_pending"
      · rw [if_pos hpending]
        exact .pending (hother (hpending ▸ by decide))
      · rw [if_neg hpending]
        by_cases hslowed : error = "slow_down"
        · rw [if_pos hslowed]
          exact .slowed (hslow.trans (decide_eq_true (congrArg some hslowed)))
        · rw [if_neg hslowed]
          split
          · exact .refused _ (hother hslowed)
          · split
            · exact .refused _ (hother hslowed)
            · exact .refused _ (hother hslowed)
  · rw [if_pos htoken]
    exact .token htoken

theorem Loop.round_does (abort : Option ℚ) (r : Round) (s : Loop) :
    Does abort r s (s.round abort r).1 (s.round abort r).2 := by
  rw [round]
  cases hsend : s.sendsAt abort r with
  | error ending => exact .stopped ending hsend
  | ok time =>
    dsimp only
    cases hpolled : r.polled with
    | failed =>
      have hnone : ∀ body, r.polled = .body body → body.isSlowDown = false := fun body hbody => by
        rw [hpolled] at hbody
        cases hbody
      rw [answer]
      split
      · exact .ended time _ hsend nofun hnone
      · split
        · exact .ended time _ hsend nofun hnone
        · exact .waited time _ hsend hnone
    | unparseable =>
      refine .waited time 0 hsend fun body hbody => ?_
      rw [hpolled] at hbody
      cases hbody
    | body body =>
      have hbody : ∀ body', r.polled = .body body' → body' = body := fun body' hbody' =>
        Polled.body.inj (hbody'.symm.trans hpolled)
      have hreads := interpretPollBody_reads body s.intervalSeconds (time + r.took)
      rw [answer]
      dsimp only
      generalize interpretPollBody body s.intervalSeconds (time + r.took) = read at hreads ⊢
      cases hreads with
      | refused message hslow =>
        exact .ended time _ hsend nofun fun body' hbody' => hbody body' hbody' ▸ hslow
      | token htoken => exact .token time body hsend hpolled htoken
      | pending hslow => exact .waited time 0 hsend fun body' hbody' => hbody body' hbody' ▸ hslow
      | slowed hslow => exact .slowed time body hsend hpolled hslow

/-- The interval is raised as it should be if and only if the fresh one is not just above it. -/
theorem slowDown_raises_iff (fresh : Option ℚ) (interval : ℚ) :
    (interval + 5 ≤ slowDown fresh interval ∧ ∀ f ∈ fresh, f ≤ slowDown fresh interval) ↔
      ∀ f ∈ fresh, f ≤ interval ∨ interval + 4 ≤ f := by
  cases fresh with
  | none => exact iff_of_true ⟨le_rfl, fun _ hf => nomatch hf⟩ fun _ hf => nomatch hf
  | some f =>
    simp only [Option.mem_def, Option.some.injEq, forall_eq']
    by_cases hf : interval < f
    · have hslow : slowDown (some f) interval = f + 1 := if_pos hf
      rw [hslow]
      constructor
      · rintro ⟨hraised, -⟩
        right
        linarith
      · rintro (hle | hge)
        · exact absurd hf (not_lt.2 hle)
        · exact ⟨by linarith, by linarith⟩
    · have hslow : slowDown (some f) interval = interval + 5 := if_neg hf
      have hle : f ≤ interval := not_lt.1 hf
      rw [hslow]
      exact iff_of_true ⟨le_rfl, by linarith⟩ (.inl hle)

theorem lt_slowDown (fresh : Option ℚ) (interval : ℚ) : interval < slowDown fresh interval := by
  cases fresh with
  | none => exact lt_add_of_pos_right _ (by decide)
  | some f =>
    rw [slowDown]
    split
    · next hf => linarith
    · exact lt_add_of_pos_right _ (by decide)

/-- A round that goes on takes its interval, and it began before the deadline. -/
theorem Does.goes_on (h : Does abort r s events (.inr s')) :
    s.now < s.deadlineMs ∧ s.now + s.intervalSeconds * 1000 ≤ s'.now ∧
      s.intervalSeconds ≤ s'.intervalSeconds ∧ s'.deadlineMs = s.deadlineMs := by
  have hlate := r.late_nonneg
  have htook := r.took_nonneg
  cases h with
  | waited time errors hsend =>
    obtain ⟨hdeadline, rfl, -⟩ := Loop.sendsAt_ok hsend
    refine ⟨hdeadline, ?_, le_rfl, rfl⟩
    dsimp only
    linarith
  | slowed time body hsend =>
    obtain ⟨hdeadline, rfl, -⟩ := Loop.sendsAt_ok hsend
    refine ⟨hdeadline, ?_, (lt_slowDown _ _).le, rfl⟩
    dsimp only
    linarith

end Rounds

/-! ## Runs -/

section Runs

variable {abort : Option ℚ} {s : Loop} {rounds : List Round}

/-- The first round is the last, or the loop goes on behind it. -/
theorem Loop.run_cons (abort : Option ℚ) (r : Round) (rs : List Round) (s : Loop) :
    (∃ events ending, Does abort r s events (.inl ending) ∧
      Loop.run abort (r :: rs) s = (events, some ending) ∧ s.next abort r = none) ∨
    ∃ events s', Does abort r s events (.inr s') ∧
      Loop.run abort (r :: rs) s =
        (events ++ (Loop.run abort rs s').1, (Loop.run abort rs s').2) ∧
      s.next abort r = some s' := by
  have hdoes := s.round_does abort r
  rw [Loop.run, Loop.next]
  generalize s.round abort r = result at hdoes
  obtain ⟨events, ending | s'⟩ := result
  · exact .inl ⟨events, ending, hdoes, rfl, rfl⟩
  · exact .inr ⟨events, s', hdoes, rfl, rfl⟩

/-- The rounds that are used up began before the deadline, each an interval after the last. -/
theorem Loop.run_deadline (hinterval : 1 ≤ s.intervalSeconds) (hne : rounds ≠ [])
    (h : (Loop.run abort rounds s).2 = none) :
    s.now + (rounds.length - 1 : ℕ) * 1000 < s.deadlineMs := by
  induction rounds generalizing s with
  | nil => exact absurd rfl hne
  | cons r rs ih =>
    obtain ⟨events, ending, -, hrun, -⟩ | ⟨events, s', hdoes, hrun, -⟩ := s.run_cons abort r rs
    · rw [hrun] at h
      cases h
    · rw [hrun] at h
      -- each round takes an interval of a second at least, and the deadline does not move
      obtain ⟨hdeadline, hnow, hkept, heq⟩ := hdoes.goes_on
      cases rs with
      | nil => simpa using hdeadline
      | cons r' rs =>
        have hrest := ih (hinterval.trans hkept) (List.cons_ne_nil r' rs) h
        rw [heq] at hrest
        simp only [List.length_cons, Nat.add_sub_cancel, Nat.cast_add, Nat.cast_one] at hrest ⊢
        linarith

/-- What holds of the events of every round holds of those of a run. -/
theorem Loop.run_events {p : Event → Prop}
    (hround : ∀ r s events next, Does abort r s events next → ∀ e ∈ events, p e) :
    ∀ e ∈ (Loop.run abort rounds s).1, p e := by
  induction rounds generalizing s with
  | nil => exact fun _ he => absurd he List.not_mem_nil
  | cons r rs ih =>
    intro e he
    obtain ⟨events, ending, hdoes, hrun, -⟩ | ⟨events, s', hdoes, hrun, -⟩ := s.run_cons abort r rs
    · rw [hrun] at he
      exact hround _ _ _ _ hdoes e he
    · rw [hrun] at he
      obtain he | he := List.mem_append.1 he
      · exact hround _ _ _ _ hdoes e he
      · exact ih e he

theorem Does.silent {r : Round} {events : List Event} {next : Ending ⊕ Loop}
    (h : Does abort r s events next) (e : Event) (he : e ∈ events) :
    ∀ time, e = .sent time → ∀ t ∈ abort, time < t := by
  rintro time rfl
  have hsent : ∀ time', s.sendsAt abort r = .ok time' → ∀ t ∈ abort, time' < t := fun _ hsend =>
    (Loop.sendsAt_ok hsend).2.2
  cases h with
  | stopped => cases he
  | ended time' ending hsend | token time' body hsend | waited time' errors hsend =>
    obtain rfl := Event.sent.inj (List.mem_singleton.1 he)
    exact hsent _ hsend
  | slowed time' body hsend =>
    obtain heq | he := List.mem_cons.1 he
    · obtain rfl := Event.sent.inj heq
      exact hsent _ hsend
    · cases List.mem_singleton.1 he

theorem Loop.run_spaced {last : Option ℚ} (hlast : ∀ t ∈ last, t ≤ s.now) :
    Spaced s.intervalSeconds last (Loop.run abort rounds s).1 := by
  have hspaced : ∀ {r : Round} {s : Loop} {last : Option ℚ}, (∀ t ∈ last, t ≤ s.now) →
      ∀ time, s.sendsAt abort r = .ok time →
      (∀ t ∈ last, t + s.intervalSeconds * 1000 ≤ time) := by
    intro r s last hlast time hsend t ht
    obtain ⟨-, rfl, -⟩ := Loop.sendsAt_ok hsend
    have := hlast t ht
    have := r.late_nonneg
    linarith
  induction rounds generalizing s last with
  | nil => trivial
  | cons r rs ih =>
    obtain ⟨events, ending, hdoes, hrun, -⟩ | ⟨events, s', hdoes, hrun, -⟩ := s.run_cons abort r rs
    · rw [hrun]
      cases hdoes with
      | stopped => trivial
      | ended time _ hsend | token time _ hsend => exact ⟨hspaced hlast time hsend, trivial⟩
    · have hkept : ∀ time, ∀ t ∈ some time, t ≤ time + r.took := by
        intro time t ht
        rw [← Option.some.inj ht]
        linarith [r.took_nonneg]
      rw [hrun]
      cases hdoes with
      | waited time errors hsend =>
        let s' := { s with now := time + r.took, consecutiveTransportErrors := errors }
        exact ⟨hspaced hlast time hsend, ih (s := s') (hkept time)⟩
      | slowed time body hsend =>
        let s' : Loop :=
          { now := time + r.took
            intervalSeconds := slowDown body.interval s.intervalSeconds
            deadlineMs := s.deadlineMs
            consecutiveTransportErrors := 0 }
        exact ⟨hspaced hlast time hsend, rfl, ih (s := s') (hkept time)⟩

theorem Round.asked_eq_none {r : Round}
    (h : ∀ body, r.polled = .body body → body.isSlowDown = false) : r.asked = none := by
  rw [asked]
  split
  · next body hpolled => rw [h body hpolled]; rfl
  · rfl

theorem Does.logged {r : Round} {events more : List Event} {next : Ending ⊕ Loop}
    (h : Does abort r s events next) (hrest : Logged rounds more)
    (hnil : events = [] → more = []) : Logged (r :: rounds) (events ++ more) := by
  cases h with
  | stopped =>
    rw [hnil rfl]
    exact .nil _
  | ended time _ _ _ hnot | waited time _ _ hnot =>
    exact .sent r rounds time more (Round.asked_eq_none hnot) hrest
  | token time body _ hpolled htoken =>
    refine .sent r rounds time more (Round.asked_eq_none fun body' hbody' => ?_) hrest
    rw [Polled.body.inj (hbody'.symm.trans hpolled), PollResponseBody.isSlowDown,
      decide_eq_false htoken, Bool.false_and]
  | slowed time body _ hpolled hslow =>
    refine .slowed r rounds time _ _ _ more ?_ hrest
    rw [Round.asked, hpolled]
    exact if_pos hslow

theorem Loop.run_logged : Logged rounds (Loop.run abort rounds s).1 := by
  induction rounds generalizing s with
  | nil => exact .nil _
  | cons r rs ih =>
    obtain ⟨events, ending, hdoes, hrun, -⟩ | ⟨events, s', hdoes, hrun, -⟩ := s.run_cons abort r rs
    · rw [hrun, ← List.append_nil events]
      exact hdoes.logged (.nil rs) fun _ => rfl
    · rw [hrun]
      refine hdoes.logged ih fun hnil => ?_
      -- a round that goes on has sent its request
      cases hdoes <;> cases hnil

theorem Loop.run_token {result : DeviceTokenResult}
    (h : (Loop.run abort rounds s).2 = some (.token result)) :
    ∃ r ∈ rounds, ∃ body token, r.polled = .body body ∧ body.access_token = some token ∧
      token ≠ "" ∧ result.accessToken = token := by
  induction rounds generalizing s with
  | nil => cases h
  | cons r rs ih =>
    obtain ⟨events, ending, hdoes, hrun, -⟩ | ⟨events, s', hdoes, hrun, -⟩ := s.run_cons abort r rs
    · rw [hrun] at h
      have hending : ending = .token result := Option.some.inj h
      cases hdoes with
      | stopped _ hsend => exact absurd hending (Loop.sendsAt_error hsend result)
      | ended _ _ _ hother => exact absurd hending (hother result)
      | token time body hsend hpolled htoken =>
        rw [← Ending.token.inj hending]
        cases haccess : body.access_token with
        | none => exact absurd (by rw [haccess]; rfl) htoken
        | some token =>
          rw [haccess] at htoken
          exact ⟨r, List.mem_cons_self, body, token, hpolled, haccess, htoken,
            by rw [toDeviceTokenResult, haccess]; rfl⟩
    · rw [hrun] at h
      obtain ⟨r', hr', hrest⟩ := ih h
      exact ⟨r', List.mem_cons_of_mem r hr', hrest⟩

/-- The interval is raised as it should be. -/
def Raised : Event → Prop
  | .sent _ => True
  | .slowedDown before fresh after => before + 5 ≤ after ∧ ∀ interval ∈ fresh, interval ≤ after

theorem Does.raised_iff {r : Round} {events : List Event} {next : Ending ⊕ Loop}
    (h : Does abort r s events next) : (∀ e ∈ events, Raised e) ↔ AsksEnough abort r s := by
  have hother : (∀ body, r.polled = .body body → body.isSlowDown = false) →
      AsksEnough abort r s := fun hnot _ body _ hpolled hslow =>
    absurd hslow (Bool.eq_false_iff.1 (hnot body hpolled))
  have hsent : ∀ time, ∀ e ∈ [Event.sent time], Raised e := fun time e he => by
    rw [List.mem_singleton.1 he]
    trivial
  cases h with
  | stopped ending hsend =>
    refine iff_of_true (fun _ he => absurd he List.not_mem_nil) fun time _ hok => ?_
    rw [hsend] at hok
    cases hok
  | ended time ending hsend _ hnot => exact iff_of_true (hsent time) (hother hnot)
  | waited time errors hsend hnot => exact iff_of_true (hsent time) (hother hnot)
  | token time body hsend hpolled htoken =>
    refine iff_of_true (hsent time) (hother fun body' hbody' => ?_)
    rw [Polled.body.inj (hbody'.symm.trans hpolled), PollResponseBody.isSlowDown,
      decide_eq_false htoken, Bool.false_and]
  | slowed time body hsend hpolled hslow =>
    rw [List.forall_mem_cons, List.forall_mem_singleton]
    refine (and_iff_right trivial).trans ((slowDown_raises_iff _ _).trans ?_)
    -- a round reads one body only
    constructor
    · intro h time' body' _ hbody' _
      rw [Polled.body.inj (hbody'.symm.trans hpolled)]
      exact h
    · intro h
      exact h time body hsend hpolled hslow

theorem Loop.run_raised_iff :
    (∀ e ∈ (Loop.run abort rounds s).1, Raised e) ↔
      Meets (Loop.next abort) (AsksEnough abort) rounds s := by
  induction rounds generalizing s with
  | nil => exact iff_of_true (fun _ he => absurd he List.not_mem_nil) trivial
  | cons r rs ih =>
    obtain ⟨events, ending, hdoes, hrun, hnext⟩ | ⟨events, s', hdoes, hrun, hnext⟩ :=
      s.run_cons abort r rs
    -- behind the last round nothing is asked of the rounds that are left
    · rw [hrun, Meets, hnext, ← hdoes.raised_iff]
      exact ⟨fun h => ⟨h, fun _ hs' => nomatch hs'⟩, And.left⟩
    · rw [hrun, Meets, hnext, ← hdoes.raised_iff, List.forall_mem_append, ih]
      exact and_congr_right fun _ =>
        ⟨fun h _ hs' => Option.some.inj hs' ▸ h, fun h => h s' rfl⟩

end Runs

/-- Polling ends, keeps its distance, returns tokens that came and is silent after an abort. It
raises the interval as it should if and only if no `slow_down` sends a fresh interval just above the
one in force. -/
theorem pollAccessToken_obeys_iff (deviceCode : DeviceCode) (abort : Option ℚ) (now : ℚ)
    (rounds : List Round) :
    Obeys deviceCode abort rounds (pollAccessToken deviceCode abort now rounds).1
        (pollAccessToken deviceCode abort now rounds).2 ↔
      Meets (Loop.next abort) (AsksEnough abort) rounds (Loop.start deviceCode now) := by
  rw [pollAccessToken, ← Loop.run_raised_iff]
  constructor
  · intro h e he
    cases e with
    | sent time => trivial
    | slowedDown before fresh after => exact h.raised before fresh after he
  · intro hraised
    have hspaced : Spaced (Loop.start deviceCode now).intervalSeconds none
        (Loop.run abort rounds (Loop.start deviceCode now)).1 :=
      Loop.run_spaced fun _ ht => nomatch ht
    refine ⟨fun hlength => ?_, Loop.run_logged, hspaced, fun before fresh after => hraised _,
      fun result => Loop.run_token, fun time htime =>
        Loop.run_events (fun _ _ _ _ hdoes => hdoes.silent) _ htime time rfl⟩
    rw [Option.isSome_iff_ne_none]
    intro hnone
    have hinterval : 1 ≤ (Loop.start deviceCode now).intervalSeconds :=
      le_add_of_nonneg_left deviceCode.interval_nonneg
    have hne : rounds ≠ [] := List.ne_nil_of_length_pos (by omega)
    have hdeadline := Loop.run_deadline hinterval hne hnone
    have hceil : (⌈deviceCode.expires_in⌉₊ : ℚ) ≤ (rounds.length - 1 : ℕ) := by
      exact_mod_cast Nat.le_sub_one_of_lt hlength
    have hexpires := Nat.le_ceil deviceCode.expires_in
    simp only [Loop.start] at hdeadline
    linarith

/-- The numbers that GitHub sends. -/
def githubCode : DeviceCode where
  interval := 5
  expires_in := 900
  interval_nonneg := by decide
  expires_in_nonneg := by decide

/-- A first poll that is told to slow down to seven seconds. -/
def slowedRound : Round where
  late := 0
  took := 0
  polled := .body { error := some "slow_down", interval := some 7 }
  late_nonneg := le_rfl
  took_nonneg := le_rfl

/-- Six seconds become eight, not eleven. -/
theorem fresh_interval_just_above :
    (pollAccessToken githubCode none 0 [slowedRound]).1 = [.sent 6000, .slowedDown 6 (some 7) 8] ∧
    ¬Obeys githubCode none [slowedRound] (pollAccessToken githubCode none 0 [slowedRound]).1
      (pollAccessToken githubCode none 0 [slowedRound]).2 := by
  have hevents : (pollAccessToken githubCode none 0 [slowedRound]).1 =
      [.sent 6000, .slowedDown 6 (some 7) 8] := by decide +kernel
  refine ⟨hevents, fun h => ?_⟩
  have hraised := h.raised 6 (some 7) 8 (by rw [hevents]; decide +kernel)
  exact absurd hraised.1 (by decide +kernel)

end Maximal.Github
