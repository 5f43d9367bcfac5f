import Maximal.Lib.Runs
import Maximal.Live.StreamText

/-!
# Reconnecting to the live feed

`connect` asks for a subscription, reads its response, and asks again when it has come to an end.
The blocks of a chunk are taken off one at a time here, so that each has a step of its own.

## Main definitions

- `Connection` — the client, with the responses that are neither finished nor cancelled
- `Connection.step` — what happens to it, one label after the other
- `OneSubscription` — at most one response is left, and none after `close`
- `accepted` — the step does not throw with a response that is being read

## Main results

- `single_step` — a response is left only while it is read
- `oneSubscription_of_run` — there is one subscription while no step throws, and there may be two
  after one does
-/

namespace Maximal.Live

open Js Runs

/-- What a listener does when it is called. -/
structure Call where
  closes : Bool
  throws : Bool

inductive Phase where
  | idle
  | fetching
  /-- A `read` of the response is under way. -/
  | reading (decoder : Utf8.TextDecoder) (buffer : List Char)
  /-- There is a block in the buffer. -/
  | handling (decoder : Utf8.TextDecoder) (buffer : List Char)
  | sleeping
  | returned

/-- The responses are told apart by the abort controllers of their requests. -/
structure Connection where
  client : ControlClient
  closed : Bool
  /-- How many controllers have been made; `abort` is the last of them. -/
  aborts : ℕ
  unended : List ℕ
  backoff : ℕ
  phase : Phase

inductive Label where
  | connect
  /-- There is a response. -/
  | answer (ok body : Bool)
  /-- The reader returns a chunk. -/
  | read (value : List ℕ)
  /-- A block is handled; `calls` is what the listeners do, in order. -/
  | block (calls : List Call)
  | done
  /-- What is under way, the request or a read, is rejected. -/
  | fail
  | wake
  | close

namespace Connection

section Step

-- the delays of the client's options
variable (reconnectMs maxReconnectMs : ℕ)

def start : Connection := ⟨⟨fun _ => none, []⟩, false, 0, [], reconnectMs, .idle⟩

/-- The response of the last controller is cancelled. -/
def close (c : Connection) : Connection :=
  { c with closed := true, unended := c.unended.filter (· ≠ c.aborts) }

/-- The head of the loop in `connect`. -/
def loop (c : Connection) : Connection :=
  if c.closed then { c with phase := .returned }
  else { c with aborts := c.aborts + 1, phase := .fetching }

/-- `streamOnce` has returned, or what it has thrown is caught. -/
def retry (c : Connection) : Connection :=
  { c with phase := if c.closed then .returned else .sleeping }

/-- The head of the loop in `streamOnce`. -/
def readOn (decoder : Utf8.TextDecoder) (buffer : List Char) (c : Connection) : Connection :=
  if c.closed then c.retry else { c with phase := .reading decoder buffer }

/-- The head of the loop over the blocks. -/
def takeBlock (decoder : Utf8.TextDecoder) (buffer : List Char) (c : Connection) : Connection :=
  match Cuts.cut "\n\n".toList buffer with
  | none => readOn decoder buffer c
  | some _ => { c with phase := .handling decoder buffer }

/-- The calls of the listeners, and whether one has thrown. -/
def notify : List Call → Connection → Bool × Connection
  | [], c => (false, c)
  | call :: calls, c =>
    let c := if call.closes then c.close else c
    if call.throws then (true, c) else notify calls c

/-- `handleBlock`, and whether it has thrown. -/
def handle (raw : List Char) (calls : List Call) (c : Connection) : Bool × Connection :=
  match (ControlClient.handleBlock raw).run.run c.client with
  | (.error _, client) => (true, { c with client })
  | (.ok _, client) =>
    notify (if (ControlClient.dataStr raw).isSome then calls else []) { c with client }

/-- The response that is read has come to its end. -/
def finish (c : Connection) : Connection :=
  { c with unended := c.unended.filter (· ≠ c.aborts) }

/-- A response to a request that has been aborted is cancelled already. -/
def opened (body : Bool) (c : Connection) : Connection :=
  if body && !c.closed then { c with unended := c.aborts :: c.unended } else c

def step (l : Label) (c : Connection) : Option Connection :=
  match l, c.phase with
  | .connect, .idle => some c.loop
  | .connect, .returned => some c.loop
  | .answer ok body, .fetching =>
    if ok && body then some ((c.opened body).readOn .start []) else some (c.opened body).retry
  | .read value, .reading decoder buffer =>
    let (decoder, text) := decoder.decode value
    some (c.takeBlock decoder (buffer ++ text))
  | .block calls, .handling decoder buffer =>
    (Cuts.cut "\n\n".toList buffer).map fun (block, rest) =>
      match c.handle block calls with
      | (true, c) => c.retry
      | (false, c) => ({ c with backoff := reconnectMs } : Connection).takeBlock decoder rest
  | .done, .reading _ _ => some c.finish.retry
  | .fail, .reading _ _ => some c.finish.retry
  | .fail, .fetching => some c.retry
  | .wake, .sleeping => some { c with backoff := min (c.backoff * 2) maxReconnectMs }.loop
  -- between the blocks only a listener closes
  | .close, .handling _ _ => none
  | .close, _ => some c.close
  | _, _ => none

end Step

end Connection

open Connection

/-- At most one response is neither finished nor cancelled, and none is once the client has been
closed and `connect` has returned. -/
structure OneSubscription (c : Connection) : Prop where
  one : c.unended.length ≤ 1
  none : c.closed = true → c.phase = .returned → c.unended = []

/-! ## When a step throws -/

/-- `handleBlock` reads the block: it has no data, or a frame, and a snapshot has a payload. -/
def readable (raw : List Char) : Bool :=
  match ControlClient.dataStr raw with
  | none => true
  | some text =>
    match (Json.parse (String.ofList text)).bind frameEnvelopeSchema with
    | none => false
    | some frame =>
      ControlClient.topicOfMethod frame.method ≠ "snapshot" || (frame.params.prop "snapshot").isOk

/-- No listener throws while none has called `close`. -/
def quiet : List Call → Bool
  | [] => true
  | call :: calls => call.closes || !call.throws && quiet calls

/-- The client has been closed, or the step does not throw with a response that is being read:
a response with a body is not refused, a block can be read, and the listeners do not throw. -/
def accepted (l : Label) (c : Connection) : Bool :=
  c.closed ||
    match l, c.phase with
    | .answer ok body, .fetching => ok || !body
    | .block calls, .handling _ buffer =>
      match Cuts.cut "\n\n".toList buffer with
      | none => true
      | some (block, _) =>
        readable block && ((ControlClient.dataStr block).isNone || quiet calls)
    | _, _ => true

theorem run_applyFrame_isOk (topic : ControlTopic) (data : Val) (client : ControlClient) :
    ((ControlClient.applyFrame topic data).run.run client).1.isOk =
      (topic ≠ .snapshot || (data.prop "snapshot").isOk) := by
  cases hstate : Live.applyFrame client.state topic data with
  | ok state =>
    have hrun := ControlClient.run_applyFrame hstate
    rw [hrun]
    cases topic with
    | snapshot =>
      obtain ⟨snapshot, hsnapshot, -⟩ := exists_of_map_eq_ok hstate
      rw [hsnapshot]
      rfl
    | _ => rfl
  | error e =>
    have hrun : ((ControlClient.applyFrame topic data).run.run client).1 = .error .typeError := by
      have hget : (get : ControlClient.Run ControlClient).run.run client = (.ok client, client) :=
        rfl
      rw [ControlClient.applyFrame, ControlClient.run_bind hget, hstate]
      rfl
    rw [hrun]
    cases topic with
    | snapshot =>
      cases hsnapshot : data.prop "snapshot" with
      | error e => rfl
      | ok snapshot =>
        rw [Live.applyFrame, hsnapshot] at hstate
        cases hstate
    | _ => cases hstate

theorem run_handleBlock_isOk (raw : List Char) (client : ControlClient) :
    ((ControlClient.handleBlock raw).run.run client).1.isOk = readable raw := by
  rw [ControlClient.handleBlock, readable]
  cases ControlClient.dataStr raw with
  | none => rfl
  | some text =>
    dsimp only
    cases Json.parse (String.ofList text) with
    | none => rfl
    | some value =>
      rw [Option.bind_some]
      dsimp only
      cases frameEnvelopeSchema value with
      | none => rfl
      | some frame =>
        dsimp only
        cases htopic : CONTROL_TOPICS.find? fun topic =>
            topic.name = ControlClient.topicOfMethod frame.method with
        | none =>
          have hne : ControlClient.topicOfMethod frame.method ≠ "snapshot" := fun heq =>
            List.find?_eq_none.1 htopic .snapshot (by decide) (by rw [heq]; rfl)
          simp only [hne, ne_eq, not_false_eq_true, decide_true, Bool.true_or]
          rfl
        | some topic =>
          have hname : topic.name = ControlClient.topicOfMethod frame.method := by
            simpa using List.find?_some htopic
          dsimp only
          rw [run_applyFrame_isOk, ← hname]
          cases topic <;> rfl

/-! ## The invariant -/

def Phase.reads : Phase → Bool
  | .reading _ _ => true
  | .handling _ _ => true
  | _ => false

/-- Of the responses, the last is left, unless the client has been closed. -/
def Held (c : Connection) : Prop := c.unended = if c.closed then [] else [c.aborts]

/-- A response is left while it is read, and only then. -/
def Single (c : Connection) : Prop :=
  c.unended = if !c.closed && c.phase.reads then [c.aborts] else []

theorem Single.held {c : Connection} (h : Single c) (hreads : c.phase.reads = true) : Held c := by
  rw [Held, h, hreads]
  cases c.closed <;> rfl

theorem Single.eq_nil {c : Connection} (h : Single c) (hreads : c.phase.reads = false) :
    c.unended = [] := by
  rw [h, hreads, Bool.and_false]
  rfl

theorem single_of_nil {c : Connection} (h : c.unended = []) (hreads : c.phase.reads = false) :
    Single c := by
  rw [Single, h, hreads, Bool.and_false]
  rfl

theorem Held.finish_eq_nil {c : Connection} (h : Held c) : c.finish.unended = [] := by
  rw [finish, h]
  cases c.closed <;> simp

theorem Held.close {c : Connection} (h : Held c) : Held c.close := h.finish_eq_nil

theorem single_loop {c : Connection} (h : c.unended = []) : Single c.loop := by
  rw [loop]
  split <;> exact single_of_nil h rfl

theorem single_retry {c : Connection} (h : c.unended = []) : Single c.retry := by
  refine single_of_nil h ?_
  rw [retry]
  cases c.closed <;> rfl

theorem Held.readOn {c : Connection} (h : Held c) (decoder : Utf8.TextDecoder)
    (buffer : List Char) : Single (c.readOn decoder buffer) := by
  rw [Connection.readOn]
  split
  · next hclosed =>
    rw [Held, if_pos hclosed] at h
    exact single_retry h
  · rw [Single]
    refine h.trans ?_
    cases c.closed <;> rfl

theorem Held.takeBlock {c : Connection} (h : Held c) (decoder : Utf8.TextDecoder)
    (buffer : List Char) : Single (c.takeBlock decoder buffer) := by
  rw [Connection.takeBlock]
  split
  · exact h.readOn decoder buffer
  · rw [Single]
    refine h.trans ?_
    cases c.closed <;> rfl

theorem closed_notify {calls : List Call} {c : Connection} (h : c.closed = true) :
    (notify calls c).2.closed = true := by
  induction calls generalizing c with
  | nil => exact h
  | cons call calls ih =>
    have hclosed : (if call.closes then c.close else c).closed = true := by
      split
      · rfl
      · exact h
    rw [notify]
    split
    · exact hclosed
    · exact ih hclosed

theorem held_notify {calls : List Call} {c : Connection} (h : Held c) :
    Held (notify calls c).2 := by
  induction calls generalizing c with
  | nil => exact h
  | cons call calls ih =>
    have hheld : Held (if call.closes then c.close else c) := by
      split
      · exact h.close
      · exact h
    rw [notify]
    split
    · exact hheld
    · exact ih hheld

/-- A listener that throws does so after the client has been closed. -/
theorem closed_of_throws {calls : List Call} {c : Connection} (hquiet : quiet calls = true)
    (h : (notify calls c).1 = true) : (notify calls c).2.closed = true := by
  induction calls generalizing c with
  | nil => cases h
  | cons call calls ih =>
    rw [notify] at h ⊢
    rw [quiet] at hquiet
    cases hcloses : call.closes with
    | true =>
      have hclosed : (if true = true then c.close else c).closed = true := rfl
      split
      · exact hclosed
      · exact closed_notify hclosed
    | false =>
      rw [hcloses] at hquiet h
      obtain ⟨hthrows, hquiet⟩ : call.throws = false ∧ quiet calls = true := by simpa using hquiet
      rw [hthrows] at h
      simp only [hthrows, Bool.false_eq_true, ↓reduceIte] at h ⊢
      exact ih hquiet h

theorem held_handle {c : Connection} (h : Held c) (raw : List Char) (calls : List Call) :
    Held (c.handle raw calls).2 := by
  rw [handle]
  split
  · exact h
  · exact held_notify (show Held { c with client := _ } from h)

theorem closed_handle {c : Connection} (h : c.closed = true) (raw : List Char)
    (calls : List Call) : (c.handle raw calls).2.closed = true := by
  rw [handle]
  split
  · exact h
  · exact closed_notify (show ({ c with client := _ } : Connection).closed = true from h)

theorem closed_of_handle_throws {c : Connection} {raw : List Char} {calls : List Call}
    (hread : readable raw = true)
    (hquiet : ((ControlClient.dataStr raw).isNone || quiet calls) = true)
    (h : (c.handle raw calls).1 = true) : (c.handle raw calls).2.closed = true := by
  have hok := run_handleBlock_isOk raw c.client
  rw [handle] at h ⊢
  split at h
  · next e client hrun =>
    rw [hrun, hread] at hok
    cases hok
  · next client hrun =>
    refine closed_of_throws ?_ h
    split
    · next hdata => simpa [Option.isNone_eq_false_iff.2 hdata] using hquiet
    · rfl

theorem held_opened {c : Connection} (h : c.unended = []) : Held (c.opened true) := by
  rw [opened]
  cases hclosed : c.closed with
  | true => simp [Held, h, hclosed]
  | false => simp [Held, h]

/-- A response is left by a step only while it is read, unless the step throws. -/
theorem single_step {reconnectMs maxReconnectMs : ℕ} {l : Label} {c c' : Connection}
    (h : Single c) (hok : accepted l c = true) (hstep : step reconnectMs maxReconnectMs l c = some c') :
    Single c' := by
  rw [step.eq_def] at hstep
  split at hstep
  case h_1 hphase =>
    obtain rfl := Option.some.inj hstep
    exact single_loop (h.eq_nil (by rw [hphase]; rfl))
  case h_2 hphase =>
    obtain rfl := Option.some.inj hstep
    exact single_loop (h.eq_nil (by rw [hphase]; rfl))
  case h_3 ok body hphase =>
    have hempty := h.eq_nil (by rw [hphase]; rfl)
    split at hstep
    · next hread =>
      obtain rfl := Option.some.inj hstep
      obtain ⟨-, rfl⟩ : ok = true ∧ body = true := by simpa using hread
      exact (held_opened hempty).readOn _ _
    · next hrefused =>
      obtain rfl := Option.some.inj hstep
      -- the body of a refused response would be left
      have hopen : (body && !c.closed) = false := by
        simp only [accepted, hphase] at hok
        cases hclosed : c.closed <;> cases body <;> cases ok <;> simp_all
      rw [opened, hopen]
      exact single_retry hempty
  case h_4 value decoder buffer hphase =>
    obtain rfl := Option.some.inj hstep
    exact (h.held (by rw [hphase]; rfl)).takeBlock _ _
  case h_5 calls decoder buffer hphase =>
    obtain ⟨⟨block, rest⟩, hcut, hhandled⟩ := Option.map_eq_some_iff.1 hstep
    have hheld := held_handle (h.held (by rw [hphase]; rfl)) block calls
    dsimp only at hhandled
    split at hhandled
    · next c₁ hthrows =>
      obtain rfl := hhandled
      have hclosed : (c.handle block calls).2.closed = true := by
        simp only [accepted, hphase, hcut] at hok
        obtain hclosed | hblock := Bool.or_eq_true_iff.1 hok
        · exact closed_handle hclosed block calls
        · obtain ⟨hread, hquiet⟩ := Bool.and_eq_true_iff.1 hblock
          exact closed_of_handle_throws hread hquiet (by rw [hthrows])
      rw [Held, hclosed, hthrows] at hheld
      exact single_retry hheld
    · next c₁ hreturns =>
      obtain rfl := hhandled
      rw [hreturns] at hheld
      exact Held.takeBlock (show Held { c₁ with backoff := reconnectMs } from hheld) _ _
  case h_6 hphase =>
    obtain rfl := Option.some.inj hstep
    exact single_retry (h.held (by rw [hphase]; rfl)).finish_eq_nil
  case h_7 hphase =>
    obtain rfl := Option.some.inj hstep
    exact single_retry (h.held (by rw [hphase]; rfl)).finish_eq_nil
  case h_8 hphase =>
    obtain rfl := Option.some.inj hstep
    exact single_retry (h.eq_nil (by rw [hphase]; rfl))
  case h_9 hphase =>
    obtain rfl := Option.some.inj hstep
    exact single_loop (h.eq_nil (by rw [hphase]; rfl))
  case h_10 => cases hstep
  case h_11 =>
    obtain rfl := Option.some.inj hstep
    rw [Single] at h ⊢
    rw [Connection.close, h]
    cases hopen : !c.closed && c.phase.reads <;> simp
  case h_12 => cases hstep

theorem Single.oneSubscription {c : Connection} (h : Single c) : OneSubscription c where
  one := by
    rw [h]
    split
    · exact le_rfl
    · exact Nat.zero_le _
  none hclosed _ := by
    rw [h, hclosed]
    rfl

/-! ## After a step that throws -/

theorem notify_of_not_quiet {calls : List Call} {c : Connection} (h : quiet calls = false) :
    notify calls c = (true, c) := by
  induction calls generalizing c with
  | nil => cases h
  | cons call calls ih =>
    obtain ⟨hcloses, hthrows⟩ : call.closes = false ∧ (call.throws = false → quiet calls = false) := by
      simpa [quiet] using h
    rw [notify, hcloses, if_neg Bool.false_ne_true]
    split
    · rfl
    · next hreturns => exact ih (hthrows (Bool.eq_false_iff.2 hreturns))

/-- The client is as it was, but for what it has been told. -/
theorem handle_of_throws {c : Connection} {raw : List Char} {calls : List Call}
    (h : (readable raw && ((ControlClient.dataStr raw).isNone || quiet calls)) = false) :
    ∃ client, c.handle raw calls = (true, { c with client }) := by
  have hok := run_handleBlock_isOk raw c.client
  rw [handle]
  split
  · exact ⟨_, rfl⟩
  · next client hrun =>
    rw [hrun] at hok
    obtain ⟨hdata, hquiet⟩ : (ControlClient.dataStr raw).isSome = true ∧ quiet calls = false := by
      simpa [← hok, Except.isOk, Except.toBool] using h
    rw [if_pos hdata]
    exact ⟨client, notify_of_not_quiet hquiet⟩

/-- The response that was read is left, and the client is about to ask again. -/
theorem left_of_throw {reconnectMs maxReconnectMs : ℕ} {l : Label} {c c' : Connection}
    (h : Single c) (hok : accepted l c = false) (hstep : step reconnectMs maxReconnectMs l c = some c') :
    c'.closed = false ∧ c'.phase = .sleeping ∧ c'.unended = [c'.aborts] := by
  obtain ⟨hclosed, hok⟩ := Bool.or_eq_false_iff.1 hok
  have hheld (hreads : c.phase.reads = true) : c.unended = [c.aborts] := by
    rw [h, hclosed, hreads]
    rfl
  split at hok
  · next ok body hphase _ =>
    obtain ⟨rfl, rfl⟩ : ok = false ∧ body = true := by simpa using hok
    have hopened : c.opened true = { c with unended := [c.aborts] } := by
      rw [opened, hclosed, h.eq_nil (by rw [hphase]; rfl)]
      rfl
    rw [step.eq_def] at hstep
    simp only [hphase] at hstep
    obtain rfl := Option.some.inj hstep
    rw [hopened, retry]
    simp [hclosed]
  · next calls decoder buffer hphase _ =>
    split at hok
    · cases hok
    · next block rest hcut =>
      obtain ⟨client, hhandle⟩ := handle_of_throws (c := c) hok
      rw [step.eq_def] at hstep
      simp only [hphase, hcut, Option.map_some, hhandle, Option.some.injEq] at hstep
      rw [← hstep, retry]
      simp [hclosed, hheld, hphase, Phase.reads]
  · cases hok

/-- After a step that throws there may be two subscriptions. -/
theorem exists_two_of_throw {reconnectMs maxReconnectMs : ℕ} {l : Label} {c c' : Connection}
    (h : Single c) (hok : accepted l c = false) (hstep : step reconnectMs maxReconnectMs l c = some c') :
    ∃ ls c'', exec (step reconnectMs maxReconnectMs) ls c' = some c'' ∧ c''.unended.length = 2 := by
  obtain ⟨hclosed, hphase, hleft⟩ := left_of_throw h hok hstep
  obtain ⟨client, closed, aborts, unended, backoff, phase⟩ := c'
  dsimp only at hclosed hphase hleft
  subst hclosed hphase hleft
  exact ⟨[.wake, .answer true true], _, rfl, rfl⟩

/-- There is one subscription at most while nothing throws with a response that is being read, and
after a step that does so there may be two. -/
theorem oneSubscription_of_run {reconnectMs maxReconnectMs : ℕ} {ls : List Label} {c : Connection}
    (hmeets : Meets (step reconnectMs maxReconnectMs) (fun l c => accepted l c = true) ls
      (start reconnectMs))
    (hexec : exec (step reconnectMs maxReconnectMs) ls (start reconnectMs) = some c) :
    OneSubscription c ∧
      ∀ l c', accepted l c = false → step reconnectMs maxReconnectMs l c = some c' →
        ∃ ms c'', exec (step reconnectMs maxReconnectMs) ms c' = some c'' ∧ ¬OneSubscription c'' := by
  have hsingle : Single c :=
    exec_invariant (fun _ _ _ => single_step) hmeets (single_of_nil rfl rfl) hexec
  refine ⟨hsingle.oneSubscription, fun l c' hthrows hstep => ?_⟩
  obtain ⟨ms, c'', hms, htwo⟩ := exists_two_of_throw hsingle hthrows hstep
  exact ⟨ms, c'', hms, fun hone => absurd hone.one (by omega)⟩

/-- A heartbeat arrives, and then the network fails. -/
def heartbeatThenFail : List Label :=
  [.connect, .answer true true, .read (":\n\n".toList.map Char.toNat), .block [], .fail, .wake,
    .answer true true]

theorem oneSubscription_of_run_heartbeat :
    ∃ c, exec (step 500 15000) heartbeatThenFail (start 500) = some c ∧ OneSubscription c := by
  have hmeets : Meets (step 500 15000) (fun l c => accepted l c = true) heartbeatThenFail
      (start 500) := by decide
  exact ⟨_, rfl, (oneSubscription_of_run hmeets rfl).1⟩

/-- A block whose data is the empty text arrives, and the client asks again. -/
def emptyData : List Label :=
  [.connect, .answer true true, .read ("data:\n\n".toList.map Char.toNat), .block [], .wake,
    .answer true true]

theorem not_all_oneSubscription :
    ¬ ∀ (reconnectMs maxReconnectMs : ℕ) (ls : List Label) (c : Connection),
      exec (step reconnectMs maxReconnectMs) ls (start reconnectMs) = some c → OneSubscription c := by
  intro h
  have hone := h 500 15000 emptyData _ rfl
  exact absurd hone.one (by decide)

end Maximal.Live
