import Maximal.Lib.Inquiry
import Maximal.Update.UpdateCheck

/-!
# Taking over the port

`evictRunning` asks the running instance to shut down and, if the port stays held, signals the
process that the pidfile names and then the one that listens. Every contact with the machine is a
question; the clock may stand still, so the polls are counted.

## Main definitions

- `looksLikeMaximalCommand`, `isMaximalProcess`, `listenerPid`
- `killEscalate`, `evictRunning`
- `Machine` — answers, and the processes that run meanwhile
- `Spares` — only processes of the proxy are signalled, and a return means that the port is free
- `Steady`, `PidfileOwn` — no pid changes hands before its signal, and the pidfile is not stale

## Main results

- `evictRunning_spares_iff`
-/

namespace Maximal.Platform

open Js

/-! ## Recognising a process -/

/-- `/(?:^|\/)maximal(?:\s|$)/` from a place on; `edge` tells whether a name may start there. -/
def namesMaximal : Bool → List Char → Bool
  | edge, [] => edge && "maximal".toList.isPrefixOf []
  | edge, c :: cs =>
    edge && "maximal".toList.isPrefixOf (c :: cs) && ((c :: cs).drop 7).head?.all isWhite ||
      namesMaximal (c = '/') cs

/-- The words that are looked for are in ASCII. -/
def looksLikeMaximalCommand (command : String) : Bool :=
  let cmd := toLowerCase (trim command)
  namesMaximal true cmd.toList || includes cmd "maximal start"

example : looksLikeMaximalCommand "/Applications/Maximal.app/Contents/MacOS/maximal start" := by
  decide +kernel
example : looksLikeMaximalCommand "/usr/local/bin/maximal-shell" = false := by
  decide +kernel

/-! ## Questions -/

inductive Signal where
  | SIGTERM
  | SIGKILL
  /-- Signal 0: is there such a process? -/
  | zero
  deriving DecidableEq

inductive Question where
  | fetch (port : ℕ) (path : String)
  | now
  | sleep (ms : ℤ)
  | probePort (port : ℕ)
  | readPidfile
  | lsof (port : ℕ)
  | ps (pid : ℕ)
  | kill (pid : ℕ) (signal : Signal)
  deriving DecidableEq

namespace Question

/-- A fetch resolves, a port is held and a signal call returns, or not. A file or a program gives a
text if it can be read or succeeds. -/
def Answer : Question → Type
  | fetch _ _ | probePort _ | kill _ _ => Bool
  | now => ℤ
  | sleep _ => Unit
  | readPidfile | lsof _ | ps _ => Option String

end Question

abbrev Eviction : Type → Type := Inquiry Question Question.Answer

abbrev Entry : Type := (q : Question) × Option q.Answer

abbrev EvictLog : Type := Inquiry.Log Question Question.Answer

def fetch (port : ℕ) (path : String) : Eviction Bool := Inquiry.question (Question.fetch port path)

def now : Eviction ℤ := Inquiry.question Question.now

def sleep (ms : ℤ) : Eviction Unit := Inquiry.question (Question.sleep ms)

def probePort (port : ℕ) : Eviction Bool := Inquiry.question (Question.probePort port)

def kill (pid : ℕ) (signal : Signal) : Eviction Bool := Inquiry.question (Question.kill pid signal)

/-! ## Processes -/

/-- `Number.parseInt(text.trim(), 10)`, if it is a positive number. -/
def parsePid (text : String) : Option ℕ :=
  -- zero stands for what is no number, and neither is a pid
  let pid := Update.parseIntOrZero (trim text).toList
  if 0 < pid then some pid.toNat else none

def readPidfile : Eviction (Option ℕ) := do
  let content : Option String ← Inquiry.question Question.readPidfile
  return content.bind parsePid

def isMaximalProcess (pid : ℕ) : Eviction Bool := do
  let command : Option String ← Inquiry.question (Question.ps pid)
  return command.any looksLikeMaximalCommand

/-- The first process of the proxy among the lines. -/
def firstMaximal : List String → Eviction (Option ℕ)
  | [] => return none
  | line :: lines =>
    match parsePid line with
    | none => firstMaximal lines
    | some pid => do
      if ← isMaximalProcess pid then return some pid
      firstMaximal lines

def listenerPid (port : ℕ) : Eviction (Option ℕ) := do
  let stdout : Option String ← Inquiry.question (Question.lsof port)
  match stdout with
  | none => return none
  | some stdout =>
    if trim stdout = "" then return none
    firstMaximal (((trim stdout).toList.splitOn '\n').map String.ofList)

/-! ## Eviction -/

structure EvictOptions where
  port : ℕ := 4141
  drainTimeoutMs : ℤ := 3000
  killEscalationMs : ℤ := 1500

def requestShutdown (opts : EvictOptions) : Eviction Bool := do
  if !(← fetch opts.port "/setup-status") then return false
  -- the peer may close the socket in the middle of its response
  let _ ← fetch opts.port "/_internal/shutdown"
  return true

/-- At most so many polls; `none` if the clock lets the loop go on. -/
def pollRelease (opts : EvictOptions) (deadline : ℤ) : ℕ → Eviction (Option Bool)
  | 0 => return none
  | polls + 1 => do
    if !((← now) < deadline) then return some false
    sleep 50
    if !(← probePort opts.port) then return some true
    pollRelease opts deadline polls

def waitForPortRelease (opts : EvictOptions) (polls : ℕ) : Eviction (Option Bool) := do
  let start ← now
  pollRelease opts (start + opts.drainTimeoutMs) polls

def killEscalate (pid : ℕ) (opts : EvictOptions) : Eviction Unit := do
  -- the call throws if there is no such process
  if !(← kill pid .SIGTERM) then return ()
  sleep opts.killEscalationMs
  if !(← kill pid .zero) then return ()
  let _ ← kill pid .SIGKILL
  sleep 200

inductive Takeover where
  | returned
  | failed (message : String)
  deriving DecidableEq

def couldNotFree (port : ℕ) (lastPid : Option ℕ) : String :=
  "Could not free :" ++ toString port ++
    (match lastPid with
      | some pid => " (last known pid " ++ toString pid ++ ")"
      | none => "") ++
    ". Stop the holding process manually and retry."

/-- The listener, if the port is still held and another process than the pidfile named holds it. -/
def evictListener (opts : EvictOptions) (pidfilePid : Option ℕ) : Eviction (Option ℕ) := do
  if ← probePort opts.port then
    match ← listenerPid opts.port with
    | none => return pidfilePid
    | some livePid =>
      if some livePid = pidfilePid then return pidfilePid
      killEscalate livePid opts
      return some livePid
  else return pidfilePid

def lookAgain (opts : EvictOptions) (lastPid : Option ℕ) : Eviction Takeover := do
  if ← probePort opts.port then return .failed (couldNotFree opts.port lastPid)
  return .returned

def evictPidfile (opts : EvictOptions) : Option ℕ → Eviction Unit
  | none => return ()
  | some pid => killEscalate pid opts

/-- The kill path, with what the pidfile names. -/
def evictNamed (opts : EvictOptions) (pidfilePid : Option ℕ) : Eviction Takeover := do
  evictPidfile opts pidfilePid
  lookAgain opts (← evictListener opts pidfilePid)

def evictHolder (opts : EvictOptions) : Eviction Takeover := do
  evictNamed opts (← readPidfile)

def evictRunning (opts : EvictOptions) (polls : ℕ) : Eviction (Option Takeover) := do
  if ← requestShutdown opts then
    match ← waitForPortRelease opts polls with
    | none => return none
    | some true => return some .returned
    | some false => some <$> evictHolder opts
  else if !(← probePort opts.port) then return some .returned
  else some <$> evictHolder opts

/-! ## What the log tells -/

/-- The pid that the pidfile names when it is read. -/
def named : Entry → Option ℕ
  | ⟨.readPidfile, some content⟩ => Option.bind content parsePid
  | _ => none

/-- The pid of a process that is found to be of the proxy. -/
def vetted : Entry → Option ℕ
  | ⟨.ps pid, some command⟩ => if Option.any looksLikeMaximalCommand command then some pid else none
  | _ => none

/-- The pid that gets a signal. -/
def signalled : Entry → Option ℕ
  | ⟨.kill pid .SIGTERM, _⟩ | ⟨.kill pid .SIGKILL, _⟩ => some pid
  | _ => none

/-- A look at the port: is it released? -/
def released : Entry → Option Bool
  | ⟨.probePort _, some (held : Bool)⟩ => some !held
  | _ => none

structure Seen where
  /-- Named by the pidfile, or found to be of the proxy. -/
  known : List ℕ
  /-- Named by the pidfile just now. -/
  expected : Option ℕ
  /-- The last look at the port. -/
  released : Option Bool

def observe (s : Seen) (e : Entry) : Seen where
  known := (named e).toList ++ ((vetted e).toList ++ s.known)
  expected := named e
  released := (released e).or s.released

/-- Signals go to known processes, and one that the pidfile names is signalled at once. -/
def Judged (s : Seen) (e : Entry) : Prop :=
  (∀ pid, signalled e = some pid → pid ∈ s.known) ∧
  ∀ pid, s.expected = some pid → ∃ a, e = ⟨.kill pid .SIGTERM, a⟩

abbrev Watched {α : Type} (post : Seen → Option α → Prop) (p : Eviction α) (s : Seen) : Prop :=
  Inquiry.Watched observe Judged post p s

/-- Nothing that was known is forgotten, and no process is left unsignalled. -/
structure Kept (s s' : Seen) : Prop where
  known : ∀ pid ∈ s.known, pid ∈ s'.known
  expected : s'.expected = none

section Parts

variable {s₀ s : Seen} {e : Entry}

theorem Kept.refl (hs : s.expected = none) : Kept s s := ⟨fun _ h => h, hs⟩

theorem Kept.observe (h : Kept s₀ s) (hnamed : named e = none) : Kept s₀ (observe s e) :=
  ⟨fun pid hpid => List.mem_append_right _ (List.mem_append_right _ (h.known pid hpid)), hnamed⟩

/-- A question that signals nobody. -/
theorem Kept.judged (h : Kept s₀ s) (hsignalled : signalled e = none) : Judged s e := by
  refine ⟨fun pid hpid => ?_, fun pid hpid => ?_⟩
  · rw [hsignalled] at hpid
    cases hpid
  · rw [h.expected] at hpid
    cases hpid

/-- A signal to a known process. -/
theorem Kept.judged_kill {pid : ℕ} {signal : Signal} {a : Option Bool} (h : Kept s₀ s)
    (hpid : pid ∈ s.known) : Judged s ⟨.kill pid signal, a⟩ := by
  refine ⟨fun pid' hpid' => ?_, fun pid' hpid' => ?_⟩
  · cases signal with
    | SIGTERM | SIGKILL => exact Option.some.inj hpid' ▸ hpid
    | zero => cases hpid'
  · rw [h.expected] at hpid'
    cases hpid'

/-- A question that neither signals nor names a process: the rest goes on from what was kept. -/
theorem watched_quiet {α : Type} {post : Seen → Option α → Prop} {q : Question}
    {next : q.Answer → Eviction α} (hs : Kept s₀ s)
    (hquiet : ∀ a, signalled ⟨q, a⟩ = none ∧ named ⟨q, a⟩ = none)
    (hfailed : ∀ s', Kept s₀ s' → post s' none)
    (hnext : ∀ a, Kept s₀ (observe s ⟨q, some a⟩) →
      Watched post (next a) (observe s ⟨q, some a⟩)) :
    Watched post (.ask q next) s :=
  ⟨⟨hs.judged (hquiet none).1, hfailed _ (hs.observe (hquiet none).2)⟩, fun a =>
    ⟨hs.judged (hquiet (some a)).1, hnext a (hs.observe (hquiet (some a)).2)⟩⟩

theorem requestShutdown_watched (opts : EvictOptions) (hs : Kept s₀ s) :
    Watched (fun s' _ => Kept s₀ s') (requestShutdown opts) s := by
  refine watched_quiet hs (fun _ => ⟨rfl, rfl⟩) (fun _ h => h) fun resolved hs => ?_
  cases resolved with
  | false => exact hs
  | true => exact watched_quiet hs (fun _ => ⟨rfl, rfl⟩) (fun _ h => h) fun _ hs => hs

theorem pollRelease_watched (opts : EvictOptions) (deadline : ℤ) (polls : ℕ) (hs : Kept s₀ s) :
    Watched (fun s' result => Kept s₀ s' ∧ (result = some (some true) → s'.released = some true))
      (pollRelease opts deadline polls) s := by
  induction polls generalizing s with
  | zero => exact ⟨hs, nofun⟩
  | succ polls ih =>
    refine watched_quiet hs (fun _ => ⟨rfl, rfl⟩) (fun _ h => ⟨h, nofun⟩) fun time hs => ?_
    dsimp only [Inquiry.bind]
    split
    · exact ⟨hs, nofun⟩
    · refine watched_quiet hs (fun _ => ⟨rfl, rfl⟩) (fun _ h => ⟨h, nofun⟩) fun _ hs => ?_
      refine watched_quiet hs (fun _ => ⟨rfl, rfl⟩) (fun _ h => ⟨h, nofun⟩) fun held hs => ?_
      cases held with
      | false => exact ⟨hs, fun _ => rfl⟩
      | true => exact ih hs

theorem waitForPortRelease_watched (opts : EvictOptions) (polls : ℕ) (hs : Kept s₀ s) :
    Watched (fun s' result => Kept s₀ s' ∧ (result = some (some true) → s'.released = some true))
      (waitForPortRelease opts polls) s :=
  watched_quiet hs (fun _ => ⟨rfl, rfl⟩) (fun _ h => ⟨h, nofun⟩) fun _ hs =>
    pollRelease_watched opts _ polls hs

theorem known_observe {pid : ℕ} (h : pid ∈ s.known) : pid ∈ (observe s e).known :=
  List.mem_append_right _ (List.mem_append_right _ h)

/-- From a known process, and one that the pidfile has just named if any has. -/
theorem killEscalate_watched {pid : ℕ} (opts : EvictOptions)
    (hkept : ∀ pid' ∈ s₀.known, pid' ∈ s.known) (hpid : pid ∈ s.known)
    (hs : ∀ pid', s.expected = some pid' → pid' = pid) :
    Watched (fun s' _ => Kept s₀ s') (killEscalate pid opts) s := by
  have hfirst : ∀ a, Judged s ⟨.kill pid .SIGTERM, a⟩ := fun a =>
    ⟨fun pid' hpid' => Option.some.inj hpid' ▸ hpid, fun pid' hpid' => ⟨a, by rw [hs pid' hpid']⟩⟩
  have hkept : ∀ a, Kept s₀ (observe s ⟨.kill pid .SIGTERM, a⟩) := fun a =>
    ⟨fun pid' hpid' => known_observe (hkept pid' hpid'), rfl⟩
  refine ⟨⟨hfirst _, hkept _⟩, fun sent => ⟨hfirst _, ?_⟩⟩
  have hs := hkept (some sent)
  have hpid : pid ∈ (observe s ⟨.kill pid .SIGTERM, some sent⟩).known := known_observe hpid
  cases sent with
  | false => exact hs
  | true =>
    refine watched_quiet hs (fun _ => ⟨rfl, rfl⟩) (fun _ h => h) fun _ hs => ?_
    have hpid := known_observe (e := ⟨.sleep opts.killEscalationMs, some ()⟩) hpid
    refine watched_quiet hs (fun _ => ⟨rfl, rfl⟩) (fun _ h => h) fun alive hs => ?_
    have hpid := known_observe (e := ⟨.kill pid .zero, some alive⟩) hpid
    cases alive with
    | false => exact hs
    | true =>
      refine ⟨⟨hs.judged_kill hpid, hs.observe rfl⟩, fun killed => ⟨hs.judged_kill hpid, ?_⟩⟩
      have hs := hs.observe (e := ⟨.kill pid .SIGKILL, some killed⟩) rfl
      exact watched_quiet hs (fun _ => ⟨rfl, rfl⟩) (fun _ h => h) fun _ hs => hs

theorem isMaximalProcess_watched (pid : ℕ) (hs : Kept s₀ s) :
    Watched (fun s' result => Kept s₀ s' ∧ (result = some true → pid ∈ s'.known))
      (isMaximalProcess pid) s := by
  refine watched_quiet hs (fun _ => ⟨rfl, rfl⟩) (fun _ h => ⟨h, nofun⟩) fun command hs => ⟨hs, ?_⟩
  intro hmaximal
  have hvetted : vetted ⟨.ps pid, some command⟩ = some pid := if_pos (Option.some.inj hmaximal)
  refine List.mem_append_right _ (List.mem_append_left _ ?_)
  rw [hvetted]
  exact List.mem_singleton_self pid

/-- What is found is known. -/
theorem firstMaximal_watched (lines : List String) (hs : Kept s₀ s) :
    Watched (fun s' result => Kept s₀ s' ∧ ∀ pid, result = some (some pid) → pid ∈ s'.known)
      (firstMaximal lines) s := by
  induction lines generalizing s with
  | nil => exact ⟨hs, nofun⟩
  | cons line lines ih =>
    unfold firstMaximal
    cases parsePid line with
    | none => exact ih hs
    | some pid =>
      refine Inquiry.watched_bind (Inquiry.watched_mono (isMaximalProcess_watched pid hs) ?_)
      rintro s' result ⟨hs', hknown⟩
      cases result with
      | none => exact ⟨hs', nofun⟩
      | some own =>
        cases own with
        | false => exact ih hs'
        | true => exact ⟨hs', fun _ heq => Option.some.inj (Option.some.inj heq) ▸ hknown rfl⟩

theorem listenerPid_watched (port : ℕ) (hs : Kept s₀ s) :
    Watched (fun s' result => Kept s₀ s' ∧ ∀ pid, result = some (some pid) → pid ∈ s'.known)
      (listenerPid port) s := by
  refine watched_quiet hs (fun _ => ⟨rfl, rfl⟩) (fun _ h => ⟨h, nofun⟩) fun stdout hs => ?_
  cases stdout with
  | none => exact ⟨hs, nofun⟩
  | some stdout =>
    dsimp only [Inquiry.bind]
    generalize ((trim stdout).toList.splitOn '\n').map String.ofList = lines
    split
    · exact ⟨hs, nofun⟩
    · exact firstMaximal_watched lines hs

theorem evictListener_watched (opts : EvictOptions) (pidfilePid : Option ℕ) (hs : Kept s₀ s) :
    Watched (fun s' _ => Kept s₀ s') (evictListener opts pidfilePid) s := by
  refine watched_quiet hs (fun _ => ⟨rfl, rfl⟩) (fun _ h => h) fun held hs => ?_
  cases held with
  | false => exact hs
  | true =>
    dsimp only [Inquiry.bind]
    rw [if_pos rfl]
    refine Inquiry.watched_bind (Inquiry.watched_mono (listenerPid_watched opts.port hs) ?_)
    rintro s' result ⟨hs', hknown⟩
    match result, hknown with
    | none, _ => exact hs'
    | some none, _ => exact hs'
    | some (some livePid), hknown =>
      dsimp only
      split
      · exact hs'
      · refine Inquiry.watched_bind (Inquiry.watched_mono
          (killEscalate_watched opts hs'.known (hknown livePid rfl) ?_) fun s'' result h => ?_)
        · intro pid' hpid'
          rw [hs'.expected] at hpid'
          cases hpid'
        · cases result with
          | none => exact h
          | some _ => exact h

/-- The port is looked at before the end. -/
theorem lookAgain_watched (opts : EvictOptions) (lastPid : Option ℕ) (hs : Kept s₀ s) :
    Watched (fun s' result => Kept s₀ s' ∧ (result = some .returned → s'.released = some true))
      (lookAgain opts lastPid) s := by
  refine watched_quiet hs (fun _ => ⟨rfl, rfl⟩) (fun _ h => ⟨h, nofun⟩) fun held hs => ?_
  cases held with
  | false => exact ⟨hs, fun _ => rfl⟩
  | true => exact ⟨hs, nofun⟩

/-- Signalling what the pidfile has just named, if anything. -/
theorem evictPidfile_watched (opts : EvictOptions) (hs : Kept s₀ s) (content : Option String) :
    Watched (fun s' _ => Kept s₀ s') (evictPidfile opts (content.bind parsePid))
      (observe s ⟨.readPidfile, some content⟩) := by
  have hnamed : named ⟨.readPidfile, some content⟩ = content.bind parsePid := rfl
  have hknown : ∀ pid' ∈ s₀.known, pid' ∈ (observe s ⟨.readPidfile, some content⟩).known :=
    fun pid' hpid' => known_observe (hs.known pid' hpid')
  cases hpid : content.bind parsePid with
  | none => exact ⟨hknown, hnamed.trans hpid⟩
  | some pid =>
    refine killEscalate_watched opts hknown ?_ fun pid' hpid' =>
      Option.some.inj (hpid'.symm.trans (hnamed.trans hpid))
    refine List.mem_append_left _ ?_
    rw [hnamed, hpid]
    exact List.mem_singleton_self pid

theorem evictHolder_watched (opts : EvictOptions) (hs : Kept s₀ s) :
    Watched (fun s' result => Kept s₀ s' ∧ (result = some .returned → s'.released = some true))
      (evictHolder opts) s := by
  refine ⟨⟨hs.judged rfl, hs.observe rfl, nofun⟩, fun content => ⟨hs.judged rfl, ?_⟩⟩
  show Watched _ (evictNamed opts (Option.bind content parsePid)) _
  refine Inquiry.watched_bind (Inquiry.watched_mono
    (evictPidfile_watched opts hs content) fun s' result hs' => ?_)
  cases result with
  | none => exact ⟨hs', nofun⟩
  | some _ =>
    refine Inquiry.watched_bind (Inquiry.watched_mono
      (evictListener_watched opts _ hs') fun s'' result hs'' => ?_)
    cases result with
    | none => exact ⟨hs'', nofun⟩
    | some lastPid => exact lookAgain_watched opts lastPid hs''

theorem evictRunning_watched (opts : EvictOptions) (polls : ℕ) (hs : Kept s₀ s) :
    Watched (fun s' result => Kept s₀ s' ∧ (result = some (some .returned) →
      s'.released = some true)) (evictRunning opts polls) s := by
  have hholder : ∀ {s : Seen}, Kept s₀ s →
      Watched (fun s' result => Kept s₀ s' ∧ (result = some (some .returned) →
        s'.released = some true)) (some <$> evictHolder opts) s := by
    intro s hs
    refine Inquiry.watched_bind (Inquiry.watched_mono
      (evictHolder_watched opts hs) fun s' result ⟨hs', hreturned⟩ => ?_)
    cases result with
    | none => exact ⟨hs', nofun⟩
    | some takeover =>
      exact ⟨hs', fun heq => hreturned (congrArg some (Option.some.inj (Option.some.inj heq)))⟩
  refine Inquiry.watched_bind (Inquiry.watched_mono
    (requestShutdown_watched opts hs) fun s' result hs' => ?_)
  match result with
  | none => exact ⟨hs', nofun⟩
  | some true =>
    refine Inquiry.watched_bind (Inquiry.watched_mono
      (waitForPortRelease_watched opts polls hs') fun s'' result ⟨hs'', hreleased⟩ => ?_)
    match result, hreleased with
    | none, _ => exact ⟨hs'', nofun⟩
    | some none, _ => exact ⟨hs'', nofun⟩
    | some (some true), hreleased => exact ⟨hs'', fun _ => hreleased rfl⟩
    | some (some false), _ => exact hholder hs''
  | some false =>
    refine watched_quiet hs' (fun _ => ⟨rfl, rfl⟩) (fun _ h => ⟨h, nofun⟩) fun held hs' => ?_
    cases held with
    | false => exact ⟨hs', fun _ => rfl⟩
    | true => exact hholder hs'

end Parts

/-! ## Processes that come and go -/

/-- A process that is not of the proxy. -/
def IsForeign (process : Option String) : Prop :=
  ∃ command, process = some command ∧ looksLikeMaximalCommand command = false

/-- How a machine answers, and the command line under each pid at each moment. A moment is a number
of questions that were asked before. -/
structure Machine where
  behaviour : Inquiry.Behaviour Question Question.Answer
  processes : ℕ → ℕ → Option String
  /-- What `ps` prints is true when it is printed. -/
  ps_eq : ∀ log pid command, behaviour log (.ps pid) = some (some command) →
    processes log.length pid = some command

section Processes

variable {processes : ℕ → ℕ → Option String} {log : EvictLog} {s : Seen}

/-- Named by the pidfile, or found to be of the proxy. -/
def Introduces (e : Entry) (pid : ℕ) : Prop := named e = some pid ∨ vetted e = some pid

/-- Between the moment it is introduced and a signal that it gets, a pid does not pass to a foreign
process. -/
def Steady (processes : ℕ → ℕ → Option String) (log : EvictLog) : Prop :=
  ∀ first time last e e' pid, log[first]? = some e → Introduces e pid → first ≤ time →
    time < last → log[last]? = some e' → signalled e' = some pid →
    IsForeign (processes (time + 1) pid) → IsForeign (processes time pid)

/-- No foreign process gets a signal, and a return means that the last look at the port found it
released. -/
structure Spares (processes : ℕ → ℕ → Option String) (log : EvictLog)
    (result : Option (Option Takeover)) : Prop where
  harmless : ∀ time e pid, log[time]? = some e → signalled e = some pid →
    ¬IsForeign (processes time pid)
  returned : result = some (some .returned) → (log.filterMap released).getLast? = some true

/-- The process that the pidfile names, if there is one, is not foreign at the next moment. -/
def PidfileOwn (processes : ℕ → ℕ → Option String) (log : EvictLog) : Prop :=
  ∀ time e pid, log[time]? = some e → named e = some pid →
    ¬IsForeign (processes (time + 1) pid)

theorem vetted_eq_some {e : Entry} {pid : ℕ} (h : vetted e = some pid) :
    ∃ command, e = ⟨.ps pid, some (some command)⟩ ∧ looksLikeMaximalCommand command = true := by
  have hnone : ∀ {x : Option ℕ}, x = none → x ≠ some pid := fun hx => hx ▸ nofun
  obtain ⟨q, a⟩ := e
  cases q with
  | ps pid' =>
    cases a with
    | none => exact absurd h (hnone rfl)
    | some command =>
      have hvetted : vetted ⟨.ps pid', some command⟩ =
          if Option.any looksLikeMaximalCommand command then some pid' else none := rfl
      rw [hvetted] at h
      cases command with
      | none => exact absurd h (hnone rfl)
      | some command =>
        rw [Option.any_some] at h
        split at h
        · next hown =>
          obtain rfl := Option.some.inj h
          exact ⟨command, rfl, hown⟩
        · cases h
  | fetch | now | sleep | probePort | readPidfile | lsof | kill => exact absurd h (hnone rfl)

theorem not_isForeign_of_maximal {command : String} (h : looksLikeMaximalCommand command = true) :
    ¬IsForeign (some command) := by
  rintro ⟨command', heq, hforeign⟩
  rw [← Option.some.inj heq, h] at hforeign
  cases hforeign

/-- A pid that gets a signal was known before, or introduced on the way. -/
theorem introduced_of_signalled {last : ℕ} {e : Entry} {pid : ℕ}
    (haccepts : Inquiry.Accepts observe Judged s log) (he : log[last]? = some e)
    (hsignalled : signalled e = some pid) :
    pid ∈ s.known ∨ ∃ first < last, ∃ e', log[first]? = some e' ∧ Introduces e' pid := by
  induction log generalizing s last with
  | nil => cases he
  | cons e₀ log ih =>
    cases last with
    | zero =>
      obtain rfl := Option.some.inj he
      exact .inl (haccepts.1.1 pid hsignalled)
    | succ last =>
      obtain hknown | ⟨first, hlt, e', he', hintroduces⟩ := ih haccepts.2 he
      · -- what is known behind the first entry was known before, unless the entry introduces it
        obtain hnamed | hknown := List.mem_append.1 hknown
        · exact .inr ⟨0, Nat.succ_pos last, e₀, rfl, .inl (Option.mem_toList.1 hnamed)⟩
        · obtain hvetted | hknown := List.mem_append.1 hknown
          · exact .inr ⟨0, Nat.succ_pos last, e₀, rfl, .inr (Option.mem_toList.1 hvetted)⟩
          · exact .inl hknown
      · exact .inr ⟨first + 1, Nat.succ_lt_succ hlt, e', he', hintroduces⟩

/-- What the pidfile names gets a signal at the next moment. -/
theorem signalled_of_named {time : ℕ} {e : Entry} {pid : ℕ}
    (haccepts : Inquiry.Accepts observe Judged s log)
    (hend : (log.foldl observe s).expected = none) (he : log[time]? = some e)
    (hnamed : named e = some pid) : ∃ e', log[time + 1]? = some e' ∧ signalled e' = some pid := by
  induction log generalizing s time with
  | nil => cases he
  | cons e₀ log ih =>
    cases time with
    | zero =>
      obtain rfl := Option.some.inj he
      cases log with
      -- the log does not end with the pidfile
      | nil => exact absurd (hnamed.symm.trans hend) (Option.some_ne_none pid)
      | cons e' log =>
        obtain ⟨a, rfl⟩ := haccepts.2.1.2 pid hnamed
        exact ⟨_, rfl, rfl⟩
    | succ time => exact ih haccepts.2 hend he

/-- Where it was not foreign once, a pid is not foreign when it gets a signal. -/
theorem Steady.not_isForeign {first start last : ℕ} {e e' : Entry} {pid : ℕ}
    (hsteady : Steady processes log) (he : log[first]? = some e) (hintroduces : Introduces e pid)
    (he' : log[last]? = some e') (hsignalled : signalled e' = some pid) (hfirst : first ≤ start)
    (hlast : start ≤ last) (h : ¬IsForeign (processes start pid)) :
    ¬IsForeign (processes last pid) := by
  have hall : ∀ time, start ≤ time → time ≤ last → ¬IsForeign (processes time pid) := by
    intro time hstart
    induction time, hstart using Nat.le_induction with
    | base => exact fun _ => h
    | succ time hstart ih =>
      intro hle
      exact mt (hsteady first time last e e' pid he hintroduces (hfirst.trans hstart) hle he'
        hsignalled) (ih (Nat.le_of_succ_le hle))
  exact hall last hlast le_rfl

theorem harmless_of_accepts {s : Seen} (hs : s.known = [])
    (haccepts : Inquiry.Accepts observe Judged s log) (hsteady : Steady processes log)
    (hps : ∀ time pid command, log[time]? = some ⟨.ps pid, some (some command)⟩ →
      processes time pid = some command)
    (hpidfile : PidfileOwn processes log) :
    ∀ time e pid, log[time]? = some e → signalled e = some pid →
      ¬IsForeign (processes time pid) := by
  intro last e' pid he' hsignalled
  obtain hknown | ⟨first, hlt, e, he, hintroduces⟩ :=
    introduced_of_signalled haccepts he' hsignalled
  · rw [hs] at hknown
    exact absurd hknown List.not_mem_nil
  · cases hintroduces with
    | inl hnamed =>
      exact hsteady.not_isForeign he (.inl hnamed) he' hsignalled (Nat.le_succ first) hlt
        (hpidfile first e pid he hnamed)
    | inr hvetted =>
      obtain ⟨command, rfl, hown⟩ := vetted_eq_some hvetted
      refine hsteady.not_isForeign he (.inr hvetted) he' hsignalled le_rfl hlt.le ?_
      rw [hps first pid command he]
      exact not_isForeign_of_maximal hown

theorem foldl_observe_released (log : EvictLog) (s : Seen) :
    (log.foldl observe s).released = ((log.filterMap released).getLast?).or s.released := by
  induction log generalizing s with
  | nil => rfl
  | cons e log ih =>
    have hobserve : (observe s e).released = (released e).or s.released := rfl
    rw [List.foldl_cons, ih, hobserve, List.filterMap_cons]
    cases released e with
    | none => rfl
    | some free =>
      rw [List.getLast?_cons]
      cases (log.filterMap released).getLast? <;> rfl

end Processes

/-- Where no pid passes to a foreign process before its signal, the eviction spares the foreign
processes if and only if the pidfile names none of them. A return always means that the last look at
the port found it released. -/
theorem evictRunning_spares_iff (m : Machine) (opts : EvictOptions) (polls : ℕ)
    (hsteady : Steady m.processes ((evictRunning opts polls).run m.behaviour []).1) :
    Spares m.processes ((evictRunning opts polls).run m.behaviour []).1
        ((evictRunning opts polls).run m.behaviour []).2 ↔
      PidfileOwn m.processes ((evictRunning opts polls).run m.behaviour []).1 := by
  have hstart : Kept ⟨[], none, none⟩ ⟨[], none, none⟩ := Kept.refl rfl
  have hps := fun time pid command => Inquiry.run_answered (evictRunning opts polls) m.behaviour []
    (i := time) (q := .ps pid) (a := some (some command)) (Nat.zero_le time)
  obtain ⟨asked, hlog, haccepts, hkept, hreturned⟩ :=
    Inquiry.run_watched (evictRunning_watched opts polls hstart) m.behaviour []
  rw [List.nil_append] at hlog
  rw [hlog] at hps hsteady ⊢
  generalize ((evictRunning opts polls).run m.behaviour []).2 = result at hreturned ⊢
  constructor
  · intro hspares time e pid he hnamed
    obtain ⟨e', he', hsignalled⟩ := signalled_of_named haccepts hkept.expected he hnamed
    exact hspares.harmless (time + 1) e' pid he' hsignalled
  · intro hpidfile
    refine ⟨harmless_of_accepts rfl haccepts hsteady ?_ hpidfile, ?_⟩
    · intro time pid command hentry
      obtain ⟨before, rfl, hanswer⟩ := hps time pid command hentry
      exact m.ps_eq before pid command hanswer
    · intro hresult
      have hreleased := hreturned hresult
      rwa [foldl_observe_released, Option.or_none] at hreleased

/-- A port that is held until the first signal, and nobody who answers on it. -/
def stuck (pidfile : String) (command : ℕ → Option String) : Machine where
  behaviour log
    | .fetch _ _ => some false
    | .now => some (0 : ℤ)
    | .sleep _ => some ()
    | .probePort _ => some (decide (log.length < 3))
    | .readPidfile => some (some pidfile)
    | .lsof _ => some (none : Option String)
    | .ps pid => some (command pid)
    | .kill _ _ => some true
  processes _ := command
  ps_eq _ _ _ h := Option.some.inj h

/-- One process, with the pid 42. -/
def onlyProcess (command : String) (pid : ℕ) : Option String :=
  if pid = 42 then some command else none

theorem isForeign_onlyProcess {command : String} {pid : ℕ}
    (h : IsForeign (onlyProcess command pid)) :
    looksLikeMaximalCommand command = false := by
  obtain ⟨command', heq, hforeign⟩ := h
  by_cases hpid : pid = 42
  · obtain rfl := Option.some.inj ((if_pos hpid).symm.trans heq)
    exact hforeign
  · exact absurd ((if_neg hpid).symm.trans heq).symm (Option.some_ne_none command')

/-- A proxy that is stuck is killed. -/
theorem evictRunning_spares_stuck :
    let m := stuck "42" (onlyProcess "/usr/local/bin/maximal start")
    let run := (evictRunning {} 0).run m.behaviour []
    Spares m.processes run.1 run.2 ∧ run.2 = some (some .returned) := by
  have hown : looksLikeMaximalCommand "/usr/local/bin/maximal start" = true := by decide +kernel
  refine ⟨(evictRunning_spares_iff _ {} 0 fun _ _ _ _ _ _ _ _ _ _ _ _ h => h).2
    fun _ _ _ _ _ hforeign => ?_, by decide +kernel⟩
  exact absurd (hown.symm.trans (isForeign_onlyProcess hforeign)) (by decide)

/-- A pidfile that was left behind, and its pid with another program. -/
theorem stale_pidfile_signalled :
    let m := stuck "42" (onlyProcess "/usr/lib/postgresql/postgres")
    let run := (evictRunning {} 0).run m.behaviour []
    Steady m.processes run.1 ∧ (run.1[3]?).bind signalled = some 42 ∧
      IsForeign (m.processes 3 42) ∧ ¬Spares m.processes run.1 run.2 := by
  intro m run
  have hsignalled : (run.1[3]?).bind signalled = some 42 := by decide +kernel
  have hforeign : IsForeign (m.processes 3 42) :=
    ⟨"/usr/lib/postgresql/postgres", by decide +kernel, by decide +kernel⟩
  refine ⟨fun _ _ _ _ _ _ _ _ _ _ _ _ h => h, hsignalled, hforeign, fun hspares => ?_⟩
  obtain ⟨e, hentry, hpid⟩ := Option.bind_eq_some_iff.1 hsignalled
  exact hspares.harmless 3 e 42 hentry hpid hforeign

end Maximal.Platform
