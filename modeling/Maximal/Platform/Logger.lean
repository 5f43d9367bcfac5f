import Maximal.Lib.Js.OrderedMap
import Maximal.Platform.ProcessCleanup

/-!
# Log files

The lines of a log wait in a buffer for each file until a timer, a full buffer or the clean-up of
the process hands them to the stream of that file.

## Main definitions

- `LogFiles` — the buffers, the streams and what they were handed
- `LogFiles.appendLine`, `flushBuffer`, `cleanup`
- `LoggingProcess.step` — lines, timers, streams that break, and the clean-ups of the process

## Main results

- `LogFiles.Kept` — no line is lost, doubled or handed to a stream that has ended
- `exit_flushes_log`
-/

namespace Maximal.Platform

open Js Runs

def MAX_BUFFER_SIZE : ℕ := 100

structure LogStream where
  path : String
  destroyed : Bool
  ended : Bool
  deriving DecidableEq

/-- A call of `write`. -/
structure LogWrite where
  path : String
  stream : LogStream
  content : List Char
  deriving DecidableEq

structure LogFiles where
  logBuffers : OrderedMap String (List String)
  /-- The index of the stream of each file. -/
  logStreams : OrderedMap String ℕ
  opened : List LogStream
  writes : List LogWrite
  /-- Whether the timer is set. -/
  flushInterval : Bool
  runtimeInitialized : Bool
  /-- The lines of all files so far. -/
  logged : List (String × String)

namespace LogFiles

def start : LogFiles := ⟨.empty, .empty, [], [], false, false, []⟩

/-- With a log directory that can be made and listed: who fails here is not tried again. -/
def initializeLoggerRuntime (f : LogFiles) : LogFiles :=
  if f.runtimeInitialized then f else { f with runtimeInitialized := true, flushInterval := true }

def createWriteStream (f : LogFiles) (filePath : String) : LogFiles × LogStream :=
  let stream : LogStream := ⟨filePath, false, false⟩
  ({ f with
      opened := f.opened ++ [stream], logStreams := f.logStreams.set filePath f.opened.length },
    stream)

def getLogStream (f : LogFiles) (filePath : String) : LogFiles × LogStream :=
  match (f.logStreams.get filePath).bind (f.opened[·]?) with
  | none => f.createWriteStream filePath
  | some stream => if stream.destroyed then f.createWriteStream filePath else (f, stream)

/-- `buffer.join("\n") + "\n"` -/
def contentOf (buffer : List String) : List Char :=
  ['\n'].intercalate (buffer.map String.toList) ++ ['\n']

def buffer (f : LogFiles) (filePath : String) : List String := (f.logBuffers.get filePath).getD []

def write (f : LogFiles) (filePath : String) (stream : LogStream) (content : List Char) :
    LogFiles :=
  { f with
    writes := f.writes ++ [⟨filePath, stream, content⟩]
    logBuffers := f.logBuffers.set filePath [] }

def flushBuffer (f : LogFiles) (filePath : String) : LogFiles :=
  if f.buffer filePath = [] then f
  else
    let (f', stream) := f.getLogStream filePath
    f'.write filePath stream (contentOf (f.buffer filePath))

def flushAllBuffers (f : LogFiles) : LogFiles := f.logBuffers.keys.foldl flushBuffer f

/-- The streams that the map holds end. -/
def endStreams (f : LogFiles) : List LogStream :=
  f.opened.mapIdx fun i stream =>
    if i ∈ f.logStreams.entries.map Prod.snd then { stream with ended := true } else stream

def cleanup (f : LogFiles) : LogFiles :=
  let f := f.flushAllBuffers
  { f with
    flushInterval := false, opened := f.endStreams, logStreams := .empty, logBuffers := .empty }

def push (f : LogFiles) (filePath line : String) : LogFiles :=
  { f with
    logBuffers := f.logBuffers.set filePath (f.buffer filePath ++ [line])
    logged := f.logged ++ [(filePath, line)] }

def appendLine (f : LogFiles) (filePath line : String) : LogFiles :=
  let f := f.push filePath line
  if MAX_BUFFER_SIZE ≤ (f.buffer filePath).length then f.flushBuffer filePath else f

/-- A stream that breaks; its error is told later. -/
def destroyStream (f : LogFiles) (i : ℕ) : LogFiles :=
  { f with opened := f.opened.modify i fun stream => { stream with destroyed := true } }

/-- The error of a stream: whatever stream its file has now is dropped. -/
def streamError (f : LogFiles) (i : ℕ) : LogFiles :=
  match f.opened[i]? with
  | none => f
  | some stream => { f with logStreams := f.logStreams.delete stream.path }

/-! ## Lines and text -/

/-- Each line with its end. -/
def textOf (lines : List String) : List Char := lines.flatMap fun line => line.toList ++ ['\n']

/-- The lines of a file. -/
def linesOf (filePath : String) (logged : List (String × String)) : List String :=
  (logged.filter (·.1 = filePath)).map Prod.snd

/-- What is written to a file. -/
def contentsOf (filePath : String) (writes : List LogWrite) : List Char :=
  (writes.filter (·.path = filePath)).flatMap LogWrite.content

/-- What the streams of a file were handed. -/
def handed (f : LogFiles) (filePath : String) : List Char := contentsOf filePath f.writes

/-- No line is lost or doubled, and no stream is written to after its end. -/
structure Consistent (f : LogFiles) : Prop where
  conserved : ∀ filePath,
    f.handed filePath ++ textOf (f.buffer filePath) = textOf (linesOf filePath f.logged)
  streams : ∀ filePath i, f.logStreams.get filePath = some i →
    ∃ stream, f.opened[i]? = some stream ∧ stream.path = filePath ∧ stream.ended = false
  writes : ∀ write ∈ f.writes,
    write.stream.path = write.path ∧ write.stream.ended = false ∧ write.stream.destroyed = false

structure Kept (f : LogFiles) : Prop extends Consistent f where
  bounded : ∀ filePath, (f.buffer filePath).length < MAX_BUFFER_SIZE

theorem contentOf_eq {buffer : List String} (h : buffer ≠ []) : contentOf buffer = textOf buffer := by
  induction buffer with
  | nil => exact absurd rfl h
  | cons line lines ih =>
    cases lines with
    | nil => simp [contentOf, textOf]
    | cons line' lines =>
      have hrest := ih (List.cons_ne_nil _ _)
      rw [textOf, List.flatMap_cons, ← textOf, ← hrest]
      simp [contentOf]

theorem textOf_append (lines lines' : List String) :
    textOf (lines ++ lines') = textOf lines ++ textOf lines' := List.flatMap_append

theorem contentsOf_concat (filePath : String) (writes : List LogWrite) (write : LogWrite) :
    contentsOf filePath (writes ++ [write]) =
      contentsOf filePath writes ++ if write.path = filePath then write.content else [] := by
  rw [contentsOf, List.filter_append, List.flatMap_append, contentsOf]
  split
  · next hpath => simp [hpath]
  · next hpath => simp [hpath]

theorem linesOf_append (filePath : String) (logged logged' : List (String × String)) :
    linesOf filePath (logged ++ logged') = linesOf filePath logged ++ linesOf filePath logged' := by
  rw [linesOf, List.filter_append, List.map_append]
  rfl

theorem buffer_set (f : LogFiles) (filePath filePath' : String) (lines : List String) :
    buffer { f with logBuffers := f.logBuffers.set filePath lines } filePath' =
      if filePath' = filePath then lines else f.buffer filePath' := by
  rw [buffer, OrderedMap.get_set]
  split <;> rfl

/-! ## Streams -/

/-- Whatever was written and waits stays as it is, and the stream is one to write to. -/
structure Reached (f : LogFiles) (filePath : String) (r : LogFiles × LogStream) : Prop where
  logBuffers : r.1.logBuffers = f.logBuffers
  written : r.1.writes = f.writes
  logged : r.1.logged = f.logged
  consistent : Consistent r.1
  path : r.2.path = filePath
  ended : r.2.ended = false
  destroyed : r.2.destroyed = false

theorem Consistent.createWriteStream {f : LogFiles} (h : Consistent f) (filePath : String) :
    Reached f filePath (f.createWriteStream filePath) := by
  refine ⟨rfl, rfl, rfl, ⟨h.conserved, fun path i hget => ?_, h.writes⟩, rfl, rfl, rfl⟩
  rw [LogFiles.createWriteStream] at hget ⊢
  dsimp only at hget ⊢
  rw [OrderedMap.get_set] at hget
  split at hget
  · next hpath =>
    obtain rfl := Option.some.inj hget
    exact ⟨⟨filePath, false, false⟩, List.getElem?_concat_length, hpath.symm, rfl⟩
  · obtain ⟨stream, hopened, hstream⟩ := h.streams path i hget
    have hlt := (List.getElem?_eq_some_iff.1 hopened).1
    exact ⟨stream, by rw [List.getElem?_append_left hlt, hopened], hstream⟩

theorem Consistent.getLogStream {f : LogFiles} (h : Consistent f) (filePath : String) :
    Reached f filePath (f.getLogStream filePath) := by
  rw [LogFiles.getLogStream]
  cases hstream : (f.logStreams.get filePath).bind (f.opened[·]?) with
  | none => exact h.createWriteStream filePath
  | some stream =>
    obtain ⟨i, hget, hopened⟩ := Option.bind_eq_some_iff.1 hstream
    obtain ⟨stream', hopened', hpath, hended⟩ := h.streams filePath i hget
    obtain rfl := Option.some.inj (hopened.symm.trans hopened')
    dsimp only
    split
    · exact h.createWriteStream filePath
    · next hdestroyed =>
      exact ⟨rfl, rfl, rfl, h, hpath, hended, Bool.eq_false_iff.2 hdestroyed⟩

/-! ## Flushes -/

/-- The buffer is handed over, the others wait on. -/
structure Flushed (f : LogFiles) (filePath : String) (f' : LogFiles) : Prop where
  consistent : Consistent f'
  buffer : ∀ path, f'.buffer path = if path = filePath then [] else f.buffer path
  logged : f'.logged = f.logged

/-- A write of all that waits. -/
theorem Consistent.write {f : LogFiles} (h : Consistent f) {filePath : String} {stream : LogStream}
    (hne : f.buffer filePath ≠ []) (hpath : stream.path = filePath) (hended : stream.ended = false)
    (hdestroyed : stream.destroyed = false) :
    Flushed f filePath (f.write filePath stream (contentOf (f.buffer filePath))) := by
  have hbuffer : ∀ path, (f.write filePath stream (contentOf (f.buffer filePath))).buffer path =
      if path = filePath then [] else f.buffer path := fun path => buffer_set f filePath path []
  refine ⟨⟨fun path => ?_, h.streams, fun write hwrite => ?_⟩, hbuffer, rfl⟩
  · have hwrites : (f.write filePath stream (contentOf (f.buffer filePath))).writes =
        f.writes ++ [⟨filePath, stream, contentOf (f.buffer filePath)⟩] := rfl
    rw [handed, hwrites, contentsOf_concat, hbuffer, List.append_assoc, LogFiles.write,
      ← h.conserved path, handed]
    refine congrArg _ ?_
    by_cases hsame : path = filePath
    · rw [if_pos hsame.symm, if_pos hsame, contentOf_eq hne, hsame]
      exact List.append_nil _
    · rw [if_neg (Ne.symm hsame), if_neg hsame, List.nil_append]
  · obtain hwrite | hwrite := List.mem_append.1 hwrite
    · exact h.writes write hwrite
    · obtain rfl := List.mem_singleton.1 hwrite
      exact ⟨hpath, hended, hdestroyed⟩

theorem Consistent.flushBuffer {f : LogFiles} (h : Consistent f) (filePath : String) :
    Flushed f filePath (f.flushBuffer filePath) := by
  rw [LogFiles.flushBuffer]
  split
  · next hnil =>
    refine ⟨h, fun path => ?_, rfl⟩
    split
    · next hpath => rw [hpath, hnil]
    · rfl
  · next hne =>
    have hreached := h.getLogStream filePath
    generalize f.getLogStream filePath = r at hreached ⊢
    have hbuffer : ∀ path, r.1.buffer path = f.buffer path := fun path => by
      rw [buffer, buffer, hreached.logBuffers]
    have hflushed := @Consistent.write r.1 hreached.consistent filePath r.2
      (by rw [hbuffer]; exact hne) hreached.path hreached.ended hreached.destroyed
    rw [hbuffer] at hflushed
    refine ⟨hflushed.consistent, fun path => ?_, hflushed.logged.trans hreached.logged⟩
    rw [← hbuffer path]
    exact hflushed.buffer path

/-- Nothing waits any more. -/
structure AllFlushed (f f' : LogFiles) : Prop where
  consistent : Consistent f'
  buffer : ∀ path, f'.buffer path = []
  logged : f'.logged = f.logged

theorem Consistent.foldl_flushBuffer {f : LogFiles} (h : Consistent f) (paths : List String) :
    Consistent (paths.foldl LogFiles.flushBuffer f) ∧
      (∀ path, (paths.foldl LogFiles.flushBuffer f).buffer path =
        if path ∈ paths then [] else f.buffer path) ∧
      (paths.foldl LogFiles.flushBuffer f).logged = f.logged := by
  induction paths generalizing f with
  | nil => exact ⟨h, fun path => rfl, rfl⟩
  | cons filePath paths ih =>
    obtain ⟨hconsistent, hbuffer, hlogged⟩ := h.flushBuffer filePath
    obtain ⟨hrest, hbuffers, hloggeds⟩ := ih hconsistent
    refine ⟨hrest, fun path => ?_, hloggeds.trans hlogged⟩
    rw [List.foldl_cons, hbuffers, hbuffer]
    by_cases hpath : path ∈ paths
    · rw [if_pos hpath, if_pos (List.mem_cons_of_mem _ hpath)]
    · by_cases hsame : path = filePath
      · rw [if_neg hpath, if_pos hsame, if_pos (by rw [hsame]; exact List.mem_cons_self)]
      · rw [if_neg hpath, if_neg hsame, if_neg (by rw [List.mem_cons]; exact not_or.2 ⟨hsame, hpath⟩)]

theorem Consistent.flushAllBuffers {f : LogFiles} (h : Consistent f) :
    AllFlushed f f.flushAllBuffers := by
  obtain ⟨hconsistent, hbuffer, hlogged⟩ := h.foldl_flushBuffer f.logBuffers.keys
  refine ⟨hconsistent, fun path => ?_, hlogged⟩
  rw [LogFiles.flushAllBuffers, hbuffer]
  split
  · rfl
  · next hnone =>
    -- a file without an entry has no lines that wait
    rw [buffer]
    cases hget : f.logBuffers.get path with
    | none => rfl
    | some lines =>
      rw [OrderedMap.get_eq_some_iff] at hget
      exact absurd ((OrderedMap.mem_keys _ _).2 ⟨lines, hget⟩) hnone

/-! ## Operations -/

theorem AllFlushed.kept {f f' : LogFiles} (h : AllFlushed f f') : Kept f' where
  toConsistent := h.consistent
  bounded path := by
    rw [h.buffer]
    decide

theorem Consistent.cleanup {f : LogFiles} (h : Consistent f) : AllFlushed f f.cleanup := by
  obtain ⟨hconsistent, hbuffer, hlogged⟩ := h.flushAllBuffers
  have hempty : ∀ path, f.cleanup.buffer path = [] := fun path => rfl
  refine ⟨⟨fun path => ?_, nofun, hconsistent.writes⟩, hempty, hlogged⟩
  have hconserved := hconsistent.conserved path
  rw [hbuffer] at hconserved
  exact hconserved

theorem buffer_push (f : LogFiles) (filePath line path : String) :
    (f.push filePath line).buffer path =
      if path = filePath then f.buffer filePath ++ [line] else f.buffer path :=
  buffer_set f filePath path _

theorem Consistent.push {f : LogFiles} (h : Consistent f) (filePath line : String) :
    Consistent (f.push filePath line) := by
  refine ⟨fun path => ?_, h.streams, h.writes⟩
  have hlogged : (f.push filePath line).logged = f.logged ++ [(filePath, line)] := rfl
  have hhanded : (f.push filePath line).handed path = f.handed path := rfl
  rw [hlogged, linesOf_append, textOf_append, ← h.conserved path, buffer_push, hhanded,
    List.append_assoc]
  refine congrArg _ ?_
  by_cases hpath : path = filePath
  · rw [if_pos hpath, textOf_append, hpath]
    simp [linesOf]
  · rw [if_neg hpath]
    simp [linesOf, Ne.symm hpath, textOf]

namespace Kept

variable {f : LogFiles}

theorem initializeLoggerRuntime (h : Kept f) : Kept f.initializeLoggerRuntime := by
  rw [LogFiles.initializeLoggerRuntime]
  split
  · exact h
  · exact ⟨⟨h.conserved, h.streams, h.writes⟩, h.bounded⟩

theorem appendLine (h : Kept f) (filePath line : String) : Kept (f.appendLine filePath line) := by
  have hpush := h.toConsistent.push filePath line
  rw [LogFiles.appendLine]
  split
  · obtain ⟨hconsistent, hbuffer, -⟩ := hpush.flushBuffer filePath
    refine ⟨hconsistent, fun path => ?_⟩
    rw [hbuffer]
    split
    · decide
    · next hpath =>
      rw [buffer_push, if_neg hpath]
      exact h.bounded path
  · next hroom =>
    refine ⟨hpush, fun path => ?_⟩
    by_cases hpath : path = filePath
    · rw [hpath]
      exact Nat.not_le.1 hroom
    · rw [buffer_push, if_neg hpath]
      exact h.bounded path

theorem destroyStream (h : Kept f) (i : ℕ) : Kept (f.destroyStream i) := by
  refine ⟨⟨h.conserved, fun path j hget => ?_, h.writes⟩, h.bounded⟩
  obtain ⟨stream, hopened, hpath, hended⟩ := h.streams path j hget
  show ∃ stream, (f.opened.modify i _)[j]? = some stream ∧ _
  rw [List.getElem?_modify, hopened]
  refine ⟨_, rfl, ?_⟩
  dsimp only
  split
  · exact ⟨hpath, hended⟩
  · exact ⟨hpath, hended⟩

theorem streamError (h : Kept f) (i : ℕ) : Kept (f.streamError i) := by
  rw [LogFiles.streamError]
  cases f.opened[i]? with
  | none => exact h
  | some stream =>
    refine ⟨⟨h.conserved, fun path j hget => ?_, h.writes⟩, h.bounded⟩
    dsimp only at hget
    rw [OrderedMap.get_delete, Option.ite_none_left_eq_some] at hget
    exact h.streams path j hget.2

end Kept

/-! ## What only grows -/

structure Extends (f f' : LogFiles) : Prop where
  writes : f.writes <+: f'.writes
  logged : f.logged <+: f'.logged
  runtimeInitialized : f'.runtimeInitialized = f.runtimeInitialized

namespace Extends

theorem of_eq {f f' : LogFiles} (hwrites : f'.writes = f.writes) (hlogged : f'.logged = f.logged)
    (hinitialized : f'.runtimeInitialized = f.runtimeInitialized) : Extends f f' :=
  ⟨hwrites ▸ List.prefix_rfl, hlogged ▸ List.prefix_rfl, hinitialized⟩

theorem trans {f f' f'' : LogFiles} (h : Extends f f') (h' : Extends f' f'') : Extends f f'' :=
  ⟨h.writes.trans h'.writes, h.logged.trans h'.logged,
    h'.runtimeInitialized.trans h.runtimeInitialized⟩

variable (f : LogFiles) (filePath : String)

theorem getLogStream : Extends f (f.getLogStream filePath).1 := by
  rw [LogFiles.getLogStream]
  split
  · exact of_eq rfl rfl rfl
  · split <;> exact of_eq rfl rfl rfl

theorem flushBuffer : Extends f (f.flushBuffer filePath) := by
  rw [LogFiles.flushBuffer]
  split
  · exact of_eq rfl rfl rfl
  · exact (getLogStream f filePath).trans ⟨List.prefix_append _ _, List.prefix_rfl, rfl⟩

theorem flushAllBuffers : Extends f f.flushAllBuffers := by
  have hfold : ∀ (paths : List String) (f : LogFiles),
      Extends f (paths.foldl LogFiles.flushBuffer f) := by
    intro paths
    induction paths with
    | nil => exact fun f => of_eq rfl rfl rfl
    | cons path paths ih => exact fun f => (flushBuffer f path).trans (ih _)
  exact hfold _ f

theorem cleanup : Extends f f.cleanup := (flushAllBuffers f).trans (of_eq rfl rfl rfl)

theorem appendLine (line : String) : Extends f (f.appendLine filePath line) := by
  have hpush : Extends f (f.push filePath line) :=
    ⟨List.prefix_rfl, List.prefix_append _ _, rfl⟩
  rw [LogFiles.appendLine]
  split
  · exact hpush.trans (flushBuffer _ _)
  · exact hpush

theorem destroyStream (i : ℕ) : Extends f (f.destroyStream i) := of_eq rfl rfl rfl

theorem streamError (i : ℕ) : Extends f (f.streamError i) := by
  rw [LogFiles.streamError]
  split <;> exact of_eq rfl rfl rfl

variable {f}

/-- What was handed over stays so. -/
theorem handed {f' : LogFiles} (h : Extends f f') : f.handed filePath <+: f'.handed filePath := by
  obtain ⟨more, hmore⟩ := h.writes
  rw [LogFiles.handed, LogFiles.handed, ← hmore, contentsOf, contentsOf, List.filter_append,
    List.flatMap_append]
  exact List.prefix_append _ _

end Extends

end LogFiles

/-! ## The log of a process -/

/-- A clean-up of the process: that of the log, or another one. -/
inductive Handler where
  | logger
  | other (id : ℕ)
  deriving DecidableEq

structure LoggingProcess where
  cleanups : Cleanups Handler
  log : LogFiles

inductive LoggingEvent where
  | log (filePath line : String)
  | flushTimer
  | destroyStream (i : ℕ)
  | streamError (i : ℕ)
  | cleanup (e : CleanupEvent Handler)

namespace LoggingProcess

def start : LoggingProcess := ⟨Cleanups.start, LogFiles.start⟩

/-- The first line registers the clean-up of the log. -/
def appendLine (p : LoggingProcess) (filePath line : String) : LoggingProcess where
  cleanups :=
    if p.log.runtimeInitialized then p.cleanups
    else p.cleanups.registerProcessCleanup .logger
  log := p.log.initializeLoggerRuntime.appendLine filePath line

/-- The log is cleaned up as soon as its handler is started. -/
def withCleanups (p : LoggingProcess) (cleanups : Cleanups Handler) : LoggingProcess where
  cleanups := cleanups
  log := if .logger ∈ cleanups.started ∧ .logger ∉ p.cleanups.started then p.log.cleanup else p.log

/-- Only the log registers its clean-up, and it does not take it back. -/
def step (e : LoggingEvent) (p : LoggingProcess) : Option LoggingProcess :=
  if p.cleanups.exited then none
  else
    match e with
    | .log filePath line => some (p.appendLine filePath line)
    | .flushTimer =>
      if p.log.flushInterval then some { p with log := p.log.flushAllBuffers } else none
    | .destroyStream i => some { p with log := p.log.destroyStream i }
    | .streamError i => some { p with log := p.log.streamError i }
    | .cleanup (.register .logger) | .cleanup (.unregister .logger) => none
    | .cleanup e => (p.cleanups.step e).map p.withCleanups

open LogFiles in
/-- What has been logged up to some time before the clean-ups. -/
structure Guarded (logged : List (String × String)) (p : LoggingProcess) : Prop where
  kept : p.log.Kept
  sound : p.cleanups.Sound
  before : logged <+: p.log.logged
  quiet : p.log.runtimeInitialized = false → p.log.logged = []
  registered : p.cleanups.phase = .idle → p.log.runtimeInitialized = true →
    .logger ∈ p.cleanups.cleanupHandlers
  begun : p.cleanups.phase ≠ .idle → logged ≠ [] → .logger ∈ p.cleanups.snapshot
  flushed : .logger ∈ p.cleanups.started →
    ∀ filePath, LogFiles.textOf (LogFiles.linesOf filePath logged) <+: p.log.handed filePath

theorem text_prefix {logged logged' : List (String × String)} (h : logged <+: logged')
    (filePath : String) :
    LogFiles.textOf (LogFiles.linesOf filePath logged) <+:
      LogFiles.textOf (LogFiles.linesOf filePath logged') := by
  obtain ⟨more, rfl⟩ := h
  rw [LogFiles.linesOf_append, LogFiles.textOf_append]
  exact List.prefix_append _ _

namespace Guarded

variable {logged : List (String × String)} {p p' : LoggingProcess}

/-- The files go on while the clean-ups stay as they are. -/
theorem log (h : Guarded logged p) {f : LogFiles} (hkept : f.Kept) (hextends : p.log.Extends f)
    (hquiet : f.runtimeInitialized = false → f.logged = []) :
    Guarded logged { p with log := f } where
  kept := hkept
  sound := h.sound
  before := h.before.trans hextends.logged
  quiet := hquiet
  registered hidle hinitialized :=
    h.registered hidle (hextends.runtimeInitialized.symm.trans hinitialized)
  begun := h.begun
  flushed hstarted filePath := (h.flushed hstarted filePath).trans (hextends.handed filePath)

theorem quiet_of_extends (h : Guarded logged p) {f : LogFiles} (hextends : p.log.Extends f)
    (hlogged : f.logged = p.log.logged) (hquiet : f.runtimeInitialized = false) :
    f.logged = [] := by
  rw [hlogged]
  exact h.quiet (hextends.runtimeInitialized.symm.trans hquiet)

/-- The first line sets up the log; nothing has been logged before. -/
theorem registers (h : Guarded logged p) (hfirst : p.log.runtimeInitialized = false) :
    Guarded logged
      ⟨p.cleanups.registerProcessCleanup .logger, p.log.initializeLoggerRuntime⟩ := by
  have hstays := Cleanups.registerProcessCleanup_stays p.cleanups Handler.logger
  have hinitialized : p.log.initializeLoggerRuntime =
      { p.log with runtimeInitialized := true, flushInterval := true } := by
    rw [LogFiles.initializeLoggerRuntime, hfirst, if_neg Bool.false_ne_true]
  refine ⟨h.kept.initializeLoggerRuntime, h.sound.registerProcessCleanup _, ?_, ?_, ?_, ?_, ?_⟩
  · rw [hinitialized]
    exact h.before
  · rw [hinitialized]
    exact nofun
  · exact fun _ _ => Cleanups.mem_registerProcessCleanup p.cleanups _
  · intro _ hne
    have hnil := h.before
    rw [h.quiet hfirst, List.prefix_nil] at hnil
    exact absurd hnil hne
  · intro hstarted filePath
    rw [hinitialized]
    exact h.flushed (hstays.2.2 ▸ hstarted) filePath

theorem appendLine (h : Guarded logged p) (filePath line : String) :
    Guarded logged (p.appendLine filePath line) := by
  rw [LoggingProcess.appendLine]
  cases hfirst : p.log.runtimeInitialized with
  | true =>
    have hsame : p.log.initializeLoggerRuntime = p.log := by
      rw [LogFiles.initializeLoggerRuntime, hfirst, if_pos rfl]
    rw [hsame]
    have hextends := LogFiles.Extends.appendLine p.log filePath line
    refine h.log (h.kept.appendLine filePath line) hextends fun hquiet => ?_
    rw [hextends.runtimeInitialized, hfirst] at hquiet
    cases hquiet
  | false =>
    have hregisters := h.registers hfirst
    have hextends := LogFiles.Extends.appendLine p.log.initializeLoggerRuntime filePath line
    refine hregisters.log (hregisters.kept.appendLine filePath line) hextends fun hquiet => ?_
    rw [hextends.runtimeInitialized, LogFiles.initializeLoggerRuntime, hfirst] at hquiet
    cases hquiet

theorem withCleanups (h : Guarded logged p) {c : Cleanups Handler} (hsound : c.Sound)
    (hfollows : p.cleanups.Follows c)
    (hhandlers : .logger ∈ p.cleanups.cleanupHandlers → .logger ∈ c.cleanupHandlers) :
    Guarded logged (p.withCleanups c) := by
  have hnew : ∀ filePath,
      LogFiles.textOf (LogFiles.linesOf filePath logged) <+: p.log.cleanup.handed filePath := by
    intro filePath
    obtain ⟨hconsistent, hbuffer, hlogged⟩ := h.kept.toConsistent.cleanup
    have hconserved := hconsistent.conserved filePath
    rw [hbuffer, hlogged] at hconserved
    have hall : p.log.cleanup.handed filePath =
        LogFiles.textOf (LogFiles.linesOf filePath p.log.logged) :=
      (List.append_nil _).symm.trans hconserved
    rw [hall]
    exact text_prefix h.before filePath
  have hextends : p.log.Extends (p.withCleanups c).log := by
    rw [LoggingProcess.withCleanups]
    split
    · exact LogFiles.Extends.cleanup p.log
    · exact .of_eq rfl rfl rfl
  have hlogged : (p.withCleanups c).log.logged = p.log.logged := by
    rw [LoggingProcess.withCleanups]
    split
    · exact h.kept.toConsistent.cleanup.logged
    · rfl
  refine ⟨?_, hsound, hlogged ▸ h.before, h.quiet_of_extends hextends hlogged, ?_, ?_, ?_⟩
  · rw [LoggingProcess.withCleanups]
    split
    · exact h.kept.toConsistent.cleanup.kept
    · exact h.kept
  · intro hidle hinitialized
    rw [hextends.runtimeInitialized] at hinitialized
    obtain ⟨-, hbegun, -⟩ | ⟨-, hbegun, -⟩ | ⟨hidle', -⟩ := hfollows
    · exact absurd hidle hbegun
    · exact absurd hidle hbegun
    · exact hhandlers (h.registered hidle' hinitialized)
  · intro hbegun hne
    obtain ⟨hbegun', -, hsnapshot, -⟩ | ⟨hidle, -, hsnapshot⟩ | ⟨-, hidle⟩ := hfollows
    · exact hsnapshot ▸ h.begun hbegun' hne
    · have hinitialized : p.log.runtimeInitialized = true := by
        by_contra hfirst
        have hnil := h.before
        rw [h.quiet (Bool.eq_false_iff.2 hfirst), List.prefix_nil] at hnil
        exact hne hnil
      exact hsnapshot ▸ h.registered hidle hinitialized
    · exact absurd hidle hbegun
  · intro hstarted filePath
    by_cases hbefore : .logger ∈ p.cleanups.started
    · exact (h.flushed hbefore filePath).trans (hextends.handed filePath)
    · rw [LoggingProcess.withCleanups, if_pos ⟨hstarted, hbefore⟩]
      exact hnew filePath

theorem step {e : LoggingEvent} (h : Guarded logged p) (hstep : p.step e = some p') :
    Guarded logged p' := by
  unfold LoggingProcess.step at hstep
  replace hstep := (Option.ite_none_left_eq_some.1 hstep).2
  split at hstep
  · next filePath line =>
    obtain rfl := Option.some.inj hstep
    exact h.appendLine filePath line
  · obtain rfl := Option.some.inj (Option.ite_none_right_eq_some.1 hstep).2
    have hflushed := h.kept.toConsistent.flushAllBuffers
    have hextends := LogFiles.Extends.flushAllBuffers p.log
    exact h.log hflushed.kept hextends (h.quiet_of_extends hextends hflushed.logged)
  · next i =>
    obtain rfl := Option.some.inj hstep
    have hextends := LogFiles.Extends.destroyStream p.log i
    exact h.log (h.kept.destroyStream i) hextends (h.quiet_of_extends hextends rfl)
  · next i =>
    obtain rfl := Option.some.inj hstep
    have hextends := LogFiles.Extends.streamError p.log i
    refine h.log (h.kept.streamError i) hextends (h.quiet_of_extends hextends ?_)
    rw [LogFiles.streamError]
    cases p.log.opened[i]? <;> rfl
  · cases hstep
  · cases hstep
  · next e _ hother =>
    obtain ⟨c, hc, rfl⟩ := Option.map_eq_some_iff.1 hstep
    refine h.withCleanups (h.sound.step hc) (Cleanups.follows_of_step hc) fun hmem => ?_
    exact Cleanups.mem_cleanupHandlers_of_step hc hmem hother

/-- Before the clean-ups, everything that has been logged so far is guarded. -/
theorem of_idle (h : Guarded [] p) (hidle : p.cleanups.phase = .idle) :
    Guarded p.log.logged p where
  kept := h.kept
  sound := h.sound
  before := List.prefix_rfl
  quiet := h.quiet
  registered := h.registered
  begun hbegun := absurd hidle hbegun
  flushed hstarted := by
    have hsplit := h.sound.split
    unfold Cleanups.Split at hsplit
    rw [hidle] at hsplit
    rw [hsplit.1] at hstarted
    cases hstarted

theorem start : Guarded [] LoggingProcess.start where
  kept := {
    conserved := fun _ => rfl
    streams := nofun
    writes := nofun
    bounded := fun _ => Nat.zero_lt_succ 99 }
  sound := Cleanups.Sound.start
  before := List.prefix_rfl
  quiet _ := rfl
  registered := nofun
  begun hbegun := absurd rfl hbegun
  flushed := nofun

theorem of_exec {events : List LoggingEvent} (h : Guarded logged p)
    (hexec : exec LoggingProcess.step events p = some p') : Guarded logged p' :=
  exec_preserves (fun _ _ _ hguarded => hguarded.step) h hexec

end Guarded

end LoggingProcess

/-- At any time what the streams of a file were handed, and then the lines that wait for it, are its
lines in their order; fewer than a hundred wait, and no stream is written to that has ended. When
the process ends and its clean-ups were not cut short, every line that was logged before they began
has been handed over. -/
theorem exit_flushes_log {before after : List LoggingEvent} {p q : LoggingProcess}
    (hbefore : exec LoggingProcess.step before LoggingProcess.start = some p)
    (hidle : p.cleanups.phase = .idle) (hafter : exec LoggingProcess.step after p = some q) :
    q.log.Kept ∧
    (q.cleanups.exited = true → ¬ q.cleanups.Cut → ∀ filePath,
      LogFiles.textOf (LogFiles.linesOf filePath p.log.logged) <+: q.log.handed filePath) := by
  have hguarded := ((LoggingProcess.Guarded.start.of_exec hbefore).of_idle hidle).of_exec hafter
  refine ⟨hguarded.kept, fun hexited hcut filePath => ?_⟩
  have hdone : q.cleanups.phase = .done := by
    by_contra hphase
    exact hcut ⟨hexited, hphase⟩
  by_cases hnone : p.log.logged = []
  · rw [hnone]
    exact List.nil_prefix
  · have hsnapshot := hguarded.begun (by rw [hdone]; exact nofun) hnone
    rw [← hguarded.sound.started_eq hdone] at hsnapshot
    exact hguarded.flushed hsnapshot filePath

/-- A process that logs a line and exits at once. -/
theorem exit_flushes_log_exit :
    ∃ q, exec LoggingProcess.step [.cleanup .exit] (LoggingProcess.start.appendLine "a" "x") =
        some q ∧
      LogFiles.textOf ["x"] <+: q.log.handed "a" := by
  have hbefore : exec LoggingProcess.step [.log "a" "x"] LoggingProcess.start =
      some (LoggingProcess.start.appendLine "a" "x") := rfl
  have hafter : exec LoggingProcess.step [.cleanup .exit]
      (LoggingProcess.start.appendLine "a" "x") =
      some ((LoggingProcess.start.appendLine "a" "x").withCleanups
        (LoggingProcess.start.appendLine "a" "x").cleanups.exit) := rfl
  have hflushed := (exit_flushes_log hbefore rfl hafter).2 rfl (fun hcut => hcut.2 rfl) "a"
  exact ⟨_, hafter, hflushed⟩

end Maximal.Platform
