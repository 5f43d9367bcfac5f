import Maximal.Config.ConfigSchema
import Maximal.Lib.Cuts
import Maximal.Lib.Js.JsonText
import Maximal.Lib.Utf8

/-!
# The supervisor's wait for the ready line

A supervisor reads the output of the child it started until a line announces that the child is
ready. What it resolves with and the lines that it reports before do not depend on the chunks in
which the output arrives. The lines that it finds behind the ready line in its buffer do.

## Main definitions

- `parseReadyLine` — the payload of a ready line
- `awaitReadyLine` — the calls of `onLine`, and how the wait ends

## Main results

- `scan_spec` — the wait in terms of the lines of the text
- `awaitReadyLine_cuts`
- `awaitReadyLine_timer` — the wait that the timer may end
-/

namespace Maximal.Live

open Js

/-! ## The ready line -/

def READY_MARKER : List Char := "@@MAXIMAL_READY@@".toList

structure ParsedReadyLine where
  v : Number
  controlPort : Number
  proxyPort : Number
  pid : Number
  deriving DecidableEq

def maxSafeInteger : ℤ := 9007199254740991

def isPort : Number → Bool := Config.isIntBetween 0 65535

def isPid : Number → Bool := Config.isIntBetween (-maxSafeInteger) maxSafeInteger

def readyLineSchema : Json → Option ParsedReadyLine
  | .object fields =>
    match fields.lookup "v", fields.lookup "controlPort", fields.lookup "proxyPort",
      fields.lookup "pid" with
    | some (.number v), some (.number controlPort), some (.number proxyPort), some (.number pid) =>
      if Config.isIntBetween 1 maxSafeInteger v && isPort controlPort && isPort proxyPort &&
          isPid pid then
        some ⟨v, controlPort, proxyPort, pid⟩
      else none
    | _, _, _, _ => none
  | _ => none

/-- The line of an engine with one listener: both ports are that one. -/
def readyLineV0Schema : Json → Option ParsedReadyLine
  | .object fields =>
    match fields.lookup "port", fields.lookup "pid" with
    | some (.number port), some (.number pid) =>
      if isPort port && isPid pid then some ⟨.ofNat 0, port, port, pid⟩ else none
    | _, _ => none
  | _ => none

def anyReadyLineSchema (value : Json) : Option ParsedReadyLine :=
  (readyLineSchema value).or (readyLineV0Schema value)

def parseReadyLine (line : List Char) : Option ParsedReadyLine :=
  let trimmed := trimChars line
  if (READY_MARKER ++ [' ']).isPrefixOf trimmed then
    (Json.parse (String.ofList (trimmed.drop (READY_MARKER.length + 1)))).bind anyReadyLineSchema
  else none

/-! ## The wait -/

/-- `line.trim()` is not empty. -/
def isSaid (line : List Char) : Bool := !(trimChars line).isEmpty

/-- The calls of `onLine` for what stands behind the ready line in the buffer. -/
def flushTrailing (buffer : List Char) : List (List Char) := (buffer.splitOn '\n').filter isSaid

inductive Ended where
  | resolved (ready : ParsedReadyLine)
  /-- `SidecarExitedError` -/
  | exited
  /-- `SidecarReadyTimeoutError` -/
  | timedOut
  deriving DecidableEq

/-- The lines are taken off the buffer, up to a ready line: the calls of `onLine`, and what is left
of the buffer when there is none. The fuel bounds the lines. -/
def scanBuffer : ℕ → List Char → List (List Char) × (ParsedReadyLine ⊕ List Char)
  | 0, buffer => ([], .inr buffer)
  | fuel + 1, buffer =>
    match Cuts.cut ['\n'] buffer with
    | none => ([], .inr buffer)
    | some (line, rest) =>
      match parseReadyLine line with
      -- the ready line is not reported; what is behind it in the buffer is, before the wait ends
      | some ready => (flushTrailing rest, .inl ready)
      | none =>
        let (calls, found) := scanBuffer fuel rest
        ((if isSaid line then [line] else []) ++ calls, found)

/-- A chunk of the output. -/
inductive Chunk where
  | bytes (chunk : List ℕ)
  | text (chunk : List Char)

def Chunk.decode (decoder : Utf8.TextDecoder) : Chunk → Utf8.TextDecoder × List Char
  | .bytes chunk => decoder.decode chunk
  | .text chunk => (decoder, chunk)

/-- `scan` over the chunks up to the end of the output. -/
def scan : Utf8.TextDecoder → List Char → List Chunk → List (List Char) × Ended
  | _, _, [] => ([], .exited)
  | decoder, buffer, chunk :: chunks =>
    let (decoder, text) := chunk.decode decoder
    match scanBuffer (buffer ++ text).length (buffer ++ text) with
    -- later chunks are not read any more
    | (calls, .inl ready) => (calls, .resolved ready)
    | (calls, .inr buffer) =>
      let (calls', ended) := scan decoder buffer chunks
      (calls ++ calls', ended)

/-- The calls of `onLine` up to the end of the wait, and that end. The timer goes off when so many
chunks have been read, or after the wait. -/
def awaitReadyLine (stdout : List Chunk) (timer : Option ℕ := none) :
    List (List Char) × Ended :=
  match timer with
  | none => scan .start [] stdout
  | some read =>
    if stdout.length < read then scan .start [] stdout
    else
      match scan .start [] (stdout.take read) with
      | (calls, .resolved ready) => (calls, .resolved ready)
      -- the reading goes on, but nobody waits for it
      | (calls, _) => (calls, .timedOut)

/-! ## Lines -/

/-- What is reported of lines before the first ready line. -/
def saidBefore (lines : List (List Char)) : List (List Char) :=
  (lines.takeWhile fun line => (parseReadyLine line).isNone).filter isSaid

/-- The text is the lines before the first ready line, that line, and what stands behind it. -/
def ReadyBehind (text rest : List Char) : Prop :=
  ∃ before line, (∀ l ∈ before, parseReadyLine l = none) ∧ (parseReadyLine line).isSome ∧
    text = Cuts.joined ['\n'] before ++ (line ++ '\n' :: rest)

theorem saidBefore_cons_of_none {line : List Char} (h : parseReadyLine line = none)
    (lines : List (List Char)) :
    saidBefore (line :: lines) = (if isSaid line then [line] else []) ++ saidBefore lines := by
  rw [saidBefore, List.takeWhile_cons_of_pos (by rw [h]; rfl), List.filter_cons, saidBefore]
  split <;> rfl

theorem saidBefore_cons_of_some {line : List Char} {ready : ParsedReadyLine}
    (h : parseReadyLine line = some ready) (lines : List (List Char)) :
    saidBefore (line :: lines) = [] := by
  rw [saidBefore, List.takeWhile_cons_of_neg (by rw [h]; exact Bool.false_ne_true), List.filter_nil]

theorem saidBefore_append_of_none {lines : List (List Char)}
    (h : lines.findSome? parseReadyLine = none) (more : List (List Char)) :
    saidBefore (lines ++ more) = saidBefore lines ++ saidBefore more := by
  induction lines with
  | nil => rfl
  | cons line lines ih =>
    rw [List.findSome?_cons] at h
    cases hline : parseReadyLine line with
    | some ready => rw [hline] at h; cases h
    | none =>
      rw [hline] at h
      rw [List.cons_append, saidBefore_cons_of_none hline, saidBefore_cons_of_none hline, ih h,
        List.append_assoc]

theorem saidBefore_append_of_some {lines : List (List Char)} {ready : ParsedReadyLine}
    (h : lines.findSome? parseReadyLine = some ready) (more : List (List Char)) :
    saidBefore (lines ++ more) = saidBefore lines := by
  induction lines with
  | nil => cases h
  | cons line lines ih =>
    cases hline : parseReadyLine line with
    | some ready =>
      rw [List.cons_append, saidBefore_cons_of_some hline, saidBefore_cons_of_some hline]
    | none =>
      rw [List.findSome?_cons, hline] at h
      rw [List.cons_append, saidBefore_cons_of_none hline, saidBefore_cons_of_none hline, ih h]

/-- More output stands behind the ready line. -/
theorem ReadyBehind.append {text rest : List Char} (h : ReadyBehind text rest) (more : List Char) :
    ReadyBehind (text ++ more) (rest ++ more) := by
  obtain ⟨before, line, hbefore, hready, rfl⟩ := h
  refine ⟨before, line, hbefore, hready, ?_⟩
  rw [List.append_assoc, List.append_assoc, List.cons_append]

/-- Lines that are no ready lines stand in front. -/
theorem ReadyBehind.prepend {text rest : List Char} {lines : List (List Char)}
    (h : ReadyBehind text rest) (hlines : ∀ l ∈ lines, parseReadyLine l = none) :
    ReadyBehind (Cuts.joined ['\n'] lines ++ text) rest := by
  obtain ⟨before, ready, hbefore, hready, rfl⟩ := h
  refine ⟨lines ++ before, ready, fun l hl => ?_, hready, ?_⟩
  · exact (List.mem_append.1 hl).elim (hlines l) (hbefore l)
  · simp only [Cuts.joined, List.flatMap_append, List.append_assoc]

/-! ## The buffer -/

/-- The loop reports the lines before the first ready line. -/
theorem scanBuffer_drain (fuel : ℕ) (buffer : List Char) :
    let drained := Cuts.drain ['\n'] fuel buffer
    (drained.1.findSome? parseReadyLine = none →
      scanBuffer fuel buffer = (saidBefore drained.1, .inr drained.2)) ∧
    ∀ ready, drained.1.findSome? parseReadyLine = some ready →
      ∃ rest, scanBuffer fuel buffer =
          (saidBefore drained.1 ++ flushTrailing rest, .inl ready) ∧ ReadyBehind buffer rest := by
  induction fuel generalizing buffer with
  | zero => exact ⟨fun _ => rfl, fun ready h => absurd h.symm (Option.some_ne_none ready)⟩
  | succ fuel ih =>
    cases hcut : Cuts.cut ['\n'] buffer with
    | none =>
      rw [Cuts.drain_of_none hcut, scanBuffer, hcut]
      exact ⟨fun _ => rfl, fun ready h => absurd h.symm (Option.some_ne_none ready)⟩
    | some p =>
      obtain ⟨line, rest⟩ := p
      rw [Cuts.drain_of_some hcut, scanBuffer, hcut]
      dsimp only
      rw [List.findSome?_cons]
      obtain ⟨hnone, hsome⟩ := ih rest
      cases hline : parseReadyLine line with
      | some ready =>
        -- no line stands before the ready line here; those of earlier rounds are put in front below
        refine ⟨nofun, fun ready' hready => ⟨rest, ?_, [], line, nofun, hline ▸ rfl, ?_⟩⟩
        · obtain rfl : ready = ready' := Option.some.inj hready
          rw [saidBefore_cons_of_some hline]
          rfl
        · rw [Cuts.eq_of_cut hcut]
          rfl
      | none =>
        dsimp only
        rw [saidBefore_cons_of_none hline]
        refine ⟨fun h => ?_, fun ready h => ?_⟩
        · rw [hnone h]
        · obtain ⟨rest', hscan, hbehind⟩ := hsome ready h
          refine ⟨rest', by rw [hscan, List.append_assoc], ?_⟩
          have hfront := hbehind.prepend (List.forall_mem_singleton.2 hline)
          rw [Cuts.eq_of_cut hcut, ← List.append_assoc]
          simpa [Cuts.joined] using hfront

theorem scanBuffer_of_none {text : List Char}
    (h : (Cuts.blocks ['\n'] text).1.findSome? parseReadyLine = none) :
    scanBuffer text.length text =
      (saidBefore (Cuts.blocks ['\n'] text).1, .inr (Cuts.blocks ['\n'] text).2) :=
  (scanBuffer_drain text.length text).1 h

theorem scanBuffer_of_some {text : List Char} {ready : ParsedReadyLine}
    (h : (Cuts.blocks ['\n'] text).1.findSome? parseReadyLine = some ready) :
    ∃ rest, scanBuffer text.length text =
        (saidBefore (Cuts.blocks ['\n'] text).1 ++ flushTrailing rest, .inl ready) ∧
      ReadyBehind text rest :=
  (scanBuffer_drain text.length text).2 ready h

/-! ## Chunks -/

/-- The texts that the chunks are decoded to. -/
def decodeChunks : Utf8.TextDecoder → List Chunk → List (List Char)
  | _, [] => []
  | decoder, chunk :: chunks =>
    (chunk.decode decoder).2 :: decodeChunks (chunk.decode decoder).1 chunks

theorem decodeChunks_bytes (decoder : Utf8.TextDecoder) (chunks : List (List ℕ)) :
    decodeChunks decoder (chunks.map .bytes) = decoder.decodeAll chunks := by
  induction chunks generalizing decoder with
  | nil => rfl
  | cons chunk chunks ih => exact congrArg _ (ih _)

/-- How the wait ends, by the lines of the output. -/
def endOf (lines : List (List Char)) : Ended :=
  match lines.findSome? parseReadyLine with
  | some ready => .resolved ready
  | none => .exited

/-- What stands behind the ready line may be reported as well, as far as it is in the buffer. -/
def Trails (text : List Char) (lines trailing : List (List Char)) : Prop :=
  match lines.findSome? parseReadyLine with
  | some _ => ∃ rest more, trailing = flushTrailing rest ∧ ReadyBehind text (rest ++ more)
  | none => trailing = []

/-- What was left in the buffer and what still comes make up the lines that still come. -/
theorem scan_spec (decoder : Utf8.TextDecoder) {buffer : List Char} (chunks : List Chunk)
    (hbuffer : Cuts.cut ['\n'] buffer = none) :
    let text := buffer ++ (decodeChunks decoder chunks).flatten
    let lines := (Cuts.blocks ['\n'] text).1
    ∃ trailing, scan decoder buffer chunks = (saidBefore lines ++ trailing, endOf lines) ∧
      Trails text lines trailing := by
  -- between two chunks the buffer holds no whole line, so what is left of it starts the next one
  induction chunks generalizing decoder buffer with
  | nil =>
    have hlines : (Cuts.blocks ['\n'] (buffer ++ (decodeChunks decoder []).flatten)).1 = [] := by
      rw [decodeChunks, List.flatten_nil, List.append_nil, Cuts.blocks_of_none hbuffer]
    dsimp only
    rw [hlines]
    exact ⟨[], rfl, rfl⟩
  | cons chunk chunks ih =>
    dsimp only
    rw [decodeChunks, List.flatten_cons, ← List.append_assoc]
    generalize htext : buffer ++ (chunk.decode decoder).2 = text
    generalize hrest : (chunk.decode decoder).1 = decoder'
    have hsep : (['\n'] : List Char) ≠ [] := List.cons_ne_nil _ _
    have hscan : scan decoder buffer (chunk :: chunks) =
        match scanBuffer text.length text with
        | (calls, .inl ready) => (calls, .resolved ready)
        | (calls, .inr buffer) =>
          (calls ++ (scan decoder' buffer chunks).1, (scan decoder' buffer chunks).2) := by
      rw [scan, ← htext, ← hrest]
    rw [hscan, Cuts.blocks_append hsep]
    cases hfind : (Cuts.blocks ['\n'] text).1.findSome? parseReadyLine with
    | none =>
      obtain ⟨trailing, hcalls, htrails⟩ := ih decoder' (Cuts.cut_blocks hsep text)
      rw [scanBuffer_of_none hfind]
      dsimp only
      rw [hcalls, saidBefore_append_of_none hfind]
      refine ⟨trailing, ?_, ?_⟩
      · rw [endOf, endOf, List.findSome?_append, hfind, Option.none_or, List.append_assoc]
      · rw [Trails] at htrails ⊢
        rw [List.findSome?_append, hfind, Option.none_or]
        revert htrails
        split
        · rintro ⟨rest, more, rfl, hbehind⟩
          refine ⟨rest, more, rfl, ?_⟩
          have hfront := hbehind.prepend (List.findSome?_eq_none_iff.1 hfind)
          rw [← List.append_assoc, Cuts.joined_blocks_left hsep] at hfront
          exact hfront
        · exact id
    | some ready =>
      obtain ⟨rest, hcalls, hbehind⟩ := scanBuffer_of_some hfind
      rw [hcalls]
      dsimp only
      rw [saidBefore_append_of_some hfind]
      refine ⟨flushTrailing rest, ?_, ?_⟩
      · rw [endOf, List.findSome?_append, hfind]
        rfl
      · rw [Trails, List.findSome?_append, hfind]
        exact ⟨rest, _, rfl, hbehind.append _⟩

/-- The text of a byte stream. -/
def textOf (stdout : List ℕ) : List Char :=
  Utf8.TextDecoder.stripBom (Utf8.Decoder.start.decode stdout).2

/-- The lines of a byte stream; what comes after the last line end is no line. -/
def linesOf (stdout : List ℕ) : List (List Char) := (Cuts.blocks ['\n'] (textOf stdout)).1

theorem awaitReadyLine_bytes (chunks : List (List ℕ)) :
    ∃ trailing, awaitReadyLine (chunks.map .bytes) =
        (saidBefore (linesOf chunks.flatten) ++ trailing, endOf (linesOf chunks.flatten)) ∧
      Trails (textOf chunks.flatten) (linesOf chunks.flatten) trailing := by
  have htext : (decodeChunks .start (chunks.map .bytes)).flatten = textOf chunks.flatten := by
    rw [decodeChunks_bytes, Utf8.TextDecoder.start, Utf8.TextDecoder.decodeAll_eq, textOf]
  have hcut : Cuts.cut ['\n'] [] = none := rfl
  obtain ⟨trailing, hscan, htrails⟩ := scan_spec .start (chunks.map .bytes) hcut
  rw [List.nil_append, htext, ← linesOf] at hscan htrails
  exact ⟨trailing, hscan, htrails⟩

theorem decodeChunks_append (decoder : Utf8.TextDecoder) (chunks more : List Chunk) :
    ∃ texts, decodeChunks decoder (chunks ++ more) = decodeChunks decoder chunks ++ texts := by
  induction chunks generalizing decoder with
  | nil => exact ⟨_, rfl⟩
  | cons chunk chunks ih =>
    obtain ⟨texts, htexts⟩ := ih (chunk.decode decoder).1
    exact ⟨texts, congrArg _ htexts⟩

/-- Who has found the ready line reads no more. -/
theorem scan_append_of_resolved {decoder : Utf8.TextDecoder} {buffer : List Char}
    {chunks : List Chunk} {calls : List (List Char)} {ready : ParsedReadyLine}
    (h : scan decoder buffer chunks = (calls, .resolved ready)) (more : List Chunk) :
    scan decoder buffer (chunks ++ more) = (calls, .resolved ready) := by
  induction chunks generalizing decoder buffer calls with
  | nil =>
    have hended := congrArg Prod.snd h
    cases hended
  | cons chunk chunks ih =>
    rw [scan] at h
    rw [List.cons_append, scan]
    dsimp only at h ⊢
    cases hscan : scanBuffer (buffer ++ (chunk.decode decoder).2).length
        (buffer ++ (chunk.decode decoder).2) with
    | mk calls' found =>
      rw [hscan] at h
      cases found with
      | inl ready' => exact h
      | inr rest =>
        dsimp only at h ⊢
        obtain ⟨rfl, hended⟩ := Prod.mk.inj h
        rw [ih (Prod.ext rfl hended)]

/-- A timer leaves the wait as it is, or ends it before the ready line; the lines that were reported
by then are the first ones of those before it. -/
theorem awaitReadyLine_timer (chunks : List (List ℕ)) (read : ℕ) :
    awaitReadyLine (chunks.map .bytes) (some read) = awaitReadyLine (chunks.map .bytes) ∨
      ∃ calls, awaitReadyLine (chunks.map .bytes) (some read) = (calls, .timedOut) ∧
        calls <+: saidBefore (linesOf chunks.flatten) := by
  have hawait : awaitReadyLine (chunks.map .bytes) (some read) =
      if (chunks.map Chunk.bytes).length < read then scan .start [] (chunks.map .bytes)
      else
        match scan .start [] ((chunks.map .bytes).take read) with
        | (calls, .resolved ready) => (calls, .resolved ready)
        | (calls, _) => (calls, .timedOut) := rfl
  rw [hawait]
  by_cases hlong : (chunks.map Chunk.bytes).length < read
  · rw [if_pos hlong]
    exact .inl rfl
  rw [if_neg hlong]
  have hcut : Cuts.cut ['\n'] [] = none := rfl
  have hsplit := List.take_append_drop read (chunks.map Chunk.bytes)
  obtain ⟨trailing, hscan, htrails⟩ := scan_spec .start ((chunks.map .bytes).take read) hcut
  rw [hscan]
  have htext : (decodeChunks .start (chunks.map .bytes)).flatten = textOf chunks.flatten := by
    rw [decodeChunks_bytes, Utf8.TextDecoder.start, Utf8.TextDecoder.decodeAll_eq, textOf]
  obtain ⟨texts, htexts⟩ := decodeChunks_append .start ((chunks.map .bytes).take read)
    ((chunks.map .bytes).drop read)
  rw [hsplit] at htexts
  rw [List.nil_append] at hscan htrails ⊢
  rw [endOf]
  cases hfind : (Cuts.blocks ['\n'] (decodeChunks .start
      ((chunks.map .bytes).take read)).flatten).1.findSome? parseReadyLine with
  | some ready =>
    left
    rw [endOf, hfind] at hscan
    have hall := scan_append_of_resolved hscan ((chunks.map .bytes).drop read)
    rw [hsplit] at hall
    exact hall.symm
  | none =>
    right
    rw [Trails, hfind] at htrails
    obtain rfl : trailing = [] := htrails
    refine ⟨_, rfl, ?_⟩
    rw [linesOf, ← htext, htexts, List.flatten_append, Cuts.blocks_append (List.cons_ne_nil _ _),
      List.append_nil, saidBefore_append_of_none hfind]
    exact List.prefix_append _ _

/-- Two ways of cutting one byte stream end the wait alike, with the payload of the first ready
line if there is one, and report the same lines before it. -/
theorem awaitReadyLine_cuts {chunks chunks' : List (List ℕ)}
    (h : chunks.flatten = chunks'.flatten) :
    ∃ trailing trailing',
      awaitReadyLine (chunks.map .bytes) =
        (saidBefore (linesOf chunks.flatten) ++ trailing, endOf (linesOf chunks.flatten)) ∧
      awaitReadyLine (chunks'.map .bytes) =
        (saidBefore (linesOf chunks.flatten) ++ trailing', endOf (linesOf chunks.flatten)) ∧
      Trails (textOf chunks.flatten) (linesOf chunks.flatten) trailing ∧
      Trails (textOf chunks.flatten) (linesOf chunks.flatten) trailing' := by
  obtain ⟨trailing, hawait, htrails⟩ := awaitReadyLine_bytes chunks
  obtain ⟨trailing', hawait', htrails'⟩ := awaitReadyLine_bytes chunks'
  rw [← h] at hawait' htrails'
  exact ⟨trailing, trailing', hawait, hawait', htrails, htrails'⟩

/-- The output of an old engine: a line, the ready line, and one more. -/
def oldEngineOutput : List ℕ :=
  Utf8.encode "boot\n@@MAXIMAL_READY@@ \x7b\"port\":80,\"pid\":7\x7d\nup\n".toList

/-- The marker may be cut. -/
theorem awaitReadyLine_cuts_marker :
    (awaitReadyLine ([oldEngineOutput.take 9, oldEngineOutput.drop 9].map .bytes)).2 =
      .resolved ⟨.ofNat 0, .ofNat 80, .ofNat 80, .ofNat 7⟩ := by
  have hcut : ∀ output : List ℕ,
      (awaitReadyLine ([output.take 9, output.drop 9].map .bytes)).2 = endOf (linesOf output) := by
    intro output
    have hflatten : [output.take 9, output.drop 9].flatten = [output].flatten := by simp
    obtain ⟨trailing, trailing', hawait, -⟩ := awaitReadyLine_cuts hflatten
    rw [hawait, hflatten, List.flatten_singleton]
  have hend : endOf (linesOf oldEngineOutput) =
      .resolved ⟨.ofNat 0, .ofNat 80, .ofNat 80, .ofNat 7⟩ := by decide +kernel
  rw [hcut, hend]

end Maximal.Live
